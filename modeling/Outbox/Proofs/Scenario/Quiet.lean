import Outbox.Proofs.Scenario.Unshared

/-!
# Quiet worlds

In a quiet world no call of the store fails and nobody else ever writes to it. It is still quiet
when somebody has called the store, sent, or waited; `Leads` says so, and which table it has now and
what was sent, for which the broker has used up as many replies.
-/

namespace Outbox.Scenario.World

/-- No call fails, and nobody else writes to the table. -/
structure Quiet (w : World) : Prop where
  faults : ∀ m, ∀ f ∈ w.faults m, f = none
  fallback : w.fallback.before = []
  replies : ∀ r ∈ w.replies, r.before = []
  schedule : ∀ p ∈ w.schedule, ∀ e, p.2 ≠ .insert e

/-- A later quiet world, with some table, in which some more messages were sent. -/
structure Leads (w : World) (t : Table) (ms : List Message) (w' : World) : Prop where
  quiet : w'.Quiet
  table : w'.table = t
  messages : w'.messages = w.messages ++ ms
  reply : ∀ n, w'.reply n = w.reply (ms.length + n)

variable {w w' w'' : World}

/-- Where neither the table nor anything about messages changed. -/
theorem Leads.of_eq (hq : w'.Quiet) (ht : w'.table = w.table) (hs : w'.sent = w.sent)
    (hr : w'.replies = w.replies) (hf : w'.fallback = w.fallback) : w.Leads w.table [] w' := by
  refine ⟨hq, ht, ?_, fun n => ?_⟩
  · rw [World.messages, hs, List.append_nil]
    rfl
  · rw [World.reply, hr, hf, List.length_nil, Nat.zero_add]
    rfl

theorem Leads.trans {s s' : Table} {ms ms' : List Message} (h : w.Leads s ms w')
    (h' : w'.Leads s' ms' w'') : w.Leads s' (ms ++ ms') w'' := by
  refine ⟨h'.quiet, h'.table, ?_, fun n => ?_⟩
  · rw [h'.messages, h.messages, List.append_assoc]
  · rw [h'.reply, h.reply, List.length_append, Nat.add_assoc]

namespace Quiet

/-- A world without faults and events is quiet if nothing comes between its sends and replies. -/
theorem of_script (hf : w.faults = fun _ => []) (hs : w.schedule = [])
    (hb : w.fallback.before = []) (hr : ∀ r ∈ w.replies, r.before = []) : w.Quiet := by
  refine ⟨fun m f h => ?_, hb, hr, fun p h => ?_⟩
  · rw [hf] at h
    exact absurd h List.not_mem_nil
  · rw [hs] at h
    exact absurd h List.not_mem_nil

theorem unshared (hq : w.Quiet) : w.Unshared none :=
  ⟨hq.fallback, hq.replies, fun p hp _ => hq.schedule p hp⟩

theorem leads (hq : w.Quiet) {s : Table} {ms : List Message} {time : Millis}
    (h : w.Onward s ms time w') : w.Leads s ms w' := by
  have hu := h.unshared hq.unshared
  refine ⟨⟨h.faultless hq.faults, hu.fallback, hu.replies, fun p hp => ?_⟩, h.table, h.messages,
    h.reply⟩
  exact hu.schedule p hp fun _ hd => nomatch hd

end Quiet
end Outbox.Scenario.World
