import Outbox.Scenario.Tick

/-!
# Worlds that nobody else writes to

Calls of the store may fail in such a world, but its table changes only by the calls that do not.
`Onward` says what is known of a world after a call, a send or a wait: its table, the messages that
were sent and the time that has passed. So the steps of a tick can be chained.
-/

namespace Outbox

open Relay (Tick)
open Scenario (World)

/-- The call asks for one entry, and can be told that there is none. -/
def Call.looksUp : Call → Bool
  | .get _ | .replayFailed _ => true
  | _ => false

namespace Scenario

/-- The error that a call fails with by a fault, if it fails. -/
def Fault.error? (c : Call) (f : Fault) : Option StoreError :=
  match f.answer? c with
  | some (.error e) => some e
  | _ => none

/-- A fault makes a call fail or does nothing to it, unless the call looks something up. -/
theorem Fault.answer?_eq {c : Call} (hc : c.looksUp = false) (f : Fault) :
    f.answer? c = (f.error? c).map .error := by
  cases f with
  | absent => cases c <;> first | rfl | cases hc
  | contention | leaseLost | lockTimeout | poolClosed | refused | error => rfl

namespace World

/-- Nobody else writes to the store, until the deadline if there is one. -/
structure Unshared (deadline : Option Millis) (w : World) : Prop where
  fallback : w.fallback.before = []
  replies : ∀ r ∈ w.replies, r.before = []
  schedule : ∀ p ∈ w.schedule, (∀ d ∈ deadline, p.1 ≤ d) → ∀ e, p.2 ≠ .insert e

/-- No call of the store fails. -/
def Faultless (w : World) : Prop := ∀ m, ∀ f ∈ w.faults m, f = none

/-- The error that a call would fail with now, if it would. -/
def injected? (w : World) (c : Call) : Option StoreError :=
  (w.nextFault c.method).1.bind (·.error? c)

/-- The reply to the message that is sent after `n` others. -/
def reply (w : World) (n : Nat) : Reply := w.replies.getD n w.fallback

/-- The messages sent so far, in order. -/
def messages (w : World) : List Message := (w.sent.map (·.2)).reverse

/-- Some time later a world has some table, and some more messages were sent. -/
structure Onward (w : World) (t : Table) (ms : List Message) (s : Millis) (w' : World) : Prop where
  table : w'.table = t
  messages : w'.messages = w.messages ++ ms
  reply : ∀ n, w'.reply n = w.reply (ms.length + n)
  time : w'.time = w.time + s
  faults : ∀ m, w'.faults m <:+ w.faults m
  unshared : ∀ {d}, w.Unshared d → w'.Unshared d

variable {w w' w'' : World} {t : Table} {d : Option Millis} {c : Call}

theorem Unshared.of_script (hb : w.fallback.before = []) (hr : w.replies = [])
    (hs : w.schedule = []) : w.Unshared d := by
  refine ⟨hb, fun r h => ?_, fun p h => ?_⟩
  · rw [hr] at h
    exact absurd h List.not_mem_nil
  · rw [hs] at h
    exact absurd h List.not_mem_nil

theorem nextFault_eq_none {m : Call.Method} (h : ∀ f ∈ w.faults m, f = none) :
    (w.nextFault m).1 = none := by
  unfold nextFault
  split
  · rfl
  · rename_i f fs hf
    exact h f (hf ▸ List.mem_cons_self)

theorem injected?_eq_none (h : ∀ f ∈ w.faults c.method, f = none) : w.injected? c = none := by
  unfold injected?
  rw [nextFault_eq_none h]
  rfl

namespace Onward

/-- Where neither the table nor the time nor anything about messages changed. -/
theorem of_eq (ht : w'.table = w.table) (hs : w'.sent = w.sent) (hr : w'.replies = w.replies)
    (hf : w'.fallback = w.fallback) (hm : w'.time = w.time) (hsch : w'.schedule <:+ w.schedule)
    (hfaults : ∀ m, w'.faults m <:+ w.faults m) : w.Onward w.table [] 0 w' := by
  refine ⟨ht, ?_, fun n => ?_, hm, hfaults, fun hu => ⟨hf ▸ hu.fallback, hr ▸ hu.replies,
    fun p hp => hu.schedule p (hsch.subset hp)⟩⟩
  · rw [World.messages, hs, List.append_nil]
    rfl
  · rw [World.reply, hr, hf, List.length_nil, Nat.zero_add]
    rfl

theorem refl (w : World) : w.Onward w.table [] 0 w :=
  .of_eq rfl rfl rfl rfl rfl (List.suffix_refl _) fun _ => List.suffix_refl _

theorem trans {t' : Table} {ms ms' : List Message} {s s' : Millis} (h : w.Onward t ms s w')
    (h' : w'.Onward t' ms' s' w'') : w.Onward t' (ms ++ ms') (s + s') w'' := by
  refine ⟨h'.table, ?_, fun n => ?_, ?_, fun m => (h'.faults m).trans (h.faults m),
    fun hu => h'.unshared (h.unshared hu)⟩
  · rw [h'.messages, h.messages, List.append_assoc]
  · rw [h'.reply, h.reply, List.length_append, Nat.add_assoc]
  · rw [h'.time, h.time, Nat.add_assoc]

theorem faultless {ms : List Message} {s : Millis} (h : w.Onward t ms s w') (hw : w.Faultless) :
    w'.Faultless := fun m f hf => hw m f ((h.faults m).subset hf)

end Onward

/-! ### Calls of the store -/

/-- The world after a call was taken down and the fault that is due for it was used up. -/
def noted (w : World) (c : Call) : World := ((w.log c.method).nextFault c.method).2

theorem onward_noted (w : World) (c : Call) : w.Onward w.table [] 0 (w.noted c) := by
  unfold noted nextFault
  split
  · exact .of_eq rfl rfl rfl rfl rfl (List.suffix_refl _) fun _ => List.suffix_refl _
  · rename_i f fs hf
    refine .of_eq rfl rfl rfl rfl rfl (List.suffix_refl _) fun m => ?_
    simp only
    split
    · rename_i hm
      rw [hm, show w.faults c.method = f :: fs from hf]
      exact List.suffix_cons f fs
    · exact List.suffix_refl _

theorem perform_eq (w : World) (c : Call) :
    w.perform c = match (w.nextFault c.method).1.bind (·.answer? c) with
      | some a => (.ok a, w.noted c)
      | none => (w.noted c).performDirect c := by
  have hfault : ((w.log c.method).nextFault c.method).1 = (w.nextFault c.method).1 := by
    unfold nextFault
    have hlog : (w.log c.method).faults = w.faults := rfl
    rw [hlog]
    split <;> rfl
  rw [← hfault]
  rfl

theorem fault_eq_injected? (w : World) (hc : c.looksUp = false) :
    (w.nextFault c.method).1.bind (·.answer? c) = (w.injected? c).map .error := by
  unfold injected?
  cases (w.nextFault c.method).1 with
  | none => rfl
  | some f => exact f.answer?_eq hc

/-- A call fails with the error that is injected into it, and the store stays as it is. -/
theorem perform_injected (hc : c.looksUp = false) {e : StoreError} (he : w.injected? c = some e) :
    ∃ w', w.perform c = (.ok (.error e), w') ∧ w.Onward w.table [] 0 w' := by
  refine ⟨w.noted c, ?_, w.onward_noted c⟩
  rw [perform_eq, fault_eq_injected? w hc, he]
  rfl

theorem performDirect_eq (w : World) (c : Call) :
    w.performDirect c = if w.table.overflows c then (.error .countOverflow, w)
      else (.ok (w.table.answer c).1, w.withTable (w.table.answer c).2) := by
  unfold performDirect Table.perform
  cases w.table.overflows c <;> rfl

theorem perform_answered (hf : (w.nextFault c.method).1.bind (·.answer? c) = none)
    (ho : w.table.overflows c = false) :
    ∃ w', w.perform c = (.ok (w.table.answer c).1, w') ∧ w.Onward (w.table.answer c).2 [] 0 w' := by
  have hon := w.onward_noted c
  refine ⟨(w.noted c).withTable (w.table.answer c).2, ?_, ?_⟩
  · rw [perform_eq, hf]
    simp only [performDirect_eq, hon.table, ho]
    rfl
  · exact ⟨rfl, hon.messages, hon.reply, hon.time, hon.faults,
      fun hu => ⟨(hon.unshared hu).fallback, (hon.unshared hu).replies, (hon.unshared hu).schedule⟩⟩

theorem perform_overflow (hf : (w.nextFault c.method).1.bind (·.answer? c) = none)
    (ho : w.table.overflows c = true) : ∃ w', w.perform c = (.error .countOverflow, w') := by
  refine ⟨w.noted c, ?_⟩
  rw [perform_eq, hf]
  simp only [performDirect_eq, (w.onward_noted c).table, ho]
  rfl

/-! ### Sends and waits -/

theorem Unshared.send (hu : w.Unshared d) (m : Message) :
    ∃ w', w.send m = (.ok (w.reply 0), w') ∧ w.Onward w.table [m] 0 w' := by
  cases hr : w.replies with
  | nil =>
    refine ⟨{ w with sent := (w.time, m) :: w.sent }, ?_, rfl, by simp [messages], fun n => ?_, rfl,
      fun _ => List.suffix_refl _, fun hu => ⟨hu.fallback, hu.replies, hu.schedule⟩⟩
    · simp [World.send, nextReply, reply, hr, hu.fallback, actAll]
    · simp [reply, hr]
  | cons r rs =>
    have hbefore : r.before = [] := hu.replies r (hr ▸ List.mem_cons_self)
    refine ⟨{ w with sent := (w.time, m) :: w.sent, replies := rs }, ?_, rfl, by simp [messages],
      fun n => ?_, rfl, fun _ => List.suffix_refl _,
      fun hu => ⟨hu.fallback, fun r' h => hu.replies r' (hr ▸ List.mem_cons_of_mem _ h),
        hu.schedule⟩⟩
    · simp [World.send, nextReply, reply, hr, hbefore, actAll]
    · simp [reply, hr, Nat.add_comm 1 n]

theorem onward_happenUntil (limit : Millis) {hs : List (Millis × Happening)}
    (hi : ∀ p ∈ hs, p.1 ≤ limit → ∀ e, p.2 ≠ .insert e) (w : World) :
    Onward { w with schedule := hs } w.table [] 0 (happenUntil limit hs w) := by
  induction hs generalizing w with
  | nil => exact .refl { w with schedule := [] }
  | cons p hs ih =>
    obtain ⟨time, h⟩ := p
    unfold happenUntil
    split
    · rename_i hdue
      have hrest := ih (fun q hq => hi q (List.mem_cons_of_mem _ hq)) (w.happen h)
      have hfirst : Onward { w with schedule := (time, h) :: hs } w.table [] 0
          { w.happen h with schedule := hs } := by
        have hsuffix : hs <:+ (time, h) :: hs := List.suffix_cons ..
        cases h with
        | insert e => exact absurd rfl (hi _ List.mem_cons_self hdue e)
        | signal | dropSignal | relayConfig | cleanerConfig =>
          exact .of_eq rfl rfl rfl rfl rfl hsuffix fun _ => List.suffix_refl _
      have htable : (w.happen h).table = w.table := hfirst.table
      rw [htable] at hrest
      exact hfirst.trans hrest
    · exact .refl { w with schedule := (time, h) :: hs }

theorem Unshared.advance (hu : w.Unshared d) {time : Millis} (ht : ∀ limit ∈ d, time ≤ limit) :
    w.Onward w.table [] (time - w.time) (w.advance time) := by
  have h : w.Onward w.table [] 0 (happenUntil time w.schedule w) :=
    onward_happenUntil time
      (fun p hp hdue => hu.schedule p hp fun limit hl => Nat.le_trans hdue (ht limit hl)) w
  refine ⟨h.table, h.messages, h.reply, ?_, h.faults, fun hu => ?_⟩
  · rw [Nat.add_comm, Nat.sub_add_eq_max, Nat.max_comm]
    rfl
  · exact ⟨(h.unshared hu).fallback, (h.unshared hu).replies, (h.unshared hu).schedule⟩

/-! ### Steps of a tick -/

section
variable {t : Tick} {p : Tick.Phase}

theorem runTick_call {deadline : Option Millis} {c : Call} {next : c.Answer → Tick.Phase}
    (ha : t.ask p = .call c next) : w.runTick t deadline p =
      match w.perform c with
      | (.error e, w) => (.error e, w)
      | (.ok a, w) => w.runTick t deadline (next a) := by
  rw [runTick]
  split <;> rename_i h
  · cases ha.symm.trans h
  · cases ha.symm.trans h
    rfl
  · cases ha.symm.trans h

theorem runTick_send {deadline : Option Millis} {m : Message} {next : Option Delivery → Tick.Phase}
    (ha : t.ask p = .send m next) : w.runTick t deadline p =
      match w.send m with
      | (.error e, w) => (.error e, w)
      | (.ok reply, w) =>
        let arrival := w.time + reply.wait t.config.sendTimeout
        match deadline.filter (· < arrival) with
        | some d => (.ok none, w.advance d)
        | none =>
          (w.advance arrival).runTick t deadline (next (reply.within t.config.sendTimeout)) := by
  rw [runTick]
  split <;> rename_i h
  · cases ha.symm.trans h
  · cases ha.symm.trans h
  · cases ha.symm.trans h
    rfl

/-- A call that is answered leads to the next phase. -/
theorem runTick_answered {deadline : Option Millis} {c : Call} {next : c.Answer → Tick.Phase}
    {a : c.Answer} (ha : t.ask p = .call c next) (hw : w.perform c = (.ok a, w')) :
    w.runTick t deadline p = w'.runTick t deadline (next a) := by
  rw [runTick_call ha, hw]

/-- So does a reply that does not come after the deadline. -/
theorem runTick_replied {deadline : Option Millis} {m : Message}
    {next : Option Delivery → Tick.Phase} {r : Reply} (ha : t.ask p = .send m next)
    (hw : w.send m = (.ok r, w'))
    (hd : ∀ limit ∈ deadline, w'.time + r.wait t.config.sendTimeout ≤ limit) :
    w.runTick t deadline p = (w'.advance (w'.time + r.wait t.config.sendTimeout)).runTick t deadline
      (next (r.within t.config.sendTimeout)) := by
  have hnone : deadline.filter (· < w'.time + r.wait t.config.sendTimeout) = none :=
    Option.filter_eq_none_iff.2 fun limit hl => by simpa using hd limit hl
  rw [runTick_send ha, hw]
  simp only [hnone]

theorem runTick_done {deadline : Option Millis} {r : Except StoreError Relay.Report}
    (ha : t.ask p = .done r) : w.runTick t deadline p = (.ok (some r), w) := by
  rw [runTick]
  split <;> rename_i h
  · cases ha.symm.trans h
    rfl
  · cases ha.symm.trans h
  · cases ha.symm.trans h

end

end World
end Scenario
end Outbox
