import Outbox.Proofs.Relay.Batch
import Outbox.Proofs.Scenario.Quiet
import Outbox.Proofs.Table.Oldest

/-!
# What a tick makes of the table

In a quiet world a tick changes each row on its own: an exhausted row is retired, the oldest rows
that can be claimed are sent and end as their deliveries did, and all others stay. The loop over the
candidates keeps each row that is still to be sent as it was listed, so the listing, the claims and
the sweep agree on who is idle.
-/

namespace Outbox

open Relay (Tick)
open Scenario (World)

namespace Relay.Tick

/-- The report of a tick that retired so many entries and sent those of a list. -/
def report (t : Tick) (broker : Message → Option Delivery) (retired : Nat) (due : List Entry) :
    Report :=
  due.foldl (fun r e => r.add (t.verdict e (t.delivery broker e))) (.start due.length retired)

/-- What sending the entries of a list makes of a row. -/
def settle (t : Tick) (broker : Message → Option Delivery) (due : List Entry) (e : Entry) : Entry :=
  if e ∈ due then t.settled e (t.delivery broker e) else e

/-- What a tick makes of a row, where `due` are the entries that it sends. -/
def image (t : Tick) (broker : Message → Option Delivery) (due : List Entry) (e : Entry) : Entry :=
  if e.status = .pending ∧ e.isIdle t.cutoff ∧ t.config.maxRetry ≤ e.retryCount then
    { e with
      status := .failed
      lastError := some (e.lastError.getD Entry.retryLimitReached)
      claimedBy := none
      claimedAt := none }
  else t.settle broker due e

end Relay.Tick

/-- First the sweep and then the loop make the image of a row. -/
theorem Relay.Tick.settle_failExhausted (t : Tick) (broker : Message → Option Delivery)
    {due : List Entry} (hdue : ∀ d ∈ due, d.isClaimable t.config.maxRetry t.cutoff) (e : Entry) :
    t.settle broker due (e.failExhausted t.config.maxRetry t.cutoff) = t.image broker due e := by
  by_cases hx : e.isExhausted t.config.maxRetry t.cutoff
  · have hnot : e.retired ∉ due := fun h => by
      have hc := hdue _ h
      simp [Entry.isClaimable, Entry.retired, Entry.release] at hc
    rw [Entry.failExhausted, if_pos hx, settle, if_neg hnot, image,
      if_pos (Entry.isExhausted_iff.1 hx)]
    rfl
  · rw [Entry.failExhausted, if_neg hx, image, if_neg (mt Entry.isExhausted_iff.2 hx)]

namespace Scenario.World
variable {w : World} {t : Tick}

/-- The script has the replies of a broker, as long as these messages are sent. -/
def Answers (w : World) (limit : Millis) (broker : Message → Option Delivery) (ms : List Message) :
    Prop := ∀ i m, ms[i]? = some m → (w.reply i).within limit = broker m

/-- In a quiet world a tick stops at no candidate whose attempts can be counted. -/
theorem not_stops {e : Entry} (hlt : e.retryCount < Entry.greatestCount) : ¬ w.Stops t none e := by
  rintro (⟨hmem, -⟩ | ⟨hcount, -⟩)
  · cases hmem
  · exact absurd hlt (Int.not_lt.2 hcount)

/-- The loop over the candidates: each of them is settled as its send ended. -/
theorem Quiet.runTick_proceed (broker : Message → Option Delivery) {es : List Entry}
    (hq : w.Quiet) (hd : w.table.Distinct) (hes : es.Nodup)
    (hc : ∀ e ∈ es, e ∈ w.table ∧ e.isClaimable t.config.maxRetry t.cutoff ∧
      e.retryCount < Entry.greatestCount)
    (hb : w.Answers t.config.sendTimeout broker (es.map .ofEntry)) (report : Relay.Report) :
    ∃ w', w.runTick t none (.proceed es report) = (.ok (some (.ok
        (es.foldl (fun r e => r.add (t.verdict e (t.delivery broker e))) report))), w') ∧
      w.Leads (w.table.map (t.settle broker es)) (es.map .ofEntry) w' := by
  obtain ⟨lots, done, left, w', rfl, hgets, hleft⟩ :=
    hq.unshared.gets_cases (t := t) hd hes fun e he => by
      obtain ⟨hmem, hclaimable, -⟩ := hc e he
      obtain ⟨hp, hi, -⟩ := Entry.isClaimable_iff.1 hclaimable
      exact ⟨hmem, hp, hi⟩
  obtain rfl : left = [] := by
    cases left with
    | nil => rfl
    | cons e left =>
      exact absurd (hleft e rfl) (not_stops (hc e (by simp)).2.2)
  rw [List.append_nil] at *
  have hlots : ∀ e ∈ done, lots e = .recorded (t.delivery broker e) := by
    intro e he
    obtain ⟨i, hi⟩ := List.mem_iff_getElem?.1 he
    rw [hgets.lots_eq hq.faults hi, Tick.heard, hb i (.ofEntry e) (by simp [hi])]
    rfl
  obtain ⟨time, hon⟩ := hgets.onward hd hes fun e he => (hc e he).1
  have hmap : w.table.map (t.handled lots done) = w.table.map (t.settle broker done) := by
    refine List.map_congr_left fun x _ => ?_
    unfold Tick.handled Tick.settle
    split <;> rename_i hx
    · rw [hlots x hx]
      rfl
    · rfl
  rw [hmap, Relay.Lot.flatMap_messages fun e he => ⟨_, hlots e he⟩] at hon
  have hrun := hgets.run [] report
  rw [List.append_nil] at hrun
  refine ⟨w', ?_, hq.leads hon⟩
  rw [hrun, runTick_done rfl, List.foldl_ext _ _ _ fun r e he => by rw [hlots e he]]
  rfl

/-- Before its loop a tick retires the exhausted rows and lists the oldest of the others. -/
theorem Quiet.runTick_sweep (hq : w.Quiet) (hd : w.table.Distinct) {due : List Entry}
    (hdue : Oldest t.config.batchSize.toNat
      (w.table.filter (·.isClaimable t.config.maxRetry t.cutoff)) due) :
    ∃ w', w.runTick t none .sweep = w'.runTick t none (.proceed due
        (.start due.length (w.table.countP (·.isExhausted t.config.maxRetry t.cutoff)))) ∧
      w.Leads (w.table.failExhausted t.config.maxRetry t.cutoff).2 [] w' := by
  cases w.opening t none with
  | sweepFails faulty | listFails faulty => exact absurd hq.faults faulty
  | @opens _ retired _ _ due_eq retired_eq _ _ run onward =>
    have hlist := Table.oldest_findPending_failExhausted hd t.config.maxRetry t.config.batchSize
      t.cutoff
    have hretired : retired.length = w.table.countP (·.isExhausted t.config.maxRetry t.cutoff) := by
      rw [← retired_eq, Table.length_failExhausted]
    rw [due_eq] at hlist
    rw [hlist.unique hdue, hretired] at run
    exact ⟨_, run, hq.leads onward⟩

/-- A whole tick: what it leaves of the table, and what it sends. Only an entry that is sent has its
attempts counted. -/
theorem Quiet.tick (hq : w.Quiet) (hd : w.table.Distinct) {worker : String} {now : Instant}
    (ht : Tick.start? worker w.relay.value now = some t) {due : List Entry}
    (hdue : Oldest t.config.batchSize.toNat
      (w.table.filter (·.isClaimable t.config.maxRetry t.cutoff)) due)
    (hlt : ∀ e ∈ due, e.retryCount < Entry.greatestCount) {broker : Message → Option Delivery}
    (hb : w.Answers t.config.sendTimeout broker (due.map .ofEntry)) :
    ∃ w', w.tick worker now none = (.ok (some (.ok (t.report broker
        (w.table.countP (·.isExhausted t.config.maxRetry t.cutoff)) due))), w') ∧
      w.Leads (w.table.map (t.image broker due)) (due.map .ofEntry) w' := by
  obtain ⟨w₁, h₁, l₁⟩ := hq.runTick_sweep hd hdue
  have hc : ∀ e ∈ due, e ∈ w₁.table ∧ e.isClaimable t.config.maxRetry t.cutoff ∧
      e.retryCount < Entry.greatestCount := by
    intro e he
    obtain ⟨hmem, hclaimable⟩ := List.mem_filter.1 (hdue.subset he)
    rw [l₁.table]
    exact ⟨List.mem_map.2 ⟨e, hmem, Entry.failExhausted_of_isClaimable hclaimable⟩, hclaimable,
      hlt e he⟩
  have hd₁ : w₁.table.Distinct := by
    rw [l₁.table]
    exact hd.failExhausted _ _
  have hb₁ : w₁.Answers t.config.sendTimeout broker (due.map .ofEntry) := by
    intro i m hi
    rw [l₁.reply, List.length_nil, Nat.zero_add]
    exact hb i m hi
  obtain ⟨w₂, h₂, l₂⟩ := l₁.quiet.runTick_proceed broker hd₁ hdue.nodup hc hb₁
    (.start due.length (w.table.countP (·.isExhausted t.config.maxRetry t.cutoff)))
  have hmap : w₁.table.map (t.settle broker due) = w.table.map (t.image broker due) := by
    rw [l₁.table, Table.failExhausted, List.map_map]
    exact List.map_congr_left fun e _ =>
      t.settle_failExhausted broker (fun d hd => (hc d hd).2.1) e
  refine ⟨w₂, ?_, hmap ▸ l₁.trans l₂⟩
  rw [World.tick, ht]
  exact h₁.trans h₂

/-- A tick in a quiet world retires the exhausted rows, sends the oldest rows that can be claimed,
in order and each of them once, and settles them as their sends ended; it leaves every other row. -/
theorem tick_eq_image (hq : w.Quiet) (hd : w.table.Distinct)
    (hlt : ∀ e ∈ w.table, e.retryCount < Entry.greatestCount) {worker : String} {now : Instant}
    (ht : Tick.start? worker w.relay.value now = some t) :
    ∃ due, Oldest t.config.batchSize.toNat
        (w.table.filter (·.isClaimable t.config.maxRetry t.cutoff)) due ∧
      ∀ broker, w.Answers t.config.sendTimeout broker (due.map .ofEntry) →
        ∃ w', w.tick worker now none = (.ok (some (.ok (t.report broker
            (w.table.countP (·.isExhausted t.config.maxRetry t.cutoff)) due))), w') ∧
          w'.table = w.table.map (t.image broker due) ∧
          w'.messages = w.messages ++ due.map .ofEntry := by
  have hdue := Table.oldest_findPending hd t.config.maxRetry t.config.batchSize t.cutoff
  refine ⟨_, hdue, fun broker hb => ?_⟩
  generalize w.table.findPending t.config.maxRetry t.config.batchSize t.cutoff = due at hdue hb
  obtain ⟨w₁, h₁, l₁⟩ := hq.runTick_sweep hd hdue
  have hc : ∀ e ∈ due, e ∈ w.table ∧ e.isClaimable t.config.maxRetry t.cutoff :=
    fun e he => List.mem_filter.1 (hdue.subset he)
  have hd₁ : w₁.table.Distinct := by
    rw [l₁.table]
    exact hd.failExhausted _ _
  have hc₁ : ∀ e ∈ due, e ∈ w₁.table ∧ e.isClaimable t.config.maxRetry t.cutoff ∧
      e.retryCount < Entry.greatestCount := by
    intro e he
    obtain ⟨hmem, hclaimable⟩ := hc e he
    rw [l₁.table]
    exact ⟨List.mem_map.2 ⟨e, hmem, Entry.failExhausted_of_isClaimable hclaimable⟩, hclaimable,
      hlt e hmem⟩
  have hb₁ : w₁.Answers t.config.sendTimeout broker (due.map .ofEntry) := by
    intro i m hi
    rw [l₁.reply, List.length_nil, Nat.zero_add]
    exact hb i m hi
  obtain ⟨w₂, h₂, l₂⟩ := l₁.quiet.runTick_proceed broker hd₁ hdue.nodup hc₁ hb₁
    (.start due.length (w.table.countP (·.isExhausted t.config.maxRetry t.cutoff)))
  refine ⟨w₂, ?_, ?_, (l₁.trans l₂).messages⟩
  · rw [tick, ht]
    exact h₁.trans h₂
  · rw [l₂.table, l₁.table, Table.failExhausted, List.map_map]
    exact List.map_congr_left fun e _ =>
      t.settle_failExhausted broker (fun d hd => (hc d hd).2) e

/-- Three rows of which a tick has room for two, and one without attempts left. The broker does not
answer to the second message in time. -/
def backlog : World :=
  { ofTable [{ Entry.sample with id := .ofNat 1, createdAt := 5 },
      { Entry.sample with id := .ofNat 2, createdAt := 3, retryCount := 2 },
      { Entry.sample with id := .ofNat 3, createdAt := 1 },
      { Entry.sample with id := .ofNat 4, retryCount := 3 }] 0 with
    relay := .new { RelayConfig.default with batchSize := 2 }
    replies := [.accept, ⟨[], none, .ok ()⟩] }

theorem tick_backlog :
    backlog.Quiet ∧ backlog.table.Distinct ∧
    (∀ e ∈ backlog.table, e.retryCount < Entry.greatestCount) ∧
    ∃ w', backlog.tick "w1" 10 none = (.ok (some (.ok ⟨2, 1, 0, 2, 0, 0, 0⟩)), w') ∧
      w'.table = [{ Entry.sample with id := .ofNat 1, createdAt := 5 },
        { Entry.sample with
          id := .ofNat 2, createdAt := 3, retryCount := 3, status := .failed,
          lastError := some "send timed out after 5000ms" },
        { Entry.sample with
          id := .ofNat 3, createdAt := 1, status := .published, publishedAt := some 10 },
        { Entry.sample with
          id := .ofNat 4, retryCount := 3, status := .failed,
          lastError := some "retry limit reached" }] ∧
      w'.messages.map (·.entryId) = [.ofNat 3, .ofNat 2] := by
  let t : Tick := ⟨"w1", { RelayConfig.default with batchSize := 2 }, 10, -299999999990⟩
  let due : List Entry := [{ Entry.sample with id := .ofNat 3, createdAt := 1 },
    { Entry.sample with id := .ofNat 2, createdAt := 3, retryCount := 2 }]
  let broker (m : Message) : Option Delivery := if m.entryId = .ofNat 3 then some (.ok ()) else none
  have hq : backlog.Quiet := ⟨fun _ _ h => absurd h List.not_mem_nil, rfl, by decide,
    fun _ h => absurd h List.not_mem_nil⟩
  have hd : backlog.table.Distinct := by unfold Table.Distinct; decide
  have hlt : ∀ e ∈ backlog.table, e.retryCount < Entry.greatestCount := by decide
  have ht : Tick.start? "w1" backlog.relay.value 10 = some t := by decide
  have hdue : Oldest 2 (backlog.table.filter (·.isClaimable 3 t.cutoff)) due :=
    ⟨by decide +kernel, by decide +kernel, by decide +kernel, by decide +kernel⟩
  have hb : backlog.Answers 5000 broker (due.map .ofEntry) := by
    intro i m hm
    match i, hm with
    | 0, hm | 1, hm => cases hm; rfl
  obtain ⟨due', hdue', h⟩ := tick_eq_image hq hd hlt ht
  obtain rfl : due' = due := hdue'.unique hdue
  obtain ⟨w', hw', htable, hmessages⟩ := h broker hb
  have hreport : t.report broker
      (backlog.table.countP (·.isExhausted t.config.maxRetry t.cutoff)) due =
        ⟨2, 1, 0, 2, 0, 0, 0⟩ := by decide +kernel
  rw [hreport] at hw'
  refine ⟨hq, hd, hlt, w', hw', htable.trans ?_, ?_⟩
  · decide +kernel
  · rw [hmessages]
    rfl

end Scenario.World
end Outbox
