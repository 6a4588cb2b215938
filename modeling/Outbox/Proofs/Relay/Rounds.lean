import Outbox.Proofs.Relay.TickImage

/-!
# Ticks one after another

A `Round` is one tick with the worker, the settings and the time that it runs under; `rounds` runs
some of them in a row. In a quiet world each round ends with a report, and `Quiet.round` says what
it leaves and sends, whatever the broker answers. Once no row is pending, no round does anything.
-/

namespace Outbox

open Relay (Tick)
open Scenario (World)

/-- One tick of a worker, under the settings that are in force then. -/
structure Relay.Round where
  worker : String
  config : RelayConfig
  now : Instant

open Relay (Round)

/-- The tick of a round, if the time at which leases expired can be represented. -/
def Relay.Round.tick? (r : Round) : Option Tick := Tick.start? r.worker r.config r.now

theorem Relay.Round.of_tick? {r : Round} {t : Tick} (h : r.tick? = some t) :
    t.config = r.config ∧ t.now = r.now := by
  obtain ⟨cutoff, -, rfl⟩ := Option.map_eq_some_iff.1 h
  exact ⟨rfl, rfl⟩

/-- No row waits for its delivery any more. -/
def Table.Settled (t : Table) : Prop := ∀ e ∈ t, e.status ≠ .pending

theorem Relay.Tick.image_of_not_pending (t : Tick) {e : Entry} (he : e.status ≠ .pending)
    (broker : Message → Option Delivery) : t.image broker [] e = e := by
  rw [image, if_neg fun h => he h.1, settle, if_neg List.not_mem_nil]

namespace Scenario.World
variable {w : World} {r : Round} {t : Tick}

/-- Puts the settings of a round in force and runs its tick, which nothing cuts short. -/
def round (w : World) (r : Round) :
    Except Crash (Option (Except StoreError Relay.Report)) × World :=
  { w with relay := w.relay.update r.config }.tick r.worker r.now none

/-- The world after some rounds, if each of them ends with a report. -/
def rounds (w : World) : List Round → Option World
  | [] => some w
  | r :: rs =>
    match w.round r with
    | (.ok (some (.ok _)), w) => w.rounds rs
    | _ => none

theorem rounds_append (w : World) (rs rs' : List Round) :
    w.rounds (rs ++ rs') = (w.rounds rs).bind (·.rounds rs') := by
  induction rs generalizing w with
  | nil => rfl
  | cons r rs ih =>
    rw [List.cons_append, rounds, rounds]
    split
    · exact ih _
    · rfl

theorem rounds_cons {w' : World} {report : Relay.Report}
    (h : w.round r = (.ok (some (.ok report)), w')) (rs : List Round) :
    w.rounds (r :: rs) = w'.rounds rs := by rw [rounds, h]

/-- Some broker that tells messages apart gives the replies of the script. -/
theorem exists_answers (w : World) (limit : Millis) {ms : List Message} (h : ms.Nodup) :
    ∃ broker, w.Answers limit broker ms := by
  refine ⟨fun m => (w.reply (ms.idxOf m)).within limit, fun i m hi => ?_⟩
  obtain ⟨hlt, rfl⟩ := List.getElem?_eq_some_iff.1 hi
  simp only [h.idxOf_getElem]

theorem Quiet.round_of_oldest (hq : w.Quiet) (hd : w.table.Distinct) (ht : r.tick? = some t)
    {due : List Entry} (hdue : Oldest t.config.batchSize.toNat
      (w.table.filter (·.isClaimable t.config.maxRetry t.cutoff)) due)
    (hlt : ∀ e ∈ due, e.retryCount < Entry.greatestCount) {broker : Message → Option Delivery}
    (hb : w.Answers t.config.sendTimeout broker (due.map .ofEntry)) :
    ∃ report w', w.round r = (.ok (some (.ok report)), w') ∧
      w.Leads (w.table.map (t.image broker due)) (due.map .ofEntry) w' := by
  let w₀ : World := { w with relay := w.relay.update r.config }
  have hq₀ : w₀.Quiet := ⟨hq.faults, hq.fallback, hq.replies, hq.schedule⟩
  obtain ⟨w', h, l⟩ := hq₀.tick hd ht hdue hlt hb
  exact ⟨_, w', h, l.quiet, l.table, l.messages, l.reply⟩

/-- A round of a quiet world sends the oldest rows that can be claimed, and each row becomes its
image, whatever the broker answers. -/
theorem Quiet.round (hq : w.Quiet) (hd : w.table.Distinct) (ht : r.tick? = some t)
    (hfit : r.config.maxRetry ≤ Entry.greatestCount) :
    ∃ due broker report w', Oldest t.config.batchSize.toNat
        (w.table.filter (·.isClaimable t.config.maxRetry t.cutoff)) due ∧
      w.Answers t.config.sendTimeout broker (due.map .ofEntry) ∧
      w.round r = (.ok (some (.ok report)), w') ∧
      w.Leads (w.table.map (t.image broker due)) (due.map .ofEntry) w' := by
  have hdue := Table.oldest_findPending hd t.config.maxRetry t.config.batchSize t.cutoff
  generalize w.table.findPending t.config.maxRetry t.config.batchSize t.cutoff = due at hdue
  have hmem : ∀ e ∈ due, e ∈ w.table ∧ e.isClaimable t.config.maxRetry t.cutoff :=
    fun e he => List.mem_filter.1 (hdue.subset he)
  have hlt : ∀ e ∈ due, e.retryCount < Entry.greatestCount := by
    intro e he
    have hcount := (Entry.isClaimable_iff.1 (hmem e he).2).2.2
    rw [(Round.of_tick? ht).1] at hcount
    exact Int.lt_of_lt_of_le hcount hfit
  have hnodup : (due.map Message.ofEntry).Nodup := by
    refine hdue.nodup.map_on fun e he e' he' h => ?_
    exact hd.eq_of_id (hmem e he).1 (hmem e' he').1 (congrArg Message.entryId h)
  obtain ⟨broker, hb⟩ := w.exists_answers t.config.sendTimeout hnodup
  obtain ⟨report, w', h, l⟩ := hq.round_of_oldest hd ht hdue hlt hb
  exact ⟨due, broker, report, w', hdue, hb, h, l⟩

/-! ### When no row is pending -/

theorem Quiet.round_settled (hq : w.Quiet) (hd : w.table.Distinct) (hs : w.table.Settled)
    (ht : r.tick? = some t) :
    ∃ report w', w.round r = (.ok (some (.ok report)), w') ∧ w.Leads w.table [] w' := by
  have hnone : w.table.filter (·.isClaimable t.config.maxRetry t.cutoff) = [] := by
    refine List.filter_eq_nil_iff.2 fun e he hc => ?_
    exact hs e he (Entry.isClaimable_iff.1 hc).1
  have hdue : Oldest t.config.batchSize.toNat
      (w.table.filter (·.isClaimable t.config.maxRetry t.cutoff)) [] := by
    rw [hnone]
    exact ⟨fun _ h => h, .nil, by simp, fun _ h => absurd h List.not_mem_nil⟩
  have hb : w.Answers t.config.sendTimeout (fun _ => none) [] :=
    fun i m h => absurd (List.mem_of_getElem? h) List.not_mem_nil
  obtain ⟨report, w', h, l⟩ :=
    hq.round_of_oldest hd ht hdue (fun _ h => absurd h List.not_mem_nil) hb
  have hmap : w.table.map (t.image (fun _ => none) []) = w.table := by
    rw [List.map_congr_left fun e he => t.image_of_not_pending (hs e he) _, List.map_id']
  exact ⟨report, w', h, hmap ▸ l⟩

/-- Rounds over a settled table send nothing and leave it. -/
theorem Quiet.rounds_settled (hq : w.Quiet) (hd : w.table.Distinct) (hs : w.table.Settled)
    {rs : List Round} (hrs : ∀ r ∈ rs, r.tick?.isSome) :
    ∃ w', w.rounds rs = some w' ∧ w.Leads w.table [] w' := by
  induction rs generalizing w with
  | nil => exact ⟨w, rfl, .of_eq hq rfl rfl rfl rfl⟩
  | cons r rs ih =>
    obtain ⟨t, ht⟩ := Option.isSome_iff_exists.1 (hrs r List.mem_cons_self)
    obtain ⟨report, w₁, h₁, l₁⟩ := hq.round_settled hd hs ht
    have htable : w₁.table = w.table := l₁.table
    obtain ⟨w₂, h₂, l₂⟩ := ih l₁.quiet (htable ▸ hd) (htable ▸ hs)
      fun r hr => hrs r (List.mem_cons_of_mem _ hr)
    rw [htable] at l₂
    exact ⟨w₂, (rounds_cons h₁ rs).trans h₂, l₁.trans l₂⟩

end Scenario.World
end Outbox
