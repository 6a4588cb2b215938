import Outbox.Proofs.Relay.Rounds
import Mathlib.Algebra.Order.BigOperators.Group.List
import Mathlib.Algebra.Order.Ring.Int

/-!
# The backlog drains

`Table.work` counts the attempts that the pending rows have left under a limit, and at least one for
each. Every round that finds a pending row lowers it: the sweep settles a row, or the oldest one
that can be claimed is sent, and then it is settled or has one attempt less. So whatever the broker
answers, no more rounds than that are needed, even if the limit changes in between.
-/

namespace Outbox

open Relay (Tick Round)
open Scenario (World)

/-- The attempts that the pending rows have left under a limit, but one for a row that has none. -/
def Table.work (limit : Int) (t : Table) : Int :=
  ((t.filter (·.status = .pending)).map fun e => max 1 (limit - e.retryCount)).sum

def Entry.work (limit : Int) (e : Entry) : Int :=
  if e.status = .pending then max 1 (limit - e.retryCount) else 0

theorem Entry.work_pos (limit : Int) {e : Entry} (he : e.status = .pending) : 1 ≤ e.work limit := by
  rw [work, if_pos he]
  exact Int.le_max_left ..

theorem Entry.work_nonneg (limit : Int) (e : Entry) : 0 ≤ e.work limit := by
  unfold work
  split <;> omega

namespace Table
variable {limit : Int} {t : Table}

theorem work_eq_sum (limit : Int) (t : Table) : t.work limit = (t.map (Entry.work limit)).sum := by
  unfold work
  induction t with
  | nil => rfl
  | cons e t ih =>
    by_cases he : e.status = .pending
    · simp [he, ih, Entry.work]
    · simp [he, ih, Entry.work]

theorem settled_of_work_le_zero (h : t.work limit ≤ 0) : t.Settled := by
  intro e he hp
  have hle : e.work limit ≤ (t.map (Entry.work limit)).sum :=
    List.single_le_sum (by simpa using fun e _ => e.work_nonneg limit) _ (List.mem_map_of_mem he)
  rw [work_eq_sum] at h
  have := Entry.work_pos limit hp
  omega

end Table

/-! ### One round -/

namespace Relay.Tick
variable {t : Tick} {e : Entry} {limit : Int} {due : List Entry}
  {broker : Message → Option Delivery}

/-- A send settles its entry, or takes one of several attempts. -/
theorem work_settled_lt (hlimit : t.config.maxRetry ≤ limit) (hp : e.status = .pending)
    (d : Delivery) : (t.settled e d).work limit < e.work limit := by
  have hpos := Entry.work_pos limit hp
  match d with
  | .ok () => exact hpos
  | .error (.permanent reason) => exact hpos
  | .error (.retryable reason) =>
    by_cases hmore : e.retryCount + 1 < t.config.maxRetry
    · simp only [settled, Entry.work, hmore, hp, if_true]
      omega
    · simp only [settled, if_neg hmore]
      exact hpos

theorem id_image (e : Entry) : (t.image broker due e).id = e.id := by
  unfold image settle
  split
  · rfl
  · split
    · exact t.id_settled e _
    · rfl

/-- A row that is pending after a round is the same as before it, or nobody holds it. -/
theorem claimedAt_image (h : (t.image broker due e).status = .pending) :
    t.image broker due e = e ∨ (t.image broker due e).claimedAt = none := by
  unfold image settle at *
  split at h
  · cases h
  · rw [if_neg (by assumption)]
    split
    · refine .inr ?_
      match t.delivery broker e with
      | .ok () | .error (.retryable _) | .error (.permanent _) => rfl
    · exact .inl rfl

theorem work_image_lt (hlimit : t.config.maxRetry ≤ limit) (hp : e.status = .pending)
    (h : e.isExhausted t.config.maxRetry t.cutoff ∨ e ∈ due) :
    (t.image broker due e).work limit < e.work limit := by
  unfold image settle
  split
  · exact Entry.work_pos limit hp
  · rename_i hx
    rw [if_pos (h.resolve_left (mt Entry.isExhausted_iff.1 hx))]
    exact work_settled_lt hlimit hp _

theorem work_image_le (hlimit : t.config.maxRetry ≤ limit)
    (hdue : ∀ d ∈ due, d.isClaimable t.config.maxRetry t.cutoff) (e : Entry) :
    (t.image broker due e).work limit ≤ e.work limit := by
  by_cases h : e.isExhausted t.config.maxRetry t.cutoff ∨ e ∈ due
  · have hp : e.status = .pending := by
      rcases h with h | h
      · exact (Entry.isExhausted_iff.1 h).1
      · exact (Entry.isClaimable_iff.1 (hdue e h)).1
    exact Int.le_of_lt (work_image_lt hlimit hp h)
  · rw [not_or, Entry.isExhausted_iff] at h
    rw [image, if_neg h.1, settle, if_neg h.2]

end Relay.Tick

/-- A round may take part in draining a table: it has room for an entry, its limit is one that
counts can reach, and for it every lease on a pending row has expired. -/
structure Relay.Round.Drains (limit : Int) (t : Table) (r : Round) : Prop where
  batch : 1 ≤ r.config.batchSize
  limit : r.config.maxRetry ≤ limit
  fits : r.config.maxRetry ≤ Entry.greatestCount
  expired : ∃ tick, r.tick? = some tick ∧
    ∀ e ∈ t, e.status = .pending → ∀ time ∈ e.claimedAt, time < tick.cutoff

theorem Relay.Round.Drains.image {limit : Int} {t : Table} {r : Round} (h : r.Drains limit t)
    (tick : Tick) (broker : Message → Option Delivery) (due : List Entry) :
    r.Drains limit (t.map (tick.image broker due)) := by
  obtain ⟨tick', htick, hexpired⟩ := h.expired
  refine ⟨h.batch, h.limit, h.fits, tick', htick, fun e' he' hp time htime => ?_⟩
  obtain ⟨e, he, rfl⟩ := List.mem_map.1 he'
  rcases Tick.claimedAt_image hp with h | h
  · rw [h] at hp htime
    exact hexpired e he hp time htime
  · rw [h] at htime
    cases htime

namespace Scenario.World
variable {w : World} {r : Round} {rs : List Round} {limit : Int}

theorem Quiet.round_drains (hq : w.Quiet) (hd : w.table.Distinct) (hr : r.Drains limit w.table)
    (hp : ¬ w.table.Settled) :
    ∃ report w', w.round r = (.ok (some (.ok report)), w') ∧ w'.Quiet ∧ w'.table.Distinct ∧
      w'.table.work limit < w.table.work limit ∧
      ∀ r' : Round, r'.Drains limit w.table → r'.Drains limit w'.table := by
  obtain ⟨t, ht, hexpired⟩ := hr.expired
  obtain ⟨due, broker, report, w', hdue, -, h, l⟩ := hq.round hd ht hr.fits
  obtain ⟨hconfig, -⟩ := Round.of_tick? ht
  have hlimit : t.config.maxRetry ≤ limit := hconfig ▸ hr.limit
  have hclaimable : ∀ d ∈ due, d ∈ w.table ∧ d.isClaimable t.config.maxRetry t.cutoff :=
    fun d hd => List.mem_filter.1 (hdue.subset hd)
  -- A pending row without attempts left is retired; without such a row, some row is sent.
  have hsome : ∃ e ∈ w.table,
      e.status = .pending ∧ (e.isExhausted t.config.maxRetry t.cutoff ∨ e ∈ due) := by
    simp only [Table.Settled, not_forall, not_not] at hp
    obtain ⟨e, he, hp⟩ := hp
    have hidle : e.isIdle t.cutoff := by
      cases hc : e.claimedAt with
      | none => simp [Entry.isIdle, hc]
      | some time => simpa [Entry.isIdle, hc] using hexpired e he hp time hc
    by_cases hleft : e.retryCount < t.config.maxRetry
    · have hpos : 0 < due.length := by
        have hmem : e ∈ w.table.filter (·.isClaimable t.config.maxRetry t.cutoff) :=
          List.mem_filter.2 ⟨he, Entry.isClaimable_iff.2 ⟨hp, hidle, hleft⟩⟩
        have hbatch : 0 < t.config.batchSize.toNat := by
          have := hr.batch
          rw [hconfig]
          omega
        rw [hdue.length]
        exact Nat.lt_min.2 ⟨hbatch, List.length_pos_of_mem hmem⟩
      obtain ⟨d, hd⟩ := List.exists_mem_of_length_pos hpos
      obtain ⟨hmem, hc⟩ := hclaimable d hd
      exact ⟨d, hmem, (Entry.isClaimable_iff.1 hc).1, .inr hd⟩
    · exact ⟨e, he, hp, .inl (Entry.isExhausted_iff.2 ⟨hp, hidle, Int.not_lt.1 hleft⟩)⟩
  have htable : w'.table = w.table.map (t.image broker due) := l.table
  refine ⟨report, w', h, l.quiet, ?_, ?_, fun r' hr' => ?_⟩
  · rw [htable]
    exact hd.map fun e _ => Tick.id_image e
  · obtain ⟨e, he, hp, hcase⟩ := hsome
    rw [htable, Table.work_eq_sum, Table.work_eq_sum, List.map_map]
    refine List.sum_lt_sum _ _ (fun x _ => ?_) ⟨e, he, Tick.work_image_lt hlimit hp hcase⟩
    exact Tick.work_image_le hlimit (fun d hd => (hclaimable d hd).2) x
  · rw [htable]
    exact hr'.image t broker due

/-! ### All rounds -/

theorem Quiet.rounds_drain (hq : w.Quiet) (hd : w.table.Distinct)
    (hrs : ∀ r ∈ rs, r.Drains limit w.table) (hlen : w.table.work limit ≤ rs.length) :
    ∃ w', w.rounds rs = some w' ∧ w'.Quiet ∧ w'.table.Distinct ∧ w'.table.Settled := by
  induction rs generalizing w with
  | nil => exact ⟨w, rfl, hq, hd, Table.settled_of_work_le_zero hlen⟩
  | cons r rs ih =>
    by_cases hs : w.table.Settled
    · have htick : ∀ r' ∈ r :: rs, r'.tick?.isSome := by
        intro r' hr'
        obtain ⟨t, ht, -⟩ := (hrs r' hr').expired
        exact Option.isSome_of_eq_some ht
      obtain ⟨w', h, l⟩ := hq.rounds_settled hd hs htick
      have htable : w'.table = w.table := l.table
      exact ⟨w', h, l.quiet, htable ▸ hd, htable ▸ hs⟩
    · obtain ⟨report, w₁, h₁, hq₁, hd₁, hlt, hkeep⟩ :=
        hq.round_drains hd (hrs r List.mem_cons_self) hs
      have hlen₁ : w₁.table.work limit ≤ rs.length := by
        rw [List.length_cons, Int.natCast_succ] at hlen
        omega
      obtain ⟨w', h, hrest⟩ := ih hq₁ hd₁
        (fun r' hr' => hkeep r' (hrs r' (List.mem_cons_of_mem _ hr'))) hlen₁
      exact ⟨w', (rounds_cons h₁ rs).trans h, hrest⟩

/-- After at most as many rounds as the pending rows have attempts left, none of them is pending,
whatever the broker answers and however the limit changes below its greatest value. Further rounds
send nothing and change nothing. -/
theorem backlog_drained (hq : w.Quiet) (hd : w.table.Distinct)
    (hrs : ∀ r ∈ rs, r.Drains limit w.table) (hlen : w.table.work limit ≤ rs.length)
    {further : List Round} (hfurther : ∀ r ∈ further, r.tick?.isSome) :
    ∃ w', w.rounds rs = some w' ∧ (∀ e ∈ w'.table, e.status ≠ .pending) ∧
      ∃ w'', w'.rounds further = some w'' ∧ w''.table = w'.table ∧ w''.messages = w'.messages := by
  obtain ⟨w', h, hq', hd', hs⟩ := hq.rounds_drain hd hrs hlen
  obtain ⟨w'', h', l⟩ := hq'.rounds_settled hd' hs hfurther
  exact ⟨w', h, hs, w'', h', l.table, l.messages.trans (List.append_nil _)⟩

/-- Three pending rows: one was claimed and left, and one has no attempts left once the limit is
lowered. The broker never answers. -/
def stuck : World :=
  { ofTable [{ Entry.sample with id := .ofNat 1, retryCount := 2 },
      { Entry.sample.leased "w9" 40 with id := .ofNat 2, retryCount := 1 },
      { Entry.sample with id := .ofNat 3, status := .published, publishedAt := some 5 },
      { Entry.sample with id := .ofNat 4, createdAt := 7, retryCount := 5 }] 0 with
    fallback := ⟨[], none, .ok ()⟩ }

/-- A round that has room for one entry, with some limit. -/
def narrow (limit : Int) : Round :=
  ⟨"w1", { RelayConfig.default with batchSize := 1, maxRetry := limit, leaseTimeout := 0 }, 41⟩

theorem stuck_drained :
    stuck.Quiet ∧ stuck.table.Distinct ∧
    (∀ r ∈ [narrow 3, narrow 1, narrow 3, narrow 2], r.Drains 3 stuck.table) ∧
    stuck.table.work 3 = 4 ∧ (∀ r ∈ [narrow 9], r.tick?.isSome) ∧
    ∃ w', stuck.rounds [narrow 3, narrow 1, narrow 3, narrow 2] = some w' ∧
      (∀ e ∈ w'.table, e.status ≠ .pending) ∧
      ∃ w'', w'.rounds [narrow 9] = some w'' ∧ w''.table = w'.table ∧
        w''.messages = w'.messages := by
  have hq : stuck.Quiet := .of_script rfl rfl rfl (by decide)
  have hd : stuck.table.Distinct := by unfold Table.Distinct; decide
  have hnarrow : ∀ n : Int, n ≤ 3 → (narrow n).Drains 3 stuck.table := by
    intro n hn
    have htick : (narrow n).tick? = some ⟨"w1", (narrow n).config, 41, 41⟩ := by
      simp [Round.tick?, Tick.start?, narrow, Instant.before?, Instant.IsRepresentable,
        Instant.earliest, Instant.latest, Instant.perSecond]
    have hexpired : ∀ e ∈ stuck.table, e.status = .pending → ∀ time ∈ e.claimedAt, time < 41 := by
      decide
    exact ⟨Int.le_refl 1, hn, Int.le_trans hn (by decide), _, htick, hexpired⟩
  have hrs : ∀ r ∈ [narrow 3, narrow 1, narrow 3, narrow 2], r.Drains 3 stuck.table := by
    simp [hnarrow]
  have hwork : stuck.table.work 3 = 4 := by decide
  have hfurther : ∀ r ∈ [narrow 9], r.tick?.isSome := by decide
  exact ⟨hq, hd, hrs, hwork, hfurther, backlog_drained hq hd hrs (Int.le_of_eq hwork) hfurther⟩

end Scenario.World
end Outbox
