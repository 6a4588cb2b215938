import Outbox.Proofs.Table.Oldest

/-!
# What a sweep leaves

A sweep retires the idle pending rows without attempts, and a listing with the same limit and cutoff
shows the idle pending rows with attempts. After the sweep nothing lies between the two: a pending
row is under a lease or it is listed (`sweep_leaves`), so no row is pending for ever, whatever
became of the limit.
-/

namespace Outbox

namespace Entry
variable {e : Entry} {maxRetry : Int} {cutoff : Instant}

/-- Somebody holds a lease on the entry that has not expired. -/
def isLeased (e : Entry) (cutoff : Instant) : Bool := e.claimedAt.any (cutoff ≤ ·)

theorem isIdle_iff : e.isIdle cutoff ↔ ¬ e.isLeased cutoff := by
  unfold isIdle isLeased
  cases e.claimedAt with
  | none => simp
  | some t => simp

theorem ne_failExhausted_iff : e ≠ e.failExhausted maxRetry cutoff ↔
    e.isExhausted maxRetry cutoff := by
  unfold failExhausted
  split <;> rename_i hx
  · refine iff_of_true (fun h => ?_) hx
    have hs : e.status = .failed := congrArg status h
    obtain ⟨hp, -, -⟩ := isExhausted_iff.1 hx
    rw [hp] at hs
    cases hs
  · simpa using hx

theorem not_isExhausted_failExhausted :
    ¬ (e.failExhausted maxRetry cutoff).isExhausted maxRetry cutoff := by
  unfold failExhausted
  split <;> rename_i hx
  · simp [isExhausted, retired, release]
  · exact hx

/-- Of the idle pending entries those that are not exhausted are claimable. -/
theorem isClaimable_iff_of_not_isExhausted (hx : ¬ e.isExhausted maxRetry cutoff) :
    e.isClaimable maxRetry cutoff ↔ e.status = .pending ∧ ¬ e.isLeased cutoff := by
  rw [isClaimable_iff, isIdle_iff]
  constructor
  · rintro ⟨hp, hi, -⟩
    exact ⟨hp, hi⟩
  · rintro ⟨hp, hi⟩
    refine ⟨hp, hi, Int.not_le.1 fun hle => hx ?_⟩
    exact isExhausted_iff.2 ⟨hp, isIdle_iff.2 hi, hle⟩

end Entry

/-- If there is room for all entries, all of them are there. -/
theorem Oldest.mem_iff {n : Nat} {es due : List Entry} (h : Oldest n es due) (hn : es.length ≤ n)
    (e : Entry) : e ∈ due ↔ e ∈ es := by
  have hlength : es.length ≤ due.length := Nat.le_of_eq (h.length.trans (Nat.min_eq_right hn)).symm
  exact ((h.nodup.subperm h.subset).perm_of_length_le hlength).mem_iff

namespace Table

/-- The rows that are not what they were in the same place before, as they are now. -/
def changes (t t' : Table) : List Entry := ((t.zip t').filter fun p => p.1 ≠ p.2).map (·.2)

theorem changes_map (t : Table) (f : Entry → Entry) :
    t.changes (t.map f) = (t.filter fun e => e ≠ f e).map f := by
  induction t with
  | nil => rfl
  | cons e t ih =>
    unfold changes at *
    rw [List.map_cons, List.zip_cons_cons, List.filter_cons, List.filter_cons]
    by_cases h : e = f e
    · simp only [← h, ne_eq, not_true_eq_false, decide_false]
      exact ih
    · simp only [ne_eq, h, not_false_eq_true, decide_true, if_true, List.map_cons]
      exact congrArg _ ih

section
variable {t : Table} {maxRetry : Int} {cutoff : Instant}

/-- The rows that a sweep gives back are those that it changed. -/
theorem failExhausted_fst (t : Table) (maxRetry : Int) (cutoff : Instant) :
    (t.failExhausted maxRetry cutoff).1 = t.changes (t.failExhausted maxRetry cutoff).2 := by
  have hsame : (t.filter fun e => e ≠ e.failExhausted maxRetry cutoff) =
      t.filter (·.isExhausted maxRetry cutoff) := by
    refine List.filter_congr fun e _ => ?_
    rw [Bool.eq_iff_iff, decide_eq_true_iff]
    exact Entry.ne_failExhausted_iff
  simp only [failExhausted, changes_map, hsame]
  refine List.map_congr_left fun e he => ?_
  exact (if_pos (List.mem_filter.1 he).2).symm

theorem not_isExhausted_of_mem {e : Entry} (he : e ∈ (t.failExhausted maxRetry cutoff).2) :
    ¬ e.isExhausted maxRetry cutoff := by
  obtain ⟨e, -, rfl⟩ := List.mem_map.1 he
  exact Entry.not_isExhausted_failExhausted

/-- The pending rows that nobody holds. -/
def idle (t : Table) (cutoff : Instant) : List Entry :=
  t.filter fun e => e.status = .pending && !e.isLeased cutoff

theorem mem_idle {e : Entry} :
    e ∈ t.idle cutoff ↔ e ∈ t ∧ e.status = .pending ∧ ¬ e.isLeased cutoff := by
  simp [idle, List.mem_filter]

theorem oldest_idle (h : t.Distinct) (hx : ∀ e ∈ t, ¬ e.isExhausted maxRetry cutoff) (n : Int) :
    Oldest n.toNat (t.idle cutoff) (t.findPending maxRetry n cutoff) := by
  have hsame : t.idle cutoff = t.filter (·.isClaimable maxRetry cutoff) := by
    refine List.filter_congr fun e he => ?_
    rw [Bool.eq_iff_iff, Entry.isClaimable_iff_of_not_isExhausted (hx e he)]
    simp
  rw [hsame]
  exact oldest_findPending h maxRetry n cutoff

theorem length_idle_le (t : Table) (cutoff : Instant) :
    (t.idle cutoff).length ≤ t.countP (·.status = .pending) := by
  rw [idle, ← List.countP_eq_length_filter]
  refine List.countP_mono_left fun e _ h => ?_
  simp only [Bool.and_eq_true] at h
  exact h.1

end

/-- A sweep keeps all rows in their places and gives back those that it changed. Afterwards a
pending row is under a lease or it is in every listing with room for all pending rows, and not both;
a listing of `n` shows the `n` first of the rows without a lease, each of which can be claimed; and
another sweep finds nothing. -/
theorem sweep_leaves {t : Table} (ht : t.Distinct) (maxRetry : Int) (cutoff : Instant) :
    ∃ retired swept, t.failExhausted maxRetry cutoff = (retired, swept) ∧
      swept.map (·.id) = t.map (·.id) ∧ retired = t.changes swept ∧
      (∀ e ∈ swept, e.status = .pending → ∀ n : Int, swept.countP (·.status = .pending) ≤ n →
        (e ∈ swept.findPending maxRetry n cutoff ↔ ¬ e.isLeased cutoff)) ∧
      (∀ n : Int, Oldest n.toNat (swept.idle cutoff) (swept.findPending maxRetry n cutoff)) ∧
      (∀ e ∈ swept.idle cutoff, ∀ worker now, swept.tryClaim e.id worker now cutoff =
        (.ok ⟨e.leased worker now, ⟨e.id, worker, now⟩⟩, swept.put e.id (e.leased worker now))) ∧
      swept.failExhausted maxRetry cutoff = ([], swept) := by
  have hd := ht.failExhausted maxRetry cutoff
  have hx : ∀ e ∈ (t.failExhausted maxRetry cutoff).2, ¬ e.isExhausted maxRetry cutoff :=
    fun _ => not_isExhausted_of_mem
  have hids := t.map_id_failExhausted maxRetry cutoff
  have hchanges := t.failExhausted_fst maxRetry cutoff
  generalize t.failExhausted maxRetry cutoff = s at hd hx hids hchanges
  obtain ⟨retired, swept⟩ := s
  dsimp only at hd hx hids hchanges
  refine ⟨retired, swept, rfl, hids, hchanges, ?_, oldest_idle hd hx, ?_,
    failExhausted_of_forall hx⟩
  · intro e he hp n hn
    have hroom := length_idle_le swept cutoff
    rw [(oldest_idle hd hx n).mem_iff (by omega), mem_idle]
    exact ⟨fun h => h.2.2, fun h => ⟨he, hp, h⟩⟩
  · intro e he worker now
    obtain ⟨he, hp, hi⟩ := mem_idle.1 he
    exact tryClaim_eq (hd.row?_eq_some.2 ⟨he, rfl⟩) hp worker now (Entry.isIdle_iff.2 hi)

/-- Entry 2 is out of attempts; 3 and 6 are held since the cutoff, 6 out of attempts too; 4 was held
until just before. -/
def mixedLeases : Table :=
  let row (id : Nat) (count : Int) (claimedAt : Option Instant) : Entry :=
    { Entry.sample with
      id := .ofNat id
      retryCount := count
      claimedBy := claimedAt.map fun _ => "w1"
      claimedAt }
  [row 4 2 (some 9), row 2 3 (some 9), row 3 2 (some 10), row 1 0 none,
    { row 5 3 none with status := .failed, lastError := some "down" }, row 6 3 (some 10)]

theorem mixedLeases_swept : mixedLeases.Distinct ∧
    ∃ retired swept, mixedLeases.failExhausted 3 10 = (retired, swept) ∧
      retired.map (·.id) = [.ofNat 2] ∧ mixedLeases.changes swept = retired ∧
      (swept.idle 10).map (·.id) = [.ofNat 4, .ofNat 1] ∧
      (∀ e ∈ swept.idle 10, e ∈ swept.findPending 3 4 10) ∧
      swept.failExhausted 3 10 = ([], swept) := by
  have hd : mixedLeases.Distinct := by unfold Distinct; decide
  obtain ⟨retired, swept, h, -, hchanges, hlisted, -, -, hagain⟩ := sweep_leaves hd 3 10
  obtain rfl : (mixedLeases.failExhausted 3 10).1 = retired := congrArg Prod.fst h
  obtain rfl : (mixedLeases.failExhausted 3 10).2 = swept := congrArg Prod.snd h
  refine ⟨hd, _, _, h, by decide, hchanges.symm, by decide, fun e he => ?_, hagain⟩
  obtain ⟨he, hp, hi⟩ := mem_idle.1 he
  exact (hlisted e he hp 4 (by decide)).2 hi

end Table
end Outbox
