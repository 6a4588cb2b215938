import Outbox.Proofs.Scenario.Pass
import Outbox.Proofs.Table.Effect
import Outbox.Proofs.Table.Purge

/-!
# Purges batch by batch

Each batch removes outdated rows and nothing else, as many as it has room for. So the number of rows
removed so far and of outdated rows left is the same all through a purge, and a batch that falls
short has left none. What remains does not depend on the size of the batches.
-/

namespace Outbox

open Cleaner (Purge)
open Scenario (World)

/-- The entry was published, and before a time. -/
def Entry.PublishedBefore (e : Entry) (time : Instant) : Prop :=
  e.status = .published ∧ ∃ published ∈ e.publishedAt, published < time

instance (e : Entry) (time : Instant) : Decidable (e.PublishedBefore time) :=
  inferInstanceAs (Decidable (_ ∧ _))

namespace Table
variable {t t' t'' : Table} {before : Instant} {limit : Int}

theorem isOutdated_eq_decide (before : Instant) (e : Entry) :
    isOutdated before e = decide (e.PublishedBefore before) := by
  rw [Bool.eq_iff_iff, decide_eq_true_iff]
  simp [isOutdated, Entry.PublishedBefore, Option.any_eq_true]

theorem isOutdated_mono {earlier : Instant} (h : earlier ≤ before) {e : Entry}
    (he : isOutdated earlier e) : isOutdated before e := by
  rw [isOutdated_eq_decide, decide_eq_true_iff] at he ⊢
  obtain ⟨hs, published, hp, hlt⟩ := he
  exact ⟨hs, published, hp, Int.lt_of_lt_of_le hlt h⟩

/-- Where nothing is outdated there is nothing to sort out. -/
theorem filter_not_isOutdated (h : t.countP (isOutdated before) = 0) :
    (t.filter fun e => !isOutdated before e) = t := by
  refine List.filter_eq_self.2 fun e he => ?_
  simpa using List.countP_eq_zero.1 h e he

/-! ### Some batches -/

/-- Outdated rows were removed, those published first, and no other row was touched. -/
structure PurgedTo (t : Table) (before : Instant) (t' : Table) : Prop where
  sublist : t'.Sublist t
  outdated : ∀ e ∈ t.missing t', isOutdated before e
  first : ∀ e ∈ t.missing t', ∀ x ∈ t', isOutdated before x → publishedBefore e x

theorem mem_missing {e : Entry} : e ∈ t.missing t' ↔ e ∈ t ∧ e ∉ t' := by
  simp [missing]

theorem Distinct.length_missing (h : t.Distinct) (hs : t'.Sublist t) :
    (t.missing t').length + t'.length = t.length := by
  have hperm : (t.filter t'.contains).Perm t' := by
    refine (List.perm_ext_iff_of_nodup (h.of_map.filter _) (h.of_map.sublist hs)).2 fun e => ?_
    rw [List.mem_filter, List.contains_iff_mem]
    exact ⟨And.right, fun he => ⟨hs.subset he, he⟩⟩
  have hsplit : t.length = t.countP t'.contains + t.countP fun e => !t'.contains e := by
    simpa using List.length_eq_countP_add_countP t'.contains (l := t)
  rw [hsplit, List.countP_eq_length_filter, List.countP_eq_length_filter, hperm.length_eq, missing,
    Nat.add_comm]

namespace PurgedTo

theorem refl (t : Table) (before : Instant) : t.PurgedTo before t := by
  have hnone : ∀ e, e ∉ t.missing t := fun e he => (mem_missing.1 he).2 (mem_missing.1 he).1
  exact ⟨.refl t, fun e he => absurd he (hnone e), fun e he => absurd he (hnone e)⟩

theorem trans (h : t.PurgedTo before t') (h' : t'.PurgedTo before t'') :
    t.PurgedTo before t'' := by
  have hcases : ∀ e ∈ t.missing t'', e ∈ t.missing t' ∨ e ∈ t'.missing t'' := by
    intro e he
    obtain ⟨ht, ht''⟩ := mem_missing.1 he
    by_cases ht' : e ∈ t'
    · exact .inr (mem_missing.2 ⟨ht', ht''⟩)
    · exact .inl (mem_missing.2 ⟨ht, ht'⟩)
  refine ⟨h'.sublist.trans h.sublist, fun e he => ?_, fun e he x hx hout => ?_⟩
  · exact (hcases e he).elim (h.outdated e) (h'.outdated e)
  · rcases hcases e he with he | he
    · exact h.first e he x (h'.sublist.subset hx) hout
    · exact h'.first e he x hx hout

/-- A purge leaves alone what is not outdated. -/
theorem filter_eq (h : t.PurgedTo before t') (hd : t.Distinct) :
    (t'.filter fun e => !isOutdated before e) = t.filter fun e => !isOutdated before e := by
  have hsub := h.sublist.filter fun e => !isOutdated before e
  have hperm : (t'.filter fun e => !isOutdated before e).Perm
      (t.filter fun e => !isOutdated before e) := by
    have hn : t.Nodup := hd.of_map
    have hn' : t'.Nodup := hn.sublist h.sublist
    refine (List.perm_ext_iff_of_nodup (hn'.filter _) (hn.filter _)).2 fun e => ?_
    refine ⟨fun he => hsub.subset he, fun he => ?_⟩
    obtain ⟨hmem, hout⟩ := List.mem_filter.1 he
    refine List.mem_filter.2 ⟨?_, hout⟩
    by_contra hnot
    simp [h.outdated e (mem_missing.2 ⟨hmem, hnot⟩)] at hout
  exact hsub.eq_of_length hperm.length_eq

end PurgedTo

/-! ### One batch -/

theorem deletePublishedBefore_fst (t : Table) (before : Instant) (limit : Int) :
    (t.deletePublishedBefore before limit).1 = min limit.toNat (t.countP (isOutdated before)) := by
  simp [deletePublishedBefore, outdated, List.countP_eq_length_filter]

/-- A batch takes exactly as many of the outdated rows as it counts. -/
theorem Distinct.countP_deletePublishedBefore (h : t.Distinct) (before : Instant) (limit : Int) :
    (t.deletePublishedBefore before limit).1 +
        (t.deletePublishedBefore before limit).2.countP (isOutdated before) =
      t.countP (isOutdated before) := by
  let taken : Entry → Bool := fun e => (t.outdated before limit).contains e.id
  have hall : ∀ e ∈ t.filter taken, isOutdated before e := by
    intro e he
    obtain ⟨he, hid⟩ := List.mem_filter.1 he
    exact isOutdated_of_mem_outdated h he (List.contains_iff_mem.1 hid)
  have htaken : (t.filter taken).countP (isOutdated before) = (t.outdated before limit).length := by
    have hperm := h.taken_perm (List.mergeSort_perm (t.filter (isOutdated before)) publishedBefore)
      limit.toNat
    rw [List.countP_eq_length.2 hall, outdated, List.length_map]
    exact hperm.length_eq
  rw [List.countP_eq_countP_filter_add t (isOutdated before) taken, htaken]
  rfl

section
variable (h : t.Distinct) (before : Instant) (limit : Int)
include h

theorem Distinct.missing_deletePublishedBefore :
    (t.missing (t.deletePublishedBefore before limit).2).Perm
      (((t.filter (isOutdated before)).mergeSort publishedBefore).take limit.toNat) := by
  rw [deletePublishedBefore, missing_filter_not]
  exact h.taken_perm (List.mergeSort_perm ..) limit.toNat

theorem Distinct.length_deletePublishedBefore :
    (t.deletePublishedBefore before limit).2.length + (t.deletePublishedBefore before limit).1 =
      t.length := by
  have hcount : (t.missing (t.deletePublishedBefore before limit).2).length =
      (t.deletePublishedBefore before limit).1 := by
    rw [(h.missing_deletePublishedBefore before limit).length_eq]
    exact (List.length_map _).symm
  rw [← hcount, Nat.add_comm]
  exact h.length_missing List.filter_sublist

theorem Distinct.purgedTo_deletePublishedBefore :
    t.PurgedTo before (t.deletePublishedBefore before limit).2 := by
  let sorted := (t.filter (isOutdated before)).mergeSort publishedBefore
  have htrans : ∀ a b c : Entry, publishedBefore a b → publishedBefore b c → publishedBefore a c :=
    fun _ _ _ => publishedBefore_trans
  have hsorted : sorted.Pairwise fun a b => publishedBefore a b :=
    List.pairwise_mergeSort htrans publishedBefore_total _
  have htaken := h.missing_deletePublishedBefore before limit
  refine ⟨List.filter_sublist, fun e he => ?_, fun e he x hx hout => ?_⟩
  · have he := List.mem_of_mem_take (htaken.subset he)
    exact (List.mem_filter.1 (List.mem_mergeSort.1 he)).2
  · -- What is left of the sorted rows comes after what was taken.
    obtain ⟨hmem, hleft⟩ := List.mem_filter.1 hx
    have hx : x ∈ sorted.take limit.toNat ++ sorted.drop limit.toNat := by
      rw [List.take_append_drop]
      exact List.mem_mergeSort.2 (List.mem_filter.2 ⟨hmem, hout⟩)
    have hdrop : x ∈ sorted.drop limit.toNat := by
      refine (List.mem_append.1 hx).resolve_left fun htake => ?_
      exact (mem_missing.1 (htaken.symm.subset htake)).2 (List.mem_filter.2 ⟨hmem, hleft⟩)
    rw [← List.take_append_drop limit.toNat sorted, List.pairwise_append] at hsorted
    exact hsorted.2.2 e (htaken.subset he) x hdrop

end
end Table

namespace Scenario.World
variable {w : World}

/-- How a purge ends that had removed so many rows before. -/
structure PurgeEnds (p : Purge) (w : World) (deleted : Nat) (r : Except CleanupError Nat)
    (w' : World) : Prop where
  run : w.runPurge p deleted = (.ok r, w')
  onward : w.Onward w'.table [] 0 w'
  purgedTo : w.table.PurgedTo p.threshold w'.table
  count : ∀ n, r = .ok n ∨ r = .error (.lockTimeout n) →
    w'.table.length + n = w.table.length + deleted
  finished : ∀ n, r = .ok n → w'.table.countP (Table.isOutdated p.threshold) = 0
  faultless : (∀ f ∈ w.faults .deletePublished, f = none) → ∃ n, r = .ok n

/-- Every purge ends, whichever of its batches fails. -/
theorem exists_purgeEnds (p : Purge) (hd : w.table.Distinct) (deleted : Nat) :
    ∃ r w', w.PurgeEnds p deleted r w' := by
  -- A batch that is full removes a row at least, so there are fewer left for the next one.
  induction hn : w.table.length using Nat.strongRecOn generalizing w deleted with
  | ind n ih =>
    have hstep := runPurge_perform p w deleted
    cases hi : w.injected? p.call with
    | some e =>
      obtain ⟨w', hperform, hon⟩ := perform_injected rfl hi
      rw [hperform] at hstep
      refine ⟨_, w', hstep, hon.table.symm ▸ hon, ?_, fun n hr => ?_, fun n hr => (nomatch hr),
        fun hf => ?_⟩
      · rw [hon.table]
        exact .refl ..
      · rw [hon.table]
        cases e <;> simp [CleanupError.ofStore] at hr
        rw [hr]
      · rw [injected?_eq_none hf] at hi
        cases hi
    | none =>
      obtain ⟨w₁, hperform, hon⟩ := perform_answered (c := p.call)
        (by rw [fault_eq_injected? w rfl, hi]; rfl) rfl
      let batch := w.table.deletePublishedBefore p.threshold p.batch
      have hperform : w.perform p.call = (.ok (.ok batch.1), w₁) := hperform
      have htable : w₁.table = batch.2 := hon.table
      rw [← hon.table] at hon
      rw [hperform] at hstep
      have hlength : w₁.table.length + batch.1 = w.table.length :=
        htable ▸ hd.length_deletePublishedBefore p.threshold p.batch
      have hpurged : w.table.PurgedTo p.threshold w₁.table :=
        htable ▸ hd.purgedTo_deletePublishedBefore p.threshold p.batch
      by_cases hshort : batch.1 < p.batch
      · simp only [if_pos hshort] at hstep
        refine ⟨_, w₁, hstep, hon, hpurged, fun n hr => ?_, fun n _ => ?_, fun _ => ⟨_, rfl⟩⟩
        · obtain rfl : deleted + batch.1 = n := by simpa using hr
          omega
        · have hcount : batch.1 + w₁.table.countP (Table.isOutdated p.threshold) =
              w.table.countP (Table.isOutdated p.threshold) :=
            htable ▸ hd.countP_deletePublishedBefore p.threshold p.batch
          have hsize : batch.1 = min p.batch (w.table.countP (Table.isOutdated p.threshold)) :=
            Table.deletePublishedBefore_fst w.table p.threshold p.batch
          omega
      · simp only [if_neg hshort] at hstep
        have hlt : w₁.table.length < n := by
          have hpos := p.batch_pos
          omega
        have hd₁ : w₁.table.Distinct := by
          rw [htable]
          exact hd.filter _
        obtain ⟨r, w₂, h⟩ := ih _ hlt hd₁ (deleted + batch.1) rfl
        refine ⟨r, w₂, hstep.trans h.run, hon.trans h.onward, hpurged.trans h.purgedTo,
          fun n hr => ?_, h.finished, fun hf => h.faultless fun f hf' => ?_⟩
        · have := h.count n hr
          omega
        · exact hf f ((hon.faults _).subset hf')

/-- What a purge removes is what it counts, unless the store failed otherwise than by a lock. -/
theorem PurgeEnds.length_missing {p : Purge} {w' : World} {r : Except CleanupError Nat}
    (h : w.PurgeEnds p 0 r w') (hd : w.table.Distinct) {n : Nat}
    (hr : r = .ok n ∨ r = .error (.lockTimeout n)) : (w.table.missing w'.table).length = n := by
  have hlength := hd.length_missing h.purgedTo.sublist
  have hcount := h.count n hr
  omega

/-- A purge without faults leaves nothing outdated, and all the rest. -/
theorem PurgeEnds.table_eq {p : Purge} {w' : World} {deleted n : Nat}
    (h : w.PurgeEnds p deleted (.ok n) w') (hd : w.table.Distinct) :
    w'.table = w.table.filter fun e => !Table.isOutdated p.threshold e := by
  rw [← h.purgedTo.filter_eq hd, Table.filter_not_isOutdated (h.finished n rfl)]

/-- From any batch on, a purge counts the outdated rows that are left and removes them. -/
theorem Quiet.runPurge (p : Purge) (hq : w.Quiet) (hd : w.table.Distinct) (deleted : Nat) :
    ∃ w', w.runPurge p deleted =
        (.ok (.ok (deleted + w.table.countP (Table.isOutdated p.threshold))), w') ∧
      w.Leads (w.table.filter fun e => !Table.isOutdated p.threshold e) [] w' := by
  obtain ⟨r, w', h⟩ := exists_purgeEnds p hd deleted
  obtain ⟨n, rfl⟩ := h.faultless (hq.faults _)
  have htable := h.table_eq hd
  have hn : n = deleted + w.table.countP (Table.isOutdated p.threshold) := by
    have hcount := h.count n (.inl rfl)
    have hsplit : w.table.length = w.table.countP (Table.isOutdated p.threshold) +
        w.table.countP fun e => !Table.isOutdated p.threshold e := by
      simpa using List.length_eq_countP_add_countP (Table.isOutdated p.threshold) (l := w.table)
    rw [htable, ← List.countP_eq_length_filter] at hcount
    omega
  rw [← hn, ← htable]
  exact ⟨w', h.run, hq.leads h.onward⟩

/-- Whatever the size of its batches, a purge in a quiet world ends. It removes the rows that were
published before its threshold and counts them; all others stay as they are and in their order. A
second purge that reaches no further finds nothing. -/
theorem purge_exact (hq : w.Quiet) (hd : w.table.Distinct) (threshold : Instant) :
    ∃ w', w.purge threshold =
        (.ok (.ok (w.table.countP fun e => e.PublishedBefore threshold)), w') ∧
      w'.table = (w.table.filter fun e => ¬ e.PublishedBefore threshold) ∧
      ∀ earlier ≤ threshold,
        ∃ w'', w'.purge earlier = (.ok (.ok 0), w'') ∧ w''.table = w'.table := by
  obtain ⟨w', h, l⟩ := hq.runPurge (.ofConfig w.cleaner.value threshold) hd 0
  have htable : w'.table = w.table.filter fun e => !Table.isOutdated threshold e := l.table
  have hcount : 0 + w.table.countP (Table.isOutdated threshold) =
      w.table.countP fun e => e.PublishedBefore threshold := by
    rw [Nat.zero_add]
    exact List.countP_congr fun e _ => by rw [Table.isOutdated_eq_decide]
  refine ⟨w', ?_, ?_, ?_⟩
  · rw [← hcount]
    exact h
  · rw [htable]
    exact List.filter_congr fun e _ => by rw [Table.isOutdated_eq_decide, decide_not]
  · intro earlier hle
    have hd' : w'.table.Distinct := by
      rw [htable]
      exact hd.filter _
    have hnone : w'.table.countP (Table.isOutdated earlier) = 0 := by
      refine List.countP_eq_zero.2 fun e he hx => ?_
      rw [htable, List.mem_filter] at he
      simp [Table.isOutdated_mono hle hx] at he
    obtain ⟨w'', h', l'⟩ := l.quiet.runPurge (.ofConfig w'.cleaner.value earlier) hd' 0
    have hzero : 0 + w'.table.countP (Table.isOutdated earlier) = 0 := by rw [hnone]
    refine ⟨w'', ?_, ?_⟩
    · rw [← hzero]
      exact h'
    · rw [l'.table]
      exact Table.filter_not_isOutdated hnone

/-- Two of four rows were published before the time 20, and the settings ask for batches of none. -/
def overdue : World :=
  { ofTable [{ Entry.sample with id := .ofNat 1, status := .published, publishedAt := some 19 },
      { Entry.sample with id := .ofNat 2, status := .published, publishedAt := some 20 },
      { Entry.sample with id := .ofNat 3, status := .failed, lastError := some "refused" },
      { Entry.sample with id := .ofNat 4, status := .published, publishedAt := some 5 }] 0 with
    cleaner := .new { CleanerConfig.default with batchSize := 0 } }

theorem purge_overdue :
    overdue.Quiet ∧ overdue.table.Distinct ∧
    ∃ w', overdue.purge 20 = (.ok (.ok 2), w') ∧ w'.table.map (·.id) = [.ofNat 2, .ofNat 3] ∧
      (10 : Instant) ≤ 20 ∧
      ∃ w'', w'.purge 10 = (.ok (.ok 0), w'') ∧ w''.table = w'.table := by
  have hq : overdue.Quiet := .of_script rfl rfl rfl (by decide)
  have hd : overdue.table.Distinct := by unfold Table.Distinct; decide
  obtain ⟨w', h, htable, hagain⟩ := purge_exact hq hd 20
  have hle : (10 : Instant) ≤ 20 := by decide
  refine ⟨hq, hd, w', h, ?_, hle, hagain 10 hle⟩
  rw [htable]
  decide +kernel

end Scenario.World
end Outbox
