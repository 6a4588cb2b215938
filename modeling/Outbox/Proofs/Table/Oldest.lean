import Outbox.Proofs.Table.Row
import Mathlib.Data.List.Perm.Subperm

/-!
# The oldest entries

`Oldest n es due` says what a listing means, without a word about sorting: `due` are the `n` first
of the entries `es`, in the order of their creation and then of their ids. There is one such list,
and `findPending` finds it.
-/

namespace Outbox

namespace Entry
variable {a b c : Entry}

/-- Created earlier, or at the same time with a smaller id. -/
def Earlier (a b : Entry) : Prop :=
  a.createdAt < b.createdAt ∨ a.createdAt = b.createdAt ∧ a.id.toNat < b.id.toNat

instance : DecidableRel Earlier := fun _ _ => inferInstanceAs (Decidable (_ ∨ _))

theorem before_iff : a.before b ↔
    a.createdAt < b.createdAt ∨ a.createdAt = b.createdAt ∧ a.id.toNat ≤ b.id.toNat := by
  simp [before]

theorem before_trans (hab : a.before b) (hbc : b.before c) : a.before c := by
  rw [before_iff] at *
  delta Instant at *
  omega

theorem before_total (a b : Entry) : a.before b ∨ b.before a := by
  rw [before_iff, before_iff]
  delta Instant
  omega

theorem id_eq_of_before (hab : a.before b) (hba : b.before a) : a.id = b.id := by
  rw [before_iff] at hab hba
  delta Instant at *
  exact Uuid.ext (by omega)

theorem earlier_of_before (h : a.before b) (hid : a.id ≠ b.id) : a.Earlier b := by
  have hne : a.id.toNat ≠ b.id.toNat := fun h => hid (Uuid.ext h)
  rw [before_iff] at h
  unfold Earlier
  delta Instant at *
  omega

theorem Earlier.asymm (h : a.Earlier b) : ¬ b.Earlier a := by
  unfold Earlier at *
  delta Instant at *
  omega

theorem Earlier.ne (h : a.Earlier b) : a ≠ b := by
  rintro rfl
  exact h.asymm h

end Entry

/-- The `n` first of some entries, in order, or all of them if there are fewer. -/
structure Oldest (n : Nat) (es due : List Entry) : Prop where
  subset : due ⊆ es
  ordered : due.Pairwise Entry.Earlier
  length : due.length = min n es.length
  rest : ∀ e ∈ es, e ∉ due → ∀ d ∈ due, d.Earlier e

/-- However entries are sorted, by an order that tells them apart there is one result. -/
theorem Entry.eq_mergeSort_of_perm {le : Entry → Entry → Bool} {es s : List Entry}
    (trans : ∀ a b c, le a b → le b c → le a c) (total : ∀ a b, le a b || le b a)
    (antisymm : ∀ a ∈ es, ∀ b ∈ es, le a b → le b a → a = b) (hp : s.Perm es)
    (hs : s.Pairwise fun a b => le a b) : s = es.mergeSort le := by
  have hsorted : (es.mergeSort le).Pairwise fun a b => le a b :=
    List.pairwise_mergeSort trans total es
  refine (hp.trans (List.mergeSort_perm es le).symm).eq_of_pairwise (fun a b ha hb => ?_) hs hsorted
  exact antisymm a (hp.subset ha) b (List.mem_mergeSort.1 hb)

/-- Entries of different ids are sorted so that none comes twice. -/
theorem Entry.pairwise_mergeSort (le : Entry → Entry → Bool) {es : List Entry}
    (trans : ∀ a b c, le a b → le b c → le a c) (total : ∀ a b, le a b ∨ le b a)
    (hn : (es.map (·.id)).Nodup) :
    (es.mergeSort le).Pairwise fun a b => le a b ∧ a.id ≠ b.id := by
  have hle : (es.mergeSort le).Pairwise fun a b => le a b :=
    List.pairwise_mergeSort trans (fun a b => by simpa using total a b) es
  have hperm := List.mergeSort_perm es le
  exact hle.and (List.pairwise_map.1 ((hperm.map Entry.id).nodup_iff.2 hn))

namespace Oldest
variable {n : Nat} {es due due' : List Entry}

theorem nodup (h : Oldest n es due) : due.Nodup := h.ordered.imp Entry.Earlier.ne

/-- Two lists of equal length that each take the first entries cannot miss different ones. -/
theorem subset_of_oldest (h : Oldest n es due) (h' : Oldest n es due') : due ⊆ due' := by
  intro a ha
  by_contra ha'
  -- Then `due'` has some `b` that `due` has not, and each of the two is earlier than the other.
  have hsub : ¬ due' ⊆ due := by
    intro hsub
    have hle : due.length ≤ due'.length := Nat.le_of_eq (h.length.trans h'.length.symm)
    have hperm := (h'.nodup.subperm hsub).perm_of_length_le hle
    exact ha' (hperm.symm.subset ha)
  simp only [List.subset_def, not_forall] at hsub
  obtain ⟨b, hb', hb⟩ := hsub
  have hab := h.rest b (h'.subset hb') hb a ha
  have hba := h'.rest a (h.subset ha) ha' b hb'
  exact hab.asymm hba

theorem unique (h : Oldest n es due) (h' : Oldest n es due') : due = due' := by
  have hperm : due.Perm due' :=
    (List.perm_ext_iff_of_nodup h.nodup h'.nodup).2 fun a =>
      ⟨fun ha => h.subset_of_oldest h' ha, fun ha => h'.subset_of_oldest h ha⟩
  exact hperm.eq_of_pairwise (fun a b _ _ hab hba => absurd hba hab.asymm) h.ordered h'.ordered

/-- If there is room, the first of all entries comes first. -/
theorem head?_eq (h : Oldest n es due) (hn : 0 < n) {e : Entry} (he : e ∈ es)
    (hfirst : ∀ x ∈ es, x ≠ e → e.Earlier x) : due.head? = some e := by
  have hlength := h.length
  cases due with
  | nil =>
    have hpos := List.length_pos_of_mem he
    rw [List.length_nil] at hlength
    omega
  | cons d due =>
    have hd : d ∈ d :: due := List.mem_cons_self
    by_contra hne
    have hde : d ≠ e := fun hde => hne (hde ▸ rfl)
    have hed := hfirst d (h.subset hd) hde
    by_cases hmem : e ∈ d :: due
    · have hmem := (List.mem_cons.1 hmem).resolve_left hde.symm
      exact hed.asymm ((List.pairwise_cons.1 h.ordered).1 e hmem)
    · exact hed.asymm (h.rest e he hmem d hd)

/-- Sorting and taking gives the oldest entries. -/
theorem take_mergeSort (n : Nat) (hn : (es.map (·.id)).Nodup) :
    Oldest n es ((es.mergeSort Entry.before).take n) := by
  have hperm := List.mergeSort_perm es Entry.before
  have hbefore := Entry.pairwise_mergeSort Entry.before (fun _ _ _ => Entry.before_trans)
    Entry.before_total hn
  have hsorted : (es.mergeSort Entry.before).Pairwise Entry.Earlier :=
    hbefore.imp fun h => Entry.earlier_of_before h.1 h.2
  have hsplit := List.take_append_drop n (es.mergeSort Entry.before)
  refine ⟨fun e he => hperm.subset (List.mem_of_mem_take he),
    hsorted.sublist (List.take_sublist ..), by simp, fun e he hnot d hd => ?_⟩
  have he : e ∈ (es.mergeSort Entry.before).drop n := by
    have := hperm.symm.subset he
    rw [← hsplit, List.mem_append] at this
    exact this.resolve_left hnot
  rw [← hsplit] at hsorted
  exact (List.pairwise_append.1 hsorted).2.2 d hd e he

end Oldest

namespace Table

/-- A listing finds the oldest entries that can be claimed. -/
theorem oldest_findPending {t : Table} (h : t.Distinct) (maxRetry limit : Int) (cutoff : Instant) :
    Oldest limit.toNat (t.filter (·.isClaimable maxRetry cutoff))
      (t.findPending maxRetry limit cutoff) :=
  .take_mergeSort _ (h.filter _)

/-- It finds the same when the sweep comes first. -/
theorem oldest_findPending_failExhausted {t : Table} (h : t.Distinct) (maxRetry limit : Int)
    (cutoff : Instant) : Oldest limit.toNat (t.filter (·.isClaimable maxRetry cutoff))
      ((t.failExhausted maxRetry cutoff).2.findPending maxRetry limit cutoff) := by
  have hd := h.failExhausted maxRetry cutoff
  have hdue := oldest_findPending hd maxRetry limit cutoff
  rwa [filter_isClaimable_failExhausted] at hdue

end Table
end Outbox
