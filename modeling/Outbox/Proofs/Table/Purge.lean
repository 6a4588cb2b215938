import Outbox.Proofs.Table.Row
import Mathlib.Data.List.Perm.Basic

/-!
# Purges of a table

A purge takes the longest published of the outdated entries, and entries published at one time may
be taken in any order. `PurgedAlike` says that two purges differ in nothing else, and `purgedAlike`
that any two ways of sorting by the time of publication lead to such purges.
-/

namespace Outbox.Table

/-- The rows that a later table has not. -/
def missing (t t' : Table) : List Entry := t.filter fun e => !t'.contains e

/-- Two purges of a table leave it alike: what is missing was outdated, and from each time of
publication the two removed equally many rows. -/
structure PurgedAlike (t : Table) (before : Instant) (kept kept' : Table) : Prop where
  sublist : kept.Sublist t
  outdated : ∀ e ∈ t.missing kept, isOutdated before e
  times : ((t.missing kept).map (·.publishedAt)).Perm ((t.missing kept').map (·.publishedAt))

theorem missing_filter_not (t : Table) (p : Entry → Bool) :
    t.missing (t.filter fun e => !p e) = t.filter p := by
  refine List.filter_congr fun e he => ?_
  rw [Bool.eq_iff_iff, Bool.not_eq_true', ← Bool.not_eq_true, List.contains_iff_mem,
    List.mem_filter]
  simp [he]

theorem Distinct.filter_ids_perm {t : Table} (h : t.Distinct) {es : List Entry} (hn : es.Nodup)
    (hsub : es ⊆ t) : (t.filter fun e => (es.map (·.id)).contains e.id).Perm es := by
  refine (List.perm_ext_iff_of_nodup (h.of_map.filter _) hn).2 fun e => ?_
  rw [List.mem_filter, List.contains_iff_mem]
  constructor
  · rintro ⟨he, hid⟩
    obtain ⟨e', he', hid⟩ := List.mem_map.1 hid
    exact h.eq_of_id (hsub he') he hid ▸ he'
  · intro he
    exact ⟨hsub he, List.mem_map.2 ⟨e, he, rfl⟩⟩

theorem publishedBefore_trans {a b c : Entry} (hab : publishedBefore a b)
    (hbc : publishedBefore b c) : publishedBefore a c := by
  unfold publishedBefore at *
  cases ha : a.publishedAt <;> cases hb : b.publishedAt <;> cases hc : c.publishedAt <;>
    simp_all
  delta Instant at *
  omega

theorem publishedBefore_total (a b : Entry) : publishedBefore a b || publishedBefore b a := by
  unfold publishedBefore
  cases a.publishedAt <;> cases b.publishedAt <;> simp
  delta Instant at *
  omega

theorem publishedAt_eq_of_publishedBefore {a b : Entry} (hab : publishedBefore a b)
    (hba : publishedBefore b a) : a.publishedAt = b.publishedAt := by
  unfold publishedBefore at *
  cases ha : a.publishedAt <;> cases hb : b.publishedAt <;> simp_all
  delta Instant at *
  omega

/-- The order of entries by publication, as an order of times. -/
def InOrder (o o' : Option Instant) : Prop :=
  ∃ a b : Entry, a.publishedAt = o ∧ b.publishedAt = o' ∧ publishedBefore a b

theorem InOrder.antisymm {o o' : Option Instant} (h : InOrder o o') (h' : InOrder o' o) :
    o = o' := by
  obtain ⟨a, b, rfl, rfl, hab⟩ := h
  obtain ⟨b', a', hb, ha, hba⟩ := h'
  refine publishedAt_eq_of_publishedBefore hab ?_
  unfold publishedBefore at hba ⊢
  rwa [hb, ha] at hba

theorem pairwise_inOrder {s : List Entry} (h : s.Pairwise fun a b => publishedBefore a b) :
    (s.map (·.publishedAt)).Pairwise InOrder :=
  List.pairwise_map.2 (h.imp fun hab => ⟨_, _, rfl, rfl, hab⟩)

/-- Sorted by the time of publication, entries are published at the same times one by one. -/
theorem map_publishedAt_eq {s s' : List Entry} (hp : s.Perm s')
    (hs : s.Pairwise fun a b => publishedBefore a b)
    (hs' : s'.Pairwise fun a b => publishedBefore a b) :
    s.map (·.publishedAt) = s'.map (·.publishedAt) :=
  (hp.map _).eq_of_pairwise (fun _ _ _ _ => InOrder.antisymm) (pairwise_inOrder hs)
    (pairwise_inOrder hs')

section
variable {t : Table} {before : Instant} {s s' : List Entry}

/-- The entries that a purge takes are those that are missing afterwards. -/
theorem Distinct.taken_perm (h : t.Distinct) (hs : s.Perm (t.filter (isOutdated before)))
    (n : Nat) : (t.filter fun e => ((s.take n).map (·.id)).contains e.id).Perm (s.take n) := by
  refine h.filter_ids_perm ?_ fun e he => ?_
  · exact (hs.nodup_iff.2 (h.of_map.filter _)).sublist (List.take_sublist n s)
  · exact (List.mem_filter.1 (hs.subset (List.mem_of_mem_take he))).1

theorem Distinct.purgedAlike (h : t.Distinct) (hs : s.Perm (t.filter (isOutdated before)))
    (hs' : s'.Perm (t.filter (isOutdated before)))
    (hsorted : s.Pairwise fun a b => publishedBefore a b)
    (hsorted' : s'.Pairwise fun a b => publishedBefore a b) (n : Nat) :
    t.PurgedAlike before (t.filter fun e => !((s.take n).map (·.id)).contains e.id)
      (t.filter fun e => !((s'.take n).map (·.id)).contains e.id) := by
  refine ⟨List.filter_sublist, fun e he => ?_, ?_⟩
  · rw [missing_filter_not] at he
    have he := List.mem_of_mem_take ((h.taken_perm hs n).subset he)
    exact (List.mem_filter.1 (hs.subset he)).2
  · have htimes : (s.take n).map (·.publishedAt) = (s'.take n).map (·.publishedAt) := by
      rw [List.map_take, List.map_take, map_publishedAt_eq (hs.trans hs'.symm) hsorted hsorted']
    rw [missing_filter_not, missing_filter_not]
    refine ((h.taken_perm hs n).map _).trans (htimes ▸ ?_)
    exact ((h.taken_perm hs' n).map _).symm

end
end Outbox.Table
