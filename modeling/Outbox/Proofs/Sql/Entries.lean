import Outbox.Proofs.Sql.Condition
import Outbox.Proofs.Table.Oldest
import Outbox.Store.Outcome
import Mathlib.Data.List.Perm.Basic

/-!
# Statements on rows of entries

The rows of a database are those of a table of entries, and each statement is described by what it
does to the entries: the condition becomes a test on entries and the assignment a change of one.
Whatever a database may reply is then a list of entries, in some order, and the rows afterwards are
those of another table.
-/

namespace Outbox

open Sql

/-- The database can hold the times of the entry as they are. -/
structure Entry.IsMicro (e : Entry) : Prop where
  createdAt : e.createdAt.IsMicro
  publishedAt : ∀ t, e.publishedAt = some t → t.IsMicro
  claimedAt : ∀ t, e.claimedAt = some t → t.IsMicro

/-- The rows of the entries. -/
def Table.rows (t : Table) : List Row := t.map Row.ofEntry

/-! ### Cells -/

namespace Sql

theorem Row.nullable_instant? {r : Row} {c : Column} {o : Option Instant}
    (h : r c = .ofOption .ofInstant o) (ho : ∀ t, o = some t → t.IsMicro) :
    nullable instant? r c = some o := by
  cases o with
  | none => simp [nullable, h, Value.ofOption]
  | some t =>
    simp [nullable, instant?, h, Value.ofOption, Value.ofInstant, (ho t rfl).ofMicroseconds]

theorem Row.nullable_text? {r : Row} {c : Column} {o : Option String}
    (h : r c = .ofOption .text o) : nullable text? r c = some o := by
  cases o with
  | none => simp [nullable, h, Value.ofOption]
  | some s => simp [nullable, text?, h, Value.ofOption]

/-- An entry is read back from its row. -/
theorem Row.entry?_ofEntry {e : Entry} (h : e.IsMicro) : entry? (ofEntry e) = some e := by
  have hcreated : (ofEntry e).instant? .createdAt = some e.createdAt := by
    simp [instant?, ofEntry, Value.ofInstant, h.createdAt.ofMicroseconds]
  have hpublished : nullable instant? (ofEntry e) .publishedAt = some e.publishedAt :=
    nullable_instant? rfl h.publishedAt
  have hclaimed : nullable instant? (ofEntry e) .claimedAt = some e.claimedAt :=
    nullable_instant? rfl h.claimedAt
  have herror : nullable text? (ofEntry e) .lastError = some e.lastError := nullable_text? rfl
  have hworker : nullable text? (ofEntry e) .claimedBy = some e.claimedBy := nullable_text? rfl
  unfold entry?
  simp only [hcreated, hpublished, hclaimed, herror, hworker]
  rfl

theorem Reply.entries_rows {es : List Entry} (h : ∀ e ∈ es, e.IsMicro) :
    (Reply.rows (Table.rows es)).entries = es := by
  show (es.map Row.ofEntry).filterMap Row.entry? = es
  rw [List.filterMap_map]
  calc es.filterMap (fun e => Row.entry? (.ofEntry e)) = es.filterMap some :=
        List.filterMap_congr fun e he => Row.entry?_ofEntry (h e he)
    _ = es := List.filterMap_some

namespace Comparison
variable {o : Option Instant} {t : Instant}

theorem value_eq_optional_text (o : Option String) (s : String) :
    Comparison.eq.value (.ofOption .text o) (.text s) = .truth true ↔ o = some s := by
  cases o with
  | none => simp [Value.ofOption]
  | some a => simp [Value.ofOption]

theorem value_eq_optional_instant (ho : ∀ s, o = some s → s.IsMicro) (ht : t.IsMicro) :
    Comparison.eq.value (.ofOption .ofInstant o) (.ofInstant t) = .truth true ↔ o = some t := by
  cases o with
  | none => simp [Value.ofOption]
  | some s => simp [Value.ofOption, value_eq_instant (ho s rfl) ht]

theorem value_lt_optional_instant (ho : ∀ s, o = some s → s.IsMicro) (ht : t.IsMicro) :
    Comparison.lt.value (.ofOption .ofInstant o) (.ofInstant t) = .truth true ↔ o.any (· < t) := by
  cases o with
  | none => simp [Value.ofOption]
  | some s => simp [Value.ofOption, value_lt_instant (ho s rfl) ht]

end Comparison

theorem Value.exists_integer_eq {i : Int} (h : 0 ≤ i) : ∃ n : Nat, Value.integer i = .integer n :=
  ⟨i.toNat, congrArg _ (Int.toNat_of_nonneg h).symm⟩

/-! ### Order -/

theorem Value.sortOrder_ofInstant (s t : Instant) :
    (Value.ofInstant s).sortOrder (.ofInstant t) = compare s.microseconds t.microseconds := rfl

theorem Query.sorted_cons (c : Column) (cs : List (Column × Bool)) (a b : Row) :
    sorted ((c, false) :: cs) a b ↔
      (a c).sortOrder (b c) = .lt ∨ (a c).sortOrder (b c) = .eq ∧ sorted cs a b := by
  simp only [sorted]
  cases (a c).sortOrder (b c) <;> simp

theorem Query.sorted_singleton (c : Column) (a b : Row) :
    sorted [(c, false)] a b = ((a c).sortOrder (b c)).isLE := by
  simp only [sorted]
  cases (a c).sortOrder (b c) <;> rfl

/-- Rows in ascending order of age are entries in the order in which they are handled. -/
theorem Query.sorted_age {a b : Entry} (ha : a.IsMicro) (hb : b.IsMicro) :
    sorted [(.createdAt, false), (.id, false)] (Row.ofEntry a) (Row.ofEntry b) = a.before b := by
  have hlt := ha.createdAt.microseconds_lt_iff hb.createdAt
  have heq := ha.createdAt.microseconds_inj hb.createdAt
  have hid : sorted [(.id, false)] (Row.ofEntry a) (Row.ofEntry b) ↔ a.id.toNat ≤ b.id.toNat := by
    rw [sorted_singleton]
    exact Nat.isLE_compare
  rw [Bool.eq_iff_iff, sorted_cons, hid, Entry.before_iff, ← hlt, ← heq]
  exact or_congr Int.compare_eq_lt (and_congr_left' Int.compare_eq_eq)

end Sql

/-! ### Statements -/

namespace Table
variable {t : Table} {p : Entry → Bool}

theorem filter_rows {f : Row → Bool} (h : ∀ e ∈ t, f (.ofEntry e) = p e) :
    t.rows.filter f = rows (t.filter p) := by
  unfold rows
  rw [List.filter_map]
  exact congrArg _ (List.filter_congr h)

theorem countP_rows {f : Row → Bool} (h : ∀ e ∈ t, f (.ofEntry e) = p e) :
    t.rows.countP f = t.countP p := by
  rw [rows, List.countP_map]
  exact List.countP_congr fun e he => by rw [Function.comp_apply, h e he]

/-- Rows in another order are entries in another order. -/
theorem exists_rows_of_perm {rs : List Row} (h : rs.Perm t.rows) :
    ∃ s : Table, s.Perm t ∧ rs = s.rows := by
  have hmap : List.Forall₂ (fun r e => r = Row.ofEntry e) t.rows t := by
    rw [rows, List.forall₂_map_left_iff]
    exact List.forall₂_same.2 fun _ _ => rfl
  obtain ⟨s, hs, hperm⟩ := List.perm_comp_forall₂ h hmap
  refine ⟨s, hperm, ?_⟩
  clear hmap h hperm
  induction hs with
  | nil => rfl
  | cons hr _ ih => rw [rows, List.map_cons, ← hr, ih]; rfl

end Table

namespace Sql
variable {t : Table} {p : Entry → Bool} {params : List Value}

namespace Query
variable {q : Query} {rs : List Row}

theorem Selects.exists_entries (h : q.Selects params t.rows rs)
    (hp : ∀ e ∈ t, q.filter.holds params (.ofEntry e) = p e) :
    ∃ s : Table, s.Perm (t.filter p) ∧
      s.Pairwise (fun a b => sorted q.order (.ofEntry a) (.ofEntry b)) ∧
        rs = q.cut params s.rows := by
  obtain ⟨s, hperm, hsorted, rfl⟩ := h.cut
  rw [Table.filter_rows hp] at hperm
  obtain ⟨s, hs, rfl⟩ := Table.exists_rows_of_perm hperm
  exact ⟨s, hs, List.pairwise_map.1 hsorted, rfl⟩

/-- These entries are sorted as the relation says. -/
structure Ranks (order : List (Column × Bool)) (le : Entry → Entry → Bool) (es : List Entry) :
    Prop where
  sorted : ∀ a ∈ es, ∀ b ∈ es, le a b = Query.sorted order (.ofEntry a) (.ofEntry b)
  trans : ∀ a b c, le a b → le b c → le a c
  total : ∀ a b, le a b || le b a

variable {le : Entry → Entry → Bool}

theorem Ranks.pairwise (hle : Ranks q.order le (t.filter p)) {s : Table}
    (hperm : s.Perm (t.filter p))
    (hs : s.Pairwise fun a b => Query.sorted q.order (.ofEntry a) (.ofEntry b)) :
    s.Pairwise fun a b => le a b := by
  refine hs.imp_of_mem fun {a b} ha hb hab => ?_
  rw [hle.sorted a (hperm.subset ha) b (hperm.subset hb)]
  exact hab

/-- Sorting the rows gives some order that the query allows. -/
theorem selects_run (hb : q.IsBounded params)
    (hp : ∀ e ∈ t, q.filter.holds params (.ofEntry e) = p e) (hle : Ranks q.order le (t.filter p)) :
    q.Selects params t.rows (q.run params t.rows) := by
  refine ⟨hb, _, List.mergeSort_perm _ (sorted q.order), ?_, rfl⟩
  rw [Table.filter_rows hp, Table.rows, ← List.map_mergeSort hle.sorted, List.pairwise_map]
  refine (List.pairwise_mergeSort hle.trans hle.total (t.filter p)).imp_of_mem ?_
  intro a b ha hb hab
  rw [← hle.sorted a (List.mem_mergeSort.1 ha) b (List.mem_mergeSort.1 hb)]
  exact hab

/-- If no two entries rank alike, only one list of entries can be selected. -/
theorem Selects.eq_mergeSort (h : q.Selects params t.rows rs)
    (hp : ∀ e ∈ t, q.filter.holds params (.ofEntry e) = p e) (hle : Ranks q.order le (t.filter p))
    (antisymm : ∀ a ∈ t.filter p, ∀ b ∈ t.filter p, le a b → le b a → a = b) :
    rs = q.cut params (Table.rows ((t.filter p).mergeSort le)) := by
  obtain ⟨s, hperm, hsorted, rfl⟩ := h.exists_entries hp
  rw [← Entry.eq_mergeSort_of_perm hle.trans hle.total antisymm hperm (hle.pairwise hperm hsorted)]

end Query

namespace Statement
variable {cells : List (Column × Expr)} {filter : Expr} {f : Entry → Entry}

theorem map_update (hp : ∀ e ∈ t, filter.holds params (.ofEntry e) = p e)
    (hf : ∀ e ∈ t, p e → assign cells params (.ofEntry e) = .ofEntry (f e)) :
    (t.rows.map fun r => if filter.holds params r then assign cells params r else r) =
      Table.rows (t.map fun e => if p e then f e else e) := by
  unfold Table.rows
  rw [List.map_map, List.map_map]
  refine List.map_congr_left fun e he => ?_
  simp only [Function.comp_apply, hp e he]
  split <;> rename_i h
  · exact hf e he h
  · rfl

theorem map_filter_update (hp : ∀ e ∈ t, filter.holds params (.ofEntry e) = p e)
    (hf : ∀ e ∈ t, p e → assign cells params (.ofEntry e) = .ofEntry (f e)) :
    (t.rows.filter (filter.holds params)).map (assign cells params) =
      Table.rows ((t.filter p).map f) := by
  rw [Table.filter_rows hp, Table.rows, Table.rows, List.map_map, List.map_map]
  refine List.map_congr_left fun e he => ?_
  obtain ⟨he, h⟩ := List.mem_filter.1 he
  exact hf e he h

/-- What an update leads to, in terms of entries. -/
theorem Yields.exists_entries {r : Reply} {rows' : List Row}
    (h : Yields params t.rows (.update cells filter) r rows')
    (hp : ∀ e ∈ t, filter.holds params (.ofEntry e) = p e)
    (hf : ∀ e ∈ t, p e → assign cells params (.ofEntry e) = .ofEntry (f e)) :
    ∃ es : Table, es.Perm ((t.filter p).map f) ∧ r = .rows es.rows ∧
      rows' = Table.rows (t.map fun e => if p e then f e else e) := by
  cases h with
  | update _ returned =>
    rw [map_filter_update hp hf] at returned
    obtain ⟨es, hes, rfl⟩ := Table.exists_rows_of_perm returned
    exact ⟨es, hes, rfl, map_update hp hf⟩

theorem yields_run_update (hp : ∀ e ∈ t, filter.holds params (.ofEntry e) = p e)
    (hf : ∀ e ∈ t, p e → assign cells params (.ofEntry e) = .ofEntry (f e))
    (hok : ∀ e ∈ t, p e →
      (Row.ofEntry (f e)).Allowed ∧ (Row.ofEntry e).Passes (.ofEntry (f e))) :
    Yields params t.rows (.update cells filter)
      ((Statement.update cells filter).run params t.rows).1
      ((Statement.update cells filter).run params t.rows).2 := by
  refine .update (fun r hr hh => ?_) (List.Perm.refl _)
  obtain ⟨e, he, rfl⟩ := List.mem_map.1 hr
  rw [hp e he] at hh
  rw [hf e he hh]
  exact hok e he hh

end Statement
end Sql
end Outbox
