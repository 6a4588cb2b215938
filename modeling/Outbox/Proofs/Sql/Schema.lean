import Outbox.Proofs.Sql.Entries
import Outbox.Proofs.Store.Consistency

/-!
# Entries and the declaration of the table

`Fits` says of an entry what the declaration of the table says of its row. The limits of a new entry
are those of the columns, so a created entry fits; and every turn of an entry passes the guard and
leads to an entry that fits, as long as the count of attempts does not run out.
-/

namespace Outbox

open Sql

/-- The column of the table for a text that a new entry brings. -/
def Entry.Column.column : Entry.Column → Sql.Column
  | aggregateType => .aggregateType
  | aggregateId => .aggregateId
  | eventType => .eventType
  | topic => .topic
  | payload => .payload

theorem Entry.Column.capacity_column (c : Entry.Column) : c.column.capacity = c.capacity := by
  cases c <;> rfl

namespace Sql

theorem Column.takes_optional {α : Type} {c : Column} (f : α → Value) (o : Option α)
    (hc : c.isOptional) (h : ∀ a, o = some a → c.Takes (f a)) : c.Takes (.ofOption f o) := by
  cases o with
  | none => cases c <;> exact hc
  | some a => exact h a rfl

theorem Value.ofOption_text_eq_null (o : Option String) :
    Value.ofOption .text o = .null ↔ o = none := by
  cases o <;> simp [Value.ofOption]

theorem Value.ofOption_instant_eq_null (o : Option Instant) :
    Value.ofOption .ofInstant o = .null ↔ o = none := by
  cases o <;> simp [Value.ofOption, Value.ofInstant]

end Sql

namespace Entry

/-- The table takes the entry. -/
structure Fits (e : Entry) : Prop where
  texts : ∀ c : Entry.Column, c.column.Fits (e.origin.draft.text c)
  lastError : ∀ s, e.lastError = some s → Sql.Column.lastError.Fits s
  claimedBy : ∀ w, e.claimedBy = some w → Sql.Column.claimedBy.Fits w
  count : 0 ≤ e.retryCount ∧ e.retryCount ≤ greatestCount
  publishedAt : e.publishedAt.isSome ↔ e.status = .published
  claim : e.claimedBy.isSome ↔ e.claimedAt.isSome

theorem allowed_iff {e : Entry} : (Row.ofEntry e).Allowed ↔ e.Fits := by
  have hstatus : Row.ofEntry e .status = .status .published ↔ e.status = .published := by
    simp [Row.ofEntry]
  have hpub : Row.ofEntry e .publishedAt ≠ .null ↔ e.publishedAt.isSome := by
    rw [Option.isSome_iff_ne_none, not_iff_not]
    exact Value.ofOption_instant_eq_null _
  have hby : Row.ofEntry e .claimedBy = .null ↔ e.claimedBy = none :=
    Value.ofOption_text_eq_null _
  have hat : Row.ofEntry e .claimedAt = .null ↔ e.claimedAt = none :=
    Value.ofOption_instant_eq_null _
  constructor
  · intro h
    refine ⟨fun c => ?_, fun s hs => ?_, fun w hw => ?_, ⟨h.count _ rfl, (h.takes .retryCount).2⟩,
      hpub.symm.trans (h.published.symm.trans hstatus), ?_⟩
    · cases c with
      | aggregateType => exact h.takes .aggregateType
      | aggregateId => exact h.takes .aggregateId
      | eventType => exact h.takes .eventType
      | topic => exact h.takes .topic
      | payload => exact h.takes .payload
    · have := h.takes .lastError
      rwa [Row.ofEntry, hs] at this
    · have := h.takes .claimedBy
      rwa [Row.ofEntry, hw] at this
    · rw [Option.isSome_iff_ne_none, Option.isSome_iff_ne_none, not_iff_not]
      exact hby.symm.trans (h.claim.trans hat)
  · intro h
    refine ⟨fun c => ?_, fun i hi => ?_, hstatus.trans (h.publishedAt.symm.trans hpub.symm), ?_⟩
    · cases c with
      | aggregateType => exact h.texts .aggregateType
      | aggregateId => exact h.texts .aggregateId
      | eventType => exact h.texts .eventType
      | topic => exact h.texts .topic
      | payload => exact h.texts .payload
      | id | status | createdAt => trivial
      | retryCount =>
        have hcount := h.count
        refine ⟨?_, hcount.2⟩
        have : (0 : Int) ≤ greatestCount := by decide
        show -greatestCount - 1 ≤ e.retryCount
        omega
      | publishedAt => exact Sql.Column.takes_optional _ _ rfl fun _ _ => trivial
      | lastError => exact Sql.Column.takes_optional _ _ rfl h.lastError
      | claimedBy => exact Sql.Column.takes_optional _ _ rfl h.claimedBy
      | claimedAt => exact Sql.Column.takes_optional _ _ rfl fun _ _ => trivial
    · cases hi
      exact h.count.1
    · have hclaim := not_congr h.claim
      simp only [Option.not_isSome_iff_eq_none] at hclaim
      exact hby.trans (hclaim.trans hat.symm)

/-- What a new entry is checked for is what the columns ask of it. -/
theorem fits_fresh {id : Uuid} {d : Draft} {now : Instant} {e : Entry}
    (h : create id d now = .ok e) (hp : ∀ c, IsPlain (d.text c)) : e.Fits := by
  obtain ⟨hcheck, rfl⟩ := create_eq_ok.1 h
  have hcount : (0 : Int) ≤ greatestCount := by decide
  refine ⟨fun c => ⟨hp c, fun n hn => ?_⟩, nofun, nofun, ⟨Int.le_refl 0, hcount⟩, by simp [fresh],
    by simp [fresh]⟩
  rw [c.capacity_column] at hn
  exact length_le_of_checkColumn (hcheck c (by cases c <;> decide)) hn

end Entry

namespace Turn
variable {d : Deed} {e e' : Entry}

/-- The guard lets every turn pass. -/
theorem passes (h : Turn d e e') : (Row.ofEntry e).Passes (.ofEntry e') := by
  have ho := h.origin_eq
  simp only [Entry.origin, Entry.Origin.mk.injEq, Draft.mk.injEq] at ho
  refine ⟨fun c hc => ?_, ?_, fun hs => ?_, fun hs i j hi hj => ?_⟩
  · simp only [Column.creation, List.mem_cons, List.not_mem_nil, or_false] at hc
    rcases hc with rfl | rfl | rfl | rfl | rfl | rfl | rfl <;> simp [Row.ofEntry, ho]
  · simpa [Row.ofEntry] using h.status_ne_published
  · have hs : e.status = .failed := by simpa [Row.ofEntry] using hs
    cases h with
    | claimed pending => simp [pending] at hs
    | published held | retried held | rejected held => simp [held.pending] at hs
    | retired exhausted => simp [(Entry.isExhausted_iff.1 exhausted).1] at hs
    | replayed => exact ⟨rfl, rfl⟩
  · have hs : e.status = .pending := by simpa [Row.ofEntry] using hs
    cases hi
    cases hj
    cases h with
    | claimed | published | rejected | retired => exact Int.le_refl _
    | retried => exact Int.le_add_one (Int.le_refl _)
    | replayed failed => simp [failed] at hs

/-- A turn leads to an entry that fits, if its new texts do. -/
theorem fits (h : Turn d e e') (he : e.Fits) (hc : e.retryCount < Entry.greatestCount)
    (hl : ∀ s, e'.lastError = some s → Sql.Column.lastError.Fits s)
    (hw : ∀ w, e'.claimedBy = some w → Sql.Column.claimedBy.Fits w) : e'.Fits := by
  refine ⟨h.origin_eq ▸ he.texts, hl, hw, ?_, h.publishedAt_iff he.publishedAt, h.claim_iff⟩
  have hcount := he.count
  have : (0 : Int) ≤ Entry.greatestCount := by decide
  rcases h.retryCount_cases with h | h | h <;> omega

end Turn

/-- A table that a database can hold, and in which each attempt can still be counted. -/
structure Table.Storable (t : Table) : Prop where
  distinct : t.Distinct
  allowed : ∀ e ∈ t, (Row.ofEntry e).Allowed
  micro : ∀ e ∈ t, e.IsMicro
  room : ∀ e ∈ t, e.retryCount < Entry.greatestCount

theorem Table.Storable.fits {t : Table} (h : t.Storable) : ∀ e ∈ t, e.Fits := fun e he =>
  Entry.allowed_iff.1 (h.allowed e he)

namespace Sql

/-- The rows are those of the table, and its entries can be read from them. -/
structure Mirrors (rows : List Row) (t : Table) : Prop where
  eq : rows = t.rows
  read : rows.map Row.entry? = t.map some

theorem mirrors_rows {t : Table} (h : ∀ e ∈ t, e.IsMicro) : Mirrors t.rows t := by
  refine ⟨rfl, ?_⟩
  rw [Table.rows, List.map_map]
  exact List.map_congr_left fun e he => Row.entry?_ofEntry (h e he)

/-! ### Updates -/

/-- The assignment turns the entry into another one that the table takes. -/
structure Turns (cells : List (Column × Expr)) (params : List Value) (e e' : Entry) : Prop where
  assign : assign cells params (.ofEntry e) = .ofEntry e'
  turn : ∃ d, Turn d e e'
  micro : e'.IsMicro
  lastError : ∀ s, e'.lastError = some s → Column.lastError.Fits s
  claimedBy : ∀ w, e'.claimedBy = some w → Column.claimedBy.Fits w

namespace Statement
variable {t : Table} {p : Entry → Bool} {f : Entry → Entry} {cells : List (Column × Expr)}
  {filter : Expr} {params : List Value}

/-- No check and no guard stands in the way of an update by which entries turn. -/
theorem yields_run_turns (ht : t.Storable)
    (hp : ∀ e ∈ t, filter.holds params (.ofEntry e) = p e)
    (hf : ∀ e ∈ t, p e → Turns cells params e (f e)) :
    Yields params t.rows (.update cells filter)
      ((Statement.update cells filter).run params t.rows).1
      ((Statement.update cells filter).run params t.rows).2 := by
  refine yields_run_update hp (fun e he h => (hf e he h).assign) fun e he h => ?_
  obtain ⟨d, turn⟩ := (hf e he h).turn
  refine ⟨Entry.allowed_iff.2 ?_, turn.passes⟩
  exact turn.fits (ht.fits e he) (ht.room e he) (hf e he h).lastError (hf e he h).claimedBy

theorem Yields.exists_turned {r : Reply} {rows' : List Row} (ht : t.Storable)
    (h : Yields params t.rows (.update cells filter) r rows')
    (hp : ∀ e ∈ t, filter.holds params (.ofEntry e) = p e)
    (hf : ∀ e ∈ t, p e → Turns cells params e (f e)) :
    r.entries.Perm ((t.filter p).map f) ∧
      Mirrors rows' (t.map fun e => if p e then f e else e) := by
  obtain ⟨es, hperm, rfl, rfl⟩ := h.exists_entries hp fun e he h => (hf e he h).assign
  constructor
  · rwa [Reply.entries_rows]
    intro e' he'
    obtain ⟨e, he, rfl⟩ := List.mem_map.1 (hperm.subset he')
    obtain ⟨he, hpe⟩ := List.mem_filter.1 he
    exact (hf e he hpe).micro
  · refine mirrors_rows fun e' he' => ?_
    obtain ⟨e, he, rfl⟩ := List.mem_map.1 he'
    split <;> rename_i hpe
    · exact (hf e he hpe).micro
    · exact ht.micro e he

/-- An update of the rows of one id changes the one row that there is, or none. -/
theorem Yields.turned_cases {r : Reply} {rows' : List Row} {id : Uuid} (ht : t.Storable)
    (h : Yields params t.rows (.update cells filter) r rows')
    (hp : ∀ e ∈ t, filter.holds params (.ofEntry e) = p e) (hid : ∀ e, p e → e.id = id)
    (hf : ∀ e ∈ t, p e → Turns cells params e (f e)) :
    (∀ e ∈ t, ¬ p e) ∧ r.entries = [] ∧ Mirrors rows' t ∨
      ∃ e, t.row? id = some e ∧ p e ∧ r.entries = [f e] ∧ Mirrors rows' (t.put id (f e)) := by
  obtain ⟨hreply, hrows⟩ := h.exists_turned ht hp hf
  rcases ht.distinct.change_cases hid f with ⟨hnone, hfilter, hmap⟩ | ⟨e, hr, hpe, hfilter, hmap⟩
  · rw [hfilter] at hreply
    exact .inl ⟨hnone, hreply.eq_nil, hmap ▸ hrows⟩
  · rw [hfilter] at hreply
    exact .inr ⟨e, hr, hpe, List.perm_singleton.1 hreply, hmap ▸ hrows⟩

end Statement
end Sql
end Outbox
