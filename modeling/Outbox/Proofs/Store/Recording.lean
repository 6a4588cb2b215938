import Outbox.Proofs.Event.Payload
import Outbox.Proofs.Store.Atomicity

/-!
# Recording events

A new entry refuses texts that are blank or too long. The texts of an event are neither: the names
of its kind are short, the id of its aggregate fills its column to the last character, and its
payload is an object (`accepted_texts`). So nothing but a rating that is not a finite number keeps
an event from being recorded.
-/

namespace Outbox

/-! ### What a column accepts -/

/-- A text that a new entry takes for a column. -/
structure Entry.Column.Accepts (c : Column) (s : String) : Prop where
  not_blank : Text.isBlank s = false
  fits : ∀ n, c.capacity = some n → s.length ≤ n

theorem Entry.checkColumn_of_accepts {d : Draft} {c : Column} (h : c.Accepts (d.text c)) :
    checkColumn d c = .ok () := by
  unfold checkColumn
  rw [h.not_blank, if_neg Bool.false_ne_true]
  cases hc : c.capacity with
  | none => rfl
  | some n => exact if_neg (Nat.not_lt.2 (h.fits n hc))

theorem Text.isBlank_of_mem {s : String} {c : Char} (hc : c ∈ s.toList)
    (h : isBlankChar c = false) : isBlank s = false :=
  List.all_eq_false.2 ⟨c, hc, Bool.eq_false_iff.1 h⟩

namespace Uuid

theorem length_text (u : Uuid) : u.text.length = 36 := by
  rw [text, String.length_ofList]
  rfl

theorem isBlank_text (u : Uuid) : Text.isBlank u.text = false := by
  refine Text.isBlank_of_mem (c := '-') ?_ (by decide)
  rw [text, String.toList_ofList]
  exact List.mem_append_right _ List.mem_cons_self

end Uuid

/-- The text of a record is not blank, whatever its fields are. -/
theorem Json.isBlank_render_record (fields : List (String × Json)) :
    Text.isBlank (record fields).render = false := by
  refine Text.isBlank_of_mem (c := '\x7b') ?_ (by decide)
  rw [render, String.toList_ofList, record, write]
  exact List.mem_cons_self

namespace Event

/-! ### The texts of an event -/

/-- A review whose rating is not a number, or not a finite one. -/
def IsUnwritable : Event → Prop
  | reviewCreated p => p.rating = .nan ∨ ∃ negative, p.rating = .infinite negative
  | _ => False

/-- The texts of the entry that stores the event, if it can be stored. -/
def texts (e : Event) : Draft where
  aggregateType := e.kind.aggregateType
  aggregateId := e.aggregateId.text
  eventType := e.kind.name
  topic := e.kind.topic
  payload := e.payload.render

theorem Kind.accepted_names (k : Kind) :
    Entry.Column.aggregateType.Accepts k.aggregateType ∧ Entry.Column.eventType.Accepts k.name ∧
      Entry.Column.topic.Accepts k.topic := by
  cases k <;> exact ⟨⟨rfl, by decide⟩, ⟨rfl, by decide⟩, ⟨rfl, by decide⟩⟩

theorem isBlank_payload (e : Event) : Text.isBlank e.payload.render = false := by
  cases e <;> exact Json.isBlank_render_record _

theorem accepted_texts (e : Event) (c : Entry.Column) : c.Accepts (e.texts.text c) := by
  obtain ⟨haggregate, htype, htopic⟩ := e.kind.accepted_names
  cases c with
  | aggregateType => exact haggregate
  | eventType => exact htype
  | topic => exact htopic
  | payload => exact ⟨e.isBlank_payload, nofun⟩
  | aggregateId =>
    refine ⟨e.aggregateId.isBlank_text, fun n hn => ?_⟩
    -- the column is as wide as the text of an id
    obtain rfl : 36 = n := Option.some.inj hn
    exact Nat.le_of_eq e.aggregateId.length_text

theorem kind_of_isUnwritable {e : Event} (h : e.IsUnwritable) : e.kind = .reviewCreated := by
  cases e with
  | reviewCreated => rfl
  | _ => exact h.elim

theorem draft_of_isUnwritable {e : Event} (h : e.IsUnwritable) :
    e.draft = .error ⟨e.kind, "rating"⟩ := by
  cases e with
  | reviewCreated p =>
    have hfinite : p.rating.isFinite = false := by
      rcases h with h | ⟨_, h⟩ <;> rw [h] <;> rfl
    simp [draft, checkFinite, hfinite, kind, bind, Except.bind]
  | _ => exact h.elim

theorem draft_of_not_isUnwritable {e : Event} (h : ¬ e.IsUnwritable) : e.draft = .ok e.texts := by
  cases e with
  | reviewCreated p =>
    have hfinite : p.rating.isFinite = true := by
      cases hr : p.rating with
      | nan => exact absurd (.inl hr) h
      | infinite negative => exact absurd (.inr ⟨negative, hr⟩) h
      | finite => rfl
    simp [draft, checkFinite, hfinite, bind, Except.bind, pure, Except.pure, texts]
  | _ => rfl

/-! ### The entry of an event -/

theorem entry_of_isUnwritable {e : Event} (h : e.IsUnwritable) (id : Uuid) (now : Instant) :
    e.entry id now = .error (.serialization ⟨e.kind, "rating"⟩) := by
  rw [entry, draft_of_isUnwritable h]
  rfl

theorem entry_of_not_isUnwritable {e : Event} (h : ¬ e.IsUnwritable) (id : Uuid) (now : Instant) :
    e.entry id now = .ok (.fresh id e.texts now) := by
  have hcreate : Entry.create id e.texts now = .ok (.fresh id e.texts now) :=
    Entry.create_eq_ok.2 ⟨fun c _ => Entry.checkColumn_of_accepts (e.accepted_texts c), rfl⟩
  rw [entry, draft_of_not_isUnwritable h]
  change (Entry.create id e.texts now).mapError _ = _
  rw [hcreate]
  rfl

end Event

namespace Store

variable {s s' : Store} {tx : String} {es : List Entry}

/-- What recording an event in a transaction with some entries leads to. -/
structure Records (s : Store) (tx : String) (es : List Entry) (e : Event) (id : Uuid)
    (now : Instant) (row : Entry) (s' : Store) : Prop where
  /-- The entry holds the texts of the event, each of them such as its column accepts. -/
  texts : ∃ d, e.draft = .ok d ∧ row = .fresh id d now ∧
    ∀ c : Entry.Column, c.Accepts (d.text c)
  pending : row.status = .pending ∧ row.retryCount = 0
  /-- Nobody has published, failed or claimed it. -/
  untouched : row.publishedAt = none ∧ row.lastError = none ∧ row.claimedBy = none ∧
    row.claimedAt = none
  /-- The transaction gains this entry. -/
  staged : s'.staged? tx = some (es ++ [row])
  others : ∀ tx', tx ≠ tx' → s'.staged? tx' = s.staged? tx'
  table : s'.table = s.table

theorem insert?_of_staged? (hs : s.staged? tx = some es) (row : Entry) :
    s.insert? tx row = some { s with openTransactions := (tx, es ++ [row]) :: s.others tx } := by
  rw [insert?, hs]
  rfl

/-- An event that can be written is recorded. -/
theorem append?_of_not_isUnwritable {e : Event} (hs : s.staged? tx = some es)
    (he : ¬ e.IsUnwritable) (id : Uuid) (now : Instant) :
    ∃ row s', s.append? tx e id now = some (.ok row, s') ∧ s.Records tx es e id now row s' := by
  let row := Entry.fresh id e.texts now
  let s' : Store := { s with openTransactions := (tx, es ++ [row]) :: s.others tx }
  have hlookup := s.staged?_open s.table
  refine ⟨row, s', ?_, ?_⟩
  · have hentry : e.entry id now = .ok row := Event.entry_of_not_isUnwritable he id now
    have hinsert : s.insert? tx row = some s' := insert?_of_staged? hs row
    simp [append?, hs, hentry, hinsert]
  · constructor
    · exact ⟨e.texts, Event.draft_of_not_isUnwritable he, rfl, e.accepted_texts⟩
    · exact ⟨rfl, rfl⟩
    · exact ⟨rfl, rfl, rfl, rfl⟩
    · exact (hlookup tx tx _).trans (if_pos rfl)
    · intro tx' htx
      exact (hlookup tx' tx _).trans (if_neg htx)
    · rfl

theorem append?_of_isUnwritable {e : Event} (hs : s.staged? tx = some es) (he : e.IsUnwritable)
    (id : Uuid) (now : Instant) :
    s.append? tx e id now = some (.error (.serialization ⟨e.kind, "rating"⟩), s) := by
  rw [append?, hs, Event.entry_of_isUnwritable he]
  rfl

/-- In an open transaction an event is recorded, unless it is a review whose rating is not a finite
number; then the error names the type of the event and the field, and nothing changes. No event is
refused for its texts. -/
theorem recorded_unless_unwritable (hs : s.staged? tx = some es) (e : Event) (id : Uuid)
    (now : Instant) :
    ((∃ row s', s.append? tx e id now = some (.ok row, s')) ↔ ¬ e.IsUnwritable) ∧
      (∀ row s', s.append? tx e id now = some (.ok row, s') →
        s.Records tx es e id now row s') ∧
      (e.IsUnwritable → ∃ err : Event.NonFinite,
        s.append? tx e id now = some (.error (.serialization err), s) ∧
          err.kind = e.kind ∧ err.field = "rating" ∧
          err.message = "ReviewCreated payload field `rating` is not a finite number") ∧
      ∀ kind err s', s.append? tx e id now ≠ some (.error (.invalid kind err), s') := by
  by_cases he : e.IsUnwritable
  · have happend := append?_of_isUnwritable hs he id now
    have hmessage : (⟨e.kind, "rating"⟩ : Event.NonFinite).message =
        "ReviewCreated payload field `rating` is not a finite number" := by
      rw [Event.kind_of_isUnwritable he]
      decide
    have hne : ∀ row s', s.append? tx e id now ≠ some (.ok row, s') := fun row s' h =>
      nomatch (Prod.mk.inj (Option.some.inj (happend.symm.trans h))).1
    refine ⟨⟨fun ⟨row, s', h⟩ => absurd h (hne row s'), fun h => absurd he h⟩,
      fun row s' h => absurd h (hne row s'), fun _ => ⟨_, happend, rfl, rfl, hmessage⟩, ?_⟩
    rw [happend]
    nofun
  · obtain ⟨row, s', happend, hrecords⟩ := append?_of_not_isUnwritable hs he id now
    rw [happend]
    refine ⟨⟨fun _ => he, fun _ => ⟨row, s', rfl⟩⟩, fun row' s'' h => ?_, fun h => absurd h he,
      nofun⟩
    cases h
    exact hrecords

/-- A review of texts that JSON escapes is recorded in a transaction that has an entry already; with
an infinite rating it is not. -/
theorem oddReview_recorded :
    let s : Store := ⟨[], [("t", [Entry.sample])]⟩
    s.staged? "t" = some [Entry.sample] ∧
      (∃ row s', s.append? "t" Event.oddReview (.ofNat 9) 0 = some (.ok row, s') ∧
        s'.staged? "t" = some [Entry.sample, row]) ∧
      ∃ err, s.append? "t" (Event.oddReview.withRating (.infinite true)) (.ofNat 9) 0 =
        some (.error err, s) := by
  intro s
  have hs : s.staged? "t" = some [Entry.sample] := rfl
  obtain ⟨hok, hrecords, -, -⟩ := recorded_unless_unwritable hs Event.oddReview (.ofNat 9) 0
  obtain ⟨-, -, herror, -⟩ := recorded_unless_unwritable hs
    (Event.oddReview.withRating (.infinite true)) (.ofNat 9) 0
  obtain ⟨row, s', h⟩ := hok.2 (by rintro (h | ⟨_, h⟩) <;> cases h)
  obtain ⟨err, herr, -⟩ := herror (.inr ⟨true, rfl⟩)
  exact ⟨hs, ⟨row, s', h, (hrecords row s' h).staged⟩, _, herr⟩

end Store
end Outbox
