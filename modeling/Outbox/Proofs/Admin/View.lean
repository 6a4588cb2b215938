import Outbox.Admin.View
import Outbox.Proofs.Entry.Change
import Outbox.Proofs.Json.Integer
import Outbox.Proofs.Json.Record
import Outbox.Proofs.Uuid

/-!
# What administrators see of an entry is true

The JSON text of an entry is read back as its view, and the view has everything that the entry has
but the fractions of the seconds of its times (`view_of_json`). A time before 1970 is told as the
second that it lies in, too, not as the one after it.
-/

namespace Outbox

/-! ### Seconds -/

namespace Instant

/-- The last whole second not after a time. -/
structure IsLastSecond (s : Int) (t : Instant) : Prop where
  le : s * perSecond ≤ t
  last : ∀ n : Int, n * perSecond ≤ t → n ≤ s

theorem isLastSecond_seconds (t : Instant) : IsLastSecond t.seconds t := by
  have hdiv : t.seconds = t / perSecond := Int.fdiv_eq_ediv_of_nonneg t (by decide)
  rw [hdiv]
  exact ⟨Int.ediv_mul_le t (by decide), fun n => Int.le_ediv_of_mul_le (by decide)⟩

theorem IsLastSecond.unique {s s' : Int} {t : Instant} (h : IsLastSecond s t)
    (h' : IsLastSecond s' t) : s = s' :=
  Int.le_antisymm (h'.last s h.le) (h.last s' h'.le)

/-- The times differ at most in the fractions of their seconds. -/
def SameSecond (t u : Instant) : Prop := ∃ s, IsLastSecond s t ∧ IsLastSecond s u

/-- The seconds of all dates are whole numbers of 64 bits. -/
theorem seconds_fits {t : Instant} (h : t.IsRepresentable) :
    -(Nat.pow 2 63 : Int) ≤ t.seconds ∧ t.seconds < Nat.pow 2 63 := by
  have hs := isLastSecond_seconds t
  obtain ⟨he, hl⟩ := h
  have hfirst := hs.last (-377705116800) he
  have hlast : t.seconds < 253402300800 := by
    have hle := Int.le_trans hs.le hl
    simp only [latest, perSecond] at hle
    omega
  exact ⟨Int.le_trans (by decide) hfirst, Int.lt_of_lt_of_le hlast (by decide)⟩

end Instant

/-- The count of an entry fits 32 bits, and its times have calendar dates. -/
structure Entry.InRange (e : Entry) : Prop where
  retryCount : -(Nat.pow 2 31 : Int) ≤ e.retryCount ∧ e.retryCount < Nat.pow 2 31
  createdAt : e.createdAt.IsRepresentable
  publishedAt : ∀ t ∈ e.publishedAt, Instant.IsRepresentable t
  claimedAt : ∀ t ∈ e.claimedAt, Instant.IsRepresentable t

/-- The entries differ at most in the fractions of the seconds of their times. -/
structure Entry.SameSeconds (a b : Entry) : Prop where
  rest : { a with
    createdAt := b.createdAt
    publishedAt := b.publishedAt
    claimedAt := b.claimedAt } = b
  createdAt : a.createdAt.SameSecond b.createdAt
  publishedAt : Option.Rel Instant.SameSecond a.publishedAt b.publishedAt
  claimedAt : Option.Rel Instant.SameSecond a.claimedAt b.claimedAt

namespace Admin.EntryView

open Json (Reads Row decodeText_text decodeInt_int decodeOption_option decodeRecord_record
  reads_text reads_number reads_option reads_record readsBack_integer decodeString_render)
open Json.Row.DecodedFrom (required optional nil)
open Instant (IsLastSecond isLastSecond_seconds seconds_fits)

variable {v : EntryView} {e e' : Entry}

/-! ### A view is read back -/

/-- The numbers of a view fit the widths in which they are read. -/
structure Fits (v : EntryView) : Prop where
  retryCount : -(Nat.pow 2 31 : Int) ≤ v.retryCount ∧ v.retryCount < Nat.pow 2 31
  createdAt : -(Nat.pow 2 63 : Int) ≤ v.createdAt ∧ v.createdAt < Nat.pow 2 63
  publishedAt : ∀ s ∈ v.publishedAt, -(Nat.pow 2 63 : Int) ≤ s ∧ s < Nat.pow 2 63
  claimedAt : ∀ s ∈ v.claimedAt, -(Nat.pow 2 63 : Int) ≤ s ∧ s < Nat.pow 2 63

theorem fits_ofEntry (h : e.InRange) : (ofEntry e).Fits := by
  refine ⟨h.retryCount, seconds_fits h.createdAt, fun s hs => ?_, fun s hs => ?_⟩
  · obtain ⟨t, ht, rfl⟩ := Option.mem_map.1 hs
    exact seconds_fits (h.publishedAt t ht)
  · obtain ⟨t, ht, rfl⟩ := Option.mem_map.1 hs
    exact seconds_fits (h.claimedAt t ht)

theorem decode_status (s : StatusView) : StatusView.decode s.toJson = .ok s := by
  cases s <;> rfl

theorem decode_toJson (h : v.Fits) : decode v.toJson = .ok v := by
  have hint : ∀ i, Json.int i ≠ .null := fun _ h => nomatch h
  have htext : ∀ s, Json.text s ≠ .null := fun _ h => nomatch h
  have hrow : Row.DecodedFrom fields _ _ :=
    required v.id.decode_toJson <| required (decodeText_text v.aggregateType) <|
    required (decodeText_text v.aggregateId) <| required (decodeText_text v.eventType) <|
    required (decodeText_text v.topic) <| required (decodeText_text v.payload) <|
    required (decode_status v.status) <| required (decodeInt_int h.retryCount) <|
    required (decodeInt_int h.createdAt) <|
    optional (decodeOption_option hint fun s hs => decodeInt_int (h.publishedAt s hs)) <|
    optional (decodeOption_option (a := v.lastError) htext fun s _ => decodeText_text s) <|
    optional (decodeOption_option (a := v.claimedBy) htext fun s _ => decodeText_text s) <|
    optional (decodeOption_option hint fun s hs => decodeInt_int (h.claimedAt s hs)) nil
  rw [decode, toJson, decodeRecord_record _ (by decide) hrow]
  rfl

theorem reads_int {i : Int} (h : -(Nat.pow 2 63 : Int) ≤ i ∧ i < Nat.pow 2 63) :
    Reads (Json.int i) :=
  reads_number (readsBack_integer h.1 (Int.lt_trans h.2 (by decide)))

theorem reads_toJson (h : v.Fits) : Reads v.toJson := by
  have hcount : Reads (.int v.retryCount) :=
    reads_int ⟨Int.le_trans (by decide) h.retryCount.1, Int.lt_trans h.retryCount.2 (by decide)⟩
  refine reads_record ?_
  simp only [List.forall_mem_cons]
  exact ⟨reads_text v.id.text, reads_text _, reads_text _, reads_text _, reads_text _,
    reads_text _, reads_text v.status.name, hcount, reads_int h.createdAt,
    reads_option fun s hs => reads_int (h.publishedAt s hs), reads_option fun s _ => reads_text s,
    reads_option fun s _ => reads_text s, reads_option fun s hs => reads_int (h.claimedAt s hs),
    fun _ h => nomatch h⟩

/-- The text of an entry is read back as its view. -/
theorem decodeString_ofEntry (h : e.InRange) :
    Json.decodeString decode (ofEntry e).toJson.render = .ok (ofEntry e) := by
  have hfits := fits_ofEntry h
  rw [decodeString_render decode (reads_toJson hfits), decode_toJson hfits]

/-! ### A view tells of its entry -/

/-- A view has all that an entry has; of a time it has the last whole second not after it. -/
structure Tells (v : EntryView) (e : Entry) : Prop where
  id : v.id = e.id
  aggregateType : v.aggregateType = e.aggregateType
  aggregateId : v.aggregateId = e.aggregateId
  eventType : v.eventType = e.eventType
  topic : v.topic = e.topic
  payload : v.payload = e.payload
  status : v.status.toStatus = e.status
  retryCount : v.retryCount = e.retryCount
  createdAt : IsLastSecond v.createdAt e.createdAt
  publishedAt : Option.Rel IsLastSecond v.publishedAt e.publishedAt
  lastError : v.lastError = e.lastError
  claimedBy : v.claimedBy = e.claimedBy
  claimedAt : Option.Rel IsLastSecond v.claimedAt e.claimedAt

theorem rel_seconds (t : Option Instant) : Option.Rel IsLastSecond (t.map Instant.seconds) t := by
  cases t with
  | none => exact .none
  | some t => exact .some (isLastSecond_seconds t)

theorem tells_ofEntry (e : Entry) : (ofEntry e).Tells e :=
  ⟨rfl, rfl, rfl, rfl, rfl, rfl, StatusView.toStatus_ofStatus _, rfl, isLastSecond_seconds _,
    rel_seconds _, rfl, rfl, rel_seconds _⟩

theorem rel_sameSecond {s : Option Int} {t u : Option Instant} (ht : Option.Rel IsLastSecond s t)
    (hu : Option.Rel IsLastSecond s u) : Option.Rel Instant.SameSecond t u := by
  cases ht with
  | none =>
    cases hu
    exact .none
  | some ht =>
    cases hu with
    | some hu => exact .some ⟨_, ht, hu⟩

/-- What one view tells of differs by less than the view can show. -/
theorem Tells.sameSeconds (h : v.Tells e) (h' : v.Tells e') : e'.SameSeconds e where
  rest := by
    -- every field but the times is read off the view that both have
    obtain ⟨⟩ := e
    obtain ⟨⟩ := h
    obtain ⟨⟩ := h'
    simp_all
  createdAt := ⟨_, h'.createdAt, h.createdAt⟩
  publishedAt := rel_sameSecond h'.publishedAt h.publishedAt
  claimedAt := rel_sameSecond h'.claimedAt h.claimedAt

/-- The JSON text of an entry, whatever its texts hold, is read without fault and tells the entry to
the second; so entries with one text differ at most in the fractions of their seconds. -/
theorem view_of_json (h : e.InRange) :
    (∃ v, Json.decodeString decode (ofEntry e).toJson.render = .ok v ∧ v.Tells e) ∧
      ∀ e' : Entry, e'.InRange → (ofEntry e').toJson.render = (ofEntry e).toJson.render →
        e'.SameSeconds e := by
  refine ⟨⟨ofEntry e, decodeString_ofEntry h, tells_ofEntry e⟩, fun e' h' hjson => ?_⟩
  -- one text is read as one view, and that is the view of both entries
  have hview := decodeString_ofEntry h'
  rw [hjson, decodeString_ofEntry h] at hview
  have htells := tells_ofEntry e'
  rw [← Except.ok.inj hview] at htells
  exact (tells_ofEntry e).sameSeconds htells

/-- An entry made half a second before 1970 is told as made in the last second before it. -/
theorem view_of_json_before_1970 :
    let e : Entry := { Entry.sample with
      payload := "[\"a\\\\b\", 1]"
      createdAt := -500000000
      publishedAt := some 1500000000 }
    let e' : Entry := { e with createdAt := -1, publishedAt := some 1999999999 }
    e.InRange ∧ e'.InRange ∧ e'.SameSeconds e ∧
    ∃ v, Json.decodeString decode (ofEntry e).toJson.render = .ok v ∧ v.Tells e ∧
      v.createdAt = -1 := by
  intro e e'
  have he : e.InRange := ⟨by decide, by decide, by decide, by decide⟩
  have he' : e'.InRange := ⟨by decide, by decide, by decide, by decide⟩
  have hview : ofEntry e' = ofEntry e := by decide
  obtain ⟨⟨v, hv, htells⟩, hsame⟩ := view_of_json he
  refine ⟨he, he', hsame e' he' (by rw [hview]), v, hv, htells, ?_⟩
  exact (htells.createdAt.unique (isLastSecond_seconds _)).trans (by decide)

end Admin.EntryView
end Outbox
