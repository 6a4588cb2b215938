import Outbox.Event.Basic
import Outbox.Proofs.Json.Record
import Outbox.Proofs.Uuid

/-!
# Stored payloads decode to their events

The fields of a payload are written and read under one name each, every field by a reader of its
kind of value. So the payload of an entry gives back the event that was recorded, whatever texts the
event holds (`draft_decodes`). Of a rating it is taken for granted that its text is read back.
-/

namespace Outbox.Event

open Json (Reads Row decodeText_text decodeRecord_record reads_text reads_number reads_record
  decodeString_render)
open Json.Row.DecodedFrom (required nil)

/-! ### Each payload is decoded from its value -/

theorem Role.decode_name (r : Role) : Role.decode (.text r.name) = .ok r := by
  cases r <;> rfl

theorem Level.decode_name (l : Level) : Level.decode (.text l.name) = .ok l := by
  cases l <;> rfl

theorem DirectMessage.decode_toJson (p : DirectMessage) :
    DirectMessage.decode p.toJson = .ok p := by
  have h : Row.DecodedFrom fields _ _ :=
    required p.messageId.decode_toJson <| required p.conversationId.decode_toJson <|
    required p.senderId.decode_toJson <| required (decodeText_text p.senderName) <|
    required p.receiverId.decode_toJson <| required (decodeText_text p.messageContent) nil
  rw [decode, toJson, decodeRecord_record _ (by decide) h]
  rfl

theorem Follow.decode_toJson (p : Follow) : Follow.decode p.toJson = .ok p := by
  have h : Row.DecodedFrom fields _ _ :=
    required p.followId.decode_toJson <| required p.followerId.decode_toJson <|
    required (decodeText_text p.followerName) <| required p.followeeId.decode_toJson nil
  rw [decode, toJson, decodeRecord_record _ (by decide) h]
  rfl

theorem Unfollow.decode_toJson (p : Unfollow) : Unfollow.decode p.toJson = .ok p := by
  have h : Row.DecodedFrom fields _ _ :=
    required p.followId.decode_toJson <| required p.followerId.decode_toJson <|
    required p.followeeId.decode_toJson nil
  rw [decode, toJson, decodeRecord_record _ (by decide) h]
  rfl

theorem RoleChange.decode_toJson (p : RoleChange) : RoleChange.decode p.toJson = .ok p := by
  have h : Row.DecodedFrom fields _ _ :=
    required p.userId.decode_toJson <| required p.oldRole.decode_name <|
    required p.newRole.decode_name nil
  rw [decode, toJson, decodeRecord_record _ (by decide) h]
  rfl

theorem PlaylistChange.decode_toJson (p : PlaylistChange) :
    PlaylistChange.decode p.toJson = .ok p := by
  have h : Row.DecodedFrom fields _ _ :=
    required p.playlistId.decode_toJson <| required (decodeText_text p.playlistTitle) <|
    required p.ownerId.decode_toJson <| required (decodeText_text p.ownerName) nil
  rw [decode, toJson, decodeRecord_record _ (by decide) h]
  rfl

theorem Subscription.decode_toJson (p : Subscription) : Subscription.decode p.toJson = .ok p := by
  have h : Row.DecodedFrom fields _ _ :=
    required p.playlistId.decode_toJson <| required (decodeText_text p.playlistTitle) <|
    required p.subscriberId.decode_toJson <| required (decodeText_text p.subscriberName) <|
    required p.ownerId.decode_toJson nil
  rw [decode, toJson, decodeRecord_record _ (by decide) h]
  rfl

theorem ContentAddition.decode_toJson (p : ContentAddition) :
    ContentAddition.decode p.toJson = .ok p := by
  have h : Row.DecodedFrom fields _ _ :=
    required p.playlistId.decode_toJson <| required (decodeText_text p.playlistTitle) <|
    required p.ownerId.decode_toJson <| required (decodeText_text p.ownerName) <|
    required p.contentId.decode_toJson <| required (decodeText_text p.contentTitle) nil
  rw [decode, toJson, decodeRecord_record _ (by decide) h]
  rfl

theorem Review.decode_toJson (p : Review) : Review.decode p.toJson = .ok p := by
  have h : Row.DecodedFrom fields _ _ :=
    required p.reviewId.decode_toJson <| required p.contentId.decode_toJson <|
    required p.authorId.decode_toJson <| required (decodeText_text p.authorName) <|
    required (decodeText_text p.text) <|
    required (show Json.decodeReal (.number (.real p.rating)) = .ok p.rating from rfl) nil
  rw [decode, toJson, decodeRecord_record _ (by decide) h]
  rfl

theorem Notification.decode_toJson (p : Notification) : Notification.decode p.toJson = .ok p := by
  have h : Row.DecodedFrom fields _ _ :=
    required p.notificationId.decode_toJson <| required p.receiverId.decode_toJson <|
    required (decodeText_text p.title) <| required (decodeText_text p.content) <|
    required p.level.decode_name nil
  rw [decode, toJson, decodeRecord_record _ (by decide) h]
  rfl

/-- The value of a payload is that of its event. -/
theorem decode_payload (e : Event) : decode e.kind e.payload = .ok e := by
  cases e with
  | directMessageSent p => exact congrArg (directMessageSent <$> ·) p.decode_toJson
  | userFollowed p => exact congrArg (userFollowed <$> ·) p.decode_toJson
  | userUnfollowed p => exact congrArg (userUnfollowed <$> ·) p.decode_toJson
  | userRoleChanged p => exact congrArg (userRoleChanged <$> ·) p.decode_toJson
  | playlistCreated p => exact congrArg (playlistCreated <$> ·) p.decode_toJson
  | playlistUpdated p => exact congrArg (playlistUpdated <$> ·) p.decode_toJson
  | playlistSubscribed p => exact congrArg (playlistSubscribed <$> ·) p.decode_toJson
  | playlistContentAdded p => exact congrArg (playlistContentAdded <$> ·) p.decode_toJson
  | reviewCreated p => exact congrArg (reviewCreated <$> ·) p.decode_toJson
  | notificationCreated p => exact congrArg (notificationCreated <$> ·) p.decode_toJson

/-! ### The text of a payload is read back -/

/-- The text of the rating is read as the rating, if the event has one. -/
def RatingReadsBack : Event → Prop
  | reviewCreated p => (Json.Number.real p.rating).ReadsBack
  | _ => True

theorem reads_toJson (u : Uuid) : Reads u.toJson := reads_text u.text

theorem reads_payload {e : Event} (h : e.RatingReadsBack) : Reads e.payload := by
  have htext := reads_text
  have hid := reads_toJson
  cases e with
  | reviewCreated p =>
    have hr := reads_number h
    exact reads_record (by simp [*])
  | _ => exact reads_record (by simp [*])

theorem ofPayload_render {e : Event} (h : e.RatingReadsBack) :
    ofPayload e.kind e.payload.render = .ok e := by
  rw [ofPayload, decodeString_render _ (reads_payload h), decode_payload]

/-! ### What an entry holds of its event -/

theorem Kind.ofName?_name (k : Kind) : Kind.ofName? k.name = some k := by
  cases k <;> decide

/-- What is recorded for an event is its kind, its aggregate and its payload. -/
theorem draft_eq {e : Event} {d : Draft} (h : e.draft = .ok d) :
    d.eventType = e.kind.name ∧ d.aggregateId = e.aggregateId.text ∧
      d.payload = e.payload.render := by
  unfold draft at h
  cases hf : e.checkFinite with
  | error x => simp [hf] at h
  | ok _ =>
    simp only [hf] at h
    cases h
    exact ⟨rfl, rfl, rfl⟩

/-- The texts of an entry give back the kind, the payload and the aggregate of the event recorded,
so events of one type with the same payload text are equal. -/
theorem draft_decodes {e : Event} {d : Draft} (h : e.draft = .ok d) (hr : e.RatingReadsBack) :
    (∃ k, Kind.ofName? d.eventType = some k ∧ ofPayload k d.payload = .ok e) ∧
      Uuid.parse? d.aggregateId = some e.aggregateId ∧
      ∀ e' d', e'.draft = .ok d' → e'.RatingReadsBack → d'.eventType = d.eventType →
        d'.payload = d.payload → e' = e := by
  obtain ⟨htype, hid, hpayload⟩ := draft_eq h
  refine ⟨⟨e.kind, ?_, ?_⟩, ?_, ?_⟩
  · rw [htype, Kind.ofName?_name]
  · rw [hpayload, ofPayload_render hr]
  · rw [hid, Uuid.parse?_text]
  · intro e' d' h' hr' htype' hpayload'
    obtain ⟨ht, -, hp⟩ := draft_eq h'
    -- the type tells the kind, so both texts are read by one reader
    have hk : e'.kind = e.kind := by
      rw [← Option.some_inj, ← Kind.ofName?_name, ← Kind.ofName?_name, ← ht, ← htype, htype']
    have hd := ofPayload_render hr'
    rw [hk, ← hp, hpayload', hpayload, ofPayload_render hr] at hd
    exact (Except.ok.inj hd).symm

/-- A review whose texts hold what JSON escapes and a character of two surrogates. -/
def oddReview : Event :=
  .reviewCreated
    { reviewId := .ofNat 1
      contentId := .ofNat 2
      authorId := .ofNat (Nat.pow 2 128 - 1)
      authorName := "\"\\/\u0000\u001f"
      text := "a\tb\nc\u007f😀"
      rating := .finite false 5066549580791808 (-50) }

theorem oddReview_decodes : ∃ d, oddReview.draft = .ok d ∧ oddReview.RatingReadsBack ∧
    Kind.ofName? d.eventType = some .reviewCreated ∧
    ofPayload .reviewCreated d.payload = .ok oddReview ∧
    Uuid.parse? d.aggregateId = some (.ofNat 1) := by
  have hr : oddReview.RatingReadsBack := by
    have hrender : (Json.Number.real (.finite false 5066549580791808 (-50))).render = "4.5" := by
      decide +kernel
    have hread : Json.readNumber false "4.5".toList =
        some (.real (.finite false 5066549580791808 (-50)), []) := by
      decide +kernel
    change Json.readValue 1 (Json.Number.render _).toList = _
    rw [hrender]
    exact Json.readValue_digit (c := '4') rfl rfl hread
  obtain ⟨⟨k, hk, hd⟩, hid, -⟩ := draft_decodes (e := oddReview) rfl hr
  cases hk
  exact ⟨_, rfl, hr, rfl, hd, hid⟩

end Outbox.Event
