import Outbox.Entry.Basic
import Outbox.Event.Kind
import Outbox.Event.Payload

/-!
# Events

An event is a payload of its kind. `Event.draft` turns it into the texts of an outbox entry; the
only event without one is a review whose rating is not finite, for which JSON has no number.
-/

namespace Outbox

open Event

/-- An event of the platform. -/
inductive Event
  | directMessageSent (p : DirectMessage)
  | userFollowed (p : Follow)
  | userUnfollowed (p : Unfollow)
  | userRoleChanged (p : RoleChange)
  | playlistCreated (p : PlaylistChange)
  | playlistUpdated (p : PlaylistChange)
  | playlistSubscribed (p : Subscription)
  | playlistContentAdded (p : ContentAddition)
  | reviewCreated (p : Review)
  | notificationCreated (p : Notification)
  deriving DecidableEq

namespace Event

def kind : Event → Kind
  | directMessageSent _ => .directMessageSent
  | userFollowed _ => .userFollowed
  | userUnfollowed _ => .userUnfollowed
  | userRoleChanged _ => .userRoleChanged
  | playlistCreated _ => .playlistCreated
  | playlistUpdated _ => .playlistUpdated
  | playlistSubscribed _ => .playlistSubscribed
  | playlistContentAdded _ => .playlistContentAdded
  | reviewCreated _ => .reviewCreated
  | notificationCreated _ => .notificationCreated

/-- The aggregate that the event belongs to; events of one aggregate share a message key. -/
def aggregateId : Event → Uuid
  | directMessageSent p => p.messageId
  | userFollowed p => p.followId
  | userUnfollowed p => p.followId
  | userRoleChanged p => p.userId
  | playlistCreated p => p.playlistId
  | playlistUpdated p => p.playlistId
  | playlistSubscribed p => p.playlistId
  | playlistContentAdded p => p.playlistId
  | reviewCreated p => p.reviewId
  | notificationCreated p => p.notificationId

/-- The JSON value of the payload. -/
def payload : Event → Json
  | directMessageSent p => p.toJson
  | userFollowed p => p.toJson
  | userUnfollowed p => p.toJson
  | userRoleChanged p => p.toJson
  | playlistCreated p => p.toJson
  | playlistUpdated p => p.toJson
  | playlistSubscribed p => p.toJson
  | playlistContentAdded p => p.toJson
  | reviewCreated p => p.toJson
  | notificationCreated p => p.toJson

/-- Reads the payload of an event of a kind. -/
def decode : Kind → Json.Decoder Event
  | .directMessageSent => fun v => directMessageSent <$> DirectMessage.decode v
  | .userFollowed => fun v => userFollowed <$> Follow.decode v
  | .userUnfollowed => fun v => userUnfollowed <$> Unfollow.decode v
  | .userRoleChanged => fun v => userRoleChanged <$> RoleChange.decode v
  | .playlistCreated => fun v => playlistCreated <$> PlaylistChange.decode v
  | .playlistUpdated => fun v => playlistUpdated <$> PlaylistChange.decode v
  | .playlistSubscribed => fun v => playlistSubscribed <$> Subscription.decode v
  | .playlistContentAdded => fun v => playlistContentAdded <$> ContentAddition.decode v
  | .reviewCreated => fun v => reviewCreated <$> Review.decode v
  | .notificationCreated => fun v => notificationCreated <$> Notification.decode v

/-- Reads the text of a payload. -/
def ofPayload (k : Kind) (s : String) : Except Json.DecodeError Event :=
  Json.decodeString (decode k) s

/-- A field of the payload holds no finite number. -/
structure NonFinite where
  kind : Kind
  field : String
  deriving DecidableEq, Repr

def NonFinite.message (e : NonFinite) : String :=
  s!"{e.kind.name} payload field " ++ "`" ++ e.field ++ "` is not a finite number"

/-- Refuses a number for which JSON has no text. -/
def checkFinite : Event → Except NonFinite Unit
  | reviewCreated p => if p.rating.isFinite then .ok () else .error ⟨.reviewCreated, "rating"⟩
  | _ => .ok ()

/-- The texts of the entry that stores the event. -/
def draft (e : Event) : Except NonFinite Draft := do
  e.checkFinite
  return {
    aggregateType := e.kind.aggregateType
    aggregateId := e.aggregateId.text
    eventType := e.kind.name
    topic := e.kind.topic
    payload := e.payload.render }

/-- The event with another rating, if it is a review. -/
def withRating (e : Event) (x : Decimal.Binary64) : Event :=
  match e with
  | reviewCreated p => reviewCreated { p with rating := x }
  | e => e

end Event
end Outbox
