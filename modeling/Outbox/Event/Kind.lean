/-!
# Kinds of events

The kind of an event decides how consumers tell it from others, which aggregate it belongs to, and
the topic it goes to.
-/

namespace Outbox

/-- What happened. -/
inductive Event.Kind
  | directMessageSent
  | userFollowed
  | userUnfollowed
  | userRoleChanged
  | playlistCreated
  | playlistUpdated
  | playlistSubscribed
  | playlistContentAdded
  | reviewCreated
  | notificationCreated
  deriving DecidableEq, Repr

namespace Event.Kind

def all : List Kind :=
  [directMessageSent, userFollowed, userUnfollowed, userRoleChanged, playlistCreated,
    playlistUpdated, playlistSubscribed, playlistContentAdded, reviewCreated, notificationCreated]

/-- The event type, which tells the kinds apart. -/
def name : Kind → String
  | directMessageSent => "DirectMessageSent"
  | userFollowed => "UserFollowed"
  | userUnfollowed => "UserUnfollowed"
  | userRoleChanged => "UserRoleChanged"
  | playlistCreated => "PlaylistCreated"
  | playlistUpdated => "PlaylistUpdated"
  | playlistSubscribed => "PlaylistSubscribed"
  | playlistContentAdded => "PlaylistContentAdded"
  | reviewCreated => "ReviewCreated"
  | notificationCreated => "NotificationCreated"

/-- The kind of aggregate that the event belongs to. -/
def aggregateType : Kind → String
  | directMessageSent => "DirectMessage"
  | userFollowed | userUnfollowed => "Follow"
  | userRoleChanged => "User"
  | playlistCreated | playlistUpdated | playlistSubscribed | playlistContentAdded => "Playlist"
  | reviewCreated => "Review"
  | notificationCreated => "Notification"

def topic : Kind → String
  | directMessageSent => "mopl.conversation.direct-message-sent"
  | userFollowed => "mopl.user.followed"
  | userUnfollowed => "mopl.user.unfollowed"
  | userRoleChanged => "mopl.user.role-changed"
  | playlistCreated => "mopl.playlist.created"
  | playlistUpdated => "mopl.playlist.updated"
  | playlistSubscribed => "mopl.playlist.subscribed"
  | playlistContentAdded => "mopl.playlist.content-added"
  | reviewCreated => "mopl.review.created"
  | notificationCreated => "mopl.notification.created"

/-- The kind of an event type. -/
def ofName? (s : String) : Option Kind := all.find? fun k => k.name = s

end Event.Kind
end Outbox
