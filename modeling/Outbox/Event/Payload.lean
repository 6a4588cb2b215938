import Outbox.Json.Decoder
import Outbox.Uuid

/-!
# Event payloads

What consumers receive: one record for each kind of event, its fields written in the order given
here. The same fields are read back.
-/

namespace Outbox.Event

open Json (Field Decoder decodeText decodeReal decodeChoice decodeRecord)

/-- Role of a user on the platform. -/
inductive Role
  | user
  | admin
  deriving DecidableEq, Repr

namespace Role

def name : Role → String
  | user => "USER"
  | admin => "ADMIN"

def decode : Decoder Role := decodeChoice ([user, admin].map fun r => (r.name, r))

end Role

/-- How grave a notification is. -/
inductive Level
  | info
  | warning
  | error
  deriving DecidableEq, Repr

namespace Level

def name : Level → String
  | info => "INFO"
  | warning => "WARNING"
  | error => "ERROR"

def decode : Decoder Level := decodeChoice ([info, warning, error].map fun l => (l.name, l))

end Level

/-- A message from one user to another. -/
structure DirectMessage where
  messageId : Uuid
  conversationId : Uuid
  senderId : Uuid
  senderName : String
  receiverId : Uuid
  messageContent : String
  deriving DecidableEq

namespace DirectMessage

/-- The fields of a direct message. -/
def fields : List Field :=
  [.required "messageId" Uuid.decode, .required "conversationId" Uuid.decode,
    .required "senderId" Uuid.decode, .required "senderName" decodeText,
    .required "receiverId" Uuid.decode, .required "messageContent" decodeText]

def decode : Decoder DirectMessage := fun v =>
  decodeRecord "struct DirectMessageSentPayload" fields v |>.map
    fun (m, c, s, n, r, t, _) => ⟨m, c, s, n, r, t⟩

/-- The JSON value of a direct message. -/
def toJson (p : DirectMessage) : Json :=
  .record [("messageId", p.messageId.toJson), ("conversationId", p.conversationId.toJson),
    ("senderId", p.senderId.toJson), ("senderName", .text p.senderName),
    ("receiverId", p.receiverId.toJson), ("messageContent", .text p.messageContent)]

end DirectMessage

/-- A user follows another. -/
structure Follow where
  followId : Uuid
  followerId : Uuid
  followerName : String
  followeeId : Uuid
  deriving DecidableEq

namespace Follow

def fields : List Field :=
  [.required "followId" Uuid.decode, .required "followerId" Uuid.decode,
    .required "followerName" decodeText, .required "followeeId" Uuid.decode]

def decode : Decoder Follow := fun v =>
  decodeRecord "struct UserFollowedPayload" fields v |>.map fun (f, r, n, e, _) => ⟨f, r, n, e⟩

/-- The JSON value of a follow. -/
def toJson (p : Follow) : Json :=
  .record [("followId", p.followId.toJson), ("followerId", p.followerId.toJson),
    ("followerName", .text p.followerName), ("followeeId", p.followeeId.toJson)]

end Follow

/-- A user stops following another. -/
structure Unfollow where
  followId : Uuid
  followerId : Uuid
  followeeId : Uuid
  deriving DecidableEq

namespace Unfollow

def fields : List Field :=
  [.required "followId" Uuid.decode, .required "followerId" Uuid.decode,
    .required "followeeId" Uuid.decode]

def decode : Decoder Unfollow := fun v =>
  decodeRecord "struct UserUnfollowedPayload" fields v |>.map fun (f, r, e, _) => ⟨f, r, e⟩

/-- The JSON value of an unfollow. -/
def toJson (p : Unfollow) : Json :=
  .record [("followId", p.followId.toJson), ("followerId", p.followerId.toJson),
    ("followeeId", p.followeeId.toJson)]

end Unfollow

/-- A user gets another role. -/
structure RoleChange where
  userId : Uuid
  oldRole : Role
  newRole : Role
  deriving DecidableEq

namespace RoleChange

/-- The fields of a role change. -/
def fields : List Field :=
  [.required "userId" Uuid.decode, .required "oldRole" Role.decode,
    .required "newRole" Role.decode]

def decode : Decoder RoleChange := fun v =>
  decodeRecord "struct UserRoleChangedPayload" fields v |>.map fun (u, o, n, _) => ⟨u, o, n⟩

/-- The JSON value of a role change. -/
def toJson (p : RoleChange) : Json :=
  .record [("userId", p.userId.toJson), ("oldRole", .text p.oldRole.name),
    ("newRole", .text p.newRole.name)]

end RoleChange

/-- A playlist is created or updated. -/
structure PlaylistChange where
  playlistId : Uuid
  playlistTitle : String
  ownerId : Uuid
  ownerName : String
  deriving DecidableEq

namespace PlaylistChange

/-- The fields of a playlist change. -/
def fields : List Field :=
  [.required "playlistId" Uuid.decode, .required "playlistTitle" decodeText,
    .required "ownerId" Uuid.decode, .required "ownerName" decodeText]

def decode : Decoder PlaylistChange := fun v =>
  decodeRecord "struct PlaylistChangedPayload" fields v |>.map fun (p, t, o, n, _) => ⟨p, t, o, n⟩

/-- The JSON value of a playlist change. -/
def toJson (p : PlaylistChange) : Json :=
  .record [("playlistId", p.playlistId.toJson), ("playlistTitle", .text p.playlistTitle),
    ("ownerId", p.ownerId.toJson), ("ownerName", .text p.ownerName)]

end PlaylistChange

/-- A user subscribes to a playlist. -/
structure Subscription where
  playlistId : Uuid
  playlistTitle : String
  subscriberId : Uuid
  subscriberName : String
  ownerId : Uuid
  deriving DecidableEq

namespace Subscription

def fields : List Field :=
  [.required "playlistId" Uuid.decode, .required "playlistTitle" decodeText,
    .required "subscriberId" Uuid.decode, .required "subscriberName" decodeText,
    .required "ownerId" Uuid.decode]

def decode : Decoder Subscription := fun v =>
  decodeRecord "struct PlaylistSubscribedPayload" fields v |>.map
    fun (p, t, s, n, o, _) => ⟨p, t, s, n, o⟩

/-- The JSON value of a subscription. -/
def toJson (p : Subscription) : Json :=
  .record [("playlistId", p.playlistId.toJson), ("playlistTitle", .text p.playlistTitle),
    ("subscriberId", p.subscriberId.toJson), ("subscriberName", .text p.subscriberName),
    ("ownerId", p.ownerId.toJson)]

end Subscription

/-- A playlist gets new content. -/
structure ContentAddition where
  playlistId : Uuid
  playlistTitle : String
  ownerId : Uuid
  ownerName : String
  contentId : Uuid
  contentTitle : String
  deriving DecidableEq

namespace ContentAddition

/-- The fields of a content addition. -/
def fields : List Field :=
  [.required "playlistId" Uuid.decode, .required "playlistTitle" decodeText,
    .required "ownerId" Uuid.decode, .required "ownerName" decodeText,
    .required "contentId" Uuid.decode, .required "contentTitle" decodeText]

def decode : Decoder ContentAddition := fun v =>
  decodeRecord "struct PlaylistContentAddedPayload" fields v |>.map
    fun (p, t, o, n, c, d, _) => ⟨p, t, o, n, c, d⟩

/-- The JSON value of a content addition. -/
def toJson (p : ContentAddition) : Json :=
  .record [("playlistId", p.playlistId.toJson), ("playlistTitle", .text p.playlistTitle),
    ("ownerId", p.ownerId.toJson), ("ownerName", .text p.ownerName),
    ("contentId", p.contentId.toJson), ("contentTitle", .text p.contentTitle)]

end ContentAddition

/-- A user reviews content. Only a review with a finite rating can be stored. -/
structure Review where
  reviewId : Uuid
  contentId : Uuid
  authorId : Uuid
  authorName : String
  text : String
  rating : Decimal.Binary64
  deriving DecidableEq

namespace Review

def fields : List Field :=
  [.required "reviewId" Uuid.decode, .required "contentId" Uuid.decode,
    .required "authorId" Uuid.decode, .required "authorName" decodeText,
    .required "text" decodeText, .required "rating" decodeReal]

def decode : Decoder Review := fun v =>
  decodeRecord "struct ReviewCreatedPayload" fields v |>.map
    fun (r, c, a, n, t, g, _) => ⟨r, c, a, n, t, g⟩

/-- The JSON value of a review. -/
def toJson (p : Review) : Json :=
  .record [("reviewId", p.reviewId.toJson), ("contentId", p.contentId.toJson),
    ("authorId", p.authorId.toJson), ("authorName", .text p.authorName), ("text", .text p.text),
    ("rating", .number (.real p.rating))]

end Review

/-- A user is notified. -/
structure Notification where
  notificationId : Uuid
  receiverId : Uuid
  title : String
  content : String
  level : Level
  deriving DecidableEq

namespace Notification

def fields : List Field :=
  [.required "notificationId" Uuid.decode, .required "receiverId" Uuid.decode,
    .required "title" decodeText, .required "content" decodeText, .required "level" Level.decode]

def decode : Decoder Notification := fun v =>
  decodeRecord "struct NotificationCreatedPayload" fields v |>.map
    fun (i, r, t, c, l, _) => ⟨i, r, t, c, l⟩

/-- The JSON value of a notification. -/
def toJson (p : Notification) : Json :=
  .record [("notificationId", p.notificationId.toJson), ("receiverId", p.receiverId.toJson),
    ("title", .text p.title), ("content", .text p.content), ("level", .text p.level.name)]

end Notification
end Outbox.Event
