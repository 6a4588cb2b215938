import Outbox.Admin.Status
import Outbox.Entry.Basic
import Outbox.Store.Table

/-!
# What administrators see

The JSON form of entries and of the counts by status. Times are whole seconds since the beginning of
1970, the last one not after the time itself.
-/

namespace Outbox.Admin

open Json (Decoder Field decodeText decodeInt decodeRecord)

/-- An entry as administrators see it. -/
structure EntryView where
  id : Uuid
  aggregateType : String
  aggregateId : String
  eventType : String
  topic : String
  payload : String
  status : StatusView
  retryCount : Int
  createdAt : Int
  publishedAt : Option Int
  lastError : Option String
  claimedBy : Option String
  claimedAt : Option Int
  deriving DecidableEq

namespace EntryView

def ofEntry (e : Entry) : EntryView :=
  { id := e.id
    aggregateType := e.aggregateType
    aggregateId := e.aggregateId
    eventType := e.eventType
    topic := e.topic
    payload := e.payload
    status := .ofStatus e.status
    retryCount := e.retryCount
    createdAt := e.createdAt.seconds
    publishedAt := e.publishedAt.map Instant.seconds
    lastError := e.lastError
    claimedBy := e.claimedBy
    claimedAt := e.claimedAt.map Instant.seconds }

def fields : List Field :=
  [.required "id" Uuid.decode, .required "aggregate_type" decodeText,
    .required "aggregate_id" decodeText, .required "event_type" decodeText,
    .required "topic" decodeText, .required "payload" decodeText,
    .required "status" StatusView.decode, .required "retry_count" (decodeInt 32 "i32"),
    .required "created_at" (decodeInt 64 "i64"), .optional "published_at" (decodeInt 64 "i64"),
    .optional "last_error" decodeText, .optional "claimed_by" decodeText,
    .optional "claimed_at" (decodeInt 64 "i64")]

def decode : Decoder EntryView := fun v =>
  decodeRecord "struct AdminOutboxEntryResponse" fields v |>.map
    fun (i, at', ai, et, t, p, s, r, ca, pa, le, cb, cl, _) =>
      ⟨i, at', ai, et, t, p, s, r, ca, pa, le, cb, cl⟩

/-- The JSON value of a view. -/
def toJson (v : EntryView) : Json :=
  .record [("id", v.id.toJson), ("aggregate_type", .text v.aggregateType),
    ("aggregate_id", .text v.aggregateId), ("event_type", .text v.eventType),
    ("topic", .text v.topic), ("payload", .text v.payload), ("status", v.status.toJson),
    ("retry_count", .int v.retryCount), ("created_at", .int v.createdAt),
    ("published_at", .option .int v.publishedAt), ("last_error", .option .text v.lastError),
    ("claimed_by", .option .text v.claimedBy), ("claimed_at", .option .int v.claimedAt)]

end EntryView

/-- The counts by status as a response holds them. -/
structure StatsView where
  pending : Int
  published : Int
  failed : Int
  deriving DecidableEq, Repr

namespace StatsView

def ofStats (s : Stats) : StatsView := ⟨s.pending, s.published, s.failed⟩

def fields : List Field :=
  [.required "pending" (decodeInt 64 "i64"), .required "published" (decodeInt 64 "i64"),
    .required "failed" (decodeInt 64 "i64")]

def decode : Decoder StatsView := fun v =>
  decodeRecord "struct OutboxStatsResponse" fields v |>.map fun (p, q, f, _) => ⟨p, q, f⟩

/-- The JSON value of a view. -/
def toJson (v : StatsView) : Json :=
  .record [("pending", .int v.pending), ("published", .int v.published), ("failed", .int v.failed)]

end StatsView
end Outbox.Admin
