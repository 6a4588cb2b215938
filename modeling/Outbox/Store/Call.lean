import Outbox.Store.Table

/-!
# Calls of a store

A `Call` is one request to a store with its arguments, `Call.Result` the type of its answer, and
`Table.answer` what a table answers. Histories of a store are lists of calls.
-/

namespace Outbox

/-- Breakdowns that no caller can recover from. -/
inductive Crash
  /-- An attempt cannot be counted any more. -/
  | countOverflow
  /-- A time has no calendar date. -/
  | timeOutOfRange
  deriving DecidableEq, Repr

/-- A request to a store. -/
inductive Call
  | findPending (maxRetry limit : Int) (cutoff : Instant)
  | failExhausted (maxRetry : Int) (cutoff : Instant)
  | tryClaim (id : Uuid) (worker : String) (now cutoff : Instant)
  | markPublished (claim : Claim) (now : Instant)
  | recordFailure (claim : Claim) (error : String) (maxRetry : Int)
  | markFailed (claim : Claim) (error : String)
  | deletePublished (before : Instant) (limit : Int) (lockTimeout : Millis)
  | replayFailed (id : Uuid)
  | get (id : Uuid)
  | list (filter : Filter)
  | count
  deriving DecidableEq

namespace Call

/-- What a request asks for, without its arguments. -/
inductive Method
  | findPending
  | failExhausted
  | tryClaim
  | markPublished
  | recordFailure
  | markFailed
  | deletePublished
  | replayFailed
  | get
  | list
  | count
  deriving DecidableEq, Repr

def method : Call → Method
  | findPending .. => .findPending
  | failExhausted .. => .failExhausted
  | tryClaim .. => .tryClaim
  | markPublished .. => .markPublished
  | recordFailure .. => .recordFailure
  | markFailed .. => .markFailed
  | deletePublished .. => .deletePublished
  | replayFailed .. => .replayFailed
  | get .. => .get
  | list .. => .list
  | count => .count

def Method.name : Method → String
  | findPending => "find_pending_events"
  | failExhausted => "fail_exhausted"
  | tryClaim => "try_claim"
  | markPublished => "mark_published"
  | recordFailure => "record_retryable_failure"
  | markFailed => "mark_failed"
  | deletePublished => "delete_published_before"
  | replayFailed => "replay_failed"
  | get => "get"
  | list => "list"
  | count => "count_by_status"

def Method.all : List Method :=
  [findPending, failExhausted, tryClaim, markPublished, recordFailure, markFailed, deletePublished,
    replayFailed, get, list, count]

/-- The entry that a request is about; the nil id if it is about none in particular. -/
def entryId : Call → Uuid
  | tryClaim id .. => id
  | markPublished c _ => c.entryId
  | recordFailure c .. => c.entryId
  | markFailed c _ => c.entryId
  | replayFailed id => id
  | get id => id
  | _ => .nil

/-- What a request is answered with. -/
@[reducible] def Result : Call → Type
  | findPending .. => List Entry
  | failExhausted .. => List Entry
  | tryClaim .. => Claimed
  | markPublished .. => Entry
  | recordFailure .. => Entry
  | markFailed .. => Entry
  | deletePublished .. => Nat
  | replayFailed .. => Option Entry
  | get .. => Option Entry
  | list .. => List Entry
  | count => Stats

/-- The answer of a store to a request. -/
abbrev Answer (c : Call) : Type := Except StoreError c.Result

end Call

namespace Table

/-- The answer of the table to a request, and the table after it. -/
def answer (t : Table) : (c : Call) → c.Answer × Table
  | .findPending m n cutoff => (.ok (t.findPending m n cutoff), t)
  | .failExhausted m cutoff => let (es, t) := t.failExhausted m cutoff; (.ok es, t)
  | .tryClaim id w now cutoff => t.tryClaim id w now cutoff
  | .markPublished c now => t.markPublished c now
  | .recordFailure c e m => t.recordFailure c e m
  | .markFailed c e => t.markFailed c e
  | .deletePublished before n _ => let (k, t) := t.deletePublishedBefore before n; (.ok k, t)
  | .replayFailed id => let (e, t) := t.replayFailed id; (.ok e, t)
  | .get id => (.ok (t.row? id), t)
  | .list f => (.ok (t.list f), t)
  | .count => (.ok t.stats, t)

/-- The request would count an attempt beyond what an entry can hold. -/
def overflows (t : Table) : Call → Bool
  | .recordFailure c _ _ => (t.row? c.entryId).any (·.overflows c)
  | _ => false

/-- The answer to a request that does not break down. -/
def perform (t : Table) (c : Call) : Except Crash (c.Answer × Table) :=
  if t.overflows c then .error .countOverflow else .ok (t.answer c)

end Table
end Outbox
