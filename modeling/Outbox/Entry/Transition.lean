import Outbox.Entry.Basic

/-!
# The life of an entry

A pending entry is claimed by a worker, and the worker records the outcome of its attempt; the
outcome needs the very lease that the entry carries. An entry whose attempts are used up is retired,
and a failed one can be put back by hand.
-/

namespace Outbox

/-- Why an entry refuses a change. -/
inductive Refusal
  | terminal (id : Uuid) (status : Status)
  | leased (id : Uuid)
  | notOwner (id : Uuid) (worker : String)
  | notFailed (id : Uuid) (status : Status)
  deriving DecidableEq

def Refusal.message : Refusal → String
  | terminal id status =>
    s!"entry {id} is {status.title}; it can no longer be changed by the relay"
  | leased id => s!"entry {id} is held by a live lease"
  | notOwner id worker => s!"entry {id} is no longer held by worker {worker}"
  | notFailed id status => s!"entry {id} is {status.title}; only failed entries can be replayed"

namespace Entry

/-- The last error of an entry that was retired without any. -/
def retryLimitReached : String := "retry limit reached"

/-- The greatest count of attempts that an entry can hold. -/
def greatestCount : Int := Nat.pow 2 31 - 1

/-- No lease is recorded, or only one from before the cutoff. -/
def isIdle (e : Entry) (cutoff : Instant) : Bool :=
  match e.claimedAt with
  | none => true
  | some t => t < cutoff

/-- A worker may take the entry: it is pending, has attempts left, and is idle. -/
def isClaimable (e : Entry) (maxRetry : Int) (cutoff : Instant) : Bool :=
  e.status = .pending && e.retryCount < maxRetry && e.isIdle cutoff

def release (e : Entry) : Entry := { e with claimedBy := none, claimedAt := none }

/-- Gives the lease to a worker. -/
def claim (e : Entry) (worker : String) (now cutoff : Instant) : Except Refusal Entry :=
  if e.status.isTerminal then .error (.terminal e.id e.status)
  else if ¬e.isIdle cutoff then .error (.leased e.id)
  else .ok { e with claimedBy := some worker, claimedAt := some now }

/-- Refuses whoever does not hold the lease. -/
def checkOwner (e : Entry) (c : Claim) : Except Refusal Unit :=
  if e.status.isTerminal then .error (.terminal e.id e.status)
  else if e.currentClaim ≠ some c then .error (.notOwner e.id c.worker)
  else .ok ()

/-- The entry after a successful delivery. -/
def published (e : Entry) (now : Instant) : Entry :=
  { e with status := .published, publishedAt := some now }.release

/-- The entry after one more failed attempt; with `maxRetry` attempts it has failed for good. -/
def retried (e : Entry) (error : String) (maxRetry : Int) : Entry :=
  { e with
    retryCount := e.retryCount + 1
    lastError := some error
    status := if e.retryCount + 1 ≥ maxRetry then .failed else e.status }.release

/-- The entry after a rejection; the attempt is not counted. -/
def rejected (e : Entry) (error : String) : Entry :=
  { e with status := .failed, lastError := some error }.release

def markPublished (e : Entry) (c : Claim) (now : Instant) : Except Refusal Entry := do
  e.checkOwner c
  return e.published now

/-- Records a failed attempt that is worth another. -/
def recordFailure (e : Entry) (c : Claim) (error : String) (maxRetry : Int) :
    Except Refusal Entry := do
  e.checkOwner c
  return e.retried error maxRetry

def markFailed (e : Entry) (c : Claim) (error : String) : Except Refusal Entry := do
  e.checkOwner c
  return e.rejected error

/-- The entry is pending and idle, and has no attempts left. -/
def isExhausted (e : Entry) (maxRetry : Int) (cutoff : Instant) : Bool :=
  e.status = .pending && maxRetry ≤ e.retryCount && e.isIdle cutoff

/-- The entry given up for want of attempts; an error recorded before is kept. -/
def retired (e : Entry) : Entry :=
  { e with status := .failed, lastError := some (e.lastError.getD retryLimitReached) }.release

/-- Retires an exhausted entry and leaves any other one. -/
def failExhausted (e : Entry) (maxRetry : Int) (cutoff : Instant) : Entry :=
  if e.isExhausted maxRetry cutoff then e.retired else e

/-- The failed entry with all its attempts back; its last error stays for reference. -/
def replayed (e : Entry) : Entry := { e with status := .pending, retryCount := 0 }.release

def replay (e : Entry) : Except Refusal Entry :=
  if e.status = .failed then .ok e.replayed else .error (.notFailed e.id e.status)

/-- Recording a failure would need a greater count than an entry can hold. -/
def overflows (e : Entry) (c : Claim) : Bool :=
  e.status = .pending && e.currentClaim = some c && greatestCount ≤ e.retryCount

end Entry
end Outbox
