import Outbox.Config.Cleaner
import Outbox.Config.Relay
import Outbox.Process
import Outbox.Store.Transaction

/-!
# Scripts for the surroundings

A script fixes what the surroundings of a process do: which calls of the store fail, how the broker
replies and who writes to the store meanwhile, and what happens at which time.
-/

namespace Outbox.Scenario

/-- A fault injected into a call of the store. -/
inductive Fault
  | contention
  | leaseLost
  | lockTimeout
  | poolClosed
  /-- The entry asked for is not there; calls that ask for none succeed. -/
  | absent
  /-- The database refuses with this code. -/
  | refused (code : String)
  /-- The call fails with this error. -/
  | error (e : StoreError)
  deriving DecidableEq

/-- What the database says when a refusal is injected. -/
def refusalText : String := "boom"

/-- The answer to a call that a fault is injected into, if it changes the answer. -/
def Fault.answer? (f : Fault) (c : Call) : Option c.Answer :=
  match f with
  | contention => some (.error (.claimContention c.entryId))
  | leaseLost => some (.error (.leaseLost c.entryId))
  | lockTimeout => some (.error .lockTimeout)
  | poolClosed => some (.error (.ofDatabase .poolClosed))
  | refused code => some (.error (.ofDatabase (.refused (some code) refusalText)))
  | error e => some (.error e)
  | absent =>
    match c with
    | .get _ => some (.ok none)
    | .replayFailed _ => some (.ok none)
    | _ => none

/-- A step of somebody who uses the store directly. Claims can be kept under a name and used
later. -/
inductive Action
  | begin (tx : String)
  | insert (tx : String) (e : Entry)
  | commit (tx : String)
  | rollback (tx : String)
  /-- Records an event that was read from its payload; with a fault, the insertion fails. -/
  | append (tx : String) (event : Except Json.DecodeError Event) (fault : Option DatabaseError)
  | entries
  /-- Calls the store; a claim that is won is kept. -/
  | call (c : Call) (keep : Option String)
  /-- Calls the store with a claim kept before. -/
  | callWith (claim : String) (c : Claim → Call)

/-- How the broker replies to a message. -/
structure Reply where
  /-- What others do to the store while the message is on its way. -/
  before : List Action
  /-- The time to the reply; none if there is no reply. -/
  delay : Option Millis
  delivery : Delivery

/-- The reply that accepts a message at once. -/
def Reply.accept : Reply := ⟨[], some 0, .ok ()⟩

namespace Reply

/-- The end of a send that is given up after `limit`; none if there was no reply until then. -/
def within (r : Reply) (limit : Millis) : Option Delivery :=
  match r.delay with
  | some d => if d ≤ limit then some r.delivery else none
  | none => none

/-- How long a send takes that is given up after `limit`. -/
def wait (r : Reply) (limit : Millis) : Millis :=
  match r.delay with
  | some d => min d limit
  | none => limit

end Reply

/-- Something that happens at a time of its own. -/
inductive Happening
  /-- Sets the value of the shutdown signal. -/
  | signal (stop : Bool)
  /-- Nobody is left to set the shutdown signal. -/
  | dropSignal
  | relayConfig (c : RelayConfig)
  | cleanerConfig (c : CleanerConfig)
  /-- Commits an entry. -/
  | insert (e : Entry)

end Outbox.Scenario
