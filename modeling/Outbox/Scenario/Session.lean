import Outbox.Admin.Handler
import Outbox.Scenario.Tick
import Outbox.Secret.Phc

/-!
# Sessions

In a session commands are given to a scripted world: direct uses of the store, single ticks and
purges, new settings, and requests of administrators. After each command one can ask which rows of
the table it changed and which it removed.
-/

namespace Outbox.Scenario

open Admin (Handler Request Response)

/-- One command of a session. -/
inductive Command
  | act (a : Action)
  /-- A tick of a worker, at a time or by the clock on the wall. -/
  | tick (worker : String) (now : Option Instant)
  /-- A purge up to a threshold, or of what is outside the retention window. -/
  | purge (threshold : Option Instant)
  | relayConfig (c : RelayConfig)
  | cleanerConfig (c : CleanerConfig)
  | adminConfig (hash : String)
  | request (r : Request)

/-- What a command leads to. -/
inductive Effect
  | seen (s : World.Seen)
  | ticked (worker : String) (result : Option (Except StoreError Relay.Report))
    (sent : List Message)
  | purged (result : Except CleanupError Nat)
  | version (n : Nat)
  | responded (r : Response)

namespace World

/-- Answers a request of an administrator. -/
def serve (w : World) (h : Handler) : Except Crash Response × World :=
  match _h : h.ask with
  | .done r => (.ok r, w)
  | .call c next =>
    match w.perform c with
    | (.error e, w) => (.error e, w)
    | (.ok a, w) => serve w (next a)
  | .send m next => absurd _h Handler.ask_ne_send
termination_by h.rank
decreasing_by exact Handler.rank_lt_of_ask_call _h a

/-- The handler of a request under the secret in force. -/
def handler (w : World) (r : Request) : Handler := r.handler (Secret.verify w.admin.value)

/-- The messages sent since an earlier state, in order. -/
def sentSince (w earlier : World) : List Message :=
  ((w.sent.take (w.sent.length - earlier.sent.length)).map (·.2)).reverse

/-- Runs a tick that nothing cuts short. -/
def tickNow (w : World) (worker : String) (now : Instant) : Except Crash Effect × World :=
  match w.tick worker now none with
  | (.ok r, w') => (.ok (.ticked worker r (w'.sentSince w)), w')
  | (.error e, w') => (.error e, w')

def purgeNow (w : World) (threshold : Instant) : Except Crash Effect × World :=
  match w.purge threshold with
  | (.ok r, w) => (.ok (.purged r), w)
  | (.error e, w) => (.error e, w)

def command (w : World) : Command → Except Crash Effect × World
  | .act a =>
    match w.act perform a with
    | (.error e, w) => (.error e, w)
    | (.ok s, w) => (.ok (.seen s), w)
  | .tick worker (some now) => w.tickNow worker now
  | .tick worker none => let (now, w) := w.readClock; w.tickNow worker now
  | .purge (some threshold) => w.purgeNow threshold
  | .purge none =>
    let (now, w) := w.readClock
    match Cleaner.threshold? w.cleaner.value now with
    | none => (.error .timeOutOfRange, w)
    | some threshold => w.purgeNow threshold
  | .relayConfig c =>
    let w := { w with relay := w.relay.update c }
    (.ok (.version w.relay.version), w)
  | .cleanerConfig c =>
    let w := { w with cleaner := w.cleaner.update c }
    (.ok (.version w.cleaner.version), w)
  | .adminConfig hash =>
    let w := { w with admin := w.admin.update hash }
    (.ok (.version w.admin.version), w)
  | .request r =>
    match w.serve (w.handler r) with
    | (.error e, w) => (.error e, w)
    | (.ok s, w) => (.ok (.responded (r.deliver s)), w)

end World

/-- The rows of a table that were not in an earlier one as they are. -/
def changedRows (before after : Table) : List Entry := after.filter fun e => !before.contains e

/-- The ids that a later table does not hold any more. -/
def removedIds (before after : Table) : List Uuid :=
  (before.filter fun e => !after.any fun f => f.id = e.id).map (·.id)

end Outbox.Scenario
