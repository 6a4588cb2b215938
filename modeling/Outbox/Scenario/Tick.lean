import Outbox.Cleaner.Purge
import Outbox.Relay.Tick
import Outbox.Scenario.World

/-!
# Ticks and purges in a scripted world

A tick waits only for the broker. If it is still waiting at its deadline it is abandoned there: what
it has written stays, and the entry on its way keeps its claim.
-/

namespace Outbox.Scenario

open Relay (Tick Report)
open Cleaner (Purge)

namespace World

/-- Runs a tick from a phase on; there is no result if it is abandoned. -/
def runTick (t : Tick) (deadline : Option Millis) (w : World) (p : Tick.Phase) :
    Except Crash (Option (Except StoreError Report)) × World :=
  match _h : t.ask p with
  | .done r => (.ok (some r), w)
  | .call c next =>
    match w.perform c with
    | (.error e, w) => (.error e, w)
    | (.ok a, w) => runTick t deadline w (next a)
  | .send m next =>
    match w.send m with
    | (.error e, w) => (.error e, w)
    | (.ok reply, w) =>
      let arrival := w.time + reply.wait t.config.sendTimeout
      match deadline.filter (· < arrival) with
      | some d => (.ok none, w.advance d)
      | none => runTick t deadline (w.advance arrival) (next (reply.within t.config.sendTimeout))
termination_by Tick.Phase.closer_wf.wrap p
decreasing_by
  · exact Tick.closer_of_ask_call _h a
  · exact Tick.closer_of_ask_send _h _

/-- Runs a tick of a worker with the settings in force. -/
def tick (w : World) (worker : String) (now : Instant) (deadline : Option Millis) :
    Except Crash (Option (Except StoreError Report)) × World :=
  match Tick.start? worker w.relay.value now with
  | none => (.error .timeOutOfRange, w)
  | some t => w.runTick t deadline .sweep

/-- Runs a purge that has removed some entries. -/
def runPurge (p : Purge) (w : World) (deleted : Nat) :
    Except Crash (Except CleanupError Nat) × World :=
  match _h : w.perform p.call with
  | (.error e, w') => (.error e, w')
  | (.ok (.error e), w') => (.ok (.error (.ofStore deleted e)), w')
  | (.ok (.ok n), w') =>
    if _hn : n < p.batch then (.ok (.ok (deleted + n)), w')
    else runPurge p w' (deleted + n)
termination_by w.table.length
decreasing_by exact length_perform_lt _h (Nat.lt_of_lt_of_le p.batch_pos (Nat.not_lt.1 _hn))

/-- Runs a purge with the settings in force. -/
def purge (w : World) (threshold : Instant) : Except Crash (Except CleanupError Nat) × World :=
  w.runPurge (.ofConfig w.cleaner.value threshold) 0

end World
end Outbox.Scenario
