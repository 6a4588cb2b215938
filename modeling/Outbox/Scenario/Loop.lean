import Outbox.Relay.Loop
import Outbox.Scenario.Tick

/-!
# Loops in a scripted world

A loop is awake, looking at what it watches, or asleep until a time. Asleep it wakes for news; when
its time comes it does its work and is awake again. One step of a loop is one of these moves.
-/

namespace Outbox.Scenario

open Config (Watcher)
open Relay (Decision Loop)

/-- Whether a loop is awake. -/
inductive Rest
  | awake
  | asleep (wakeAt : Millis)
  deriving DecidableEq, Repr

/-- How a run ended. -/
inductive RunEnd
  | stopped (time : Millis)
  | crashed (e : Crash)
  /-- It has not ended, and nothing that is scheduled will end it. -/
  | running
  deriving DecidableEq, Repr

/-- What one step leads to. -/
inductive Step (σ : Type)
  | going (s : σ)
  | ended (e : RunEnd) (w : World)

/-- The next scheduled time up to a limit. -/
def World.nextDue (w : World) (limit : Millis) : Option Millis :=
  match w.schedule with
  | [] => none
  | (t, _) :: _ => if t ≤ limit then some t else none

/-- A relay on its loop. -/
structure RelayRun where
  worker : String
  world : World
  loop : Loop
  rest : Rest

namespace RelayRun

/-- A relay that starts to watch a world in which everything due at once has happened. -/
def start (worker : String) (w : World) : RelayRun :=
  { worker, world := w.advance 0, loop := .start w.signal w.relay, rest := .awake }

/-- What the loop finds when it looks. -/
def look (r : RelayRun) : Decision × Loop :=
  r.loop.look r.world.signal r.world.signalled r.world.relay

def step (r : RelayRun) : Step RelayRun :=
  match r.rest with
  | .awake =>
    match r.look with
    | (.stop, _) => .ended (.stopped r.world.time) r.world
    | (.again, l) => .going { r with loop := l }
    | (.sleep, l) =>
      .going { r with
        loop := l
        rest := .asleep (r.world.time + r.world.relay.value.pollInterval) }
  | .asleep t =>
    match r.world.nextDue t with
    | some due =>
      let r := { r with world := r.world.advance due }
      .going (if r.look.1 = .sleep then r else { r with rest := .awake })
    | none =>
      let w := r.world.advance t
      let (now, w) := w.readClock
      match w.tick r.worker now (some (w.time + w.relay.value.tickTimeout)) with
      | (.error e, w) => .ended (.crashed e) w
      | (_, w) => .going { r with world := w, rest := .awake }

/-- Takes steps until the run ends. -/
def run : Nat → RelayRun → RunEnd × World
  | 0, r => (.running, r.world)
  | fuel + 1, r =>
    match r.step with
    | .going r => run fuel r
    | .ended e w => (e, w)

end RelayRun

/-- A cleaner on its loop. -/
structure CleanerRun where
  world : World
  signal : Watcher
  /-- How long it sleeps next. -/
  delay : Millis
  rest : Rest

namespace CleanerRun

/-- A cleaner that starts to watch a world in which everything due at once has happened. It purges
without delay first. -/
def start (w : World) : CleanerRun :=
  { world := w.advance 0, signal := w.signal.subscribe, delay := 0, rest := .awake }

/-- What the loop finds when it looks. -/
def look (r : CleanerRun) : Option Decision × Watcher :=
  Relay.onSignal r.world.signal r.world.signalled r.signal

def step (r : CleanerRun) : Step CleanerRun :=
  match r.rest with
  | .awake =>
    match r.look with
    | (some .stop, _) => .ended (.stopped r.world.time) r.world
    | (some _, s) => .going { r with signal := s }
    | (none, s) => .going { r with signal := s, rest := .asleep (r.world.time + r.delay) }
  | .asleep t =>
    match r.world.nextDue t with
    | some due =>
      let r := { r with world := r.world.advance due }
      .going (if r.look.1 = none then r else { r with rest := .awake })
    | none =>
      let w := r.world.advance t
      let (now, w) := w.readClock
      match Cleaner.threshold? w.cleaner.value now with
      | none => .ended (.crashed .timeOutOfRange) w
      | some threshold =>
        match w.purge threshold with
        | (.error e, w) => .ended (.crashed e) w
        | (_, w) => .going { r with world := w, delay := w.cleaner.value.interval, rest := .awake }

/-- Takes steps until the run ends. -/
def run : Nat → CleanerRun → RunEnd × World
  | 0, r => (.running, r.world)
  | fuel + 1, r =>
    match r.step with
    | .going r => run fuel r
    | .ended e w => (e, w)

end CleanerRun

namespace World

/-- As many steps as a loop can take before everything scheduled has happened, if it never sleeps
for no time at all. -/
def stepLimit (w : World) : Nat :=
  5 * w.schedule.length + 2 * w.schedule.foldl (fun m p => max m p.1) 0 + 10

/-- Runs a relay until it ends. -/
def runRelay (w : World) (worker : String) : RunEnd × World :=
  RelayRun.run w.stepLimit (.start worker w)

/-- Runs a cleaner until it ends. -/
def runCleaner (w : World) : RunEnd × World :=
  CleanerRun.run w.stepLimit (.start w)

end World
end Outbox.Scenario
