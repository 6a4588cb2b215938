import Outbox.Config.Cell

/-!
# The loop of a relay

Between two ticks a relay sleeps. It wakes early for the shutdown signal and for new settings, and
each time it goes back to sleep for a whole interval. The signal comes first.
-/

namespace Outbox.Relay

open Config (Cell Watcher)

/-- What a loop does after it looked at what it watches. -/
inductive Decision
  /-- It ends. -/
  | stop
  /-- There was news; it looks again. -/
  | again
  /-- It sleeps for the interval in force. -/
  | sleep
  deriving DecidableEq, Repr

/-- What a loop remembers of what it watches. -/
structure Loop where
  signal : Watcher
  config : Watcher
  deriving DecidableEq, Repr

/-- What a loop makes of the shutdown signal; nothing if there is no news of it. A signal that
nobody can set any more counts as set. -/
def onSignal (signal : Cell Bool) (live : Bool) (w : Watcher) : Option Decision × Watcher :=
  match signal.look live w with
  | (.changed _, w) => (some (if signal.value then .stop else .again), w)
  | (.closed, w) => (some .stop, w)
  | (.pending, w) => (none, w)

namespace Loop

/-- A loop that has seen everything so far. -/
def start {α : Type} (signal : Cell Bool) (config : Cell α) : Loop :=
  ⟨signal.subscribe, config.subscribe⟩

/-- Looks at the signal and then at the settings. -/
def look {α : Type} (l : Loop) (signal : Cell Bool) (live : Bool) (config : Cell α) :
    Decision × Loop :=
  match onSignal signal live l.signal with
  | (some d, w) => (d, { l with signal := w })
  | (none, w) =>
    match config.look true l.config with
    | (.changed _, w') => (.again, ⟨w, w'⟩)
    | (_, w') => (.sleep, ⟨w, w'⟩)

end Loop
end Outbox.Relay
