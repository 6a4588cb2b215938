import Outbox.Clock
import Outbox.Config.Error

/-!
# Settings of the relay

A tick must not outlive the leases taken in it, and a send not its tick; otherwise two workers could
handle one entry at a time.
-/

namespace Outbox

/-- Settings of the relay. -/
structure RelayConfig where
  /-- Attempts before an entry has failed. -/
  maxRetry : Int
  /-- Entries taken up in one tick. -/
  batchSize : Int
  /-- From the end of one tick to the start of the next. -/
  pollInterval : Millis
  /-- An older claim counts as abandoned. -/
  leaseTimeout : Millis
  /-- The longest tick. -/
  tickTimeout : Millis
  /-- The longest send. -/
  sendTimeout : Millis
  deriving DecidableEq, Repr

namespace RelayConfig

/-- Three attempts, a hundred entries, ticks a second apart and of at most five minutes. -/
def default : RelayConfig :=
  { maxRetry := 3
    batchSize := 100
    pollInterval := 1000
    leaseTimeout := 300000
    tickTimeout := 300000
    sendTimeout := 5000 }

/-- Refuses settings that cannot work, for the first field at fault. -/
def validate (c : RelayConfig) : Except ConfigError Unit := do
  let invalid field reason : ConfigError := ⟨"relay", field, reason⟩
  if c.maxRetry < 1 then throw (invalid "max_retry" "must be at least 1")
  if c.batchSize < 1 then throw (invalid "batch_size" "must be at least 1")
  if c.pollInterval = 0 then throw (invalid "poll_interval_ms" "must be positive")
  if c.sendTimeout = 0 then throw (invalid "send_timeout_ms" "must be positive")
  if c.tickTimeout > c.leaseTimeout then
    throw (invalid "tick_timeout_ms" "must not exceed lease_timeout_ms")
  if c.sendTimeout > c.tickTimeout then
    throw (invalid "send_timeout_ms" "must not exceed tick_timeout_ms")

end RelayConfig
end Outbox
