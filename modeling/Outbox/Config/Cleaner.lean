import Outbox.Clock
import Outbox.Config.Error

/-!
# Settings of the cleaner
-/

namespace Outbox

/-- Settings of the cleaner. -/
structure CleanerConfig where
  /-- Entries published longer ago are removed. -/
  retentionWindow : Millis
  /-- From the end of one purge to the start of the next. -/
  interval : Millis
  /-- Entries removed at a time. -/
  batchSize : Int
  /-- The longest wait for a lock. -/
  lockTimeout : Millis
  deriving DecidableEq, Repr

namespace CleanerConfig

/-- Entries are kept for seven days, and purged once a day by the thousand. -/
def default : CleanerConfig :=
  { retentionWindow := 7 * 24 * 60 * 60 * 1000
    interval := 24 * 60 * 60 * 1000
    batchSize := 1000
    lockTimeout := 5000 }

/-- Refuses settings that cannot work, for the first field at fault. -/
def validate (c : CleanerConfig) : Except ConfigError Unit := do
  let invalid field reason : ConfigError := ⟨"cleaner", field, reason⟩
  if c.retentionWindow = 0 then throw (invalid "retention_window_secs" "must be positive")
  if c.interval = 0 then throw (invalid "interval_secs" "must be positive")
  if c.batchSize < 1 then throw (invalid "batch_size" "must be at least 1")
  if c.lockTimeout = 0 then throw (invalid "lock_timeout_ms" "must be positive")

end CleanerConfig
end Outbox
