import Outbox.Config.Cleaner
import Outbox.Store.Call

/-!
# Purging published entries

A purge removes entries that were published before a threshold, batch after batch, until a batch
falls short. If a batch fails, the batches before it stay removed.
-/

namespace Outbox

/-- Why a purge ended early. -/
inductive CleanupError
  /-- A batch waited too long for a lock; so many entries were removed before it. -/
  | lockTimeout (deleted : Nat)
  | store (e : StoreError)
  deriving DecidableEq

def CleanupError.message : CleanupError → String
  | lockTimeout n =>
    s!"lock timeout while purging published entries ({n} deleted before it)"
  | store e => "store error: " ++ e.message

/-- Why a purge ends after an error of the store; so many entries were removed before. -/
def CleanupError.ofStore (deleted : Nat) : StoreError → CleanupError
  | .lockTimeout => .lockTimeout deleted
  | e => .store e

namespace Cleaner

/-- What does not change during a purge. -/
structure Purge where
  threshold : Instant
  /-- Entries removed at a time. -/
  batch : Nat
  lockTimeout : Millis
  /-- A batch of no entries would never fall short. -/
  batch_pos : 0 < batch

namespace Purge

/-- The purge that the settings ask for. -/
def ofConfig (c : CleanerConfig) (threshold : Instant) : Purge :=
  { threshold
    batch := max c.batchSize.toNat 1
    lockTimeout := c.lockTimeout
    batch_pos := Nat.lt_of_lt_of_le Nat.one_pos (Nat.le_max_right ..) }

/-- The request that removes one batch. -/
@[reducible] def call (p : Purge) : Call := .deletePublished p.threshold p.batch p.lockTimeout

end Purge

/-- The entries published before this time are outside the retention window. -/
def threshold? (c : CleanerConfig) (now : Instant) : Option Instant :=
  now.before? c.retentionWindow

end Cleaner
end Outbox
