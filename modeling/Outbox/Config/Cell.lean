/-!
# Versioned cells

A cell holds the settings in force. An update replaces the value and counts one version; after that
it announces the version to the watchers, as a step of its own. A watcher compares the number of
announcements with the number it has seen, so announcements it slept through collapse into one.
-/

namespace Outbox.Config

/-- A value that is replaced while others watch it. -/
structure Cell (α : Type) where
  value : α
  /-- How often the value was replaced. -/
  version : Nat
  /-- The version announced last. -/
  announced : Nat
  /-- How many announcements there were. -/
  announcements : Nat
  deriving Repr

/-- What a watcher remembers: the number of announcements it has seen. -/
structure Watcher where
  seen : Nat
  deriving DecidableEq, Repr

/-- What a watcher finds when it looks. -/
inductive Notice
  | changed (version : Nat)
  /-- Nothing was announced since it last looked. -/
  | pending
  /-- Nothing was announced, and nobody is left to announce anything. -/
  | closed
  deriving DecidableEq, Repr

namespace Cell

variable {α : Type}

/-- A cell that was never updated. -/
def new (a : α) : Cell α := ⟨a, 0, 0, 0⟩

/-- First half of an update: replaces the value and counts the version. -/
def replace (c : Cell α) (a : α) : Cell α := { c with value := a, version := c.version + 1 }

/-- Second half of an update: announces a version. -/
def announce (c : Cell α) (version : Nat) : Cell α :=
  { c with announced := version, announcements := c.announcements + 1 }

/-- An update that nobody interrupts. -/
def update (c : Cell α) (a : α) : Cell α :=
  let c := c.replace a
  c.announce c.version

/-- A watcher that has seen all announcements so far. -/
def subscribe (c : Cell α) : Watcher := ⟨c.announcements⟩

/-- What a watcher finds; `live` tells whether anybody could still update the cell. -/
def look (c : Cell α) (live : Bool) (w : Watcher) : Notice × Watcher :=
  if w.seen ≠ c.announcements then (.changed c.announced, ⟨c.announcements⟩)
  else if live then (.pending, w)
  else (.closed, w)

end Cell
end Outbox.Config
