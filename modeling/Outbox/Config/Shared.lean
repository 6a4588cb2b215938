import Outbox.Config.Cell
import Outbox.Config.Loader

/-!
# Settings that change while the program runs

Three groups of settings are replaced when the configuration is loaded again. If that fails, they
stay as they are; everything else takes effect at the next start.
-/

namespace Outbox.Config

/-- The settings in force. -/
structure Shared where
  /-- The hash of the admin secret. -/
  admin : Cell String
  relay : Cell RelayConfig
  cleaner : Cell CleanerConfig

namespace Shared

/-- The settings of a configuration just loaded. -/
def new (l : Loaded) : Shared := ⟨.new l.secretHash, .new l.relay, .new l.cleaner⟩

/-- Puts the settings of another configuration in their place. -/
def update (s : Shared) (l : Loaded) : Shared :=
  ⟨s.admin.update l.secretHash, s.relay.update l.relay, s.cleaner.update l.cleaner⟩

/-- How often each group was replaced. -/
def versions (s : Shared) : List Nat := [s.admin.version, s.relay.version, s.cleaner.version]

end Shared

/-- How loading again ended. -/
inductive Reloaded
  | done
  | failed (e : LoadError)

/-- What is logged about loading again. -/
def Reloaded.message : Reloaded → String
  | done => "Configuration reloaded successfully"
  | failed e => "Failed to reload configuration: " ++ e.message

def reload (env : Environment) (d : Disk) (s : Shared) : Reloaded × Shared × Disk :=
  match load env d with
  | .ok (l, d) => (.done, s.update l, d)
  | .error e => (.failed e, s, d)

end Outbox.Config
