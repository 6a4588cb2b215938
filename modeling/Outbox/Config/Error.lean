/-!
# Settings out of range
-/

namespace Outbox

/-- A setting is out of range. -/
structure ConfigError where
  /-- The group of settings that it belongs to. -/
  group : String
  field : String
  reason : String
  deriving DecidableEq, Repr

def ConfigError.message (e : ConfigError) : String :=
  s!"invalid {e.group}.{e.field}: {e.reason}"

end Outbox
