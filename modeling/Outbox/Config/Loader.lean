import Outbox.Config.File
import Outbox.Secret.Phc
import Outbox.Text.Blank
import Outbox.Uuid

/-!
# Loading the configuration

The file is read, checked, and only then changed: an admin secret that is still plain is replaced by
its hash. The new text is written beside the file and takes its place in one step, so a load that
fails leaves the file as it was.
-/

namespace Outbox

open Net

namespace Config

/-- Why a file could not be used. -/
inductive FileFault
  | notFound
  | isDirectory
  deriving DecidableEq, Repr

def FileFault.message : FileFault → String
  | notFound => "No such file or directory (os error 2)"
  | isDirectory => "Is a directory (os error 21)"

/-- What lies at a path. -/
inductive Content
  | text (s : String)
  | nothing
  | directory
  deriving DecidableEq, Repr

def Content.read : Content → Except FileFault String
  | text s => .ok s
  | nothing => .error .notFound
  | directory => .error .isDirectory

/-- The configuration file where it lies. -/
structure Disk where
  file : Content
  /-- A directory has the name under which the new text is written first. -/
  blocked : Bool
  deriving DecidableEq, Repr

/-- Puts a new text in the place of the file. -/
def Disk.replace (d : Disk) (text : String) : Except FileFault Disk :=
  if d.blocked then throw .isDirectory else return { d with file := .text text }

/-- The name under which the new text of a file is written first: the ending behind the last dot of
the name is replaced. -/
def temporaryPath (path : String) : String :=
  let back := path.toList.reverse
  let name := (back.takeWhile (· ≠ '/')).reverse
  let folder := (back.dropWhile (· ≠ '/')).reverse
  let stem := (name.reverse.dropWhile (· ≠ '.')).tail.reverse
  String.ofList (folder ++ if stem.isEmpty then name else stem) ++ ".toml.tmp"

/-- What loading depends on besides the file. -/
structure Environment where
  /-- The name of the machine, if it is known. -/
  hostname : Option String
  /-- An address to listen on in place of the one in the file. -/
  listen : Option SocketAddress
  /-- An id that was never given before. -/
  freshId : Uuid
  /-- Random bytes for a new hash. -/
  salt : List UInt8

/-- Why the configuration was not loaded. -/
inductive LoadError
  | file (fault : FileFault)
  /-- The file is no document of the form expected. -/
  | malformed
  | blankSecret
  | noWorkers
  /-- The ids of the workers would be blank or too long. -/
  | badInstanceId
  | outOfRange (e : ConfigError)
  deriving DecidableEq, Repr

/-- The longest id of a worker. -/
def workerIdLimit : Nat := 100

def LoadError.message : LoadError → String
  | file fault => "failed to read config file: " ++ fault.message
  | malformed => "failed to parse config file"
  | blankSecret => "validation error: admin.secret must not be empty"
  | noWorkers => "validation error: relay.workers must be at least 1"
  | badInstanceId =>
    "validation error: relay.instance_id must be non-empty and keep worker ids within " ++
      toString workerIdLimit ++ " characters"
  | outOfRange e => "validation error: " ++ e.message

/-- A configuration that is in force. -/
structure Loaded where
  listen : SocketAddress
  secretHash : String
  relay : RelayConfig
  cleaner : CleanerConfig
  broker : BrokerConfig
  workers : Nat
  instanceId : String
  /-- The secret was plain, and the file has been written anew. -/
  hashed : Bool
  deriving DecidableEq, Repr

def Loaded.workerIds (l : Loaded) : List String :=
  (List.range l.workers).map fun n => l.instanceId ++ "-" ++ toString n

/-- The secret is hashed already. -/
def isHashed (secret : String) : Bool := "$argon2".toList.isPrefixOf secret.toList

/-- The instance id: the one configured, or else the name of the machine; a fresh one if that is
blank. -/
def instanceId (configured : Option String) (env : Environment) : String :=
  match (configured.or env.hostname).filter fun s => !Text.isBlank s with
  | some s => s
  | none => "mopl-outbox-" ++ env.freshId.simple

/-- The length in bytes of the longest id of a worker. -/
def longestWorkerId (instanceId : String) (workers : Nat) : Nat :=
  instanceId.utf8ByteSize + 1 + (toString (workers - 1)).length

def check (f : ConfigFile) (instanceId : String) : Except LoadError Unit := do
  if Text.isBlank f.secret then throw .blankSecret
  if f.relay.workers = 0 then throw .noWorkers
  if Text.isBlank instanceId ∨ longestWorkerId instanceId f.relay.workers > workerIdLimit then
    throw .badInstanceId
  f.relay.config.validate.mapError .outOfRange
  f.cleaner.validate.mapError .outOfRange

/-- Replaces a plain secret by its hash, and writes the file anew. -/
def hashSecret (env : Environment) (f : ConfigFile) (d : Disk) :
    Except LoadError (ConfigFile × Disk) := do
  if isHashed f.secret then return (f, d)
  let hash := Secret.Phc.ofSecret Secret.Phc.defaultParams env.salt f.secret
  let f := { f with secret := hash.text }
  let d ← (d.replace f.render).mapError .file
  return (f, d)

def load (env : Environment) (d : Disk) : Except LoadError (Loaded × Disk) := do
  let text ← d.file.read.mapError .file
  let some f := ConfigFile.parse? text | throw .malformed
  let f := { f with listen := env.listen.getD f.listen }
  let instanceId := instanceId f.relay.instanceId env
  check f instanceId
  let hashed := !isHashed f.secret
  let (f, d) ← hashSecret env f d
  return ({
    listen := f.listen
    secretHash := f.secret
    relay := f.relay.config
    cleaner := f.cleaner
    broker := f.broker
    workers := f.relay.workers
    instanceId
    hashed }, d)

/-- The disk after a load: as it was if the load failed. -/
def diskAfter (d : Disk) : Except LoadError (Loaded × Disk) → Disk
  | .ok (_, d) => d
  | .error _ => d

end Config
end Outbox
