import Outbox.Config.Cleaner
import Outbox.Config.Relay
import Outbox.Net.SocketAddress
import Outbox.Toml.Reader
import Outbox.Toml.Writer
import Outbox.Url.Reader

/-!
# The configuration file

The file has five sections; the admin secret and the address of the broker must be there, everything
else has a default. A file that was written reads back as what it was written from.
-/

namespace Outbox

open Net Toml

/-- Where messages are delivered. -/
structure BrokerConfig where
  baseUrl : Url
  /-- The longest request. -/
  requestTimeout : Millis
  deriving DecidableEq, Repr

/-- The longest request unless another is given. -/
def BrokerConfig.defaultTimeout : Millis := 10000

/-- The relay section of the file: besides the settings, who runs the relay here. -/
structure RelaySection where
  config : RelayConfig
  /-- Workers of this process. -/
  workers : Nat
  /-- What the ids of the workers begin with. -/
  instanceId : Option String
  deriving DecidableEq, Repr

/-- One worker, and no instance id of its own. -/
def RelaySection.default : RelaySection := ⟨.default, 1, none⟩

/-- What the configuration file says. -/
structure ConfigFile where
  /-- The address to listen on. -/
  listen : SocketAddress
  /-- The admin secret, plain or hashed. -/
  secret : String
  relay : RelaySection
  cleaner : CleanerConfig
  broker : BrokerConfig
  deriving DecidableEq, Repr

namespace ConfigFile

/-! ### Reading -/

def int32? : Decoder Int := integer? (-Nat.pow 2 31) (Nat.pow 2 31 - 1)

def int64? : Decoder Int := integer? leastInteger greatestInteger

def address? : Decoder SocketAddress := fun t => (text? t).bind SocketAddress.parse?

def url? : Decoder Url := fun t => (text? t).bind fun s => (Url.parse s).toOption

/-- Seconds, in milliseconds. -/
def seconds? : Decoder Millis := fun t => (natural? t).map (· * 1000)

def server? : Decoder SocketAddress := fun t => do
  let m ← t.members? ["listen"]
  optional address? .default m "listen"

def admin? : Decoder String := fun t => do
  let m ← t.members? ["secret"]
  required text? m "secret"

def relay? : Decoder RelaySection := fun t => do
  let m ← t.members? ["max_retry", "batch_size", "poll_interval_ms", "lease_timeout_ms",
    "tick_timeout_ms", "send_timeout_ms", "workers", "instance_id"]
  let d := RelaySection.default
  let maxRetry ← optional int32? d.config.maxRetry m "max_retry"
  let batchSize ← optional int64? d.config.batchSize m "batch_size"
  let pollInterval ← optional natural? d.config.pollInterval m "poll_interval_ms"
  let leaseTimeout ← optional natural? d.config.leaseTimeout m "lease_timeout_ms"
  let tickTimeout ← optional natural? d.config.tickTimeout m "tick_timeout_ms"
  let sendTimeout ← optional natural? d.config.sendTimeout m "send_timeout_ms"
  let workers ← optional natural? d.workers m "workers"
  let instanceId ← optional (fun t => (text? t).map some) d.instanceId m "instance_id"
  return {
    config := { maxRetry, batchSize, pollInterval, leaseTimeout, tickTimeout, sendTimeout }
    workers
    instanceId }

def cleaner? : Decoder CleanerConfig := fun t => do
  let m ← t.members? ["retention_window_secs", "interval_secs", "batch_size", "lock_timeout_ms"]
  let d := CleanerConfig.default
  let retentionWindow ← optional seconds? d.retentionWindow m "retention_window_secs"
  let interval ← optional seconds? d.interval m "interval_secs"
  let batchSize ← optional int64? d.batchSize m "batch_size"
  let lockTimeout ← optional natural? d.lockTimeout m "lock_timeout_ms"
  return { retentionWindow, interval, batchSize, lockTimeout }

def broker? : Decoder BrokerConfig := fun t => do
  let m ← t.members? ["base_url", "request_timeout_ms"]
  let baseUrl ← required url? m "base_url"
  let requestTimeout ← optional natural? BrokerConfig.defaultTimeout m "request_timeout_ms"
  return { baseUrl, requestTimeout }

def ofToml? : Decoder ConfigFile := fun t => do
  let m ← t.members? ["server", "admin", "relay", "cleaner", "broker"]
  let listen ← optional server? .default m "server"
  let secret ← required admin? m "admin"
  let relay ← optional relay? .default m "relay"
  let cleaner ← optional cleaner? .default m "cleaner"
  let broker ← required broker? m "broker"
  return { listen, secret, relay, cleaner, broker }

/-- Reads the text of a file. -/
def parse? (s : String) : Option ConfigFile := (Toml.read? s).bind ofToml?

/-! ### Writing -/

def ofNat (n : Nat) : Scalar := .integer n

/-- The sections of a file, in the order in which they are written; every field but a missing
instance id is written. -/
def sections (f : ConfigFile) : List Section :=
  let r := f.relay
  let c := f.cleaner
  [{ name := "server", entries := [("listen", .text f.listen.text)] },
    { name := "admin", entries := [("secret", .text f.secret)] },
    { name := "relay"
      entries :=
        [("max_retry", .integer r.config.maxRetry),
          ("batch_size", .integer r.config.batchSize),
          ("poll_interval_ms", ofNat r.config.pollInterval),
          ("lease_timeout_ms", ofNat r.config.leaseTimeout),
          ("tick_timeout_ms", ofNat r.config.tickTimeout),
          ("send_timeout_ms", ofNat r.config.sendTimeout),
          ("workers", ofNat r.workers)] ++
        (r.instanceId.map fun s => ("instance_id", Scalar.text s)).toList },
    { name := "cleaner"
      entries :=
        [("retention_window_secs", ofNat (c.retentionWindow / 1000)),
          ("interval_secs", ofNat (c.interval / 1000)),
          ("batch_size", .integer c.batchSize),
          ("lock_timeout_ms", ofNat c.lockTimeout)] },
    { name := "broker"
      entries :=
        [("base_url", .text f.broker.baseUrl.text),
          ("request_timeout_ms", ofNat f.broker.requestTimeout)] }]

def render (f : ConfigFile) : String := Toml.render f.sections

end ConfigFile
end Outbox
