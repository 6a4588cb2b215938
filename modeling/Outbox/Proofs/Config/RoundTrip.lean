import Outbox.Config.File
import Outbox.Proofs.Toml.Document

/-!
# A configuration file is read as it was written

All that a file says is written, section by section and each value in a form that its decoder reads
(`parse?_render`). Of the two addresses in a file it has to be known that their texts are read back.
-/

namespace Outbox

open Net Toml

/-- The number can be written as an integer of a document. -/
def Storable (n : Nat) : Prop := (n : Int) ≤ greatestInteger

instance (n : Nat) : Decidable (Storable n) := inferInstanceAs (Decidable (_ ≤ _))

theorem Storable.fits {n : Nat} (h : Storable n) : Fits n :=
  ⟨Int.le_trans (by decide) (Int.natCast_nonneg n), h⟩

/-- The section of the relay can be written. -/
structure RelaySection.Writable (r : RelaySection) : Prop where
  maxRetry : -Nat.pow 2 31 ≤ r.config.maxRetry ∧ r.config.maxRetry ≤ Nat.pow 2 31 - 1
  batchSize : Fits r.config.batchSize
  pollInterval : Storable r.config.pollInterval
  leaseTimeout : Storable r.config.leaseTimeout
  tickTimeout : Storable r.config.tickTimeout
  sendTimeout : Storable r.config.sendTimeout
  workers : Storable r.workers

/-- The section of the cleaner can be written, window and interval in seconds. -/
structure CleanerConfig.Writable (c : CleanerConfig) : Prop where
  retentionWindow : 1000 ∣ c.retentionWindow
  interval : 1000 ∣ c.interval
  retentionWindow_le : Storable (c.retentionWindow / 1000)
  interval_le : Storable (c.interval / 1000)
  batchSize : Fits c.batchSize
  lockTimeout : Storable c.lockTimeout

/-- The section of the broker can be written. -/
structure BrokerConfig.Writable (b : BrokerConfig) : Prop where
  baseUrl : Url.parse b.baseUrl.text = .ok b.baseUrl
  requestTimeout : Storable b.requestTimeout

theorem RelaySection.writable_default : RelaySection.default.Writable := by
  constructor <;> decide

theorem CleanerConfig.writable_default : CleanerConfig.default.Writable := by
  constructor <;> decide

namespace ConfigFile

/-- All that the file says can be written. -/
structure Writable (f : ConfigFile) : Prop where
  listen : SocketAddress.parse? f.listen.text = some f.listen
  relay : f.relay.Writable
  cleaner : f.cleaner.Writable
  broker : f.broker.Writable

variable {f : ConfigFile}

/-! ### Sections -/

section
variable (a : SocketAddress) (secret : String) (r : RelaySection) (c : CleanerConfig)
  (b : BrokerConfig)

def serverTable : Toml := .table [("listen", .text a.text)]

def adminTable : Toml := .table [("secret", .text secret)]

def relayTable : Toml :=
  .table <|
    [("max_retry", .integer r.config.maxRetry),
      ("batch_size", .integer r.config.batchSize),
      ("poll_interval_ms", .integer r.config.pollInterval),
      ("lease_timeout_ms", .integer r.config.leaseTimeout),
      ("tick_timeout_ms", .integer r.config.tickTimeout),
      ("send_timeout_ms", .integer r.config.sendTimeout),
      ("workers", .integer r.workers)] ++
    (r.instanceId.map fun s => ("instance_id", Toml.text s)).toList

def cleanerTable : Toml :=
  .table
    [("retention_window_secs", .integer ((c.retentionWindow / 1000 : Nat) : Int)),
      ("interval_secs", .integer ((c.interval / 1000 : Nat) : Int)),
      ("batch_size", .integer c.batchSize),
      ("lock_timeout_ms", .integer c.lockTimeout)]

def brokerTable : Toml :=
  .table [("base_url", .text b.baseUrl.text), ("request_timeout_ms", .integer b.requestTimeout)]

end

/-- The sections of a file are the tables of its parts. -/
theorem sections_value (f : ConfigFile) :
    f.sections.map (fun s => (s.name, s.value)) =
      [("server", serverTable f.listen), ("admin", adminTable f.secret),
        ("relay", relayTable f.relay), ("cleaner", cleanerTable f.cleaner),
        ("broker", brokerTable f.broker)] := by
  obtain ⟨listen, secret, ⟨config, workers, id⟩, cleaner, broker⟩ := f
  cases id <;> rfl

theorem sections_nodup (f : ConfigFile) : (f.sections.map Section.name).Nodup := by
  change ["server", "admin", "relay", "cleaner", "broker"].Nodup
  decide

theorem Writable.readable (h : f.Writable) : ∀ s ∈ f.sections, s.Readable := by
  obtain ⟨listen, secret, ⟨config, workers, id⟩, cleaner, broker⟩ := f
  obtain ⟨-, hr, hc, hb⟩ := h
  have hretry : Fits config.maxRetry :=
    ⟨Int.le_trans (by decide) hr.maxRetry.1, Int.le_trans hr.maxRetry.2 (by decide)⟩
  have hvalues : Fits config.maxRetry ∧ Fits config.batchSize ∧ Fits config.pollInterval ∧
      Fits config.leaseTimeout ∧ Fits config.tickTimeout ∧ Fits config.sendTimeout ∧
      Fits workers :=
    ⟨hretry, hr.batchSize, hr.pollInterval.fits, hr.leaseTimeout.fits, hr.tickTimeout.fits,
      hr.sendTimeout.fits, hr.workers.fits⟩
  simp only [sections, List.forall_mem_cons]
  refine ⟨?_, ?_, ?_, ?_, ?_, fun _ h => nomatch h⟩
  · exact .of_names ["listen"] rfl (by decide) (by decide) (by simp [Scalar.Readable])
  · exact .of_names ["secret"] rfl (by decide) (by decide) (by simp [Scalar.Readable])
  · cases id with
    | none =>
      refine .of_names ["max_retry", "batch_size", "poll_interval_ms", "lease_timeout_ms",
        "tick_timeout_ms", "send_timeout_ms", "workers"] rfl (by decide) (by decide) ?_
      simpa [Scalar.Readable, ofNat] using hvalues
    | some id =>
      refine .of_names ["max_retry", "batch_size", "poll_interval_ms", "lease_timeout_ms",
        "tick_timeout_ms", "send_timeout_ms", "workers", "instance_id"] rfl (by decide)
        (by decide) ?_
      simpa [Scalar.Readable, ofNat] using hvalues
  · refine .of_names ["retention_window_secs", "interval_secs", "batch_size", "lock_timeout_ms"]
      rfl (by decide) (by decide) ?_
    simp [Scalar.Readable, ofNat, -Int.natCast_ediv, hc.retentionWindow_le.fits,
      hc.interval_le.fits, hc.batchSize, hc.lockTimeout.fits]
  · refine .of_names ["base_url", "request_timeout_ms"] rfl (by decide) (by decide) ?_
    simp [Scalar.Readable, ofNat, hb.requestTimeout.fits]

/-! ### Decoding -/

theorem natural?_integer (n : Nat) : natural? (.integer n) = some n := by
  rw [natural?, if_pos (Int.natCast_nonneg n), Int.toNat_natCast]

theorem seconds?_integer {n : Nat} (h : 1000 ∣ n) :
    seconds? (.integer ((n / 1000 : Nat) : Int)) = some n := by
  rw [seconds?, natural?_integer, Option.map_some, Nat.div_mul_cancel h]

theorem relay?_table {r : RelaySection} (h : r.Writable) : relay? (relayTable r) = some r := by
  have hretry : int32? (.integer r.config.maxRetry) = some r.config.maxRetry := if_pos h.maxRetry
  have hbatch : int64? (.integer r.config.batchSize) = some r.config.batchSize :=
    if_pos h.batchSize
  obtain ⟨config, workers, id⟩ := r
  cases id with
  | none =>
    have hdefault : RelaySection.default.instanceId = none := rfl
    simp [relay?, relayTable, members?, Toml.optional, List.lookup_cons, hretry, hbatch,
      natural?_integer, hdefault]
  | some id =>
    simp [relay?, relayTable, members?, Toml.optional, List.lookup_cons, hretry, hbatch,
      natural?_integer, text?]

theorem cleaner?_table {c : CleanerConfig} (h : c.Writable) :
    cleaner? (cleanerTable c) = some c := by
  have hbatch : int64? (.integer c.batchSize) = some c.batchSize := if_pos h.batchSize
  simp [cleaner?, cleanerTable, members?, Toml.optional, List.lookup_cons, hbatch,
    natural?_integer, -Int.natCast_ediv, seconds?_integer h.retentionWindow,
    seconds?_integer h.interval]

theorem broker?_table {b : BrokerConfig} (h : b.Writable) : broker? (brokerTable b) = some b := by
  have hurl : url? (.text b.baseUrl.text) = some b.baseUrl := by
    rw [url?, text?, Option.bind_some, h.baseUrl]
    rfl
  simp [broker?, brokerTable, members?, Toml.optional, required, List.lookup_cons, hurl,
    natural?_integer]

theorem Writable.ofToml?_sections (h : f.Writable) :
    ofToml? (.table (f.sections.map fun s => (s.name, s.value))) = some f := by
  have hserver : server? (serverTable f.listen) = some f.listen := h.listen
  have hadmin : admin? (adminTable f.secret) = some f.secret := rfl
  rw [sections_value]
  simp [ofToml?, members?, Toml.optional, required, List.lookup_cons, hserver, hadmin,
    relay?_table h.relay, cleaner?_table h.cleaner, broker?_table h.broker]

/-- A file that was written says what it was written from. -/
theorem parse?_render (h : f.Writable) : parse? f.render = some f := by
  rw [parse?, render, read?_render h.readable (sections_nodup f), Option.bind_some,
    h.ofToml?_sections]

end ConfigFile
end Outbox
