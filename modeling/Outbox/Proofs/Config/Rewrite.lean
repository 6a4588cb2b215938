import Outbox.Config.Loader
import Outbox.Proofs.Config.RoundTrip

/-!
# What is written when a secret is hashed

A load of a file with a plain secret writes the file anew. Besides the hash, the address given for
this load in place of the one in the file gets into it: nothing but the secret has changed just if
no other address was given (`rewritten_iff`). The next load finds the hash and that address, and all
else as it was.
-/

namespace Outbox.Config

open Net Secret

variable {env : Environment} {d d' : Disk} {f : ConfigFile} {l : Loaded} {s : String}

/-! ### Hashes -/

/-- Every hash that is made begins with its variant. -/
theorem toList_text (h : Phc) :
    ∃ cs, h.text.toList = '$' :: (h.params.variant.name.toList ++ cs) := by
  rw [Phc.text, String.intercalate_cons_cons, String.intercalate_cons_cons]
  simp only [String.toList_append, List.append_assoc]
  exact ⟨_, rfl⟩

theorem isHashed_text (h : Phc) : isHashed h.text := by
  obtain ⟨cs, hcs⟩ := toList_text h
  rw [isHashed, hcs]
  cases h.params.variant <;> rfl

theorem isBlank_text (h : Phc) : Text.isBlank h.text = false := by
  obtain ⟨cs, hcs⟩ := toList_text h
  rw [Text.isBlank, hcs, List.all_cons, show Text.isBlankChar '$' = false by decide,
    Bool.false_and]

/-! ### Loading -/

/-- What is loaded from a file that has the hash given for its secret. -/
def Loaded.ofFile (env : Environment) (f : ConfigFile) (hash : String) : Loaded :=
  { listen := env.listen.getD f.listen
    secretHash := hash
    relay := f.relay.config
    cleaner := f.cleaner
    broker := f.broker
    workers := f.relay.workers
    instanceId := Config.instanceId f.relay.instanceId env
    hashed := !isHashed f.secret }

/-- The file that takes the place of one with a plain secret. -/
def rewritten (env : Environment) (f : ConfigFile) : ConfigFile :=
  { f with
    listen := env.listen.getD f.listen
    secret := (Phc.ofSecret Phc.defaultParams env.salt f.secret).text }

/-- The address to listen on is not checked. -/
theorem check_listen (f : ConfigFile) (a : SocketAddress) (id : String) :
    check { f with listen := a } id = check f id := rfl

section
variable (hs : d.file = .text s) (hf : ConfigFile.parse? s = some f)
include hs hf

/-- A file with a hash is left alone. -/
theorem load_of_isHashed (hh : isHashed f.secret) :
    load env d = (check f (instanceId f.relay.instanceId env)).map
      fun _ => (.ofFile env f f.secret, d) := by
  have hsecret : ∀ g : ConfigFile, g.secret = f.secret → hashSecret env g d = .ok (g, d) :=
    fun g hg => if_pos (hg ▸ hh)
  rw [load, hs]
  simp only [Content.read, Except.mapError, bind, Except.bind, hf, hsecret, check_listen]
  cases check f (instanceId f.relay.instanceId env) <;> rfl

/-- A plain secret is replaced once the file has been checked. -/
theorem load_of_plain (hh : isHashed f.secret = false) :
    load env d = (check f (instanceId f.relay.instanceId env)).bind fun _ =>
      ((d.replace (rewritten env f).render).mapError .file).map fun d =>
        (.ofFile env f (rewritten env f).secret, d) := by
  have hsecret : ∀ g : ConfigFile, g.secret = f.secret → hashSecret env g d =
      ((d.replace { g with secret := (rewritten env f).secret }.render).mapError .file).map
        fun d => ({ g with secret := (rewritten env f).secret }, d) := by
    intro g hg
    rw [hashSecret, if_neg (by simp [hg, hh]), hg]
    rfl
  rw [load, hs]
  simp only [Content.read, Except.mapError, bind, Except.bind, hf, hsecret, check_listen]
  cases check f (instanceId f.relay.instanceId env) with
  | error e => rfl
  | ok u =>
    have hrender : ({ f with
        listen := env.listen.getD f.listen
        secret := (rewritten env f).secret } : ConfigFile) = rewritten env f := rfl
    simp only [hrender]
    cases d.replace (rewritten env f).render <;> rfl

/-- A load that hashes a secret has checked the file and found room for the new one. -/
theorem load_eq_ok (hh : isHashed f.secret = false) (hload : load env d = .ok (l, d')) :
    check f (instanceId f.relay.instanceId env) = .ok () ∧ d.blocked = false ∧
      l = .ofFile env f (rewritten env f).secret ∧
      d' = { d with file := .text (rewritten env f).render } := by
  rw [load_of_plain hs hf hh] at hload
  cases hcheck : check f (instanceId f.relay.instanceId env) with
  | error e =>
    rw [hcheck] at hload
    cases hload
  | ok u =>
    rw [hcheck] at hload
    cases hblocked : d.blocked with
    | true =>
      rw [Disk.replace, if_pos hblocked] at hload
      cases hload
    | false =>
      rw [Disk.replace, if_neg (by simp [hblocked])] at hload
      cases hload
      exact ⟨rfl, rfl, rfl, by rw [hblocked]⟩

end

/-- The secret under which a file is in force: the one in it if that is a hash, or else a new hash
of it. -/
def secretOf (env : Environment) (f : ConfigFile) : String :=
  if isHashed f.secret then f.secret else (rewritten env f).secret

/-- What is loaded was read from the file, and has been checked. -/
theorem exists_file_of_load (h : load env d = .ok (l, d')) :
    ∃ s f, d.file = .text s ∧ ConfigFile.parse? s = some f ∧
      check f (instanceId f.relay.instanceId env) = .ok () ∧
      l = .ofFile env f (secretOf env f) ∧
      d' = if isHashed f.secret then d else { d with file := .text (rewritten env f).render } := by
  cases hs : d.file with
  | nothing =>
    rw [load, hs] at h
    cases h
  | directory =>
    rw [load, hs] at h
    cases h
  | text s =>
    cases hf : ConfigFile.parse? s with
    | none =>
      rw [load, hs] at h
      simp only [Content.read, Except.mapError, bind, Except.bind, hf] at h
      cases h
    | some f =>
      refine ⟨s, f, rfl, hf, ?_⟩
      cases hh : isHashed f.secret with
      | true =>
        rw [load_of_isHashed hs hf hh] at h
        cases hcheck : check f (instanceId f.relay.instanceId env) with
        | error e =>
          rw [hcheck] at h
          cases h
        | ok u =>
          rw [hcheck] at h
          cases h
          exact ⟨rfl, by rw [secretOf, if_pos hh], rfl⟩
      | false =>
        obtain ⟨hcheck, -, hl, hd⟩ := load_eq_ok hs hf hh h
        exact ⟨hcheck, by rw [hl, secretOf, if_neg (by simp [hh])], hd⟩

/-- Nothing but the secret changes just if no other address was given. -/
theorem rewritten_eq_iff (env : Environment) (f : ConfigFile) :
    rewritten env f = { f with secret := (rewritten env f).secret } ↔
      ∀ a ∈ env.listen, a = f.listen := by
  have hlisten : rewritten env f = { f with secret := (rewritten env f).secret } ↔
      env.listen.getD f.listen = f.listen := by
    constructor
    · exact fun h => congrArg ConfigFile.listen h
    · intro h
      rw [rewritten, h]
  rw [hlisten]
  cases env.listen <;> simp

/-- What is known of a file that passed the checks. -/
structure Checked (f : ConfigFile) (id : String) : Prop where
  secret : Text.isBlank f.secret = false
  workers : 0 < f.relay.workers
  instanceId : Text.isBlank id = false
  room : longestWorkerId id f.relay.workers ≤ workerIdLimit
  relay : f.relay.config.validate = .ok ()
  cleaner : f.cleaner.validate = .ok ()

theorem checked_of_check {id : String} (h : check f id = .ok ()) : Checked f id := by
  simp only [check] at h
  split at h <;> rename_i hsecret
  · cases h
  split at h <;> rename_i hworkers
  · cases h
  split at h <;> rename_i hid
  · cases h
  rw [not_or, Bool.not_eq_true, Nat.not_lt] at hid
  cases hrelay : f.relay.config.validate with
  | error e =>
    rw [hrelay] at h
    cases h
  | ok u =>
    cases hcleaner : f.cleaner.validate with
    | error e =>
      rw [hrelay, hcleaner] at h
      cases h
    | ok u =>
      exact ⟨by simpa using hsecret, Nat.pos_of_ne_zero hworkers, hid.1, hid.2, hrelay, hcleaner⟩

/-- The new file passes the checks that the old one passed. -/
theorem check_rewritten (h : Text.isBlank f.secret = false) (env : Environment) (id : String) :
    check (rewritten env f) id = check f id := by
  have hhash : Text.isBlank (rewritten env f).secret = false := isBlank_text _
  simp only [check, h, hhash]
  rfl

/-- From the new file everything is loaded as from the old one, but for the address that was written
and for the hash. -/
theorem ofFile_rewritten {env' : Environment} (h : env'.listen = none) (env : Environment)
    (f : ConfigFile) (hash hash' : String) :
    Loaded.ofFile env' (rewritten env f) hash =
      { Loaded.ofFile env' f hash' with
        listen := env.listen.getD f.listen
        secretHash := hash
        hashed := false } := by
  have hhash : isHashed (rewritten env f).secret := isHashed_text _
  simp only [Loaded.ofFile, h, hhash]
  rfl

/-- A load that hashes the secret writes the file anew with nothing else changed just if it was
given no other address to listen on. A later load without such an address gives what the file as it
was would have given, but for the secret and for the address of the first load. -/
theorem rewritten_iff (hs : d.file = .text s) (hf : ConfigFile.parse? s = some f)
    (hh : isHashed f.secret = false) (hload : load env d = .ok (l, d')) :
    d' = { d with file := .text (rewritten env f).render } ∧
      (rewritten env f = { f with secret := l.secretHash } ↔ ∀ a ∈ env.listen, a = f.listen) ∧
      (ConfigFile.parse? (rewritten env f).render = some (rewritten env f) →
        ∀ env' : Environment, env'.listen = none →
          load env' d' = (load env' d).map fun p =>
            ({ p.1 with
                listen := env.listen.getD f.listen
                secretHash := l.secretHash
                hashed := false }, d')) := by
  obtain ⟨hcheck, hblocked, rfl, rfl⟩ := load_eq_ok hs hf hh hload
  refine ⟨rfl, rewritten_eq_iff env f, fun hround env' hlisten => ?_⟩
  -- the later load finds a hash in the new file, and in the old one it would make one
  have hhash : isHashed (rewritten env f).secret := isHashed_text _
  rw [load_of_isHashed rfl hround hhash, load_of_plain hs hf hh,
    check_rewritten (checked_of_check hcheck).secret, Disk.replace, if_neg (by simp [hblocked])]
  change (check f (instanceId f.relay.instanceId env')).map _ = _
  cases check f (instanceId f.relay.instanceId env') with
  | error e => rfl
  | ok u => exact congrArg (fun l => Except.ok (l, _)) (ofFile_rewritten hlisten env f _ _)

/-- A broker within the network. -/
def internalBroker : BrokerConfig :=
  { baseUrl :=
      { scheme := "http"
        authority := some ⟨"", none, .name "broker.internal", some 8080⟩
        path := .segments [""]
        query := none
        fragment := none }
    requestTimeout := BrokerConfig.defaultTimeout }

/-- A file with the secret given that asks to listen on a port. -/
def fileOn (port : Nat) (secret : String) : ConfigFile :=
  { listen := .v4 ⟨127, 0, 0, 1⟩ port
    secret
    relay := .default
    cleaner := .default
    broker := internalBroker }

theorem writable_internalBroker : internalBroker.Writable := ⟨by decide +kernel, by decide⟩

theorem parse?_fileOn {port : Nat} (secret : String)
    (h : SocketAddress.parse? (SocketAddress.v4 ⟨127, 0, 0, 1⟩ port).text =
      some (.v4 ⟨127, 0, 0, 1⟩ port)) :
    ConfigFile.parse? (fileOn port secret).render = some (fileOn port secret) :=
  ConfigFile.parse?_render
    ⟨h, RelaySection.writable_default, CleanerConfig.writable_default, writable_internalBroker⟩

/-- A file with a plain secret. -/
def plainFile : ConfigFile := fileOn 3000 "hunter2"

/-- A machine with a name, and the address to listen on that is given to it. -/
def host (listen : Option SocketAddress) : Environment :=
  { hostname := some "host-1", listen, freshId := .nil, salt := [] }

theorem instanceId_host (listen : Option SocketAddress) :
    instanceId none (host listen) = "host-1" := by
  have hname : (none.or (some "host-1")).filter (fun s => !Text.isBlank s) = some "host-1" := by
    decide +kernel
  rw [instanceId, host, hname]

theorem check_plainFile (listen : Option SocketAddress) :
    check plainFile (instanceId plainFile.relay.instanceId (host listen)) = .ok () := by
  have hid : instanceId plainFile.relay.instanceId (host listen) = "host-1" :=
    instanceId_host listen
  rw [hid]
  rfl

theorem parse?_plainFile : ConfigFile.parse? plainFile.render = some plainFile :=
  parse?_fileOn "hunter2" (by decide +kernel)

theorem load_plainFile (listen : Option SocketAddress) :
    load (host listen) ⟨.text plainFile.render, false⟩ =
      .ok (.ofFile (host listen) plainFile (rewritten (host listen) plainFile).secret,
        ⟨.text (rewritten (host listen) plainFile).render, false⟩) := by
  rw [load_of_plain rfl parse?_plainFile (by decide), check_plainFile]
  rfl

/-- The machine with another port than that of the file. -/
def elsewhere : Environment := host (some (.v4 ⟨127, 0, 0, 1⟩ 9999))

theorem parse?_elsewhere :
    ConfigFile.parse? (rewritten elsewhere plainFile).render =
      some (rewritten elsewhere plainFile) :=
  parse?_fileOn _ (by decide +kernel)

theorem rewritten_plainFile :
    let d : Disk := ⟨.text plainFile.render, false⟩
    d.file = .text plainFile.render ∧ ConfigFile.parse? plainFile.render = some plainFile ∧
      isHashed plainFile.secret = false ∧
      ∃ l d', load elsewhere d = .ok (l, d') ∧
        (rewritten elsewhere plainFile = { plainFile with secret := l.secretHash } ↔
          ∀ a ∈ elsewhere.listen, a = plainFile.listen) ∧
        load (host none) d' = (load (host none) d).map fun p =>
          ({ p.1 with
              listen := .v4 ⟨127, 0, 0, 1⟩ 9999
              secretHash := l.secretHash
              hashed := false }, d') := by
  obtain ⟨-, hsame, hagain⟩ := rewritten_iff rfl parse?_plainFile (by decide)
    (load_plainFile (some (.v4 ⟨127, 0, 0, 1⟩ 9999)))
  exact ⟨rfl, parse?_plainFile, by decide, _, _, load_plainFile _, hsame,
    hagain parse?_elsewhere (host none) rfl⟩

/-- Loaded once for another port, the file asks for that port from then on. -/
theorem override_is_written :
    let d : Disk := ⟨.text plainFile.render, false⟩
    ∃ l d', load elsewhere d = .ok (l, d') ∧
      (∃ g, d'.file = .text g.render ∧ ConfigFile.parse? g.render = some g ∧
        g ≠ { plainFile with secret := l.secretHash }) ∧
      (load (host none) d).map (·.1.listen) = .ok (.v4 ⟨127, 0, 0, 1⟩ 3000) ∧
      (load (host none) d').map (·.1.listen) = .ok (.v4 ⟨127, 0, 0, 1⟩ 9999) := by
  have hagain : load (host none) ⟨.text (rewritten elsewhere plainFile).render, false⟩ =
      .ok (.ofFile (host none) (rewritten elsewhere plainFile)
        (rewritten elsewhere plainFile).secret,
        ⟨.text (rewritten elsewhere plainFile).render, false⟩) := by
    have hcheck := (check_rewritten (f := plainFile) (by decide) elsewhere _).trans
      (check_plainFile none)
    rw [load_of_isHashed rfl parse?_elsewhere (isHashed_text _)]
    exact congrArg (Except.map _) hcheck
  refine ⟨_, _, load_plainFile _, ⟨_, rfl, parse?_elsewhere, fun h => ?_⟩, ?_, ?_⟩
  · exact absurd (congrArg ConfigFile.listen h) (by decide)
  · rw [load_plainFile]
    rfl
  · change (load (host none) ⟨.text (rewritten elsewhere plainFile).render, false⟩).map _ = _
    rw [hagain]
    rfl

end Outbox.Config
