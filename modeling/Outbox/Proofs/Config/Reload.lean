import Outbox.Config.Shared
import Outbox.Proofs.Config.Files
import Outbox.Proofs.Uuid

/-!
# All of a configuration takes effect, or nothing

A reload that fails at any point leaves the file and the settings in force as they were, and one
that is done puts all three groups of the file in force (`reload_all_or_nothing`). What is in force
was checked, after any number of reloads (`lawful_reloads`). A second load finds the hash that the
first one wrote.
-/

namespace Outbox.Config

variable {path : String} {env env' : Environment} {faults : Faults} {files files' : Files}
  {s s' : Shared} {l : Loaded} {f : ConfigFile} {id : String}

/-! ### Checks -/

theorem utf8ByteSize_ofList {cs : List Char} (h : ∀ c ∈ cs, c.utf8Size = 1) :
    (String.ofList cs).utf8ByteSize = cs.length := by
  induction cs with
  | nil => rfl
  | cons c cs ih =>
    obtain ⟨hc, hcs⟩ := List.forall_mem_cons.1 h
    rw [String.ofList_cons, String.utf8ByteSize_append, String.utf8ByteSize_singleton, hc, ih hcs,
      List.length_cons, Nat.add_comm]

theorem lt_of_mem_hexDigits {d k n : Nat} (h : d ∈ Uuid.hexDigits k n) : d < 16 := by
  induction k with
  | zero => cases h
  | succ k ih =>
    rcases List.mem_cons.1 h with rfl | h
    · exact Nat.mod_lt _ (by decide)
    · exact ih h

/-- All ids have texts of one length. -/
theorem utf8ByteSize_simple (u : Uuid) : u.simple.utf8ByteSize = 32 := by
  have hdigit : ∀ d < 16, (Text.lowerHexDigit d).utf8Size = 1 := by decide
  have hlength : u.digits.length = 32 := rfl
  rw [Uuid.simple, utf8ByteSize_ofList, hlength]
  intro c hc
  obtain ⟨d, hd, rfl⟩ := List.mem_map.1 hc
  exact hdigit d (lt_of_mem_hexDigits hd)

/-- With one fresh id in place of another a file passes the same checks. -/
theorem check_of_hostname (h : env'.hostname = env.hostname) (f : ConfigFile)
    (configured : Option String) :
    check f (instanceId configured env') = check f (instanceId configured env) := by
  have hblank : ∀ u : Uuid, Text.isBlank ("mopl-outbox-" ++ u.simple) = false := by
    intro u
    have hname : "mopl-outbox-".toList.all Text.isBlankChar = false := by decide
    rw [Text.isBlank, String.toList_append, List.all_append, hname, Bool.false_and]
  have hlongest : ∀ u : Uuid, longestWorkerId ("mopl-outbox-" ++ u.simple) f.relay.workers =
      longestWorkerId ("mopl-outbox-" ++ Uuid.nil.simple) f.relay.workers := by
    intro u
    simp only [longestWorkerId, String.utf8ByteSize_append, utf8ByteSize_simple]
  unfold instanceId
  rw [h]
  split
  · rfl
  · simp only [check, hblank, hlongest env'.freshId, hlongest env.freshId]

/-! ### Loading twice -/

/-- A load after one that succeeded on the same machine, with the same address to listen on, gives
the same settings and leaves the files alone. Only an id that is made up anew differs. -/
theorem loadAt_again (h : (loadAt path env faults).on files = (.ok l, files'))
    (hround : ∀ t f, files path = .text t → ConfigFile.parse? t = some f →
      ConfigFile.parse? (rewritten env f).render = some (rewritten env f))
    (hname : env'.hostname = env.hostname) (hlisten : env'.listen = env.listen) (faults' : Faults) :
    ∃ id, (loadAt path env' faults').on files' =
      (.ok { l with instanceId := id, hashed := false }, files') := by
  obtain ⟨t, f, ht, hf, hcheck, rfl, rfl⟩ := loadAt_ok h
  refine ⟨instanceId f.relay.instanceId env', ?_⟩
  cases hh : isHashed f.secret with
  | true =>
    have hagain := (check_of_hostname hname f f.relay.instanceId).trans hcheck
    rw [if_pos rfl, loadAt_of_isHashed ht hf hh, hagain]
    simp only [Loaded.ofFile, hlisten, secretOf, hh, if_true]
    rfl
  | false =>
    have hhash : isHashed (rewritten env f).secret := isHashed_text _
    have hagain := (check_rewritten (checked_of_check hcheck).secret env _).trans
      ((check_of_hostname hname f f.relay.instanceId).trans hcheck)
    have hfile : files.replaced path (rewritten env f).render path =
        .text (rewritten env f).render := replaced_self files path _
    have hgiven : env.listen.getD (env.listen.getD f.listen) = env.listen.getD f.listen := by
      cases env.listen <;> rfl
    rw [if_neg (by decide), loadAt_of_isHashed hfile (hround t f ht hf) hhash]
    change (Except.map _ (check (rewritten env f) (instanceId f.relay.instanceId env')), _) = _
    rw [hagain]
    simp only [Loaded.ofFile, hlisten, secretOf, hh, hhash]
    simp [rewritten, hgiven, Except.map]

/-! ### Reloading -/

/-- Loads the configuration file at a path again. -/
def reloadAt (path : String) (env : Environment) (faults : Faults) (files : Files) (s : Shared) :
    Reloaded × Shared × Files :=
  match (loadAt path env faults).on files with
  | (.ok l, files) => (.done, s.update l, files)
  | (.error e, files) => (.failed e, s, files)

/-- If no operation fails, loading and loading again at a path are `load` and `reload` of what lies
there. -/
structure AsRun (path : String) (env : Environment) (files : Files) (s : Shared) : Prop where
  loaded : ((loadAt path env .none).on files).1 = (load env (diskAt path files)).map Prod.fst
  reloaded : (reloadAt path env .none files s).1 = (reload env (diskAt path files) s).1
  shared : (reloadAt path env .none files s).2.1 = (reload env (diskAt path files) s).2.1
  file : (reloadAt path env .none files s).2.2 path = (reload env (diskAt path files) s).2.2.file

theorem asRun (path : String) (env : Environment) (files : Files) (s : Shared) :
    AsRun path env files s := by
  obtain ⟨hresult, hfile⟩ := loadAt_faultless path env files
  have hreload : (reloadAt path env .none files s).1 = (reload env (diskAt path files) s).1 ∧
      (reloadAt path env .none files s).2.1 = (reload env (diskAt path files) s).2.1 ∧
      (reloadAt path env .none files s).2.2 path =
        (reload env (diskAt path files) s).2.2.file := by
    unfold reloadAt reload
    rcases hat : (loadAt path env .none).on files with ⟨_ | _, files'⟩
    · rcases hload : load env (diskAt path files) with e | ⟨l, d⟩
      · rw [hat, hload] at hresult hfile
        cases hresult
        exact ⟨rfl, rfl, hfile⟩
      · rw [hat, hload] at hresult
        cases hresult
    · rcases hload : load env (diskAt path files) with e | ⟨l, d⟩
      · rw [hat, hload] at hresult
        cases hresult
      · rw [hat, hload] at hresult hfile
        cases hresult
        exact ⟨rfl, rfl, hfile⟩
  exact ⟨hresult, hreload.1, hreload.2.1, hreload.2.2⟩

/-- The settings in force are those of a file. -/
structure Shared.HasSections (s : Shared) (env : Environment) (f : ConfigFile) : Prop where
  /-- The secret of the file if that is a hash, or else the hash made of it. -/
  admin : s.admin.value = secretOf env f
  relay : s.relay.value = f.relay.config
  cleaner : s.cleaner.value = f.cleaner

/-- The settings in force are valid. -/
structure Shared.IsValid (s : Shared) : Prop where
  relay : s.relay.value.validate = .ok ()
  cleaner : s.cleaner.value.validate = .ok ()

theorem reloadAt_failed {e : LoadError}
    (h : reloadAt path env faults files s = (.failed e, s', files')) :
    files' path = files path ∧ s' = s := by
  unfold reloadAt at h
  split at h <;> rename_i hload
  · cases h
  · cases h
    exact ⟨loadAt_error hload (temporaryPath_ne path).symm, rfl⟩

theorem reloadAt_done (h : reloadAt path env faults files s = (.done, s', files')) :
    ∃ t f, files path = .text t ∧ ConfigFile.parse? t = some f ∧ s'.HasSections env f ∧
      s'.IsValid ∧ s'.versions = s.versions.map (· + 1) := by
  unfold reloadAt at h
  split at h <;> rename_i hload
  · cases h
    obtain ⟨t, f, ht, hf, hcheck, rfl, -⟩ := loadAt_ok hload
    have hchecked := checked_of_check hcheck
    exact ⟨t, f, ht, hf, ⟨rfl, rfl, rfl⟩, ⟨hchecked.relay, hchecked.cleaner⟩, rfl⟩
  · cases h

/-- Whatever the file says, and whatever goes wrong with the files while it is loaded or loaded
again, of which `load` and `reload` are the course without faults: after a failure the file is what
it was and the settings in force, with their versions, are the old ones; after a success the
sections of the file are in force, each group has been replaced once, and the settings are valid.
What was loaded is loaded again by the next load. -/
theorem reload_all_or_nothing (path : String) (env : Environment) (faults : Faults) (files : Files)
    (s : Shared) :
    AsRun path env files s ∧
    (∀ e files', (loadAt path env faults).on files = (.error e, files') →
      files' path = files path) ∧
    (∀ e s' files', reloadAt path env faults files s = (.failed e, s', files') →
      files' path = files path ∧ s' = s) ∧
    (∀ s' files', reloadAt path env faults files s = (.done, s', files') →
      ∃ t f, files path = .text t ∧ ConfigFile.parse? t = some f ∧ s'.HasSections env f ∧
        s'.IsValid ∧ s'.versions = s.versions.map (· + 1)) ∧
    (∀ l files', (loadAt path env faults).on files = (.ok l, files') →
      (∀ t f, files path = .text t → ConfigFile.parse? t = some f →
        ConfigFile.parse? (rewritten env f).render = some (rewritten env f)) →
      ∀ (env' : Environment) (faults' : Faults), env'.hostname = env.hostname →
        env'.listen = env.listen →
          ∃ id, (loadAt path env' faults').on files' =
            (.ok { l with instanceId := id, hashed := false }, files')) :=
  ⟨asRun path env files s,
    fun _ _ h => loadAt_error h (temporaryPath_ne path).symm,
    fun _ _ _ => reloadAt_failed,
    fun _ _ => reloadAt_done,
    fun _ _ h hround _ faults' hname hlisten => loadAt_again h hround hname hlisten faults'⟩

/-- A file with a plain secret, alone on its machine. -/
def alone : Files := Function.update (fun _ => .nothing) "outbox.toml" (.text plainFile.render)

theorem alone_path : alone "outbox.toml" = .text plainFile.render := Function.update_self ..

theorem loadAt_alone (faults : Faults) : (loadAt "outbox.toml" (host none) faults).on alone =
    match (replaceAt "outbox.toml" faults (rewritten (host none) plainFile).render).on alone with
      | (.ok _, files) =>
        (.ok (.ofFile (host none) plainFile (rewritten (host none) plainFile).secret), files)
      | (.error e, files) => (.error e, files) := by
  have hcheck : check plainFile (instanceId plainFile.relay.instanceId (host none)) = .ok () :=
    check_plainFile none
  rw [loadAt_of_plain alone_path parse?_plainFile (by decide)]
  split <;> rename_i h
  · cases hcheck.symm.trans h
  · rfl

theorem parse?_rewritten_plainFile : ConfigFile.parse? (rewritten (host none) plainFile).render =
    some (rewritten (host none) plainFile) := parse?_fileOn _ (by decide +kernel)

theorem alone_temporaryPath : alone (temporaryPath "outbox.toml") ≠ .directory := by
  rw [alone, Function.update_of_ne (temporaryPath_ne _)]
  decide

/-- The new text cannot be moved over the file. -/
def stuck : Faults := ⟨none, some .notFound⟩

theorem loadAt_stuck : ∃ files', (loadAt "outbox.toml" (host none) stuck).on alone =
    (.error (.file .notFound), files') := by
  rw [loadAt_alone, on_replaceAt, if_neg alone_temporaryPath]
  exact ⟨_, rfl⟩

theorem loadAt_none : (loadAt "outbox.toml" (host none) .none).on alone =
    (.ok (.ofFile (host none) plainFile (rewritten (host none) plainFile).secret),
      alone.replaced "outbox.toml" (rewritten (host none) plainFile).render) := by
  rw [loadAt_alone, on_replaceAt, if_neg alone_temporaryPath]
  rfl

theorem alone_all_or_nothing :
    let s : Shared := .new (.ofFile (host none) plainFile "")
    (∃ e files', reloadAt "outbox.toml" (host none) stuck alone s = (.failed e, s, files') ∧
      files' "outbox.toml" = alone "outbox.toml") ∧
    (∃ s' files', reloadAt "outbox.toml" (host none) .none alone s = (.done, s', files') ∧
      s'.IsValid ∧ s'.versions = [1, 1, 1]) ∧
    ∃ l files' id, (loadAt "outbox.toml" (host none) .none).on alone = (.ok l, files') ∧
      l.hashed = true ∧ (loadAt "outbox.toml" (host none) stuck).on files' =
        (.ok { l with instanceId := id, hashed := false }, files') := by
  intro s
  obtain ⟨files', hstuck⟩ := loadAt_stuck
  have hfailed : reloadAt "outbox.toml" (host none) stuck alone s =
      (.failed (.file .notFound), s, files') := by
    rw [reloadAt, hstuck]
  have hdone : reloadAt "outbox.toml" (host none) .none alone s =
      (.done, s.update (.ofFile (host none) plainFile (rewritten (host none) plainFile).secret),
        alone.replaced "outbox.toml" (rewritten (host none) plainFile).render) := by
    rw [reloadAt, loadAt_none]
  obtain ⟨-, -, hunchanged, -, -⟩ :=
    reload_all_or_nothing "outbox.toml" (host none) stuck alone s
  obtain ⟨-, -, -, hinForce, hagain⟩ :=
    reload_all_or_nothing "outbox.toml" (host none) .none alone s
  refine ⟨⟨_, _, hfailed, (hunchanged _ _ _ hfailed).1⟩, ?_, ?_⟩
  · obtain ⟨t, f, -, -, -, hvalid, hversions⟩ := hinForce _ _ hdone
    exact ⟨_, _, hdone, hvalid, hversions⟩
  · have hround : ∀ t f, alone "outbox.toml" = .text t → ConfigFile.parse? t = some f →
        ConfigFile.parse? (rewritten (host none) f).render = some (rewritten (host none) f) := by
      intro t f ht hf
      obtain rfl := Content.text.inj (alone_path.symm.trans ht)
      obtain rfl := Option.some.inj (parse?_plainFile.symm.trans hf)
      exact parse?_rewritten_plainFile
    obtain ⟨id, hid⟩ := hagain _ _ loadAt_none hround (host none) stuck rfl rfl
    exact ⟨_, _, id, loadAt_none, by decide, hid⟩

/-! ### Any number of reloads -/

/-- A time at which the configuration is loaded again. Others may have changed the files since. -/
structure Occasion where
  env : Environment
  faults : Faults
  files : Files

namespace Occasion

/-- Whether the configuration can be loaded. -/
def succeeds (path : String) (o : Occasion) : Bool :=
  ((loadAt path o.env o.faults).on o.files).1.isOk

/-- The settings in force once the configuration has been loaded again. -/
def settings (path : String) (s : Shared) (o : Occasion) : Shared :=
  (reloadAt path o.env o.faults o.files s).2.1

theorem settings_of_succeeds {o : Occasion} (h : o.succeeds path) (s : Shared) :
    (o.settings path s).IsValid ∧ (o.settings path s).versions = s.versions.map (· + 1) := by
  have hdone : ∃ s' files',
      reloadAt path o.env o.faults o.files s = (.done, s', files') := by
    unfold reloadAt
    rw [succeeds] at h
    split <;> rename_i hload
    · exact ⟨_, _, rfl⟩
    · rw [hload] at h
      cases h
  obtain ⟨s', files', hdone⟩ := hdone
  obtain ⟨-, -, -, -, -, hvalid, hversions⟩ := reloadAt_done hdone
  rw [settings, hdone]
  exact ⟨hvalid, hversions⟩

theorem settings_of_not_succeeds {o : Occasion} (h : ¬o.succeeds path) (s : Shared) :
    o.settings path s = s := by
  unfold settings reloadAt
  rw [succeeds] at h
  split <;> rename_i hload
  · rw [hload] at h
    exact absurd rfl h
  · rfl

end Occasion

theorem lawful_reloads_from (hs : s.IsValid) (path : String) (os : List Occasion) :
    (os.foldl (Occasion.settings path) s).IsValid ∧
      (os.foldl (Occasion.settings path) s).versions =
        s.versions.map (· + os.countP (Occasion.succeeds path)) := by
  induction os generalizing s with
  | nil => exact ⟨hs, (List.map_id _).symm⟩
  | cons o os ih =>
    rw [List.foldl_cons]
    by_cases ho : o.succeeds path
    · obtain ⟨hvalid, hversions⟩ := Occasion.settings_of_succeeds ho s
      obtain ⟨hlast, hcount⟩ := ih hvalid
      refine ⟨hlast, ?_⟩
      rw [hcount, hversions, List.map_map, List.countP_cons_of_pos ho]
      exact List.map_congr_left fun n _ => Nat.add_right_comm n 1 _
    · rw [Occasion.settings_of_not_succeeds ho, List.countP_cons_of_neg ho]
      exact ih hs

/-- A program that started with a configuration it loaded has valid settings in force after any
number of reloads, and has replaced each group as often as a reload was done. -/
theorem lawful_reloads (h : (loadAt path env faults).on files = (.ok l, files'))
    (os : List Occasion) :
    (os.foldl (Occasion.settings path) (.new l)).IsValid ∧
      (os.foldl (Occasion.settings path) (.new l)).versions =
        List.replicate 3 (os.countP (Occasion.succeeds path)) := by
  obtain ⟨t, f, -, -, hcheck, rfl, -⟩ := loadAt_ok h
  have hchecked := checked_of_check hcheck
  have hfirst : (Shared.new (.ofFile env f (secretOf env f))).IsValid :=
    ⟨hchecked.relay, hchecked.cleaner⟩
  obtain ⟨hvalid, hversions⟩ := lawful_reloads_from hfirst path os
  refine ⟨hvalid, hversions.trans ?_⟩
  simp [Shared.new, Shared.versions, Cell.new, List.replicate]

end Outbox.Config
