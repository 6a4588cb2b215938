import Outbox.Proofs.Config.Rewrite
import Mathlib.Logic.Function.Basic

/-!
# Loading, one file operation after another

A load reads the file, and one that hashes the secret writes the new text beside it and then moves
it over the file. Each of these can fail, and what was done up to then stays done: `loadAt` keeps
the files that a failed load leaves behind. Without such a failure it is `load`
(`loadAt_faultless`), and with any failure the file itself is what it was (`loadAt_error`).
-/

namespace Outbox.Config

open Secret

/-- What lies at the paths of a machine. -/
abbrev Files := String → Content

/-- What goes wrong while the new text is written, apart from what lies at the paths. -/
structure Faults where
  /-- Writing ends early, and leaves this behind. -/
  write : Option (FileFault × String)
  move : Option FileFault

def Faults.none : Faults := ⟨.none, .none⟩

/-- Work on files that can fail; what it did before stays done. -/
abbrev FileM := ExceptT LoadError (StateM Files)

/-- What becomes of the files, and how the work on them ended. -/
def FileM.on {α : Type} (x : FileM α) (files : Files) : Except LoadError α × Files :=
  x.run.run files

def writeFile (fault : Option (FileFault × String)) (path text : String) : FileM Unit := do
  if (← get) path = .directory then throw (.file .isDirectory)
  match fault with
  | some (e, left) =>
    modify fun files => Function.update files path (.text left)
    throw (.file e)
  | none => modify fun files => Function.update files path (.text text)

/-- Moves a file over another. -/
def moveFile (fault : Option FileFault) (source target : String) : FileM Unit := do
  match fault with
  | some e => throw (.file e)
  | none =>
    modify fun files =>
      Function.update (Function.update files target (files source)) source .nothing

/-- Puts a new text in the place of a file. -/
def replaceAt (path : String) (faults : Faults) (text : String) : FileM Unit := do
  writeFile faults.write (temporaryPath path) text
  moveFile faults.move (temporaryPath path) path

/-- Replaces a plain secret by its hash, and writes the file anew. -/
def hashSecretAt (path : String) (env : Environment) (faults : Faults) (f : ConfigFile) :
    FileM ConfigFile := do
  if isHashed f.secret then return f
  let hash := Phc.ofSecret Phc.defaultParams env.salt f.secret
  let f := { f with secret := hash.text }
  replaceAt path faults f.render
  return f

/-- Loads the configuration file at a path. -/
def loadAt (path : String) (env : Environment) (faults : Faults) : FileM Loaded := do
  let text ← MonadExcept.ofExcept (((← get) path).read.mapError .file)
  let some f := ConfigFile.parse? text | throw .malformed
  let f := { f with listen := env.listen.getD f.listen }
  let instanceId := instanceId f.relay.instanceId env
  MonadExcept.ofExcept (check f instanceId)
  let hashed := !isHashed f.secret
  let f ← hashSecretAt path env faults f
  return {
    listen := f.listen
    secretHash := f.secret
    relay := f.relay.config
    cleaner := f.cleaner
    broker := f.broker
    workers := f.relay.workers
    instanceId
    hashed }

variable {α β : Type} {path : String} {env : Environment} {faults : Faults} {files files' : Files}
  {l : Loaded} {e : LoadError} {s : String} {f g : ConfigFile}

/-! ### Work on files -/

namespace FileM

@[simp] theorem on_pure (a : α) (files : Files) : on (pure a) files = (.ok a, files) := rfl

@[simp] theorem on_throw (e : LoadError) (files : Files) :
    on (throw e : FileM α) files = (.error e, files) := rfl

@[simp] theorem on_get (files : Files) : on get files = (.ok files, files) := rfl

@[simp] theorem on_modify (h : Files → Files) (files : Files) :
    on (modify h) files = (.ok ⟨⟩, h files) := rfl

@[simp] theorem on_ofExcept (x : Except LoadError α) (files : Files) :
    on (MonadExcept.ofExcept x) files = (x, files) := by
  cases x <;> rfl

@[simp] theorem on_bind (x : FileM α) (h : α → FileM β) (files : Files) :
    on (x >>= h) files = match x.on files with
      | (.ok a, files) => (h a).on files
      | (.error e, files) => (.error e, files) := by
  rcases hx : x.on files with ⟨_ | _, files'⟩
  all_goals
    rw [on] at hx
    simp only [on, ExceptT.run_bind, StateT.run_bind]
    rw [hx]
    rfl

end FileM

theorem on_writeFile (fault : Option (FileFault × String)) (path text : String) (files : Files) :
    (writeFile fault path text).on files =
      if files path = .directory then (.error (.file .isDirectory), files)
      else match fault with
        | some (e, left) => (.error (.file e), Function.update files path (.text left))
        | none => (.ok ⟨⟩, Function.update files path (.text text)) := by
  simp only [writeFile, FileM.on_bind, FileM.on_get]
  split
  · rfl
  · cases fault <;> simp

theorem on_moveFile (fault : Option FileFault) (source target : String) (files : Files) :
    (moveFile fault source target).on files = match fault with
      | some e => (.error (.file e), files)
      | none => (.ok ⟨⟩,
        Function.update (Function.update files target (files source)) source .nothing) := by
  cases fault <;> simp [moveFile]

/-! ### Replacing a file -/

/-- The new text is never written over the file itself. -/
theorem temporaryPath_ne (path : String) : temporaryPath path ≠ path := by
  intro heq
  have htext := congrArg String.toList heq
  simp only [temporaryPath, String.toList_append, String.toList_ofList] at htext
  generalize hfolder : (path.toList.reverse.dropWhile (· ≠ '/')).reverse = folder at htext
  generalize hname : (path.toList.reverse.takeWhile (· ≠ '/')).reverse = name at htext
  have hpath : folder ++ name = path.toList := by
    rw [← hfolder, ← hname, ← List.reverse_append, List.takeWhile_append_dropWhile,
      List.reverse_reverse]
  rw [← hpath, List.append_assoc] at htext
  have hbehind := List.append_cancel_left htext
  split at hbehind
  · have hlength := congrArg List.length hbehind
    simp at hlength
  · -- the name has an ending of its own, and without it would not be shorter by two
    generalize hstem : (name.reverse.dropWhile (· ≠ '.')).tail.reverse = stem at hbehind
    have hlength := congrArg List.length hstem
    rw [← hbehind] at hlength
    simp at hlength

/-- The files with a new text in the place of a file. -/
def Files.replaced (files : Files) (path text : String) : Files :=
  Function.update (Function.update files path (.text text)) (temporaryPath path) .nothing

theorem on_replaceAt (path : String) (faults : Faults) (text : String) (files : Files) :
    (replaceAt path faults text).on files =
      if files (temporaryPath path) = .directory then (.error (.file .isDirectory), files)
      else match faults.write, faults.move with
        | some (e, left), _ =>
          (.error (.file e), Function.update files (temporaryPath path) (.text left))
        | none, some e =>
          (.error (.file e), Function.update files (temporaryPath path) (.text text))
        | none, none => (.ok ⟨⟩, files.replaced path text) := by
  rw [replaceAt, FileM.on_bind, on_writeFile]
  by_cases hdirectory : files (temporaryPath path) = .directory
  · rw [if_pos hdirectory, if_pos hdirectory]
  · rw [if_neg hdirectory, if_neg hdirectory]
    cases faults.write with
    | some p => rfl
    | none =>
      simp only [on_moveFile]
      cases faults.move with
      | some e => rfl
      | none =>
        have hmoved : Function.update (Function.update (Function.update files
            (temporaryPath path) (.text text)) path (.text text)) (temporaryPath path) .nothing =
            files.replaced path text := by
          rw [Function.update_comm (temporaryPath_ne path), Function.update_idem]
          rfl
        simp only [Function.update_self, hmoved]

/-- Whatever goes wrong while a file is replaced, only what lies beside it is changed. -/
theorem replaceAt_error {text p : String}
    (h : (replaceAt path faults text).on files = (.error e, files')) (hp : p ≠ temporaryPath path) :
    files' p = files p := by
  rw [on_replaceAt] at h
  split at h
  · cases h
    rfl
  · split at h
    · cases h
      exact Function.update_of_ne hp _ _
    · cases h
      exact Function.update_of_ne hp _ _
    · cases h

/-- A file that was replaced has the new text. -/
theorem replaceAt_ok {text : String} {u : Unit}
    (h : (replaceAt path faults text).on files = (.ok u, files')) :
    files' = files.replaced path text := by
  rw [on_replaceAt] at h
  split at h
  · cases h
  · split at h
    · cases h
    · cases h
    · cases h
      rfl

theorem replaced_self (files : Files) (path text : String) :
    files.replaced path text path = .text text := by
  rw [Files.replaced, Function.update_of_ne (temporaryPath_ne path).symm, Function.update_self]

/-! ### Loading -/

section
variable (hs : files path = .text s) (hf : ConfigFile.parse? s = some f)
include hs hf

/-- A file with a hash is left alone. -/
theorem loadAt_of_isHashed (hh : isHashed f.secret) (faults : Faults) :
    (loadAt path env faults).on files = ((check f (instanceId f.relay.instanceId env)).map
      fun _ => .ofFile env f f.secret, files) := by
  have hsecret : ∀ g : ConfigFile, g.secret = f.secret → hashSecretAt path env faults g = pure g :=
    fun g hg => if_pos (hg ▸ hh)
  have hread : (files path).read.mapError LoadError.file = .ok s := by rw [hs]; rfl
  simp only [loadAt, FileM.on_bind, FileM.on_get, FileM.on_ofExcept, hread, hf, hsecret,
    check_listen, FileM.on_pure]
  cases check f (instanceId f.relay.instanceId env) <;> rfl

/-- A plain secret is replaced once the file has been checked. -/
theorem loadAt_of_plain (hh : isHashed f.secret = false) (faults : Faults) :
    (loadAt path env faults).on files =
      match check f (instanceId f.relay.instanceId env) with
      | .error e => (.error e, files)
      | .ok _ => match (replaceAt path faults (rewritten env f).render).on files with
        | (.ok _, files) => (.ok (.ofFile env f (rewritten env f).secret), files)
        | (.error e, files) => (.error e, files) := by
  have hsecret : hashSecretAt path env faults { f with listen := env.listen.getD f.listen } = do
      replaceAt path faults (rewritten env f).render
      return rewritten env f := if_neg (by simp [hh])
  have hread : (files path).read.mapError LoadError.file = .ok s := by rw [hs]; rfl
  simp only [loadAt, FileM.on_bind, FileM.on_get, FileM.on_ofExcept, hread, hf, hsecret,
    check_listen, FileM.on_pure]
  cases check f (instanceId f.relay.instanceId env) with
  | error e => rfl
  | ok u =>
    simp only
    rcases (replaceAt path faults (rewritten env f).render).on files with ⟨_ | _, files'⟩
    · rfl
    · rfl

end

/-- The disk as it is for a load to which no operation fails. -/
def diskAt (path : String) (files : Files) : Disk :=
  ⟨files path, files (temporaryPath path) = .directory⟩

/-- What cannot be read is not loaded. -/
theorem loadAt_of_unread (h : ¬∃ s f, files path = .text s ∧ ConfigFile.parse? s = some f)
    (env : Environment) (faults : Faults) :
    ∃ e, (loadAt path env faults).on files = (.error e, files) ∧
      load env (diskAt path files) = .error e := by
  cases hs : files path with
  | nothing =>
    refine ⟨.file .notFound, ?_, ?_⟩
    · simp only [loadAt, FileM.on_bind, FileM.on_get, FileM.on_ofExcept, hs]
      rfl
    · rw [load, diskAt, hs]
      rfl
  | directory =>
    refine ⟨.file .isDirectory, ?_, ?_⟩
    · simp only [loadAt, FileM.on_bind, FileM.on_get, FileM.on_ofExcept, hs]
      rfl
    · rw [load, diskAt, hs]
      rfl
  | text s =>
    have hf : ConfigFile.parse? s = none :=
      Option.eq_none_iff_forall_ne_some.2 fun f hf => h ⟨s, f, hs, hf⟩
    have hread : (Content.text s).read.mapError LoadError.file = .ok s := rfl
    refine ⟨.malformed, ?_, ?_⟩
    · simp only [loadAt, FileM.on_bind, FileM.on_get, FileM.on_ofExcept, hs, hread, hf]
      rfl
    · rw [load, diskAt, hs]
      simp only [hread, bind, Except.bind, hf]
      rfl

/-- Wherever a load fails, only what lies beside the file is changed. -/
theorem loadAt_error {p : String} (h : (loadAt path env faults).on files = (.error e, files'))
    (hp : p ≠ temporaryPath path) : files' p = files p := by
  by_cases hread : ∃ s f, files path = .text s ∧ ConfigFile.parse? s = some f
  · obtain ⟨s, f, hs, hf⟩ := hread
    cases hh : isHashed f.secret with
    | true =>
      rw [loadAt_of_isHashed hs hf hh] at h
      obtain ⟨-, rfl⟩ := Prod.mk.inj h
      rfl
    | false =>
      rw [loadAt_of_plain hs hf hh] at h
      split at h
      · cases h
        rfl
      · split at h <;> rename_i hreplace
        · cases h
        · cases h
          exact replaceAt_error hreplace hp
  · obtain ⟨e', he', -⟩ := loadAt_of_unread hread env faults
    rw [he'] at h
    cases h
    rfl

/-- What is loaded was read from the file and has been checked; if the secret was plain, the file
has been replaced. -/
theorem loadAt_ok (h : (loadAt path env faults).on files = (.ok l, files')) :
    ∃ s f, files path = .text s ∧ ConfigFile.parse? s = some f ∧
      check f (instanceId f.relay.instanceId env) = .ok () ∧
      l = .ofFile env f (secretOf env f) ∧
      files' = if isHashed f.secret then files
        else files.replaced path (rewritten env f).render := by
  by_cases hread : ∃ s f, files path = .text s ∧ ConfigFile.parse? s = some f
  · obtain ⟨s, f, hs, hf⟩ := hread
    refine ⟨s, f, hs, hf, ?_⟩
    cases hh : isHashed f.secret with
    | true =>
      rw [loadAt_of_isHashed hs hf hh] at h
      cases hcheck : check f (instanceId f.relay.instanceId env) with
      | error e =>
        rw [hcheck] at h
        cases h
      | ok u =>
        rw [hcheck] at h
        cases h
        exact ⟨rfl, by rw [secretOf, if_pos hh], rfl⟩
    | false =>
      rw [loadAt_of_plain hs hf hh] at h
      split at h <;> rename_i hcheck
      · cases h
      · split at h <;> rename_i hreplace
        · cases h
          exact ⟨hcheck, by rw [secretOf, if_neg (by simp [hh])], replaceAt_ok hreplace⟩
        · cases h
  · obtain ⟨e', he', -⟩ := loadAt_of_unread hread env faults
    rw [he'] at h
    cases h

/-- A load to which no operation fails gives what `load` gives, and leaves the file that it
leaves. -/
theorem loadAt_faultless (path : String) (env : Environment) (files : Files) :
    ((loadAt path env .none).on files).1 = (load env (diskAt path files)).map Prod.fst ∧
      ((loadAt path env .none).on files).2 path =
        (diskAfter (diskAt path files) (load env (diskAt path files))).file := by
  by_cases hread : ∃ s f, files path = .text s ∧ ConfigFile.parse? s = some f
  · obtain ⟨s, f, hs, hf⟩ := hread
    cases hh : isHashed f.secret with
    | true =>
      rw [loadAt_of_isHashed hs hf hh, load_of_isHashed hs hf hh]
      cases check f (instanceId f.relay.instanceId env) <;> exact ⟨rfl, rfl⟩
    | false =>
      rw [loadAt_of_plain hs hf hh, load_of_plain hs hf hh, on_replaceAt, Disk.replace]
      cases check f (instanceId f.relay.instanceId env) with
      | error e => exact ⟨rfl, rfl⟩
      | ok u =>
        by_cases hdirectory : files (temporaryPath path) = .directory
        · simp only [diskAt, hdirectory, decide_true, if_true]
          exact ⟨rfl, rfl⟩
        · simp only [diskAt, hdirectory, decide_false, if_false, Faults.none]
          exact ⟨rfl, replaced_self files path _⟩
  · obtain ⟨e, hat, hload⟩ := loadAt_of_unread hread env .none
    rw [hat, hload]
    exact ⟨rfl, rfl⟩

end Outbox.Config
