import Outbox.Admin.Handler
import Outbox.Config.Shared
import Outbox.Log.Filter
import Outbox.Program.Options
import Outbox.Store.Error
import Outbox.Text.Quoted

/-!
# Starting up

The program loads its configuration and connects to the database, and logs each step. The first
failure ends it.
-/

namespace Outbox.Program

open Config Log

def name : String := "mopl-outbox-server"

/-- The name of the program with its version. -/
def nameVersion : String := name ++ " " ++ Admin.version

/-- What ends the program. -/
inductive Failure
  | configuration (e : LoadError)
  /-- The environment does not say where the database is. -/
  | noDatabaseUrl
  | database (e : DatabaseError)

namespace Failure

def message : Failure → String
  | configuration e => e.message
  | noDatabaseUrl => "DATABASE_URL environment variable not set"
  | database e => e.message

/-- What is logged about a failure. -/
def logged : Failure → String
  | configuration e => "Failed to load configuration: " ++ e.message
  | noDatabaseUrl => noDatabaseUrl.message
  | database e => "Failed to connect to database: " ++ e.message

/-- What is written about a failure when the program ends. -/
def report (f : Failure) : String := "Error: " ++ f.message

end Failure

/-- What the program depends on when it starts. -/
structure Surroundings where
  env : Environment
  disk : Disk
  /-- Where the database is. -/
  databaseUrl : Option String
  /-- The way to the database at an address. -/
  connect : Url → Except DatabaseError Unit

/-- How starting up ended. -/
structure Outcome where
  /-- The log, in order. -/
  log : List Line
  result : Except Failure Loaded
  disk : Disk

/-- The target of what the program itself says. -/
def mainTarget : String := "mopl_outbox_server"

/-- The target of what loading the configuration says. -/
def configTarget : String := mainTarget ++ "::config"

def info (message : String) : Line := ⟨.info, mainTarget, message⟩

/-- The line about a secret that was hashed. -/
def hashedLine : Line := ⟨.info, configTarget, "Admin secret hashed and config file updated"⟩

def Failure.line (f : Failure) : Line := ⟨.error, mainTarget, f.logged⟩

/-- One character of a path between quotes; a single quote is escaped too. -/
def showPathChar (c : Char) : List Char := if c = '\'' then ['\\', c] else Text.showChar c

def showPath (path : String) : String :=
  String.ofList ('"' :: path.toList.flatMap showPathChar ++ ['"'])

def connect (s : Surroundings) : Except Failure Unit := do
  let some text := s.databaseUrl | throw .noDatabaseUrl
  let url ← (Url.parse text).mapError fun e => .database (.misconfigured e.message)
  (s.connect url).mapError .database

/-- The lines about the way to the database. -/
def connectLines (s : Surroundings) : List Line :=
  (if s.databaseUrl.isSome then [info "Connecting to database..."] else []) ++
    match connect s with
    | .ok () => [info "Database connection established"]
    | .error f => [f.line]

/-- Starts the program with the options given. -/
def start (o : Options) (s : Surroundings) : Outcome :=
  let first := info ("Starting " ++ name ++ " v" ++ Admin.version)
  match load { s.env with listen := o.listen } s.disk with
  | .error e =>
    { log := [first, (Failure.configuration e).line]
      result := .error (.configuration e)
      disk := s.disk }
  | .ok (l, disk) =>
    let hashed := if l.hashed then [hashedLine] else []
    { log := first :: hashed ++ info ("Configuration loaded from " ++ showPath o.config) ::
        connectLines s
      result := (connect s).map fun () => l
      disk }

end Outbox.Program
