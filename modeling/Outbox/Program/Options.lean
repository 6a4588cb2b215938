import Outbox.Net.SocketAddress

/-!
# The command line

Arguments are read from left to right, and the first that decides ends the reading: a wish for help
or for the version, or an argument that cannot be understood.
-/

namespace Outbox.Program

open Net

/-- What the command line asks for. -/
structure Options where
  /-- The path of the configuration file. -/
  config : String
  /-- An address to listen on in place of the one in the file. -/
  listen : Option SocketAddress
  /-- Bring the database up to date first. -/
  migrate : Bool
  /-- Write the log as JSON. -/
  logJson : Bool
  deriving DecidableEq, Repr

/-- Where the configuration file lies unless asked otherwise. -/
def defaultConfig : String := "./mopl-outbox.toml"

/-- What the command line can say. -/
def usage : String :=
  "\n".intercalate
    ["mopl outbox relay - delivers outbox entries to the message broker", "",
      "Usage: mopl-outbox-server [OPTIONS]", "",
      "Options:",
      "  -c, --config <CONFIG>  Path to the configuration file [default: ./mopl-outbox.toml]",
      "  -l, --listen <LISTEN>  Override the listen address (e.g., 0.0.0.0:3000)",
      "      --migrate          Run database migrations on startup",
      "      --log-json         Emit logs as JSON lines [env: MOPL_LOG_JSON=]",
      "  -h, --help             Print help",
      "  -V, --version          Print version"]

/-- What to do. -/
inductive Request
  | run (o : Options)
  | help
  | version
  /-- The arguments cannot be understood. -/
  | refused
  deriving DecidableEq, Repr

/-- What has been read of the command line. -/
structure Reading where
  config : Option String
  listen : Option SocketAddress
  migrate : Bool
  logJson : Bool

/-- An option that takes a value. -/
inductive Valued
  | config
  | listen

namespace Reading

def empty : Reading := ⟨none, none, false, false⟩

/-- Takes over the value of an option, which is given once. -/
def take? (r : Reading) (value : String) : Valued → Option Reading
  | .config => if r.config.isSome ∨ value.isEmpty then none else some { r with config := value }
  | .listen =>
    if r.listen.isSome then none
    else (SocketAddress.parse? value).map fun a => { r with listen := some a }

/-- What was read, with the default for logging and the default of the path. -/
def options (r : Reading) (logJson : Bool) : Options :=
  { config := r.config.getD defaultConfig
    listen := r.listen
    migrate := r.migrate
    logJson := r.logJson || logJson }

end Reading

/-- The option of a long name. -/
def longOption? : List Char → Option Valued
  | ['c', 'o', 'n', 'f', 'i', 'g'] => some .config
  | ['l', 'i', 's', 't', 'e', 'n'] => some .listen
  | _ => none

def shortOption? : Char → Option Valued
  | 'c' => some .config
  | 'l' => some .listen
  | _ => none

/-- The outcome of one argument. -/
inductive Step
  | next (r : Reading)
  /-- The value of the option is the next argument. -/
  | needs (v : Valued)
  | stop (r : Request)

/-- The step of an option with its value. -/
def Step.ofValue (r : Reading) (v : Valued) (value : List Char) : Step :=
  match r.take? (String.ofList value) v with
  | some r => .next r
  | none => .stop .refused

/-- Reads an argument behind two dashes. -/
def longStep (r : Reading) (cs : List Char) : Step :=
  let name := cs.takeWhile (· ≠ '=')
  match longOption? name, cs.dropWhile (· ≠ '=') with
  | some v, [] => .needs v
  | some v, _ :: value => .ofValue r v value
  | none, _ :: _ => .stop .refused
  | none, [] =>
    if name = "help".toList then .stop .help
    else if name = "version".toList then .stop .version
    else if name = "migrate".toList ∧ ¬r.migrate then .next { r with migrate := true }
    else if name = "log-json".toList ∧ ¬r.logJson then .next { r with logJson := true }
    else .stop .refused

/-- Reads an argument behind one dash. -/
def shortStep (r : Reading) : List Char → Step
  | 'h' :: _ => .stop .help
  | 'V' :: _ => .stop .version
  | c :: rest =>
    match shortOption? c, rest with
    | some v, [] => .needs v
    | some v, '=' :: value => .ofValue r v value
    | some v, value => .ofValue r v value
    | none, _ => .stop .refused
  | [] => .stop .refused

def step (r : Reading) (arg : String) : Step :=
  match arg.toList with
  | '-' :: '-' :: cs => longStep r cs
  | '-' :: c :: cs => shortStep r (c :: cs)
  | _ => .stop .refused

/-- The argument can be the value of an option. -/
def isValue (arg : String) : Bool :=
  match arg.toList with
  | '-' :: _ :: _ => false
  | _ => true

/-- Reads the arguments that remain; two dashes alone end the options, and nothing may follow. -/
def readArgs : Reading → List String → Except Request Reading
  | r, [] => .ok r
  | r, [a] =>
    if a = "--" then .ok r
    else
      match step r a with
      | .next r => .ok r
      | .needs _ => .error .refused
      | .stop q => .error q
  | r, a :: b :: rest =>
    match step r a with
    | .next r => readArgs r (b :: rest)
    | .needs v =>
      if ¬isValue b then .error .refused
      else
        match r.take? b v with
        | some r => readArgs r rest
        | none => .error .refused
    | .stop q => .error q

/-- A truth value of the environment. -/
def truth? : Option String → Option Bool
  | none => some false
  | some "true" => some true
  | some "false" => some false
  | some _ => none

/-- Reads the command line. The environment says whether the log is written as JSON if no argument
does. -/
def Request.ofArgs (args : List String) (logJson : Option String) : Request :=
  match readArgs .empty args with
  | .error q => q
  | .ok r =>
    if r.logJson then .run (r.options true)
    else
      match truth? logJson with
      | some b => .run (r.options b)
      | none => .refused

end Outbox.Program
