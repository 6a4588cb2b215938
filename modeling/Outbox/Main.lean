import Outbox.Log.Render
import Outbox.Program.Startup

/-!
# The program

Reads the command line, the environment and the configuration file, starts up, and writes the log.
The way to the database is closed, so starting up ends there at the latest.
-/

open Outbox Program

def contentOf (path : String) : IO Config.Content := do
  match ← (IO.FS.readFile path).toBaseIO with
  | .ok s => return .text s
  | .error (.noFileOrDirectory ..) => return .nothing
  | .error _ => return .directory

/-- The file at a path, with what lies beside it. -/
def readDisk (path : String) : IO Config.Disk := do
  let beside ← contentOf (Config.temporaryPath path)
  return { file := ← contentOf path, blocked := beside = .directory }

/-- Puts a new text in the place of a file. -/
def replaceFile (path text : String) : IO Unit := do
  IO.FS.writeFile (Config.temporaryPath path) text
  IO.FS.rename (Config.temporaryPath path) path

/-- Starts the program; its exit code. -/
def runProgram (o : Options) : IO UInt32 := do
  let disk ← readDisk o.config
  let random ← IO.getRandomBytes 32
  let number (bs : List UInt8) : Nat := bs.foldl (fun n b => n * 256 + b.toNat) 0
  let out := start o {
    env := {
      hostname := ← IO.getEnv "HOSTNAME"
      listen := o.listen
      freshId := .timed 0 (number (random.toList.drop 16))
      salt := random.toList.take 16 }
    disk
    databaseUrl := ← IO.getEnv "DATABASE_URL"
    connect := fun _ => .error .noNetwork }
  if out.disk ≠ disk then
    if let .text text := out.disk.file then replaceFile o.config text
  let filter := Log.Filter.ofText (← IO.getEnv "RUST_LOG")
  for l in out.log.filter filter.keeps do IO.println (l.render o.logJson)
  match out.result with
  | .ok _ => return 0
  | .error f =>
    IO.eprintln f.report
    return 1

def main (args : List String) : IO UInt32 := do
  match Request.ofArgs args (← IO.getEnv "MOPL_LOG_JSON") with
  | .run o => runProgram o
  | .version =>
    IO.println nameVersion
    return 0
  | .help =>
    IO.println usage
    return 0
  | .refused =>
    IO.eprintln usage
    return 2
