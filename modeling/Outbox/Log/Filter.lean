import Outbox.Text.Blank
import Outbox.Text.Digit

/-!
# Which log lines are kept

A filter is a list of directives. Of those whose target begins the target of a line, the longest
decides; a line is kept if it is at least as severe as the directive asks.
-/

namespace Outbox.Log

/-- How severe a line is. -/
inductive Level
  | error
  | warn
  | info
  | debug
  | trace
  deriving DecidableEq, Repr

namespace Level

/-- The rank of a level, the most severe first. -/
def rank : Level → Nat
  | error => 1
  | warn => 2
  | info => 3
  | debug => 4
  | trace => 5

def name : Level → String
  | error => "ERROR"
  | warn => "WARN"
  | info => "INFO"
  | debug => "DEBUG"
  | trace => "TRACE"

end Level

/-- A line of the log. -/
structure Line where
  level : Level
  /-- The part of the program that says it. -/
  target : String
  message : String
  deriving DecidableEq, Repr

/-- A rule for the lines of a target. -/
structure Directive where
  /-- What the target begins with. -/
  target : String
  /-- The rank up to which lines are kept; none at zero. -/
  limit : Nat
  deriving DecidableEq, Repr

abbrev Filter := List Directive

namespace Filter

/-- What is kept unless asked otherwise: everything from what informs on. -/
def default : Filter := [⟨"", Level.info.rank⟩]

/-- Errors alone. -/
def errorsOnly : Filter := [⟨"", Level.error.rank⟩]

/-- The names of the limits, in order. -/
def limitNames : List String := ["off", "error", "warn", "info", "debug", "trace"]

/-- The limit of a name or a number. -/
def limit? (cs : List Char) : Option Nat :=
  let digits := if cs.head? = some '+' then cs.tail else cs
  (Text.below? 10 limitNames.length digits).or
    (limitNames.findIdx? (· = String.ofList (cs.map Char.toLower)))

/-- The limit behind a target; a directive that names none keeps everything. -/
def limitBehind? : List Char → Option Nat
  | [] | ['='] => some Level.trace.rank
  | '=' :: r => limit? r
  | _ => none

/-- A character with which a target can begin; those beyond ASCII count as letters. -/
def opensTarget (c : Char) : Bool :=
  c.isAlphanum || 0x80 ≤ c.toNat || c = '_' || c = ':' || c = '-'

/-- Takes off a span behind its opening bracket. Fields of the span stand in braces before the
closing bracket. -/
def takeSpan? (cs : List Char) : Option (List Char) :=
  match cs.dropWhile fun c => c ≠ ']' && c ≠ '\x7b' with
  | ']' :: r => some r
  | _ :: r =>
    match r.takeWhile (· ≠ '\x7d'), r.dropWhile (· ≠ '\x7d') with
    | _ :: _, _ :: ']' :: rest => some rest
    | _, _ => none
  | [] => none

/-- Reads one directive: a limit, a target, a target with its limit, or something about the lines
within a span. There are no spans here, so nothing follows from the last. -/
def directive? (cs : List Char) : Option (Option Directive) := do
  let cs := Text.trim cs
  let target := cs.takeWhile fun c => c ≠ '=' && c ≠ '['
  if ¬(cs.head? = some '[' ∨ target.head?.any opensTarget) then none
  match cs.dropWhile fun c => c ≠ '=' && c ≠ '[' with
  | [] =>
    match limit? target with
    | some n => return some ⟨"", n⟩
    | none => return some ⟨String.ofList target, Level.trace.rank⟩
  | '[' :: r =>
    let _ ← limitBehind? (← takeSpan? r)
    return none
  | r => return some ⟨String.ofList target, ← limitBehind? r⟩

/-- Reads a filter; an empty text keeps errors alone. -/
def parse? (s : String) : Option Filter := do
  let parts := (s.toList.splitOn ',').filter (!·.isEmpty)
  if parts.isEmpty then return errorsOnly
  return (← parts.mapM directive?).filterMap id

/-- The filter that a text asks for; the default if there is no text or it cannot be read. -/
def ofText (s : Option String) : Filter := (s.bind parse?).getD default

/-- The directive that decides on a target: of those with the longest target, the last. -/
def deciding (f : Filter) (target : String) : Option Directive :=
  f.foldl (fun best d =>
    if d.target.toList.isPrefixOf target.toList then
      match best with
      | some b => if d.target.length < b.target.length then some b else some d
      | none => some d
    else best) none

def keeps (f : Filter) (l : Line) : Bool :=
  match deciding f l.target with
  | some d => l.level.rank ≤ d.limit
  | none => false

end Filter
end Outbox.Log
