import Outbox.Toml.Lexeme

/-!
# Tables under construction

A table comes about in one of three ways, and how it did decides what may still be added: a header
declares it, a longer header implies it, or a dotted key makes it. A table is declared once, nothing
is put into a table by a header and by dotted keys of another table, and no name is given twice.
-/

namespace Outbox.Toml

/-- How a table came about. -/
inductive Origin
  /-- By a header of its own. -/
  | declared
  /-- By the header of a table within it. -/
  | implied
  /-- By a dotted key. -/
  | dotted
  deriving DecidableEq, Repr

/-- What a name stands for while the document is read. -/
inductive Node
  | value (v : Toml)
  | table (origin : Origin) (members : List (String × Node))
  /-- An array of tables, each declared by a header of its own. -/
  | tables (items : List (List (String × Node)))

namespace Node

/-- Names with what they stand for. -/
abbrev Members : Type := List (String × Node)

mutual

/-- The value that a node has become. -/
def finish : Node → Toml
  | value v => v
  | table _ members => .table (finishAll members)
  | tables items => .array (finishTables items)

def finishAll : Members → List (String × Toml)
  | [] => []
  | (k, n) :: ms => (k, finish n) :: finishAll ms

def finishTables : List Members → List Toml
  | [] => []
  | ms :: r => .table (finishAll ms) :: finishTables r

end

/-- Changes what a name stands for; a new name comes last. -/
def change (f : Option Node → Option Node) (name : String) : Members → Option Members
  | [] => (f none).map fun n => [(name, n)]
  | (k, n) :: ms =>
    if k = name then (f (some n)).map fun n => (k, n) :: ms
    else (change f name ms).map ((k, n) :: ·)

/-- Changes the last of some tables. -/
def changeLast (f : Members → Option Members) : List Members → Option (List Members)
  | [] => none
  | [ms] => (f ms).map fun ms => [ms]
  | ms :: r => (changeLast f r).map (ms :: ·)

/-- Changes the table at the path of a header. Tables on the way that are not there yet are implied;
of an array of tables the last is meant. -/
def within (f : Members → Option Members) : List String → Members → Option Members
  | [], ms => f ms
  | p :: ps, ms =>
    change (fun
      | none => (within f ps []).map (table .implied)
      | some (value _) => none
      | some (table o sub) => (within f ps sub).map (table o)
      | some (tables items) => (changeLast (within f ps) items).map tables) p ms

def add (name : String) (n : Node) : Members → Option Members :=
  change (fun
    | none => some n
    | some _ => none) name

/-- Puts a value in under a dotted key, given by all parts but the last and the last. A key of one
part goes into the table itself, any other into a table made by dotted keys; the flag says that the
table reached so far is such a one. -/
def put (ready : Bool) (v : Toml) : List String → String → Members → Option Members
  | [], key, ms => if ready then add key (value v) ms else none
  | p :: ps, key, ms =>
    change (fun
      | none => (put true v ps key []).map (table .dotted)
      | some (value _) => none
      | some (table .declared _) => none
      | some (table .implied sub) => (put false v ps key sub).map (table .implied)
      | some (table .dotted sub) => (put true v ps key sub).map (table .dotted)
      | some (tables items) => (changeLast (put false v ps key) items).map tables) p ms

/-- Puts a value in under a dotted key of the table at a path. -/
def assign (header : List String) (key : List String) (v : Toml) (ms : Members) : Option Members :=
  key.getLast?.bind fun k => within (put true v key.dropLast k) header ms

/-- Declares the table of a header. -/
def declare (header : List String) (ms : Members) : Option Members :=
  header.getLast?.bind fun k =>
    within (change (fun
      | none => some (table .declared [])
      | some (table .implied sub) => some (table .declared sub)
      | some _ => none) k) header.dropLast ms

/-- Declares one more table of an array of tables. -/
def declareNext (header : List String) (ms : Members) : Option Members :=
  header.getLast?.bind fun k =>
    within (change (fun
      | none => some (tables [[]])
      | some (tables items) => some (tables (items ++ [[]]))
      | some _ => none) k) header.dropLast ms

end Node
end Outbox.Toml
