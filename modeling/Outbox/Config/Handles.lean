import Outbox.Config.Cell

/-!
# Handles and watchers of a cell

A cell is reached through handles, and updated through any of them. Handles, watchers and kept
values go by name; a new one takes the place of an old one of its name. What names nothing is
missing.
-/

namespace Outbox.Config

/-- A cell with everything that refers to it. -/
structure Handles (α : Type) where
  cell : Cell α
  handles : List String
  watchers : List (String × Watcher)
  kept : List (String × α)

/-- An operation through a handle or of a watcher. -/
inductive CellStep (α : Type)
  | update (handle : String) (value : α)
  | version (handle : String)
  /-- Keeps the value under a name. -/
  | snapshot (handle name : String)
  /-- The value kept under a name. -/
  | read (name : String)
  | subscribe (handle name : String)
  /-- What a watcher finds. -/
  | changed (name : String)
  | clone (handle name : String)
  | drop (handle : String)

/-- The answer to an operation. -/
inductive CellReply (α : Type)
  | done
  | version (n : Nat)
  | value (a : α)
  | notice (n : Notice)
  /-- A name stands for nothing. -/
  | missing

namespace Handles

variable {α : Type}

/-- A new cell with one handle. -/
def new (a : α) (handle : String) : Handles α := ⟨.new a, [handle], [], []⟩

/-- Replaces what a name stands for. -/
def define {β : Type} (name : String) (b : β) (l : List (String × β)) : List (String × β) :=
  (name, b) :: l.filter fun p => p.1 ≠ name

def step (s : Handles α) : CellStep α → CellReply α × Handles α
  | .update h a =>
    if h ∈ s.handles then
      let s := { s with cell := s.cell.update a }
      (.version s.cell.version, s)
    else (.missing, s)
  | .version h => if h ∈ s.handles then (.version s.cell.version, s) else (.missing, s)
  | .snapshot h name =>
    if h ∈ s.handles then
      (.value s.cell.value, { s with kept := define name s.cell.value s.kept })
    else (.missing, s)
  | .read name =>
    match s.kept.lookup name with
    | some a => (.value a, s)
    | none => (.missing, s)
  | .subscribe h name =>
    if h ∈ s.handles then
      (.done, { s with watchers := define name s.cell.subscribe s.watchers })
    else (.missing, s)
  | .changed name =>
    match s.watchers.lookup name with
    | some w =>
      let (n, w) := s.cell.look (!s.handles.isEmpty) w
      (.notice n, { s with watchers := define name w s.watchers })
    | none => (.missing, s)
  | .clone h name =>
    if h ∈ s.handles then (.done, { s with handles := s.handles.filter (· ≠ name) ++ [name] })
    else (.missing, s)
  | .drop h =>
    if h ∈ s.handles then (.done, { s with handles := s.handles.filter (· ≠ h) })
    else (.missing, s)

def run (s : Handles α) : List (CellStep α) → List (CellReply α)
  | [] => []
  | a :: as =>
    let (r, s) := s.step a
    r :: s.run as

end Handles
end Outbox.Config
