import Outbox.Sql.Value

/-!
# Expressions

What can be asked of a row: its text, and its value given the row and the parameters of the
statement. Parameters are counted from one.
-/

namespace Outbox.Sql

/-- How two values are compared. -/
inductive Comparison
  | eq
  | lt
  | ge
  deriving DecidableEq, Repr

namespace Comparison

def sign : Comparison → String
  | eq => "="
  | lt => "<"
  | ge => ">="

/-- The comparison holds of values in this order. -/
def holds : Comparison → Ordering → Bool
  | eq, o => o = .eq
  | lt, o => o = .lt
  | ge, o => o ≠ .lt

/-- The comparison of two values; unknown if either is null. -/
def value (c : Comparison) (a b : Value) : Value :=
  match a.order? b with
  | some o => .truth (c.holds o)
  | none => .null

end Comparison

/-- An expression. -/
inductive Expr
  | column (c : Column)
  | param (n : Nat)
  /-- A value with its type named. -/
  | cast (e : Expr) (k : Kind)
  | literal (v : Value)
  | isNull (e : Expr)
  | compare (op : Comparison) (a b : Expr)
  | and (a b : Expr)
  | or (a b : Expr)
  | add (a b : Expr)
  /-- The first value if the condition holds, else the second. -/
  | choose (condition a b : Expr)
  /-- The first value unless it is null, else the second. -/
  | coalesce (a b : Expr)
  deriving DecidableEq

/-- A value as it is written. -/
def Value.literal : Value → String
  | null => "NULL"
  | uuid u => "'" ++ u.text ++ "'"
  | text s => "'" ++ s ++ "'"
  | integer i => toString i
  | instant n => toString n
  | status s => "'" ++ s.name ++ "'"
  | truth b => if b then "TRUE" else "FALSE"

namespace Expr

def text : Expr → String
  | column c => c.name
  | param n => "$" ++ toString n
  | cast e k => e.text ++ "::" ++ k.name
  | literal v => v.literal
  | isNull e => e.text ++ " IS NULL"
  | compare op a b => a.text ++ " " ++ op.sign ++ " " ++ b.text
  | and a b => a.text ++ " AND " ++ b.text
  | or a b => "(" ++ a.text ++ " OR " ++ b.text ++ ")"
  | add a b => a.text ++ " + " ++ b.text
  | choose c a b => "CASE WHEN " ++ c.text ++ " THEN " ++ a.text ++ " ELSE " ++ b.text ++ " END"
  | coalesce a b => "COALESCE(" ++ a.text ++ ", " ++ b.text ++ ")"

def eval (r : Row) (params : List Value) : Expr → Value
  | column c => r c
  | param n => params.getD (n - 1) .null
  | cast e _ => e.eval r params
  | literal v => v
  | isNull e => .truth (e.eval r params = .null)
  | compare op a b => op.value (a.eval r params) (b.eval r params)
  | and a b => (a.eval r params).and (b.eval r params)
  | or a b => (a.eval r params).or (b.eval r params)
  | add a b => (a.eval r params).add (b.eval r params)
  | choose c a b => if c.eval r params = .truth true then a.eval r params else b.eval r params
  | coalesce a b => if a.eval r params = .null then b.eval r params else a.eval r params

/-- The expression is true of a row; an unknown value is not. -/
def holds (e : Expr) (params : List Value) (r : Row) : Bool := e.eval r params = .truth true

end Expr
end Outbox.Sql
