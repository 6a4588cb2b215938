import Outbox.Sql.Expr

/-!
# Statements

The statements on the table of entries: their texts, and what they do to its rows while nobody else
holds a lock. Rows keep their places; those that are not sorted come in the order of the table.
-/

namespace Outbox.Sql

def tableName : String := "outbox_events"

/-- The rows that are meant, in which order, and how many of them. -/
structure Query where
  filter : Expr
  /-- Columns with a flag for descending order. -/
  order : List (Column × Bool)
  limit : Option Expr
  offset : Option Expr

/-- A statement. -/
inductive Statement
  | insert (cells : List (Column × Expr))
  /-- Gives the rows. -/
  | select (q : Query)
  /-- Changes rows and gives them as they are then. -/
  | update (cells : List (Column × Expr)) (filter : Expr)
  /-- Removes the rows with the keys of a query that passes over rows locked by others. -/
  | delete (key : Column) (q : Query)
  /-- Counts rows by the content of a column. -/
  | countBy (c : Column)
  /-- Bounds the waits for locks in this transaction. -/
  | lockTimeout (limit : Millis)

/-- What a statement is answered with. -/
inductive Reply
  | rows (rs : List Row)
  | counts (cs : List (Value × Nat))
  | affected (n : Nat)

namespace Query

def orderText (c : Column × Bool) : String := c.1.name ++ if c.2 then " DESC" else ""

/-- A clause that may be missing. -/
def clause (word : String) : Option Expr → String
  | some e => " " ++ word ++ " " ++ e.text
  | none => ""

/-- The text of a query behind the columns that it gives. -/
def text (q : Query) : String :=
  "FROM " ++ tableName ++ " WHERE " ++ q.filter.text ++
    (if q.order.isEmpty then "" else " ORDER BY " ++ ", ".intercalate (q.order.map orderText)) ++
    clause "LIMIT" q.limit ++ clause "OFFSET" q.offset

/-- A row does not come after another. -/
def sorted : List (Column × Bool) → Row → Row → Bool
  | [], _, _ => true
  | (c, descending) :: cs, a, b =>
    match if descending then (b c).sortOrder (a c) else (a c).sortOrder (b c) with
    | .lt => true
    | .eq => sorted cs a b
    | .gt => false

def amount (params : List Value) (e : Expr) : Nat :=
  match e.eval .empty params with
  | .integer i => i.toNat
  | _ => 0

/-- The first rows, unless all are meant. -/
def first (params : List Value) (limit : Option Expr) (rs : List Row) : List Row :=
  match limit with
  | some e => rs.take (amount params e)
  | none => rs

def run (q : Query) (params : List Value) (table : List Row) : List Row :=
  let rs := (table.filter (q.filter.holds params)).mergeSort (sorted q.order)
  first params q.limit (rs.drop ((q.offset.map (amount params)).getD 0))

end Query

/-- Sets cells to values that are computed from the row as it was. -/
def assign (cells : List (Column × Expr)) (params : List Value) (r : Row) : Row :=
  cells.foldl (fun s c => s.set c.1 (c.2.eval r params)) r

def cellText (c : Column × Expr) : String := c.1.name ++ " = " ++ c.2.text

namespace Statement

def text : Statement → String
  | insert cells =>
    "INSERT INTO " ++ tableName ++ " (" ++ ", ".intercalate (cells.map (·.1.name)) ++
      ") VALUES (" ++ ", ".intercalate (cells.map (·.2.text)) ++ ")"
  | select q => "SELECT * " ++ q.text
  | update cells filter =>
    "UPDATE " ++ tableName ++ " SET " ++ ", ".intercalate (cells.map cellText) ++
      " WHERE " ++ filter.text ++ " RETURNING *"
  | delete key q =>
    "DELETE FROM " ++ tableName ++ " WHERE " ++ key.name ++ " IN ( SELECT " ++ key.name ++ " " ++
      q.text ++ " FOR UPDATE SKIP LOCKED )"
  | countBy c =>
    "SELECT " ++ c.name ++ ", COUNT(*) FROM " ++ tableName ++ " GROUP BY " ++ c.name
  | lockTimeout limit => "SET LOCAL lock_timeout = '" ++ toString (max limit 1) ++ "ms'"

/-- The distinct contents of a column. -/
def groups (c : Column) (table : List Row) : List Value := (table.map (· c)).eraseDups

/-- The reply to a statement, and the table after it. -/
def run (params : List Value) (table : List Row) : Statement → Reply × List Row
  | insert cells => (.affected 1, table ++ [assign cells params .empty])
  | select q => (.rows (q.run params table), table)
  | update cells filter =>
    (.rows ((table.filter (filter.holds params)).map (assign cells params)),
      table.map fun r => if filter.holds params r then assign cells params r else r)
  | delete key q =>
    let keys := (q.run params table).map (· key)
    (.affected (table.countP fun r => keys.contains (r key)),
      table.filter fun r => !keys.contains (r key))
  | countBy c => (.counts ((groups c table).map fun v => (v, table.countP (· c = v))), table)
  | lockTimeout _ => (.affected 0, table)

end Statement
end Outbox.Sql
