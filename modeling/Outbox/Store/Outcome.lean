import Outbox.Store.Schema

/-!
# What a database may do

Where a statement leaves it free, a database does as it likes: rows come in any order that the
statement allows, and which of several equal ones are the first is left open. But it refuses what
the declaration of the table forbids. `Statement.Yields` says what a statement may lead to, and
`Remote.Answers` what a request may be answered with.
-/

namespace Outbox

namespace Sql

/-- The rows behind the offset, up to the limit. -/
def Query.cut (q : Query) (params : List Value) (rs : List Row) : List Row :=
  first params q.limit (rs.drop ((q.offset.map (amount params)).getD 0))

/-- The limit and the offset are not negative. -/
def Query.IsBounded (q : Query) (params : List Value) : Prop :=
  ∀ e, q.limit = some e ∨ q.offset = some e → ∃ n : Nat, e.eval .empty params = .integer n

/-- The rows may be given to a query: they are cut from some order that the query allows. -/
structure Query.Selects (q : Query) (params : List Value) (table rs : List Row) : Prop where
  bounded : q.IsBounded params
  cut : ∃ s : List Row, s.Perm (table.filter (q.filter.holds params)) ∧
    s.Pairwise (fun a b => sorted q.order a b) ∧ rs = q.cut params s

/-- A statement may have the reply and leave the table so. -/
inductive Statement.Yields (params : List Value) (table : List Row) :
    Statement → Reply → List Row → Prop
  | insert {cells : List (Column × Expr)} (allowed : (assign cells params .empty).Allowed)
      (fresh : ∀ r ∈ table, r .id ≠ assign cells params .empty .id) :
      Yields params table (.insert cells) (.affected 1) (table ++ [assign cells params .empty])
  | select {q : Query} {rs : List Row} (selected : q.Selects params table rs) :
      Yields params table (.select q) (.rows rs) table
  | update {cells : List (Column × Expr)} {filter : Expr} {rs : List Row}
      (allowed : ∀ r ∈ table, filter.holds params r →
        (assign cells params r).Allowed ∧ r.Passes (assign cells params r))
      (returned : rs.Perm ((table.filter (filter.holds params)).map (assign cells params))) :
      Yields params table (.update cells filter) (.rows rs)
        (table.map fun r => if filter.holds params r then assign cells params r else r)
  | delete {key : Column} {q : Query} {rs : List Row} (selected : q.Selects params table rs) :
      Yields params table (.delete key q)
        (.affected (table.countP fun r => (rs.map (· key)).contains (r key)))
        (table.filter fun r => !(rs.map (· key)).contains (r key))
  | countBy {c : Column} {cs : List (Value × Nat)}
      (counted : cs.Perm ((groups c table).map fun v => (v, table.countP (· c = v)))) :
      Yields params table (.countBy c) (.counts cs) table
  | lockTimeout {limit : Millis} : Yields params table (.lockTimeout limit) (.affected 0) table

/-- A text among the parameters is one that the database takes. -/
def Value.IsPlain : Value → Prop
  | text s => Sql.IsPlain s
  | _ => True

/-- A command may have the reply and leave the table so. -/
structure Command.Yields (c : Command) (table : List Row) (r : Reply) (table' : List Row) :
    Prop where
  plain : ∀ v ∈ c.values, v.IsPlain
  yields : c.statement.Yields c.values table r table'

/-- Commands one after the other may leave the table so. -/
inductive Command.Lead : List Command → List Row → List Row → Prop
  | nil {table : List Row} : Lead [] table table
  | cons {c : Command} {cs : List Command} {table table' table'' : List Row} {r : Reply}
      (yields : c.Yields table r table') (rest : Lead cs table' table'') :
      Lead (c :: cs) table table''

end Sql

open Sql in
/-- The database may answer the request so, and have these rows afterwards. -/
def Remote.Answers (table : List Row) (c : Call) (a : c.Answer) (table' : List Row) : Prop :=
  ∃ prepared r, Command.Lead c.preparation table prepared ∧ c.command.Yields prepared r table' ∧
    a = c.conclude r

end Outbox
