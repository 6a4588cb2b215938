import Outbox.Sql.Statement
import Outbox.Store.Call

/-!
# The store in a database

Each request to a store is a short list of statements, of which the last one's reply answers it. An
outcome that changes no row means that the lease was lost.
-/

namespace Outbox

open Sql

/-- A statement with its parameters, each with its type. -/
structure Sql.Command where
  statement : Statement
  params : List (Kind × Value)

namespace Sql.Command

def values (c : Command) : List Value := c.params.map (·.2)

/-- The reply to a command, and the table after it. -/
def run (c : Command) (table : List Row) : Reply × List Row := c.statement.run c.values table

end Sql.Command

/-! ### Conditions -/

namespace Remote

/-- A status as it is compared or set. -/
def isStatus (s : Status) : Expr := .compare .eq (.column .status) (.literal (.status s))

/-- A column has the value of a parameter. -/
def equals (c : Column) (n : Nat) : Expr := .compare .eq (.column c) (.param n)

/-- Nobody holds the entry, or only since before the time of a parameter. -/
def idleBefore (n : Nat) : Expr :=
  .or (.isNull (.column .claimedAt)) (.compare .lt (.column .claimedAt) (.param n))

/-- The parameters from the first to the third are the claim under which the entry is pending. -/
def heldByClaim : Expr :=
  .and (.and (.and (equals .id 1) (isStatus .pending)) (equals .claimedBy 2)) (equals .claimedAt 3)

def release : List (Column × Expr) :=
  [(.claimedBy, .literal .null), (.claimedAt, .literal .null)]

def claimParams (c : Claim) : List (Kind × Value) :=
  [(.uuid, .uuid c.entryId), (.text, .text c.worker), (.instant, .ofInstant c.claimedAt)]

/-! ### Statements -/

/-- The claimable entries, oldest first. -/
def findPending : Statement :=
  .select {
    filter := .and (.and (isStatus .pending) (.compare .lt (.column .retryCount) (.param 1)))
      (idleBefore 2)
    order := [(.createdAt, false), (.id, false)]
    limit := some (.param 3)
    offset := none }

/-- Retires idle entries that were tried often enough. -/
def failExhausted : Statement :=
  .update ([(.status, .literal (.status .failed)),
      (.lastError, .coalesce (.column .lastError) (.param 3))] ++ release)
    (.and (.and (isStatus .pending) (.compare .ge (.column .retryCount) (.param 1)))
      (idleBefore 2))

def tryClaim : Statement :=
  .update [(.claimedBy, .param 2), (.claimedAt, .param 3)]
    (.and (.and (equals .id 1) (isStatus .pending)) (idleBefore 4))

def markPublished : Statement :=
  .update ([(.status, .literal (.status .published)), (.publishedAt, .param 4)] ++ release)
    heldByClaim

def recordFailure : Statement :=
  let next : Expr := .add (.column .retryCount) (.literal (.integer 1))
  .update ([(.retryCount, next), (.lastError, .param 4),
      (.status, .choose (.compare .ge next (.param 5))
        (.cast (.literal (.status .failed)) .status)
        (.cast (.literal (.status .pending)) .status))] ++ release)
    heldByClaim

def markFailed : Statement :=
  .update ([(.status, .literal (.status .failed)), (.lastError, .param 4)] ++ release) heldByClaim

/-- Removes the longest published entries. -/
def deletePublished : Statement :=
  .delete .id {
    filter := .and (isStatus .published) (.compare .lt (.column .publishedAt) (.param 1))
    order := [(.publishedAt, false)]
    limit := some (.param 2)
    offset := none }

def replayFailed : Statement :=
  .update ([(.status, .literal (.status .pending)), (.retryCount, .literal (.integer 0))] ++
      release)
    (.and (equals .id 1) (isStatus .failed))

def get : Statement :=
  .select { filter := equals .id 1, order := [], limit := none, offset := none }

/-- A column has the value of a parameter, if the parameter is given. -/
def matchesParam (c : Column) (n : Nat) (k : Kind) : Expr :=
  .or (.isNull (.cast (.param n) k)) (equals c n)

/-- A page of entries, newest first. -/
def list : Statement :=
  .select {
    filter := .and (matchesParam .status 1 .status) (matchesParam .eventType 2 .text)
    order := [(.createdAt, true), (.id, true)]
    limit := some (.param 3)
    offset := some (.param 4) }

/-- The columns that a new entry fills. -/
def insertColumns : List Column :=
  [.id, .aggregateType, .aggregateId, .eventType, .topic, .payload, .status, .retryCount,
    .createdAt]

def kindOf : Column → Kind
  | .id => .uuid
  | .status => .status
  | .retryCount => .int4
  | .createdAt | .publishedAt | .claimedAt => .instant
  | _ => .text

/-- Adds a new entry; the columns of its history stay empty. -/
def insert (e : Entry) : Command :=
  { statement := .insert (insertColumns.mapIdx fun i c => (c, .param (i + 1)))
    params := insertColumns.map fun c => (kindOf c, Row.ofEntry e c) }

end Remote

/-! ### Requests -/

/-- The last statement of a request. -/
def Call.command : Call → Command
  | findPending maxRetry limit cutoff =>
    ⟨Remote.findPending, [(.int4, .integer maxRetry), (.instant, .ofInstant cutoff),
      (.int8, .integer limit)]⟩
  | failExhausted maxRetry cutoff =>
    ⟨Remote.failExhausted, [(.int4, .integer maxRetry), (.instant, .ofInstant cutoff),
      (.text, .text Entry.retryLimitReached)]⟩
  | tryClaim id worker now cutoff =>
    ⟨Remote.tryClaim, [(.uuid, .uuid id), (.text, .text worker), (.instant, .ofInstant now),
      (.instant, .ofInstant cutoff)]⟩
  | markPublished c now =>
    ⟨Remote.markPublished, Remote.claimParams c ++ [(.instant, .ofInstant now)]⟩
  | recordFailure c error maxRetry =>
    ⟨Remote.recordFailure,
      Remote.claimParams c ++ [(.text, .text error), (.int4, .integer maxRetry)]⟩
  | markFailed c error => ⟨Remote.markFailed, Remote.claimParams c ++ [(.text, .text error)]⟩
  | deletePublished before limit _ =>
    ⟨Remote.deletePublished, [(.instant, .ofInstant before), (.int8, .integer limit)]⟩
  | replayFailed id => ⟨Remote.replayFailed, [(.uuid, .uuid id)]⟩
  | get id => ⟨Remote.get, [(.uuid, .uuid id)]⟩
  | list f =>
    ⟨Remote.list, [(.status, .ofOption .status f.status), (.text, .ofOption .text f.eventType),
      (.int8, .integer f.limit), (.int8, .integer f.offset)]⟩
  | count => ⟨.countBy .status, []⟩

/-- The statements that come before it, in the same transaction. -/
def Call.preparation : Call → List Command
  | deletePublished _ _ lockTimeout => [⟨.lockTimeout lockTimeout, []⟩]
  | _ => []

namespace Sql.Reply

def entries : Reply → List Entry
  | rows rs => rs.filterMap Row.entry?
  | _ => []

/-- The number of rows that were changed. -/
def changed : Reply → Nat
  | affected n => n
  | rows rs => rs.length
  | counts _ => 0

def countOf (s : Status) : Reply → Nat
  | counts cs => (cs.lookup (.status s)).getD 0
  | _ => 0

end Sql.Reply

/-- The answer to a request for an outcome. -/
def Remote.outcome (id : Uuid) (r : Reply) : Except StoreError Entry :=
  match r.entries.head? with
  | some e => .ok e
  | none => .error (.leaseLost id)

/-- The answer to a claim: the lease is the one that the row carries now. -/
def Remote.claimed (id : Uuid) (r : Reply) : Except StoreError Claimed :=
  match r.entries.head? with
  | some e =>
    match e.currentClaim with
    | some c => .ok ⟨e, c⟩
    | none => .error (.claimContention id)
  | none => .error (.claimContention id)

/-- The answer to a request, given the reply to its last statement. -/
def Call.conclude (r : Reply) : (c : Call) → c.Answer
  | findPending .. => .ok r.entries
  | failExhausted .. => .ok r.entries
  | tryClaim id .. => Remote.claimed id r
  | markPublished c _ => Remote.outcome c.entryId r
  | recordFailure c .. => Remote.outcome c.entryId r
  | markFailed c _ => Remote.outcome c.entryId r
  | deletePublished .. => .ok r.changed
  | replayFailed _ => .ok r.entries.head?
  | get _ => .ok r.entries.head?
  | list _ => .ok r.entries
  | count =>
    .ok { pending := r.countOf .pending, published := r.countOf .published,
          failed := r.countOf .failed }

/-- The answer to a request when the database fails. -/
def Call.refused (e : DatabaseError) (c : Call) : c.Answer := .error (.ofDatabase e)

/-- The answer of a database to a request, and its rows after it. -/
def Remote.answer (table : List Row) (c : Call) : c.Answer × List Row :=
  let table := c.preparation.foldl (fun t p => (p.run t).2) table
  let (r, table) := c.command.run table
  (c.conclude r, table)

end Outbox
