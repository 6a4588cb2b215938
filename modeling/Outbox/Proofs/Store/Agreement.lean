import Outbox.Proofs.Store.Requests
import Outbox.Proofs.Table.Purge

/-!
# A database answers as the table does

Whatever a database may do with a request, its answer is the one of the table, and its rows are
those of the table afterwards: `Agrees` says so, with the two liberties that a database keeps. It
names retired entries in any order, and a purge may choose among entries published at one time. What
a request asks must be something that the database can hold: `Call.Fits`.
-/

namespace Outbox

open Sql

/-! ### What agreement means -/

namespace Call

/-- The times in a request. -/
def instants : Call → List Instant
  | findPending _ _ cutoff | failExhausted _ cutoff => [cutoff]
  | tryClaim _ _ now cutoff => [now, cutoff]
  | markPublished c now => [c.claimedAt, now]
  | recordFailure c _ _ | markFailed c _ => [c.claimedAt]
  | deletePublished before _ _ => [before]
  | _ => []

/-- The texts in a request, with the columns that they are meant for. -/
def texts : Call → List (Sql.Column × String)
  | tryClaim _ worker _ _ => [(.claimedBy, worker)]
  | markPublished c _ => [(.claimedBy, c.worker)]
  | recordFailure c error _ | markFailed c error => [(.claimedBy, c.worker), (.lastError, error)]
  | list f => f.eventType.toList.map fun s => (.eventType, s)
  | _ => []

/-- The limits and offsets in a request. -/
def bounds : Call → List Int
  | findPending _ limit _ | deletePublished _ limit _ => [limit]
  | list f => [f.limit, f.offset]
  | _ => []

/-- The database can hold what the request says. -/
structure Fits (c : Call) : Prop where
  instants : ∀ t ∈ c.instants, t.IsMicro
  texts : ∀ p ∈ c.texts, p.1.Fits p.2
  bounds : ∀ n ∈ c.bounds, 0 ≤ n

end Call

/-- The answer and the rows after it agree with the table's, up to what a database may choose. -/
def Remote.Agrees (t : Table) : (c : Call) → c.Answer → List Row → Prop
  | .failExhausted m cutoff, a, rows =>
    (∃ es, a = .ok es ∧ es.Perm (t.failExhausted m cutoff).1) ∧
      Mirrors rows (t.failExhausted m cutoff).2
  | .deletePublished before limit _, a, rows =>
    a = .ok (t.deletePublishedBefore before limit).1 ∧ ∃ kept : Table, Mirrors rows kept ∧
      t.PurgedAlike before kept (t.deletePublishedBefore before limit).2
  | c, a, rows => a = (t.answer c).1 ∧ Mirrors rows (t.answer c).2

/-! ### Requests as commands -/

namespace Remote

theorem lead_preparation (c : Call) {table table' : List Row} :
    Command.Lead c.preparation table table' ↔ table' = table := by
  constructor
  · intro h
    cases c with
    | deletePublished =>
      cases h with
      | cons yields rest =>
        cases yields.yields
        cases rest
        rfl
    | _ => cases h; rfl
  · rintro rfl
    cases c with
    | deletePublished => exact .cons ⟨nofun, .lockTimeout⟩ .nil
    | _ => exact .nil

theorem answers_iff {c : Call} {table table' : List Row} {a : c.Answer} :
    Answers table c a table' ↔ ∃ r, c.command.Yields table r table' ∧ a = c.conclude r := by
  constructor
  · rintro ⟨prepared, r, hlead, hyields, ha⟩
    obtain rfl := (lead_preparation c).1 hlead
    exact ⟨r, hyields, ha⟩
  · rintro ⟨r, hyields, ha⟩
    exact ⟨table, r, (lead_preparation c).2 rfl, hyields, ha⟩

theorem answer_eq (c : Call) (table : List Row) :
    answer table c = (c.conclude (c.command.run table).1, (c.command.run table).2) := by
  cases c <;> rfl

/-- The command of the request does what the statements of a database may do, and whatever it does
is what the table does. -/
structure Faithful (t : Table) (c : Call) : Prop where
  possible : c.command.Yields t.rows (c.command.run t.rows).1 (c.command.run t.rows).2
  agrees : ∀ r rows, c.command.Yields t.rows r rows → Agrees t c (c.conclude r) rows

theorem plain_of_fits {c : Call} (h : c.Fits) : ∀ v ∈ c.command.values, v.IsPlain := by
  have htext : ∀ p ∈ c.texts, IsPlain p.2 := fun p hp => (h.texts p hp).1
  intro v hv
  cases v with
  | text s =>
    show IsPlain s
    cases c with
    | failExhausted m cutoff =>
      obtain rfl : s = Entry.retryLimitReached := by
        simpa [Call.command, Command.values, Value.ofInstant] using hv
      exact isPlain_retryLimitReached
    | list f =>
      have hs : f.eventType = some s := by
        cases hs : f.status <;> cases he : f.eventType <;>
          simp_all [Call.command, Command.values, Value.ofOption]
      exact htext (.eventType, s) (by simp [Call.texts, hs])
    | tryClaim id worker now cutoff =>
      obtain rfl : s = worker := by
        simpa [Call.command, Command.values, Value.ofInstant] using hv
      exact htext (.claimedBy, s) (by simp [Call.texts])
    | markPublished claim now =>
      obtain rfl : s = claim.worker := by
        simpa [Call.command, Command.values, claimParams, Value.ofInstant] using hv
      exact htext (.claimedBy, claim.worker) (by simp [Call.texts])
    | recordFailure claim error m =>
      have hs : s = claim.worker ∨ s = error := by
        simpa [Call.command, Command.values, claimParams, Value.ofInstant] using hv
      rcases hs with rfl | rfl
      · exact htext (.claimedBy, claim.worker) (by simp [Call.texts])
      · exact htext (.lastError, s) (by simp [Call.texts])
    | markFailed claim error =>
      have hs : s = claim.worker ∨ s = error := by
        simpa [Call.command, Command.values, claimParams, Value.ofInstant] using hv
      rcases hs with rfl | rfl
      · exact htext (.claimedBy, claim.worker) (by simp [Call.texts])
      · exact htext (.lastError, s) (by simp [Call.texts])
    | findPending | deletePublished | replayFailed | get | count =>
      simp [Call.command, Command.values, Value.ofInstant] at hv
  | _ => trivial

end Remote
end Outbox
