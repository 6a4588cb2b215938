import Outbox.Entry.Transition
import Outbox.Store.Error

/-!
# The table of entries

The entries in the order in which they were committed. Each operation here is one atomic change of
the table. Operations on one entry take the first row with its id; rows normally have distinct ids.
-/

namespace Outbox

/-- The committed entries, oldest commit first. -/
abbrev Table := List Entry

/-- How many entries there are in each status. -/
structure Stats where
  pending : Nat
  published : Nat
  failed : Nat
  deriving DecidableEq, Repr

/-- Which entries a listing shows. -/
structure Filter where
  status : Option Status
  eventType : Option String
  limit : Int
  offset : Int
  deriving DecidableEq

/-- An entry with the lease that a worker has just taken on it. -/
structure Claimed where
  entry : Entry
  claim : Claim
  deriving DecidableEq

namespace Table

def row? (t : Table) (id : Uuid) : Option Entry := t.find? fun e => e.id = id

/-- Changes the row of an id. -/
def alter (id : Uuid) (f : Entry → Entry) : Table → Table
  | [] => []
  | e :: t => if e.id = id then f e :: t else e :: alter id f t

/-- Puts a row in the place of the one with an id. -/
def put (t : Table) (id : Uuid) (e : Entry) : Table := t.alter id fun _ => e

/-- The claimable entries, oldest first, at most `limit` of them. -/
def findPending (t : Table) (maxRetry limit : Int) (cutoff : Instant) : List Entry :=
  ((t.filter fun e => e.isClaimable maxRetry cutoff).mergeSort Entry.before).take limit.toNat

/-- Retires all exhausted entries and gives them as they are then. -/
def failExhausted (t : Table) (maxRetry : Int) (cutoff : Instant) : List Entry × Table :=
  ((t.filter fun e => e.isExhausted maxRetry cutoff).map Entry.retired,
    t.map fun e => e.failExhausted maxRetry cutoff)

/-- Gives the lease on an entry to a worker, unless somebody holds it. -/
def tryClaim (t : Table) (id : Uuid) (worker : String) (now cutoff : Instant) :
    Except StoreError Claimed × Table :=
  match t.row? id with
  | none => (.error (.claimContention id), t)
  | some e =>
    match e.claim worker now cutoff with
    | .error _ => (.error (.claimContention id), t)
    | .ok e' => (.ok ⟨e', ⟨e.id, worker, now⟩⟩, t.put id e')

/-- Records an outcome on the entry of a claim. A missing row and a refused change both mean that
the lease was lost. -/
def record (t : Table) (c : Claim) (change : Entry → Except Refusal Entry) :
    Except StoreError Entry × Table :=
  match t.row? c.entryId with
  | none => (.error (.leaseLost c.entryId), t)
  | some e =>
    match change e with
    | .error _ => (.error (.leaseLost c.entryId), t)
    | .ok e' => (.ok e', t.put c.entryId e')

def markPublished (t : Table) (c : Claim) (now : Instant) : Except StoreError Entry × Table :=
  t.record c fun e => e.markPublished c now

/-- Records a failed attempt that is worth another. -/
def recordFailure (t : Table) (c : Claim) (error : String) (maxRetry : Int) :
    Except StoreError Entry × Table :=
  t.record c fun e => e.recordFailure c error maxRetry

def markFailed (t : Table) (c : Claim) (error : String) : Except StoreError Entry × Table :=
  t.record c fun e => e.markFailed c error

/-- The entry was published before a time. -/
def isOutdated (limit : Instant) (e : Entry) : Bool :=
  e.status = .published && e.publishedAt.any (· < limit)

/-- Entries are purged by the time of their publication. -/
def publishedBefore (a b : Entry) : Bool :=
  match a.publishedAt, b.publishedAt with
  | none, _ => true
  | some _, none => false
  | some s, some t => s ≤ t

/-- The ids of one batch of outdated entries. -/
def outdated (t : Table) (before : Instant) (limit : Int) : List Uuid :=
  (((t.filter (isOutdated before)).mergeSort publishedBefore).take limit.toNat).map (·.id)

/-- Removes one batch of outdated entries and counts it. -/
def deletePublishedBefore (t : Table) (before : Instant) (limit : Int) : Nat × Table :=
  let ids := t.outdated before limit
  (ids.length, t.filter fun e => !ids.contains e.id)

/-- Puts a failed entry back; gives it, if there is one with the id. -/
def replayFailed (t : Table) (id : Uuid) : Option Entry × Table :=
  match t.row? id with
  | none => (none, t)
  | some e =>
    match e.replay with
    | .error _ => (none, t)
    | .ok e' => (some e', t.put id e')

def shows (f : Filter) (e : Entry) : Bool :=
  f.status.all (e.status = ·) && f.eventType.all (e.eventType = ·)

/-- The entries that pass a filter, newest first, from the offset and at most `limit` of them. -/
def list (t : Table) (f : Filter) : List Entry :=
  (((t.filter (shows f)).mergeSort fun a b => b.before a).drop f.offset.toNat).take f.limit.toNat

def stats (t : Table) : Stats :=
  { pending := t.countP (·.status = .pending)
    published := t.countP (·.status = .published)
    failed := t.countP (·.status = .failed) }

/-- A batch that removes anything leaves fewer rows. -/
theorem length_deletePublishedBefore_lt {t : Table} {before : Instant} {limit : Int}
    (h : 0 < (t.deletePublishedBefore before limit).1) :
    (t.deletePublishedBefore before limit).2.length < t.length := by
  obtain ⟨id, hid⟩ := List.exists_mem_of_length_pos h
  obtain ⟨e, he, rfl⟩ := List.mem_map.1 hid
  have ht : e ∈ t := (List.mem_filter.1 (List.mem_mergeSort.1 (List.mem_of_mem_take he))).1
  exact List.length_filter_lt_length_iff_exists.2 ⟨e, ht, by simpa using hid⟩

end Table
end Outbox
