import Outbox.Config.Cell
import Outbox.Scenario.Script

/-!
# A scripted world

A world is a store with what the scripts have left to say about it. Time passes only while somebody
waits; computing takes none. The clock on the wall is another one: it moves only a little between
two looks at it, so that a run is short against every lease.
-/

namespace Outbox.Scenario

open Config (Cell)

/-- A store and its scripted surroundings. -/
structure World where
  store : Store
  /-- Claims kept by name. -/
  claims : List (String × Claim)
  /-- How many events were recorded. -/
  appended : Nat
  /-- The ids of the entries that record events, in order. -/
  newId : Nat → Uuid
  /-- For each method the faults of its next calls. -/
  faults : Call.Method → List (Option Fault)
  /-- The next replies of the broker. -/
  replies : List Reply
  /-- Every reply after those. -/
  fallback : Reply
  relay : Cell RelayConfig
  cleaner : Cell CleanerConfig
  /-- The hash of the secret of administrators. -/
  admin : Cell String
  /-- True to shut down. -/
  signal : Cell Bool
  /-- Somebody can still set the signal. -/
  signalled : Bool
  /-- What will happen, in the order of time. -/
  schedule : List (Millis × Happening)
  /-- The time since the start. -/
  time : Millis
  /-- What the clock on the wall shows next. -/
  clock : Instant
  /-- The calls of the store so far, the last one first. -/
  calls : List (Millis × Call.Method)
  /-- The messages sent so far, the last one first. -/
  sent : List (Millis × Message)

namespace World

/-- A world at time zero with a table and nothing scripted. -/
def ofTable (t : Table) (clock : Instant) : World :=
  { store := .ofTable t
    claims := []
    appended := 0
    newId := Uuid.timed (clock / Instant.perMilli).toNat
    faults := fun _ => []
    replies := []
    fallback := .accept
    relay := .new .default
    cleaner := .new .default
    admin := .new ""
    signal := .new false
    signalled := true
    schedule := []
    time := 0
    clock
    calls := []
    sent := [] }

def table (w : World) : Table := w.store.table

/-- The same world with another table. -/
def withTable (w : World) (t : Table) : World := { w with store := { w.store with table := t } }

/-- Performs a call of the store that nothing interferes with. -/
def performDirect (w : World) (c : Call) : Except Crash c.Answer × World :=
  match w.table.perform c with
  | .error e => (.error e, w)
  | .ok (a, t) => (.ok a, w.withTable t)

/-- Takes the next fault for a method. -/
def nextFault (w : World) (m : Call.Method) : Option Fault × World :=
  match w.faults m with
  | [] => (none, w)
  | f :: fs => (f, { w with faults := fun m' => if m' = m then fs else w.faults m' })

def log (w : World) (m : Call.Method) : World := { w with calls := (w.time, m) :: w.calls }

/-- Performs a call of the store, unless a fault is due. -/
def perform (w : World) (c : Call) : Except Crash c.Answer × World :=
  let (f, w) := (w.log c.method).nextFault c.method
  match f.bind (·.answer? c) with
  | some a => (.ok a, w)
  | none => w.performDirect c

@[simp] theorem table_withTable (w : World) (t : Table) : (w.withTable t).table = t := rfl

@[simp] theorem table_nextFault (w : World) (m : Call.Method) :
    (w.nextFault m).2.table = w.table := by
  unfold nextFault
  split <;> rfl

@[simp] theorem table_log (w : World) (m : Call.Method) : (w.log m).table = w.table := rfl

/-- A call that removes anything leaves fewer rows. -/
theorem length_performDirect_lt {w w' : World} {before : Instant} {limit : Int} {lock : Millis}
    {n : Nat} (h : w.performDirect (.deletePublished before limit lock) = (.ok (.ok n), w'))
    (hn : 0 < n) : w'.table.length < w.table.length := by
  obtain ⟨ha, rfl⟩ := Prod.mk.inj h
  injection ha with ha
  injection ha with ha
  exact Table.length_deletePublishedBefore_lt (Nat.lt_of_lt_of_eq hn ha.symm)

theorem length_perform_lt {w w' : World} {before : Instant} {limit : Int} {lock : Millis} {n : Nat}
    (h : w.perform (.deletePublished before limit lock) = (.ok (.ok n), w')) (hn : 0 < n) :
    w'.table.length < w.table.length := by
  unfold perform at h
  simp only at h
  split at h
  · rename_i a ha
    obtain ⟨f, _, hf⟩ := Option.bind_eq_some_iff.1 ha
    simp only [Prod.mk.injEq, Except.ok.injEq] at h
    cases f <;> simp [Fault.answer?] at hf <;> subst hf <;> simp at h
  · simpa using length_performDirect_lt h hn

/-- The time between two looks at the clock on the wall. -/
def clockStep : Instant := 1000

/-- Looks at the clock on the wall. -/
def readClock (w : World) : Instant × World := (w.clock, { w with clock := w.clock + clockStep })

/-- What somebody who uses the store directly gets to see. -/
inductive Seen
  | done
  | noTransaction
  | undecodable (e : Json.DecodeError)
  | appended (r : Except AppendError Entry)
  | entries (t : Table)
  | answer (c : Call) (a : c.Answer)

/-- Records an event in an open transaction. -/
def append (w : World) (tx : String) (e : Event) : Seen × World :=
  let (now, w) := w.readClock
  match w.store.append? tx e (w.newId w.appended) now with
  | none => (.noTransaction, w)
  | some (.error err, s) => (.appended (.error err), { w with store := s })
  | some (.ok row, s) => (.appended (.ok row), { w with store := s, appended := w.appended + 1 })

/-- Tries to record an event where the insertion fails. -/
def appendFailing (w : World) (e : Event) (fault : DatabaseError) : Except AppendError Entry :=
  match e.entry (w.newId w.appended) w.clock with
  | .error err => .error err
  | .ok _ => .error (.store (.ofDatabase fault))

/-- Keeps a claim that was won. -/
def keep (w : World) (name : Option String) : (c : Call) → c.Answer → World
  | .tryClaim .., .ok held =>
    match name with
    | some n => { w with claims := (n, held.claim) :: w.claims.filter fun p => p.1 ≠ n }
    | none => w
  | _, _ => w

/-- The claim kept under a name; nobody's claim if there is none. -/
def kept (w : World) (name : String) : Claim := (w.claims.lookup name).getD ⟨.nil, "", 0⟩

/-- Turns the outcome of a change of the store into what is seen of it. -/
def changed (w : World) : Option Store → Except Crash Seen × World
  | none => (.ok .noTransaction, w)
  | some s => (.ok .done, { w with store := s })

/-- Does a step of somebody who uses the store directly, through `call`. -/
def act (call : World → (c : Call) → Except Crash c.Answer × World) (w : World) :
    Action → Except Crash Seen × World
  | .begin tx => (.ok .done, { w with store := w.store.begin tx })
  | .insert tx e => w.changed (w.store.insert? tx e)
  | .commit tx => w.changed (w.store.commit? tx)
  | .rollback tx => w.changed (w.store.rollback? tx)
  | .append _ (.error e) _ => (.ok (.undecodable e), w)
  | .append tx (.ok e) none => let (s, w) := w.append tx e; (.ok s, w)
  | .append _ (.ok e) (some fault) => (.ok (.appended (w.appendFailing e fault)), w)
  | .entries => (.ok (.entries w.table), w)
  | .call c name =>
    match call w c with
    | (.error e, w) => (.error e, w)
    | (.ok a, w) => (.ok (.answer c a), w.keep name c a)
  | .callWith name f =>
    let c := f (w.kept name)
    match call w c with
    | (.error e, w) => (.error e, w)
    | (.ok a, w) => (.ok (.answer c a), w)

/-- Does the steps of others that nothing interferes with. -/
def actAll (w : World) : List Action → Except Crash Unit × World
  | [] => (.ok (), w)
  | a :: as =>
    match w.act performDirect a with
    | (.error e, w) => (.error e, w)
    | (.ok _, w) => w.actAll as

/-- Takes the next reply of the broker. -/
def nextReply (w : World) : Reply × World :=
  match w.replies with
  | [] => (w.fallback, w)
  | r :: rs => (r, { w with replies := rs })

/-- Sends a message; others may write to the store before the broker replies. -/
def send (w : World) (m : Message) : Except Crash Reply × World :=
  let w := { w with sent := (w.time, m) :: w.sent }
  let (r, w) := w.nextReply
  match w.actAll r.before with
  | (.error e, w) => (.error e, w)
  | (.ok (), w) => (.ok r, w)

def happen (w : World) : Happening → World
  | .signal stop => { w with signal := w.signal.update stop }
  | .dropSignal => { w with signalled := false }
  | .relayConfig c => { w with relay := w.relay.update c }
  | .cleanerConfig c => { w with cleaner := w.cleaner.update c }
  | .insert e => w.withTable (w.table ++ [e])

/-- Lets everything happen that is due until a time. -/
def happenUntil (limit : Millis) : List (Millis × Happening) → World → World
  | [], w => { w with schedule := [] }
  | (t, h) :: hs, w =>
    if t ≤ limit then happenUntil limit hs (w.happen h) else { w with schedule := (t, h) :: hs }

def advance (w : World) (t : Millis) : World :=
  { happenUntil t w.schedule w with time := max w.time t }

end World
end Outbox.Scenario
