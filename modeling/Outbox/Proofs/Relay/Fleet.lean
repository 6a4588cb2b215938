import Outbox.Proofs.Store.History
import Outbox.Relay.Tick

/-!
# Fleets of workers

A fleet is any number of workers with one store. A `Move` is the smallest thing that happens: a
worker calls the store or ends a send, starts a tick or drops it, or somebody else uses the store.
A run of a fleet is any list of moves, so it covers every interleaving, and every call may fail.
-/

namespace Outbox

open Relay (Tick)

/-- Calls of others than ticks: purges, replays by hand, and looks at the table. -/
def Call.isOutside : Call → Bool
  | .deletePublished .. | .replayFailed _ | .findPending .. | .get _ | .list _ | .count => true
  | _ => false

/-- Uses of a store by others than ticks. -/
def Store.Op.isOutside : Store.Op → Bool
  | .call c _ => c.isOutside
  | _ => true

namespace Relay.Tick

/-- What a tick holds in a phase: the entry it claimed and whose outcome it has not recorded. -/
def Phase.held? : Phase → Option Claimed
  | .send held _ _ | .record held _ _ _ => some held
  | _ => none

@[simp] theorem Phase.held?_proceed (rest : List Entry) (r : Report) :
    (Phase.proceed rest r).held? = none := by cases rest <;> rfl

@[simp] theorem Phase.held?_conclude (rest : List Entry) (r : Report) (o : Outcome) :
    (Phase.conclude rest r o).held? = none := Phase.held?_proceed ..

section
variable {t : Tick} {p : Phase} {c : Call} {next : c.Answer → Phase}

/-- A tick comes to hold an entry only by claiming it. -/
theorem held_of_answer {table : Table} {held : Claimed} (ha : t.ask p = .call c next)
    (hh : (next (table.answer c).1).held? = some held) :
    ∃ e ∈ table, e.status = .pending ∧ e.isIdle t.cutoff ∧
      .claimed ⟨e.id, t.worker, t.now⟩ t.cutoff ∈ c.deeds (table.answer c).1 ∧
      held = ⟨e.leased t.worker t.now, ⟨e.id, t.worker, t.now⟩⟩ := by
  cases p with
  | sweep => cases ha; cases hh
  | list retired => cases ha; simp [Table.answer] at hh
  | claim e rest report =>
    cases ha
    revert hh
    simp only [Table.answer]
    rcases table.tryClaim_cases e.id t.worker t.now t.cutoff with he | ⟨e', hr, hp, hi, he⟩
    · rw [he]; simp
    · rw [he]
      rintro hh
      cases hh
      exact ⟨e', (Table.mem_of_row?_eq_some hr).1, hp, hi, by simp [Call.deeds], rfl⟩
  | send => cases ha
  | record held d rest report => cases ha; simp at hh
  | done => cases ha

theorem held?_error (ha : t.ask p = .call c next) (e : StoreError) :
    (next (.error e)).held? = none := by
  cases p with
  | sweep | list => cases ha; rfl
  | claim | record => cases ha; exact Phase.held?_conclude ..
  | send | done => cases ha

/-- Nothing but the end of a send brings a tick to record an outcome. -/
theorem next_ne_record (ha : t.ask p = .call c next) (a : c.Answer) (held : Claimed) (d : Delivery)
    (rest : List Entry) (report : Report) : next a ≠ .record held d rest report := by
  have hp : ∀ es r, Phase.proceed es r ≠ .record held d rest report := fun es r h => by
    cases es <;> cases h
  intro h
  cases p with
  | sweep => cases ha; cases a <;> cases h
  | list | claim =>
    cases ha
    cases a with
    | error e => first | exact hp _ _ h | cases h
    | ok x => first | exact hp _ _ h | cases h
  | record => cases ha; exact hp _ _ h
  | send | done => cases ha

theorem ask_call_cases (ha : t.ask p = .call c next) :
    c = .failExhausted t.config.maxRetry t.cutoff ∨
    c = .findPending t.config.maxRetry t.config.batchSize t.cutoff ∨
    (∃ e : Entry, c = .tryClaim e.id t.worker t.now t.cutoff) ∨
    ∃ held d rest report, p = .record held d rest report ∧ c = t.outcomeCall held.claim d := by
  cases p with
  | sweep => cases ha; exact .inl rfl
  | list => cases ha; exact .inr (.inl rfl)
  | claim e => cases ha; exact .inr (.inr (.inl ⟨e, rfl⟩))
  | record held d rest report =>
    cases ha
    exact .inr (.inr (.inr ⟨held, d, rest, report, rfl, rfl⟩))
  | send | done => cases ha

theorem outcomeOf?_outcomeCall (t : Tick) (claim : Claim) (d : Delivery) :
    (t.outcomeCall claim d).outcomeOf? = some claim := by
  match d with
  | .ok () | .error (.retryable _) | .error (.permanent _) => rfl

theorem outcomeCall_eq_markPublished {claim claim' : Claim} {d : Delivery} {now : Instant}
    (h : t.outcomeCall claim d = .markPublished claim' now) : d = .ok () ∧ claim = claim' := by
  match d, h with
  | .ok (), h => cases h; exact ⟨rfl, rfl⟩

end
end Relay.Tick

structure Job where
  tick : Tick
  phase : Tick.Phase

/-- Workers that share a store. -/
structure Fleet where
  history : History
  /-- What each worker is doing. -/
  jobs : Nat → Option Job
  /-- The sends that ended, with their replies, the last one first. -/
  sends : List (Message × Option Delivery)

/-- The smallest thing that happens. -/
inductive Move
  /-- Somebody who is no tick uses the store; a call that only ticks make does nothing. -/
  | use (op : Store.Op)
  /-- A worker starts a tick. If it has one on its way, that one is dropped. -/
  | start (i : Nat) (worker : String) (config : RelayConfig) (now : Instant)
  /-- A tick calls the store; with a fault, the call fails with it. -/
  | call (i : Nat) (fault : Option StoreError)
  /-- The send of a tick ends with a reply, or without one when it times out. -/
  | send (i : Nat) (reply : Option Delivery)
  /-- A tick is over, or abandoned wherever it is. -/
  | drop (i : Nat)

def Move.incoming? : Move → Option Entry
  | use op => op.incoming?
  | _ => none

namespace Fleet

def empty : Fleet := ⟨.empty, fun _ => none, []⟩

def table (f : Fleet) : Table := f.history.table

/-- The fleet with another history, in which a worker does something else. -/
def assign (f : Fleet) (h : History) (i : Nat) (j : Option Job) : Fleet :=
  { f with history := h, jobs := fun k => if k = i then j else f.jobs k }

/-- The next phase of a tick whose call was answered. A tick that broke down is gone. -/
def resume {c : Call} (t : Tick) (next : c.Answer → Tick.Phase) : Except Crash c.Answer → Option Job
  | .ok a => some ⟨t, next a⟩
  | .error _ => none

def step (f : Fleet) : Move → Fleet
  | .use op => if op.isOutside then { f with history := f.history.step op } else f
  | .start i worker config now =>
    f.assign f.history i ((Tick.start? worker config now).map fun t => ⟨t, .sweep⟩)
  | .call i fault =>
    match f.jobs i with
    | none => f
    | some ⟨t, p⟩ =>
      match t.ask p with
      | .call c next =>
        f.assign (f.history.perform c fault).2 i (resume t next (f.history.perform c fault).1)
      | _ => f
  | .send i reply =>
    match f.jobs i with
    | none => f
    | some ⟨t, p⟩ =>
      match t.ask p with
      | .send m next =>
        { f.assign f.history i (some ⟨t, next reply⟩) with sends := (m, reply) :: f.sends }
      | _ => f
  | .drop i => f.assign f.history i none

def run (ms : List Move) : Fleet := ms.foldl step empty

/-- What a move can lead to. -/
inductive Moved (f : Fleet) : Move → Fleet → Prop
  | same {m : Move} : Moved f m f
  | used {op : Store.Op} {h : History} (outside : op.isOutside)
      (stepped : History.Stepped f.history op h) : Moved f (.use op) { f with history := h }
  | dropped {m : Move} (i : Nat) : Moved f m (f.assign f.history i none)
  | started {i : Nat} {worker : String} {config : RelayConfig} {now : Instant} {t : Tick}
      (start : Tick.start? worker config now = some t) :
      Moved f (.start i worker config now) (f.assign f.history i (some ⟨t, .sweep⟩))
  | failed {i : Nat} {fault : Option StoreError} {t : Tick} {p : Tick.Phase} {c : Call}
      {next : c.Answer → Tick.Phase} (job : f.jobs i = some ⟨t, p⟩) (ask : t.ask p = .call c next)
      (e : StoreError) : Moved f (.call i fault) (f.assign f.history i (some ⟨t, next (.error e)⟩))
  | answered {i : Nat} {t : Tick} {p : Tick.Phase} {c : Call} {next : c.Answer → Tick.Phase}
      (job : f.jobs i = some ⟨t, p⟩) (ask : t.ask p = .call c next) :
      Moved f (.call i none) (f.assign
        (f.history.answered c (f.table.answer c).1 (f.table.answer c).2) i
        (some ⟨t, next (f.table.answer c).1⟩))
  | sent {i : Nat} {reply : Option Delivery} {t : Tick} {held : Claimed} {rest : List Entry}
      {report : Relay.Report} (job : f.jobs i = some ⟨t, .send held rest report⟩) :
      Moved f (.send i reply)
        { f.assign f.history i
            (some ⟨t, .record held (reply.getD (.error t.sendTimedOut)) rest report⟩) with
          sends := (.ofEntry held.entry, reply) :: f.sends }

theorem moved (f : Fleet) (m : Move) : Moved f m (f.step m) := by
  cases m with
  | use op =>
    simp only [step]
    split <;> rename_i outside
    exacts [.used outside (f.history.stepped op), .same]
  | drop i => exact .dropped i
  | start i worker config now =>
    simp only [step]
    cases hs : Tick.start? worker config now with
    | none => exact .dropped i
    | some t => exact .started hs
  | call i fault =>
    simp only [step]
    split
    · exact .same
    · rename_i t p hj
      split
      · rename_i c next ha
        rcases f.history.perform_cases c fault with ⟨e, he⟩ | ⟨e, he⟩ | ⟨rfl, he⟩ <;> rw [he]
        exacts [.failed hj ha e, .dropped i, .answered hj ha]
      · exact .same
  | send i reply =>
    simp only [step]
    split
    · exact .same
    · rename_i t p hj
      split
      · rename_i m next ha
        cases p <;> cases ha
        exact .sent hj
      · exact .same

def inserted (ms : List Move) : List Entry := ms.filterMap Move.incoming?

theorem Moved.ledger {es : List Entry} {f f' : Fleet} {m : Move} (hm : Moved f m f')
    (l : f.history.Ledger es) (hn : (es.map (·.id)).Nodup) :
    f'.history.Ledger (es ++ m.incoming?.toList) := by
  have hsub : es.Subperm (es ++ m.incoming?.toList) := (List.sublist_append_left ..).subperm
  cases hm with
  | same | dropped | started | failed | sent => exact l.mono hsub
  | used _ stepped => exact l.step hn stepped
  | @answered i t p c =>
    have hs : History.Stepped f.history (.call c none) _ := .answered rfl
    exact l.step hn hs

theorem jobs_assign {f : Fleet} {h : History} {i k : Nat} {j : Option Job} {job : Job}
    (hj : (f.assign h i j).jobs k = some job) : j = some job ∨ k ≠ i ∧ f.jobs k = some job := by
  simp only [assign] at hj
  split at hj <;> rename_i hk
  exacts [.inl hj, .inr ⟨hk, hj⟩]

end Fleet
end Outbox
