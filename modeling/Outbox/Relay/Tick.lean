import Outbox.Config.Relay
import Outbox.Process
import Outbox.Relay.Report

/-!
# One tick of a relay

A tick retires what has no attempts left, lists the oldest entries that can be claimed, and takes
them one by one: it claims the entry, sends its message, and records the outcome. A fault with one
entry is counted and the tick goes on; only the retirement and the listing can fail the tick.
-/

namespace Outbox.Relay

/-- What does not change during a tick. All times that it writes are its own. -/
structure Tick where
  worker : String
  config : RelayConfig
  now : Instant
  /-- Older leases have expired. -/
  cutoff : Instant
  deriving DecidableEq

namespace Tick

/-- The tick of a worker at a time, if the time at which leases expired can be represented. -/
def start? (worker : String) (config : RelayConfig) (now : Instant) : Option Tick :=
  (now.before? config.leaseTimeout).map fun cutoff => { worker, config, now, cutoff }

/-- How far a tick has come. -/
inductive Phase
  | sweep
  | list (retired : Nat)
  | claim (candidate : Entry) (rest : List Entry) (report : Report)
  | send (held : Claimed) (rest : List Entry) (report : Report)
  | record (held : Claimed) (delivery : Delivery) (rest : List Entry) (report : Report)
  | done (result : Except StoreError Report)

namespace Phase

/-- Goes on with the next candidate. -/
def proceed (rest : List Entry) (report : Report) : Phase :=
  match rest with
  | [] => done (.ok report)
  | e :: es => claim e es report

/-- Counts what became of a candidate and goes on. -/
def conclude (rest : List Entry) (report : Report) (o : Outcome) : Phase :=
  proceed rest (report.add o)

/-- How many steps a phase is away from the end, at most; the list of candidates counts first. -/
def rank : Phase → Nat × Nat
  | sweep => (2, 0)
  | list _ => (1, 0)
  | claim _ rest _ => (0, 3 * rest.length + 3)
  | send _ rest _ => (0, 3 * rest.length + 2)
  | record _ _ rest _ => (0, 3 * rest.length + 1)
  | done _ => (0, 0)

end Phase

/-- The reason of a send without an answer. -/
def sendTimedOut (t : Tick) : DeliveryError :=
  .retryable s!"send timed out after {t.config.sendTimeout}ms"

/-- The request that records the end of a delivery. -/
def outcomeCall (t : Tick) (c : Claim) : Delivery → Call
  | .ok () => .markPublished c t.now
  | .error (.retryable reason) => .recordFailure c reason t.config.maxRetry
  | .error (.permanent reason) => .markFailed c reason

/-- The entry as the store gives it back once the outcome is recorded. -/
def recorded (t : Tick) (c : Claim) : (d : Delivery) →
    (t.outcomeCall c d).Answer → Except StoreError Entry
  | .ok () => id
  | .error (.retryable _) => id
  | .error (.permanent _) => id

/-- What became of an entry whose outcome was recorded. -/
def outcome (d : Delivery) : Except StoreError Entry → Outcome
  | .error (.leaseLost _) => .leaseLost
  | .error _ => .error
  | .ok e =>
    match d with
    | .ok () => .published
    | .error (.retryable _) => if e.status = .failed then .exhausted else .retried
    | .error (.permanent _) => .rejected

/-- What became of an entry that could not be claimed. -/
def notClaimed : StoreError → Outcome
  | .claimContention _ => .contended
  | _ => .error

/-- What the tick asks for next. -/
def ask (t : Tick) : Phase → Ask Phase (Except StoreError Report)
  | .sweep => .call (.failExhausted t.config.maxRetry t.cutoff) fun
    | .ok retired => .list retired.length
    | .error e => .done (.error e)
  | .list retired => .call (.findPending t.config.maxRetry t.config.batchSize t.cutoff) fun
    | .ok es => .proceed es (.start es.length retired)
    | .error e => .done (.error e)
  | .claim e rest report => .call (.tryClaim e.id t.worker t.now t.cutoff) fun
    | .ok held => .send held rest report
    | .error err => .conclude rest report (notClaimed err)
  | .send held rest report => .send (.ofEntry held.entry) fun d =>
    .record held (d.getD (.error t.sendTimedOut)) rest report
  | .record held d rest report => .call (t.outcomeCall held.claim d) fun a =>
    .conclude rest report (outcome d (t.recorded held.claim d a))
  | .done r => .done r

/-- Phases are ordered by their distance from the end. -/
def Phase.Closer (p q : Phase) : Prop := Prod.Lex (· < ·) (· < ·) p.rank q.rank

theorem Phase.closer_wf : WellFounded Phase.Closer :=
  InvImage.wf Phase.rank (Prod.lex ⟨_, Nat.lt_wfRel.wf⟩ ⟨_, Nat.lt_wfRel.wf⟩).wf

theorem Phase.rank_proceed (rest : List Entry) (r : Report) :
    (Phase.proceed rest r).rank = (0, 3 * rest.length) := by
  cases rest <;> simp [Phase.proceed, Phase.rank, Nat.mul_add]

theorem Phase.closer_proceed (rest : List Entry) (r : Report) {p : Phase}
    (h : Prod.Lex (· < ·) (· < ·) (0, 3 * rest.length) p.rank) :
    (Phase.proceed rest r).Closer p := by
  unfold Closer
  rwa [rank_proceed]

/-- Every answer of the store brings the tick closer to its end. -/
theorem closer_of_ask_call {t : Tick} {p : Phase} {c : Call} {k : c.Answer → Phase}
    (h : t.ask p = .call c k) (a : c.Answer) : (k a).Closer p := by
  cases p with
  | sweep =>
    cases h
    cases a <;> exact .left _ _ (by decide)
  | list =>
    cases h
    cases a with
    | error => exact .left _ _ (by decide)
    | ok es => exact Phase.closer_proceed es _ (.left _ _ (by decide))
  | claim e rest =>
    cases h
    cases a with
    | error => exact Phase.closer_proceed rest _ (.right _ (by omega))
    | ok => exact .right _ (by omega)
  | send => cases h
  | record held d rest =>
    cases h
    exact Phase.closer_proceed rest _ (.right _ (by omega))
  | done => cases h

/-- Every end of a send brings the tick closer to its end. -/
theorem closer_of_ask_send {t : Tick} {p : Phase} {m : Message} {k : Option Delivery → Phase}
    (h : t.ask p = .send m k) (d : Option Delivery) : (k d).Closer p := by
  cases p <;> cases h
  exact .right _ (by omega)

end Tick
end Outbox.Relay
