import Outbox.Proofs.Scenario.Unshared
import Outbox.Proofs.Table.Oldest

/-!
# What becomes of one candidate

A candidate is claimed, sent and its outcome recorded, and either of the two calls may fail. Its
`Lot` says where it went wrong, if it did; all that the tick does for the candidate can be read off
it (`Past`). Only a deadline, or a count that is full, keeps a tick from going on to the next one
(`Stops`), as `Unshared.claim_cases` says.
-/

namespace Outbox

open Relay (Tick)
open Scenario (World Reply)

namespace Relay

/-- Where it went wrong with a candidate, if it did. -/
inductive Lot
  /-- It could not be claimed. -/
  | unclaimed (err : StoreError)
  /-- Its message was sent, but the end of that could not be recorded. -/
  | unrecorded (d : Delivery) (err : StoreError)
  | recorded (d : Delivery)
  deriving DecidableEq

/-- A send that ended so, with the error of recording that, if there was one. -/
def Lot.ofSend (d : Delivery) : Option StoreError → Lot
  | some err => unrecorded d err
  | none => recorded d

/-- How the send ended, if there was one. -/
def Lot.delivery? : Lot → Option Delivery
  | unclaimed _ => none
  | unrecorded d _ | recorded d => some d

def Lot.messages (e : Entry) : Lot → List Message
  | unclaimed _ => []
  | unrecorded .. | recorded _ => [.ofEntry e]

/-- The time it takes, if a send takes so long. -/
def Lot.time (wait : Millis) : Lot → Millis
  | unclaimed _ => 0
  | unrecorded .. | recorded _ => wait

theorem Lot.flatMap_messages {lots : Entry → Lot} {es : List Entry}
    (h : ∀ e ∈ es, ∃ d, lots e = recorded d) :
    (es.flatMap fun e => (lots e).messages e) = es.map .ofEntry := by
  rw [List.map_eq_flatMap]
  refine List.flatMap_congr fun e he => ?_
  obtain ⟨d, hd⟩ := h e he
  rw [hd]
  rfl

section
variable (d : Delivery) (err : Option StoreError)

@[simp] theorem Lot.delivery?_ofSend : (ofSend d err).delivery? = some d := by
  cases err <;> rfl

@[simp] theorem Lot.messages_ofSend (e : Entry) : (ofSend d err).messages e = [.ofEntry e] := by
  cases err <;> rfl

@[simp] theorem Lot.time_ofSend (wait : Millis) : (ofSend d err).time wait = wait := by
  cases err <;> rfl

end

namespace Tick

@[reducible] def sweepCall (t : Tick) : Call := .failExhausted t.config.maxRetry t.cutoff

@[reducible] def listCall (t : Tick) : Call :=
  .findPending t.config.maxRetry t.config.batchSize t.cutoff

@[reducible] def claimCall (t : Tick) (e : Entry) : Call := .tryClaim e.id t.worker t.now t.cutoff

def claimOf (t : Tick) (e : Entry) : Claim := ⟨e.id, t.worker, t.now⟩

/-- An entry after its message was sent. -/
def settled (t : Tick) (e : Entry) : Delivery → Entry
  | .ok () =>
    { e with status := .published, publishedAt := some t.now, claimedBy := none, claimedAt := none }
  | .error (.retryable reason) =>
    { e with
      status := if e.retryCount + 1 < t.config.maxRetry then .pending else .failed
      retryCount := e.retryCount + 1
      lastError := some reason
      claimedBy := none
      claimedAt := none }
  | .error (.permanent reason) =>
    { e with status := .failed, lastError := some reason, claimedBy := none, claimedAt := none }

/-- What becomes of a candidate whose send ended so. -/
def verdict (t : Tick) (e : Entry) (d : Delivery) : Outcome := outcome d (.ok (t.settled e d))

/-- How the send of an entry ends, with a broker that may not answer in time. -/
def delivery (t : Tick) (broker : Message → Option Delivery) (e : Entry) : Delivery :=
  (broker (.ofEntry e)).getD (.error t.sendTimedOut)

/-- How a send ends that gets this reply. -/
def heard (t : Tick) (r : Reply) : Delivery :=
  (r.within t.config.sendTimeout).getD (.error t.sendTimedOut)

/-- The row of a candidate afterwards. -/
def rowAfter (t : Tick) (e : Entry) : Lot → Entry
  | .unclaimed _ => e
  | .unrecorded .. => e.leased t.worker t.now
  | .recorded d => t.settled e d

/-- What some candidates make of a row of the table. -/
def handled (t : Tick) (lots : Entry → Lot) (es : List Entry) (x : Entry) : Entry :=
  if x ∈ es then t.rowAfter x (lots x) else x

def counted (t : Tick) (e : Entry) : Lot → Outcome
  | .unclaimed err => notClaimed err
  | .unrecorded d err => outcome d (.error err)
  | .recorded d => t.verdict e d

theorem id_settled (t : Tick) (e : Entry) (d : Delivery) : (t.settled e d).id = e.id := by
  match d with
  | .ok () | .error (.retryable _) | .error (.permanent _) => rfl

theorem id_rowAfter (t : Tick) (e : Entry) (l : Lot) : (t.rowAfter e l).id = e.id := by
  cases l with
  | unclaimed | unrecorded => rfl
  | recorded d => exact t.id_settled e d

theorem recorded_error (t : Tick) (c : Claim) (d : Delivery) (err : StoreError) :
    outcome d (t.recorded c d (.error err)) = outcome d (.error err) := by
  match d with
  | .ok () | .error (.retryable _) | .error (.permanent _) => rfl

theorem looksUp_outcomeCall (t : Tick) (c : Claim) (d : Delivery) :
    (t.outcomeCall c d).looksUp = false := by
  match d with
  | .ok () | .error (.retryable _) | .error (.permanent _) => rfl

end Tick
end Relay

namespace Table
variable {t : Table} {e : Entry}

/-- The outcome of a send is recorded under the lease that the row carries. -/
theorem answer_outcomeCall (tick : Tick) (hr : t.row? e.id = some (e.leased tick.worker tick.now))
    (hp : e.status = .pending) (d : Delivery) :
    tick.recorded (tick.claimOf e) d (t.answer (tick.outcomeCall (tick.claimOf e) d)).1 =
        .ok (tick.settled e d) ∧
      (t.answer (tick.outcomeCall (tick.claimOf e) d)).2 = t.put e.id (tick.settled e d) := by
  let c := tick.claimOf e
  have hh : (e.leased tick.worker tick.now).IsHeldBy c := ⟨hp, rfl⟩
  match d with
  | .ok () =>
    have h := record_eq (c := c) hr (·.markPublished c tick.now)
      (Entry.markPublished_eq_ok.2 ⟨hh, rfl⟩)
    exact ⟨congrArg Prod.fst h, congrArg Prod.snd h⟩
  | .error (.retryable reason) =>
    have hs : tick.settled e (.error (.retryable reason)) =
        (e.leased tick.worker tick.now).retried reason tick.config.maxRetry := by
      simp only [Tick.settled, Entry.retried, Entry.release, Entry.leased, hp, ge_iff_le]
      by_cases hlt : e.retryCount + 1 < tick.config.maxRetry
      · rw [if_pos hlt, if_neg (Int.not_le.2 hlt)]
      · rw [if_neg hlt, if_pos (Int.not_lt.1 hlt)]
    have h := record_eq (c := c) hr (·.recordFailure c reason tick.config.maxRetry)
      (Entry.recordFailure_eq_ok.2 ⟨hh, rfl⟩)
    rw [hs]
    exact ⟨congrArg Prod.fst h, congrArg Prod.snd h⟩
  | .error (.permanent reason) =>
    have h := record_eq (c := c) hr (·.markFailed c reason) (Entry.markFailed_eq_ok.2 ⟨hh, rfl⟩)
    exact ⟨congrArg Prod.fst h, congrArg Prod.snd h⟩

theorem overflows_outcomeCall (tick : Tick) {c : Claim} (hr : t.row? c.entryId = some e)
    (hlt : e.retryCount < Entry.greatestCount) (d : Delivery) :
    t.overflows (tick.outcomeCall c d) = false := by
  match d with
  | .ok () | .error (.permanent reason) => rfl
  | .error (.retryable reason) =>
    have : ¬ Entry.greatestCount ≤ e.retryCount := Int.not_le.2 hlt
    simp [overflows, Tick.outcomeCall, hr, Entry.overflows, this]

end Table

namespace Scenario

/-- What is injected into each call, and how the broker replies to each message. -/
structure Conditions where
  error : Call → Option StoreError
  broker : Message → Option Delivery

/-- All that a tick meets from a phase on is as these conditions say. -/
inductive Conditions.Hold (s : Conditions) (t : Tick) : World → Tick.Phase → Prop
  | done {w : World} {p : Tick.Phase} {r : Except StoreError Relay.Report}
      (ask : t.ask p = .done r) : Hold s t w p
  | call {w : World} {p : Tick.Phase} {c : Call} {next : c.Answer → Tick.Phase}
      (ask : t.ask p = .call c next) (error : w.injected? c = s.error c)
      (rest : ∀ a w', w.perform c = (.ok a, w') → Hold s t w' (next a)) : Hold s t w p
  | send {w : World} {p : Tick.Phase} {m : Message} {next : Option Delivery → Tick.Phase}
      (ask : t.ask p = .send m next)
      (reply : (w.reply 0).within t.config.sendTimeout = s.broker m)
      (rest : ∀ r w', w.send m = (.ok r, w') →
        Hold s t (w'.advance (w'.time + r.wait t.config.sendTimeout))
          (next (r.within t.config.sendTimeout))) : Hold s t w p

/-- What becomes of a candidate under some conditions. -/
def Conditions.lot (s : Conditions) (t : Tick) (e : Entry) : Relay.Lot :=
  let d := t.delivery s.broker e
  match s.error (t.claimCall e) with
  | some err => .unclaimed err
  | none => .ofSend d (s.error (t.outcomeCall (t.claimOf e) d))

namespace Conditions.Hold
variable {s : Conditions} {t : Tick} {w : World} {p : Tick.Phase}

theorem call_inv {c : Call} {next : c.Answer → Tick.Phase} (h : s.Hold t w p)
    (ha : t.ask p = .call c next) : w.injected? c = s.error c ∧
      ∀ a w', w.perform c = (.ok a, w') → s.Hold t w' (next a) := by
  cases h with
  | done ask | send ask => cases ha.symm.trans ask
  | call ask error rest =>
    cases ha.symm.trans ask
    exact ⟨error, rest⟩

theorem send_inv {m : Message} {next : Option Delivery → Tick.Phase} (h : s.Hold t w p)
    (ha : t.ask p = .send m next) : (w.reply 0).within t.config.sendTimeout = s.broker m ∧
      ∀ r w', w.send m = (.ok r, w') →
        s.Hold t (w'.advance (w'.time + r.wait t.config.sendTimeout))
          (next (r.within t.config.sendTimeout)) := by
  cases h with
  | done ask | call ask => cases ha.symm.trans ask
  | send ask reply rest =>
    cases ha.symm.trans ask
    exact ⟨reply, rest⟩

theorem of_call {c : Call} {next : c.Answer → Tick.Phase} {a : c.Answer} {w' : World}
    (ha : t.ask p = .call c next) (he : w.injected? c = s.error c)
    (hw : w.perform c = (.ok a, w')) (h : s.Hold t w' (next a)) : s.Hold t w p := by
  refine .call ha he fun _ _ h' => ?_
  cases hw.symm.trans h'
  exact h

theorem of_send {m : Message} {next : Option Delivery → Tick.Phase} {r : Reply} {w' : World}
    (ha : t.ask p = .send m next) (hr : (w.reply 0).within t.config.sendTimeout = s.broker m)
    (hw : w.send m = (.ok r, w'))
    (h : s.Hold t (w'.advance (w'.time + r.wait t.config.sendTimeout))
      (next (r.within t.config.sendTimeout))) : s.Hold t w p := by
  refine .send ha hr fun _ _ h' => ?_
  cases hw.symm.trans h'
  exact h

end Conditions.Hold

namespace World
variable {t : Tick} {deadline : Option Millis} {w w' w'' : World} {e : Entry}

/-! ### Steps with a candidate -/

/-- Whatever else is to be done, the tick goes on from one phase to another. -/
structure Goes (t : Tick) (deadline : Option Millis) (w : World)
    (p : List Entry → Relay.Report → Tick.Phase) (tbl : Table) (ms : List Message) (time : Millis)
    (w' : World) (p' : List Entry → Relay.Report → Tick.Phase) : Prop where
  run : ∀ rest report, w.runTick t deadline (p rest report) = w'.runTick t deadline (p' rest report)
  hold : ∀ {s : Conditions} {rest report}, s.Hold t w (p rest report) →
    s.Hold t w' (p' rest report)
  onward : w.Onward tbl ms time w'

section
variable {p p' p'' : List Entry → Relay.Report → Tick.Phase}

theorem Goes.trans {tbl tbl' : Table} {ms ms' : List Message} {time time' : Millis}
    (h : w.Goes t deadline p tbl ms time w' p')
    (h' : w'.Goes t deadline p' tbl' ms' time' w'' p'') :
    w.Goes t deadline p tbl' (ms ++ ms') (time + time') w'' p'' where
  run rest report := (h.run rest report).trans (h'.run rest report)
  hold hs := h'.hold (h.hold hs)
  onward := h.onward.trans h'.onward

theorem Goes.of_perform {c : Call} {a : c.Answer} {tbl : Table}
    (ha : ∀ rest report, ∃ next, t.ask (p rest report) = .call c next ∧ next a = p' rest report)
    (hw : w.perform c = (.ok a, w')) (hon : w.Onward tbl [] 0 w') :
    w.Goes t deadline p tbl [] 0 w' p' where
  run rest report := by
    obtain ⟨next, hask, hnext⟩ := ha rest report
    rw [runTick_answered hask hw, hnext]
  hold h := by
    obtain ⟨next, hask, hnext⟩ := ha _ _
    exact hnext ▸ (h.call_inv hask).2 a w' hw
  onward := hon

/-- A reply comes in time, or the deadline before it. -/
theorem Unshared.send_cases (hu : w.Unshared deadline) (held : Claimed) :
    (∃ w', w.Goes t deadline (.send held) w.table [.ofEntry held.entry]
        ((w.reply 0).wait t.config.sendTimeout) w' (.record held (t.heard (w.reply 0))) ∧
      ∀ limit ∈ deadline, w'.time ≤ limit) ∨
    ∃ limit ∈ deadline, ∃ w', limit < w.time + (w.reply 0).wait t.config.sendTimeout ∧
      (∀ rest report, w.runTick t deadline (.send held rest report) = (.ok none, w')) ∧
      w.Onward w.table [.ofEntry held.entry] (limit - w.time) w' := by
  obtain ⟨w₁, hw₁, hsend⟩ := hu.send (.ofEntry held.entry)
  have htime : w₁.time = w.time := hsend.time
  cases hlate : deadline.filter (· < w₁.time + (w.reply 0).wait t.config.sendTimeout) with
  | none =>
    have hle : ∀ limit ∈ deadline, w.time + (w.reply 0).wait t.config.sendTimeout ≤ limit := by
      intro limit hl
      rw [← htime]
      simpa using Option.filter_eq_none_iff.1 hlate limit hl
    rw [← htime] at hle
    have hon := hsend.trans ((hsend.unshared hu).advance hle)
    rw [hsend.table, Nat.zero_add, Nat.add_sub_cancel_left] at hon
    refine .inl ⟨_, ⟨fun rest report => ?_, fun h => (h.send_inv rfl).2 _ _ hw₁, hon⟩,
      fun limit hl => ?_⟩
    · exact runTick_replied (p := .send held rest report) rfl hw₁ hle
    · exact hon.time ▸ htime ▸ hle limit hl
  | some limit =>
    obtain ⟨hmem, hlt⟩ := Option.filter_eq_some_iff.1 hlate
    simp only [decide_eq_true_eq] at hlt
    have hon := hsend.trans ((hsend.unshared hu).advance fun limit' hl => by
      rw [hmem] at hl
      cases hl
      exact Nat.le_refl limit)
    rw [hsend.table, Nat.zero_add, htime] at hon
    refine .inr ⟨limit, hmem, _, htime ▸ hlt, fun rest report => ?_, hon⟩
    rw [runTick_send (p := .send held rest report) rfl, hw₁]
    simp only [hlate]

end

/-! ### One candidate -/

/-- The tick is done with a candidate and goes on to the next one. -/
structure Past (t : Tick) (deadline : Option Millis) (w : World) (e : Entry) (l : Relay.Lot)
    (w' : World) : Prop where
  goes : w.Goes t deadline (.claim e) (w.table.put e.id (t.rowAfter e l)) (l.messages e)
    (l.time ((w.reply 0).wait t.config.sendTimeout)) w'
    fun rest report => .proceed rest (report.add (t.counted e l))
  delivery : ∀ d ∈ l.delivery?, d = t.heard (w.reply 0)
  /-- A send ends by the deadline. -/
  inTime : l.delivery?.isSome → ∀ limit ∈ deadline, w'.time ≤ limit
  faultless : w.Faultless → ∃ d, l = .recorded d
  conditions : ∀ {s : Conditions} {rest report}, s.Hold t w (.claim e rest report) →
    l = s.lot t e

/-- The tick gets no further than a candidate. -/
inductive Stops (t : Tick) (deadline : Option Millis) (w : World) (e : Entry) : Prop
  /-- It waits for the reply when its deadline comes. -/
  | abandoned {limit : Millis} {w' : World} (mem : limit ∈ deadline)
      (late : limit < w.time + (w.reply 0).wait t.config.sendTimeout)
      (run : ∀ rest report, w.runTick t deadline (.claim e rest report) = (.ok none, w'))
      (onward : w.Onward (w.table.put e.id (e.leased t.worker t.now)) [.ofEntry e]
        (limit - w.time) w')
  /-- The attempt cannot be counted. -/
  | crashed {w' : World} (count : Entry.greatestCount ≤ e.retryCount)
      (run : ∀ rest report,
        w.runTick t deadline (.claim e rest report) = (.error .countOverflow, w'))

/-- The end of a send is recorded, unless that fails. -/
theorem record_cases (w : World) (hrow : w.table.row? e.id = some (e.leased t.worker t.now))
    (hp : e.status = .pending) (d : Delivery) :
    (∃ l w', l = .ofSend d (w.injected? (t.outcomeCall (t.claimOf e) d)) ∧
        w.Goes t deadline (.record ⟨e.leased t.worker t.now, t.claimOf e⟩ d)
          (w.table.put e.id (t.rowAfter e l)) [] 0 w'
          fun rest report => .proceed rest (report.add (t.counted e l))) ∨
      Entry.greatestCount ≤ e.retryCount ∧ ∃ w', ∀ rest report,
        w.runTick t deadline (.record ⟨e.leased t.worker t.now, t.claimOf e⟩ d rest report) =
          (.error .countOverflow, w') := by
  let c := t.outcomeCall (t.claimOf e) d
  have hc : c.looksUp = false := t.looksUp_outcomeCall ..
  cases hi : w.injected? c with
  | some err =>
    obtain ⟨w', hw', hon⟩ := perform_injected hc hi
    have hput : w.table.put e.id (e.leased t.worker t.now) = w.table := Table.put_self hrow
    rw [← hput] at hon
    refine .inl ⟨.unrecorded d err, w', rfl, .of_perform (fun rest report => ⟨_, rfl, ?_⟩) hw' hon⟩
    rw [t.recorded_error]
    rfl
  | none =>
    have hf : (w.nextFault c.method).1.bind (·.answer? c) = none := by
      rw [fault_eq_injected? w hc, hi]
      rfl
    cases ho : w.table.overflows c with
    | true =>
      have hcount : Entry.greatestCount ≤ e.retryCount := by
        by_contra hlt
        rw [Table.overflows_outcomeCall t (c := t.claimOf e) hrow (Int.not_le.1 hlt)] at ho
        cases ho
      obtain ⟨w', hw'⟩ := perform_overflow hf ho
      refine .inr ⟨hcount, w', fun rest report => ?_⟩
      rw [runTick_call (p := .record _ d rest report) rfl, hw']
    | false =>
      obtain ⟨w', hw', hon⟩ := perform_answered hf ho
      obtain ⟨hok, htable⟩ := Table.answer_outcomeCall t hrow hp d
      rw [htable] at hon
      refine .inl ⟨.recorded d, w', rfl, .of_perform (fun rest report => ⟨_, rfl, ?_⟩) hw' hon⟩
      rw [hok]
      rfl

theorem past_unclaimed (hd : w.table.Distinct) (he : e ∈ w.table) {err : StoreError}
    (hclaim : w.injected? (t.claimCall e) = some err) :
    ∃ w', w.Past t deadline e (.unclaimed err) w' := by
  obtain ⟨w₁, hw₁, hon⟩ := perform_injected (c := t.claimCall e) rfl hclaim
  have h : w.Goes t deadline (.claim e) w.table [] 0 w₁ fun rest report =>
      .proceed rest (report.add (Tick.notClaimed err)) :=
    .of_perform (fun _ _ => ⟨_, rfl, rfl⟩) hw₁ hon
  rw [← Table.put_self (hd.row?_eq_some.2 ⟨he, rfl⟩)] at h
  refine ⟨w₁, h, fun _ h => (nomatch h), fun h => (nomatch h), fun hf => ?_, fun hs => ?_⟩
  · rw [injected?_eq_none (hf _)] at hclaim
    cases hclaim
  · have herror := (hs.call_inv rfl).1
    rw [hclaim] at herror
    simp only [Conditions.lot, ← herror]

/-- A candidate that is claimed is sent, and the end of that recorded. -/
theorem Unshared.claimed_cases (hu : w.Unshared deadline) (hd : w.table.Distinct)
    (he : e ∈ w.table) (hp : e.status = .pending) (hi : e.isIdle t.cutoff)
    (hclaim : w.injected? (t.claimCall e) = none) :
    (∃ l w', w.Past t deadline e l w') ∨ w.Stops t deadline e := by
  let held : Claimed := ⟨e.leased t.worker t.now, t.claimOf e⟩
  have hrow : w.table.row? e.id = some e := hd.row?_eq_some.2 ⟨he, rfl⟩
  obtain ⟨w₁, hw₁, hon⟩ := perform_answered (c := t.claimCall e)
    (by rw [fault_eq_injected? w rfl, hclaim]; rfl) rfl
  have hans : w.table.answer (t.claimCall e) = _ :=
    Table.tryClaim_eq hrow hp t.worker t.now hi
  rw [hans] at hw₁ hon
  have h₁ : w.Goes t deadline (.claim e) (w.table.put e.id held.entry) [] 0 w₁ (.send held) :=
    .of_perform (fun _ _ => ⟨_, rfl, rfl⟩) hw₁ hon
  have hreply : w₁.reply 0 = w.reply 0 := h₁.onward.reply 0
  have htable : w₁.table = w.table.put e.id held.entry := h₁.onward.table
  have htime : w₁.time = w.time := h₁.onward.time
  have hsend := (h₁.onward.unshared hu).send_cases (t := t) held
  rw [hreply, htable, htime] at hsend
  rcases hsend with ⟨w₂, h₂, hin⟩ | ⟨limit, hmem, w₂, hlate, hrun, hon₂⟩
  · have hconditions : ∀ {s : Conditions} {rest report},
        s.Hold t w (.claim e rest report) →
          s.error (t.claimCall e) = none ∧ t.delivery s.broker e = t.heard (w.reply 0) ∧
          s.Hold t w₂ (.record held (t.heard (w.reply 0)) rest report) := by
      intro s rest report hs
      have hbroker := ((h₁.hold hs).send_inv rfl).1
      refine ⟨(hs.call_inv rfl).1.symm.trans hclaim, ?_, h₂.hold (h₁.hold hs)⟩
      rw [hreply] at hbroker
      rw [Tick.heard, hbroker]
      rfl
    have hrow₂ : w₂.table.row? e.id = some held.entry := by
      rw [h₂.onward.table]
      exact Table.row?_put hrow rfl
    rcases w₂.record_cases hrow₂ hp (t.heard (w.reply 0)) with
      ⟨l, w₃, hl, h₃⟩ | ⟨hcount, w₃, hrun⟩
    · have hput : w₂.table.put e.id (t.rowAfter e l) = w.table.put e.id (t.rowAfter e l) := by
        rw [h₂.onward.table]
        exact Table.put_put rfl
      have h := h₁.trans (h₂.trans h₃)
      rw [hput] at h
      refine .inl ⟨l, w₃, ?_, ?_, fun _ limit hlimit => ?_, fun hf => ?_, fun hs => ?_⟩
      · rw [hl, Relay.Lot.messages_ofSend, Relay.Lot.time_ofSend, ← hl]
        rwa [Nat.zero_add, Nat.add_zero] at h
      · simp [hl]
      · rw [h₃.onward.time]
        exact hin limit hlimit
      · rw [hl, injected?_eq_none (h₂.onward.faultless (h₁.onward.faultless hf) _)]
        exact ⟨_, rfl⟩
      · obtain ⟨hnone, hdelivery, hs⟩ := hconditions hs
        have herror := (hs.call_inv rfl).1
        rw [hl, herror]
        simp only [Conditions.lot, hnone, hdelivery]
        rfl
    · exact .inr (.crashed hcount fun rest report =>
        ((h₁.trans h₂).run rest report).trans (hrun rest report))
  · refine .inr (.abandoned hmem hlate (fun rest report => (h₁.run rest report).trans
      (hrun rest report)) ?_)
    have := h₁.onward.trans hon₂
    rwa [Nat.zero_add] at this

/-- A candidate that nobody else has taken: its claim fails by a fault or not at all. -/
theorem Unshared.claim_cases (hu : w.Unshared deadline) (hd : w.table.Distinct) (he : e ∈ w.table)
    (hp : e.status = .pending) (hi : e.isIdle t.cutoff) :
    (∃ l w', w.Past t deadline e l w') ∨ w.Stops t deadline e := by
  cases hclaim : w.injected? (t.claimCall e) with
  | some err => exact .inl ⟨_, past_unclaimed hd he hclaim⟩
  | none => exact hu.claimed_cases hd he hp hi hclaim

section
variable {l : Relay.Lot}

theorem Past.table_eq (h : w.Past t deadline e l w') (hd : w.table.Distinct) (he : e ∈ w.table) :
    w'.table = w.table.map fun x => if x = e then t.rowAfter e l else x := by
  rw [h.goes.onward.table, Table.put_eq_map hd]
  refine List.map_congr_left fun x hx => ?_
  by_cases hid : x.id = e.id
  · rw [if_pos hid, if_pos (hd.eq_of_id hx he hid)]
  · rw [if_neg hid, if_neg fun hxe => hid (congrArg Entry.id hxe)]

theorem Past.distinct (h : w.Past t deadline e l w') (hd : w.table.Distinct) :
    w'.table.Distinct := by
  rw [h.goes.onward.table]
  exact hd.put (t.id_rowAfter e l)

theorem Past.mem_table (h : w.Past t deadline e l w') (hd : w.table.Distinct) (he : e ∈ w.table)
    {x : Entry} (hx : x ∈ w.table) (hne : x ≠ e) : x ∈ w'.table := by
  rw [h.table_eq hd he]
  exact List.mem_map.2 ⟨x, hx, if_neg hne⟩

end

end World
end Scenario
end Outbox
