import Outbox.Proofs.Relay.Fleet

/-!
# Held entries are nobody else's

A crew is a fleet with one configuration under one clock. Its ticks carry the time at which they
started, and are cut off when they get too old. The invariant is `Exclusive`: the row of a held
entry carries the claim of its holder, and that claim is as old as the tick. Since ticks are shorter
than leases, no tick of the crew has a cutoff late enough to take the entry away.
-/

namespace Outbox

open Relay (Tick)

theorem RelayConfig.tickTimeout_le_of_validate {c : RelayConfig} (h : c.validate = .ok ()) :
    c.tickTimeout ≤ c.leaseTimeout := by
  by_contra hlt
  have hlt : c.tickTimeout > c.leaseTimeout := Nat.lt_of_not_le hlt
  unfold validate at h
  simp only [hlt, if_true] at h
  split at h
  · cases h
  · split at h
    · cases h
    · split at h
      · cases h
      · split at h <;> cases h

/-- Nobody but ticks records outcomes or uses a cutoff. -/
theorem Call.none_of_isOutside {c : Call} (h : c.isOutside) :
    c.outcomeOf? = none ∧ c.cutoff? = none := by
  cases c <;> first | exact ⟨rfl, rfl⟩ | cases h

namespace Relay.Tick
variable {t t' : Tick} {p : Phase} {c : Call} {next : c.Answer → Phase}

def deadline (t : Tick) : Instant := t.now + t.config.tickTimeout * Instant.perMilli

theorem cutoff?_outcomeCall (t : Tick) (claim : Claim) (d : Delivery) :
    (t.outcomeCall claim d).cutoff? = none := by
  match d with
  | .ok () | .error (.retryable _) | .error (.permanent _) => rfl

theorem eq_cutoff_of_ask (ha : t.ask p = .call c next) {cutoff : Instant}
    (hc : c.cutoff? = some cutoff) : cutoff = t.cutoff := by
  rcases ask_call_cases ha with rfl | rfl | ⟨e, rfl⟩ | ⟨held, d, _, _, _, rfl⟩
  · cases hc; rfl
  · cases hc
  · cases hc; rfl
  · rw [cutoff?_outcomeCall] at hc; cases hc

theorem held_of_ask (ha : t.ask p = .call c next) {claim : Claim} (ho : c.outcomeOf? = some claim) :
    ∃ held, p.held? = some held ∧ held.claim = claim := by
  rcases ask_call_cases ha with rfl | rfl | ⟨e, rfl⟩ | ⟨held, d, _, _, rfl, rfl⟩
  · cases ho
  · cases ho
  · cases ho
  · rw [outcomeOf?_outcomeCall] at ho
    exact ⟨held, rfl, Option.some.inj ho⟩

/-- The tick runs with the configuration, and it is not too old. -/
structure Timely (c : RelayConfig) (clock : Instant) (t : Tick) : Prop where
  config : t.config = c
  cutoff : t.cutoff = t.now - c.leaseTimeout * Instant.perMilli
  started : t.now ≤ clock
  ends : clock ≤ t.deadline

namespace Timely
variable {c : RelayConfig} {clock : Instant}

theorem of_start? {worker : String} (h : start? worker c clock = some t) : t.Timely c clock := by
  obtain ⟨cutoff, hc, rfl⟩ := Option.map_eq_some_iff.1 h
  refine ⟨rfl, (Instant.before?_eq_some_iff.1 hc).1, Int.le_refl _, ?_⟩
  have : (0 : Int) ≤ c.tickTimeout * Instant.perMilli := by
    unfold Instant.perMilli
    omega
  exact Int.le_add_of_nonneg_right this

/-- No lease that a tick takes expires before the tick ends. -/
theorem cutoff_le (h : t.Timely c clock) (h' : t'.Timely c clock)
    (hc : c.tickTimeout ≤ c.leaseTimeout) : t.cutoff ≤ t'.now := by
  obtain ⟨_, hcut, hs, _⟩ := h
  obtain ⟨rfl, _, _, he⟩ := h'
  unfold deadline Instant.perMilli at *
  -- `omega` does not see through the two abbreviations.
  delta Instant Millis at *
  omega

end Timely
end Relay.Tick

/-- The claim on the entry that a tick has claimed and whose outcome it has not recorded. -/
def Job.claim? (j : Job) : Option Claim := j.phase.held?.map (·.claim)

/-- The tick is timely, and the claim that it holds is as old as the tick. -/
structure Job.Timely (c : RelayConfig) (clock : Instant) (j : Job) : Prop where
  tick : j.tick.Timely c clock
  claim : ∀ claim, j.claim? = some claim → claim.claimedAt = j.tick.now

namespace Fleet
variable {f f' : Fleet} {c : RelayConfig} {clock : Instant} {es : List Entry}

/-- The claim that a worker holds, from taking the entry to recording the outcome. -/
def claim? (f : Fleet) (i : Nat) : Option Claim := (f.jobs i).bind Job.claim?

theorem claim?_assign_cases {h : History} {i k : Nat} {j : Option Job} {claim : Claim}
    (hk : (f.assign h i j).claim? k = some claim) :
    k = i ∧ j.bind Job.claim? = some claim ∨ k ≠ i ∧ f.claim? k = some claim := by
  simp only [claim?, assign] at hk
  split at hk <;> rename_i hki
  exacts [.inl ⟨hki, hk⟩, .inr ⟨hki, hk⟩]

/-- No entry has two holders, and the rows say who holds them. -/
structure Exclusive (c : RelayConfig) (clock : Instant) (f : Fleet) : Prop where
  timely : ∀ i j, f.jobs i = some j → j.Timely c clock
  leased : ∀ i claim, f.claim? i = some claim → ∃ e ∈ f.table, e.IsHeldBy claim
  alone : ∀ i k claim claim', f.claim? i = some claim → f.claim? k = some claim' →
    claim.entryId = claim'.entryId → i = k

namespace Exclusive

/-- No cutoff of a tick is late enough for a claim that a worker holds. -/
theorem cutoff_le (hx : Exclusive c clock f) (hc : c.tickTimeout ≤ c.leaseTimeout) {i k : Nat}
    {j : Job} (hj : f.jobs i = some j) {claim : Claim} (hk : f.claim? k = some claim) :
    j.tick.cutoff ≤ claim.claimedAt := by
  obtain ⟨j', hj', hclaim⟩ := Option.bind_eq_some_iff.1 hk
  have hj' := hx.timely k j' hj'
  rw [hj'.claim claim hclaim]
  exact (hx.timely i j hj).tick.cutoff_le hj'.tick hc

theorem not_isIdle (hx : Exclusive c clock f) (hc : c.tickTimeout ≤ c.leaseTimeout)
    (ht : f.table.Distinct) {i k : Nat} {j : Job} (hj : f.jobs i = some j) {claim : Claim}
    (hk : f.claim? k = some claim) {e : Entry} (he : e ∈ f.table) (hid : e.id = claim.entryId) :
    ¬ e.isIdle j.tick.cutoff := by
  obtain ⟨e', he', hh⟩ := hx.leased k claim hk
  rw [ht.eq_of_id he he' (hid.trans hh.id_eq.symm), hh.isIdle_iff]
  exact Int.not_lt.2 (hx.cutoff_le hc hj hk)

/-- A worker goes on without taking a row from anybody else. -/
theorem assign (hx : Exclusive c clock f) {h : History} {i : Nat} {j : Option Job}
    (hkeep : ∀ k claim, k ≠ i → f.claim? k = some claim → ∃ e ∈ h.table, e.IsHeldBy claim)
    (htime : ∀ job, j = some job → job.Timely c clock)
    (hheld : ∀ claim, j.bind Job.claim? = some claim → (∃ e ∈ h.table, e.IsHeldBy claim) ∧
      ∀ k claim', k ≠ i → f.claim? k = some claim' → claim'.entryId ≠ claim.entryId) :
    Exclusive c clock (f.assign h i j) where
  timely k job hk := by
    rcases jobs_assign hk with hk | ⟨_, hk⟩
    exacts [htime job hk, hx.timely k job hk]
  leased k claim hk := by
    rcases claim?_assign_cases hk with ⟨_, hk⟩ | ⟨hki, hk⟩
    exacts [(hheld claim hk).1, hkeep k claim hki hk]
  alone k l claim claim' hk hl hid := by
    rcases claim?_assign_cases hk with ⟨hki, hk⟩ | ⟨hki, hk⟩ <;>
      rcases claim?_assign_cases hl with ⟨hli, hl⟩ | ⟨hli, hl⟩
    · exact hki.trans hli.symm
    · exact absurd hid.symm ((hheld claim hk).2 l claim' hli hl)
    · exact absurd hid ((hheld claim' hl).2 k claim hki hk)
    · exact hx.alone k l claim claim' hk hl hid

theorem withSends (hx : Exclusive c clock f) (sends : List (Message × Option Delivery)) :
    Exclusive c clock { f with sends := sends } := ⟨hx.timely, hx.leased, hx.alone⟩

theorem keep (hx : Exclusive c clock f) {i : Nat} {j : Option Job}
    (htime : ∀ job, j = some job → job.Timely c clock)
    (hheld : ∀ claim, j.bind Job.claim? = some claim → f.claim? i = some claim) :
    Exclusive c clock (f.assign f.history i j) := by
  refine hx.assign (fun k claim _ hk => hx.leased k claim hk) htime fun claim hc => ?_
  refine ⟨hx.leased i claim (hheld claim hc), fun k claim' hki hk hid => hki ?_⟩
  exact hx.alone k i claim' claim hk (hheld claim hc) hid

theorem answered (hx : Exclusive c clock f) (hc : c.tickTimeout ≤ c.leaseTimeout)
    (ht : f.table.Distinct) {i : Nat} {t : Tick} {p : Tick.Phase} {call : Call}
    {next : call.Answer → Tick.Phase} (hj : f.jobs i = some ⟨t, p⟩)
    (ha : t.ask p = .call call next) : Exclusive c clock (f.assign
      (f.history.answered call (f.table.answer call).1 (f.table.answer call).2) i
      (some ⟨t, next (f.table.answer call).1⟩)) := by
  have hclaim : ∀ claim, Job.claim? ⟨t, next (f.table.answer call).1⟩ = some claim →
      claim.claimedAt = t.now ∧ (∃ e ∈ f.table, e.id = claim.entryId ∧ e.isIdle t.cutoff) ∧
        ∃ e ∈ (f.table.answer call).2, e.IsHeldBy claim := by
    intro claim hclaim
    obtain ⟨held, hh, rfl⟩ := Option.map_eq_some_iff.1 hclaim
    obtain ⟨e, he, _, hi, hd, rfl⟩ := Tick.held_of_answer ha hh
    obtain ⟨g, heff⟩ := Table.exists_effect ht call
    obtain ⟨_, _, e', he', turn⟩ := heff.turn_of_mem hd
    exact ⟨rfl, ⟨e, he, rfl, hi⟩, e', he', turn.held_of_claimed.2⟩
  refine hx.assign (fun k claim hki hk => ?_) (fun job hjob => ?_) fun claim hcl => ?_
  · -- The call takes no row from another worker: it is no outcome of their claims, and too early.
    obtain ⟨e, he, hh⟩ := hx.leased k claim hk
    refine ⟨e, Table.mem_answer_of_held ht he hh (fun ho => hki ?_) fun cutoff hcut => ?_, hh⟩
    · obtain ⟨held, hp, rfl⟩ := Tick.held_of_ask ha ho
      have hi : f.claim? i = some held.claim := by simp [claim?, Job.claim?, hj, hp]
      exact hx.alone k i _ _ hk hi rfl
    · rw [Tick.eq_cutoff_of_ask ha hcut]
      exact hx.cutoff_le hc hj hk
  · cases hjob
    exact ⟨(hx.timely i _ hj).tick, fun claim hcl => (hclaim claim hcl).1⟩
  · obtain ⟨_, ⟨e, he, hid, hi⟩, hrow⟩ := hclaim claim hcl
    refine ⟨hrow, fun k claim' _ hk hid' => ?_⟩
    exact hx.not_isIdle hc ht hj hk he (hid.trans hid'.symm) hi

theorem stepped (hx : Exclusive c clock f) (ht : f.table.Distinct) {op : Store.Op}
    (ho : op.isOutside) {h : History} (hs : History.Stepped f.history op h) :
    Exclusive c clock { f with history := h } := by
  refine ⟨hx.timely, fun i claim hi => ?_, hx.alone⟩
  obtain ⟨e, he, hh⟩ := hx.leased i claim hi
  cases hs with
  | same | staged => exact ⟨e, he, hh⟩
  | committed => exact ⟨e, List.mem_append_left _ he, hh⟩
  | @answered call eq =>
    subst eq
    obtain ⟨hout, hcut⟩ := Call.none_of_isOutside ho
    refine ⟨e, Table.mem_answer_of_held ht he hh ?_ fun _ h => ?_, hh⟩
    · rw [hout]; exact Option.some_ne_none claim |>.symm
    · rw [hcut] at h; cases h

/-- Every move keeps it, if ticks start with the configuration and at the time of the clock. -/
theorem step (hx : Exclusive c clock f) (hc : c.tickTimeout ≤ c.leaseTimeout)
    (ht : f.table.Distinct) {m : Move} (hm : Moved f m f')
    (hstart : ∀ i worker c' now, m = .start i worker c' now → c' = c ∧ now = clock) :
    Exclusive c clock f' := by
  cases hm with
  | same => exact hx
  | dropped => exact hx.keep (fun _ h => by cases h) fun _ h => by cases h
  | started start =>
    obtain ⟨rfl, rfl⟩ := hstart _ _ _ _ rfl
    refine hx.keep (fun job h => ?_) fun _ h => by cases h
    cases h
    exact ⟨.of_start? start, fun _ h => by cases h⟩
  | @failed i _ t p call next job ask e =>
    have hn : ∀ claim, Job.claim? ⟨t, next (.error e)⟩ ≠ some claim := fun claim h => by
      simp [Job.claim?, Tick.held?_error ask] at h
    refine hx.keep (fun job' h => ?_) fun claim h => absurd h (hn claim)
    cases h
    exact ⟨(hx.timely i _ job).tick, fun claim h => absurd h (hn claim)⟩
  | used outside stepped => exact hx.stepped ht outside stepped
  | answered job ask => exact hx.answered hc ht job ask
  | @sent i reply t held rest report job =>
    have hi : f.claim? i = some held.claim := by simp [claim?, Job.claim?, job, Tick.Phase.held?]
    have htime := hx.timely i _ job
    refine Exclusive.withSends (hx.keep (fun job' h => ?_) fun claim h => ?_) _
    · cases h
      exact ⟨htime.tick, fun claim h => htime.claim claim h⟩
    · exact hi.trans h

end Exclusive

/-- The fleet without the ticks that are too old at a time. -/
def cutOff (f : Fleet) (clock : Instant) : Fleet :=
  { f with jobs := fun i => (f.jobs i).filter fun j => clock ≤ j.tick.deadline }

/-- Time passes, and what is left of the ticks is not too old. -/
theorem Exclusive.cutOff (hx : Exclusive c clock f) {clock' : Instant} (h : clock ≤ clock') :
    Exclusive c clock' (f.cutOff clock') := by
  have hjobs : ∀ i j, (f.cutOff clock').jobs i = some j →
      f.jobs i = some j ∧ clock' ≤ j.tick.deadline := by
    intro i j hj
    obtain ⟨hj, hle⟩ := Option.filter_eq_some_iff.1 hj
    exact ⟨hj, by simpa using hle⟩
  have hclaim : ∀ i claim, (f.cutOff clock').claim? i = some claim → f.claim? i = some claim := by
    intro i claim hi
    obtain ⟨j, hj, hc⟩ := Option.bind_eq_some_iff.1 hi
    exact Option.bind_eq_some_iff.2 ⟨j, (hjobs i j hj).1, hc⟩
  refine ⟨fun i j hj => ?_, fun i claim hi => hx.leased i claim (hclaim i claim hi),
    fun i k claim claim' hi hk hid => ?_⟩
  · obtain ⟨hj, hle⟩ := hjobs i j hj
    obtain ⟨⟨hconfig, hcutoff, hstarted, _⟩, hc⟩ := hx.timely i j hj
    exact ⟨⟨hconfig, hcutoff, Int.le_trans hstarted h, hle⟩, hc⟩
  · exact hx.alone i k claim claim' (hclaim i claim hi) (hclaim k claim' hk) hid

theorem exclusive_empty (c : RelayConfig) (clock : Instant) : Exclusive c clock empty where
  timely _ _ h := absurd h (Option.some_ne_none _).symm
  leased _ _ h := absurd h (Option.some_ne_none _).symm
  alone _ _ _ _ h := absurd h (Option.some_ne_none _).symm

end Fleet

def Move.isStart : Move → Bool
  | start .. => true
  | _ => false

/-- A fleet and the clock that its workers look at. -/
structure Crew where
  fleet : Fleet
  clock : Instant

/-- The smallest thing that happens to a crew. -/
inductive Beat
  /-- Nanoseconds pass, and ticks that are too old then are cut off. -/
  | pass (d : Nat)
  /-- A worker starts a tick now. -/
  | start (i : Nat) (worker : String)
  /-- Whatever else happens to a fleet. -/
  | move (m : Move)

def Beat.incoming? : Beat → Option Entry
  | move m => m.incoming?
  | _ => none

namespace Crew

def step (c : RelayConfig) (w : Crew) : Beat → Crew
  | .pass d => ⟨w.fleet.cutOff (w.clock + d), w.clock + d⟩
  | .start i worker => { w with fleet := w.fleet.step (.start i worker c w.clock) }
  | .move m => if m.isStart then w else { w with fleet := w.fleet.step m }

def run (c : RelayConfig) (start : Instant) (bs : List Beat) : Crew :=
  bs.foldl (step c) ⟨.empty, start⟩

def inserted (bs : List Beat) : List Entry := bs.filterMap Beat.incoming?

theorem exclusive_run {c : RelayConfig} (hc : c.validate = .ok ()) (start : Instant)
    (bs : List Beat) (hn : ((inserted bs).map (·.id)).Nodup) :
    (run c start bs).fleet.history.Ledger (inserted bs) ∧
      (run c start bs).fleet.Exclusive c (run c start bs).clock := by
  have hc := RelayConfig.tickTimeout_le_of_validate hc
  let P es (w : Crew) := w.fleet.history.Ledger es ∧ w.fleet.Exclusive c w.clock
  suffices P (inserted bs) (run c start bs) from this
  refine run_induction ⟨⟨.refl _, List.Subperm.refl _⟩, Fleet.exclusive_empty c start⟩ ?_ bs hn
  rintro es w b hn ⟨l, hx⟩
  have ht := l.distinct hn
  cases b with
  | pass d =>
    refine ⟨l.mono (List.sublist_append_left ..).subperm, hx.cutOff ?_⟩
    exact Int.le_add_of_nonneg_right (Int.natCast_nonneg d)
  | start i worker =>
    have hm := w.fleet.moved (.start i worker c w.clock)
    exact ⟨hm.ledger l hn, hx.step hc ht hm fun _ _ _ _ h => by cases h; exact ⟨rfl, rfl⟩⟩
  | move m =>
    by_cases hstart : m.isStart
    · rw [step, if_pos hstart]
      exact ⟨l.mono (List.sublist_append_left ..).subperm, hx⟩
    · rw [step, if_neg hstart]
      have hm := w.fleet.moved m
      refine ⟨hm.ledger l hn, hx.step hc ht hm fun _ _ _ _ h => ?_⟩
      rw [h] at hstart
      exact absurd rfl hstart

/-- In a crew with a valid configuration no two workers hold one entry at a time, and no sweep
retires an entry that a worker holds. A worker holds an entry from claiming it, while it sends the
message, and until it has recorded the outcome or is cut off. -/
theorem held_by_one (c : RelayConfig) (hc : c.validate = .ok ()) (start : Instant) (bs : List Beat)
    (hn : ((inserted bs).map (·.id)).Nodup) :
    (∀ i k claim claim', (run c start bs).fleet.claim? i = some claim →
      (run c start bs).fleet.claim? k = some claim' → claim.entryId = claim'.entryId → i = k) ∧
    (∀ i t, (run c start bs).fleet.jobs i = some ⟨t, .sweep⟩ →
      ∀ e ∈ ((run c start bs).fleet.table.failExhausted t.config.maxRetry t.cutoff).1,
        ∀ k claim, (run c start bs).fleet.claim? k = some claim → claim.entryId ≠ e.id) := by
  obtain ⟨l, hx⟩ := exclusive_run hc start bs hn
  refine ⟨hx.alone, fun i t hi e he k claim hk hid => ?_⟩
  obtain ⟨e₀, he₀, rfl⟩ := List.mem_map.1 he
  obtain ⟨he₀, hexh⟩ := List.mem_filter.1 he₀
  obtain ⟨-, hidle, -⟩ := Entry.isExhausted_iff.1 hexh
  have hc := RelayConfig.tickTimeout_le_of_validate hc
  exact hx.not_isIdle hc (l.distinct hn) hi hk he₀ hid.symm hidle

/-- A worker is still sending after five minutes, as another one starts a tick. -/
def slowSend : List Beat :=
  [.move (.use (.begin "tx")), .move (.use (.insert "tx" .sample)), .move (.use (.commit "tx")),
    .start 0 "w1", .move (.call 0 none), .move (.call 0 none), .move (.call 0 none),
    .pass 300000000000, .start 1 "w2"]

theorem slowSend_held_by_one :
    RelayConfig.default.validate = .ok () ∧ ((inserted slowSend).map (·.id)).Nodup ∧
    (run .default 10 slowSend).fleet.claim? 0 = some ⟨Entry.sample.id, "w1", 10⟩ ∧
    (∀ k claim, (run .default 10 slowSend).fleet.claim? k = some claim →
      claim.entryId = Entry.sample.id → k = 0) ∧
    ∀ e ∈ ((run .default 10 slowSend).fleet.table.failExhausted 3 10).1,
      Entry.sample.id ≠ e.id := by
  have hv : RelayConfig.default.validate = .ok () := rfl
  have hn : ((inserted slowSend).map (·.id)).Nodup := by decide
  have h0 : (run .default 10 slowSend).fleet.claim? 0 = some ⟨Entry.sample.id, "w1", 10⟩ := by
    decide +kernel
  have h1 : (run .default 10 slowSend).fleet.jobs 1 =
      some ⟨⟨"w2", .default, 300000000010, 10⟩, .sweep⟩ := rfl
  obtain ⟨alone, sweeps⟩ := held_by_one .default hv 10 slowSend hn
  exact ⟨hv, hn, h0, fun k claim hk hid => alone k 0 claim _ hk h0 hid,
    fun e he => sweeps 1 _ h1 e he 0 _ h0⟩

end Crew
end Outbox
