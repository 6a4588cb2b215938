import Outbox.Proofs.Scenario.Pass

/-!
# Loops seen from outside

The loops of the relay and of the cleaner differ in what they watch besides the shutdown signal, in
how long they sleep, and in their passes. `Turn` says what a step of either can do, so that facts
about both are proved once.
-/

namespace Outbox.Scenario

open Config (Watcher)
open Relay (Decision onSignal)

/-- A loop with what one can see of its states. -/
structure Machine where
  State : Type
  /-- What a pass results in. -/
  Result : Type
  step : State → Step State
  run : Nat → State → RunEnd × World
  world : State → World
  /-- What the loop has seen of the shutdown signal. -/
  signal : State → Watcher
  rest : State → Rest
  /-- How long the loop sleeps next. -/
  delay : State → Millis
  /-- How many of the things it watches have news for the loop. -/
  news : State → Nat
  /-- The time between two passes under the settings in force. -/
  interval : Watched → Millis
  /-- What the loop does when it has slept. -/
  pass : State → World → Except Crash Result × World

namespace Machine

/-- A pass that a loop made. -/
structure Pass (m : Machine) where
  start : World
  result : Except Crash m.Result
  finish : World

variable (m : Machine) {s s' : m.State}

/-- What the loop makes of the shutdown signal. -/
def heed (s : m.State) : Option Decision × Watcher :=
  onSignal (m.world s).signal (m.world s).signalled (m.signal s)

/-- The pass that the next step makes. -/
def pass? (s : m.State) : Option m.Pass :=
  match m.rest s with
  | .awake => none
  | .asleep t =>
    match (m.world s).nextDue t with
    | some _ => none
    | none =>
      let w := (m.world s).advance t
      some ⟨w, (m.pass s w).1, (m.pass s w).2⟩

/-- The passes that a run makes, in order. -/
def passes : Nat → m.State → List m.Pass
  | 0, _ => []
  | n + 1, s =>
    match m.step s with
    | .going s' => (m.pass? s).toList ++ passes n s'
    | .ended .. => (m.pass? s).toList

/-- What a step can do. -/
inductive Turn (s : m.State) : Step m.State → Prop
  /-- Awake, it finds that it has to stop. -/
  | stops (awake : m.rest s = .awake) (heed : (m.heed s).1 = some .stop) :
      Turn s (.ended (.stopped (m.world s).time) (m.world s))
  /-- Awake, it takes note of some news. -/
  | notes {s' : m.State} (awake : m.rest s = .awake) (heed : (m.heed s).1 ≠ some .stop)
      (signal : m.signal s' = (m.heed s).2) (world : m.world s' = m.world s)
      (rest : m.rest s' = .awake) (delay : m.delay s' = m.delay s) (news : m.news s' < m.news s) :
      Turn s (.going s')
  /-- Awake, it finds no news and goes to sleep. -/
  | sleeps {s' : m.State} (awake : m.rest s = .awake) (heed : (m.heed s).1 = none)
      (signal : m.signal s' = m.signal s) (world : m.world s' = m.world s)
      (rest : m.rest s' = .asleep ((m.world s).time + m.delay s)) (news : m.news s' = 0) :
      Turn s (.going s')
  /-- Asleep, it wakes for what happens, unless it is no news for the loop. -/
  | stirs {s' : m.State} {t due : Millis} (asleep : m.rest s = .asleep t)
      (next : (m.world s).nextDue t = some due) (signal : m.signal s' = m.signal s)
      (world : m.world s' = (m.world s).advance due)
      (rest : m.rest s' = .awake ∨
        m.rest s' = .asleep t ∧ (m.heed s').1 = none ∧ m.news s' = 0) :
      Turn s (.going s')
  /-- Its time has come. -/
  | passes {s' : m.State} {t : Millis} {a : m.Result} (asleep : m.rest s = .asleep t)
      (next : (m.world s).nextDue t = none)
      (pass : m.pass s ((m.world s).advance t) = (.ok a, m.world s'))
      (signal : m.signal s' = m.signal s) (rest : m.rest s' = .awake)
      (delay : m.delay s' = m.interval (m.world s').watched)
      (news : (m.world s').watched = (m.world s).watched → m.news s' = m.news s) :
      Turn s (.going s')
  | crashes {t : Millis} {e : Crash} {w : World} (asleep : m.rest s = .asleep t)
      (next : (m.world s).nextDue t = none)
      (pass : m.pass s ((m.world s).advance t) = (.error e, w)) :
      Turn s (.ended (.crashed e) w)

/-- What is known of both loops. -/
structure Lawful : Prop where
  run_zero : ∀ s, m.run 0 s = (.running, m.world s)
  run_succ : ∀ n s, m.run (n + 1) s =
    match m.step s with
    | .going s' => m.run n s'
    | .ended e w => (e, w)
  turn : ∀ s, m.Turn s (m.step s)
  /-- A loop does the same at each of its passes. -/
  pass_eq : ∀ {s s'}, m.step s = .going s' → m.pass s' = m.pass s
  news_le : ∀ s, m.news s ≤ 2
  pass_passes : ∀ s {w : World}, w.Timely → w.Passes (m.pass s w).2
  pass_hush : ∀ s {w : World}, w.Timely → m.pass s w.hush = ((m.pass s w).1, (m.pass s w).2.hush)

variable {m} {e : RunEnd} {w : World}

theorem Lawful.run_going (hm : m.Lawful) (hs : m.step s = .going s') (k : Nat) :
    m.run (k + 1) s = m.run k s' := by rw [hm.run_succ, hs]

theorem Lawful.run_ended (hm : m.Lawful) (hs : m.step s = .ended e w) (k : Nat) :
    m.run (k + 1) s = (e, w) := by rw [hm.run_succ, hs]

theorem passes_going (hs : m.step s = .going s') (k : Nat) :
    m.passes (k + 1) s = (m.pass? s).toList ++ m.passes k s' := by rw [passes, hs]

theorem passes_ended (hs : m.step s = .ended e w) (k : Nat) :
    m.passes (k + 1) s = (m.pass? s).toList := by rw [passes, hs]

end Machine

/-- What a loop can make of the shutdown signal. -/
inductive Heeds (c : Config.Cell Bool) (live : Bool) (x : Watcher) :
    Option Decision × Watcher → Prop
  | stop (x' : Watcher) (why : x.seen ≠ c.announcements ∧ c.value = true ∨ live = false) :
      Heeds c live x (some .stop, x')
  /-- The signal is not set, after all. -/
  | again (news : x.seen ≠ c.announcements) (off : c.value = false) :
      Heeds c live x (some .again, ⟨c.announcements⟩)
  | quiet (seen : x.seen = c.announcements) (alive : live = true) : Heeds c live x (none, x)

theorem heeds_onSignal (c : Config.Cell Bool) (live : Bool) (x : Watcher) :
    Heeds c live x (onSignal c live x) := by
  by_cases hs : x.seen = c.announcements
  · cases live with
    | true =>
      have h : onSignal c true x = (none, x) := by simp [onSignal, Config.Cell.look, hs]
      exact h ▸ .quiet hs rfl
    | false =>
      have h : onSignal c false x = (some .stop, x) := by simp [onSignal, Config.Cell.look, hs]
      exact h ▸ .stop x (.inr rfl)
  · cases hv : c.value with
    | true =>
      have h : onSignal c live x = (some .stop, ⟨c.announcements⟩) := by
        simp [onSignal, Config.Cell.look, hs, hv]
      exact h ▸ .stop _ (.inl ⟨hs, hv⟩)
    | false =>
      have h : onSignal c live x = (some .again, ⟨c.announcements⟩) := by
        simp [onSignal, Config.Cell.look, hs, hv]
      exact h ▸ .again hs hv

theorem Machine.heeds (m : Machine) (s : m.State) :
    Heeds (m.world s).signal (m.world s).signalled (m.signal s) (m.heed s) :=
  heeds_onSignal _ _ _

/-- One if there is news for a watcher. -/
def newsOf {α : Type} (c : Config.Cell α) (x : Watcher) : Nat :=
  if x.seen = c.announcements then 0 else 1

theorem newsOf_le {α : Type} (c : Config.Cell α) (x : Watcher) : newsOf c x ≤ 1 := by
  unfold newsOf
  split <;> decide

/-- The loop of a relay. -/
def Machine.relay : Machine where
  State := RelayRun
  Result := Option (Except StoreError Relay.Report)
  step := RelayRun.step
  run := RelayRun.run
  world := RelayRun.world
  signal r := r.loop.signal
  rest := RelayRun.rest
  delay r := r.world.relay.value.pollInterval
  news r := newsOf r.world.signal r.loop.signal + newsOf r.world.relay r.loop.config
  interval v := v.relay.value.pollInterval
  pass r := World.tickPass r.worker

/-- The loop of a cleaner. -/
def Machine.cleaner : Machine where
  State := CleanerRun
  Result := Except CleanupError Nat
  step := CleanerRun.step
  run := CleanerRun.run
  world := CleanerRun.world
  signal := CleanerRun.signal
  rest := CleanerRun.rest
  delay := CleanerRun.delay
  news r := newsOf r.world.signal r.signal
  interval v := v.cleaner.value.interval
  pass _ w := w.purgePass w.cleaner.value

theorem RelayRun.worker_step {r r' : RelayRun} (h : r.step = .going r') : r'.worker = r.worker := by
  unfold RelayRun.step at h
  split at h
  · split at h <;> cases h <;> rfl
  · split at h
    · cases h
      split <;> rfl
    · simp only at h
      split at h <;> cases h
      rfl

namespace Machine

/-- Where nothing else is due first, a worker that sleeps makes its next pass. -/
theorem relay_step_asleep {r : RelayRun} {t : Millis} (hr : r.rest = .asleep t)
    (hn : r.world.nextDue t = none) : r.step = match relay.pass r (r.world.advance t) with
      | (.error e, w) => .ended (.crashed e) w
      | (_, w) => .going { r with world := w, rest := .awake } := by
  unfold RelayRun.step
  simp only [hr, hn]
  rfl

theorem relay_turn (r : RelayRun) : relay.Turn r r.step := by
  cases hr : r.rest with
  | awake =>
    have hheeds := heeds_onSignal r.world.signal r.world.signalled r.loop.signal
    generalize hheed : onSignal r.world.signal r.world.signalled r.loop.signal = o at hheeds
    have hheed' : relay.heed r = o := hheed
    cases hheeds with
    | stop x' =>
      have hstep : r.step = .ended (.stopped r.world.time) r.world := by
        simp only [RelayRun.step, hr, RelayRun.look, Relay.Loop.look, hheed]
      rw [hstep]
      exact .stops hr (by rw [hheed'])
    | again news off =>
      have hstep : r.step = .going { r with
          loop := { r.loop with signal := ⟨r.world.signal.announcements⟩ } } := by
        simp only [RelayRun.step, hr, RelayRun.look, Relay.Loop.look, hheed]
      rw [hstep]
      exact .notes hr (by simp [hheed']) (by rw [hheed']; rfl) rfl hr rfl
        (by simp [relay, newsOf, news])
    | quiet seen alive =>
      by_cases hc : r.loop.config.seen = r.world.relay.announcements
      · have hstep : r.step = .going { r with
            rest := .asleep (r.world.time + r.world.relay.value.pollInterval) } := by
          simp [RelayRun.step, hr, RelayRun.look, Relay.Loop.look, hheed, Config.Cell.look, hc]
        rw [hstep]
        exact .sleeps hr (by rw [hheed']) rfl rfl rfl (by simp [relay, newsOf, seen, hc])
      · have hstep : r.step = .going { r with
            loop := ⟨r.loop.signal, ⟨r.world.relay.announcements⟩⟩ } := by
          simp [RelayRun.step, hr, RelayRun.look, Relay.Loop.look, hheed, Config.Cell.look, hc]
        rw [hstep]
        exact .notes hr (by simp [hheed']) (by rw [hheed']; rfl) rfl hr rfl
          (by simp [relay, newsOf, seen, hc])
  | asleep t =>
    cases hn : r.world.nextDue t with
    | some due =>
      let r' : RelayRun := { r with world := r.world.advance due }
      have hstep : r.step =
          .going (if r'.look.1 = .sleep then r' else { r' with rest := .awake }) := by
        simp only [RelayRun.step, hr, hn, r']
      rw [hstep]
      split
      · rename_i hlook
        have hheeds := heeds_onSignal r'.world.signal r'.world.signalled r'.loop.signal
        generalize hheed : onSignal r'.world.signal r'.world.signalled r'.loop.signal = o at hheeds
        simp only [RelayRun.look, Relay.Loop.look, hheed] at hlook
        cases hheeds with
        | stop | again => cases hlook
        | quiet seen alive =>
          have hc : r'.loop.config.seen = r'.world.relay.announcements :=
            Decidable.byContradiction fun hc => by simp [Config.Cell.look, hc] at hlook
          exact .stirs hr hn rfl rfl (.inr ⟨hr, congrArg Prod.fst hheed, by
            simp [relay, newsOf, seen, hc]⟩)
      · exact .stirs hr hn rfl rfl (.inl rfl)
    | none =>
      rw [relay_step_asleep hr hn]
      rcases hp : relay.pass r (r.world.advance t) with ⟨e | a, w⟩
      · exact .crashes hr hn hp
      · refine .passes hr hn hp rfl rfl rfl fun hw => ?_
        have hsignal : w.signal = r.world.signal := congrArg Watched.signal hw
        have hrelay : w.relay = r.world.relay := congrArg Watched.relay hw
        simp only [relay, hsignal, hrelay]

/-- Where nothing else is due first, a cleaner that sleeps makes its next pass. -/
theorem cleaner_step_asleep {r : CleanerRun} {t : Millis} (hr : r.rest = .asleep t)
    (hn : r.world.nextDue t = none) : r.step = match cleaner.pass r (r.world.advance t) with
      | (.error e, w) => .ended (.crashed e) w
      | (_, w) =>
        .going { r with world := w, delay := w.cleaner.value.interval, rest := .awake } := by
  simp only [CleanerRun.step, hr, hn, cleaner, World.purgePass, World.purge]
  have hsettings : ∀ w : World, w.readClock.2.cleaner = w.cleaner := fun _ => rfl
  rw [hsettings]
  cases Cleaner.threshold? _ _ <;> rfl

theorem cleaner_turn (r : CleanerRun) : cleaner.Turn r r.step := by
  cases hr : r.rest with
  | awake =>
    have hheeds := heeds_onSignal r.world.signal r.world.signalled r.signal
    generalize hheed : onSignal r.world.signal r.world.signalled r.signal = o at hheeds
    have hheed' : cleaner.heed r = o := hheed
    cases hheeds with
    | stop x' =>
      have hstep : r.step = .ended (.stopped r.world.time) r.world := by
        simp only [CleanerRun.step, hr, CleanerRun.look, hheed]
      rw [hstep]
      exact .stops hr (by rw [hheed'])
    | again news off =>
      have hstep : r.step = .going { r with signal := ⟨r.world.signal.announcements⟩ } := by
        simp only [CleanerRun.step, hr, CleanerRun.look, hheed]
      rw [hstep]
      exact .notes hr (by simp [hheed']) (by rw [hheed']; rfl) rfl hr rfl
        (by simp [cleaner, newsOf, news])
    | quiet seen alive =>
      have hstep : r.step = .going { r with rest := .asleep (r.world.time + r.delay) } := by
        simp only [CleanerRun.step, hr, CleanerRun.look, hheed]
      rw [hstep]
      exact .sleeps hr (by rw [hheed']) rfl rfl rfl (by simp [cleaner, newsOf, seen])
  | asleep t =>
    cases hn : r.world.nextDue t with
    | some due =>
      let r' : CleanerRun := { r with world := r.world.advance due }
      have hstep : r.step =
          .going (if r'.look.1 = none then r' else { r' with rest := .awake }) := by
        simp only [CleanerRun.step, hr, hn, r']
      rw [hstep]
      split
      · rename_i hlook
        have hheeds := heeds_onSignal r'.world.signal r'.world.signalled r'.signal
        generalize hheed : onSignal r'.world.signal r'.world.signalled r'.signal = o at hheeds
        simp only [CleanerRun.look, hheed] at hlook
        cases hheeds with
        | stop | again => cases hlook
        | quiet seen alive =>
          exact .stirs hr hn rfl rfl (.inr ⟨hr, congrArg Prod.fst hheed, by
            simp [cleaner, newsOf, seen]⟩)
      · exact .stirs hr hn rfl rfl (.inl rfl)
    | none =>
      rw [cleaner_step_asleep hr hn]
      rcases hp : cleaner.pass r (r.world.advance t) with ⟨e | a, w⟩
      · exact .crashes hr hn hp
      · refine .passes hr hn hp rfl rfl rfl fun hw => ?_
        have hsignal : w.signal = r.world.signal := congrArg Watched.signal hw
        simp only [cleaner, hsignal]

theorem relay_lawful : relay.Lawful where
  run_zero _ := rfl
  run_succ n r := by
    simp only [relay, RelayRun.run]
    cases r.step <;> rfl
  turn := relay_turn
  pass_eq h := congrArg World.tickPass (RelayRun.worker_step h)
  news_le r := Nat.add_le_add (newsOf_le ..) (newsOf_le ..)
  pass_passes r _ h := (h.within_tickPass r.worker).passes
  pass_hush r _ h := h.tickPass_hush r.worker

theorem cleaner_lawful : cleaner.Lawful where
  run_zero _ := rfl
  run_succ n r := by
    simp only [cleaner, CleanerRun.run]
    cases r.step <;> rfl
  turn := cleaner_turn
  pass_eq _ := rfl
  news_le r := Nat.le_succ_of_le (newsOf_le ..)
  pass_passes _ _ h := (World.aloof_purgePass _).passes h
  pass_hush _ w _ := World.purgePass_hush _ w

end Machine
end Outbox.Scenario
