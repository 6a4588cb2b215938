import Outbox.Proofs.Scenario.Shutdown

/-!
# How long a relay waits between two ticks

Whatever wakes a relay has it start its sleep anew, for the whole interval in force then, unlike a
cleaner, which no reload wakes. So a tick comes one interval after the last time that the relay was
woken, however long it had slept before (`Waits`). With no reload meanwhile that is one interval
after the tick before; with reloads it is at most one interval later for each of them. `Waiting` is
what the steps of a wait preserve.
-/

namespace Outbox.Scenario

/-- What wakes a relay that sleeps, shutdown apart. -/
def Happening.wakes : Happening → Bool
  | .signal _ | .relayConfig _ => true
  | _ => false

/-- What makes a loop end. -/
def Happening.shutsDown : Happening → Bool
  | .signal true | .dropSignal => true
  | _ => false

/-- How often a relay is woken. -/
def wakeups (done : List (Millis × Happening)) : Nat := done.countP (·.2.wakes)

/-- When a sleep that began at a time last began anew. -/
def restart (t : Millis) (done : List (Millis × Happening)) : Millis :=
  done.foldl (fun t p => if p.2.wakes then p.1 else t) t

/-- The polling intervals that are in force one after the other. -/
def Watched.intervals (v : Watched) (done : List (Millis × Happening)) : List Millis :=
  v.relay.value.pollInterval :: done.filterMap fun p =>
    match p.2 with
    | .relayConfig c => some c.pollInterval
    | _ => none

namespace World

/-- From the one world to the other no more time passes than the longest interval in force. -/
def Prompt (a b : World) : Prop :=
  ∃ done, a.Passage done b ∧ ∃ x ∈ a.watched.intervals done, b.time ≤ a.time + x

/-- A relay waits from one world to the other while some of the schedule happens. -/
structure Waits (a : World) (done : List (Millis × Happening)) (b : World) : Prop where
  passage : a.Passage done b
  /-- It waits for the interval in force since it was woken last. -/
  time : b.time = restart a.time done + b.relay.value.pollInterval
  /-- It waits for one interval more each time it is woken, at most. -/
  bound : ∀ l, (∀ x ∈ a.watched.intervals done, x ≤ l) → b.time ≤ a.time + (wakeups done + 1) * l

/-- No shutdown has come after `n` announcements, and none is to come. -/
structure Unstopped (n : Nat) (w : World) : Prop where
  still : ¬ w.Stopping n
  schedule : ∀ p ∈ w.schedule, p.2.shutsDown = false

end World

/-! ### Reloads -/

section
variable {v : Watched} {done more : List (Millis × Happening)} {t due : Millis}

theorem wakeups_append : wakeups (done ++ more) = wakeups done + wakeups more := List.countP_append

theorem wakeups_cons (p : Millis × Happening) :
    wakeups (p :: done) = wakeups done + if p.2.wakes then 1 else 0 := List.countP_cons

theorem restart_append : restart t (done ++ more) = restart (restart t done) more :=
  List.foldl_append

theorem restart_of_wakeups_eq_zero (h : wakeups done = 0) : restart t done = t := by
  induction done with
  | nil => rfl
  | cons p done ih =>
    obtain ⟨hp, hdone⟩ := List.forall_mem_cons.1 (List.countP_eq_zero.1 h)
    rw [restart, List.foldl_cons, if_neg hp]
    exact ih (List.countP_eq_zero.2 hdone)

/-- Where all of it happens at one time, the sleep begins anew then. -/
theorem restart_of_wakeups_ne_zero (h : wakeups done ≠ 0) (hdue : ∀ p ∈ done, p.1 = due) :
    restart t done = due := by
  induction done generalizing t with
  | nil => exact absurd rfl h
  | cons p done ih =>
    obtain ⟨hp, hrest⟩ := List.forall_mem_cons.1 hdue
    rw [restart, List.foldl_cons]
    by_cases hdone : wakeups done = 0
    · refine (restart_of_wakeups_eq_zero hdone).trans ?_
      split
      · exact hp
      · rename_i hwakes
        exact absurd ((wakeups_cons p).trans (by rw [hdone, if_neg hwakes])) h
    · exact ih hdone hrest

namespace Watched

theorem interval_mem_intervals (v : Watched) (done : List (Millis × Happening)) :
    (v.after done).relay.value.pollInterval ∈ v.intervals done := by
  induction done generalizing v with
  | nil => exact List.mem_cons_self
  | cons p done ih =>
    refine List.mem_cons.2 ?_
    have hmem := List.mem_cons.1 (ih (v.happen p.2))
    rcases p with ⟨s, _ | _ | c | _ | _⟩
    case relayConfig =>
      refine .inr (List.mem_cons.2 ?_)
      exact hmem
    all_goals exact hmem

theorem intervals_subset (v : Watched) (done more : List (Millis × Happening)) :
    v.intervals done ⊆ v.intervals (done ++ more) := by
  unfold intervals
  rw [List.filterMap_append]
  exact List.cons_subset_cons _ (List.subset_append_left ..)

/-- Each wake-up is announced, by the signal or by the settings. -/
theorem announcements_add (v : Watched) (done : List (Millis × Happening)) :
    (v.after done).signal.announcements + (v.after done).relay.announcements =
      v.signal.announcements + v.relay.announcements + wakeups done := by
  induction done generalizing v with
  | nil => rfl
  | cons p done ih =>
    refine (ih (v.happen p.2)).trans ?_
    rw [wakeups_cons]
    rcases p with ⟨s, _ | _ | _ | _ | _⟩
    case signal =>
      change v.signal.announcements + 1 + v.relay.announcements + _ = _ + (_ + 1)
      omega
    case relayConfig =>
      change v.signal.announcements + (v.relay.announcements + 1) + _ = _ + (_ + 1)
      omega
    all_goals rfl

theorem relay_announcements_after {n : Nat} (h : n ≤ v.relay.announcements) :
    n ≤ (v.after done).relay.announcements := by
  refine after_induction (P := fun v => n ≤ v.relay.announcements) h fun v p _ hv => ?_
  rcases p with ⟨_, _ | _ | _ | _ | _⟩
  case relayConfig => exact Nat.le_succ_of_le hv
  all_goals exact hv

end Watched
end

/-! ### One wait -/

namespace World

theorem Passage.unstopped {n : Nat} {w w' : World} {done : List (Millis × Happening)}
    (h : w.Passage done w') (hu : w.Unstopped n) : w'.Unstopped n := by
  have hschedule := hu.schedule
  rw [h.schedule] at hschedule
  refine ⟨?_, fun p hp => hschedule p (List.mem_append_right _ hp)⟩
  have hwatched : w'.watched = _ := h.watched
  change ¬ (w'.watched.signalled = false ∨
    w'.watched.signal.value = true ∧ n < w'.watched.signal.announcements)
  rw [hwatched]
  refine Watched.after_induction
    (P := fun v => ¬ (v.signalled = false ∨ v.signal.value = true ∧ n < v.signal.announcements))
    hu.still fun v p hp hv => ?_
  have hp := hschedule p (List.mem_append_left _ hp)
  rcases p with ⟨_, stop | _ | _ | _ | _⟩
  case signal =>
    cases stop with
    | true => cases hp
    | false =>
      rintro (hsignalled | ⟨hvalue, -⟩)
      · exact hv (.inl hsignalled)
      · cases hvalue
  case dropSignal => cases hp
  all_goals exact hv

/-- Until what is due next, only that happens. -/
theorem Timely.passage_of_nextDue {w : World} {t due : Millis} (hw : w.Timely)
    (hn : w.nextDue t = some due) :
    (w.advance due).time = due ∧
      ∃ done, w.Passage done (w.advance due) ∧ ∀ p ∈ done, p.1 = due := by
  have hlt := hw.lt_of_nextDue hn
  refine ⟨Nat.max_eq_right (Nat.le_of_lt hlt), _, passage_advance hw.sorted (Nat.le_of_lt hlt),
    fun p hp => ?_⟩
  obtain ⟨x, rest, hschedule, -⟩ := nextDue_eq_some hn
  have hsorted := hw.sorted
  have hmem := (List.takeWhile_sublist _).subset hp
  have hle : p.1 ≤ due := by simpa using List.all_eq_true.1 List.all_takeWhile p hp
  rw [hschedule] at hsorted hmem
  rcases List.mem_cons.1 hmem with rfl | hmem
  · rfl
  · exact Nat.le_antisymm hle ((List.pairwise_cons.1 hsorted).1 p hmem)

/-- Where nothing is due until a time, nothing happens. -/
theorem Timely.passage_of_nextDue_eq_none {w : World} {t : Millis} (hw : w.Timely)
    (ht : w.time ≤ t) (hn : w.nextDue t = none) : w.Passage [] (w.advance t) := by
  have hpassage := passage_advance hw.sorted ht
  have hnone : w.schedule.takeWhile (·.1 ≤ t) = [] := by
    have hlt := hw.lt_of_nextDue_eq_none hn
    cases hschedule : w.schedule with
    | nil => rfl
    | cons p rest =>
      refine List.takeWhile_cons_of_neg ?_
      simpa using hlt p (hschedule ▸ List.mem_cons_self)
  rwa [hnone] at hpassage

section
variable {a b : World} {done : List (Millis × Happening)}

/-- Nothing else changes the settings. -/
theorem Passage.relay_eq (h : a.Passage done b) (hdone : wakeups done = 0) :
    b.relay = a.relay := by
  have hwatched : b.watched = _ := h.watched
  change b.watched.relay = a.watched.relay
  rw [hwatched]
  refine Watched.after_induction (P := fun v => v.relay = a.watched.relay) rfl fun v p hp hv => ?_
  have hp := List.countP_eq_zero.1 hdone p hp
  rcases p with ⟨_, _ | _ | _ | _ | _⟩
  case relayConfig => exact absurd rfl hp
  all_goals exact hv

/-- The interval in force in the end is one of those that were in force. -/
theorem Passage.interval_mem (h : a.Passage done b) :
    b.relay.value.pollInterval ∈ a.watched.intervals done := by
  have hwatched : b.watched = _ := h.watched
  change b.watched.relay.value.pollInterval ∈ _
  rw [hwatched]
  exact Watched.interval_mem_intervals _ _

/-- Without a reload a relay waits for one interval. -/
theorem Waits.of_wakeups_eq_zero (h : a.Waits done b) (hdone : wakeups done = 0) :
    b.time = a.time + a.relay.value.pollInterval := by
  rw [h.time, restart_of_wakeups_eq_zero hdone, h.passage.relay_eq hdone]

theorem Passage.done_unique {done' : List (Millis × Happening)} (h : a.Passage done b)
    (h' : a.Passage done' b) : done' = done :=
  List.append_cancel_right (h'.schedule.symm.trans h.schedule)

/-- When a wait is no longer than the longest interval in force. -/
theorem Waits.prompt_iff (h : a.Waits done b) : a.Prompt b ↔ ∃ x ∈ a.watched.intervals done,
    restart a.time done + b.relay.value.pollInterval ≤ a.time + x := by
  rw [← h.time]
  constructor
  · rintro ⟨done', hdone, x, hx, hle⟩
    rw [h.passage.done_unique hdone] at hx
    exact ⟨x, hx, hle⟩
  · exact fun hle => ⟨done, h.passage, hle⟩

end

end World

/-! ### From pass to pass -/

namespace Machine

variable {m : Machine} {n : Nat} {s s' : m.State}

theorem pass?_ne_none {t : Millis} (hr : m.rest s = .asleep t)
    (hn : (m.world s).nextDue t = none) : m.pass? s ≠ none := by
  simp [pass?, hr, hn]

/-- A loop that makes no pass takes note of news or goes to sleep, or something else is due. -/
theorem rest_of_pass?_eq_none (hm : m.Lawful) (hp : m.pass? s = none)
    (hs : m.step s = .going s') :
    (m.rest s = .awake ∧ m.world s' = m.world s ∧
        (m.rest s' = .awake ∨ m.rest s' = .asleep ((m.world s).time + m.delay s))) ∨
      ∃ t due, m.rest s = .asleep t ∧ (m.world s).nextDue t = some due := by
  have hturn := hm.turn s
  rw [hs] at hturn
  cases hturn with
  | notes awake _ _ world rest => exact .inl ⟨awake, world, .inl rest⟩
  | sleeps awake _ _ world rest => exact .inl ⟨awake, world, .inr rest⟩
  | stirs asleep next => exact .inr ⟨_, _, asleep, next⟩
  | passes asleep next => exact absurd hp (pass?_ne_none asleep next)

theorem rest_of_pass?_eq_some (hm : m.Lawful) {p : m.Pass} (hp : m.pass? s = some p)
    (hs : m.step s = .going s') : m.rest s' = .awake := by
  obtain ⟨t, hr, hn, -, -⟩ := pass?_eq_some hp
  have hturn := hm.turn s
  rw [hs] at hturn
  cases hturn with
  | notes awake | sleeps awake => cases hr.symm.trans awake
  | stirs asleep next =>
    cases hr.symm.trans asleep
    cases hn.symm.trans next
  | passes asleep next pass signal rest => exact rest

/-- What holds of the passes of a run, each seen from the end of the one before it. -/
theorem forall_consecutive {Q : World → m.State → Prop} {P : World → m.Pass → Prop}
    (hstep : ∀ {a s s'}, Q a s → m.pass? s = none → m.step s = .going s' → Q a s')
    (hpass : ∀ {a s p}, Q a s → m.pass? s = some p → P a p)
    (hnext : ∀ {a s s' p}, Q a s → m.pass? s = some p → m.step s = .going s' → Q p.finish s')
    {a : World} (hs : Q a s) {k : Nat} {ps qs : List m.Pass} {q : m.Pass}
    (hq : m.passes k s = ps ++ q :: qs) : P ((ps.getLast?.map (·.finish)).getD a) q := by
  induction k generalizing a s ps with
  | zero => simp [passes] at hq
  | succ k ih =>
    cases hp : m.pass? s with
    | none =>
      cases hx : m.step s with
      | ended e w => simp [passes_ended hx, hp] at hq
      | going s' =>
        rw [passes_going hx, hp] at hq
        exact ih (hstep hs hp hx) hq
    | some p =>
      cases ps with
      | nil =>
        obtain ⟨qs', hqs⟩ := passes_of_pass? hp k
        obtain ⟨rfl, -⟩ := List.cons.inj (hqs.symm.trans hq)
        exact hpass hs hp
      | cons p' ps =>
        cases hx : m.step s with
        | ended e w => simp [passes_ended hx, hp] at hq
        | going s' =>
          rw [passes_going hx, hp] at hq
          obtain ⟨rfl, hrest⟩ := List.cons.inj hq
          have hnext := ih (hnext hs hp hx) hrest
          rw [Option.getD_map] at hnext
          rw [List.getLast?_cons]
          exact hnext

theorem Inv.heed_ne_stop (h : m.Inv n s) (hu : (m.world s).Unstopped n) :
    (m.heed s).1 ≠ some .stop := by
  intro hheed
  have hheeds := m.heeds s
  generalize m.heed s = o at hheeds hheed
  cases hheeds with
  | again | quiet => cases hheed
  | stop _ why =>
    refine hu.still (why.symm.imp id fun ⟨hnews, hset⟩ => ⟨hset, ?_⟩)
    exact Nat.lt_of_le_of_lt h.alert.le_seen (Nat.lt_of_le_of_ne h.alert.seen_le hnews)

/-- How many steps at most a loop is away from its next pass: it takes note of each thing that
happens and of the news there is, and goes to sleep. -/
def stepsToPass (m : Machine) (s : m.State) : Nat :=
  5 * (m.world s).schedule.length + m.news s + if m.rest s = .awake then 1 else 0

theorem stepsToPass_lt (hm : m.Lawful) (hp : m.pass? s = none) (hs : m.step s = .going s') :
    m.stepsToPass s' < m.stepsToPass s := by
  have hturn := hm.turn s
  have hnews := hm.news_le s'
  rw [hs] at hturn
  unfold stepsToPass
  cases hturn with
  | notes awake _ _ world rest _ news =>
    rw [world, if_pos awake, if_pos rest]
    omega
  | sleeps awake _ _ world rest news =>
    rw [world, if_pos awake, if_neg (by rw [rest]; nofun), news]
    omega
  | stirs asleep next _ world =>
    have hlength := World.length_schedule_advance_lt next
    rw [← world] at hlength
    split <;> omega
  | passes asleep next => exact absurd hp (pass?_ne_none asleep next)

/-- A loop that nobody stops makes as many passes as one likes, unless one of them crashes. -/
theorem Inv.goes_on (hm : m.Lawful) (h : m.Inv n s) (hu : (m.world s).Unstopped n) (j : Nat) :
    ∃ k, j ≤ (m.passes k s).length ∨ ∃ e w, m.run k s = (.crashed e, w) := by
  induction j generalizing s with
  | zero => exact ⟨0, .inl (Nat.zero_le _)⟩
  | succ j ih =>
    induction hn : m.stepsToPass s using Nat.strongRecOn generalizing s with
    | ind x next =>
      subst hn
      have hturn := hm.turn s
      cases hs : m.step s with
      | ended e w =>
        rw [hs] at hturn
        cases hturn with
        | stops _ heed => exact absurd heed (h.heed_ne_stop hu)
        | crashes => exact ⟨1, .inr ⟨_, _, hm.run_ended hs 0⟩⟩
      | going s' =>
        have h' := h.step hm hs
        obtain ⟨_, hpassage⟩ := h.passes hm hs
        have hu' := hpassage.unstopped hu
        cases hp : m.pass? s with
        | none =>
          obtain ⟨k, hk⟩ := next _ (stepsToPass_lt hm hp hs) h' hu' rfl
          refine ⟨k + 1, ?_⟩
          rw [passes_going hs, hm.run_going hs, hp]
          exact hk
        | some p =>
          obtain ⟨k, hk⟩ := ih h' hu'
          refine ⟨k + 1, ?_⟩
          rw [passes_going hs, hm.run_going hs, hp]
          exact hk.imp_left Nat.succ_le_succ

end Machine

/-! ### The wait of a relay -/

theorem newsOf_eq_zero {α : Type} {c : Config.Cell α} {x : Config.Watcher} :
    newsOf c x = 0 ↔ x.seen = c.announcements := by
  unfold newsOf
  split <;> simp [*]

namespace RelayRun

variable {n : Nat} {a : World} {done : List (Millis × Happening)} {r r' : RelayRun}
  {t due : Millis}

theorem look_eq_sleep_iff (r : RelayRun) : r.look.1 = .sleep ↔ r.world.signalled = true ∧
    r.loop.signal.seen = r.world.signal.announcements ∧
      r.loop.config.seen = r.world.relay.announcements := by
  have hheeds := heeds_onSignal r.world.signal r.world.signalled r.loop.signal
  rw [look, Relay.Loop.look]
  generalize Relay.onSignal r.world.signal r.world.signalled r.loop.signal = o at hheeds
  cases hheeds with
  | stop x why =>
    rcases why with ⟨news, -⟩ | gone
    · simp [news]
    · simp [gone]
  | again news => simp [news]
  | quiet seen alive =>
    by_cases hc : r.loop.config.seen = r.world.relay.announcements <;>
      simp [Config.Cell.look, hc, seen, alive]

theorem step_of_nextDue (hr : r.rest = .asleep t) (hn : r.world.nextDue t = some due) :
    r.step = .going (if ({ r with world := r.world.advance due } : RelayRun).look.1 = .sleep then
      { r with world := r.world.advance due }
    else { r with world := r.world.advance due, rest := .awake }) := by
  simp only [step, hr, hn]

/-- A relay that sleeps has seen all there is. -/
theorem seen_of_asleep (h : Machine.relay.Inv n r) (hr : r.rest = .asleep t) :
    r.loop.signal.seen = r.world.signal.announcements ∧
      r.loop.config.seen = r.world.relay.announcements := by
  obtain ⟨-, -, hnews⟩ := h.asleep hr
  obtain ⟨hsignal, hconfig⟩ := Nat.add_eq_zero_iff.1 hnews
  exact ⟨newsOf_eq_zero.1 hsignal, newsOf_eq_zero.1 hconfig⟩

/-- It goes on sleeping just if nothing wakes it. -/
theorem look_eq_sleep_iff_of_passage (h : Machine.relay.Inv n r) (hr : r.rest = .asleep t)
    {w : World} (hw : r.world.Passage done w) (hu : w.Unstopped n) :
    ({ r with world := w } : RelayRun).look.1 = .sleep ↔ wakeups done = 0 := by
  obtain ⟨hsignal, hconfig⟩ := seen_of_asleep h hr
  have hlive : w.signalled = true := Bool.of_not_eq_false fun hoff => hu.still (.inl hoff)
  have hwatched : w.watched = _ := hw.watched
  have hsum := Watched.announcements_add r.world.watched done
  have hsignals : r.world.watched.signal.announcements ≤
      (r.world.watched.after done).signal.announcements :=
    Watched.announcements_after (Nat.le_refl _)
  have hconfigs : r.world.watched.relay.announcements ≤
      (r.world.watched.after done).relay.announcements :=
    Watched.relay_announcements_after (Nat.le_refl _)
  rw [← hwatched] at hsum hsignals hconfigs
  change w.signal.announcements + w.relay.announcements =
    r.world.signal.announcements + r.world.relay.announcements + _ at hsum
  change r.world.signal.announcements ≤ w.signal.announcements at hsignals
  change r.world.relay.announcements ≤ w.relay.announcements at hconfigs
  rw [look_eq_sleep_iff]
  simp only [hsignal, hconfig, hlive, true_and]
  omega

/-- A relay on its way from one world to the next tick. -/
structure Waiting (a : World) (done : List (Millis × Happening)) (r : RelayRun) : Prop where
  passage : a.Passage done r.world
  awake : r.rest = .awake → r.world.time = restart a.time done
  asleep : ∀ {t}, r.rest = .asleep t → t = restart a.time done + r.world.relay.value.pollInterval
  bound : ∀ l, (∀ x ∈ a.watched.intervals done, x ≤ l) →
    restart a.time done ≤ a.time + wakeups done * l

theorem Waiting.start (ht : r.world.Timely) (hr : r.rest = .awake) : Waiting r.world [] r where
  passage := .refl ht
  awake _ := rfl
  asleep h := nomatch hr.symm.trans h
  bound _ _ := Nat.le_add_right ..

/-- What happens next wakes the relay, or it does not count. -/
theorem Waiting.stirs (hw : Waiting a done r) (h : Machine.relay.Inv n r)
    (hu : r.world.Unstopped n) (hr : r.rest = .asleep t) (hn : r.world.nextDue t = some due)
    (hs : r.step = .going r') : ∃ more, Waiting a (done ++ more) r' := by
  have htimely : r.world.Timely := h.timely
  obtain ⟨htime, more, hpassage, hdue⟩ := htimely.passage_of_nextDue hn
  have hlook := look_eq_sleep_iff_of_passage h hr hpassage (hpassage.unstopped hu)
  rw [step_of_nextDue hr hn] at hs
  have hall := hw.passage.trans hpassage
  have hsleep := hw.asleep hr
  have hbound : ∀ l, (∀ x ∈ a.watched.intervals (done ++ more), x ≤ l) →
      restart a.time done ≤ a.time + wakeups done * l := fun l hl =>
    hw.bound l fun x hx => hl x (Watched.intervals_subset _ _ _ hx)
  refine ⟨more, ?_⟩
  by_cases hmore : wakeups more = 0
  · rw [if_pos (hlook.2 hmore)] at hs
    cases hs
    have hrestart : restart a.time (done ++ more) = restart a.time done := by
      rw [restart_append, restart_of_wakeups_eq_zero hmore]
    refine ⟨hall, fun h => (nomatch hr.symm.trans h), fun ht => ?_, fun l hl => ?_⟩
    · obtain rfl : t = _ := Rest.asleep.inj (hr.symm.trans ht)
      rw [hrestart, hsleep, hpassage.relay_eq hmore]
    · rw [hrestart, wakeups_append, hmore]
      exact hbound l hl
  · rw [if_neg fun h => hmore (hlook.1 h)] at hs
    cases hs
    have hrestart : restart a.time (done ++ more) = due := by
      rw [restart_append, restart_of_wakeups_ne_zero hmore hdue]
    refine ⟨hall, fun _ => htime.trans hrestart.symm, nofun, fun l hl => ?_⟩
    -- it is woken before it has slept for the interval in force
    obtain ⟨-, -, -, hle⟩ := World.nextDue_eq_some hn
    have hinterval : r.world.relay.value.pollInterval ≤ l :=
      hl _ (Watched.intervals_subset _ _ _ hw.passage.interval_mem)
    calc restart a.time (done ++ more) = due := hrestart
      _ ≤ restart a.time done + r.world.relay.value.pollInterval := hsleep ▸ hle
      _ ≤ a.time + wakeups done * l + l := Nat.add_le_add (hbound l hl) hinterval
      _ = a.time + (wakeups done + 1) * l := by rw [Nat.add_one_mul, Nat.add_assoc]
      _ ≤ a.time + wakeups (done ++ more) * l := by
        rw [wakeups_append]
        exact Nat.add_le_add_left (Nat.mul_le_mul_right l
          (Nat.add_le_add_left (Nat.pos_of_ne_zero hmore) _)) _

/-- What a step that makes no pass preserves. -/
theorem Waiting.step (hw : Waiting a done r) (h : Machine.relay.Inv n r)
    (hu : r.world.Unstopped n) (hp : Machine.relay.pass? r = none) (hs : r.step = .going r') :
    ∃ more, Waiting a (done ++ more) r' := by
  rcases Machine.rest_of_pass?_eq_none Machine.relay_lawful hp hs with
    ⟨hr, hworld, hrest⟩ | ⟨t, due, hr, hn⟩
  · have hworld : r'.world = r.world := hworld
    refine ⟨[], ?_⟩
    rw [List.append_nil]
    refine ⟨hworld ▸ hw.passage, fun _ => hworld ▸ hw.awake hr, fun h => ?_, hw.bound⟩
    rcases hrest with hrest | hrest
    · cases hrest.symm.trans h
    · rw [← Rest.asleep.inj (hrest.symm.trans h), ← hw.awake hr, hworld]
      rfl
  · exact hw.stirs h hu hr hn hs

/-- The sleep is over, and the tick begins. -/
theorem Waiting.pass (hw : Waiting a done r) (h : Machine.relay.Inv n r)
    {p : Machine.relay.Pass} (hp : Machine.relay.pass? r = some p) : a.Waits done p.start := by
  obtain ⟨t, hr, hn, hstart, -⟩ := Machine.pass?_eq_some hp
  obtain ⟨hle, -⟩ := h.asleep hr
  have hpassage : r.world.Passage [] p.start :=
    hstart ▸ h.timely.passage_of_nextDue_eq_none hle hn
  have htime : p.start.time = restart a.time done + p.start.relay.value.pollInterval := by
    rw [hpassage.relay_eq rfl, ← hw.asleep hr, hstart]
    exact Nat.max_eq_right hle
  have hall := hw.passage.trans hpassage
  rw [List.append_nil] at hall
  refine ⟨hall, htime, fun l hl => ?_⟩
  rw [htime, Nat.add_one_mul, ← Nat.add_assoc]
  exact Nat.add_le_add (hw.bound l hl) (hl _ hall.interval_mem)

end RelayRun

/-! ### A whole run -/

/-- A relay that cannot be stopped, on its way to the next tick. -/
def RelayRun.OnWay (n : Nat) (a : World) (r : RelayRun) : Prop :=
  Machine.relay.Inv n r ∧ r.world.Unstopped n ∧ ∃ done, Waiting a done r

/-- Each tick of a run comes when the wait since the one before it is over. -/
theorem RelayRun.OnWay.waits {n : Nat} {a : World} {r : RelayRun} (h : OnWay n a r) {k : Nat}
    {ps qs : List Machine.relay.Pass} {q : Machine.relay.Pass}
    (hq : Machine.relay.passes k r = ps ++ q :: qs) :
    ∃ done, ((ps.getLast?.map (·.finish)).getD a).Waits done q.start := by
  refine Machine.forall_consecutive (Q := RelayRun.OnWay n)
    (P := fun a p => ∃ done, a.Waits done p.start) ?_ ?_ ?_ h hq
  · rintro a r r' ⟨h, hu, done, hw⟩ hp hs
    obtain ⟨_, hpassage⟩ := h.passes Machine.relay_lawful hs
    obtain ⟨more, hw'⟩ := hw.step h hu hp hs
    exact ⟨h.step Machine.relay_lawful hs, hpassage.unstopped hu, _, hw'⟩
  · rintro a r p ⟨h, hu, done, hw⟩ hp
    exact ⟨done, hw.pass h hp⟩
  · rintro a r r' p ⟨h, hu, done, hw⟩ hp hs
    obtain ⟨_, hpassage⟩ := h.passes Machine.relay_lawful hs
    have h' := h.step Machine.relay_lawful hs
    have hfinish : r'.world = p.finish := Machine.world_of_pass? Machine.relay_lawful hp hs
    refine ⟨h', hpassage.unstopped hu, [], hfinish ▸ .start h'.timely ?_⟩
    exact Machine.rest_of_pass?_eq_some Machine.relay_lawful hp hs

/-! ### From the start -/

namespace World

variable {w : World}

theorem Unstopped.of_schedule (hlive : w.signalled = true)
    (hschedule : ∀ p ∈ w.schedule, p.2.shutsDown = false) :
    w.Unstopped w.signal.announcements := by
  refine ⟨?_, hschedule⟩
  rintro (hoff | ⟨-, hlt⟩)
  · cases hlive.symm.trans hoff
  · exact absurd hlt (Nat.lt_irrefl _)

theorem onWay_start (hs : w.schedule.Pairwise (·.1 ≤ ·.1)) (ht : w.time = 0)
    (hlive : w.signalled = true) (hschedule : ∀ p ∈ w.schedule, p.2.shutsDown = false)
    (worker : String) :
    RelayRun.OnWay w.signal.announcements (w.advance 0) (.start worker w) := by
  have hpassage := passage_advance hs (Nat.le_of_eq ht)
  exact ⟨.of_start hs ht rfl rfl rfl, hpassage.unstopped (.of_schedule hlive hschedule), [],
    .start (r := .start worker w) hpassage.timely rfl⟩

/-- Where nobody shuts it down, a relay goes on to tick, unless a tick crashes. Each tick comes one
interval after the relay was last woken since the tick before it, or since its start: when one
interval has passed if it was not woken, and otherwise at most one interval later for each time. So
the wait is no longer than the longest interval in force just where it was last woken early
enough. -/
theorem ticks_after_reloads (hs : w.schedule.Pairwise (·.1 ≤ ·.1)) (ht : w.time = 0)
    (hlive : w.signalled = true) (hschedule : ∀ p ∈ w.schedule, p.2.shutsDown = false)
    (worker : String) :
    (∀ k ps q qs, Machine.relay.passes k (.start worker w) = ps ++ q :: qs →
      ∃ a done, a = (ps.getLast?.map (·.finish)).getD (w.advance 0) ∧ a.Waits done q.start ∧
        (wakeups done = 0 → q.start.time = a.time + a.relay.value.pollInterval) ∧
        (a.Prompt q.start ↔ ∃ x ∈ a.watched.intervals done,
          restart a.time done + q.start.relay.value.pollInterval ≤ a.time + x)) ∧
    ∀ j, ∃ k, j ≤ (Machine.relay.passes k (.start worker w)).length ∨
      ∃ e w', RelayRun.run k (.start worker w) = (.crashed e, w') := by
  have hway := onWay_start hs ht hlive hschedule worker
  refine ⟨fun k ps q qs hq => ?_, hway.1.goes_on Machine.relay_lawful hway.2.1⟩
  obtain ⟨done, hwaits⟩ := hway.waits hq
  exact ⟨_, done, rfl, hwaits, hwaits.of_wakeups_eq_zero, hwaits.prompt_iff⟩

/-- Reloads at 600 and at 1500, the second one to an interval of 200. -/
def twiceReloaded : World :=
  { World.ofTable [] 0 with
    schedule := [(600, .relayConfig .default),
      (1500, .relayConfig { RelayConfig.default with pollInterval := 200 })] }

set_option maxRecDepth 1000 in
/-- The first tick comes at 1700, and ticks go on to come. -/
theorem twiceReloaded_ticks :
    let w := twiceReloaded
    w.schedule.Pairwise (·.1 ≤ ·.1) ∧ w.time = 0 ∧ w.signalled = true ∧
      (∀ p ∈ w.schedule, p.2.shutsDown = false) ∧
      (∃ q qs done, Machine.relay.passes 8 (.start "w-1" w) = q :: qs ∧ q.start.time = 1700 ∧
        (w.advance 0).Waits done q.start) ∧
      ∃ k, 3 ≤ (Machine.relay.passes k (.start "w-1" w)).length ∨
        ∃ e w', RelayRun.run k (.start "w-1" w) = (.crashed e, w') := by
  intro w
  have hs : w.schedule.Pairwise (·.1 ≤ ·.1) := by decide
  have hschedule : ∀ p ∈ w.schedule, p.2.shutsDown = false := by decide
  obtain ⟨hwaits, hgoes⟩ := ticks_after_reloads hs rfl rfl hschedule "w-1"
  -- after the first reload it means to sleep until 1600, and after the second until 1700
  let r : RelayRun := ⟨"w-1", (w.advance 0).advance 600, ⟨⟨0⟩, ⟨1⟩⟩, .asleep 1600⟩
  let r' : RelayRun := ⟨"w-1", r.world.advance 1500, ⟨⟨0⟩, ⟨2⟩⟩, .asleep 1700⟩
  have hr : ∀ k, Machine.relay.passes (k + 4) (.start "w-1" w) = Machine.relay.passes k r :=
    fun _ => rfl
  have hr' : ∀ k, Machine.relay.passes (k + 3) r = Machine.relay.passes k r' := fun _ => rfl
  obtain ⟨q, hq, htime⟩ : ∃ q, Machine.relay.pass? r' = some q ∧ q.start.time = 1700 :=
    ⟨_, rfl, rfl⟩
  obtain ⟨qs, hqs⟩ := Machine.passes_of_pass? hq 0
  have hfirst := ((hr 4).trans (hr' 1)).trans hqs
  obtain ⟨_, done, rfl, hwait, -⟩ := hwaits 8 [] q qs hfirst
  exact ⟨hs, rfl, rfl, hschedule, ⟨q, qs, done, hfirst, htime, hwait⟩, hgoes 3⟩

/-- A reload at 600, between the start and the first tick. -/
def reloaded : World :=
  { World.ofTable [] 0 with schedule := [(600, .relayConfig .default)] }

/-- A reload of the same settings holds up the first tick: it comes after 1600 milliseconds at an
interval of 1000. -/
theorem reload_holds_up :
    ¬ ∀ (w : World) (worker : String), w.schedule.Pairwise (·.1 ≤ ·.1) → w.time = 0 →
      w.signalled = true → (∀ p ∈ w.schedule, p.2.shutsDown = false) →
      ∀ k ps q qs, Machine.relay.passes k (.start worker w) = ps ++ q :: qs →
        ((ps.getLast?.map (·.finish)).getD (w.advance 0)).Prompt q.start := by
  intro h
  obtain ⟨r, hr, q, hq, htime⟩ : ∃ r,
      (∀ k, Machine.relay.passes (k + 4) (.start "w-1" reloaded) = Machine.relay.passes k r) ∧
        ∃ q, Machine.relay.pass? r = some q ∧ q.start.time = 1600 := ⟨_, fun _ => rfl, _, rfl, rfl⟩
  obtain ⟨qs, hqs⟩ := Machine.passes_of_pass? hq 0
  obtain ⟨done, hpassage, x, hx, hle⟩ := h reloaded "w-1" (by decide) rfl rfl (by decide) 5 [] q qs
    ((hr 1).trans hqs)
  have hschedule : [(600, Happening.relayConfig .default)] = done ++ q.start.schedule :=
    hpassage.schedule
  have hx := Watched.intervals_subset _ done q.start.schedule hx
  rw [← hschedule] at hx
  have hx : x ∈ [1000, 1000] := hx
  obtain rfl : x = 1000 := by simpa using hx
  rw [htime] at hle
  exact absurd hle (by decide)

end World
end Outbox.Scenario
