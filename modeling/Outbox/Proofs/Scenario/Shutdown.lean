import Outbox.Proofs.Scenario.Progress

/-!
# Loops stop on shutdown

A pass is never told of the shutdown signal, so whatever it leads to it leads to where the signal is
not touched at all. The loop looks when the pass is over, and goes on from there (`Inv.in_turn`). So
no pass starts once shutdown has come, and the loop ends then and there or with the pass that was in
progress (`Inv.stopped_le`), never in the middle of it (`Inv.finish_le`). Nothing else ends it but a
pass that crashes (`crashed_of_run`).
-/

namespace Outbox.Scenario

open Relay (Tick)

namespace Machine

variable {m : Machine} {n : Nat} {T : Millis} {s s' : m.State}

/-! ### Passes -/

theorem pass?_of_awake (hr : m.rest s = .awake) : m.pass? s = none := by
  unfold pass?
  rw [hr]

theorem pass?_eq_some {p : m.Pass} (h : m.pass? s = some p) :
    ∃ t, m.rest s = .asleep t ∧ (m.world s).nextDue t = none ∧ p.start = (m.world s).advance t ∧
      m.pass s p.start = (p.result, p.finish) := by
  unfold pass? at h
  split at h
  · cases h
  · rename_i t hr
    split at h
    · cases h
    · rename_i hn
      cases h
      exact ⟨t, hr, hn, rfl, rfl⟩

/-- The step that makes a pass leads to its end. -/
theorem world_of_pass? (hm : m.Lawful) {p : m.Pass} (h : m.pass? s = some p)
    (hs : m.step s = .going s') : m.world s' = p.finish := by
  obtain ⟨t, hr, hn, hstart, hpass⟩ := pass?_eq_some h
  have hturn := hm.turn s
  rw [hs] at hturn
  cases hturn with
  | notes awake | sleeps awake => cases hr.symm.trans awake
  | stirs asleep next =>
    cases hr.symm.trans asleep
    cases hn.symm.trans next
  | passes asleep next pass =>
    cases hr.symm.trans asleep
    rw [← hstart, hpass] at pass
    exact (Prod.mk.inj pass).2.symm

theorem passes_of_pass? {p : m.Pass} (hp : m.pass? s = some p) (k : Nat) :
    ∃ qs, m.passes (k + 1) s = p :: qs := by
  rw [passes]
  split <;> simp [hp]

theorem mem_passes_of_pass? {p : m.Pass} (h : m.pass? s = some p) (k : Nat) :
    p ∈ m.passes (k + 1) s := by
  obtain ⟨qs, hqs⟩ := passes_of_pass? h k
  rw [hqs]
  exact List.mem_cons_self

/-- What holds of the passes that begin in the states of a run holds of its passes. -/
theorem forall_passes {Q : m.State → Prop} {P : m.Pass → Prop}
    (hQ : ∀ {s s'}, Q s → m.step s = .going s' → Q s')
    (hP : ∀ {s p}, Q s → m.pass? s = some p → P p) (hs : Q s) (k : Nat) :
    ∀ p ∈ m.passes k s, P p := by
  induction k generalizing s with
  | zero => exact fun p hp => absurd hp List.not_mem_nil
  | succ k ih =>
    intro p hp
    unfold passes at hp
    split at hp
    · rename_i s' hstep
      rcases List.mem_append.1 hp with hp | hp
      · exact hP hs (Option.mem_toList.1 hp)
      · exact ih (hQ hs hstep) p hp
    · exact hP hs (Option.mem_toList.1 hp)

theorem Inv.start_lt (hm : m.Lawful) (h : m.Inv n s) (hc : (m.world s).Closing n T) (k : Nat) :
    ∀ p ∈ m.passes k s, p.start.time < T := by
  refine forall_passes (Q := fun s => m.Inv n s ∧ (m.world s).Closing n T)
    (fun h hs => ⟨h.1.step hm hs, h.1.closing hm h.2 hs⟩) ?_ ⟨h, hc⟩ k
  rintro s p ⟨h, hc⟩ hp
  obtain ⟨t, hr, hn, hstart, -⟩ := pass?_eq_some hp
  obtain ⟨ht, hheed, -⟩ := h.asleep hr
  rcases hc with ⟨hT, before, x, after, hschedule, -⟩ | ⟨-, hshut⟩
  · have hlt : t < T := h.timely.lt_of_nextDue_eq_none hn (T, x) <| by
      rw [hschedule]
      exact List.mem_append_right _ List.mem_cons_self
    rw [hstart]
    exact Nat.max_lt.2 ⟨hT, hlt⟩
  · exact absurd hheed (h.heed_ne_none hshut)

/-- Every pass is the same where the signal is never touched. -/
theorem Inv.uncut (hm : m.Lawful) (h : m.Inv n s) (k : Nat) :
    ∀ p ∈ m.passes k s, p.start.Timely ∧ m.pass s p.start = (p.result, p.finish) ∧
      m.pass s p.start.hush = (p.result, p.finish.hush) := by
  refine forall_passes (Q := fun s' => m.Inv n s' ∧ m.pass s' = m.pass s)
    (fun h hs => ⟨h.1.step hm hs, (hm.pass_eq hs).trans h.2⟩) ?_ ⟨h, rfl⟩ k
  rintro s' p ⟨h, heq⟩ hp
  obtain ⟨t, hr, -, hstart, hpass⟩ := pass?_eq_some hp
  have hwait := World.passage_advance h.timely.sorted (h.asleep hr).1
  have htimely : p.start.Timely := hstart ▸ hwait.timely
  have hhush := hm.pass_hush s' htimely
  rw [hpass] at hhush
  rw [← heq]
  exact ⟨htimely, hpass, hhush⟩

theorem Inv.time_le_start (hm : m.Lawful) (h : m.Inv n s) (k : Nat) :
    ∀ p ∈ m.passes k s, (m.world s).time ≤ p.start.time := by
  refine forall_passes (Q := fun s' => m.Inv n s' ∧ (m.world s).time ≤ (m.world s').time)
    (fun h hs => ⟨h.1.step hm hs, Nat.le_trans h.2 (h.1.passes hm hs).time_le⟩) ?_
    ⟨h, Nat.le_refl _⟩ k
  rintro s' p ⟨-, hle⟩ hp
  obtain ⟨t, -, -, hstart, -⟩ := pass?_eq_some hp
  rw [hstart]
  exact Nat.le_trans hle (Nat.le_max_left ..)

/-- A pass starts when those before it are over. -/
theorem Inv.in_turn (hm : m.Lawful) (h : m.Inv n s) (k : Nat) :
    (m.passes k s).Pairwise fun p q => p.finish.time ≤ q.start.time := by
  induction k generalizing s with
  | zero => exact .nil
  | succ k ih =>
    cases hs : m.step s with
    | ended e w =>
      rw [passes_ended hs]
      cases m.pass? s with
      | none => exact .nil
      | some p => exact List.pairwise_singleton _ p
    | going s' =>
      have h' := h.step hm hs
      rw [passes_going hs]
      cases hp : m.pass? s with
      | none => exact ih h'
      | some p =>
        refine List.pairwise_cons.2 ⟨fun q hq => ?_, ih h'⟩
        rw [← world_of_pass? hm hp hs]
        exact h'.time_le_start hm k q hq

/-! ### Runs -/

theorem Inv.passes_run (hm : m.Lawful) (h : m.Inv n s) (k : Nat) :
    (m.world s).Passes (m.run k s).2 := by
  induction k generalizing s with
  | zero =>
    rw [hm.run_zero]
    exact ⟨_, .refl h.timely⟩
  | succ k ih =>
    have hturn := hm.turn s
    cases hs : m.step s with
    | going s' =>
      rw [hm.run_going hs]
      exact (h.passes hm hs).trans (ih (h.step hm hs))
    | ended e w =>
      rw [hm.run_ended hs]
      rw [hs] at hturn
      cases hturn with
      | stops => exact ⟨_, .refl h.timely⟩
      | crashes asleep next pass =>
        have hwait := World.passage_advance h.timely.sorted (h.asleep asleep).1
        have hpass := hm.pass_passes s hwait.timely
        rw [pass] at hpass
        exact World.Passes.trans ⟨_, hwait⟩ hpass

/-- Under shutdown a run ends where it is, without a pass. -/
theorem Inv.stopped_of_shut (hm : m.Lawful) (h : m.Inv n s) (hc : (m.world s).Shut n) {k : Nat}
    {e : Millis} {w : World} (hrun : m.run k s = (.stopped e, w)) :
    e = (m.world s).time ∧ m.passes k s = [] := by
  have hpass := pass?_of_awake (h.awake_of_shut hc)
  cases k with
  | zero =>
    rw [hm.run_zero] at hrun
    cases hrun
  | succ k =>
    rcases h.step_of_shut hm hc with hs | ⟨s', hs, hr, hs'⟩
    · rw [hm.run_ended hs] at hrun
      rw [passes_ended hs, hpass]
      cases hrun
      exact ⟨rfl, rfl⟩
    · rw [hm.run_going hs] at hrun
      rw [passes_going hs, hpass]
      cases k with
      | zero =>
        rw [hm.run_zero] at hrun
        cases hrun
      | succ k =>
        rw [hm.run_ended hs'] at hrun
        rw [passes_ended hs', pass?_of_awake hr]
        cases hrun
        exact ⟨rfl, rfl⟩

/-- A run that stops has found the signal set or its sender gone. -/
theorem Inv.stopping (hm : m.Lawful) (h : m.Inv n s) {k : Nat} {e : Millis} {w : World}
    (hrun : m.run k s = (.stopped e, w)) : e = w.time ∧ w.Stopping n := by
  induction k generalizing s with
  | zero =>
    rw [hm.run_zero] at hrun
    cases hrun
  | succ k ih =>
    have hturn := hm.turn s
    cases hs : m.step s with
    | going s' =>
      rw [hm.run_going hs] at hrun
      exact ih (h.step hm hs) hrun
    | ended x w' =>
      rw [hm.run_ended hs] at hrun
      rw [hs] at hturn
      cases hrun
      cases hturn with
      | stops _ heed =>
        have hheeds := m.heeds s
        generalize m.heed s = o at hheeds heed
        cases hheeds with
        | again | quiet => cases heed
        | stop _ why =>
          refine ⟨rfl, why.symm.imp id fun ⟨hnews, hset⟩ => ⟨hset, ?_⟩⟩
          exact Nat.lt_of_le_of_lt h.alert.le_seen (Nat.lt_of_le_of_ne h.alert.seen_le hnews)

/-- A run goes on from where a pass ended, so it stops no earlier. -/
theorem Inv.finish_le (hm : m.Lawful) (h : m.Inv n s) {k : Nat} {e : Millis} {w : World}
    (hrun : m.run k s = (.stopped e, w)) : ∀ p ∈ m.passes k s, p.finish.time ≤ e := by
  induction k generalizing s with
  | zero =>
    rw [hm.run_zero] at hrun
    cases hrun
  | succ k ih =>
    cases hs : m.step s with
    | going s' =>
      have h' := h.step hm hs
      rw [hm.run_going hs] at hrun
      rw [passes_going hs]
      intro p hp
      rcases List.mem_append.1 hp with hp | hp
      · have hle := (h'.passes_run hm k).time_le
        rw [hrun, world_of_pass? hm (Option.mem_toList.1 hp) hs] at hle
        rwa [(h'.stopping hm hrun).1]
      · exact ih h' hrun p hp
    | ended x w' =>
      have hturn := hm.turn s
      rw [hm.run_ended hs] at hrun
      rw [hs] at hturn
      cases hrun
      cases hturn with
      | stops awake =>
        rw [passes_ended hs, pass?_of_awake awake]
        exact fun p hp => absurd hp List.not_mem_nil

/-- A run that crashes does so in its last pass. -/
theorem crashed_of_run (hm : m.Lawful) {k : Nat} {e : Crash} {w : World}
    (hrun : m.run k s = (.crashed e, w)) :
    ∃ p, (m.passes k s).getLast? = some p ∧ p.result = .error e := by
  induction k generalizing s with
  | zero =>
    rw [hm.run_zero] at hrun
    cases hrun
  | succ k ih =>
    have hturn := hm.turn s
    cases hs : m.step s with
    | going s' =>
      rw [hm.run_going hs] at hrun
      obtain ⟨p, hp, he⟩ := ih hrun
      refine ⟨p, ?_, he⟩
      rw [passes_going hs, List.getLast?_append, hp]
      rfl
    | ended x w' =>
      rw [hm.run_ended hs] at hrun
      rw [hs] at hturn
      cases hrun
      cases hturn with
      | crashes asleep next pass =>
        rw [passes_ended hs, pass?, asleep]
        simp only [next, pass]
        exact ⟨_, rfl, rfl⟩

theorem Inv.at_once (hm : m.Lawful) (h : m.Inv n s) (hc : (m.world s).Closing n T) {k : Nat}
    {w : World} (hrun : m.run k s = (.running, w)) (hT : T ≤ w.time) :
    m.run (k + 2) s = (.stopped w.time, w) := by
  induction k generalizing s with
  | zero =>
    rw [hm.run_zero] at hrun
    cases hrun
    exact h.run_of_shut hm (hc.shut hT) 0
  | succ k ih =>
    have hturn := hm.turn s
    cases hs : m.step s with
    | ended e w' =>
      rw [hm.run_ended hs] at hrun
      rw [hs] at hturn
      cases hrun
      cases hturn
    | going s' =>
      rw [hm.run_going hs] at hrun ⊢
      exact ih (h.step hm hs) (h.closing hm hc hs) hrun

/-- A step that leads beyond the time of shutdown has made a pass. -/
theorem Inv.time_le_of_step (hm : m.Lawful) (h : m.Inv n s) (hT : (m.world s).time < T)
    (hc : (m.world s).ShutsAt T) (hp : m.pass? s = none) (hs : m.step s = .going s') :
    (m.world s').time ≤ T := by
  have hturn := hm.turn s
  rw [hs] at hturn
  cases hturn with
  | notes _ _ _ world | sleeps _ _ _ world =>
    rw [world]
    exact Nat.le_of_lt hT
  | @stirs _ t due asleep next _ world =>
    obtain ⟨x, hs, hschedule, -⟩ := World.nextDue_eq_some next
    obtain ⟨before, y, after, hschedule', -⟩ := hc
    have hsorted := h.timely.sorted
    -- what happens first is not later than shutdown
    have hdue : due ≤ T := by
      rw [hschedule] at hsorted hschedule'
      cases before with
      | nil => exact Nat.le_of_eq (congrArg Prod.fst (List.cons.inj hschedule').1)
      | cons q before =>
        obtain ⟨rfl, rfl⟩ := List.cons.inj hschedule'
        exact (List.pairwise_cons.1 hsorted).1 (T, y) (List.mem_append_right _ List.mem_cons_self)
    rw [world]
    exact Nat.max_le.2 ⟨Nat.le_of_lt hT, hdue⟩
  | passes asleep next =>
    unfold pass? at hp
    rw [asleep] at hp
    simp [next] at hp

/-- A run that ends after shutdown has come ends with the pass that was in progress. -/
theorem Inv.stopped_le (hm : m.Lawful) (h : m.Inv n s) (hc : (m.world s).Closing n T) {k : Nat}
    {e : Millis} {w : World} (hrun : m.run k s = (.stopped e, w)) :
    e ≤ T ∨ e = (m.world s).time ∨
      ∃ p, (m.passes k s).getLast? = some p ∧ p.finish.time = e := by
  induction k generalizing s with
  | zero =>
    rw [hm.run_zero] at hrun
    cases hrun
  | succ k ih =>
    by_cases hT : T ≤ (m.world s).time
    · exact .inr (.inl (h.stopped_of_shut hm (hc.shut hT) hrun).1)
    · have hT := Nat.not_le.1 hT
      have hturn := hm.turn s
      cases hs : m.step s with
      | ended e' w' =>
        rw [hm.run_ended hs] at hrun
        rw [hs] at hturn
        cases hrun
        cases hturn
        exact .inl (Nat.le_of_lt hT)
      | going s' =>
        rw [hm.run_going hs] at hrun
        have h' := h.step hm hs
        have hc' := h.closing hm hc hs
        have hpasses := passes_going hs k
        rcases ih h' hc' hrun with he | he | ⟨p, hp, he⟩
        · exact .inl he
        · -- the run ends where this step led: beyond shutdown only a pass leads there
          by_cases hT' : T ≤ (m.world s').time
          · have hnone := (h'.stopped_of_shut hm (hc'.shut hT') hrun).2
            cases hp : m.pass? s with
            | none => exact .inl (he ▸ h.time_le_of_step hm hT (hc.shutsAt hT) hp hs)
            | some p =>
              refine .inr (.inr ⟨p, ?_, ?_⟩)
              · rw [hpasses, hnone, hp]
                rfl
              · rw [he, world_of_pass? hm hp hs]
          · exact .inl (he ▸ Nat.le_of_not_le hT')
        · refine .inr (.inr ⟨p, ?_, he⟩)
          rw [hpasses, List.getLast?_append, hp]
          rfl

/-! ### From the start -/

/-- What it means for a loop that begins to watch a world in a state to stop on shutdown, and only
on shutdown. -/
structure StopsOnShutdown (m : Machine) (w : World) (s : m.State) : Prop where
  /-- Whatever its passes led to, it returns only if the signal is set or its sender is gone. -/
  only : ∀ k e w', m.run k s = (.stopped e, w') →
    e = w'.time ∧ w'.Stopping w.signal.announcements
  /-- It ends in no other way, unless in the middle of a pass that crashes. -/
  crashed : ∀ k e w', m.run k s = (.crashed e, w') →
    ∃ p, (m.passes k s).getLast? = some p ∧ p.result = .error e
  /-- From shutdown on no pass starts. -/
  no_later_pass : ∀ T, w.ShutFrom T → ∀ k, ∀ p ∈ m.passes k s, p.start.time < T
  /-- A pass starts when those before it are over. -/
  in_turn : ∀ k, (m.passes k s).Pairwise fun p q => p.finish.time ≤ q.start.time
  /-- No pass goes on when it has returned. -/
  finished : ∀ k e w', m.run k s = (.stopped e, w') → ∀ p ∈ m.passes k s, p.finish.time ≤ e
  /-- Every pass leads to the same where the signal is never touched. -/
  uncut : ∀ k, ∀ p ∈ m.passes k s, m.pass s p.start = (p.result, p.finish) ∧
    m.pass s p.start.hush = (p.result, p.finish.hush)
  /-- It returns by the time of shutdown or else at the end of the pass in progress then. -/
  returns : ∀ T, w.ShutFrom T → ∀ k e w', m.run k s = (.stopped e, w') →
    e ≤ T ∨ ∃ p, (m.passes k s).getLast? = some p ∧ p.start.time < T ∧ p.finish.time = e
  /-- Where it still runs when the time of shutdown has come, it returns there and then. -/
  at_once : ∀ T, w.ShutFrom T → ∀ k w', m.run k s = (.running, w') → T ≤ w'.time →
    m.run (k + 2) s = (.stopped w'.time, w')
  /-- The time of shutdown comes unless the loop sleeps for no time at all. -/
  ends : ∀ T, w.ShutFrom T → m.Restful w → (m.run w.stepLimit s).1 ≠ .running

theorem Inv.of_start {w : World} (hs : w.schedule.Pairwise (·.1 ≤ ·.1)) (ht : w.time = 0)
    (hworld : m.world s = w.advance 0) (hsignal : m.signal s = w.signal.subscribe)
    (hrest : m.rest s = .awake) : m.Inv w.signal.announcements s := by
  have hpassage := World.passage_advance hs (Nat.le_of_eq ht)
  have hwatched : (w.advance 0).watched = _ := hpassage.watched
  have halert : Alert w.signal.announcements w.watched w.signal.subscribe :=
    ⟨Nat.le_refl _, Nat.le_refl _, fun _ => .inr rfl⟩
  refine ⟨hworld ▸ hpassage.timely, ?_, ?_, fun h => nomatch hrest.symm.trans h⟩
  · rw [hworld]
    change _ ≤ (w.advance 0).watched.signal.announcements
    rw [hwatched]
    exact Watched.announcements_after (Nat.le_refl _)
  · rw [hworld, hsignal, hwatched]
    exact halert.after

theorem StopsOnShutdown.of_start {w : World} (hm : m.Lawful) (hs : w.schedule.Pairwise (·.1 ≤ ·.1))
    (ht : w.time = 0) (hworld : m.world s = w.advance 0)
    (hsignal : m.signal s = w.signal.subscribe) (hrest : m.rest s = .awake) :
    m.StopsOnShutdown w s := by
  have h : m.Inv w.signal.announcements s := .of_start hs ht hworld hsignal hrest
  have hpassage := World.passage_advance hs (Nat.le_of_eq ht)
  have hclosing : ∀ {T}, w.ShutFrom T → (m.world s).Closing w.signal.announcements T :=
    fun hT => hworld ▸ hT.closing hs ht
  have hzero : (m.world s).time = 0 := by
    rw [hworld]
    exact Nat.max_eq_left (Nat.zero_le _) |>.trans ht
  refine ⟨fun _ _ _ => h.stopping hm, fun _ _ _ => crashed_of_run hm,
    fun T hT => h.start_lt hm (hclosing hT), h.in_turn hm, fun _ _ _ => h.finish_le hm,
    fun k p hp => (h.uncut hm k p hp).2, ?_, fun T hT k w' => h.at_once hm (hclosing hT), ?_⟩
  · intro T hT k e w' hrun
    rcases h.stopped_le hm (hclosing hT) hrun with he | he | ⟨p, hp, he⟩
    · exact .inl he
    · exact .inl (he ▸ hzero ▸ Nat.zero_le _)
    · exact .inr ⟨p, hp, h.start_lt hm (hclosing hT) k p (List.mem_of_getLast? hp), he⟩
  · intro T hT hrestful
    refine h.run_ne_running hm (hclosing hT) (hworld ▸ hrestful.passage hpassage) ?_
    have hlength : (m.world s).schedule.length ≤ w.schedule.length := by
      rw [hworld, hpassage.schedule, List.length_append]
      exact Nat.le_add_left ..
    have hnews := hm.news_le s
    have hmax := hT.le_foldl
    rw [stepsTo_awake hrest, hzero, World.stepLimit]
    simp only [Millis] at hmax ⊢
    split <;> omega

/-- A pass that ends after shutdown has come is the last one. -/
theorem StopsOnShutdown.last_of_late {w : World} (h : m.StopsOnShutdown w s) (hT : w.ShutFrom T)
    {k : Nat} {p : m.Pass} {after : List m.Pass} (hp : p :: after <:+ m.passes k s)
    (hlate : T ≤ p.finish.time) : after = [] := by
  refine List.eq_nil_iff_forall_not_mem.2 fun q hq => ?_
  have hturn := (List.pairwise_cons.1 ((h.in_turn k).sublist hp.sublist)).1 q hq
  have hlt := h.no_later_pass T hT k q (hp.subset (List.mem_cons_of_mem p hq))
  exact absurd hlt (Nat.not_lt.2 (Nat.le_trans hlate hturn))

/-- The loop ends with it, unless it crashes. -/
theorem StopsOnShutdown.stopped_of_late {w : World} (h : m.StopsOnShutdown w s)
    (hT : w.ShutFrom T) (hr : m.Restful w) {p : m.Pass} {a : m.Result}
    (hp : (m.passes w.stepLimit s).getLast? = some p) (hlate : T ≤ p.finish.time)
    (ha : p.result = .ok a) : ∃ w', m.run w.stepLimit s = (.stopped p.finish.time, w') := by
  cases hrun : m.run w.stepLimit s with
  | mk e w' =>
    cases e with
    | running => exact absurd (congrArg Prod.fst hrun) (h.ends T hT hr)
    | crashed e =>
      obtain ⟨q, hq, he⟩ := h.crashed _ e w' hrun
      cases hp.symm.trans hq
      cases ha.symm.trans he
    | stopped e =>
      have hle := h.finished _ e w' hrun p (List.mem_of_getLast? hp)
      rcases h.returns T hT _ e w' hrun with he | ⟨q, hq, -, he⟩
      · exact ⟨w', by rw [Nat.le_antisymm hle (Nat.le_trans he hlate)]⟩
      · cases hp.symm.trans hq
        exact ⟨w', by rw [he]⟩

end Machine

/-- Both loops stop on shutdown and only on shutdown. A tick that is abandoned is abandoned at its
timeout, and no tick goes on beyond it; a purge takes no time. -/
theorem World.loops_stop_on_shutdown {w : World} (hs : w.schedule.Pairwise (·.1 ≤ ·.1))
    (ht : w.time = 0) (worker : String) :
    Machine.relay.StopsOnShutdown w (RelayRun.start worker w) ∧
      Machine.cleaner.StopsOnShutdown w (CleanerRun.start w) ∧
      (∀ k, ∀ p ∈ Machine.relay.passes k (RelayRun.start worker w),
        p.finish.time ≤ p.start.time + p.start.relay.value.tickTimeout ∧
          (p.result = .ok none →
            p.finish.time = p.start.time + p.start.relay.value.tickTimeout)) ∧
      ∀ k, ∀ p ∈ Machine.cleaner.passes k (CleanerRun.start w), p.finish.time = p.start.time := by
  refine ⟨.of_start Machine.relay_lawful hs ht rfl rfl rfl,
    .of_start Machine.cleaner_lawful hs ht rfl rfl rfl, fun k p hp => ?_, fun k p hp => ?_⟩
  · have h : Machine.relay.Inv _ (RelayRun.start worker w) := .of_start hs ht rfl rfl rfl
    obtain ⟨htimely, hpass, -⟩ := h.uncut Machine.relay_lawful k p hp
    have hwithin := htimely.within_tickPass worker
    change p.start.tickPass worker = (p.result, p.finish) at hpass
    rw [hpass] at hwithin
    exact ⟨hwithin.time_le, hwithin.abandoned⟩
  · have h : Machine.cleaner.Inv _ (CleanerRun.start w) := .of_start hs ht rfl rfl rfl
    obtain ⟨-, hpass, -⟩ := h.uncut Machine.cleaner_lawful k p hp
    have htime := (World.aloof_purgePass p.start.cleaner.value).time p.start
    change p.start.purgePass p.start.cleaner.value = (p.result, p.finish) at hpass
    rwa [hpass] at htime

/-- Polled every half second, the entry is on its way to a slow broker from 700 to 1500. Shutdown
comes at 1000. -/
def World.midSend : World :=
  let waiting : Entry :=
    { id := .ofNat 1, aggregateType := "User", aggregateId := "1", eventType := "UserFollowed",
      topic := "mopl.user.followed", payload := "", status := .pending, retryCount := 0,
      lastError := none, createdAt := 0, publishedAt := none, claimedBy := none, claimedAt := none }
  { World.ofTable [waiting] 0 with
    fallback := ⟨[], some 800, .ok ()⟩
    schedule := [(200, .relayConfig { RelayConfig.default with pollInterval := 500 }),
      (1000, .signal true)] }

/-- The loop once it has seen the new interval: it sleeps until its tick is due. -/
def World.midSendAsleep : RelayRun :=
  ⟨"w-1", (midSend.advance 0).advance 200, ⟨⟨0⟩, ⟨1⟩⟩, .asleep 700⟩

theorem World.midSend_tickPass : ∃ w,
    (midSendAsleep.world.advance 700).tickPass "w-1" =
      (.ok (some (.ok ⟨1, 1, 0, 0, 0, 0, 0⟩)), w) ∧ w.time = 1500 := by
  let t : Tick := ⟨"w-1", { RelayConfig.default with pollInterval := 500 }, 0, -300000000000⟩
  let waiting : Entry := (midSend.table : List Entry).head (by decide)
  let held : Claimed :=
    ⟨{ waiting with claimedBy := some "w-1", claimedAt := some 0 }, waiting.id, "w-1", 0⟩
  let published : Entry := { waiting with status := .published, publishedAt := some 0 }
  -- the world before the tick and after each of its five steps
  let w := (midSendAsleep.world.advance 700).readClock.2
  let swept := (w.perform (.failExhausted 3 t.cutoff)).2
  let listed := (swept.perform (.findPending 3 100 t.cutoff)).2
  let claimed := (listed.perform (.tryClaim waiting.id "w-1" 0 t.cutoff)).2
  let sent := (claimed.send (.ofEntry held.entry)).2
  let recorded := ((sent.advance 1500).perform (t.outcomeCall held.claim (.ok ()))).2
  have hsweep : w.perform (.failExhausted 3 t.cutoff) = (.ok (.ok []), swept) := rfl
  have hlist : swept.perform (.findPending 3 100 t.cutoff) = (.ok (.ok [waiting]), listed) := by
    have hone : [waiting].mergeSort Entry.before = [waiting] := List.mergeSort_singleton waiting
    refine Prod.ext ?_ rfl
    exact congrArg (fun es : List Entry => Except.ok (Except.ok (es.take 100))) hone
  have hclaim : listed.perform (.tryClaim waiting.id "w-1" 0 t.cutoff) =
      (.ok (.ok held), claimed) := Prod.ext rfl rfl
  have hsend : claimed.send (.ofEntry held.entry) = (.ok ⟨[], some 800, .ok ()⟩, sent) :=
    Prod.ext rfl rfl
  have hrecord : (sent.advance 1500).perform (t.outcomeCall held.claim (.ok ())) =
      (.ok (.ok published), recorded) := Prod.ext rfl rfl
  have hsent : sent.time = 700 := rfl
  have hrecorded : recorded.time = 1500 := (aloof_perform _).time _
  have ht : Tick.start? "w-1" w.relay.value 0 = some t := by decide
  refine ⟨recorded, ?_, hrecorded⟩
  change w.tick "w-1" 0 (some 300700) = _
  rw [World.tick, ht]
  -- what the steps are answered is known, so the worlds are not looked into any more
  clear_value recorded sent claimed listed swept
  calc w.runTick t (some 300700) .sweep
    _ = swept.runTick t (some 300700) (.list 0) :=
      runTick_answered (a := .ok []) (p := .sweep) rfl hsweep
    _ = listed.runTick t (some 300700) (.claim waiting [] (.start 1 0)) :=
      runTick_answered (a := .ok [waiting]) (p := .list 0) rfl hlist
    _ = claimed.runTick t (some 300700) (.send held [] (.start 1 0)) :=
      runTick_answered (a := .ok held) (p := .claim ..) rfl hclaim
    _ = (sent.advance 1500).runTick t (some 300700) (.record held (.ok ()) [] (.start 1 0)) := by
      rw [runTick_replied (p := .send ..) rfl hsend, hsent]
      · rfl
      · rintro _ ⟨⟩
        rw [hsent]
        decide
    _ = recorded.runTick t (some 300700) (.proceed [] ⟨1, 1, 0, 0, 0, 0, 0⟩) :=
      runTick_answered (a := .ok published) (p := .record ..) rfl hrecord
    _ = _ := runTick_done rfl

/-- Its first pass is under way when shutdown comes. -/
theorem World.midSend_passes : ∃ p more,
    Machine.relay.passes midSend.stepLimit (RelayRun.start "w-1" midSend) = p :: more ∧
      p.start.time = 700 ∧ p.finish.time = 1500 ∧
      p.result = .ok (some (.ok ⟨1, 1, 0, 0, 0, 0, 0⟩)) := by
  obtain ⟨w, hpass, hw⟩ := midSend_tickPass
  let start := midSendAsleep.world.advance 700
  have hfirst : Machine.relay.pass? midSendAsleep =
      some ⟨start, .ok (some (.ok ⟨1, 1, 0, 0, 0, 0, 0⟩)), w⟩ := by
    change some (Machine.Pass.mk (m := Machine.relay) start
      (start.tickPass "w-1").1 (start.tickPass "w-1").2) = _
    rw [hpass]
    rfl
  obtain ⟨more, hmore⟩ := Machine.passes_of_pass? hfirst 2015
  -- it falls asleep, wakes for the new interval, sees it and falls asleep again
  have hbefore : Machine.relay.passes midSend.stepLimit (RelayRun.start "w-1" midSend) =
      Machine.relay.passes 2016 midSendAsleep := rfl
  exact ⟨_, more, hbefore.trans hmore, rfl, hw, rfl⟩

/-- The loop ends with the pass that was in progress, which is as it would be without shutdown. -/
theorem World.midSend_stops :
    (midSend.schedule.Pairwise (·.1 ≤ ·.1) ∧ midSend.time = 0) ∧
      midSend.ShutFrom 1000 ∧ Machine.relay.Restful midSend ∧ Machine.cleaner.Restful midSend ∧
      midSend.runCleaner.1 ≠ .running ∧
      ∃ p w, midSend.runRelay "w-1" = (.stopped 1500, w) ∧ w.Stopping 0 ∧
        Machine.relay.passes midSend.stepLimit (RelayRun.start "w-1" midSend) = [p] ∧
        p.start.time = 700 ∧ p.finish.time = 1500 ∧
        p.start.hush.tickPass "w-1" = (.ok (some (.ok ⟨1, 1, 0, 0, 0, 0, 0⟩)), p.finish.hush) := by
  have hs : midSend.schedule.Pairwise (·.1 ≤ ·.1) := by decide
  have hshut : midSend.ShutFrom 1000 :=
    .inl ⟨[_], _, [], rfl, .inr ⟨rfl, fun _ hp => absurd hp List.not_mem_nil⟩⟩
  have hrelay : Machine.relay.Restful midSend := Machine.relay_restful (by decide) <| by
    rintro t c (_ | ⟨_, _ | ⟨_, ⟨⟩⟩⟩)
    decide
  have hcleaner : Machine.cleaner.Restful midSend := Machine.cleaner_restful (by decide) <| by
    rintro t c (_ | ⟨_, _ | ⟨_, ⟨⟩⟩⟩)
  obtain ⟨r, c, -, -⟩ := loops_stop_on_shutdown hs rfl "w-1"
  obtain ⟨p, more, hpasses, hstart, hfinish, hresult⟩ := midSend_passes
  have hlate : 1000 ≤ p.finish.time := by
    rw [hfinish]
    decide
  obtain rfl : more = [] := r.last_of_late hshut ⟨[], hpasses.symm⟩ hlate
  have hlast : (Machine.relay.passes midSend.stepLimit (RelayRun.start "w-1" midSend)).getLast? =
      some p := congrArg List.getLast? hpasses
  obtain ⟨w, hrun⟩ := r.stopped_of_late hshut hrelay hlast hlate hresult
  rw [hfinish] at hrun
  have hhush := (r.uncut midSend.stepLimit p (hpasses ▸ List.mem_cons_self)).2
  rw [hresult] at hhush
  exact ⟨⟨hs, rfl⟩, hshut, hrelay, hcleaner, c.ends 1000 hshut hcleaner, p, w, hrun,
    (r.only midSend.stepLimit _ w hrun).2, hpasses, hstart, hfinish, hhush⟩

end Outbox.Scenario
