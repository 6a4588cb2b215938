import Outbox.Proofs.Scenario.Vigil

/-!
# The way to shutdown

A loop that never sleeps for no time at all gets to the time of shutdown. Each of its steps uses up
some of the schedule, some of the time left, or some of the news it has yet to take note of
(`stepsTo`), and no more than two steps follow when the time has come.
-/

namespace Outbox.Scenario
namespace Machine

variable {m : Machine} {n : Nat} {T : Millis} {s s' : m.State}

/-- The loop never sleeps for no time at all, whatever of the schedule has happened. -/
def Restful (m : Machine) (w : World) : Prop :=
  ∀ done rest, w.schedule = done ++ rest → 0 < m.interval (w.watched.after done)

theorem Restful.passage {w w' : World} {done : List (Millis × Happening)} (h : m.Restful w)
    (hw : w.Passage done w') : m.Restful w' := by
  intro done' rest hrest
  rw [hw.watched, ← Watched.after_append]
  refine h _ rest ?_
  rw [hw.schedule, hrest, List.append_assoc]

theorem Restful.of_happen {w : World} (h : 0 < m.interval w.watched)
    (hs : ∀ p ∈ w.schedule, ∀ v, 0 < m.interval v → 0 < m.interval (v.happen p.2)) :
    m.Restful w := by
  intro done rest hschedule
  refine Watched.after_induction (P := fun v => 0 < m.interval v) h fun v p hp => hs p ?_ v
  rw [hschedule]
  exact List.mem_append_left _ hp

/-- A relay is restful if its polling interval is never set to zero. -/
theorem relay_restful {w : World} (h : 0 < w.relay.value.pollInterval)
    (hs : ∀ t c, (t, .relayConfig c) ∈ w.schedule → 0 < c.pollInterval) : relay.Restful w := by
  refine .of_happen h fun p hp v hv => ?_
  rcases p with ⟨t, _ | _ | c | _ | _⟩
  case relayConfig => exact hs t c hp
  all_goals exact hv

/-- A cleaner is restful if its interval is never set to zero. -/
theorem cleaner_restful {w : World} (h : 0 < w.cleaner.value.interval)
    (hs : ∀ t c, (t, .cleanerConfig c) ∈ w.schedule → 0 < c.interval) : cleaner.Restful w := by
  refine .of_happen h fun p hp v hv => ?_
  rcases p with ⟨t, _ | _ | _ | c | _⟩
  case cleanerConfig => exact hs t c hp
  all_goals exact hv

/-- How many steps at most a loop is away from the time of shutdown. It gets there in fewer steps
the less is still to happen, and it goes to sleep and wakes again once in each millisecond. -/
def stepsTo (m : Machine) (T : Millis) (s : m.State) : Nat :=
  5 * (m.world s).schedule.length +
    match m.rest s with
    | .awake =>
      2 * (T - (m.world s).time) + 1 + m.news s + (if m.delay s = 0 then 2 else 0)
    | .asleep t => 2 * (T - ((m.world s).nextDue t).getD t) + 2

theorem stepsTo_awake (hr : m.rest s = .awake) : m.stepsTo T s =
    5 * (m.world s).schedule.length + (2 * (T - (m.world s).time) + 1 + m.news s +
      (if m.delay s = 0 then 2 else 0)) := by
  rw [stepsTo, hr]

theorem stepsTo_asleep {t : Millis} (hr : m.rest s = .asleep t) : m.stepsTo T s =
    5 * (m.world s).schedule.length + (2 * (T - ((m.world s).nextDue t).getD t) + 2) := by
  rw [stepsTo, hr]

theorem Inv.stepsTo_lt (hm : m.Lawful) (h : m.Inv n s) (hrestful : m.Restful (m.world s))
    (hT : (m.world s).time < T) (hs : m.step s = .going s') : m.stepsTo T s' < m.stepsTo T s := by
  have hturn := hm.turn s
  have h' := h.step hm hs
  have hnews := hm.news_le s'
  rw [hs] at hturn
  cases hturn with
  | notes awake _ _ world rest delay news =>
    rw [stepsTo_awake awake, stepsTo_awake rest, world, delay]
    omega
  | sleeps awake _ _ world rest =>
    rw [stepsTo_awake awake, stepsTo_asleep rest, world]
    have hle := h.timely.le_nextDue (Nat.le_add_right (m.world s).time (m.delay s))
    split
    · simp only [Millis] at hle ⊢
      omega
    · rename_i hdelay
      -- some time passes until it wakes
      have hlt : (m.world s).time <
          ((m.world s).nextDue ((m.world s).time + m.delay s)).getD
            ((m.world s).time + m.delay s) := by
        cases hn : (m.world s).nextDue ((m.world s).time + m.delay s) with
        | none => exact Nat.lt_add_of_pos_right (Nat.pos_of_ne_zero hdelay)
        | some due => exact h.timely.lt_of_nextDue hn
      simp only [Millis] at hlt hT ⊢
      omega
  | @stirs _ t due asleep next _ world rest =>
    have hlength := World.length_schedule_advance_lt next
    have htime : due ≤ (m.world s').time := by
      rw [world]
      exact Nat.le_max_right ..
    rw [stepsTo_asleep asleep, next, Option.getD_some]
    rw [← world] at hlength
    simp only [Millis] at htime
    rcases rest with rest | ⟨rest, -, -⟩
    · rw [stepsTo_awake rest]
      split <;> omega
    · rw [stepsTo_asleep rest]
      have hle := h'.timely.le_nextDue (h'.asleep rest).1
      simp only [Millis] at hle
      omega
  | @passes _ t _ asleep next pass _ rest delay news =>
    have hwait := World.passage_advance h.timely.sorted (h.asleep asleep).1
    obtain ⟨done, hpass⟩ : ((m.world s).advance t).Passes (m.world s') := by
      have hpass := hm.pass_passes s hwait.timely
      rwa [pass] at hpass
    have htime : t ≤ (m.world s').time := Nat.le_trans (Nat.le_max_right ..) hpass.time
    have hpassage := hwait.trans hpass
    have hdelay : m.delay s' ≠ 0 := by
      rw [delay]
      exact Nat.ne_of_gt (hrestful.passage hpassage [] _ rfl)
    rw [stepsTo_asleep asleep, stepsTo_awake rest, next, if_neg hdelay, Option.getD_none]
    have hschedule := congrArg List.length hpassage.schedule
    have hwatched := hpassage.watched
    generalize List.takeWhile _ _ ++ done = all at hschedule hwatched
    rw [List.length_append] at hschedule
    simp only [Millis] at htime
    cases all with
    | nil =>
      -- nothing has happened, so there is no news
      have hquiet : m.news s' = 0 := by rw [news hwatched, (h.asleep asleep).2.2]
      rw [List.length_nil] at hschedule
      omega
    | cons p all =>
      rw [List.length_cons] at hschedule
      omega

theorem Inv.run_ne_running (hm : m.Lawful) (h : m.Inv n s) (hc : (m.world s).Closing n T)
    (hrestful : m.Restful (m.world s)) {k : Nat} (hk : m.stepsTo T s + 2 < k) :
    (m.run k s).1 ≠ .running := by
  induction k generalizing s with
  | zero => exact absurd hk (Nat.not_lt_zero _)
  | succ k ih =>
    obtain ⟨j, rfl⟩ : ∃ j, k = j + 2 := ⟨k - 2, by omega⟩
    by_cases hT : T ≤ (m.world s).time
    · rw [h.run_of_shut hm (hc.shut hT)]
      nofun
    · have hT := Nat.not_le.1 hT
      have hturn := hm.turn s
      cases hs : m.step s with
      | ended e w =>
        rw [hm.run_ended hs]
        rw [hs] at hturn
        cases hturn <;> nofun
      | going s' =>
        rw [hm.run_going hs]
        have h' := h.step hm hs
        have hc' := h.closing hm hc hs
        obtain ⟨_, hpassage⟩ := h.passes hm hs
        have hlt := h.stepsTo_lt hm hrestful hT hs
        exact ih h' hc' (hrestful.passage hpassage) (by omega)

end Machine
end Outbox.Scenario
