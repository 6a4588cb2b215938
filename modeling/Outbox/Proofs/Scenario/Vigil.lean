import Outbox.Proofs.Scenario.Machine
import Outbox.Proofs.Scenario.Signal

/-!
# A loop on watch

A loop looks at what it watches before it goes to sleep, and again whenever something happens while
it sleeps. So it never sleeps with news waiting (`Inv`). Once shutdown has come it is awake and its
next look ends it, or the one after that: where the sender is gone, the first may still find that
the signal was unset last.
-/

namespace Outbox.Scenario
namespace Machine

variable {m : Machine} {n : Nat} {T : Millis} {s s' : m.State}

/-- What holds of a loop that began to watch the signal after `n` announcements. -/
structure Inv (m : Machine) (n : Nat) (s : m.State) : Prop where
  timely : (m.world s).Timely
  count : n ≤ (m.world s).signal.announcements
  alert : Alert n (m.world s).watched (m.signal s)
  /-- A loop sleeps only if there is no news. -/
  asleep : ∀ {t}, m.rest s = .asleep t →
    (m.world s).time ≤ t ∧ (m.heed s).1 = none ∧ m.news s = 0

/-- What was seen before the loop took note of the signal and what is seen after. -/
theorem Inv.alert_heed (h : m.Inv n s) (hs : (m.heed s).1 ≠ some .stop) :
    Alert n (m.world s).watched (m.heed s).2 := by
  have hheeds := m.heeds s
  generalize m.heed s = o at hheeds hs
  cases hheeds with
  | stop => exact absurd rfl hs
  | again news off => exact ⟨h.count, Nat.le_refl _, fun _ => .inl off⟩
  | quiet seen alive => exact h.alert

theorem Inv.passes (hm : m.Lawful) (h : m.Inv n s) (hs : m.step s = .going s') :
    (m.world s).Passes (m.world s') := by
  have hturn := hm.turn s
  rw [hs] at hturn
  cases hturn with
  | notes _ _ _ world | sleeps _ _ _ world =>
    rw [world]
    exact ⟨_, .refl h.timely⟩
  | stirs asleep next _ world =>
    have hlt := h.timely.lt_of_nextDue next
    exact world ▸ ⟨_, World.passage_advance h.timely.sorted (Nat.le_of_lt hlt)⟩
  | passes asleep next pass =>
    have hwait := World.passage_advance h.timely.sorted (h.asleep asleep).1
    have hpass := hm.pass_passes s hwait.timely
    rw [pass] at hpass
    exact .trans ⟨_, hwait⟩ hpass

theorem Inv.step (hm : m.Lawful) (h : m.Inv n s) (hs : m.step s = .going s') : m.Inv n s' := by
  have hpasses := h.passes hm hs
  obtain ⟨done, hpassage⟩ := hpasses
  have hwatched : (m.world s').watched = _ := hpassage.watched
  have hcount : n ≤ (m.world s').watched.signal.announcements := by
    rw [hwatched]
    exact Watched.announcements_after h.count
  have halert : ∀ {x}, Alert n (m.world s).watched x → Alert n (m.world s').watched x := by
    intro x hx
    rw [hwatched]
    exact hx.after
  have hturn := hm.turn s
  rw [hs] at hturn
  refine ⟨hpassage.timely, hcount, ?_, ?_⟩
  · cases hturn with
    | notes _ heed signal => exact signal ▸ halert (h.alert_heed heed)
    | sleeps _ _ signal => exact signal ▸ halert h.alert
    | stirs _ _ signal => exact signal ▸ halert h.alert
    | passes _ _ _ signal => exact signal ▸ halert h.alert
  · intro t ht
    cases hturn with
    | notes _ _ _ _ rest => rw [rest] at ht; cases ht
    | sleeps awake heed signal world rest news =>
      rw [rest] at ht
      cases ht
      refine ⟨world ▸ Nat.le_add_right .., ?_, news⟩
      unfold Machine.heed at heed ⊢
      rw [world, signal]
      exact heed
    | stirs asleep next signal world rest =>
      rcases rest with rest | ⟨rest, heed, news⟩
      · rw [rest] at ht; cases ht
      · rw [rest] at ht
        cases ht
        obtain ⟨x, hs, hschedule, hdue⟩ := World.nextDue_eq_some next
        refine ⟨?_, heed, news⟩
        rw [world]
        exact Nat.max_le.2 ⟨(h.asleep asleep).1, hdue⟩
    | passes _ _ _ _ rest => rw [rest] at ht; cases ht

/-- Under shutdown there is always something to find. -/
theorem Inv.heed_ne_none (h : m.Inv n s) (hc : (m.world s).Shut n) : (m.heed s).1 ≠ none := by
  intro hheed
  have hheeds := m.heeds s
  generalize m.heed s = o at hheeds hheed
  cases hheeds with
  | stop | again => cases hheed
  | quiet seen alive =>
    rcases hc with hc | ⟨⟨hset, hnew⟩, -⟩
    · rw [hc] at alive
      cases alive
    · rcases h.alert.off seen with hoff | hold
      · cases hset.symm.trans hoff
      · exact absurd hold (Nat.ne_of_gt hnew)

/-- A loop does not sleep through shutdown. -/
theorem Inv.awake_of_shut (h : m.Inv n s) (hc : (m.world s).Shut n) : m.rest s = .awake := by
  cases hr : m.rest s with
  | awake => rfl
  | asleep t => exact absurd (h.asleep hr).2.1 (h.heed_ne_none hc)

theorem step_of_heed (hm : m.Lawful) (hr : m.rest s = .awake) (hs : (m.heed s).1 = some .stop) :
    m.step s = .ended (.stopped (m.world s).time) (m.world s) := by
  have hturn := hm.turn s
  generalize m.step s = x at hturn
  cases hturn with
  | stops => rfl
  | notes _ heed => exact absurd hs heed
  | sleeps _ heed => cases hs.symm.trans heed
  | stirs asleep | passes asleep | crashes asleep => cases hr.symm.trans asleep

/-- Under shutdown a loop ends, after another look at most. -/
theorem Inv.step_of_shut (hm : m.Lawful) (h : m.Inv n s) (hc : (m.world s).Shut n) :
    m.step s = .ended (.stopped (m.world s).time) (m.world s) ∨
      ∃ s', m.step s = .going s' ∧ m.rest s' = .awake ∧
        m.step s' = .ended (.stopped (m.world s).time) (m.world s) := by
  have hr := h.awake_of_shut hc
  have hturn := hm.turn s
  generalize hx : m.step s = x at hturn
  cases hturn with
  | stops => exact .inl rfl
  | @notes s' _ heed signal world rest =>
    refine .inr ⟨s', rfl, rest, ?_⟩
    have hne : (m.heed s').1 ≠ none := (h.step hm hx).heed_ne_none (world ▸ hc)
    have hheeds := m.heeds s
    have hheeds' := m.heeds s'
    have hnone := h.heed_ne_none hc
    rw [← world]
    refine step_of_heed hm rest ?_
    generalize m.heed s' = o' at hheeds' hne
    generalize m.heed s = o at hheeds heed signal hnone
    cases hheeds' with
    | stop => rfl
    | quiet => exact absurd rfl hne
    | again news =>
      -- the first look has seen all there was
      cases hheeds with
      | stop => exact absurd rfl heed
      | again => exact absurd (by rw [signal, world]) news
      | quiet => exact absurd rfl hnone
  | sleeps _ heed => exact absurd heed (h.heed_ne_none hc)
  | stirs asleep | passes asleep | crashes asleep => cases hr.symm.trans asleep

theorem Inv.closing (hm : m.Lawful) (h : m.Inv n s) (hc : (m.world s).Closing n T)
    (hs : m.step s = .going s') : (m.world s').Closing n T :=
  have ⟨_, hpassage⟩ := h.passes hm hs
  hpassage.closing h.count hc

theorem Inv.run_of_shut (hm : m.Lawful) (h : m.Inv n s) (hc : (m.world s).Shut n) (k : Nat) :
    m.run (k + 2) s = (.stopped (m.world s).time, m.world s) := by
  rcases h.step_of_shut hm hc with hs | ⟨s', hs, -, hs'⟩
  · rw [hm.run_ended hs]
  · rw [hm.run_going hs, hm.run_ended hs']

end Machine
end Outbox.Scenario
