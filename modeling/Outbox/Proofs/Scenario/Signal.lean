import Outbox.Proofs.Scenario.Watched

/-!
# The shutdown signal in the course of time

The sender of the signal that is gone does not come back, and a signal that is set for good stays
set. So from the time that the schedule gives, shutdown has come (`Passage.closing`). A watcher that
has seen every announcement since it began to watch has seen the signal unset (`Alert`); the next
announcement is news to it.
-/

namespace Outbox.Scenario

open Config (Watcher)

/-! ### What time does to the signal -/

section
variable {v : Watched} {done : List (Millis × Happening)} {n : Nat}

theorem Watched.after_induction {P : Watched → Prop} (h : P v)
    (hstep : ∀ v, ∀ p ∈ done, P v → P (v.happen p.2)) : P (v.after done) := by
  induction done generalizing v with
  | nil => exact h
  | cons p ps ih =>
    exact ih (hstep v p List.mem_cons_self h) fun v q hq => hstep v q (List.mem_cons_of_mem _ hq)

theorem Watched.signalled_after (h : v.signalled = false) : (v.after done).signalled = false := by
  refine after_induction (P := fun v => v.signalled = false) h fun v p _ hv => ?_
  rcases p with ⟨_, _ | _ | _ | _ | _⟩
  case dropSignal => rfl
  all_goals exact hv

/-- Set after `n` announcements, the signal stays set if it is not set back. -/
theorem Watched.set_after (hdone : ∀ p ∈ done, p.2 ≠ .signal false)
    (h : v.signal.value = true ∧ n < v.signal.announcements) :
    (v.after done).signal.value = true ∧ n < (v.after done).signal.announcements := by
  refine after_induction (P := fun v => v.signal.value = true ∧ n < v.signal.announcements) h
    fun v p hp hv => ?_
  rcases p with ⟨_, stop | _ | _ | _ | _⟩
  case signal =>
    cases stop with
    | true => exact ⟨rfl, Nat.lt_succ_of_lt hv.2⟩
    | false => exact absurd rfl (hdone _ hp)
  all_goals exact hv

theorem Watched.announcements_after (h : n ≤ v.signal.announcements) :
    n ≤ (v.after done).signal.announcements := by
  refine after_induction (P := fun v => n ≤ v.signal.announcements) h fun v p _ hv => ?_
  rcases p with ⟨_, _ | _ | _ | _ | _⟩
  case signal => exact Nat.le_succ_of_le hv
  all_goals exact hv

/-- A watcher since `n` announcements that has seen all there were has seen the signal unset, if
there was any. -/
structure Alert (n : Nat) (v : Watched) (x : Watcher) : Prop where
  le_seen : n ≤ x.seen
  seen_le : x.seen ≤ v.signal.announcements
  off : x.seen = v.signal.announcements → v.signal.value = false ∨ v.signal.announcements = n

theorem Alert.after {x : Watcher} (h : Alert n v x) : Alert n (v.after done) x := by
  refine Watched.after_induction (P := fun v => Alert n v x) h fun v p _ hv => ?_
  rcases p with ⟨_, _ | _ | _ | _ | _⟩
  case signal =>
    exact ⟨hv.le_seen, Nat.le_succ_of_le hv.seen_le,
      fun h => absurd (h ▸ hv.seen_le) (Nat.not_succ_le_self _)⟩
  all_goals exact ⟨hv.le_seen, hv.seen_le, hv.off⟩

end

namespace World

variable {w w' : World} {done : List (Millis × Happening)} {T : Millis} {n : Nat}

/-- The signal is set, and was after `n` announcements, or its sender is gone. -/
def Stopping (n : Nat) (w : World) : Prop :=
  w.signalled = false ∨ w.signal.value = true ∧ n < w.signal.announcements

/-- At a time the signal is set for good, or its sender goes. -/
def ShutsAt (w : World) (T : Millis) : Prop :=
  ∃ before h after, w.schedule = before ++ (T, h) :: after ∧
    (h = .dropSignal ∨ h = .signal true ∧ ∀ p ∈ after, p.2 ≠ .signal false)

/-- From a time on the signal is set for good, or nobody is left to set it. -/
def ShutFrom (w : World) (T : Millis) : Prop := w.ShutsAt T ∨ T = 0 ∧ w.signalled = false

/-- The same for good. -/
def Shut (n : Nat) (w : World) : Prop :=
  w.signalled = false ∨
    (w.signal.value = true ∧ n < w.signal.announcements) ∧ ∀ p ∈ w.schedule, p.2 ≠ .signal false

/-- Shutdown comes at a time and stays. -/
def Closing (n : Nat) (T : Millis) (w : World) : Prop :=
  w.time < T ∧ w.ShutsAt T ∨ T ≤ w.time ∧ w.Shut n

theorem Passage.shut (h : w.Passage done w') (hs : w.Shut n) : w'.Shut n := by
  have hwatched : w'.watched = _ := h.watched
  rcases hs with hs | ⟨hset, hback⟩
  · exact .inl ((congrArg Watched.signalled hwatched).trans (Watched.signalled_after hs))
  · rw [h.schedule] at hback
    have hset' : w'.watched.signal.value = true ∧ n < w'.watched.signal.announcements := by
      rw [hwatched]
      exact Watched.set_after (fun p hp => hback p (List.mem_append_left _ hp)) hset
    exact .inr ⟨hset', fun p hp => hback p (List.mem_append_right _ hp)⟩

/-- The time of shutdown comes or is still to come. -/
theorem Passage.closing_of_shutsAt (h : w.Passage done w') (hn : n ≤ w.signal.announcements)
    (hs : w.ShutsAt T) : w'.Closing n T := by
  obtain ⟨before, x, after, hschedule, hx⟩ := hs
  rw [h.schedule] at hschedule
  rcases List.append_eq_append_iff.1 hschedule with ⟨late, rfl, hafter⟩ | ⟨soon, rfl, hafter⟩
  · -- it is still to come
    refine .inl ⟨h.timely.future (T, x) ?_, late, x, after, hafter, hx⟩
    rw [hafter]
    exact List.mem_append_right _ List.mem_cons_self
  · cases soon with
    | nil =>
      rw [List.nil_append] at hafter
      refine .inl ⟨h.timely.future (T, x) ?_, [], x, after, hafter.symm, hx⟩
      rw [← hafter]
      exact List.mem_cons_self
    | cons p soon =>
      -- it has come, and what came after it did not take it back
      obtain ⟨rfl, rfl⟩ := List.cons.inj hafter
      refine .inr ⟨h.past (T, x) (List.mem_append_right _ List.mem_cons_self), ?_⟩
      have hwatched : w'.watched = ((w.watched.after before).happen x).after soon := by
        rw [h.watched, Watched.after_append]
        rfl
      rcases hx with rfl | ⟨rfl, hback⟩
      · exact .inl ((congrArg Watched.signalled hwatched).trans (Watched.signalled_after rfl))
      · have hset : w'.watched.signal.value = true ∧ n < w'.watched.signal.announcements := by
          rw [hwatched]
          refine Watched.set_after (fun p hp => hback p (List.mem_append_left _ hp)) ⟨rfl, ?_⟩
          exact Nat.lt_succ_of_le (Watched.announcements_after (v := w.watched) hn)
        exact .inr ⟨hset, fun p hp => hback p (List.mem_append_right _ hp)⟩

theorem Passage.closing (h : w.Passage done w') (hn : n ≤ w.signal.announcements)
    (hc : w.Closing n T) : w'.Closing n T :=
  hc.elim (fun hc => h.closing_of_shutsAt hn hc.2)
    fun hc => .inr ⟨Nat.le_trans hc.1 h.time, h.shut hc.2⟩

theorem Closing.shut (h : w.Closing n T) (hT : T ≤ w.time) : w.Shut n :=
  h.elim (fun h => absurd h.1 (Nat.not_lt.2 hT)) And.right

theorem Closing.shutsAt (h : w.Closing n T) (hT : w.time < T) : w.ShutsAt T :=
  h.elim And.right fun h => absurd hT (Nat.not_lt.2 h.1)

/-- A loop starts when everything due at once has happened. -/
theorem ShutFrom.closing (h : w.ShutFrom T) (hs : w.schedule.Pairwise (·.1 ≤ ·.1))
    (ht : w.time = 0) : (w.advance 0).Closing w.signal.announcements T := by
  have hpassage := passage_advance hs (Nat.le_of_eq ht)
  rcases h with h | ⟨rfl, h⟩
  · exact hpassage.closing_of_shutsAt (Nat.le_refl _) h
  · exact .inr ⟨Nat.zero_le _, hpassage.shut (.inl h)⟩

theorem ShutFrom.le_foldl (h : w.ShutFrom T) :
    T ≤ w.schedule.foldl (fun t p => max t p.1) 0 := by
  rcases h with ⟨before, x, after, hschedule, -⟩ | ⟨rfl, -⟩
  · have hmono : ∀ (hs : List (Millis × Happening)) (t : Millis),
        t ≤ hs.foldl (fun t p => max t p.1) t := by
      intro hs
      induction hs with
      | nil => exact fun t => Nat.le_refl t
      | cons p hs ih => exact fun t => Nat.le_trans (Nat.le_max_left ..) (ih _)
    rw [hschedule, List.foldl_append, List.foldl_cons]
    exact Nat.le_trans (Nat.le_max_right ..) (hmono after _)
  · exact Nat.zero_le _

/-! ### What is next -/

theorem nextDue_eq_some {t due : Millis} (h : w.nextDue t = some due) :
    ∃ x hs, w.schedule = (due, x) :: hs ∧ due ≤ t := by
  unfold nextDue at h
  split at h
  · cases h
  · rename_i s x hs hschedule
    split at h
    · cases h
      exact ⟨x, hs, hschedule, ‹_›⟩
    · cases h

theorem Timely.lt_of_nextDue_eq_none {t : Millis} (hw : w.Timely) (h : w.nextDue t = none) :
    ∀ p ∈ w.schedule, t < p.1 := by
  unfold nextDue at h
  split at h
  · rename_i hschedule
    rw [hschedule]
    exact fun p hp => absurd hp List.not_mem_nil
  · rename_i s x hs hschedule
    have hsorted := hw.sorted
    rw [hschedule] at hsorted ⊢
    split at h
    · cases h
    · rename_i hlt
      rintro p (_ | ⟨_, hp⟩)
      · exact Nat.not_le.1 hlt
      · exact Nat.lt_of_lt_of_le (Nat.not_le.1 hlt) ((List.pairwise_cons.1 hsorted).1 p hp)

theorem Timely.lt_of_nextDue {t due : Millis} (hw : w.Timely) (h : w.nextDue t = some due) :
    w.time < due := by
  obtain ⟨x, hs, hschedule, -⟩ := nextDue_eq_some h
  exact hw.future (due, x) (hschedule ▸ List.mem_cons_self)

theorem Timely.le_nextDue {t : Millis} (hw : w.Timely) (ht : w.time ≤ t) :
    w.time ≤ (w.nextDue t).getD t := by
  cases h : w.nextDue t with
  | none => exact ht
  | some due => exact Nat.le_of_lt (hw.lt_of_nextDue h)

/-- What comes first is over once its time has come. -/
theorem length_schedule_advance_lt {t due : Millis} (h : w.nextDue t = some due) :
    (w.advance due).schedule.length < w.schedule.length := by
  obtain ⟨x, hs, hschedule, -⟩ := nextDue_eq_some h
  have hadvance : (w.advance due).schedule = _ := (happenUntil_eq due w.schedule w).1
  rw [hadvance, hschedule, List.dropWhile_cons_of_pos (by simp)]
  exact Nat.lt_succ_of_le (List.dropWhile_sublist _).length_le

end World

end Outbox.Scenario
