import Outbox.Proofs.Scenario.Watched

/-!
# Passes in a scripted world

A pass of a relay is a tick under the timeout in force; a pass of a cleaner is a purge of what is
outside the retention window. Time goes on during a tick, but never beyond its timeout, and not at
all during a purge. Neither takes notice of the shutdown signal: it leads to the same result, and
leaves the same world behind, where the signal is never touched (`tickPass_hush`, `purgePass_hush`).
-/

namespace Outbox.Scenario

open Relay (Tick Report)
open Cleaner (Purge)

/-- The happening is about the shutdown signal. -/
def Happening.isSignal : Happening → Bool
  | .signal _ | .dropSignal => true
  | _ => false

namespace World

/-- A tick of a worker by the clock on the wall, abandoned at the timeout in force. -/
def tickPass (worker : String) (w : World) :
    Except Crash (Option (Except StoreError Report)) × World :=
  let (now, w) := w.readClock
  w.tick worker now (some (w.time + w.relay.value.tickTimeout))

/-- A purge of what is outside the retention window by the clock on the wall. -/
def purgePass (c : CleanerConfig) (w : World) : Except Crash (Except CleanupError Nat) × World :=
  let (now, w) := w.readClock
  match Cleaner.threshold? c now with
  | none => (.error .timeOutOfRange, w)
  | some threshold => w.runPurge (.ofConfig c threshold) 0

variable {w : World}

theorem aloof_readClock : Aloof readClock := ⟨fun _ _ _ => rfl, fun _ => rfl⟩

/-! ### What a pass does to what is watched -/

/-- Some of the schedule has happened, and nothing else that is watched. -/
def Passes (w w' : World) : Prop := ∃ done, w.Passage done w'

theorem Passes.trans {w w' w'' : World} : w.Passes w' → w'.Passes w'' → w.Passes w'' :=
  fun ⟨_, h⟩ ⟨_, h'⟩ => ⟨_, h.trans h'⟩

theorem Aloof.passes {α : Type} {f : World → α × World} (hf : Aloof f) (h : w.Timely) :
    w.Passes (f w).2 := ⟨_, hf.passage h⟩

theorem Passes.timely {w w' : World} : w.Passes w' → w'.Timely := fun ⟨_, h⟩ => h.timely

theorem Passes.time_le {w w' : World} : w.Passes w' → w.time ≤ w'.time := fun ⟨_, h⟩ => h.time

/-- The way of a tick under a deadline. -/
structure Within {α : Type} (w : World) (deadline : Millis) (x : Except Crash (Option α) × World) :
    Prop where
  passes : w.Passes x.2
  time_le : x.2.time ≤ deadline
  /-- A tick without a result was abandoned right there. -/
  abandoned : x.1 = .ok none → x.2.time = deadline

theorem Passes.within {α : Type} {w w' : World} {deadline : Millis}
    {x : Except Crash (Option α) × World} (h : w.Passes w') (h' : w'.Within deadline x) :
    w.Within deadline x := ⟨h.trans h'.passes, h'.time_le, h'.abandoned⟩

theorem Timely.within_runTick (h : w.Timely) (t : Tick) {d : Millis} (hd : w.time ≤ d)
    (p : Tick.Phase) : w.Within d (w.runTick t (some d) p) := by
  induction p using Tick.Phase.closer_wf.induction generalizing w with
  | _ p ih =>
    cases ha : t.ask p with
    | done r =>
      rw [runTick_done ha]
      exact ⟨⟨_, .refl h⟩, hd, nofun⟩
    | call c next =>
      have hcall := (aloof_perform c).passes h
      have htime := (aloof_perform c).time w
      rw [runTick_call ha]
      rcases hw : w.perform c with ⟨e | a, w'⟩ <;> rw [hw] at hcall htime
      · exact ⟨hcall, htime ▸ hd, nofun⟩
      · exact hcall.within (ih _ (Tick.closer_of_ask_call ha a) hcall.timely
          (htime ▸ hd))
    | send m next =>
      have hsend := (aloof_send m).passes h
      have htime := (aloof_send m).time w
      rw [runTick_send ha]
      rcases hw : w.send m with ⟨e | reply, w'⟩ <;> rw [hw] at hsend htime
      · exact ⟨hsend, htime ▸ hd, nofun⟩
      · have hd' : w'.time ≤ d := htime ▸ hd
        -- the deadline comes first, or the reply does
        by_cases hlate : d < w'.time + reply.wait t.config.sendTimeout
        · simp only [Option.filter_some, decide_eq_true hlate, if_true]
          exact ⟨hsend.trans ⟨_, passage_advance hsend.timely.sorted hd'⟩,
            Nat.max_le.2 ⟨hd', Nat.le_refl d⟩, fun _ => Nat.max_eq_right hd'⟩
        · simp only [Option.filter_some, decide_eq_false hlate, Bool.false_eq_true, if_false]
          have hwait := passage_advance hsend.timely.sorted
            (Nat.le_add_right w'.time (reply.wait t.config.sendTimeout))
          exact (hsend.trans ⟨_, hwait⟩).within (ih _ (Tick.closer_of_ask_send ha _) hwait.timely
            (Nat.max_le.2 ⟨hd', Nat.not_lt.1 hlate⟩))

/-- A tick of a relay ends at its timeout at the latest. -/
theorem Timely.within_tickPass (h : w.Timely) (worker : String) :
    w.Within (w.time + w.relay.value.tickTimeout) (w.tickPass worker) := by
  have hclock : w.Passes w.readClock.2 := aloof_readClock.passes h
  refine hclock.within ?_
  change w.readClock.2.Within _ (w.readClock.2.tick worker _ _)
  unfold tick
  split
  · exact ⟨⟨_, .refl hclock.timely⟩, Nat.le_add_right .., nofun⟩
  · exact hclock.timely.within_runTick _ (Nat.le_add_right ..) _

theorem runPurge_perform (p : Purge) (w : World) (deleted : Nat) :
    w.runPurge p deleted =
      match w.perform p.call with
      | (.error e, w') => (.error e, w')
      | (.ok (.error e), w') => (.ok (.error (.ofStore deleted e)), w')
      | (.ok (.ok n), w') =>
        if n < p.batch then (.ok (.ok (deleted + n)), w') else w'.runPurge p (deleted + n) := by
  rw [runPurge]
  split <;> rename_i h <;> rw [h]
  exact dite_eq_ite

theorem aloof_runPurge (p : Purge) (deleted : Nat) : Aloof (·.runPurge p deleted) := by
  suffices h : ∀ n, ∀ w : World, w.table.length = n → ∀ deleted,
      (∀ v hs, (w.under v hs).runPurge p deleted =
        ((w.runPurge p deleted).1, (w.runPurge p deleted).2.under v hs)) ∧
      (w.runPurge p deleted).2.time = w.time from
    ⟨fun w => (h _ w rfl deleted).1, fun w => (h _ w rfl deleted).2⟩
  intro n
  induction n using Nat.strongRecOn with
  | ind n ih =>
    rintro w rfl deleted
    have hunder := (aloof_perform p.call).under w
    have htime := (aloof_perform p.call).time w
    simp only [runPurge_perform p w, runPurge_perform p (w.under _ _), hunder]
    rcases hw : w.perform p.call with ⟨e | e | n, w'⟩ <;> rw [hw] at htime
    · exact ⟨fun _ _ => rfl, htime⟩
    · exact ⟨fun _ _ => rfl, htime⟩
    · by_cases hn : n < p.batch
      · simp only [if_pos hn]
        exact ⟨fun _ _ => trivial, htime⟩
      · have hlt : w'.table.length < w.table.length :=
          length_perform_lt hw (Nat.lt_of_lt_of_le p.batch_pos (Nat.not_lt.1 hn))
        obtain ⟨hu, ht⟩ := ih _ hlt w' rfl (deleted + n)
        simp only [if_neg hn]
        exact ⟨hu, ht.trans htime⟩

theorem aloof_purgePass (c : CleanerConfig) : Aloof (purgePass c) := by
  refine (aloof_readClock.seq fun now => (?_ : Aloof fun w =>
    match Cleaner.threshold? c now with
    | none => (.error .timeOutOfRange, w)
    | some threshold => w.runPurge (.ofConfig c threshold) 0)).congr fun _ => rfl
  cases Cleaner.threshold? c now with
  | none => exact ⟨fun _ _ _ => rfl, fun _ => rfl⟩
  | some threshold => exact aloof_runPurge _ 0

/-! ### Where the signal is never touched -/

/-- The same world, but nobody has touched the shutdown signal or ever will. -/
def hush (w : World) : World :=
  w.under { w.watched with signal := .new false, signalled := true }
    (w.schedule.filter fun p => !p.2.isSignal)

theorem Aloof.hush {α : Type} {f : World → α × World} (h : Aloof f) (w : World) :
    f w.hush = ((f w).1, (f w).2.hush) := by
  have hw : (f w).2.hush = (f w).2.under _ _ := rfl
  rw [World.hush, h.under, hw, h.watched, h.schedule]

theorem hush_happen (w : World) (h : Happening) :
    (w.happen h).hush = if h.isSignal then w.hush else w.hush.happen h := by
  cases h <;> rfl

theorem happenUntil_of_lt {t : Millis} {hs : List (Millis × Happening)} (w : World)
    (h : ∀ p ∈ hs, t < p.1) : happenUntil t hs w = { w with schedule := hs } := by
  cases hs with
  | nil => rfl
  | cons p hs => exact if_neg (Nat.not_le.2 (h p List.mem_cons_self))

theorem hush_happenUntil {t : Millis} {hs : List (Millis × Happening)} (w : World)
    (h : hs.Pairwise (·.1 ≤ ·.1)) :
    (happenUntil t hs w).hush = happenUntil t (hs.filter fun p => !p.2.isSignal) w.hush := by
  induction hs generalizing w with
  | nil => rfl
  | cons p hs ih =>
    obtain ⟨s, x⟩ := p
    obtain ⟨hp, hsorted⟩ := List.pairwise_cons.1 h
    by_cases hst : s ≤ t
    · have hstep : happenUntil t ((s, x) :: hs) w = happenUntil t hs (w.happen x) := if_pos hst
      rw [hstep, ih _ hsorted, hush_happen]
      cases hx : x.isSignal with
      | true => simp [hx]
      | false =>
        rw [List.filter_cons_of_pos (by simp [hx]), happenUntil, if_pos hst]
        simp
    · have hlt : ∀ q ∈ (s, x) :: hs, t < q.1 := by
        rintro q (_ | ⟨_, hq⟩)
        · exact Nat.not_le.1 hst
        · exact Nat.lt_of_lt_of_le (Nat.not_le.1 hst) (hp q hq)
      rw [happenUntil_of_lt _ hlt, happenUntil_of_lt _ fun q hq => hlt q (List.mem_filter.1 hq).1]
      rfl

theorem hush_advance (h : w.schedule.Pairwise (·.1 ≤ ·.1)) (t : Millis) :
    (w.advance t).hush = w.hush.advance t := by
  have hfirst : (w.advance t).hush =
      { (happenUntil t w.schedule w).hush with time := max w.time t } := rfl
  rw [hfirst, hush_happenUntil w h]
  rfl

theorem Timely.hush_runTick (h : w.Timely) (t : Tick) (deadline : Option Millis) (p : Tick.Phase) :
    w.hush.runTick t deadline p =
      ((w.runTick t deadline p).1, (w.runTick t deadline p).2.hush) := by
  induction p using Tick.Phase.closer_wf.induction generalizing w with
  | _ p ih =>
    cases ha : t.ask p with
    | done r => rw [runTick_done ha, runTick_done ha]
    | call c next =>
      have hcall := (aloof_perform c).passes h
      rw [runTick_call ha, runTick_call ha, (aloof_perform c).hush]
      rcases hw : w.perform c with ⟨e | a, w'⟩
      · rfl
      · rw [hw] at hcall
        exact ih _ (Tick.closer_of_ask_call ha a) hcall.timely
    | send m next =>
      have hsend := (aloof_send m).passes h
      rw [runTick_send ha, runTick_send ha, (aloof_send m).hush]
      rcases hw : w.send m with ⟨e | reply, w'⟩
      · rfl
      · rw [hw] at hsend
        have htime : w'.hush.time = w'.time := rfl
        simp only [htime]
        cases deadline.filter (· < w'.time + reply.wait t.config.sendTimeout) with
        | some d =>
          simp only [hush_advance hsend.timely.sorted]
        | none =>
          have hwait := passage_advance hsend.timely.sorted
            (Nat.le_add_right w'.time (reply.wait t.config.sendTimeout))
          simp only [← hush_advance hsend.timely.sorted]
          exact ih _ (Tick.closer_of_ask_send ha _) hwait.timely

/-- The shutdown signal makes no difference to a tick. -/
theorem Timely.tickPass_hush (h : w.Timely) (worker : String) :
    w.hush.tickPass worker = ((w.tickPass worker).1, (w.tickPass worker).2.hush) := by
  have hclock : w.Passes w.readClock.2 := aloof_readClock.passes h
  change w.readClock.2.hush.tick worker w.clock (some (w.time + w.relay.value.tickTimeout)) =
    ((w.readClock.2.tick worker w.clock (some (w.time + w.relay.value.tickTimeout))).1,
      (w.readClock.2.tick worker w.clock (some (w.time + w.relay.value.tickTimeout))).2.hush)
  unfold tick
  have hrelay : w.readClock.2.hush.relay = w.readClock.2.relay := rfl
  rw [hrelay]
  cases Tick.start? worker w.readClock.2.relay.value w.clock with
  | none => rfl
  | some t => exact hclock.timely.hush_runTick t _ _

theorem purgePass_hush (c : CleanerConfig) (w : World) :
    w.hush.purgePass c = ((w.purgePass c).1, (w.purgePass c).2.hush) := (aloof_purgePass c).hush w

end World
end Outbox.Scenario
