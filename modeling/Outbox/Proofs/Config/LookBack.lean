import Outbox.Config.File
import Outbox.Proofs.Scenario.Machine

/-!
# How far settings look back

A tick looks back by the lease timeout and a purge by the retention window, and neither has a
greatest value. The calendar has an earliest date: in all years from 1970 on a look back succeeds
just if it is no longer than `Instant.reach` (`look_back_iff`). Settings beyond that are accepted,
and then the loop that goes by them breaks down at its first pass.
-/

namespace Outbox

namespace Instant

/-- The time from the earliest date to the beginning of 1970. -/
def reach : Millis := 377705116800000

theorem earliest_eq : earliest = -(reach * perMilli) := rfl

theorem isSome_before?_iff {t : Instant} (ht : t ≤ latest) {d : Millis} :
    (before? t d).isSome ↔ earliest ≤ t - d * perMilli := by
  have hd : 0 ≤ d * perMilli := Int.mul_nonneg (Int.natCast_nonneg d) (by decide)
  rw [Option.isSome_iff_exists]
  constructor
  · rintro ⟨r, hr⟩
    obtain ⟨rfl, h⟩ := before?_eq_some_iff.1 hr
    exact h.1
  · intro h
    exact ⟨_, before?_eq_some_iff.2 ⟨rfl, h, Int.le_trans (Int.sub_le_self t hd) ht⟩⟩

theorem forall_isSome_before?_iff {d : Millis} :
    (∀ t : Instant, 0 ≤ t → t ≤ latest → (before? t d).isSome) ↔ d ≤ reach := by
  have hmul : (d : Int) ≤ reach ↔ d * perMilli ≤ reach * perMilli :=
    (Int.mul_le_mul_right (by decide)).symm
  rw [← Int.ofNat_le, hmul]
  constructor
  · -- of all these times the beginning of 1970 is nearest to the earliest date
    intro h
    have h := (isSome_before?_iff (by decide)).1 (h 0 (Int.le_refl 0) (by decide))
    rw [earliest_eq, Int.zero_sub] at h
    exact Int.neg_le_neg_iff.1 h
  · intro hd t ht hl
    rw [isSome_before?_iff hl, earliest_eq]
    exact Int.le_trans (Int.neg_le_neg hd) (by
      rw [← Int.zero_sub]
      exact Int.sub_le_sub_right ht _)

/-- A longer time does not fit between the earliest date and the latest. -/
theorem before?_eq_none {t : Instant} (ht : t ≤ latest) {d : Millis} (hd : 2 * reach ≤ d) :
    before? t d = none := by
  have hspan : latest - 2 * reach * perMilli < earliest := by decide
  have hd : ((2 * reach : Nat) : Int) * perMilli ≤ d * perMilli :=
    Int.mul_le_mul_of_nonneg_right (Int.ofNat_le.2 hd) (by decide)
  rw [← Option.not_isSome_iff_eq_none, isSome_before?_iff ht, Int.not_le]
  exact Int.lt_of_le_of_lt (Int.sub_le_sub ht hd) hspan

end Instant

/-- From all years since 1970 ticks and purges can look back as far as the settings say just if that
does not exceed `Instant.reach`. -/
theorem look_back_iff (r : RelayConfig) (c : CleanerConfig) :
    (∀ now : Instant, 0 ≤ now → now ≤ Instant.latest →
      (∀ worker, (Relay.Tick.start? worker r now).isSome) ∧ (Cleaner.threshold? c now).isSome) ↔
    r.leaseTimeout ≤ Instant.reach ∧ c.retentionWindow ≤ Instant.reach := by
  have hstart : ∀ worker now, (Relay.Tick.start? worker r now).isSome =
      (now.before? r.leaseTimeout).isSome := fun worker now => Option.isSome_map
  rw [← Instant.forall_isSome_before?_iff, ← Instant.forall_isSome_before?_iff]
  constructor
  · intro h
    refine ⟨fun now h0 hl => ?_, fun now h0 hl => (h now h0 hl).2⟩
    rw [← hstart ""]
    exact (h now h0 hl).1 ""
  · rintro ⟨hr, hc⟩ now h0 hl
    exact ⟨fun worker => by rw [hstart]; exact hr now h0 hl, hc now h0 hl⟩

/-- A file that asks for leases and for a retention window of more than thirty thousand years. -/
def ConfigFile.farSighted : String :=
  "[admin]\nsecret = \"s\"\n\n[relay]\nlease_timeout_ms = 1000000000000000\n\n" ++
    "[cleaner]\nretention_window_secs = 1000000000000\n\n[broker]\nbase_url = \"http://b\"\n"

/-- The settings of such a file are accepted, and from no time can a tick or a purge look back. -/
theorem ConfigFile.farSighted_look_back :
    ∃ f, parse? farSighted = some f ∧ f.relay.config.validate = .ok () ∧
      f.cleaner.validate = .ok () ∧ ∀ now : Instant, now ≤ Instant.latest →
        (∀ worker, Relay.Tick.start? worker f.relay.config now = none) ∧
          Cleaner.threshold? f.cleaner now = none := by
  have hread : (parse? farSighted).map (fun f => (f.relay.config, f.cleaner)) =
      some ({ RelayConfig.default with leaseTimeout := 1000000000000000 },
        { CleanerConfig.default with retentionWindow := 1000000000000000 }) := by decide +kernel
  obtain ⟨f, hf, hconfigs⟩ := Option.map_eq_some_iff.1 hread
  obtain ⟨hr, hc⟩ := Prod.mk.inj hconfigs
  refine ⟨f, hf, hr ▸ rfl, hc ▸ rfl, fun now hl => ⟨fun worker => ?_, ?_⟩⟩
  · rw [Relay.Tick.start?, hr, Instant.before?_eq_none hl (by decide), Option.map_none]
  · rw [Cleaner.threshold?, hc, Instant.before?_eq_none hl (by decide)]

namespace Scenario
variable {w : World}

theorem World.tickPass_of_reach (hc : w.clock ≤ Instant.latest)
    (hr : 2 * Instant.reach ≤ w.relay.value.leaseTimeout) (worker : String) :
    (w.tickPass worker).1 = .error .timeOutOfRange := by
  simp only [tickPass, readClock, tick, Relay.Tick.start?, Instant.before?_eq_none hc hr,
    Option.map_none]

theorem World.purgePass_of_reach {c : CleanerConfig} (hc : w.clock ≤ Instant.latest)
    (hr : 2 * Instant.reach ≤ c.retentionWindow) :
    (w.purgePass c).1 = .error .timeOutOfRange := by
  simp only [purgePass, readClock, Cleaner.threshold?, Instant.before?_eq_none hc hr]

namespace Machine
variable {m : Machine} {s : m.State} {t : Millis} {e : Crash}

/-- A loop without any news goes to sleep. -/
theorem Lawful.exists_asleep (hm : m.Lawful) (hr : m.rest s = .awake)
    (hheed : (m.heed s).1 = none) (hn : m.news s = 0) :
    ∃ s' t, m.step s = .going s' ∧ m.world s' = m.world s ∧ m.rest s' = .asleep t := by
  generalize hstep : m.step s = x
  cases hstep ▸ hm.turn s with
  | stops awake heed => exact nomatch heed.symm.trans hheed
  | notes awake heed signal world rest delay news => omega
  | sleeps awake heed signal world rest news => exact ⟨_, _, rfl, world, rest⟩
  | stirs asleep => exact nomatch asleep.symm.trans hr
  | passes asleep => exact nomatch asleep.symm.trans hr
  | crashes asleep => exact nomatch asleep.symm.trans hr

/-- A loop that nothing wakes before its time breaks down if its pass does. -/
theorem Lawful.step_eq_crashed (hm : m.Lawful) (hr : m.rest s = .asleep t)
    (hnext : (m.world s).nextDue t = none)
    (hpass : (m.pass s ((m.world s).advance t)).1 = .error e) :
    ∃ w, m.step s = .ended (.crashed e) w := by
  generalize hstep : m.step s = x
  cases hstep ▸ hm.turn s with
  | stops awake => exact nomatch awake.symm.trans hr
  | notes awake => exact nomatch awake.symm.trans hr
  | sleeps awake => exact nomatch awake.symm.trans hr
  | stirs asleep next =>
    cases hr.symm.trans asleep
    exact nomatch next.symm.trans hnext
  | passes asleep next pass =>
    cases hr.symm.trans asleep
    exact nomatch (congrArg Prod.fst pass).symm.trans hpass
  | crashes asleep next pass =>
    cases hr.symm.trans asleep
    cases (congrArg Prod.fst pass).symm.trans hpass
    exact ⟨_, rfl⟩

/-- A loop without any news, and with none to come, breaks down if its first pass does. -/
theorem Lawful.crashes (hm : m.Lawful) (hr : m.rest s = .awake) (hheed : (m.heed s).1 = none)
    (hn : m.news s = 0) (hs : (m.world s).schedule = [])
    (hpass : ∀ t, (m.pass s ((m.world s).advance t)).1 = .error e) (k : Nat) :
    (m.run (k + 2) s).1 = .crashed e := by
  obtain ⟨s', t, hstep, hworld, hr'⟩ := hm.exists_asleep hr hheed hn
  have hnext : (m.world s').nextDue t = none := by rw [hworld, World.nextDue, hs]
  have hpass' : (m.pass s' ((m.world s').advance t)).1 = .error e := by
    rw [hm.pass_eq hstep, hworld]
    exact hpass t
  obtain ⟨w, hstep'⟩ := hm.step_eq_crashed hr' hnext hpass'
  rw [hm.run_going hstep, hm.run_ended hstep']

end Machine

theorem World.advance_of_schedule_eq_nil (hs : w.schedule = []) (t : Millis) :
    w.advance t = { w with time := max w.time t } := by
  rw [advance, hs, happenUntil, ← hs]

/-- A loop that looks back too far breaks down at its first pass. -/
theorem World.crashed_of_reach (hs : w.schedule = []) (hl : w.signalled = true)
    (hc : w.clock ≤ Instant.latest) :
    (2 * Instant.reach ≤ w.relay.value.leaseTimeout → ∀ worker,
      (w.runRelay worker).1 = .crashed .timeOutOfRange) ∧
    (2 * Instant.reach ≤ w.cleaner.value.retentionWindow →
      w.runCleaner.1 = .crashed .timeOutOfRange) := by
  have hstart := advance_of_schedule_eq_nil hs 0
  have hadvance : ∀ t, (w.advance 0).advance t = { w with time := max (max w.time 0) t } := by
    intro t
    rw [advance_of_schedule_eq_nil ((congrArg schedule hstart).trans hs), hstart]
  have hlimit : w.stepLimit = 8 + 2 := by rw [stepLimit, hs]; rfl
  constructor
  · intro hr worker
    rw [runRelay, hlimit]
    refine Machine.relay_lawful.crashes (s := RelayRun.start worker w) rfl ?_ ?_ ?_ (fun t => ?_) 8
    · simp [Machine.heed, Machine.relay, RelayRun.start, hstart, hl, Relay.onSignal,
        Relay.Loop.start, Config.Cell.look, Config.Cell.subscribe]
    · simp [Machine.relay, RelayRun.start, hstart, newsOf, Relay.Loop.start,
        Config.Cell.subscribe]
    · exact (congrArg schedule hstart).trans hs
    · change (((w.advance 0).advance t).tickPass worker).1 = _
      apply tickPass_of_reach <;> rw [hadvance] <;> assumption
  · intro hr
    rw [runCleaner, hlimit]
    refine Machine.cleaner_lawful.crashes (s := CleanerRun.start w) rfl ?_ ?_ ?_ (fun t => ?_) 8
    · simp [Machine.heed, Machine.cleaner, CleanerRun.start, hstart, hl, Relay.onSignal,
        Config.Cell.look, Config.Cell.subscribe]
    · simp [Machine.cleaner, CleanerRun.start, hstart, newsOf, Config.Cell.subscribe]
    · exact (congrArg schedule hstart).trans hs
    · change (((w.advance 0).advance t).purgePass ((w.advance 0).advance t).cleaner.value).1 = _
      apply purgePass_of_reach <;> rw [hadvance] <;> assumption

end Scenario
end Outbox
