import Outbox.Proofs.Store.Attempts

/-!
# Counts stay in range

The limit of attempts may be another one in each call, below zero too; it is only a number that a
count could reach. A failed attempt leaves its entry pending only below the limit of that very call,
so a pending entry always has room for one more attempt, and no call breaks down at any point of a
run (`counts_in_range`).
-/

namespace Outbox

theorem Table.overflows_of_within {t : Table} (h : ∀ e ∈ t, e.Within Entry.greatestCount)
    (c : Call) : t.overflows c = false := by
  cases c with
  | recordFailure claim error m =>
    refine (Option.any_eq_false ..).2 fun e hr => ?_
    obtain ⟨he, -⟩ := mem_of_row?_eq_some hr
    by_cases hp : e.status = .pending
    · have hlt := (h e he).lt (by simp [hp])
      simp [Entry.overflows, Int.not_le.2 hlt]
    · simp [Entry.overflows, hp]
  | _ => rfl

namespace History
open Store (Op)

theorem perform_of_within {h : History} (hw : ∀ e ∈ h.table, e.Within Entry.greatestCount)
    (c : Call) (fault : Option StoreError) : ∃ a, (h.perform c fault).1 = .ok a := by
  cases fault with
  | some e => exact ⟨.error e, rfl⟩
  | none =>
    have ho := Table.overflows_of_within hw c
    exact ⟨(h.table.answer c).1, by simp [perform, Table.perform, ho]⟩

/-- Only created entries come into the store, and no limit is greater than the greatest count. Then
every count can be held, that of a pending entry even with one more attempt, and at no point of the
run does a call break down, whichever it is. -/
theorem counts_in_range (ops : List Op)
    (hc : ∀ tx e, .insert tx e ∈ ops → ∃ id d now, Entry.create id d now = .ok e)
    (hlim : ∀ c fault m, .call c fault ∈ ops → c.maxRetry? = some m → m ≤ Entry.greatestCount) :
    (∀ e ∈ (run ops).table, 0 ≤ e.retryCount ∧ e.retryCount ≤ Entry.greatestCount ∧
      (e.status = .pending → e.retryCount < Entry.greatestCount)) ∧
    ∀ before, before <+: ops → ∀ c fault, ∃ a, ((run before).perform c fault).1 = .ok a := by
  have hpos : (1 : Int) ≤ Entry.greatestCount := by decide
  constructor
  · intro e he
    have hrow := within_run_of_le hpos hc hlim e he
    exact ⟨(consistent_run ops hc e he).count, hrow.le, fun hp => hrow.lt (by simp [hp])⟩
  · -- what has happened up to then is a run as well
    intro before hb c fault
    have hc' := fun tx e hop => hc tx e (hb.subset hop)
    have hlim' := fun c fault m hop => hlim c fault m (hb.subset hop)
    exact perform_of_within (within_run_of_le hpos hc' hlim') c fault

/-- The limit is as great as can be, then zero, then below zero, and then great again. -/
def shiftingLimits : List Op :=
  [.begin "tx", .insert "tx" .sample, .commit "tx", .call (.tryClaim (.ofNat 1) "w1" 10 0) none,
    .call (.recordFailure ⟨.ofNat 1, "w1", 10⟩ "busy" 2147483647) none,
    .call (.failExhausted 0 20) none, .call (.replayFailed (.ofNat 1)) none,
    .call (.tryClaim (.ofNat 1) "w2" 30 20) none,
    .call (.recordFailure ⟨.ofNat 1, "w2", 30⟩ "down" (-7)) none,
    .call (.replayFailed (.ofNat 1)) none, .call (.tryClaim (.ofNat 1) "w1" 50 40) none,
    .call (.recordFailure ⟨.ofNat 1, "w1", 50⟩ "late" 2147483647) none,
    .call (.tryClaim (.ofNat 1) "w2" 70 60) none]

theorem shiftingLimits_in_range :
    (∀ tx e, .insert tx e ∈ shiftingLimits → ∃ id d now, Entry.create id d now = .ok e) ∧
    (∀ c fault m, .call c fault ∈ shiftingLimits → c.maxRetry? = some m →
      m ≤ Entry.greatestCount) ∧
    (run shiftingLimits).table =
      [{ Entry.sample.leased "w2" 70 with retryCount := 1, lastError := some "late" }] ∧
    ∃ a, ((run shiftingLimits).perform
      (.recordFailure ⟨.ofNat 1, "w2", 70⟩ "again" 2147483647) none).1 = .ok a := by
  have hc : ∀ tx e, .insert tx e ∈ shiftingLimits → ∃ id d now, Entry.create id d now = .ok e := by
    intro tx e he
    obtain ⟨-, rfl⟩ : tx = "tx" ∧ e = .sample := by simpa [shiftingLimits] using he
    exact Entry.exists_create_sample
  have hlim : ∀ c fault m, .call c fault ∈ shiftingLimits → c.maxRetry? = some m →
      m ≤ Entry.greatestCount := by
    have hall : ∀ m ∈ shiftingLimits.filterMap Op.maxRetry?, m ≤ Entry.greatestCount := by decide
    intro c fault m hop hm
    exact hall m (List.mem_filterMap.2 ⟨_, hop, hm⟩)
  have ht : (run shiftingLimits).table =
      [{ Entry.sample.leased "w2" 70 with retryCount := 1, lastError := some "late" }] := by
    decide +kernel
  obtain ⟨-, hcalls⟩ := counts_in_range shiftingLimits hc hlim
  exact ⟨hc, hlim, ht, hcalls _ (List.prefix_refl _) _ none⟩

end History
end Outbox
