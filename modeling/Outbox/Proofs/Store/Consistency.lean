import Outbox.Proofs.Store.History

/-!
# Consistent rows

The columns that tell how far an entry has come depend on each other: `Consistent` lists how. A
fresh entry is consistent and every turn of an entry keeps it, so every row of every store is,
whatever was done with the store. Ids play no part: two rows may have one id.
-/

namespace Outbox

/-- The columns of an entry agree with each other. -/
structure Entry.Consistent (e : Entry) : Prop where
  publishedAt : e.publishedAt.isSome ↔ e.status = .published
  claim : e.claimedBy.isSome ↔ e.claimedAt.isSome
  released : e.status = .published ∨ e.status = .failed → e.claimedBy = none ∧ e.claimedAt = none
  failed : e.status = .failed → e.lastError.isSome
  retried : 0 < e.retryCount → e.lastError.isSome
  count : 0 ≤ e.retryCount

theorem Entry.consistent_fresh (id : Uuid) (d : Draft) (now : Instant) :
    (fresh id d now).Consistent := by
  constructor <;> simp [fresh]

namespace Turn
variable {d : Deed} {e e' : Entry}

theorem status_ne_published (h : Turn d e e') : e.status ≠ .published := by
  cases h with
  | claimed pending => simp [pending]
  | published held | retried held | rejected held => simp [held.pending]
  | retired exhausted => simp [(Entry.isExhausted_iff.1 exhausted).1]
  | replayed failed => simp [failed]

theorem publishedAt_iff (h : Turn d e e') (he : e.publishedAt.isSome ↔ e.status = .published) :
    e'.publishedAt.isSome ↔ e'.status = .published := by
  -- Only a delivery sets the time, and it is not set before.
  have hn : ¬ e.publishedAt.isSome := mt he.1 h.status_ne_published
  have hkeep : e'.publishedAt = e.publishedAt → e'.status ≠ .published →
      (e'.publishedAt.isSome ↔ e'.status = .published) := by
    intro hp hs
    rw [hp]
    exact ⟨fun h => absurd h hn, fun h => absurd h hs⟩
  cases h with
  | published => exact ⟨fun _ => rfl, fun _ => rfl⟩
  | claimed pending => exact hkeep rfl (by simp [Entry.leased, pending])
  | rejected | retired | replayed => exact hkeep rfl fun h => by cases h
  | retried held =>
    refine hkeep rfl ?_
    simp only [Entry.retried, Entry.release, held.pending]
    split <;> simp

/-- A turn gives the lease to somebody or takes it back. -/
theorem claim_iff (h : Turn d e e') : e'.claimedBy.isSome ↔ e'.claimedAt.isSome := by
  cases h with
  | claimed => exact ⟨fun _ => rfl, fun _ => rfl⟩
  | published | retried | rejected | retired | replayed => exact Iff.rfl

theorem retryCount_cases (h : Turn d e e') :
    e'.retryCount = e.retryCount ∨ e'.retryCount = e.retryCount + 1 ∨ e'.retryCount = 0 := by
  cases h with
  | claimed | published | rejected | retired => exact .inl rfl
  | retried => exact .inr (.inl rfl)
  | replayed => exact .inr (.inr rfl)

/-- A turn keeps the columns of an entry in agreement. -/
theorem consistent (h : Turn d e e') (he : e.Consistent) : e'.Consistent := by
  have hcount : 0 ≤ e'.retryCount := by
    have := he.count
    rcases h.retryCount_cases with h | h | h <;> omega
  have hpub := h.publishedAt_iff he.publishedAt
  have hclaim := h.claim_iff
  cases h with
  | claimed pending =>
    refine ⟨hpub, hclaim, ?_, he.failed, he.retried, hcount⟩
    simp [Entry.leased, pending]
  | published =>
    refine ⟨hpub, hclaim, fun _ => ⟨rfl, rfl⟩, fun h => ?_, he.retried, hcount⟩
    cases h
  | retried | rejected | retired =>
    exact ⟨hpub, hclaim, fun _ => ⟨rfl, rfl⟩, fun _ => rfl, fun _ => rfl, hcount⟩
  | replayed failed =>
    -- The last error stays when the entry is put back, and a failed entry has one.
    have herror := he.failed failed
    exact ⟨hpub, hclaim, fun _ => ⟨rfl, rfl⟩, fun _ => herror, fun _ => herror, hcount⟩

end Turn

namespace History
open Store (Op)
variable {P : Entry → Prop} {h h' : History}

/-- A property of all entries that are in the table or on their way to it. -/
structure Throughout (P : Entry → Prop) (h : History) : Prop where
  table : ∀ e ∈ h.table, P e
  staged : ∀ e ∈ h.store.allStaged, P e

theorem Throughout.step (hp : Throughout P h) {op : Op} (hs : Stepped h op h')
    (hin : ∀ e, op.incoming? = some e → P e)
    (hturn : ∀ c d e e', op = .call c none → c.Does d → Turn d e e' → P e → P e') :
    Throughout P h' := by
  cases hs with
  | same => exact hp
  | staged source =>
    refine ⟨hp.table, fun e he => ?_⟩
    rcases List.mem_append.1 (source.subset he) with he | he
    · exact hp.staged e he
    · exact hin e (Option.mem_toList.1 he)
  | committed source =>
    refine ⟨fun e he => ?_, fun e he => hp.staged e (source.subset (List.mem_append_right _ he))⟩
    rcases List.mem_append.1 he with he | he
    · exact hp.table e he
    · exact hp.staged e (source.subset (List.mem_append_left _ he))
  | @answered c eq =>
    refine ⟨fun e he => ?_, hp.staged⟩
    rcases Table.mem_answer_cases he with he | ⟨d, e₀, hd, he₀, turn⟩
    · exact hp.table e he
    · exact hturn c d e₀ e eq hd turn (hp.table e₀ he₀)

/-- What holds of every inserted entry, and is kept by every turn that the calls can bring about,
holds of every row. -/
theorem throughout_run (ops : List Op) (hin : ∀ e ∈ Store.inserted ops, P e)
    (hturn : ∀ c d e e', .call c none ∈ ops → c.Does d → Turn d e e' → P e → P e') :
    Throughout P (run ops) := by
  induction ops using List.reverseRecOn with
  | nil =>
    exact ⟨fun _ he => absurd he List.not_mem_nil, fun _ he => absurd he List.not_mem_nil⟩
  | append_singleton ops op ih =>
    rw [Store.inserted_append] at hin
    rw [run_concat]
    refine Throughout.step (ih ?_ ?_) ((run ops).stepped op) ?_ ?_
    · intro e he
      exact hin e (List.mem_append_left _ he)
    · intro c d e e' hc
      exact hturn c d e e' (List.mem_append_left _ hc)
    · intro e he
      refine hin e (List.mem_append_right _ ?_)
      exact List.mem_filterMap.2 ⟨op, List.mem_singleton_self op, he⟩
    · rintro c d e e' rfl
      exact hturn c d e e' (List.mem_append_right _ (List.mem_singleton_self _))

/-- Whatever is done with a store into which only created entries come, every row is consistent. -/
theorem consistent_run (ops : List Op)
    (hc : ∀ tx e, .insert tx e ∈ ops → ∃ id d now, Entry.create id d now = .ok e) :
    ∀ e ∈ (run ops).table, e.Consistent := by
  have hin : ∀ e ∈ Store.inserted ops, e.Consistent := by
    intro e he
    obtain ⟨id, d, now, h⟩ := Store.create_of_mem_inserted hc he
    rw [Entry.eq_fresh_of_create h]
    exact Entry.consistent_fresh id d now
  exact (throughout_run ops hin fun _ _ _ _ _ _ turn => turn.consistent).table

/-- An entry fails at once under a limit below zero, is put back, and is claimed again. -/
def revived : List Op :=
  [.begin "tx", .insert "tx" .sample, .commit "tx", .call (.tryClaim (.ofNat 1) "w1" 10 0) none,
    .call (.recordFailure ⟨.ofNat 1, "w1", 10⟩ "busy" (-1)) none,
    .call (.replayFailed (.ofNat 1)) none, .call (.tryClaim (.ofNat 1) "w2" 30 20) none]

theorem revived_consistent :
    (∀ tx e, .insert tx e ∈ revived → ∃ id d now, Entry.create id d now = .ok e) ∧
    (run revived).table = [{ Entry.sample.leased "w2" 30 with lastError := some "busy" }] ∧
    Entry.Consistent { Entry.sample.leased "w2" 30 with lastError := some "busy" } := by
  have hc : ∀ tx e, .insert tx e ∈ revived → ∃ id d now, Entry.create id d now = .ok e := by
    intro tx e he
    obtain ⟨-, rfl⟩ : tx = "tx" ∧ e = .sample := by simpa [revived] using he
    exact Entry.exists_create_sample
  have ht : (run revived).table =
      [{ Entry.sample.leased "w2" 30 with lastError := some "busy" }] := by decide +kernel
  exact ⟨hc, ht, consistent_run revived hc _ (ht ▸ List.mem_singleton_self _)⟩

end History
end Outbox
