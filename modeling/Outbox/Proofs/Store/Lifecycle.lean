import Outbox.Proofs.Store.Consistency

/-!
# The life of a row

`Lawful` says what one use of a store may make of a row that it leaves: what came in with the entry
stays, a published row never changes, and a failed one only by being put back. Rows leave the table
by purges alone, and a use that is declined changes nothing at all.
-/

namespace Outbox
open Store (Op)

/-- What a use of a store may make of a row. -/
structure Store.Op.Lawful (op : Op) (e e' : Entry) : Prop where
  origin : e'.origin = e.origin
  published : e.status = .published → e' = e
  failed : e.status = .failed → e' = e ∨ op = .call (.replayFailed e.id) none ∧
    e'.status = .pending ∧ e'.retryCount = 0 ∧ e'.lastError = e.lastError
  pending : e.status = .pending →
    (e'.status = .pending ∨ e'.status = .published ∨ e'.status = .failed) ∧
      (e'.retryCount = e.retryCount ∨ e'.retryCount = e.retryCount + 1)
  publishedAt : ∀ t, e.publishedAt = some t → e'.publishedAt = some t

namespace Store.Op.Lawful
variable {op : Op} {e e' : Entry}

theorem refl (op : Op) (e : Entry) : op.Lawful e e := by
  refine ⟨rfl, fun _ => rfl, fun _ => .inl rfl, fun hp => ⟨.inl hp, .inl rfl⟩, fun _ h => h⟩

theorem of_pending (hp : e.status = .pending) (he : e.Consistent) (ho : e'.origin = e.origin)
    (hc : e'.retryCount = e.retryCount ∨ e'.retryCount = e.retryCount + 1) : op.Lawful e e' := by
  refine ⟨ho, ?_, ?_, fun _ => ⟨?_, hc⟩, ?_⟩
  · intro hs
    rw [hp] at hs
    cases hs
  · intro hs
    rw [hp] at hs
    cases hs
  · cases e'.status <;> simp
  · intro t ht
    have hs : e.status = .published := he.publishedAt.1 (by simp [ht])
    rw [hp] at hs
    cases hs

end Store.Op.Lawful

theorem Turn.lawful {c : Call} {d : Deed} {e e' : Entry} (h : Turn d e e') (hd : c.Does d)
    (he : e.Consistent) : Op.Lawful (.call c none) e e' := by
  cases h with
  | claimed pending => exact .of_pending pending he rfl (.inl rfl)
  | published held => exact .of_pending held.pending he rfl (.inl rfl)
  | retried held => exact .of_pending held.pending he rfl (.inr rfl)
  | rejected held => exact .of_pending held.pending he rfl (.inl rfl)
  | retired exhausted =>
    exact .of_pending (Entry.isExhausted_iff.1 exhausted).1 he rfl (.inl rfl)
  | replayed failed =>
    cases hd
    refine ⟨rfl, ?_, fun _ => .inr ⟨rfl, rfl, rfl, rfl⟩, ?_, fun t ht => ht⟩
    · intro hs
      rw [failed] at hs
      cases hs
    · intro hs
      rw [failed] at hs
      cases hs

/-- The answer is an error, or that there is no such entry. -/
def Call.Declines : (c : Call) → c.Answer → Prop
  | _, .error _ => True
  | .replayFailed _, .ok e => e = none
  | .get _, .ok e => e = none
  | _, .ok _ => False

theorem Table.answer_of_declines {t : Table} {c : Call} (h : c.Declines (t.answer c).1) :
    (t.answer c).2 = t := by
  -- An outcome, like a claim, is refused with the table as it was, or is an answer.
  have hrecord : ∀ (claim : Claim) (change : Entry → Except Refusal Entry),
      (∃ x, (t.record claim change).1 = .error x) → (t.record claim change).2 = t := by
    rintro claim change ⟨x, hx⟩
    rcases t.record_cases claim change with he | ⟨_, _, _, _, he⟩
    · rw [he]
    · rw [he] at hx
      cases hx
  have herror : ∀ {c : Call} {a : c.Answer}, c.Declines a → (∀ id, c ≠ .replayFailed id) →
      (∀ id, c ≠ .get id) → ∃ x, a = .error x := by
    intro c a ha hr hg
    cases a with
    | error x => exact ⟨x, rfl⟩
    | ok a =>
      cases c with
      | replayFailed id => exact absurd rfl (hr id)
      | get id => exact absurd rfl (hg id)
      | _ => cases ha
  cases c with
  | findPending | get | list | count => rfl
  | failExhausted => cases h
  | deletePublished => cases h
  | tryClaim id w now cutoff =>
    obtain ⟨x, hx⟩ := herror h (by simp) (by simp)
    simp only [answer] at hx ⊢
    rcases t.tryClaim_cases id w now cutoff with he | ⟨_, _, _, _, he⟩
    · rw [he]
    · rw [he] at hx
      cases hx
  | markPublished c now => exact hrecord _ _ (herror h (by simp) (by simp))
  | recordFailure c error m => exact hrecord _ _ (herror h (by simp) (by simp))
  | markFailed c error => exact hrecord _ _ (herror h (by simp) (by simp))
  | replayFailed id =>
    rcases t.replayFailed_cases id with he | ⟨_, _, _, he⟩
    · simp only [answer, he]
    · simp only [answer, he] at h
      cases h

namespace History

/-- A use of the store gives an error, or that there is no such entry or transaction. -/
def Declines (h : History) : Op → Prop
  | .begin _ => False
  | .insert tx _ | .commit tx | .rollback tx => h.store.staged? tx = none
  | .append tx event id now => ∀ e s, h.store.append? tx event id now ≠ some (.ok e, s)
  | .call c fault => ∀ a, (h.perform c fault).1 = .ok a → c.Declines a

theorem store_step_of_declines {h : History} {op : Op} (hd : h.Declines op) :
    (h.step op).store = h.store := by
  cases op with
  | begin tx => cases hd
  | insert tx e => simp [step, withStore, Store.insert?, show h.store.staged? tx = none from hd]
  | commit tx => simp [step, withStore, Store.commit?, show h.store.staged? tx = none from hd]
  | rollback tx => simp [step, withStore, Store.rollback?, show h.store.staged? tx = none from hd]
  | append tx event id now =>
    simp only [step]
    have hd : ∀ e s, h.store.append? tx event id now ≠ some (.ok e, s) := hd
    unfold Store.append? at hd ⊢
    cases hs : h.store.staged? tx with
    | none => rfl
    | some es =>
      cases he : event.entry id now with
      | error x => rfl
      | ok e =>
        rw [hs, he] at hd
        exact absurd (by simp [Store.insert?, hs]; rfl) (hd e _)
  | call c fault =>
    have hd : ∀ a, (h.perform c fault).1 = .ok a → c.Declines a := hd
    simp only [step]
    rcases h.perform_cases c fault with ⟨_, he⟩ | ⟨_, he⟩ | ⟨rfl, he⟩
    · rw [he]
    · rw [he]
    · rw [he] at hd ⊢
      have ht : (h.table.answer c).2 = h.table := Table.answer_of_declines (hd _ rfl)
      simp only [answered, ht]
      rfl

/-- A row that is there before and after one more use of a store has changed lawfully. -/
theorem lawful_step {es : List Entry} {h h' : History} (l : Ledger es h)
    (hn : (es.map (·.id)).Nodup) (hcons : ∀ e ∈ h.table, e.Consistent) {op : Op}
    (hs : Stepped h op h') {e e' : Entry} (he : e ∈ h.table) (he' : e' ∈ h'.table)
    (hid : e'.id = e.id) : op.Lawful e e' := by
  have ht := l.distinct hn
  cases hs with
  | same => exact ht.eq_of_id he' he hid ▸ .refl op e
  | staged => exact ht.eq_of_id he' he hid ▸ .refl op e
  | committed source =>
    rcases List.mem_append.1 he' with he' | he'
    · exact ht.eq_of_id he' he hid ▸ .refl op e
    · obtain ⟨e₀, he₀, ho⟩ := l.exists_committed he
      have hstaged := source.subset (List.mem_append_left _ he')
      have hid₀ : e₀.id = e.id := congrArg Entry.Origin.id ho
      exact absurd (hid.trans hid₀.symm) (l.id_ne_of_staged hn he₀ hstaged)
  | @answered c eq =>
    obtain ⟨f, heff⟩ := Table.exists_effect ht c
    rcases heff.mem_cases he' with ⟨he', _⟩ | ⟨d, hd, e₀, he₀, turn⟩
    · exact ht.eq_of_id he' he hid ▸ .refl op e
    · have hid₀ : e'.id = e₀.id := congrArg Entry.Origin.id turn.origin_eq
      obtain rfl := ht.eq_of_id he₀ he (hid₀.symm.trans hid)
      rw [eq]
      exact turn.lawful (Call.does_of_mem_deeds hd) (hcons e₀ he)

theorem purged_of_step {h h' : History} (ht : h.table.Distinct) {op : Op} (hs : Stepped h op h')
    {e : Entry} (he : e ∈ h.table) (hgone : ∀ e' ∈ h'.table, e'.id ≠ e.id) :
    e.status = .published ∧
      ∃ before limit lock, op = .call (.deletePublished before limit lock) none := by
  cases hs with
  | same => exact absurd rfl (hgone e he)
  | staged => exact absurd rfl (hgone e he)
  | committed => exact absurd rfl (hgone e (List.mem_append_left _ he))
  | @answered c eq =>
    obtain ⟨f, heff⟩ := Table.exists_effect ht c
    rcases heff.row_cases he with ⟨he, _⟩ | ⟨d, hd, e', he', turn⟩ | ⟨_, _, _, rfl, outdated⟩
    · exact absurd rfl (hgone e he)
    · exact absurd (congrArg Entry.Origin.id turn.origin_eq) (hgone e' he')
    · simp only [Table.isOutdated, Bool.and_eq_true, decide_eq_true_eq] at outdated
      exact ⟨outdated.1, _, _, _, eq⟩

/-- Whatever was done with a store into which only created entries come, and whatever is done next:
rows that stay have changed lawfully, rows that go were published and are purged, and a use that is
declined leaves the store as it was. -/
theorem rows_lawful (ops : List Op) (op : Op)
    (hc : ∀ tx e, .insert tx e ∈ ops → ∃ id d now, Entry.create id d now = .ok e)
    (hn : ((Store.inserted ops).map (·.id)).Nodup) :
    (∀ e ∈ (run ops).table, ∀ e' ∈ ((run ops).step op).table, e'.id = e.id → op.Lawful e e') ∧
    (∀ e ∈ (run ops).table, (∀ e' ∈ ((run ops).step op).table, e'.id ≠ e.id) →
      e.status = .published ∧
        ∃ before limit lock, op = .call (.deletePublished before limit lock) none) ∧
    ((run ops).Declines op → ((run ops).step op).store = (run ops).store) := by
  have l := ledger_run ops hn
  have hs := (run ops).stepped op
  refine ⟨fun e he e' he' hid => ?_, fun e he hgone => ?_, store_step_of_declines⟩
  · exact lawful_step l hn (consistent_run ops hc) hs he he' hid
  · exact purged_of_step (l.distinct hn) hs he hgone

/-- A worker gives up on an entry. -/
def givenUp : List Op :=
  [.begin "tx", .insert "tx" .sample, .commit "tx", .call (.tryClaim (.ofNat 1) "w1" 10 0) none,
    .call (.markFailed ⟨.ofNat 1, "w1", 10⟩ "refused") none]

theorem givenUp_lawful :
    (∀ tx e, .insert tx e ∈ givenUp → ∃ id d now, Entry.create id d now = .ok e) ∧
    ((Store.inserted givenUp).map (·.id)).Nodup ∧
    (run givenUp).table = [Entry.sample.rejected "refused"] ∧
    ((run givenUp).step (.call (.replayFailed (.ofNat 1)) none)).table =
      [(Entry.sample.rejected "refused").replayed] ∧
    Op.Lawful (.call (.replayFailed (.ofNat 1)) none) (Entry.sample.rejected "refused")
      (Entry.sample.rejected "refused").replayed ∧
    (run givenUp).Declines (.call (.get (.ofNat 2)) none) ∧
    ((run givenUp).step (.call (.get (.ofNat 2)) none)).store = (run givenUp).store := by
  have hc : ∀ tx e, .insert tx e ∈ givenUp → ∃ id d now, Entry.create id d now = .ok e := by
    intro tx e he
    obtain ⟨-, rfl⟩ : tx = "tx" ∧ e = .sample := by simpa [givenUp] using he
    exact Entry.exists_create_sample
  have hn : ((Store.inserted givenUp).map (·.id)).Nodup := by decide
  have ht : (run givenUp).table = [Entry.sample.rejected "refused"] := by decide +kernel
  have ht' : ((run givenUp).step (.call (.replayFailed (.ofNat 1)) none)).table =
      [(Entry.sample.rejected "refused").replayed] := by decide +kernel
  have hd : (run givenUp).Declines (.call (.get (.ofNat 2)) none) := by
    intro a ha
    obtain rfl : a = .ok none := by
      rw [← Except.ok.inj ha]
      decide +kernel
    rfl
  refine ⟨hc, hn, ht, ht', ?_, hd, ?_⟩
  · exact (rows_lawful givenUp _ hc hn).1 _ (ht ▸ List.mem_singleton_self _) _
      (ht' ▸ List.mem_singleton_self _) rfl
  · exact (rows_lawful givenUp _ hc hn).2.2 hd

end History
end Outbox
