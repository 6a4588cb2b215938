import Outbox.Proofs.Store.CountRange

/-!
# Calls about different entries do not notice each other

A call about one entry reads the row with its id and changes that row or none: its answer comes from
that row alone (`answer_congr`), and the table after it is the one before with that row changed
(`answer_snd`). So two such calls about different entries can change places (`perform_comm`). No row
has to be the only one with its id; the first one is meant.
-/

namespace Outbox

/-! ### What a call makes of its row -/

namespace Entry

/-- The entry after a change, or as it was if it refuses the change. -/
def settle (change : Entry → Except Refusal Entry) (e : Entry) : Entry :=
  match change e with
  | .ok e' => e'
  | .error _ => e

theorem id_settle {change : Entry → Except Refusal Entry}
    (h : ∀ e e', change e = .ok e' → e'.id = e.id) (e : Entry) : (settle change e).id = e.id := by
  unfold settle
  split <;> rename_i hc
  · exact h e _ hc
  · rfl

end Entry

namespace Call

/-- The call is about one entry, the one that `entryId` names. -/
def isAboutOne : Call → Bool
  | tryClaim .. | markPublished .. | recordFailure .. | markFailed .. => true
  | replayFailed _ | get _ => true
  | _ => false

/-- The change of one entry that a call asks for. -/
def change : Call → Entry → Except Refusal Entry
  | tryClaim _ worker now cutoff => fun e => e.claim worker now cutoff
  | markPublished c now => fun e => e.markPublished c now
  | recordFailure c error m => fun e => e.recordFailure c error m
  | markFailed c error => fun e => e.markFailed c error
  | replayFailed _ => Entry.replay
  | _ => .ok

/-- No call gives an entry another id. -/
theorem id_of_change {c : Call} {e e' : Entry} (h : c.change e = .ok e') : e'.id = e.id := by
  cases c with
  | tryClaim =>
    obtain ⟨-, -, rfl⟩ := Entry.claim_eq_ok.1 h
    rfl
  | markPublished =>
    obtain ⟨-, rfl⟩ := Entry.markPublished_eq_ok.1 h
    rfl
  | recordFailure =>
    obtain ⟨-, rfl⟩ := Entry.recordFailure_eq_ok.1 h
    rfl
  | markFailed =>
    obtain ⟨-, rfl⟩ := Entry.markFailed_eq_ok.1 h
    rfl
  | replayFailed =>
    obtain ⟨-, rfl⟩ := Entry.replay_eq_ok.1 h
    rfl
  | findPending | failExhausted | deletePublished | get | list | count =>
    cases h
    rfl

theorem id_settle_change (c : Call) (e : Entry) : (e.settle c.change).id = e.id :=
  Entry.id_settle (fun _ _ => id_of_change) e

end Call

namespace Table

/-- The tables are the same but for one row at most, which has the id in both. -/
inductive SameBut (id : Uuid) : Table → Table → Prop
  | same (t : Table) : SameBut id t t
  | row (before after : Table) {e e' : Entry} (he : e.id = id) (he' : e'.id = id) :
      SameBut id (before ++ e :: after) (before ++ e' :: after)

theorem SameBut.cons {id : Uuid} {t t' : Table} (h : SameBut id t t') (e : Entry) :
    SameBut id (e :: t) (e :: t') := by
  cases h with
  | same => exact .same _
  | row before after he he' => exact .row (e :: before) after he he'

/-! ### Changing a row -/

section
variable {t : Table} {a b : Uuid} {f g : Entry → Entry}

theorem sameBut_alter (hf : ∀ e, (f e).id = e.id) (t : Table) (id : Uuid) :
    SameBut id t (t.alter id f) := by
  induction t with
  | nil => exact .same []
  | cons e t ih =>
    unfold alter
    split <;> rename_i he
    · exact .row [] t he ((hf e).trans he)
    · exact ih.cons e

/-- A change of one row cannot be seen at another id. -/
theorem row?_alter_of_ne (hf : ∀ e, (f e).id = e.id) (h : a ≠ b) (t : Table) :
    (t.alter a f).row? b = t.row? b := by
  unfold row?
  induction t with
  | nil => rfl
  | cons e t ih =>
    unfold alter
    split <;> rename_i he
    · have hb : e.id ≠ b := fun hb => h (he.symm.trans hb)
      rw [List.find?_cons_of_neg (by simpa [hf e] using hb),
        List.find?_cons_of_neg (by simpa using hb)]
    · rw [List.find?_cons, List.find?_cons, ih]

theorem alter_comm (hf : ∀ e, (f e).id = e.id) (hg : ∀ e, (g e).id = e.id) (h : a ≠ b)
    (t : Table) : Table.alter b g (t.alter a f) = Table.alter a f (t.alter b g) := by
  induction t with
  | nil => rfl
  | cons e t ih =>
    by_cases ha : e.id = a
    · simp [alter, hf, ha, h]
    · by_cases hb : e.id = b
      · simp [alter, hg, hb, h.symm]
      · simp [alter, ha, hb, ih]

theorem alter_of_row?_eq_none {id : Uuid} (hr : t.row? id = none) (f : Entry → Entry) :
    t.alter id f = t := by
  unfold row? at hr
  induction t with
  | nil => rfl
  | cons x t ih =>
    obtain ⟨hx, hr⟩ := List.forall_mem_cons.1 (List.find?_eq_none.1 hr)
    rw [alter, if_neg (by simpa using hx), ih (List.find?_eq_none.2 hr)]

theorem alter_of_row?_eq_some {id : Uuid} {e : Entry} (hr : t.row? id = some e)
    (f : Entry → Entry) : t.alter id f = t.put id (f e) := by
  unfold put row? at *
  induction t with
  | nil => cases hr
  | cons x t ih =>
    by_cases hx : x.id = id
    · rw [List.find?_cons_of_pos (by simpa using hx)] at hr
      rw [alter, alter, if_pos hx, if_pos hx, Option.some.inj hr]
    · rw [List.find?_cons_of_neg (by simpa using hx)] at hr
      rw [alter, alter, if_neg hx, if_neg hx, ih hr]

/-- A change that the row can refuse, as operations make it: without a row nothing is changed, nor
if the row refuses. -/
theorem alter_settle (t : Table) (id : Uuid) (change : Entry → Except Refusal Entry) :
    t.alter id (Entry.settle change) = match t.row? id with
      | none => t
      | some e => match change e with
        | .error _ => t
        | .ok e' => t.put id e' := by
  cases hr : t.row? id with
  | none => exact alter_of_row?_eq_none hr _
  | some e =>
    simp only [alter_of_row?_eq_some hr, Entry.settle]
    cases change e with
    | error => exact put_self hr
    | ok e' => rfl

end

/-! ### Calls about one entry -/

section
variable {t t' : Table} {c d : Call}

theorem record_snd (t : Table) (c : Claim) (change : Entry → Except Refusal Entry) :
    (t.record c change).2 = t.alter c.entryId (Entry.settle change) := by
  rw [alter_settle, record]
  cases t.row? c.entryId with
  | none => rfl
  | some e =>
    simp only
    cases change e <;> rfl

/-- The table after a call about one entry: its row is changed, unless it refuses. -/
theorem answer_snd (hc : c.isAboutOne) (t : Table) :
    (t.answer c).2 = t.alter c.entryId (Entry.settle c.change) := by
  cases c with
  | tryClaim id worker now cutoff =>
    rw [alter_settle]
    simp only [answer, tryClaim, Call.entryId, Call.change]
    cases t.row? id with
    | none => rfl
    | some e =>
      simp only
      cases e.claim worker now cutoff <;> rfl
  | markPublished c now => exact record_snd t c _
  | recordFailure c error m => exact record_snd t c _
  | markFailed c error => exact record_snd t c _
  | replayFailed id =>
    rw [alter_settle]
    simp only [answer, replayFailed, Call.entryId, Call.change]
    cases t.row? id with
    | none => rfl
    | some e =>
      simp only
      cases e.replay <;> rfl
  | get id =>
    rw [alter_settle]
    cases hr : t.row? (Call.get id).entryId with
    | none => rfl
    | some e => exact (put_self hr).symm
  | findPending | failExhausted | deletePublished | list | count => cases hc

theorem record_congr {claim : Claim} (h : t.row? claim.entryId = t'.row? claim.entryId)
    (change : Entry → Except Refusal Entry) :
    (t.record claim change).1 = (t'.record claim change).1 := by
  rw [record, record, h]
  cases t'.row? claim.entryId with
  | none => rfl
  | some e =>
    simp only
    cases change e <;> rfl

/-- The answer to a call about one entry comes from the row of that entry. -/
theorem answer_congr (hc : c.isAboutOne) (h : t.row? c.entryId = t'.row? c.entryId) :
    (t.answer c).1 = (t'.answer c).1 := by
  cases c with
  | tryClaim id worker now cutoff =>
    simp only [answer, tryClaim, show t.row? id = t'.row? id from h]
    cases t'.row? id with
    | none => rfl
    | some e =>
      simp only
      cases e.claim worker now cutoff <;> rfl
  | markPublished c now => exact record_congr h _
  | recordFailure c error m => exact record_congr h _
  | markFailed c error => exact record_congr h _
  | replayFailed id =>
    simp only [answer, replayFailed, show t.row? id = t'.row? id from h]
    cases t'.row? id with
    | none => rfl
    | some e =>
      simp only
      cases e.replay <;> rfl
  | get id => exact congrArg Except.ok h
  | findPending | failExhausted | deletePublished | list | count => cases hc

theorem overflows_congr (h : t.row? c.entryId = t'.row? c.entryId) :
    t.overflows c = t'.overflows c := by
  cases c with
  | recordFailure claim => exact congrArg (Option.any (·.overflows claim)) h
  | _ => rfl

/-- What a call about one entry answers, and the table that it leaves. -/
theorem perform_of_not_overflows (hc : c.isAboutOne) (h : t.overflows c = false) :
    t.perform c = .ok ((t.answer c).1, t.alter c.entryId (Entry.settle c.change)) := by
  rw [perform, h, if_neg (by decide), ← answer_snd hc]

/-- A call about one entry after a call about another one: the answer is the one that it would have
had before. -/
theorem perform_alter (hd : d.isAboutOne) (h : t.overflows d = false)
    (hne : c.entryId ≠ d.entryId) :
    Table.perform (t.alter c.entryId (Entry.settle c.change)) d = .ok ((t.answer d).1,
      Table.alter d.entryId (Entry.settle d.change)
        (t.alter c.entryId (Entry.settle c.change))) := by
  have hrow := row?_alter_of_ne c.id_settle_change hne t
  rw [perform_of_not_overflows hd ((overflows_congr hrow).trans h), answer_congr hd hrow]

/-- Two calls about different entries, in either order: each has one answer, the table at the end is
one, and no call changes anything but the row that it is about. -/
theorem perform_comm (hc : c.isAboutOne) (hd : d.isAboutOne) (hne : c.entryId ≠ d.entryId)
    (ht : ∀ e ∈ t, e.retryCount < Entry.greatestCount) :
    ∃ (a : c.Answer) (b : d.Answer) (tc td t' : Table),
      t.perform c = .ok (a, tc) ∧ tc.perform d = .ok (b, t') ∧
      t.perform d = .ok (b, td) ∧ td.perform c = .ok (a, t') ∧
      SameBut c.entryId t tc ∧ SameBut d.entryId tc t' ∧
      SameBut d.entryId t td ∧ SameBut c.entryId td t' := by
  have hwithin : ∀ e ∈ t, e.Within Entry.greatestCount := fun e he =>
    ⟨Int.le_of_lt (ht e he), fun _ => ht e he⟩
  have hcno := overflows_of_within hwithin c
  have hdno := overflows_of_within hwithin d
  have hcomm := alter_comm c.id_settle_change d.id_settle_change hne t
  refine ⟨(t.answer c).1, (t.answer d).1, t.alter c.entryId (Entry.settle c.change),
    t.alter d.entryId (Entry.settle d.change), _, perform_of_not_overflows hc hcno,
    perform_alter hd hdno hne, perform_of_not_overflows hd hdno, ?_,
    sameBut_alter c.id_settle_change .., sameBut_alter d.id_settle_change ..,
    sameBut_alter d.id_settle_change .., ?_⟩
  · rw [hcomm]
    exact perform_alter hc hcno hne.symm
  · rw [hcomm]
    exact sameBut_alter c.id_settle_change ..

/-- An entry that nobody tried is claimed, and a failed one is put back. -/
theorem claim_and_replay_comm :
    let failed : Entry := { Entry.sample with id := .ofNat 2, status := .failed }
    let t : Table := [Entry.sample, failed]
    let c : Call := .tryClaim (.ofNat 1) "w-1" 10 0
    let d : Call := .replayFailed (.ofNat 2)
    c.isAboutOne ∧ d.isAboutOne ∧ c.entryId ≠ d.entryId ∧
    (∀ e ∈ t, e.retryCount < Entry.greatestCount) ∧
    ∃ (a : c.Answer) (b : d.Answer) (tc td t' : Table),
      t.perform c = .ok (a, tc) ∧ tc.perform d = .ok (b, t') ∧
      t.perform d = .ok (b, td) ∧ td.perform c = .ok (a, t') ∧
      t' = [Entry.sample.leased "w-1" 10, failed.replayed] := by
  intro failed t c d
  have hne : c.entryId ≠ d.entryId := by decide
  have ht : ∀ e ∈ t, e.retryCount < Entry.greatestCount := by decide
  obtain ⟨a, b, tc, td, t', hc, hcd, hd, hdc, -⟩ :=
    perform_comm (c := c) (d := d) rfl rfl hne ht
  refine ⟨rfl, rfl, hne, ht, a, b, tc, td, t', hc, hcd, hd, hdc, ?_⟩
  cases hc
  cases hcd
  rfl

end

end Table
end Outbox
