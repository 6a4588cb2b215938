import Outbox.Proofs.Store.History

/-!
# Claims fence outcomes

`Fenced` ties the lease in a row to the log of deeds: a row carries exactly the claim that the last
deed for it gave out, and a claim that was given out last is still in its row. So an outcome is only
recorded under the claim given out last, each claim serves for one outcome at most, and an entry is
claimed again only after its lease expired.
-/

namespace Outbox

namespace Deed

/-- The last deed for an entry, in a log that starts with the last deed. -/
def last? (ds : List Deed) (id : Uuid) : Option Deed := ds.find? fun d => d.entryId = id

/-- The last deed for the entry of the claim gave out the claim. -/
def Stands (ds : List Deed) (c : Claim) : Prop :=
  ∃ cutoff, last? ds c.entryId = some (claimed c cutoff)

/-- What was true before a deed: an outcome is that of the claim given out last, and a new claim
comes after the lease of such a claim expired. -/
structure Follows (older : List Deed) (d : Deed) : Prop where
  outcome : ∀ c, d.outcomeOf? = some c → Stands older c
  expired : ∀ c' cutoff c, d = claimed c' cutoff → c.entryId = c'.entryId → Stands older c →
    c.claimedAt < cutoff

section
variable {ds log : List Deed} {d : Deed} {id : Uuid}

theorem last?_append (ds log : List Deed) (id : Uuid) :
    last? (ds ++ log) id = (last? ds id).or (last? log id) := List.find?_append

theorem last?_eq_none : last? ds id = none ↔ ∀ d ∈ ds, d.entryId ≠ id := by simp [last?]

theorem last?_of_mem (h : (ds.map entryId).Nodup) (hd : d ∈ ds) : last? ds d.entryId = some d := by
  cases hl : last? ds d.entryId with
  | none => exact absurd rfl (last?_eq_none.1 hl d hd)
  | some d' =>
    have hid : d'.entryId = d.entryId := by simpa using List.find?_some hl
    rw [List.inj_on_of_nodup_map h (List.mem_of_find?_eq_some hl) hd hid]

theorem entryId_of_last?_eq_some (h : last? ds id = some d) : d ∈ ds ∧ d.entryId = id :=
  ⟨List.mem_of_find?_eq_some h, by simpa using List.find?_some h⟩

theorem Stands.append_iff {c : Claim} (h : ∀ d ∈ ds, d.entryId ≠ c.entryId) :
    Stands (ds ++ log) c ↔ Stands log c := by
  simp only [Stands, last?_append, last?_eq_none.2 h, Option.none_or]

theorem entryId_of_outcomeOf? {c : Claim} (h : d.outcomeOf? = some c) : d.entryId = c.entryId := by
  cases d <;> cases h <;> rfl

/-- The older part of a log with some deeds on top ends in the log, or is among the deeds. -/
theorem suffix_append_cases {older : List Deed} (h : d :: older <:+ ds ++ log) :
    d :: older <:+ log ∨ ∃ newer mid, ds = newer ++ d :: mid ∧ older = mid ++ log := by
  induction ds with
  | nil => exact .inl h
  | cons x ds ih =>
    rw [List.cons_append, List.suffix_cons_iff] at h
    rcases h with h | h
    · obtain ⟨rfl, rfl⟩ := List.cons.inj h
      exact .inr ⟨[], ds, rfl, rfl⟩
    · rcases ih h with h | ⟨newer, mid, rfl, rfl⟩
      · exact .inl h
      · exact .inr ⟨x :: newer, mid, rfl, rfl⟩

end
end Deed

open Deed (Stands Follows)

theorem Table.answer_outcome_cases (t : Table) {call : Call} {c : Claim}
    (h : call.outcomeOf? = some c) :
    t.answer call = (.error (.leaseLost c.entryId), t) ∨ ∃ e ∈ t, e.currentClaim = some c := by
  cases call with
  | markPublished c' now =>
    cases h
    refine (t.record_cases c (·.markPublished c now)).imp id fun ⟨e, _, hr, hc, _⟩ => ?_
    exact ⟨e, (mem_of_row?_eq_some hr).1, (Entry.markPublished_eq_ok.1 hc).1.claim⟩
  | recordFailure c' error m =>
    cases h
    refine (t.record_cases c (·.recordFailure c error m)).imp id fun ⟨e, _, hr, hc, _⟩ => ?_
    exact ⟨e, (mem_of_row?_eq_some hr).1, (Entry.recordFailure_eq_ok.1 hc).1.claim⟩
  | markFailed c' error =>
    cases h
    refine (t.record_cases c (·.markFailed c error)).imp id fun ⟨e, _, hr, hc, _⟩ => ?_
    exact ⟨e, (mem_of_row?_eq_some hr).1, (Entry.markFailed_eq_ok.1 hc).1.claim⟩
  | _ => cases h

theorem Turn.eq_claimed {d : Deed} {e e' : Entry} {c : Claim} (h : Turn d e e')
    (hc : e'.currentClaim = some c) : ∃ cutoff, d = .claimed c cutoff := by
  cases h with
  | claimed => cases hc; exact ⟨_, rfl⟩
  | _ => cases hc

namespace History
open Store (Op)

/-- The leases in the rows are those that the log says. -/
structure Fenced (h : History) : Prop where
  row : ∀ e ∈ h.table, ∀ c, e.currentClaim = some c → Stands h.deeds c
  claim : ∀ c, Stands h.deeds c → ∃ e ∈ h.table, e.IsHeldBy c
  log : ∀ d older, d :: older <:+ h.deeds → Follows older d

namespace Fenced
variable {es : List Entry} {h h' : History}

/-- A claim on an idle row has expired. -/
theorem expired (hf : Fenced h) (ht : h.table.Distinct) {e : Entry} (he : e ∈ h.table)
    {cutoff : Instant} (hi : e.isIdle cutoff) {c : Claim} (hid : c.entryId = e.id)
    (hs : Stands h.deeds c) : c.claimedAt < cutoff := by
  obtain ⟨e', he', hh⟩ := hf.claim c hs
  rw [ht.eq_of_id he' he (hh.id_eq.trans hid)] at hh
  exact hh.isIdle_iff.1 hi

section
variable {c : Call} {ds : List Deed} {t' : Table} {f : Entry → Option Entry}

/-- The lease that a row carries after a call is the one that the longer log gave out last. -/
theorem row_of_effect (hf : Fenced h) (heff : Table.Effect c ds h.table t' f) {e : Entry}
    (he : e ∈ t') {claim : Claim} (hc : e.currentClaim = some claim) :
    Stands (ds ++ h.deeds) claim := by
  rcases heff.mem_cases he with ⟨he, hu⟩ | ⟨d, hd, e₀, he₀, turn⟩
  · have hid := (Entry.currentClaim_eq_some.1 hc).1
    exact (Stands.append_iff fun d hd => hid ▸ hu d hd).2 (hf.row e he claim hc)
  · obtain ⟨cutoff, rfl⟩ := turn.eq_claimed hc
    have hl : Deed.last? ds claim.entryId = some (.claimed claim cutoff) :=
      Deed.last?_of_mem heff.once hd
    exact ⟨cutoff, by rw [Deed.last?_append, hl, Option.some_or]⟩

theorem held_of_effect (hf : Fenced h) (heff : Table.Effect c ds h.table t' f) {claim : Claim}
    (hs : Stands (ds ++ h.deeds) claim) : ∃ e ∈ t', e.IsHeldBy claim := by
  by_cases hu : ∀ d ∈ ds, d.entryId ≠ claim.entryId
  · obtain ⟨e, he, hh⟩ := hf.claim claim ((Stands.append_iff hu).1 hs)
    rcases heff.row_cases he with ⟨he, _⟩ | ⟨d, hd, _, _, turn⟩ | ⟨_, _, _, _, ho⟩
    · exact ⟨e, he, hh⟩
    · exact absurd (turn.entryId_eq.trans hh.id_eq) (hu d hd)
    · simp [Table.isOutdated, hh.pending] at ho
  · -- The claim was given out by this very call.
    simp only [not_forall, not_not] at hu
    obtain ⟨d, hd, hid⟩ := hu
    obtain ⟨cutoff, hs⟩ := hs
    rw [Deed.last?_append, ← hid, Deed.last?_of_mem heff.once hd, Option.some_or] at hs
    obtain ⟨_, _, e', he', turn⟩ := heff.turn_of_mem hd
    cases Option.some.inj hs
    exact ⟨e', he', turn.held_of_claimed.2⟩

theorem follows_of_effect (hf : Fenced h) (ht : h.table.Distinct)
    (heff : Table.Effect c ds h.table t' f) {d : Deed} {older : List Deed}
    (hd : d :: older <:+ ds ++ h.deeds) : Follows older d := by
  rcases Deed.suffix_append_cases hd with hd | ⟨newer, mid, rfl, rfl⟩
  · exact hf.log d older hd
  · -- The deeds of one call are about different entries, so those below `d` do not matter to it.
    have hmem : d ∈ newer ++ d :: mid := List.mem_append_right _ List.mem_cons_self
    obtain ⟨e, he, _, _, turn⟩ := heff.turn_of_mem hmem
    have hmid : ∀ d' ∈ mid, d'.entryId ≠ d.entryId := by
      have honce := heff.once
      rw [List.map_append, List.map_cons] at honce
      have hnot := (List.nodup_cons.1 honce.of_append_right).1
      exact fun d' hd' hid => hnot (List.mem_map.2 ⟨d', hd', hid⟩)
    refine ⟨fun claim hc => ?_, ?_⟩
    · have hh := turn.held_of_outcomeOf? hc
      have hid := turn.entryId_eq.trans hh.id_eq
      exact (Stands.append_iff (hid ▸ hmid)).2 (hf.row e he claim hh.claim)
    · rintro c' cutoff claim rfl hid hs
      have hs := (Stands.append_iff (fun d hd => hid ▸ hmid d hd)).1 hs
      exact hf.expired ht he turn.held_of_claimed.1 (hid.trans turn.entryId_eq) hs

end

theorem answered (hf : Fenced h) (ht : h.table.Distinct) (c : Call) :
    Fenced (h.answered c (h.table.answer c).1 (h.table.answer c).2) := by
  obtain ⟨f, heff⟩ := Table.exists_effect ht c
  exact ⟨fun e he claim hc => hf.row_of_effect heff he hc,
    fun claim hs => hf.held_of_effect heff hs,
    fun d older hd => hf.follows_of_effect ht heff hd⟩

/-- One more use keeps rows and log in step, if no entry comes into the table with a lease. -/
theorem step (hf : Fenced h) (l : Ledger es h) (hn : (es.map (·.id)).Nodup)
    (hu : ∀ e ∈ es, e.currentClaim = none) {op : Op} (hs : Stepped h op h') : Fenced h' := by
  cases hs with
  | same => exact hf
  | staged => exact ⟨hf.row, hf.claim, hf.log⟩
  | @committed new _ source =>
    have hnew : ∀ e ∈ new, e.currentClaim = none := fun e he =>
      hu e (l.source.subset (List.mem_append_right _ (source.subset (List.mem_append_left _ he))))
    refine ⟨fun e he c hc => ?_, fun c hc => ?_, hf.log⟩
    · rcases List.mem_append.1 he with he | he
      · exact hf.row e he c hc
      · rw [hnew e he] at hc; cases hc
    · obtain ⟨e, he, hc⟩ := hf.claim c hc
      exact ⟨e, List.mem_append_left _ he, hc⟩
  | answered => exact hf.answered (l.distinct hn) _

end Fenced

theorem fenced_empty : Fenced empty where
  row _ he := absurd he List.not_mem_nil
  claim _ hs := by obtain ⟨_, hs⟩ := hs; cases hs
  log _ _ hd := absurd (List.suffix_nil.1 hd) nofun

theorem fenced_run (ops : List Op) (hn : ((Store.inserted ops).map (·.id)).Nodup)
    (hu : ∀ e ∈ Store.inserted ops, e.currentClaim = none) : Fenced (run ops) := by
  let P es h := Ledger es h ∧ ((∀ e ∈ es, e.currentClaim = none) → Fenced h)
  have h : P (Store.inserted ops) (run ops) := by
    refine run_induction ⟨⟨.refl _, List.Subperm.refl _⟩, fun _ => fenced_empty⟩ ?_ ops hn
    rintro es h op hn ⟨l, hf⟩
    refine ⟨l.step hn (h.stepped op), fun hu => ?_⟩
    have hu := fun e he => hu e (List.mem_append_left _ he)
    exact (hf hu).step l hn hu (h.stepped op)
  exact h.2 hu

theorem Fenced.claimed_between {h : History} (hf : Fenced h) {d' d : Deed} {mid older : List Deed}
    {c' c : Claim} (hd : d' :: (mid ++ d :: older) <:+ h.deeds) (hc' : d'.outcomeOf? = some c')
    (hc : d.outcomeOf? = some c) (hid : c'.entryId = c.entryId) :
    ∃ cutoff, .claimed c' cutoff ∈ mid := by
  obtain ⟨cutoff, hs⟩ := (hf.log _ _ hd).outcome c' hc'
  rw [Deed.last?_append] at hs
  cases hm : Deed.last? mid c'.entryId with
  | some d₀ =>
    rw [hm, Option.some_or] at hs
    exact ⟨cutoff, Option.some.inj hs ▸ (Deed.entryId_of_last?_eq_some hm).1⟩
  | none =>
    have hd₀ : d.entryId = c'.entryId := (Deed.entryId_of_outcomeOf? hc).trans hid.symm
    rw [hm, Option.none_or, Deed.last?, List.find?_cons_of_pos (by simpa using hd₀)] at hs
    rw [Option.some.inj hs] at hc
    cases hc

/-- Whatever is done with a store into which entries come without a lease: an outcome is recorded
only under the claim that was given out last for its entry; of two outcomes for one entry, the later
one has a claim of its own; any other claim is refused and writes nothing; and an entry that is
claimed again, with nothing recorded since it was claimed, had a lease from before the cutoff. -/
theorem outcomes_fenced (ops : List Op) (hn : ((Store.inserted ops).map (·.id)).Nodup)
    (hu : ∀ e ∈ Store.inserted ops, e.claimedBy = none ∧ e.claimedAt = none) :
    (∀ d older c, d :: older <:+ (run ops).deeds → d.outcomeOf? = some c → Stands older c) ∧
    (∀ d' mid d older c' c, d' :: (mid ++ d :: older) <:+ (run ops).deeds →
      d'.outcomeOf? = some c' → d.outcomeOf? = some c → c'.entryId = c.entryId →
        ∃ cutoff, .claimed c' cutoff ∈ mid) ∧
    (∀ call c, call.outcomeOf? = some c → ¬ Stands (run ops).deeds c →
      (run ops).table.answer call = (.error (.leaseLost c.entryId), (run ops).table)) ∧
    (∀ c' cutoff older c, .claimed c' cutoff :: older <:+ (run ops).deeds →
      c.entryId = c'.entryId → Stands older c → c.claimedAt < cutoff) := by
  have hf : Fenced (run ops) := fenced_run ops hn fun e he => by
    simp [Entry.currentClaim, (hu e he).1]
  refine ⟨fun d older c hd => (hf.log d older hd).outcome c, fun d' mid d older c' c hd => ?_,
    fun call c hc hs => ?_, fun c' cutoff older c hd => (hf.log _ _ hd).expired c' cutoff c rfl⟩
  · exact hf.claimed_between hd
  · refine ((run ops).table.answer_outcome_cases hc).resolve_right fun ⟨e, he, hc⟩ => ?_
    exact hs (hf.row e he c hc)

/-- A worker claims an entry whose lease has expired; the one before comes too late. -/
def handover : List Op :=
  [.begin "tx", .insert "tx" .sample, .commit "tx", .call (.tryClaim (.ofNat 1) "w1" 10 0) none,
    .call (.tryClaim (.ofNat 1) "w2" 30 20) none,
    .call (.markPublished ⟨.ofNat 1, "w1", 10⟩ 31) none,
    .call (.recordFailure ⟨.ofNat 1, "w2", 30⟩ "busy" 3) none,
    .call (.tryClaim (.ofNat 1) "w1" 40 20) none,
    .call (.markPublished ⟨.ofNat 1, "w1", 40⟩ 41) none]

theorem handover_fenced :
    ((Store.inserted handover).map (·.id)).Nodup ∧
    (∀ e ∈ Store.inserted handover, e.claimedBy = none ∧ e.claimedAt = none) ∧
    (run handover).deeds = [.published ⟨.ofNat 1, "w1", 40⟩ 41, .claimed ⟨.ofNat 1, "w1", 40⟩ 20,
      .retried ⟨.ofNat 1, "w2", 30⟩ "busy" 3, .claimed ⟨.ofNat 1, "w2", 30⟩ 20,
      .claimed ⟨.ofNat 1, "w1", 10⟩ 0] ∧
    Stands [.claimed ⟨.ofNat 1, "w2", 30⟩ 20, .claimed ⟨.ofNat 1, "w1", 10⟩ 0]
      ⟨.ofNat 1, "w2", 30⟩ ∧
    (10 : Instant) < 20 ∧
    (run handover).table.answer (.markPublished ⟨.ofNat 1, "w2", 30⟩ 50) =
      (.error (.leaseLost (.ofNat 1)), (run handover).table) := by
  have hn : ((Store.inserted handover).map (·.id)).Nodup := by decide
  have hu : ∀ e ∈ Store.inserted handover, e.claimedBy = none ∧ e.claimedAt = none := by decide
  have hd : (run handover).deeds = [.published ⟨.ofNat 1, "w1", 40⟩ 41,
      .claimed ⟨.ofNat 1, "w1", 40⟩ 20, .retried ⟨.ofNat 1, "w2", 30⟩ "busy" 3,
      .claimed ⟨.ofNat 1, "w2", 30⟩ 20, .claimed ⟨.ofNat 1, "w1", 10⟩ 0] := by decide +kernel
  obtain ⟨outcome, _, refused, expired⟩ := outcomes_fenced handover hn hu
  refine ⟨hn, hu, hd, outcome (.retried ⟨.ofNat 1, "w2", 30⟩ "busy" 3) _ _ ?_ rfl,
    expired ⟨.ofNat 1, "w2", 30⟩ 20 [.claimed ⟨.ofNat 1, "w1", 10⟩ 0] ⟨.ofNat 1, "w1", 10⟩ ?_ rfl
      ⟨0, by decide⟩, refused _ ⟨.ofNat 1, "w2", 30⟩ rfl ?_⟩
  · rw [hd]; decide
  · rw [hd]; decide
  · rw [hd]
    rintro ⟨cutoff, h⟩
    cases h

end History
end Outbox
