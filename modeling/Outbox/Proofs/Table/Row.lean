import Outbox.Proofs.Entry.Change
import Outbox.Store.Table
import Mathlib.Data.List.Nodup

/-!
# Rows of a table

Operations on one entry find its row by the id and put another one in its place. With distinct ids
that changes one row and no other (`put_eq_map`); the `_cases` lemmas say what each operation does
when it finds no row, when the row refuses, and when it accepts.
-/

namespace Outbox.Table

/-- No two rows have one id. -/
def Distinct (t : Table) : Prop := (t.map (·.id)).Nodup

theorem Distinct.filter {t : Table} (h : t.Distinct) (p : Entry → Bool) : Distinct (t.filter p) :=
  h.sublist (List.filter_sublist.map _)

theorem Distinct.map {t : Table} (h : t.Distinct) {f : Entry → Entry}
    (hf : ∀ e ∈ t, (f e).id = e.id) : Distinct (t.map f) := by
  have hids : (t.map f).map (·.id) = t.map (·.id) := by
    rw [List.map_map]
    exact List.map_congr_left hf
  rw [Distinct, hids]
  exact h

theorem Distinct.eq_of_id {t : Table} (h : t.Distinct) {e e' : Entry} (he : e ∈ t) (he' : e' ∈ t)
    (hid : e.id = e'.id) : e = e' := List.inj_on_of_nodup_map h he he' hid

theorem mem_of_row?_eq_some {t : Table} {id : Uuid} {e : Entry} (h : t.row? id = some e) :
    e ∈ t ∧ e.id = id :=
  ⟨List.mem_of_find?_eq_some h, by simpa using List.find?_some h⟩

theorem Distinct.row?_eq_some {t : Table} (h : t.Distinct) {id : Uuid} {e : Entry} :
    t.row? id = some e ↔ e ∈ t ∧ e.id = id := by
  refine ⟨mem_of_row?_eq_some, fun ⟨he, hid⟩ => ?_⟩
  cases hr : t.row? id with
  | none => exact absurd hid (by simpa using List.find?_eq_none.1 hr e he)
  | some e' =>
    obtain ⟨he', hid'⟩ := mem_of_row?_eq_some hr
    rw [h.eq_of_id he' he (hid'.trans hid.symm)]

theorem alter_eq_map {t : Table} (h : t.Distinct) (id : Uuid) (f : Entry → Entry) :
    t.alter id f = t.map fun e => if e.id = id then f e else e := by
  induction t with
  | nil => rfl
  | cons e t ih =>
    obtain ⟨hn, ht⟩ := List.nodup_cons.1 h
    rw [alter, List.map_cons]
    split <;> rename_i he
    · have hne : ∀ x ∈ t, x.id ≠ id := fun x hx hx' =>
        hn (List.mem_map.2 ⟨x, hx, hx'.trans he.symm⟩)
      rw [List.map_congr_left fun x hx => if_neg (hne x hx), List.map_id']
    · rw [ih ht]

section
variable {t : Table} {id : Uuid} {e e' e'' : Entry}

theorem put_put (h : e'.id = id) : Table.put (t.put id e') id e'' = t.put id e'' := by
  unfold put
  induction t with
  | nil => rfl
  | cons x t ih =>
    by_cases hx : x.id = id
    · simp [alter, hx, h]
    · simp [alter, hx, ih]

theorem put_self (hr : t.row? id = some e) : t.put id e = t := by
  unfold put row? at *
  induction t with
  | nil => rfl
  | cons x t ih =>
    by_cases hx : x.id = id
    · rw [List.find?_cons_of_pos (by simpa using hx)] at hr
      rw [alter, if_pos hx, Option.some.inj hr]
    · rw [List.find?_cons_of_neg (by simpa using hx)] at hr
      rw [alter, if_neg hx, ih hr]

theorem row?_put (hr : t.row? id = some e) (h : e'.id = id) :
    Table.row? (t.put id e') id = some e' := by
  unfold put row? at *
  induction t with
  | nil => cases hr
  | cons x t ih =>
    by_cases hx : x.id = id
    · simp [alter, hx, h]
    · rw [List.find?_cons_of_neg (by simpa using hx)] at hr
      simp [alter, hx, ih hr]

theorem put_eq_map (ht : t.Distinct) (id : Uuid) (e : Entry) :
    t.put id e = t.map fun x => if x.id = id then e else x := alter_eq_map ht id _

theorem mem_put_cases (h : e' ∈ t.put id e) : e' ∈ t ∨ e' = e := by
  unfold put at h
  induction t with
  | nil => cases h
  | cons x t ih =>
    rw [alter] at h
    split at h
    · rcases List.mem_cons.1 h with h | h
      · exact .inr h
      · exact .inl (List.mem_cons_of_mem x h)
    · rcases List.mem_cons.1 h with rfl | h
      · exact .inl List.mem_cons_self
      · exact (ih h).imp_left (List.mem_cons_of_mem x)

theorem Distinct.put (ht : t.Distinct) (h : e.id = id) : Distinct (t.put id e) := by
  rw [put_eq_map ht]
  refine ht.map fun x _ => ?_
  split <;> rename_i hx
  · exact h.trans hx.symm
  · rfl

end

theorem Distinct.filter_id {t : Table} (h : t.Distinct) (id : Uuid) :
    (t.filter fun e => e.id = id) = (t.row? id).toList := by
  cases hr : t.row? id with
  | none =>
    rw [List.filter_eq_nil_iff.2 (List.find?_eq_none.1 hr)]
    rfl
  | some e =>
    have hmem := h.row?_eq_some.1 hr
    refine List.perm_singleton.1 ?_
    refine (List.perm_ext_iff_of_nodup (h.of_map.filter _) (List.nodup_singleton e)).2 fun x => ?_
    rw [List.mem_filter, decide_eq_true_iff, List.mem_singleton]
    constructor
    · rintro ⟨hx, hid⟩
      exact h.eq_of_id hx hmem.1 (hid.trans hmem.2.symm)
    · rintro rfl
      exact hmem

/-- A change of the rows that pass a test of one id's rows changes that row, if any. -/
theorem Distinct.change_cases {t : Table} (h : t.Distinct) {p : Entry → Bool} {id : Uuid}
    (hid : ∀ e, p e → e.id = id) (f : Entry → Entry) :
    (∀ e ∈ t, ¬ p e) ∧ t.filter p = [] ∧ (t.map fun e => if p e then f e else e) = t ∨
      ∃ e, t.row? id = some e ∧ p e ∧ t.filter p = [e] ∧
        (t.map fun e => if p e then f e else e) = t.put id (f e) := by
  by_cases hp : ∃ e ∈ t, p e
  · obtain ⟨e, he, hp⟩ := hp
    have hr : t.row? id = some e := h.row?_eq_some.2 ⟨he, hid e hp⟩
    have honly : ∀ x ∈ t, x.id = id ↔ p x := fun x hx =>
      ⟨fun hx' => h.eq_of_id hx he (hx'.trans (hid e hp).symm) ▸ hp, hid x⟩
    refine .inr ⟨e, hr, hp, ?_, ?_⟩
    · have hfilter := h.filter_id id
      rw [hr] at hfilter
      rw [List.filter_congr fun x hx => ?_] at hfilter
      · exact hfilter
      · rw [Bool.eq_iff_iff, decide_eq_true_iff]
        exact honly x hx
    · rw [put_eq_map h]
      refine List.map_congr_left fun x hx => ?_
      by_cases hx' : p x
      · obtain rfl := h.eq_of_id hx he ((hid x hx').trans (hid e hp).symm)
        rw [if_pos hx', if_pos (hid x hx')]
      · rw [if_neg hx', if_neg fun h => hx' ((honly x hx).1 h)]
  · have hp : ∀ e ∈ t, ¬ p e := fun e he h => hp ⟨e, he, h⟩
    refine .inl ⟨hp, List.filter_eq_nil_iff.2 hp, ?_⟩
    rw [List.map_congr_left fun e he => if_neg (hp e he), List.map_id']

/-! ### Operations on one entry -/

section
variable (t : Table)

theorem tryClaim_cases (id : Uuid) (worker : String) (now cutoff : Instant) :
    t.tryClaim id worker now cutoff = (.error (.claimContention id), t) ∨
      ∃ e, t.row? id = some e ∧ e.status = .pending ∧ e.isIdle cutoff ∧
        t.tryClaim id worker now cutoff =
          (.ok ⟨e.leased worker now, ⟨e.id, worker, now⟩⟩, t.put id (e.leased worker now)) := by
  unfold tryClaim
  cases hr : t.row? id with
  | none => exact .inl rfl
  | some e =>
    cases hc : e.claim worker now cutoff with
    | error _ => exact .inl (by simp only [hc])
    | ok e' =>
      obtain ⟨hp, hi, rfl⟩ := Entry.claim_eq_ok.1 hc
      exact .inr ⟨e, rfl, hp, hi, by simp only [hc]⟩

theorem record_cases (c : Claim) (change : Entry → Except Refusal Entry) :
    t.record c change = (.error (.leaseLost c.entryId), t) ∨
      ∃ e e', t.row? c.entryId = some e ∧ change e = .ok e' ∧
        t.record c change = (.ok e', t.put c.entryId e') := by
  unfold record
  cases hr : t.row? c.entryId with
  | none => exact .inl rfl
  | some e =>
    cases hc : change e with
    | error _ => exact .inl (by simp only [hc])
    | ok e' => exact .inr ⟨e, e', rfl, hc, by simp only [hc]⟩

theorem replayFailed_cases (id : Uuid) :
    t.replayFailed id = (none, t) ∨
      ∃ e, t.row? id = some e ∧ e.status = .failed ∧
        t.replayFailed id = (some e.replayed, t.put id e.replayed) := by
  unfold replayFailed
  cases hr : t.row? id with
  | none => exact .inl rfl
  | some e =>
    cases hc : e.replay with
    | error _ => exact .inl (by simp only [hc])
    | ok e' =>
      obtain ⟨hf, rfl⟩ := Entry.replay_eq_ok.1 hc
      exact .inr ⟨e, rfl, hf, by simp only [hc]⟩

end

section
variable {t : Table} {id : Uuid} {e e' : Entry}

theorem tryClaim_eq (hr : t.row? id = some e) (hp : e.status = .pending) (worker : String)
    (now : Instant) {cutoff : Instant} (hi : e.isIdle cutoff) : t.tryClaim id worker now cutoff =
      (.ok ⟨e.leased worker now, ⟨e.id, worker, now⟩⟩, t.put id (e.leased worker now)) := by
  have hc : e.claim worker now cutoff = .ok (e.leased worker now) :=
    Entry.claim_eq_ok.2 ⟨hp, hi, rfl⟩
  simp [tryClaim, hr, hc]

theorem record_eq {c : Claim} (hr : t.row? c.entryId = some e)
    (change : Entry → Except Refusal Entry) (hc : change e = .ok e') :
    t.record c change = (.ok e', t.put c.entryId e') := by
  simp [record, hr, hc]

theorem replayFailed_eq (hr : t.row? id = some e) (hf : e.status = .failed) :
    t.replayFailed id = (some e.replayed, t.put id e.replayed) := by
  have hc : e.replay = .ok e.replayed := Entry.replay_eq_ok.2 ⟨hf, rfl⟩
  simp [replayFailed, hr, hc]

end

/-! ### The sweep -/

theorem map_id_failExhausted (t : Table) (maxRetry : Int) (cutoff : Instant) :
    (t.failExhausted maxRetry cutoff).2.map (·.id) = t.map (·.id) := by
  rw [failExhausted, List.map_map]
  refine List.map_congr_left fun e _ => ?_
  simp only [Function.comp, Entry.failExhausted]
  split <;> rfl

theorem Distinct.failExhausted {t : Table} (h : t.Distinct) (maxRetry : Int) (cutoff : Instant) :
    Distinct (t.failExhausted maxRetry cutoff).2 := by
  rw [Distinct, map_id_failExhausted]
  exact h

theorem length_failExhausted (t : Table) (maxRetry : Int) (cutoff : Instant) :
    (t.failExhausted maxRetry cutoff).1.length = t.countP (·.isExhausted maxRetry cutoff) := by
  rw [List.countP_eq_length_filter]
  exact List.length_map _

theorem failExhausted_of_forall {t : Table} {maxRetry : Int} {cutoff : Instant}
    (h : ∀ e ∈ t, ¬ e.isExhausted maxRetry cutoff) : t.failExhausted maxRetry cutoff = ([], t) := by
  have hsame : ∀ e ∈ t, e.failExhausted maxRetry cutoff = e := fun e he => if_neg (h e he)
  rw [failExhausted, List.filter_eq_nil_iff.2 h, List.map_congr_left hsame, List.map_id']
  rfl

/-- The sweep takes nothing away from the listing. -/
theorem filter_isClaimable_failExhausted (t : Table) (maxRetry : Int) (cutoff : Instant) :
    (t.failExhausted maxRetry cutoff).2.filter (·.isClaimable maxRetry cutoff) =
      t.filter (·.isClaimable maxRetry cutoff) := by
  simp only [failExhausted, List.filter_map, Function.comp_def, Entry.isClaimable_failExhausted]
  conv_rhs => rw [← List.map_id (t.filter _)]
  refine List.map_congr_left fun e he => ?_
  exact Entry.failExhausted_of_isClaimable (List.mem_filter.1 he).2

end Outbox.Table
