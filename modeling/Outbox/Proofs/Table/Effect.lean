import Outbox.Proofs.Table.Row
import Outbox.Store.Call

/-!
# What calls do to rows

A `Deed` is what a call achieved for one entry, and `Turn` what becomes of the entry by it. Nothing
else changes rows: `exists_effect` says of every call that each row of a table with distinct ids
stays as it is, turns by a deed of the call, or is purged because it is outdated.
-/

namespace Outbox

/-- What a call achieved for one entry. -/
inductive Deed
  | claimed (claim : Claim) (cutoff : Instant)
  | published (claim : Claim) (now : Instant)
  | retried (claim : Claim) (error : String) (maxRetry : Int)
  | rejected (claim : Claim) (error : String)
  | retired (id : Uuid) (maxRetry : Int) (cutoff : Instant)
  | replayed (id : Uuid)
  deriving DecidableEq

namespace Deed

def entryId : Deed → Uuid
  | claimed c _ | published c _ | retried c _ _ | rejected c _ => c.entryId
  | retired id _ _ | replayed id => id

/-- The claim whose outcome the deed records. -/
def outcomeOf? : Deed → Option Claim
  | published c _ | retried c _ _ | rejected c _ => some c
  | _ => none

/-- The time before which the lease had to be for the deed. -/
def cutoff? : Deed → Option Instant
  | claimed _ cutoff | retired _ _ cutoff => some cutoff
  | _ => none

end Deed

/-- What a call achieved, read off its answer. -/
def Call.deeds : (c : Call) → c.Answer → List Deed
  | .tryClaim _ _ _ cutoff, .ok held => [.claimed held.claim cutoff]
  | .markPublished c now, .ok _ => [.published c now]
  | .recordFailure c e m, .ok _ => [.retried c e m]
  | .markFailed c e, .ok _ => [.rejected c e]
  | .failExhausted m cutoff, .ok es => es.map fun e => .retired e.id m cutoff
  | .replayFailed id, .ok (some _) => [.replayed id]
  | _, _ => []

/-- The outcome that a call records. -/
def Call.outcomeOf? : Call → Option Claim
  | .markPublished c _ | .recordFailure c _ _ | .markFailed c _ => some c
  | _ => none

/-- The time from which a call takes leases for expired, if it takes entries away. -/
def Call.cutoff? : Call → Option Instant
  | .tryClaim _ _ _ cutoff | .failExhausted _ cutoff => some cutoff
  | _ => none

inductive Call.Does : Call → Deed → Prop
  | claimed {id : Uuid} {worker : String} {now cutoff : Instant} {claim : Claim} :
      Does (.tryClaim id worker now cutoff) (.claimed claim cutoff)
  | published {claim : Claim} {now : Instant} :
      Does (.markPublished claim now) (.published claim now)
  | retried {claim : Claim} {error : String} {maxRetry : Int} :
      Does (.recordFailure claim error maxRetry) (.retried claim error maxRetry)
  | rejected {claim : Claim} {error : String} :
      Does (.markFailed claim error) (.rejected claim error)
  | retired {id : Uuid} {maxRetry : Int} {cutoff : Instant} :
      Does (.failExhausted maxRetry cutoff) (.retired id maxRetry cutoff)
  | replayed {id : Uuid} : Does (.replayFailed id) (.replayed id)

theorem Call.does_of_mem_deeds {c : Call} {a : c.Answer} {d : Deed} (h : d ∈ c.deeds a) :
    c.Does d := by
  cases c with
  | failExhausted m cutoff =>
    cases a with
    | error => cases h
    | ok es => obtain ⟨_, _, rfl⟩ := List.mem_map.1 h; exact .retired
  | replayFailed id =>
    match a, h with
    | .ok (some _), h => cases List.mem_singleton.1 h; exact .replayed
  | tryClaim | markPublished | recordFailure | markFailed =>
    cases a with
    | error => cases h
    | ok => cases List.mem_singleton.1 h; constructor
  | _ => cases a <;> cases h

theorem Call.Does.outcomeOf?_eq {c : Call} {d : Deed} (h : c.Does d) :
    d.outcomeOf? = c.outcomeOf? := by cases h <;> rfl

theorem Call.Does.cutoff?_eq {c : Call} {d : Deed} (h : c.Does d) : d.cutoff? = c.cutoff? := by
  cases h <;> rfl

theorem Call.eq_markPublished {c : Call} {a : c.Answer} {claim : Claim} {now : Instant}
    (h : .published claim now ∈ c.deeds a) : c = .markPublished claim now := by
  cases does_of_mem_deeds h with
  | published => rfl

/-- What becomes of an entry by a deed. -/
inductive Turn : Deed → Entry → Entry → Prop
  | claimed {e : Entry} {worker : String} {now cutoff : Instant} (pending : e.status = .pending)
      (idle : e.isIdle cutoff) : Turn (.claimed ⟨e.id, worker, now⟩ cutoff) e (e.leased worker now)
  | published {e : Entry} {c : Claim} {now : Instant} (held : e.IsHeldBy c) :
      Turn (.published c now) e (e.published now)
  | retried {e : Entry} {c : Claim} {error : String} {maxRetry : Int} (held : e.IsHeldBy c) :
      Turn (.retried c error maxRetry) e (e.retried error maxRetry)
  | rejected {e : Entry} {c : Claim} {error : String} (held : e.IsHeldBy c) :
      Turn (.rejected c error) e (e.rejected error)
  | retired {e : Entry} {maxRetry : Int} {cutoff : Instant}
      (exhausted : e.isExhausted maxRetry cutoff) : Turn (.retired e.id maxRetry cutoff) e e.retired
  | replayed {e : Entry} (failed : e.status = .failed) : Turn (.replayed e.id) e e.replayed

namespace Turn
variable {d : Deed} {e e' : Entry}

theorem entryId_eq (h : Turn d e e') : d.entryId = e.id := by
  cases h with
  | published held | retried held | rejected held => exact held.id_eq.symm
  | claimed | retired | replayed => rfl

theorem held_of_outcomeOf? {c : Claim} (h : Turn d e e') (hc : d.outcomeOf? = some c) :
    e.IsHeldBy c := by
  cases h with
  | published held | retried held | rejected held => cases hc; exact held
  | claimed | retired | replayed => cases hc

theorem held_of_claimed {c : Claim} {cutoff : Instant} (h : Turn (.claimed c cutoff) e e') :
    e.isIdle cutoff ∧ e'.IsHeldBy c := by
  cases h with
  | claimed pending idle => exact ⟨idle, pending, rfl⟩

/-- A held entry turns only by the outcome of its claim, or because its lease expired. -/
theorem held_cases (h : Turn d e e') {c : Claim} (hh : e.IsHeldBy c) :
    d.outcomeOf? = some c ∨ ∃ cutoff, d.cutoff? = some cutoff ∧ c.claimedAt < cutoff := by
  cases h with
  | claimed pending idle => exact .inr ⟨_, rfl, hh.isIdle_iff.1 idle⟩
  | published held | retried held | rejected held => exact .inl (held.claim.symm.trans hh.claim)
  | retired exhausted =>
    obtain ⟨-, idle, -⟩ := Entry.isExhausted_iff.1 exhausted
    exact .inr ⟨_, rfl, hh.isIdle_iff.1 idle⟩
  | replayed failed => rw [hh.pending] at failed; cases failed

end Turn

/-- What a call with some deeds makes of a row. -/
inductive RowEffect (c : Call) (ds : List Deed) (e : Entry) : Option Entry → Prop
  | kept (untouched : ∀ d ∈ ds, d.entryId ≠ e.id) : RowEffect c ds e (some e)
  | turned {d : Deed} {e' : Entry} (mem : d ∈ ds) (turn : Turn d e e') : RowEffect c ds e (some e')
  | purged {before : Instant} {limit : Int} {lock : Millis}
      (call : c = .deletePublished before limit lock) (untouched : ∀ d ∈ ds, d.entryId ≠ e.id)
      (outdated : Table.isOutdated before e) : RowEffect c ds e none

namespace Table

/-- What a call with some deeds makes of a table: `f` says what becomes of each row. -/
structure Effect (c : Call) (ds : List Deed) (t t' : Table) (f : Entry → Option Entry) : Prop where
  eq : t' = t.filterMap f
  row : ∀ e ∈ t, RowEffect c ds e (f e)
  deed : ∀ d ∈ ds, ∃ e ∈ t, e.id = d.entryId
  once : (ds.map Deed.entryId).Nodup

namespace Effect
variable {t : Table}

theorem same (c : Call) (t : Table) : Effect c [] t t some :=
  ⟨(List.filterMap_some).symm, fun _ _ => .kept fun _ h => absurd h List.not_mem_nil,
    fun _ h => absurd h List.not_mem_nil, List.nodup_nil⟩

theorem put (h : t.Distinct) (c : Call) {d : Deed} {id : Uuid} {e e' : Entry}
    (hr : t.row? id = some e) (ht : Turn d e e') :
    Effect c [d] t (t.put id e') fun x => some (if x.id = id then e' else x) := by
  obtain ⟨he, rfl⟩ := mem_of_row?_eq_some hr
  refine ⟨?_, fun x hx => ?_, fun d' hd => ⟨e, he, ?_⟩, List.nodup_singleton _⟩
  · rw [Table.put, alter_eq_map h, ← List.filterMap_eq_map]; rfl
  · split <;> rename_i hxe
    · rw [h.eq_of_id hx he hxe]; exact .turned (List.mem_singleton_self d) ht
    · exact .kept fun d' hd => by
        rw [List.mem_singleton.1 hd, ht.entryId_eq]; exact fun he' => hxe he'.symm
  · rw [List.mem_singleton.1 hd, ht.entryId_eq]

variable {t' : Table} {c : Call} {ds : List Deed} {f : Entry → Option Entry}

/-- A row after the call is one from before that no deed is about, or was turned. -/
theorem mem_cases (h : Effect c ds t t' f) {e' : Entry} (he : e' ∈ t') :
    (e' ∈ t ∧ ∀ d ∈ ds, d.entryId ≠ e'.id) ∨ ∃ d ∈ ds, ∃ e ∈ t, Turn d e e' := by
  rw [h.eq] at he
  obtain ⟨e, he, hfe⟩ := List.mem_filterMap.1 he
  cases hfe ▸ h.row e he with
  | kept untouched => exact .inl ⟨he, untouched⟩
  | turned mem turn => exact .inr ⟨_, mem, e, he, turn⟩

/-- A row before the call stays as no deed is about it, is turned, or is purged. -/
theorem row_cases (h : Effect c ds t t' f) {e : Entry} (he : e ∈ t) :
    (e ∈ t' ∧ ∀ d ∈ ds, d.entryId ≠ e.id) ∨ (∃ d ∈ ds, ∃ e' ∈ t', Turn d e e') ∨
      ∃ before limit lock, c = .deletePublished before limit lock ∧ isOutdated before e := by
  have hr := h.row e he
  rw [h.eq]
  generalize hfe : f e = r at hr
  cases hr with
  | kept untouched => exact .inl ⟨List.mem_filterMap.2 ⟨e, he, hfe⟩, untouched⟩
  | turned mem turn => exact .inr (.inl ⟨_, mem, _, List.mem_filterMap.2 ⟨e, he, hfe⟩, turn⟩)
  | purged call _ outdated => exact .inr (.inr ⟨_, _, _, call, outdated⟩)

theorem turn_of_mem (h : Effect c ds t t' f) {d : Deed} (hd : d ∈ ds) :
    ∃ e ∈ t, ∃ e' ∈ t', Turn d e e' := by
  obtain ⟨e, he, hid⟩ := h.deed d hd
  have hr := h.row e he
  rw [h.eq]
  generalize hfe : f e = r at hr
  cases hr with
  | kept untouched => exact absurd hid.symm (untouched d hd)
  | @turned d' e' mem turn =>
    have : d' = d := List.inj_on_of_nodup_map h.once mem hd (turn.entryId_eq.trans hid)
    exact ⟨e, he, e', List.mem_filterMap.2 ⟨e, he, hfe⟩, this ▸ turn⟩
  | purged _ untouched => exact absurd hid.symm (untouched d hd)

end Effect

/-- Whatever records an outcome turns the row by one deed, or is refused. -/
theorem Effect.exists_record {t : Table} (h : t.Distinct) {call : Call} (c : Claim) {d : Deed}
    {change : Entry → Except Refusal Entry} (hturn : ∀ e e', change e = .ok e' → Turn d e e')
    (deeds : Except StoreError Entry → List Deed) (hok : ∀ e, deeds (.ok e) = [d])
    (herr : ∀ x, deeds (.error x) = []) :
    ∃ f, Effect call (deeds (t.record c change).1) t (t.record c change).2 f := by
  rcases t.record_cases c change with he | ⟨e, e', hr, hc, he⟩
  · rw [he, herr]
    exact ⟨some, .same _ t⟩
  · rw [he, hok]
    exact ⟨_, .put h _ hr (hturn e e' hc)⟩

theorem isOutdated_of_mem_outdated {t : Table} (h : t.Distinct) {before : Instant} {limit : Int}
    {e : Entry} (he : e ∈ t) (hid : e.id ∈ t.outdated before limit) : isOutdated before e := by
  obtain ⟨e', he', hid'⟩ := List.mem_map.1 hid
  obtain ⟨ht, ho⟩ := List.mem_filter.1 (List.mem_mergeSort.1 (List.mem_of_mem_take he'))
  exact h.eq_of_id ht he hid' ▸ ho

/-- The sweep retires each exhausted row and names it in its answer. -/
theorem Effect.failExhausted {t : Table} (h : t.Distinct) (m : Int) (cutoff : Instant) :
    Effect (.failExhausted m cutoff)
      ((t.failExhausted m cutoff).1.map fun e => .retired e.id m cutoff) t
      (t.failExhausted m cutoff).2 fun e => some (e.failExhausted m cutoff) := by
  have hdeed : ∀ d ∈ (t.failExhausted m cutoff).1.map fun e => Deed.retired e.id m cutoff,
      ∃ e ∈ t, e.isExhausted m cutoff ∧ d = .retired e.id m cutoff := by
    intro d hd
    obtain ⟨_, hr, rfl⟩ := List.mem_map.1 hd
    obtain ⟨e, he, rfl⟩ := List.mem_map.1 hr
    obtain ⟨he, hx⟩ := List.mem_filter.1 he
    exact ⟨e, he, hx, rfl⟩
  refine ⟨(congrFun List.filterMap_eq_map t).symm, fun e he => ?_, fun d hd => ?_, ?_⟩
  · unfold Entry.failExhausted
    split <;> rename_i hx
    · have hretired : e.retired ∈ (t.failExhausted m cutoff).1 :=
        List.mem_map.2 ⟨e, List.mem_filter.2 ⟨he, hx⟩, rfl⟩
      exact .turned (List.mem_map.2 ⟨e.retired, hretired, rfl⟩) (.retired hx)
    · refine .kept fun d hd hid => ?_
      obtain ⟨e', he', hx', rfl⟩ := hdeed d hd
      exact hx (h.eq_of_id he' he hid ▸ hx')
  · obtain ⟨e, he, _, rfl⟩ := hdeed d hd
    exact ⟨e, he, rfl⟩
  · rw [List.map_map, Table.failExhausted, List.map_map]
    exact h.sublist (List.filter_sublist.map _)

/-- A purge removes the rows that it found outdated. -/
theorem Effect.deletePublished {t : Table} (h : t.Distinct) (before : Instant) (limit : Int)
    (lock : Millis) :
    Effect (.deletePublished before limit lock) [] t (t.deletePublishedBefore before limit).2
      fun e => if (t.outdated before limit).contains e.id then none else some e := by
  have hnone : ∀ (e : Entry), ∀ d ∈ ([] : List Deed), d.entryId ≠ e.id :=
    fun _ _ hd => absurd hd List.not_mem_nil
  refine ⟨?_, fun e he => ?_, fun d hd => absurd hd List.not_mem_nil, List.nodup_nil⟩
  · simp only [deletePublishedBefore, ← List.filterMap_eq_filter]
    refine List.filterMap_congr fun e _ => ?_
    cases hx : (t.outdated before limit).contains e.id <;> simp only [Option.guard, hx] <;> rfl
  · split <;> rename_i hx
    · have hout := isOutdated_of_mem_outdated h he (List.contains_iff_mem.1 hx)
      exact .purged rfl (hnone e) hout
    · exact .kept (hnone e)

/-- Every call, on a table with distinct ids: its answer names the deeds, and the rows follow. -/
theorem exists_effect {t : Table} (h : t.Distinct) (c : Call) :
    ∃ f, Effect c (c.deeds (t.answer c).1) t (t.answer c).2 f := by
  cases c with
  | findPending | get | list | count => exact ⟨some, .same _ t⟩
  | failExhausted m cutoff => exact ⟨_, .failExhausted h m cutoff⟩
  | tryClaim id w now cutoff =>
    simp only [answer]
    rcases t.tryClaim_cases id w now cutoff with he | ⟨e, hr, hp, hi, he⟩
    · rw [he]; exact ⟨some, .same _ t⟩
    · rw [he]; exact ⟨_, .put h _ hr (.claimed hp hi)⟩
  | markPublished c now =>
    refine Effect.exists_record h c (fun e e' hc => ?_) (Call.markPublished c now).deeds
      (fun _ => rfl) fun _ => rfl
    obtain ⟨held, rfl⟩ := Entry.markPublished_eq_ok.1 hc
    exact .published held
  | recordFailure c error m =>
    refine Effect.exists_record h c (fun e e' hc => ?_) (Call.recordFailure c error m).deeds
      (fun _ => rfl) fun _ => rfl
    obtain ⟨held, rfl⟩ := Entry.recordFailure_eq_ok.1 hc
    exact .retried held
  | markFailed c error =>
    refine Effect.exists_record h c (fun e e' hc => ?_) (Call.markFailed c error).deeds
      (fun _ => rfl) fun _ => rfl
    obtain ⟨held, rfl⟩ := Entry.markFailed_eq_ok.1 hc
    exact .rejected held
  | deletePublished before limit lock => exact ⟨_, .deletePublished h before limit lock⟩
  | replayFailed id =>
    simp only [answer]
    rcases t.replayFailed_cases id with he | ⟨e, hr, hf, he⟩
    · rw [he]; exact ⟨some, .same _ t⟩
    · rw [he, ← (mem_of_row?_eq_some hr).2]
      exact ⟨_, .put h _ ((mem_of_row?_eq_some hr).2 ▸ hr) (.replayed hf)⟩

/-- A row after a call is one from before, or was turned. This needs no distinct ids. -/
theorem mem_answer_cases {t : Table} {c : Call} {e' : Entry} (h : e' ∈ (t.answer c).2) :
    e' ∈ t ∨ ∃ d e, c.Does d ∧ e ∈ t ∧ Turn d e e' := by
  -- Whatever changes one row puts it in the place of the one that it found.
  have hput : ∀ {id : Uuid} {d : Deed} {e x : Entry}, t.row? id = some e → c.Does d → Turn d e x →
      e' ∈ t.put id x → e' ∈ t ∨ ∃ d e, c.Does d ∧ e ∈ t ∧ Turn d e e' := by
    intro id d e x hr hd ht hx
    rcases mem_put_cases hx with hx | rfl
    · exact .inl hx
    · exact .inr ⟨d, e, hd, (mem_of_row?_eq_some hr).1, ht⟩
  cases c with
  | findPending | get | list | count => exact .inl h
  | deletePublished => exact .inl (List.mem_filter.1 h).1
  | failExhausted m cutoff =>
    obtain ⟨e, he, rfl⟩ := List.mem_map.1 h
    unfold Entry.failExhausted
    split <;> rename_i hx
    · exact .inr ⟨_, e, .retired, he, .retired hx⟩
    · exact .inl he
  | tryClaim id w now cutoff =>
    simp only [answer] at h
    rcases t.tryClaim_cases id w now cutoff with he | ⟨e, hr, hp, hi, he⟩ <;> rw [he] at h
    · exact .inl h
    · exact hput hr .claimed (.claimed hp hi) h
  | markPublished c now =>
    simp only [answer, markPublished] at h
    rcases t.record_cases c (·.markPublished c now) with he | ⟨e, x, hr, hc, he⟩ <;> rw [he] at h
    · exact .inl h
    · obtain ⟨held, rfl⟩ := Entry.markPublished_eq_ok.1 hc
      exact hput hr .published (.published held) h
  | recordFailure c error m =>
    simp only [answer, recordFailure] at h
    rcases t.record_cases c (·.recordFailure c error m) with he | ⟨e, x, hr, hc, he⟩ <;>
      rw [he] at h
    · exact .inl h
    · obtain ⟨held, rfl⟩ := Entry.recordFailure_eq_ok.1 hc
      exact hput hr .retried (.retried held) h
  | markFailed c error =>
    simp only [answer, markFailed] at h
    rcases t.record_cases c (·.markFailed c error) with he | ⟨e, x, hr, hc, he⟩ <;> rw [he] at h
    · exact .inl h
    · obtain ⟨held, rfl⟩ := Entry.markFailed_eq_ok.1 hc
      exact hput hr .rejected (.rejected held) h
  | replayFailed id =>
    simp only [answer] at h
    rcases t.replayFailed_cases id with he | ⟨e, hr, hf, he⟩ <;> rw [he] at h
    · exact .inl h
    · obtain ⟨-, rfl⟩ := mem_of_row?_eq_some hr
      exact hput hr .replayed (.replayed hf) h

/-- A held row stays, unless its outcome is recorded or its lease expired. -/
theorem mem_answer_of_held {t : Table} (h : t.Distinct) {c : Call} {e : Entry} (he : e ∈ t)
    {claim : Claim} (hh : e.IsHeldBy claim) (ho : c.outcomeOf? ≠ some claim)
    (hc : ∀ cutoff, c.cutoff? = some cutoff → cutoff ≤ claim.claimedAt) : e ∈ (t.answer c).2 := by
  obtain ⟨f, heff⟩ := exists_effect h c
  rcases heff.row_cases he with ⟨he, _⟩ | ⟨d, hd, e', _, turn⟩ | ⟨_, _, _, _, outdated⟩
  · exact he
  · have hdoes := Call.does_of_mem_deeds hd
    rcases turn.held_cases hh with hout | ⟨cutoff, hcut, hlt⟩
    · exact absurd (hdoes.outcomeOf?_eq.symm.trans hout) ho
    · exact absurd hlt (Int.not_lt.2 (hc cutoff (hdoes.cutoff?_eq.symm.trans hcut)))
  · simp [isOutdated, hh.pending] at outdated

end Table
end Outbox
