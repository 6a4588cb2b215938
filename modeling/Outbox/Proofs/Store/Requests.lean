import Outbox.Proofs.Sql.Schema

/-!
# Requests in terms of entries

What the condition of each request asks of an entry, and what its assignment makes of one. The
parameters of a request stand in the order in which its command binds them, so a parameter out of
place would show here.
-/

namespace Outbox

open Sql

instance (e : Entry) (c : Claim) : Decidable (e.IsHeldBy c) :=
  decidable_of_iff (e.status = .pending ∧ e.currentClaim = some c)
    ⟨fun ⟨pending, claim⟩ => ⟨pending, claim⟩, fun h => ⟨h.pending, h.claim⟩⟩

namespace Remote
variable {e : Entry} {params : List Value}

/-! ### Conditions -/

theorem holds_isStatus (s : Status) :
    (isStatus s).holds params (.ofEntry e) = decide (e.status = s) := by
  simp [isStatus, Expr.holds_compare, Expr.eval, Row.ofEntry]

section
variable {n : Nat}

theorem holds_equals_id (id : Uuid) (hn : params.getD (n - 1) .null = .uuid id) :
    (equals .id n).holds params (.ofEntry e) = decide (e.id = id) := by
  simp only [equals, Expr.holds_compare, Expr.eval, hn]
  simp [Row.ofEntry]

theorem holds_equals_claimedBy {w : String} (hn : params.getD (n - 1) .null = .text w) :
    (equals .claimedBy n).holds params (.ofEntry e) = decide (e.claimedBy = some w) := by
  simp only [equals, Expr.holds_compare, Expr.eval, hn]
  simp only [Row.ofEntry, Comparison.value_eq_optional_text]

theorem holds_equals_claimedAt (he : e.IsMicro) {t : Instant} (ht : t.IsMicro)
    (hn : params.getD (n - 1) .null = .ofInstant t) :
    (equals .claimedAt n).holds params (.ofEntry e) = decide (e.claimedAt = some t) := by
  simp only [equals, Expr.holds_compare, Expr.eval, hn]
  simp only [Row.ofEntry, Comparison.value_eq_optional_instant he.claimedAt ht]

theorem holds_idleBefore (he : e.IsMicro) {cutoff : Instant} (hc : cutoff.IsMicro)
    (hn : params.getD (n - 1) .null = .ofInstant cutoff) :
    (idleBefore n).holds params (.ofEntry e) = e.isIdle cutoff := by
  simp only [idleBefore, Expr.holds_or, Expr.holds_isNull, Expr.holds_compare, Expr.eval, hn]
  simp only [Row.ofEntry, Comparison.value_lt_optional_instant he.claimedAt hc, Entry.isIdle]
  split <;> rename_i h
  · simp [h, Value.ofOption]
  · simp [h, Value.ofOption, Value.ofInstant]

theorem holds_lt_retryCount {m : Int} (hn : params.getD (n - 1) .null = .integer m) :
    (Expr.compare .lt (.column .retryCount) (.param n)).holds params (.ofEntry e) =
      decide (e.retryCount < m) := by
  simp only [Expr.holds_compare, Expr.eval, hn]
  simp [Row.ofEntry]

theorem holds_ge_retryCount {m : Int} (hn : params.getD (n - 1) .null = .integer m) :
    (Expr.compare .ge (.column .retryCount) (.param n)).holds params (.ofEntry e) =
      decide (m ≤ e.retryCount) := by
  simp only [Expr.holds_compare, Expr.eval, hn]
  simp [Row.ofEntry]

end

/-- The condition of an outcome is that the entry is held by the claim. -/
theorem holds_heldByClaim (he : e.IsMicro) {c : Claim} (hc : c.claimedAt.IsMicro)
    (rest : List Value) : heldByClaim.holds
      (.uuid c.entryId :: .text c.worker :: .ofInstant c.claimedAt :: rest) (.ofEntry e) =
      decide (e.IsHeldBy c) := by
  have hheld : e.IsHeldBy c ↔ ((e.id = c.entryId ∧ e.status = .pending) ∧
      e.claimedBy = some c.worker) ∧ e.claimedAt = some c.claimedAt := by
    constructor
    · intro h
      obtain ⟨hid, hb, ha⟩ := Entry.currentClaim_eq_some.1 h.claim
      exact ⟨⟨⟨hid, h.pending⟩, hb⟩, ha⟩
    · rintro ⟨⟨⟨hid, hp⟩, hb⟩, ha⟩
      exact ⟨hp, Entry.currentClaim_eq_some.2 ⟨hid, hb, ha⟩⟩
  rw [Bool.eq_iff_iff, decide_eq_true_iff, hheld, heldByClaim, Expr.holds_and, Expr.holds_and,
    Expr.holds_and, holds_isStatus, holds_equals_id c.entryId rfl,
    holds_equals_claimedBy (w := c.worker) rfl, holds_equals_claimedAt he hc rfl]
  simp only [Bool.and_eq_true, decide_eq_true_iff]

theorem holds_findPending (he : e.IsMicro) (m limit : Int) {cutoff : Instant}
    (hc : cutoff.IsMicro) :
    (Expr.and (.and (isStatus .pending) (.compare .lt (.column .retryCount) (.param 1)))
      (idleBefore 2)).holds [.integer m, .ofInstant cutoff, .integer limit] (.ofEntry e) =
      e.isClaimable m cutoff := by
  rw [Expr.holds_and, Expr.holds_and, holds_isStatus, holds_lt_retryCount (m := m) rfl,
    holds_idleBefore he hc rfl]
  rfl

theorem holds_tryClaim (he : e.IsMicro) (id : Uuid) (worker now : Value) {cutoff : Instant}
    (hc : cutoff.IsMicro) :
    (Expr.and (.and (equals .id 1) (isStatus .pending)) (idleBefore 4)).holds
      [.uuid id, worker, now, .ofInstant cutoff] (.ofEntry e) =
      decide ((e.id = id ∧ e.status = .pending) ∧ e.isIdle cutoff) := by
  rw [Expr.holds_and, Expr.holds_and, holds_equals_id id rfl, holds_isStatus,
    holds_idleBefore he hc rfl]
  simp

theorem holds_replayFailed (id : Uuid) :
    (Expr.and (equals .id 1) (isStatus .failed)).holds [.uuid id] (.ofEntry e) =
      decide (e.id = id ∧ e.status = .failed) := by
  rw [Expr.holds_and, holds_equals_id id rfl, holds_isStatus]
  simp

theorem holds_failExhausted (he : e.IsMicro) (m : Int) {cutoff : Instant} (hc : cutoff.IsMicro)
    (rest : List Value) :
    (Expr.and (.and (isStatus .pending) (.compare .ge (.column .retryCount) (.param 1)))
      (idleBefore 2)).holds (.integer m :: .ofInstant cutoff :: rest) (.ofEntry e) =
      e.isExhausted m cutoff := by
  rw [Expr.holds_and, Expr.holds_and, holds_isStatus, holds_ge_retryCount (m := m) rfl,
    holds_idleBefore he hc rfl]
  rfl

theorem holds_deletePublished (he : e.IsMicro) {before : Instant} (hb : before.IsMicro)
    (rest : List Value) :
    (Expr.and (isStatus .published) (.compare .lt (.column .publishedAt) (.param 1))).holds
      (.ofInstant before :: rest) (.ofEntry e) = Table.isOutdated before e := by
  rw [Expr.holds_and, holds_isStatus, Expr.holds_compare, Table.isOutdated]
  refine congrArg _ ?_
  rw [Bool.eq_iff_iff, decide_eq_true_iff]
  exact Comparison.value_lt_optional_instant he.publishedAt hb

/-- A part of a filter that is not given lets every entry pass. -/
theorem holds_matchesParam {c : Column} {n : Nat} {k : Kind} {α : Type} {f : α → Value}
    (hf : ∀ a, f a ≠ .null) (o : Option α) (hn : params.getD (n - 1) .null = .ofOption f o)
    {r : Row} : (matchesParam c n k).holds params r =
      o.all fun a => decide (Comparison.eq.value (r c) (f a) = .truth true) := by
  rw [matchesParam, Expr.holds_or, Expr.holds_isNull, equals, Expr.holds_compare]
  simp only [Expr.eval, hn]
  cases o with
  | none => simp [Value.ofOption]
  | some a =>
    rw [Bool.eq_iff_iff, Bool.or_eq_true, decide_eq_true_iff, decide_eq_true_iff,
      Option.all_some, decide_eq_true_iff]
    exact or_iff_right (hf a)

theorem holds_list (f : Filter) (rest : List Value) :
    (Expr.and (matchesParam .status 1 .status) (matchesParam .eventType 2 .text)).holds
      (.ofOption .status f.status :: .ofOption .text f.eventType :: rest) (.ofEntry e) =
      Table.shows f e := by
  rw [Expr.holds_and, holds_matchesParam (f := .status) nofun f.status rfl,
    holds_matchesParam (f := .text) nofun f.eventType rfl]
  simp [Table.shows, Row.ofEntry]

/-! ### Assignments -/

theorem isPlain_retryLimitReached : IsPlain Entry.retryLimitReached := by
  unfold IsPlain Entry.retryLimitReached
  decide

section
variable (he : e.IsMicro) (hf : e.Fits)
include he hf

theorem turns_tryClaim {worker : String} {now cutoff : Instant} (hnow : now.IsMicro)
    (hw : Column.claimedBy.Fits worker) (pending : e.status = .pending) (idle : e.isIdle cutoff)
    (id cutoff' : Value) :
    Turns [(.claimedBy, .param 2), (.claimedAt, .param 3)]
      [id, .text worker, .ofInstant now, cutoff'] e (e.leased worker now) := by
  refine ⟨?_, ⟨_, .claimed pending idle⟩, ⟨he.createdAt, he.publishedAt, ?_⟩, hf.lastError, ?_⟩
  · funext c
    cases c <;> rfl
  · rintro _ ⟨⟩
    exact hnow
  · rintro _ ⟨⟩
    exact hw

theorem turns_failExhausted {m : Int} {cutoff : Instant} (exhausted : e.isExhausted m cutoff)
    (m' cutoff' : Value) :
    Turns ([(.status, .literal (.status .failed)),
        (.lastError, .coalesce (.column .lastError) (.param 3))] ++ release)
      [m', cutoff', .text Entry.retryLimitReached] e e.retired := by
  refine ⟨?_, ⟨_, .retired exhausted⟩, ⟨he.createdAt, he.publishedAt, nofun⟩, ?_, nofun⟩
  · funext c
    cases c with
    | lastError =>
      show (if Value.ofOption .text e.lastError = .null then Value.text Entry.retryLimitReached
        else .ofOption .text e.lastError) = .text (e.lastError.getD Entry.retryLimitReached)
      cases e.lastError <;> rfl
    | _ => rfl
  · rintro s ⟨⟩
    cases hs : e.lastError with
    | some s => exact hf.lastError s hs
    | none => exact ⟨isPlain_retryLimitReached, nofun⟩

theorem turns_replayFailed (failed : e.status = .failed) (params : List Value) :
    Turns ([(.status, .literal (.status .pending)), (.retryCount, .literal (.integer 0))] ++
      release) params e e.replayed := by
  refine ⟨?_, ⟨_, .replayed failed⟩, ⟨he.createdAt, he.publishedAt, nofun⟩, hf.lastError, nofun⟩
  funext c
  cases c <;> rfl

variable {c : Claim} (held : e.IsHeldBy c) (id worker claimedAt : Value)
include held

theorem turns_markPublished {now : Instant} (hnow : now.IsMicro) :
    Turns ([(.status, .literal (.status .published)), (.publishedAt, .param 4)] ++ release)
      [id, worker, claimedAt, .ofInstant now] e (e.published now) := by
  refine ⟨?_, ⟨_, .published held⟩, ⟨he.createdAt, ?_, nofun⟩, hf.lastError, nofun⟩
  · funext c
    cases c <;> rfl
  · rintro _ ⟨⟩
    exact hnow

omit hf in
theorem turns_recordFailure {error : String} (hs : Column.lastError.Fits error) (m : Int) :
    let next : Expr := .add (.column .retryCount) (.literal (.integer 1))
    Turns ([(.retryCount, next), (.lastError, .param 4),
        (.status, .choose (.compare .ge next (.param 5))
          (.cast (.literal (.status .failed)) .status)
          (.cast (.literal (.status .pending)) .status))] ++ release)
      [id, worker, claimedAt, .text error, .integer m] e (e.retried error m) := by
  refine ⟨?_, ⟨_, .retried held⟩, ⟨he.createdAt, he.publishedAt, nofun⟩, ?_, nofun⟩
  · funext c
    cases c with
    | status =>
      show (if Comparison.ge.value (.integer (e.retryCount + 1)) (.integer m) = .truth true
        then Value.status .failed else .status .pending) = .status (e.retried error m).status
      simp only [Comparison.value_ge_integer, Entry.retried, Entry.release, held.pending]
      by_cases h : m ≤ e.retryCount + 1 <;> simp [h]
    | _ => rfl
  · rintro _ ⟨⟩
    exact hs

omit hf in
theorem turns_markFailed {error : String} (hs : Column.lastError.Fits error) :
    Turns ([(.status, .literal (.status .failed)), (.lastError, .param 4)] ++ release)
      [id, worker, claimedAt, .text error] e (e.rejected error) := by
  refine ⟨?_, ⟨_, .rejected held⟩, ⟨he.createdAt, he.publishedAt, nofun⟩, ?_, nofun⟩
  · funext c
    cases c <;> rfl
  · rintro _ ⟨⟩
    exact hs

end

end Remote
end Outbox
