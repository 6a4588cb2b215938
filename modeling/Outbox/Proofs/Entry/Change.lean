import Outbox.Entry.Transition

/-!
# Changes of one entry

Which entries accept a change and what they are afterwards. `IsHeldBy` is the one thing that every
outcome needs: the entry is pending, and it carries the very claim of whoever records the outcome.
-/

namespace Outbox

namespace Entry

/-- A small entry to run examples with. -/
def sample : Entry :=
  fresh (.ofNat 1) ⟨"Follow", "a-1", "UserFollowed", "mopl.user.followed", "\x7b\x7d"⟩ 0

def leased (e : Entry) (worker : String) (now : Instant) : Entry :=
  { e with claimedBy := some worker, claimedAt := some now }

theorem currentClaim_eq_some {e : Entry} {c : Claim} : e.currentClaim = some c ↔
    e.id = c.entryId ∧ e.claimedBy = some c.worker ∧ e.claimedAt = some c.claimedAt := by
  obtain ⟨i, w, t⟩ := c
  unfold currentClaim
  split <;> simp_all [Claim.mk.injEq]

/-- The entry is pending and carries the claim. -/
structure IsHeldBy (e : Entry) (c : Claim) : Prop where
  pending : e.status = .pending
  claim : e.currentClaim = some c

theorem IsHeldBy.id_eq {e : Entry} {c : Claim} (h : e.IsHeldBy c) : e.id = c.entryId :=
  (currentClaim_eq_some.1 h.claim).1

theorem IsHeldBy.isIdle_iff {e : Entry} {c : Claim} (h : e.IsHeldBy c) {cutoff : Instant} :
    e.isIdle cutoff ↔ c.claimedAt < cutoff := by
  simp [isIdle, (currentClaim_eq_some.1 h.claim).2.2]

theorem claim_eq_ok {e e' : Entry} {worker : String} {now cutoff : Instant} :
    e.claim worker now cutoff = .ok e' ↔
      e.status = .pending ∧ e.isIdle cutoff ∧ e' = e.leased worker now := by
  unfold claim
  constructor
  · intro h
    split at h <;> rename_i hs
    · cases h
    · split at h <;> rename_i hi
      · cases h
      · cases h
        rw [Bool.not_eq_true, Status.isTerminal_eq_false] at hs
        exact ⟨hs, Decidable.not_not.1 hi, rfl⟩
  · rintro ⟨hp, hi, rfl⟩
    simp [hp, hi, Status.isTerminal, leased]

theorem checkOwner_eq_ok {e : Entry} {c : Claim} : e.checkOwner c = .ok () ↔ e.IsHeldBy c := by
  unfold checkOwner
  constructor
  · intro h
    split at h <;> rename_i hs
    · cases h
    · split at h <;> rename_i hc
      · cases h
      · rw [Bool.not_eq_true, Status.isTerminal_eq_false] at hs
        exact ⟨hs, Decidable.not_not.1 hc⟩
  · rintro ⟨hp, hc⟩
    simp [hp, hc, Status.isTerminal]

/-- A change that only the holder of the lease may make. -/
theorem owned_eq_ok {e e' after : Entry} {c : Claim} :
    (do e.checkOwner c; return after) = .ok e' ↔ e.IsHeldBy c ∧ e' = after := by
  rw [← checkOwner_eq_ok]
  cases e.checkOwner c <;> simp [bind, Except.bind, pure, Except.pure, eq_comm]

theorem markPublished_eq_ok {e e' : Entry} {c : Claim} {now : Instant} :
    e.markPublished c now = .ok e' ↔ e.IsHeldBy c ∧ e' = e.published now := owned_eq_ok

theorem recordFailure_eq_ok {e e' : Entry} {c : Claim} {error : String} {maxRetry : Int} :
    e.recordFailure c error maxRetry = .ok e' ↔ e.IsHeldBy c ∧ e' = e.retried error maxRetry :=
  owned_eq_ok

theorem markFailed_eq_ok {e e' : Entry} {c : Claim} {error : String} :
    e.markFailed c error = .ok e' ↔ e.IsHeldBy c ∧ e' = e.rejected error := owned_eq_ok

theorem replay_eq_ok {e e' : Entry} :
    e.replay = .ok e' ↔ e.status = .failed ∧ e' = e.replayed := by
  unfold replay
  split <;> rename_i hs <;> simp [hs, eq_comm]

section
variable {e : Entry} {maxRetry : Int} {cutoff : Instant}

theorem isClaimable_iff : e.isClaimable maxRetry cutoff ↔
    e.status = .pending ∧ e.isIdle cutoff ∧ e.retryCount < maxRetry := by
  simp [isClaimable, and_assoc, and_comm]

theorem isExhausted_iff : e.isExhausted maxRetry cutoff ↔
    e.status = .pending ∧ e.isIdle cutoff ∧ maxRetry ≤ e.retryCount := by
  simp [isExhausted, and_assoc, and_comm]

theorem isClaimable_failExhausted : (e.failExhausted maxRetry cutoff).isClaimable maxRetry cutoff =
    e.isClaimable maxRetry cutoff := by
  unfold failExhausted
  split <;> rename_i h
  · obtain ⟨-, -, hle⟩ := isExhausted_iff.1 h
    simp [isClaimable, retired, release, Int.not_lt.2 hle]
  · rfl

theorem failExhausted_of_isClaimable (h : e.isClaimable maxRetry cutoff) :
    e.failExhausted maxRetry cutoff = e := by
  unfold failExhausted
  refine if_neg fun hx => ?_
  obtain ⟨-, -, hle⟩ := isExhausted_iff.1 hx
  simp [isClaimable, Int.not_lt.2 hle] at h

end

theorem forM_eq_ok {α ε : Type} {f : α → Except ε Unit} {cs : List α} :
    cs.forM f = .ok () ↔ ∀ c ∈ cs, f c = .ok () := by
  induction cs with
  | nil => simp [pure, Except.pure]
  | cons c cs ih =>
    show (f c >>= fun _ => cs.forM f) = .ok () ↔ _
    rw [List.forall_mem_cons, ← ih]
    cases f c <;> simp [bind, Except.bind]

/-- An entry is created as a fresh one, if every column accepts its text. -/
theorem create_eq_ok {id : Uuid} {d : Draft} {now : Instant} {e : Entry} :
    create id d now = .ok e ↔ (∀ c ∈ columns, checkColumn d c = .ok ()) ∧ e = fresh id d now := by
  rw [← forM_eq_ok]
  unfold create
  cases columns.forM (checkColumn d) <;> simp [bind, Except.bind, pure, Except.pure, eq_comm]

theorem eq_fresh_of_create {id : Uuid} {d : Draft} {now : Instant} {e : Entry}
    (h : create id d now = .ok e) : e = fresh id d now := (create_eq_ok.1 h).2

theorem length_le_of_checkColumn {d : Draft} {c : Column} (h : checkColumn d c = .ok ()) {n : Nat}
    (hn : c.capacity = some n) : (d.text c).length ≤ n := by
  unfold checkColumn at h
  rw [hn] at h
  split at h
  · cases h
  · simp only at h
    split at h <;> rename_i hlt
    · cases h
    · exact Nat.not_lt.1 hlt

theorem exists_create_sample : ∃ id d now, create id d now = .ok sample :=
  ⟨_, ⟨"Follow", "a-1", "UserFollowed", "mopl.user.followed", "\x7b\x7d"⟩, 0, rfl⟩

end Entry
end Outbox
