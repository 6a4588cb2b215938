import Outbox.Proofs.Relay.Rounds

/-!
# The course of one entry

An entry alone in its table is sent once in every round, until the broker accepts or rejects it or
as many attempts have failed as the settings allow. `delivery_law` says for an infinite sequence of
replies how often it is sent and what becomes of it; the times of the rounds play no part, but that
a delivery is dated by its own round.
-/

namespace Outbox

open Relay (Tick Round)
open Scenario (World)

namespace Relay

/-- Why a send calls for another attempt, if it does. -/
def retryReason? (c : RelayConfig) : Option Delivery → Option String
  | none => some s!"send timed out after {c.sendTimeout}ms"
  | some (.error (.retryable reason)) => some reason
  | some _ => none

theorem Tick.getD_of_retryReason? {t : Tick} {send : Option Delivery} {reason : String}
    (h : retryReason? t.config send = some reason) :
    send.getD (.error t.sendTimedOut) = .error (.retryable reason) := by
  match send with
  | none | some (.error (.retryable _)) => cases h; rfl
  | some (.ok ()) | some (.error (.permanent _)) => cases h

/-- The last error after some failed attempts on an entry that had none. -/
def lastReason? (c : RelayConfig) (sends : Nat → Option Delivery) : Nat → Option String
  | 0 => none
  | n + 1 => retryReason? c (sends n)

end Relay

open Relay (retryReason? lastReason?)

/-- The entry is pending, nobody holds it, and no attempt has failed. -/
structure Entry.Untried (e : Entry) : Prop where
  pending : e.status = .pending
  claimedBy : e.claimedBy = none
  claimedAt : e.claimedAt = none
  retryCount : e.retryCount = 0
  lastError : e.lastError = none

/-- The entry after some failed attempts that leave it pending. -/
def Entry.tried (e : Entry) (c : RelayConfig) (sends : Nat → Option Delivery) (n : Nat) : Entry :=
  { e with retryCount := n, lastError := lastReason? c sends n }

theorem Oldest.eq_singleton {n : Nat} {e : Entry} {due : List Entry} (h : Oldest n [e] due)
    (hn : 1 ≤ n) : due = [e] := by
  refine h.unique ⟨fun _ he => he, List.pairwise_singleton .., ?_, fun x hx hnot => ?_⟩
  · simp [hn]
  · exact absurd hx hnot

namespace Scenario.World
variable {w : World} {e : Entry} {c : RelayConfig} {limit : Nat} {r : Nat → Round}
  {sends : Nat → Option Delivery}

/-- An untried entry is alone in a quiet world; rounds are to run over it under fixed settings, and
the script has the first of an infinite sequence of replies. -/
structure Alone (w : World) (e : Entry) (c : RelayConfig) (limit : Nat) (r : Nat → Round)
    (sends : Nat → Option Delivery) : Prop where
  quiet : w.Quiet
  table : w.table = [e]
  untried : e.Untried
  maxRetry : c.maxRetry = limit
  limit_pos : 1 ≤ limit
  fits : c.maxRetry ≤ Entry.greatestCount
  batch : 1 ≤ c.batchSize
  config : ∀ i, (r i).config = c
  times : ∀ i, (r i).tick?.isSome
  replies : ∀ i < limit, (w.reply i).within c.sendTimeout = sends i

/-- One round over one row that can be claimed. -/
theorem Quiet.round_alone {r : Round} {t : Tick} (hq : w.Quiet) (hw : w.table = [e])
    (ht : r.tick? = some t) (hfit : r.config.maxRetry ≤ Entry.greatestCount)
    (hbatch : 1 ≤ r.config.batchSize) (hc : e.isClaimable r.config.maxRetry t.cutoff) :
    ∃ report w', w.round r = (.ok (some (.ok report)), w') ∧
      w.Leads [t.settled e (((w.reply 0).within r.config.sendTimeout).getD (.error t.sendTimedOut))]
        [.ofEntry e] w' := by
  have hd : w.table.Distinct := hw ▸ List.nodup_singleton e.id
  obtain ⟨due, broker, report, w', hdue, hb, h, l⟩ := hq.round hd ht hfit
  obtain ⟨hconfig, -⟩ := Round.of_tick? ht
  rw [hconfig] at hdue hb
  have hfilter : [e].filter (·.isClaimable r.config.maxRetry t.cutoff) = [e] := by simp [hc]
  rw [hw, hfilter] at hdue
  obtain rfl : due = [e] := hdue.eq_singleton (by omega)
  have hreply : (w.reply 0).within r.config.sendTimeout = broker (.ofEntry e) := hb 0 _ rfl
  have himage : t.image broker [e] e = t.settled e (t.delivery broker e) := by
    have hx : ¬ (e.status = .pending ∧ e.isIdle t.cutoff ∧ t.config.maxRetry ≤ e.retryCount) := by
      rintro ⟨-, -, hle⟩
      rw [hconfig] at hle
      exact absurd (Entry.isClaimable_iff.1 hc).2.2 (Int.not_lt.2 hle)
    rw [Tick.image, if_neg hx, Tick.settle, if_pos (List.mem_singleton_self e)]
  rw [hw, List.map_singleton, himage, Tick.delivery, ← hreply] at l
  exact ⟨report, w', h, l⟩

/-- After `n` rounds the table holds `x` alone, and the message of `e` was sent `m` times. -/
def Reaches (w : World) (r : Nat → Round) (e : Entry) (n m : Nat) (x : Entry) : Prop :=
  ∃ w', w.rounds ((List.range n).map r) = some w' ∧
    w.Leads [x] (.replicate m (.ofEntry e)) w'

namespace Alone

/-- The next attempt, as long as the entry is pending. -/
theorem attempt (h : w.Alone e c limit r sends) {n : Nat} (hn : n < limit)
    (hw : w.Reaches r e n n (e.tried c sends n)) :
    ∃ t : Tick, t.config = c ∧ t.now = (r n).now ∧ w.Reaches r e (n + 1) (n + 1)
      (t.settled (e.tried c sends n) ((sends n).getD (.error t.sendTimedOut))) := by
  obtain ⟨w₁, h₁, l₁⟩ := hw
  obtain ⟨t, ht⟩ := Option.isSome_iff_exists.1 (h.times n)
  obtain ⟨htc, hnow⟩ := Round.of_tick? ht
  have hconfig : (r n).config = c := h.config n
  have hc : (e.tried c sends n).isClaimable (r n).config.maxRetry t.cutoff := by
    refine Entry.isClaimable_iff.2 ⟨h.untried.pending, ?_, ?_⟩
    · simp [Entry.isIdle, Entry.tried, h.untried.claimedAt]
    · rw [hconfig, h.maxRetry]
      exact Int.ofNat_lt.2 hn
  obtain ⟨report, w₂, h₂, l₂⟩ := l₁.quiet.round_alone l₁.table ht (hconfig ▸ h.fits)
    (hconfig ▸ h.batch) hc
  have hreply : (w₁.reply 0).within (r n).config.sendTimeout = sends n := by
    rw [l₁.reply, List.length_replicate, hconfig]
    exact h.replies n hn
  rw [hreply] at l₂
  refine ⟨t, htc.trans hconfig, hnow, w₂, ?_, ?_⟩
  · rw [List.range_succ, List.map_append, rounds_append, h₁]
    exact rounds_cons h₂ []
  · rw [List.replicate_succ']
    exact l₁.trans l₂

/-- Rounds over an entry that is not pending any more send nothing and leave it. -/
theorem stays (h : w.Alone e c limit r sends) {n m : Nat} {x : Entry} (hx : x.status ≠ .pending)
    (hw : w.Reaches r e n m x) {n' : Nat} (hn : n ≤ n') : w.Reaches r e n' m x := by
  obtain ⟨w₁, h₁, l₁⟩ := hw
  obtain ⟨i, rfl⟩ := Nat.exists_eq_add_of_le hn
  have hd : w₁.table.Distinct := l₁.table ▸ List.nodup_singleton x.id
  have hs : w₁.table.Settled := by
    rw [l₁.table]
    intro y hy
    rw [List.mem_singleton.1 hy]
    exact hx
  have htimes : ∀ r' ∈ (List.range i).map fun j => r (n + j), r'.tick?.isSome := by
    simp [h.times]
  obtain ⟨w₂, h₂, l₂⟩ := l₁.quiet.rounds_settled hd hs htimes
  rw [l₁.table] at l₂
  refine ⟨w₂, ?_, ?_⟩
  · rw [List.range_add, List.map_append, List.map_map, rounds_append, h₁]
    exact h₂
  · have l := l₁.trans l₂
    rwa [List.append_nil] at l

/-- A failed attempt is counted. It was the last one if no more are left. -/
theorem attempt_failed (h : w.Alone e c limit r sends) {n : Nat} (hn : n < limit)
    (hs : (retryReason? c (sends n)).isSome) (hw : w.Reaches r e n n (e.tried c sends n)) :
    w.Reaches r e (n + 1) (n + 1)
      { e.tried c sends (n + 1) with
        status := if n + 1 < limit then .pending else .failed } := by
  obtain ⟨t, hconfig, -, hw⟩ := h.attempt hn hw
  obtain ⟨reason, hreason⟩ := Option.isSome_iff_exists.1 hs
  rw [Tick.getD_of_retryReason? (hconfig ▸ hreason)] at hw
  have hleft : (n : Int) + 1 < t.config.maxRetry ↔ n + 1 < limit := by
    rw [hconfig, h.maxRetry]
    omega
  have hx : t.settled (e.tried c sends n) (.error (.retryable reason)) =
      { e.tried c sends (n + 1) with
        status := if n + 1 < limit then .pending else .failed } := by
    simp [Tick.settled, Entry.tried, lastReason?, hreason, hleft, h.untried.claimedBy,
      h.untried.claimedAt]
  rwa [hx] at hw

variable {k : Nat}

/-- While attempts fail and are left, the entry is sent once a round and stays pending. -/
theorem retries (h : w.Alone e c limit r sends) (hk : ∀ i < k, (retryReason? c (sends i)).isSome)
    {n : Nat} (hn : n ≤ k) (hlt : n < limit) : w.Reaches r e n n (e.tried c sends n) := by
  induction n with
  | zero =>
    have he : e.tried c sends 0 = e := by
      rw [Entry.tried, lastReason?, Int.natCast_zero, ← h.untried.retryCount,
        ← h.untried.lastError]
    have l : w.Leads w.table [] w := .of_eq h.quiet rfl rfl rfl rfl
    rw [h.table] at l
    rw [he]
    exact ⟨w, rfl, l⟩
  | succ n ih =>
    have hw := h.attempt_failed (Nat.lt_of_succ_lt hlt) (hk n hn) (ih (by omega) (by omega))
    have hp : (e.tried c sends (n + 1)).status = .pending := h.untried.pending
    rwa [if_pos hlt, ← hp] at hw

theorem exhausted (h : w.Alone e c limit r sends)
    (hk : ∀ i < k, (retryReason? c (sends i)).isSome) (hle : limit ≤ k) :
    w.Reaches r e limit limit
      { e with
        status := .failed, retryCount := limit, lastError := lastReason? c sends limit } := by
  obtain ⟨n, rfl⟩ : ∃ n, limit = n + 1 := Nat.exists_eq_add_of_le' h.limit_pos
  have hw := h.attempt_failed n.lt_succ_self (hk n hle)
    (h.retries hk (Nat.le_of_succ_le hle) n.lt_succ_self)
  rwa [if_neg (Nat.lt_irrefl _)] at hw

theorem accepted (h : w.Alone e c limit r sends)
    (hk : ∀ i < k, (retryReason? c (sends i)).isSome) (hlt : k < limit)
    (hsend : sends k = some (.ok ())) :
    w.Reaches r e (k + 1) (k + 1)
      { e with
        status := .published, retryCount := k, publishedAt := some (r k).now
        lastError := lastReason? c sends k } := by
  obtain ⟨t, -, hnow, hw⟩ := h.attempt hlt (h.retries hk (Nat.le_refl k) hlt)
  rw [hsend, Option.getD_some, Tick.settled, hnow] at hw
  simpa only [Entry.tried, h.untried.claimedBy, h.untried.claimedAt] using hw

theorem rejected (h : w.Alone e c limit r sends)
    (hk : ∀ i < k, (retryReason? c (sends i)).isSome) (hlt : k < limit) {reason : String}
    (hsend : sends k = some (.error (.permanent reason))) :
    w.Reaches r e (k + 1) (k + 1)
      { e with status := .failed, retryCount := k, lastError := some reason } := by
  obtain ⟨t, -, -, hw⟩ := h.attempt hlt (h.retries hk (Nat.le_refl k) hlt)
  rw [hsend, Option.getD_some, Tick.settled] at hw
  simpa only [Entry.tried, h.untried.claimedBy, h.untried.claimedAt] using hw

end Alone

/-- An entry is sent until the broker accepts or rejects it, or as many attempts have failed as the
settings allow; here the first `k` attempts fail, by a reply that calls for another or by none in
time. -/
theorem delivery_law (h : w.Alone e c limit r sends) {k : Nat}
    (hk : ∀ i < k, (retryReason? c (sends i)).isSome) :
    (limit ≤ k → ∀ n, limit ≤ n → w.Reaches r e n limit
      { e with status := .failed, retryCount := limit, lastError := lastReason? c sends limit }) ∧
    (k < limit → sends k = some (.ok ()) → ∀ n, k < n → w.Reaches r e n (k + 1)
      { e with
        status := .published, retryCount := k, publishedAt := some (r k).now
        lastError := lastReason? c sends k }) ∧
    (k < limit → ∀ reason, sends k = some (.error (.permanent reason)) → ∀ n, k < n →
      w.Reaches r e n (k + 1)
        { e with status := .failed, retryCount := k, lastError := some reason }) := by
  refine ⟨fun hle n hn => ?_, fun hlt hsend n hn => ?_, fun hlt reason hsend n hn => ?_⟩
  · exact h.stays (by simp) (h.exhausted hk hle) hn
  · exact h.stays (by simp) (h.accepted hk hlt hsend) hn
  · exact h.stays (by simp) (h.rejected hk hlt hsend) hn

/-- The broker takes too long once, is busy once, and then accepts. -/
def slowStart : World :=
  { ofTable [.sample] 0 with
    replies := [⟨[], none, .ok ()⟩, ⟨[], some 0, .error (.retryable "busy")⟩] }

/-- Rounds with the default settings, the first of which is run under a later time than the rest. -/
def clockSetBack (i : Nat) : Round := ⟨"w1", .default, if i = 0 then 20 else 10⟩

/-- The replies of that broker, as the worker sees them. -/
def slowReplies : Nat → Option Delivery
  | 0 => none
  | 1 => some (.error (.retryable "busy"))
  | _ => some (.ok ())

theorem slowStart_delivered :
    slowStart.Alone .sample .default 3 clockSetBack slowReplies ∧
    (∀ i < 2, (retryReason? .default (slowReplies i)).isSome) ∧
    ∀ n, 2 < n → slowStart.Reaches clockSetBack .sample n 3
      { Entry.sample with
        status := .published, retryCount := 2, publishedAt := some 10
        lastError := some "busy" } := by
  have hq : slowStart.Quiet := .of_script rfl rfl rfl (by decide)
  have htimes : ∀ i, (clockSetBack i).tick?.isSome := by
    intro i
    unfold clockSetBack
    split <;> decide
  have h : slowStart.Alone .sample .default 3 clockSetBack slowReplies :=
    { quiet := hq, table := rfl, untried := ⟨rfl, rfl, rfl, rfl, rfl⟩, maxRetry := rfl
      limit_pos := by decide, fits := by decide, batch := by decide, config := fun _ => rfl
      times := htimes, replies := by decide }
  have hk : ∀ i < 2, (retryReason? .default (slowReplies i)).isSome := by decide
  exact ⟨h, hk, (delivery_law h hk).2.1 (by decide) rfl⟩

end Scenario.World
end Outbox
