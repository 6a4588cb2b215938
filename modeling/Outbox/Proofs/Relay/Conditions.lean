import Outbox.Proofs.Relay.Batch

/-!
# The conditions that a tick meets

No tick makes a call twice or sends a message twice. So whatever the script of a world is, what is
injected into the calls is a function of the call, and the reply one of the message (`exists_hold`).
The conditions are put together from those of each candidate, which agree on the calls and messages
that concern it (`AlikeOn`).
-/

namespace Outbox

open Relay (Tick Report)
open Scenario (World Conditions)

/-- The call claims an entry or records its outcome. -/
def Call.Concerns (id : Uuid) (c : Call) : Prop :=
  c.entryId = id ∧ c.method ∈ [.tryClaim, .markPublished, .recordFailure, .markFailed]

instance (id : Uuid) (c : Call) : Decidable (c.Concerns id) := inferInstanceAs (Decidable (_ ∧ _))

namespace Relay.Tick

theorem concerns_claimCall (t : Tick) (e : Entry) : (t.claimCall e).Concerns e.id :=
  ⟨rfl, List.mem_cons_self⟩

theorem concerns_outcomeCall (t : Tick) (c : Claim) (d : Delivery) :
    (t.outcomeCall c d).Concerns c.entryId := by
  match d with
  | .ok () | .error (.retryable _) | .error (.permanent _) =>
    exact ⟨rfl, by simp [outcomeCall, Call.method]⟩

theorem method_outcomeCall_ne (t : Tick) (c : Claim) (d : Delivery) :
    (t.outcomeCall c d).method ≠ .tryClaim := by
  match d with
  | .ok () | .error (.retryable _) | .error (.permanent _) => simp [outcomeCall, Call.method]

end Relay.Tick

namespace Scenario

namespace Conditions

/-- As they are, but for the calls and the messages that concern one entry. -/
def butFor (s : Conditions) (id : Uuid) (claim outcome : Option StoreError)
    (reply : Option Delivery) : Conditions where
  error c :=
    if c.Concerns id then if c.method = .tryClaim then claim else outcome else s.error c
  broker m := if m.entryId = id then reply else s.broker m

/-- They say the same of the calls and the messages that concern some entries. -/
structure AlikeOn (es : List Entry) (s s' : Conditions) : Prop where
  error : ∀ e ∈ es, ∀ c : Call, c.Concerns e.id → s.error c = s'.error c
  broker : ∀ e ∈ es, ∀ m : Message, m.entryId = e.id → s.broker m = s'.broker m

theorem AlikeOn.of_butFor {s s' : Conditions} {e : Entry} {es : List Entry}
    (hn : ∀ x ∈ es, x.id ≠ e.id) {claim outcome : Option StoreError} {reply : Option Delivery}
    (h : (s.butFor e.id claim outcome reply).AlikeOn (e :: es) s') : s.AlikeOn es s' where
  error x hx c hc := by
    rw [← h.error x (List.mem_cons_of_mem e hx) c hc]
    exact (if_neg fun he => hn x hx (hc.1.symm.trans he.1)).symm
  broker x hx m hm := by
    rw [← h.broker x (List.mem_cons_of_mem e hx) m hm]
    exact (if_neg fun he => hn x hx (hm.symm.trans he)).symm

end Conditions

/-- Only the entry that was asked for can be claimed. -/
theorem World.claimed_of_perform {w w' : World} {t : Tick} {e : Entry} {held : Claimed}
    (h : w.perform (t.claimCall e) = (.ok (.ok held), w')) :
    held.entry.id = e.id ∧ held.claim = t.claimOf e := by
  cases hi : w.injected? (t.claimCall e) with
  | some err =>
    obtain ⟨w₁, hw₁, -⟩ := perform_injected (c := t.claimCall e) rfl hi
    cases hw₁.symm.trans h
  | none =>
    obtain ⟨w₁, hw₁, -⟩ := perform_answered (c := t.claimCall e)
      (by rw [fault_eq_injected? w rfl, hi]; rfl) rfl
    have hok : (w.table.tryClaim e.id t.worker t.now t.cutoff).1 = .ok held := by
      have heq := hw₁.symm.trans h
      exact Except.ok.inj (Prod.mk.inj heq).1
    rcases w.table.tryClaim_cases e.id t.worker t.now t.cutoff with hc | ⟨x, hx, -, -, hc⟩
    · rw [hc] at hok
      cases hok
    · rw [hc] at hok
      cases hok
      have hid : x.id = e.id := (Table.mem_of_row?_eq_some hx).2
      exact ⟨hid, by rw [Tick.claimOf, hid]⟩

/-- What a tick meets on its way past one candidate. -/
theorem Conditions.exists_hold_claim (t : Tick) (e : Entry) (w : World) :
    ∃ claim outcome reply w', ∀ (s : Conditions) (rest : List Entry) (report : Report),
      s.error (t.claimCall e) = claim →
      (∀ d, s.error (t.outcomeCall (t.claimOf e) d) = outcome) →
      (∀ m : Message, m.entryId = e.id → s.broker m = reply) →
      (∀ report, s.Hold t w' (.proceed rest report)) → s.Hold t w (.claim e rest report) := by
  rcases hclaim : w.perform (t.claimCall e) with ⟨x | err | held, w₁⟩
  · refine ⟨_, none, none, w, fun s rest report hc _ _ _ => .call rfl hc.symm fun a w' h => ?_⟩
    cases hclaim.symm.trans h
  · exact ⟨_, none, none, w₁, fun s rest report hc _ _ hrest =>
      .of_call rfl hc.symm hclaim (hrest _)⟩
  · obtain ⟨hid, hheld⟩ := World.claimed_of_perform hclaim
    rcases hsend : w₁.send (.ofEntry held.entry) with ⟨x | r, w₂⟩
    · refine ⟨_, none, _, w, fun s rest report hc _ hm _ => .of_call rfl hc.symm hclaim
        (.send rfl (hm _ hid).symm fun r w' h => ?_)⟩
      cases hsend.symm.trans h
    · let w₃ := w₂.advance (w₂.time + r.wait t.config.sendTimeout)
      let d := (r.within t.config.sendTimeout).getD (.error t.sendTimedOut)
      rcases hrecord : w₃.perform (t.outcomeCall held.claim d) with ⟨x | a, w₄⟩
      · refine ⟨_, _, _, w, fun s rest report hc ho hm _ => .of_call rfl hc.symm hclaim
          (.of_send rfl (hm _ hid).symm hsend (.call rfl (hheld ▸ (ho d).symm) fun a w' h => ?_))⟩
        cases hrecord.symm.trans h
      · exact ⟨_, _, _, w₄, fun s rest report hc ho hm hrest => .of_call rfl hc.symm hclaim
          (.of_send rfl (hm _ hid).symm hsend
            (.of_call rfl (hheld ▸ (ho d).symm) hrecord (hrest _)))⟩

theorem Conditions.exists_hold_proceed (t : Tick) {es : List Entry} (hn : (es.map (·.id)).Nodup)
    (w : World) : ∃ s : Conditions, ∀ s', s.AlikeOn es s' → ∀ report : Report,
      s'.Hold t w (.proceed es report) := by
  induction es generalizing w with
  | nil => exact ⟨⟨fun _ => none, fun _ => none⟩, fun s' _ report => .done rfl⟩
  | cons e es ih =>
    obtain ⟨hnot, hn⟩ := List.nodup_cons.1 hn
    have hne : ∀ x ∈ es, x.id ≠ e.id := fun x hx hid =>
      hnot (List.mem_map.2 ⟨x, hx, hid⟩)
    obtain ⟨claim, outcome, reply, w', hclaim⟩ := exists_hold_claim t e w
    obtain ⟨s, hs⟩ := ih hn w'
    refine ⟨s.butFor e.id claim outcome reply, fun s' h report => ?_⟩
    refine hclaim s' es report ?_ (fun d => ?_) (fun m hm => ?_) (hs s' (h.of_butFor hne))
    · rw [← h.error e List.mem_cons_self _ (t.concerns_claimCall e)]
      exact (if_pos (t.concerns_claimCall e)).trans (if_pos rfl)
    · have hc := t.concerns_outcomeCall (t.claimOf e) d
      rw [← h.error e List.mem_cons_self _ hc]
      exact (if_pos hc).trans (if_neg (t.method_outcomeCall_ne _ d))
    · rw [← h.broker e List.mem_cons_self m hm]
      exact if_pos hm

/-- A tick meets some conditions, as it makes no call twice and sends no message twice. -/
theorem Conditions.exists_hold (t : Tick) {w : World} (hd : w.table.Distinct) :
    ∃ s : Conditions, s.Hold t w .sweep := by
  cases w.opening t none with
  | sweepFails _ sweep =>
    exact ⟨⟨fun _ => w.injected? t.sweepCall, fun _ => none⟩, .of_call rfl rfl sweep (.done rfl)⟩
  | @listFails _ _ w₁ _ _ sweep list =>
    let s : Conditions :=
      ⟨fun c => if c.method = .failExhausted then w.injected? t.sweepCall
        else w₁.injected? t.listCall, fun _ => none⟩
    exact ⟨s, .of_call rfl rfl sweep (.of_call rfl rfl list (.done rfl))⟩
  | @opens due _ w₁ w' due_eq _ sweep list =>
    have hdue := Table.oldest_findPending_failExhausted hd t.config.maxRetry t.config.batchSize
      t.cutoff
    rw [due_eq] at hdue
    have hmem : ∀ e ∈ due, e ∈ w.table := fun e he => (List.mem_filter.1 (hdue.subset he)).1
    have hn : (due.map (·.id)).Nodup := hdue.nodup.map_on fun x hx y hy hid =>
      hd.eq_of_id (hmem x hx) (hmem y hy) hid
    obtain ⟨s, hs⟩ := exists_hold_proceed t hn w'
    let s' : Conditions :=
      ⟨fun c => if c.method = .failExhausted then w.injected? t.sweepCall
        else if c.method = .findPending then w₁.injected? t.listCall else s.error c, s.broker⟩
    have halike : s.AlikeOn due s' := by
      refine ⟨fun e _ c hc => ?_, fun _ _ _ _ => rfl⟩
      have hsweep : c.method ≠ .failExhausted := fun h => by simp [Call.Concerns, h] at hc
      have hlist : c.method ≠ .findPending := fun h => by simp [Call.Concerns, h] at hc
      exact ((if_neg hsweep).trans (if_neg hlist)).symm
    exact ⟨s', .of_call rfl rfl sweep (.of_call rfl rfl list (hs s' halike _))⟩

end Scenario
end Outbox
