import Outbox.Proofs.Relay.Conditions
import Outbox.Proofs.Relay.Tally

/-!
# The failure of one entry stays with it

What a tick makes of the table and what it sends is a function of the conditions that it meets
(`Conditions.effect`). An entry is touched by the calls that concern it and by no others, so where
conditions differ in these calls only, all other rows and messages are the same. Errors of such
calls are counted; only the retirement and the listing can fail a tick.
-/

namespace Outbox

open Relay (Tick Report Lot)
open Scenario (World Conditions)

namespace Scenario

/-- The table after a tick under some conditions, and what is sent. -/
def Conditions.effect (s : Conditions) (t : Tick) (tbl : Table) : Table × List Message :=
  let swept := (tbl.failExhausted t.config.maxRetry t.cutoff).2
  let due := swept.findPending t.config.maxRetry t.config.batchSize t.cutoff
  if (s.error t.sweepCall).isSome then (tbl, [])
  else if (s.error t.listCall).isSome then (swept, [])
  else (swept.map (t.handled (s.lot t) due), due.flatMap fun e => (s.lot t e).messages e)

namespace World
variable {w : World} {t : Tick} {s : Conditions}

theorem Unshared.runTick_sweep (hu : w.Unshared none) (hd : w.table.Distinct)
    (hlt : ∀ e ∈ w.table, e.retryCount < Entry.greatestCount) (hs : s.Hold t w .sweep) :
    ∃ r w', w.runTick t none .sweep = (.ok (some r), w') ∧
      (r.isOk ↔ s.error t.sweepCall = none ∧ s.error t.listCall = none) ∧
      w'.table = (s.effect t w.table).1 ∧
      w'.messages = w.messages ++ (s.effect t w.table).2 := by
  cases w.opening t none with
  | @sweepFails err w' _ _ run onward hold =>
    have herror := hold hs
    refine ⟨_, w', run, ?_, ?_, ?_⟩
    · simp [Except.isOk, Except.toBool, herror]
    · simp [Conditions.effect, herror, onward.table]
    · simp [Conditions.effect, herror, onward.messages]
  | @listFails err _ _ w' _ _ _ run onward hold =>
    obtain ⟨hnone, herror⟩ := hold hs
    refine ⟨_, w', run, ?_, ?_, ?_⟩
    · simp [Except.isOk, Except.toBool, hnone, herror]
    · simp [Conditions.effect, hnone, herror, onward.table]
    · simp [Conditions.effect, hnone, herror, onward.messages]
  | @opens due retired _ w₁ due_eq _ _ _ run onward hold =>
    obtain ⟨hsweep, hlist, hs⟩ := hold hs
    obtain ⟨hdue, hd₁, hlisted, lots, done, left, w₂, rfl, hgets, hleft⟩ :=
      hu.candidates hd due_eq onward
    obtain rfl : left = [] := by
      cases left with
      | nil => rfl
      | cons e left =>
        exact absurd (hleft e rfl) (not_stops (hlt e (hlisted e (by simp)).1))
    obtain ⟨hlots, -⟩ := hgets.hold hs
    rw [List.append_nil] at hdue hlisted run due_eq
    have hgets' := hgets.run [] (.start done.length retired.length)
    rw [List.append_nil] at hgets'
    obtain ⟨_, hon⟩ := hgets.onward hd₁ hdue.nodup fun e he => (hlisted e he).2.1
    have htable : w₁.table.map (t.handled lots done) = w₁.table.map (t.handled (s.lot t) done) :=
      List.map_congr_left fun x _ => by
        unfold Tick.handled
        split <;> rename_i hx
        · rw [hlots x hx]
        · rfl
    have hmessages : (done.flatMap fun e => (lots e).messages e) =
        done.flatMap fun e => (s.lot t e).messages e :=
      List.flatMap_congr fun e he => by rw [hlots e he]
    refine ⟨_, w₂, run.trans (hgets'.trans (runTick_done rfl)), ?_, ?_, ?_⟩
    · simp [Except.isOk, Except.toBool, hsweep, hlist]
    · rw [hon.table, htable, onward.table]
      simp [Conditions.effect, hsweep, hlist, due_eq]
    · rw [hon.messages, hmessages, onward.messages]
      simp [Conditions.effect, hsweep, hlist, due_eq]

end World

/-! ### Conditions that are alike -/

namespace Conditions
variable {s s' : Conditions} {id : Uuid}

/-- They differ at most in the errors of the calls that concern one entry. -/
structure AlikeBut (id : Uuid) (s s' : Conditions) : Prop where
  broker : s.broker = s'.broker
  error : ∀ c : Call, ¬ c.Concerns id → s.error c = s'.error c

theorem AlikeBut.lot_eq (h : s.AlikeBut id s') (t : Tick) {e : Entry} (he : e.id ≠ id) :
    s.lot t e = s'.lot t e := by
  have hclaim : s.error (t.claimCall e) = s'.error (t.claimCall e) := h.error _ fun hc => he hc.1
  have houtcome : ∀ d, s.error (t.outcomeCall (t.claimOf e) d) =
      s'.error (t.outcomeCall (t.claimOf e) d) := fun d =>
    h.error _ fun hc => he ((t.concerns_outcomeCall (t.claimOf e) d).1.symm.trans hc.1)
  simp only [lot, h.broker, hclaim, houtcome]

theorem filter_messages {e : Entry} (he : e.id = id) (l : Lot) :
    ((l.messages e).filter fun m => m.entryId ≠ id) = [] := by
  have hid : (Message.ofEntry e).entryId = id := he
  cases l <;> simp [Lot.messages, hid]

theorem filter_map_handled (t : Tick) (lots : Entry → Lot) (due : List Entry) (tbl : Table) :
    ((tbl.map (t.handled lots due)).filter fun e => e.id ≠ id) =
      (tbl.filter fun e => e.id ≠ id).map (t.handled lots due) := by
  rw [List.filter_map]
  refine congrArg _ (List.filter_congr fun x _ => ?_)
  have hid : (t.handled lots due x).id = x.id := by
    unfold Tick.handled
    split
    · exact t.id_rowAfter x _
    · rfl
  simp [hid]

/-- The rows and the messages of all other entries are the same. -/
theorem AlikeBut.effect (h : s.AlikeBut id s') (t : Tick) (tbl : Table) :
    ((s.effect t tbl).1.filter fun e => e.id ≠ id) =
        ((s'.effect t tbl).1.filter fun e => e.id ≠ id) ∧
      ((s.effect t tbl).2.filter fun m => m.entryId ≠ id) =
        ((s'.effect t tbl).2.filter fun m => m.entryId ≠ id) := by
  have hsweep : s.error t.sweepCall = s'.error t.sweepCall :=
    h.error _ (by simp [Call.Concerns, Call.method])
  have hlist : s.error t.listCall = s'.error t.listCall :=
    h.error _ (by simp [Call.Concerns, Call.method])
  unfold Conditions.effect
  rw [hsweep, hlist]
  split
  · exact ⟨rfl, rfl⟩
  · split
    · exact ⟨rfl, rfl⟩
    · generalize (tbl.failExhausted t.config.maxRetry t.cutoff).2 = swept
      constructor
      · rw [filter_map_handled, filter_map_handled]
        refine List.map_congr_left fun x hx => ?_
        have hx : x.id ≠ id := by simpa using (List.mem_filter.1 hx).2
        unfold Tick.handled
        rw [h.lot_eq t hx]
      · simp only [List.filter_flatMap]
        refine List.flatMap_congr fun e _ => ?_
        by_cases he : e.id = id
        · rw [filter_messages he, filter_messages he]
        · rw [h.lot_eq t he]

end Conditions

/-! ### What fails a tick -/

namespace World
variable {w w' : World} {t : Tick} {deadline : Option Millis}

/-- Past the listing a tick cannot fail. -/
theorem runTick_proceed_ne_error {due : List Entry} {retired : Nat} {err : StoreError} :
    w.runTick t deadline (.proceed due (.start due.length retired)) ≠
      (.ok (some (.error err)), w') := fun h =>
  (reaches_of_runTick h).balanced (Tick.Phase.balanced_start due retired)

/-- A tick fails if one of its first two calls does. -/
theorem runTick_eq_error_iff {err : StoreError} :
    (∃ w', w.runTick t deadline .sweep = (.ok (some (.error err)), w')) ↔
      (w.perform t.sweepCall).1 = .ok (.error err) ∨
        ∃ retired w₁, w.perform t.sweepCall = (.ok (.ok retired), w₁) ∧
          (w₁.perform t.listCall).1 = .ok (.error err) := by
  cases w.opening t deadline with
  | @sweepFails err' _ _ sweep run =>
    rw [run, sweep]
    simp
  | @listFails err' retired w₁ _ _ sweep list run =>
    rw [run, sweep]
    simp [list]
  | @opens due retired w₁ _ _ _ sweep list run =>
    rw [run, sweep]
    simp [list, runTick_proceed_ne_error]

/-- A tick that fails has sent nothing, and no row has a claim from it. -/
theorem table_of_runTick_eq_error {err : StoreError}
    (h : w.runTick t deadline .sweep = (.ok (some (.error err)), w')) :
    w'.messages = w.messages ∧
      ∀ e ∈ w'.table, e ∈ w.table ∨ e.claimedBy = none ∧ e.claimedAt = none := by
  cases w.opening t deadline with
  | sweepFails _ _ run onward =>
    obtain rfl : _ = w' := (Prod.mk.inj (run.symm.trans h)).2
    rw [onward.table, onward.messages, List.append_nil]
    exact ⟨rfl, fun e he => .inl he⟩
  | listFails _ _ _ run onward =>
    obtain rfl : _ = w' := (Prod.mk.inj (run.symm.trans h)).2
    rw [onward.table, onward.messages, List.append_nil]
    refine ⟨rfl, fun e he => ?_⟩
    obtain ⟨x, hx, rfl⟩ := List.mem_map.1 he
    unfold Entry.failExhausted
    split
    · exact .inr ⟨rfl, rfl⟩
    · exact .inl hx
  | opens _ _ _ _ run => exact absurd (run.symm.trans h) runTick_proceed_ne_error

/-- A tick of a worker with nobody else around, and what it finds there. -/
structure Faces (w : World) (worker : String) (now : Instant) (t : Tick) (s : Conditions) :
    Prop where
  unshared : w.Unshared none
  start : Tick.start? worker w.relay.value now = some t
  hold : s.Hold t w .sweep

/-- Every tick meets some conditions. Where they differ in the errors of the calls that concern one
entry, the rows of all others end the same and the same messages are sent for them, and neither tick
fails. A tick fails only if the sweep or the listing does, and then it has neither sent nor claimed
anything. -/
theorem failure_isolated :
    (∀ (t : Tick) (w : World), w.table.Distinct → ∃ s : Conditions, s.Hold t w .sweep) ∧
    (∀ (id : Uuid) (worker : String) (now : Instant) (t : Tick) (s s' : Conditions)
      (w w' : World), w.Faces worker now t s → w'.Faces worker now t s' → s.AlikeBut id s' →
      w.table = w'.table → w.table.Distinct → (∀ e ∈ w.table, e.retryCount < Entry.greatestCount) →
      ∃ r r' v v' ms ms', w.tick worker now none = (.ok (some r), v) ∧
        w'.tick worker now none = (.ok (some r'), v') ∧
        (s.error t.sweepCall = none → s.error t.listCall = none → r.isOk ∧ r'.isOk) ∧
        (v.table.filter fun e => e.id ≠ id) = (v'.table.filter fun e => e.id ≠ id) ∧
        v.messages = w.messages ++ ms ∧ v'.messages = w'.messages ++ ms' ∧
        (ms.filter fun m => m.entryId ≠ id) = ms'.filter fun m => m.entryId ≠ id) ∧
    ∀ (worker : String) (now : Instant) (deadline : Option Millis) (t : Tick) (w : World)
      (err : StoreError), Tick.start? worker w.relay.value now = some t →
      ((∃ v, w.tick worker now deadline = (.ok (some (.error err)), v)) ↔
        (w.perform t.sweepCall).1 = .ok (.error err) ∨
          ∃ retired w₁, w.perform t.sweepCall = (.ok (.ok retired), w₁) ∧
            (w₁.perform t.listCall).1 = .ok (.error err)) ∧
      ∀ v, w.tick worker now deadline = (.ok (some (.error err)), v) →
        v.messages = w.messages ∧
          ∀ e ∈ v.table, e ∈ w.table ∨ e.claimedBy = none ∧ e.claimedAt = none := by
  refine ⟨fun t w hd => Conditions.exists_hold t hd,
    fun id worker now t s s' w w' h h' halike htable hd hlt => ?_,
    fun worker now deadline t w err ht => ?_⟩
  · obtain ⟨r, v, hrun, hok, hv, hms⟩ := h.unshared.runTick_sweep hd hlt h.hold
    rw [htable] at hd hlt
    obtain ⟨r', v', hrun', hok', hv', hms'⟩ := h'.unshared.runTick_sweep hd hlt h'.hold
    have hsweep := halike.error t.sweepCall (by simp [Call.Concerns, Call.method])
    have hlist := halike.error t.listCall (by simp [Call.Concerns, Call.method])
    obtain ⟨hrows, hmessages⟩ := halike.effect t w'.table
    refine ⟨r, r', v, v', _, _, (tick_eq h.start _).trans hrun, (tick_eq h'.start _).trans hrun',
      fun h₁ h₂ => ⟨hok.2 ⟨h₁, h₂⟩, hok'.2 ⟨hsweep ▸ h₁, hlist ▸ h₂⟩⟩, ?_, hms, hms', ?_⟩
    · rw [hv, hv', htable, hrows]
    · rw [htable, hmessages]
  · rw [tick_eq ht]
    exact ⟨runTick_eq_error_iff, fun v => table_of_runTick_eq_error⟩

/-- Two rows to be sent, where the first one cannot be claimed. -/
def halfBroken : World :=
  { ofTable [{ Entry.sample with id := .ofNat 1, createdAt := 1 },
      { Entry.sample with id := .ofNat 2, createdAt := 2 }] 0 with
    faults := fun m => if m = .tryClaim then [some (.error .lockTimeout)] else [] }

/-- The same rows without any fault. -/
def unbroken : World := { halfBroken with faults := fun _ => [] }

/-- The same rows, but they cannot be listed. -/
def unlisted : World :=
  { halfBroken with faults := fun m => if m = .findPending then [some .poolClosed] else [] }

theorem halfBroken_isolated :
    (∃ r r' v v', halfBroken.tick "w1" 10 none = (.ok (some r), v) ∧
      unbroken.tick "w1" 10 none = (.ok (some r'), v') ∧ r.isOk ∧ r'.isOk ∧
      (v.table.filter fun e => e.id ≠ .ofNat 1) = v'.table.filter fun e => e.id ≠ .ofNat 1) ∧
    (∃ v, unlisted.tick "w1" 10 none = (.ok (some (.error (.database .poolClosed))), v) ∧
      v.messages = []) ∧
    ∃ (t : Tick) (s : Conditions), s.Hold t unlisted .sweep := by
  let e₁ : Entry := { Entry.sample with id := .ofNat 1, createdAt := 1 }
  let e₂ : Entry := { Entry.sample with id := .ofNat 2, createdAt := 2 }
  let t : Tick := ⟨"w1", .default, 10, -299999999990⟩
  let s : Conditions :=
    ⟨fun c => if c = t.claimCall e₁ then some .lockTimeout else none, fun _ => some (.ok ())⟩
  let s' : Conditions := ⟨fun _ => none, fun _ => some (.ok ())⟩
  have hd : halfBroken.table.Distinct := by unfold Table.Distinct; decide
  have hu : halfBroken.Unshared none := .of_script rfl rfl rfl
  have hu' : unbroken.Unshared none := .of_script rfl rfl rfl
  have ht : Tick.start? "w1" halfBroken.relay.value 10 = some t := by decide
  have hlt : ∀ e ∈ halfBroken.table, e.retryCount < Entry.greatestCount := by decide
  have halike : s.AlikeBut (.ofNat 1) s' := by
    refine ⟨rfl, fun c hc => if_neg ?_⟩
    rintro rfl
    exact hc ⟨rfl, by decide⟩
  let swept := (halfBroken.table.failExhausted 3 t.cutoff).2
  have hdue : swept.findPending 3 100 t.cutoff = [e₁, e₂] :=
    (Table.oldest_findPending_failExhausted hd 3 100 t.cutoff).unique
      ⟨by decide +kernel, by decide +kernel, by decide +kernel, by decide +kernel⟩
  have hhold : s.Hold t halfBroken .sweep := by
    refine .of_call rfl rfl rfl (.of_call rfl rfl rfl ?_)
    show s.Hold t _ (.proceed (swept.findPending 3 100 t.cutoff) _)
    rw [hdue]
    refine .of_call rfl rfl rfl (.of_call rfl rfl rfl ?_)
    exact .of_send rfl rfl rfl (.of_call rfl rfl rfl (.done rfl))
  have hhold' : s'.Hold t unbroken .sweep := by
    refine .of_call rfl rfl rfl (.of_call rfl rfl rfl ?_)
    show s'.Hold t _ (.proceed (swept.findPending 3 100 t.cutoff) _)
    rw [hdue]
    refine .of_call rfl rfl rfl (.of_send rfl rfl rfl (.of_call rfl rfl rfl ?_))
    exact .of_call rfl rfl rfl (.of_send rfl rfl rfl (.of_call rfl rfl rfl (.done rfl)))
  refine ⟨?_, ?_, t, failure_isolated.1 t unlisted hd⟩
  · obtain ⟨r, r', v, v', -, -, hr, hr', hok, hrows, -⟩ := failure_isolated.2.1 (.ofNat 1) "w1" 10 t
      s s' halfBroken unbroken ⟨hu, ht, hhold⟩ ⟨hu', ht, hhold'⟩ halike rfl hd hlt
    obtain ⟨h, h'⟩ := hok rfl rfl
    exact ⟨r, r', v, v', hr, hr', h, h', hrows⟩
  · obtain ⟨hiff, hsent⟩ :=
      failure_isolated.2.2 "w1" 10 none t unlisted (.database .poolClosed) ht
    obtain ⟨v, hv⟩ := hiff.2 (.inr ⟨_, _, rfl, rfl⟩)
    exact ⟨v, hv, (hsent v hv).1⟩

end World
end Scenario
end Outbox
