import Outbox.Proofs.Relay.Candidate

/-!
# The candidates of a tick

A tick retires and lists (`opening`), and then takes the candidates of its list one after the other.
`Gets` says that it gets past some of them; the table, the messages and the report can then be read
off their lots. With nobody else around it gets past the whole list, or up to the one it stops at
(`Unshared.candidates`).
-/

namespace Outbox

open Relay (Tick)
open Scenario (World Conditions)

namespace Scenario.World
variable {t : Tick} {deadline : Option Millis} {w w' w'' : World}

/-- The tick gets past some candidates, one after the other. -/
inductive Gets (t : Tick) (deadline : Option Millis) (lots : Entry → Relay.Lot) :
    World → List Entry → World → Prop
  | nil {w : World} : Gets t deadline lots w [] w
  | cons {w w' w'' : World} {e : Entry} {es : List Entry} (past : w.Past t deadline e (lots e) w')
      (gets : Gets t deadline lots w' es w'') : Gets t deadline lots w (e :: es) w''

namespace Gets
variable {lots lots' : Entry → Relay.Lot} {es : List Entry}

theorem congr (h : w.Gets t deadline lots es w') (heq : ∀ e ∈ es, lots e = lots' e) :
    w.Gets t deadline lots' es w' := by
  induction h with
  | nil => exact .nil
  | cons past gets ih =>
    obtain ⟨he, hes⟩ := List.forall_mem_cons.1 heq
    exact .cons (he ▸ past) (ih hes)

theorem run (h : w.Gets t deadline lots es w') (rest : List Entry) (report : Relay.Report) :
    w.runTick t deadline (.proceed (es ++ rest) report) = w'.runTick t deadline
      (.proceed rest (es.foldl (fun r e => r.add (t.counted e (lots e))) report)) := by
  induction h generalizing report with
  | nil => rfl
  | cons past gets ih => exact (past.goes.run _ report).trans (ih _)

theorem hold (h : w.Gets t deadline lots es w') {s : Conditions} {rest : List Entry}
    {report : Relay.Report} (hs : s.Hold t w (.proceed (es ++ rest) report)) :
    (∀ e ∈ es, lots e = s.lot t e) ∧
      s.Hold t w' (.proceed rest (es.foldl (fun r e => r.add (t.counted e (lots e))) report)) := by
  induction h generalizing report with
  | nil => exact ⟨fun _ he => absurd he List.not_mem_nil, hs⟩
  | cons past gets ih =>
    obtain ⟨hes, hrest⟩ := ih (past.goes.hold hs)
    exact ⟨List.forall_mem_cons.2 ⟨past.conditions hs, hes⟩, hrest⟩

end Gets

/-- The candidates of a list are taken in order, and the tick gets past them or stops at one. -/
theorem Unshared.gets_cases {es : List Entry} (hu : w.Unshared deadline) (hd : w.table.Distinct)
    (hn : es.Nodup)
    (hes : ∀ e ∈ es, e ∈ w.table ∧ e.status = .pending ∧ e.isIdle t.cutoff) :
    ∃ lots done left w', es = done ++ left ∧ w.Gets t deadline lots done w' ∧
      ∀ e ∈ left.head?, w'.Stops t deadline e := by
  induction es generalizing w with
  | nil => exact ⟨fun _ => .recorded (.ok ()), [], [], w, rfl, .nil, fun _ h => nomatch h⟩
  | cons e es ih =>
    obtain ⟨hnot, hn⟩ := List.nodup_cons.1 hn
    obtain ⟨he, hp, hi⟩ := hes e List.mem_cons_self
    rcases hu.claim_cases hd he hp hi with ⟨l, w₁, hpast⟩ | hstops
    · have hne : ∀ x ∈ es, x ≠ e := fun x hx hxe => hnot (hxe ▸ hx)
      obtain ⟨lots, done, left, w₂, rfl, hgets, hleft⟩ := ih (hpast.goes.onward.unshared hu)
        (hpast.distinct hd) hn fun x hx => by
          obtain ⟨hmem, hx'⟩ := hes x (List.mem_cons_of_mem e hx)
          exact ⟨hpast.mem_table hd he hmem (hne x hx), hx'⟩
      -- No two candidates are the same, so what is said of the others stays as it is.
      let lots' x := if x = e then l else lots x
      have hpast : w.Past t deadline e (lots' e) w₁ := by
        simpa only [lots', if_true] using hpast
      have hgets : w₁.Gets t deadline lots' done w₂ :=
        hgets.congr fun x hx => (if_neg (hne x (List.mem_append_left left hx))).symm
      exact ⟨lots', e :: done, left, w₂, rfl, .cons hpast hgets, hleft⟩
    · refine ⟨fun _ => .recorded (.ok ()), [], e :: es, w, rfl, .nil, fun x hx => ?_⟩
      obtain rfl : e = x := by simpa using hx
      exact hstops

/-- What the candidates make of the table and what is sent for them. -/
theorem Gets.onward {lots : Entry → Relay.Lot} {es : List Entry}
    (h : w.Gets t deadline lots es w') (hd : w.table.Distinct) (hn : es.Nodup)
    (hes : ∀ e ∈ es, e ∈ w.table) :
    ∃ time, w.Onward (w.table.map (t.handled lots es)) (es.flatMap fun e => (lots e).messages e)
      time w' := by
  induction h with
  | nil =>
    have hid : t.handled lots [] = id := funext fun _ => if_neg List.not_mem_nil
    rw [hid, List.map_id]
    exact ⟨0, .refl _⟩
  | @cons w w₁ w₂ e es past gets ih =>
    obtain ⟨hnot, hn⟩ := List.nodup_cons.1 hn
    obtain ⟨he, hmem⟩ := List.forall_mem_cons.1 hes
    have hne : ∀ x ∈ es, x ≠ e := fun x hx hxe => hnot (hxe ▸ hx)
    obtain ⟨time, hon⟩ := ih (past.distinct hd) hn fun x hx =>
      past.mem_table hd he (hmem x hx) (hne x hx)
    have hmap : w₁.table.map (t.handled lots es) = w.table.map (t.handled lots (e :: es)) := by
      rw [past.table_eq hd he, List.map_map]
      refine List.map_congr_left fun x hx => ?_
      by_cases hxe : x = e
      · subst hxe
        -- The row is none of those still to come, whatever it looks like by now.
        have hafter : t.rowAfter x (lots x) ∉ es := fun h =>
          hne _ h (hd.eq_of_id (hmem _ h) he (t.id_rowAfter x _))
        simp [Relay.Tick.handled, hafter]
      · simp [Relay.Tick.handled, hxe]
    rw [hmap] at hon
    exact ⟨_, past.goes.onward.trans hon⟩

/-- Without faults the candidates end as the replies say, one after the other. -/
theorem Gets.lots_eq {lots : Entry → Relay.Lot} {es : List Entry}
    (h : w.Gets t deadline lots es w') (hf : w.Faultless) {i : Nat} {e : Entry}
    (he : es[i]? = some e) : lots e = .recorded (t.heard (w.reply i)) := by
  induction h generalizing i with
  | nil => cases he
  | cons past gets ih =>
    obtain ⟨d, hl⟩ := past.faultless hf
    have hon := past.goes.onward
    rw [hl] at hon
    cases i with
    | zero =>
      cases he
      rw [hl, past.delivery d (by rw [hl]; rfl)]
    | succ i =>
      rw [ih (hon.faultless hf) he, hon.reply, Nat.add_comm]
      rfl

theorem Gets.exists_recorded {lots : Entry → Relay.Lot} {es : List Entry}
    (h : w.Gets t deadline lots es w') (hf : w.Faultless) {e : Entry} (he : e ∈ es) :
    ∃ d, lots e = .recorded d := by
  obtain ⟨i, hi⟩ := List.mem_iff_getElem?.1 he
  exact ⟨_, h.lots_eq hf hi⟩

/-! ### The retirement and the listing -/

/-- How a tick begins: one of its first two calls fails, or it goes on to the candidates. -/
inductive Opening (t : Tick) (deadline : Option Millis) (w : World) : Prop
  | sweepFails {err : StoreError} {w' : World} (faulty : ¬ w.Faultless)
      (sweep : w.perform t.sweepCall = (.ok (.error err), w'))
      (run : w.runTick t deadline .sweep = (.ok (some (.error err)), w'))
      (onward : w.Onward w.table [] 0 w')
      (hold : ∀ {s : Conditions}, s.Hold t w .sweep → s.error t.sweepCall = some err)
  | listFails {err : StoreError} {retired : List Entry} {w₁ w' : World} (faulty : ¬ w.Faultless)
      (sweep : w.perform t.sweepCall = (.ok (.ok retired), w₁))
      (list : w₁.perform t.listCall = (.ok (.error err), w'))
      (run : w.runTick t deadline .sweep = (.ok (some (.error err)), w'))
      (onward : w.Onward (w.table.failExhausted t.config.maxRetry t.cutoff).2 [] 0 w')
      (hold : ∀ {s : Conditions}, s.Hold t w .sweep →
        s.error t.sweepCall = none ∧ s.error t.listCall = some err)
  | opens {due retired : List Entry} {w₁ w' : World}
      (due_eq : (w.table.failExhausted t.config.maxRetry t.cutoff).2.findPending
        t.config.maxRetry t.config.batchSize t.cutoff = due)
      (retired_eq : (w.table.failExhausted t.config.maxRetry t.cutoff).1 = retired)
      (sweep : w.perform t.sweepCall = (.ok (.ok retired), w₁))
      (list : w₁.perform t.listCall = (.ok (.ok due), w'))
      (run : w.runTick t deadline .sweep =
        w'.runTick t deadline (.proceed due (.start due.length retired.length)))
      (onward : w.Onward (w.table.failExhausted t.config.maxRetry t.cutoff).2 [] 0 w')
      (hold : ∀ {s : Conditions}, s.Hold t w .sweep →
        s.error t.sweepCall = none ∧ s.error t.listCall = none ∧
          s.Hold t w' (.proceed due (.start due.length retired.length)))

theorem tick_eq {worker : String} {now : Instant}
    (ht : Tick.start? worker w.relay.value now = some t) (deadline : Option Millis) :
    w.tick worker now deadline = w.runTick t deadline .sweep := by
  rw [tick, ht]

theorem opening (t : Tick) (deadline : Option Millis) (w : World) : w.Opening t deadline := by
  cases hsweep : w.injected? t.sweepCall with
  | some err =>
    obtain ⟨w', hw', hon⟩ := perform_injected (c := t.sweepCall) rfl hsweep
    refine .sweepFails (fun hf => ?_) hw' ?_ hon fun hs => ?_
    · rw [injected?_eq_none (hf _)] at hsweep
      cases hsweep
    · exact (runTick_answered (p := .sweep) rfl hw').trans (runTick_done rfl)
    · exact (hs.call_inv rfl).1.symm.trans hsweep
  | none =>
    let retired := (w.table.failExhausted t.config.maxRetry t.cutoff).1
    obtain ⟨w₁, hw₁, hon₁⟩ := perform_answered (c := t.sweepCall)
      (by rw [fault_eq_injected? w rfl, hsweep]; rfl) rfl
    have htable : w₁.table = (w.table.failExhausted t.config.maxRetry t.cutoff).2 := hon₁.table
    have hrun : w.runTick t deadline .sweep = w₁.runTick t deadline (.list retired.length) :=
      runTick_answered (p := .sweep) rfl hw₁
    have hhold : ∀ {s : Conditions}, s.Hold t w .sweep →
        s.error t.sweepCall = none ∧ s.Hold t w₁ (.list retired.length) := fun hs =>
      ⟨(hs.call_inv rfl).1.symm.trans hsweep, (hs.call_inv rfl).2 _ w₁ hw₁⟩
    cases hlist : w₁.injected? t.listCall with
    | some err =>
      obtain ⟨w', hw', hon⟩ := perform_injected (c := t.listCall) rfl hlist
      rw [htable] at hon
      refine .listFails (fun hf => ?_) hw₁ hw' (hrun.trans ?_) (hon₁.trans hon) fun hs => ?_
      · rw [injected?_eq_none (hon₁.faultless hf _)] at hlist
        cases hlist
      · exact (runTick_answered (p := .list _) rfl hw').trans (runTick_done rfl)
      · exact ⟨(hhold hs).1, ((hhold hs).2.call_inv rfl).1.symm.trans hlist⟩
    | none =>
      obtain ⟨w', hw', hon⟩ := perform_answered (c := t.listCall)
        (by rw [fault_eq_injected? w₁ rfl, hlist]; rfl) rfl
      have hon : w₁.Onward w₁.table [] 0 w' := hon
      have hdue : (w₁.table.answer t.listCall).1 = .ok (w₁.table.findPending
        t.config.maxRetry t.config.batchSize t.cutoff) := rfl
      rw [hdue, htable] at hw'
      rw [htable] at hon
      refine .opens rfl rfl hw₁ hw' (hrun.trans ?_) (hon₁.trans hon) fun hs => ?_
      · exact runTick_answered (p := .list _) rfl hw'
      · obtain ⟨hnone, hs⟩ := hhold hs
        exact ⟨hnone, (hs.call_inv rfl).1.symm.trans hlist, (hs.call_inv rfl).2 _ w' hw'⟩

/-- What is listed after the sweep are rows that the sweep left alone. -/
theorem Onward.listed {maxRetry : Int} {cutoff : Instant} {n : Nat} {due : List Entry}
    (hon : w.Onward (w.table.failExhausted maxRetry cutoff).2 [] 0 w') (hd : w.table.Distinct)
    (hdue : Oldest n (w.table.filter (·.isClaimable maxRetry cutoff)) due) :
    w'.table.Distinct ∧ ∀ e ∈ due, e ∈ w.table ∧ e ∈ w'.table ∧ e.isClaimable maxRetry cutoff := by
  rw [hon.table]
  refine ⟨hd.failExhausted maxRetry cutoff, fun e he => ?_⟩
  obtain ⟨hmem, hc⟩ := List.mem_filter.1 (hdue.subset he)
  exact ⟨hmem, List.mem_map.2 ⟨e, hmem, Entry.failExhausted_of_isClaimable hc⟩, hc⟩

/-- After the sweep and the listing the tick takes the oldest rows in order, and gets past them or
stops at one. -/
theorem Unshared.candidates {due : List Entry} (hu : w.Unshared deadline) (hd : w.table.Distinct)
    (hdue : (w.table.failExhausted t.config.maxRetry t.cutoff).2.findPending t.config.maxRetry
      t.config.batchSize t.cutoff = due)
    (hon : w.Onward (w.table.failExhausted t.config.maxRetry t.cutoff).2 [] 0 w') :
    Oldest t.config.batchSize.toNat
        (w.table.filter (·.isClaimable t.config.maxRetry t.cutoff)) due ∧
      w'.table.Distinct ∧
      (∀ e ∈ due, e ∈ w.table ∧ e ∈ w'.table ∧ e.isClaimable t.config.maxRetry t.cutoff) ∧
      ∃ lots done left w'', due = done ++ left ∧ w'.Gets t deadline lots done w'' ∧
        ∀ e ∈ left.head?, w''.Stops t deadline e := by
  have holdest := Table.oldest_findPending_failExhausted hd t.config.maxRetry t.config.batchSize
    t.cutoff
  rw [hdue] at holdest
  obtain ⟨hd', hlisted⟩ := hon.listed hd holdest
  refine ⟨holdest, hd', hlisted, (hon.unshared hu).gets_cases hd' holdest.nodup fun e he => ?_⟩
  obtain ⟨-, hmem, hc⟩ := hlisted e he
  obtain ⟨hp, hi, -⟩ := Entry.isClaimable_iff.1 hc
  exact ⟨hmem, hp, hi⟩

end Scenario.World
end Outbox
