import Outbox.Proofs.Relay.TickImage

/-!
# Reports add up

A tick counts each candidate once, whatever the store answers and however the sends end: in every
phase it can reach, what it has counted and the candidates to come make up what it began with
(`Balanced`). Where nobody else writes, what is counted for a candidate is what became of its row
(`counted_tells`), so the numbers of a report can be read off the table.
-/

namespace Outbox

open Relay (Tick Report Outcome Lot)
open Scenario (World)

namespace Relay

/-! ### Whatever is answered -/

/-- Some answers of the store and ends of sends lead from a phase to another. -/
inductive Tick.Reaches (t : Tick) : Tick.Phase → Tick.Phase → Prop
  | refl {p : Phase} : Reaches t p p
  | call {p q : Phase} {c : Call} {next : c.Answer → Phase} (ask : t.ask p = .call c next)
      (a : c.Answer) (rest : Reaches t (next a) q) : Reaches t p q
  | send {p q : Phase} {m : Message} {next : Option Delivery → Phase} (ask : t.ask p = .send m next)
      (d : Option Delivery) (rest : Reaches t (next d) q) : Reaches t p q

/-- All that a report counts, apart from the candidates. -/
def Report.total (r : Report) : Nat :=
  r.published + r.retried + r.failed + r.contended + r.leaseLost + r.errors

theorem Report.total_add (r : Report) (o : Outcome) : (r.add o).total = r.total + 1 := by
  cases o <;> simp only [total, add] <;> omega

theorem Report.candidates_add (r : Report) (o : Outcome) :
    (r.add o).candidates = r.candidates := by
  cases o <;> rfl

namespace Tick

/-- The tick has its list, and each candidate is counted or is still to come, where so many entries
were retired. -/
def Phase.Balanced (retired : Nat) : Phase → Prop
  | claim _ rest r | send _ rest r | record _ _ rest r =>
    r.candidates + retired = r.total + rest.length + 1
  | done (.ok r) => r.candidates + retired = r.total
  | sweep | list _ | done (.error _) => False

variable {t : Tick} {p q : Phase} {retired : Nat} {r : Report}

theorem Phase.balanced_proceed {rest : List Entry} {r : Report}
    (h : r.candidates + retired = r.total + rest.length) : (proceed rest r).Balanced retired := by
  cases rest with
  | nil => exact h
  | cons e rest => exact h

theorem Phase.balanced_conclude {rest : List Entry} {r : Report}
    (h : r.candidates + retired = r.total + rest.length + 1) (o : Outcome) :
    (conclude rest r o).Balanced retired := by
  refine balanced_proceed ?_
  rw [Report.candidates_add, Report.total_add, h]
  omega

theorem Phase.balanced_start (es : List Entry) (retired : Nat) :
    (proceed es (.start es.length retired)).Balanced retired := by
  refine balanced_proceed ?_
  simp only [Report.start, Report.total]
  omega

theorem Phase.Balanced.call (h : p.Balanced retired) {c : Call} {next : c.Answer → Phase}
    (ha : t.ask p = .call c next) (a : c.Answer) : (next a).Balanced retired := by
  cases p with
  | sweep | list => exact h.elim
  | claim e rest r =>
    cases ha
    cases a with
    | error err => exact balanced_conclude h _
    | ok held => exact h
  | send => cases ha
  | record held d rest r =>
    cases ha
    exact balanced_conclude h _
  | done => cases ha

theorem Phase.Balanced.send (h : p.Balanced retired) {m : Message} {next : Option Delivery → Phase}
    (ha : t.ask p = .send m next) (d : Option Delivery) : (next d).Balanced retired := by
  cases p with
  | send held rest r =>
    cases ha
    exact h
  | sweep | list | claim | record | done => cases ha

theorem Reaches.balanced (h : t.Reaches p q) (hp : p.Balanced retired) : q.Balanced retired := by
  induction h with
  | refl => exact hp
  | call ask a _ ih => exact ih (hp.call ask a)
  | send ask d _ ih => exact ih (hp.send ask d)

theorem Reaches.balanced_of_list (h : t.Reaches (.list retired) (.done (.ok r))) :
    (Phase.done (.ok r)).Balanced retired := by
  cases h with
  | send ask => cases ask
  | call ask a rest =>
    cases ask
    cases a with
    | ok es => exact rest.balanced (Phase.balanced_start es retired)
    | error err =>
      cases rest with
      | call ask | send ask => cases ask

end Tick
end Relay

/-- A tick only gets where its answers lead it. -/
theorem Scenario.World.reaches_of_runTick {t : Tick} {deadline : Option Millis} {w w' : World}
    {p : Tick.Phase} {r : Except StoreError Report}
    (h : w.runTick t deadline p = (.ok (some r), w')) : t.Reaches p (.done r) := by
  -- The phases are not a list or a tree; the induction is on how far the tick is from its end.
  induction p using Tick.Phase.closer_wf.induction generalizing w with
  | _ p ih =>
    cases ha : t.ask p with
    | done r' =>
      rw [runTick_done ha] at h
      cases h
      cases p with
      | done =>
        cases ha
        exact .refl
      | sweep | list | claim | send | record => cases ha
    | call c next =>
      rw [runTick_call ha] at h
      rcases hw : w.perform c with ⟨e | a, w₁⟩ <;> rw [hw] at h
      · cases h
      · exact .call ha a (ih _ (Tick.closer_of_ask_call ha a) h)
    | send m next =>
      rw [runTick_send ha] at h
      rcases hw : w.send m with ⟨e | reply, w₁⟩ <;> rw [hw] at h
      · cases h
      · simp only at h
        split at h
        · cases h
        · exact .send ha _ (ih _ (Tick.closer_of_ask_send ha _) h)

/-! ### What is counted -/

namespace Relay

theorem Report.foldl_add {f : Report → Nat} {counts : Outcome → Bool}
    (hf : ∀ r o, f (r.add o) = f r + if counts o then 1 else 0) (o : Entry → Outcome)
    (es : List Entry) (r : Report) :
    f (es.foldl (fun r e => r.add (o e)) r) = f r + es.countP fun e => counts (o e) := by
  induction es generalizing r with
  | nil => rfl
  | cons e es ih =>
    rw [List.foldl_cons, ih, hf, List.countP_cons]
    omega

/-- What an outcome says of the row of a candidate. -/
def Outcome.Tells (e e' : Entry) : Outcome → Prop
  | .published => e'.status = .published
  | .exhausted | .rejected => e'.status = .failed
  | .retried => e'.status = .pending ∧ e'.retryCount = e.retryCount + 1
  | .contended | .leaseLost | .error => e'.status = .pending ∧ e'.retryCount = e.retryCount

theorem Tick.counted_tells (t : Tick) {e : Entry} (hp : e.status = .pending) (l : Lot) :
    (t.counted e l).Tells e (t.rowAfter e l) := by
  cases l with
  | unclaimed err => cases err <;> exact ⟨hp, rfl⟩
  | unrecorded d err => cases err <;> exact ⟨hp, rfl⟩
  | recorded d =>
    match d with
    | .ok () => rfl
    | .error (.permanent _) => rfl
    | .error (.retryable _) =>
      unfold counted rowAfter verdict settled outcome
      by_cases hlt : e.retryCount + 1 < t.config.maxRetry
      · simp [hlt, Outcome.Tells]
      · simp [hlt, Outcome.Tells]

end Relay

/-- How many rows of a table are so related to what became of them in a later one. -/
def Table.turned (t t' : Table) (came : Entry → Entry → Bool) : Nat :=
  t.countP fun e => (t'.row? e.id).any (came e)

namespace Table
variable {t : Table}

theorem Distinct.turned_map (h : t.Distinct) {g : Entry → Entry} (hg : ∀ e, (g e).id = e.id)
    (came : Entry → Entry → Bool) :
    t.turned (t.map g) came = t.countP fun e => came e (g e) := by
  have hd : Table.Distinct (t.map g) := h.map fun e _ => hg e
  refine List.countP_congr fun e he => ?_
  rw [hd.row?_eq_some.2 ⟨List.mem_map_of_mem he, hg e⟩]
  rfl

/-- Some rows of a table are counted in one way and the rest of them in another. -/
theorem countP_ite (hn : t.Nodup) {es : List Entry} (hes : es.Nodup) (hsub : es ⊆ t)
    (p q : Entry → Bool) :
    (t.countP fun e => if e ∈ es then p e else q e) =
      es.countP p + t.countP fun e => e ∉ es ∧ q e := by
  have hperm : (t.filter (· ∈ es)).Perm es := by
    refine (List.perm_ext_iff_of_nodup (hn.filter _) hes).2 fun e => ?_
    simpa using fun he => hsub he
  have hthose : ((t.filter (· ∈ es)).countP fun e => if e ∈ es then p e else q e) =
      es.countP p := by
    rw [← hperm.countP_eq]
    refine List.countP_congr fun e he => ?_
    have hmem : e ∈ es := by simpa using (List.mem_filter.1 he).2
    rw [if_pos hmem]
  have hrest : ((t.filter fun e => !(e ∈ es : Bool)).countP fun e => if e ∈ es then p e else q e) =
      t.countP fun e => e ∉ es ∧ q e := by
    rw [List.countP_filter]
    refine List.countP_congr fun e _ => ?_
    by_cases he : e ∈ es <;> simp [he]
  rw [List.countP_eq_countP_filter_add t _ (· ∈ es), hthose, hrest]

end Table

namespace Scenario.World
variable {w w' : World} {t : Tick} {deadline : Option Millis} {r : Report}

/-- A tick that returns a report got past all its candidates. -/
theorem Unshared.gets_of_report (hu : w.Unshared deadline) (hd : w.table.Distinct)
    (h : w.runTick t deadline .sweep = (.ok (some (.ok r)), w')) :
    ∃ due lots, Oldest t.config.batchSize.toNat
        (w.table.filter (·.isClaimable t.config.maxRetry t.cutoff)) due ∧
      r = due.foldl (fun r e => r.add (t.counted e (lots e)))
        (.start due.length (w.table.failExhausted t.config.maxRetry t.cutoff).1.length) ∧
      w'.table = (w.table.failExhausted t.config.maxRetry t.cutoff).2.map (t.handled lots due) := by
  cases w.opening t deadline with
  | sweepFails _ _ run | listFails _ _ _ run =>
    rw [run] at h
    cases h
  | @opens due retired _ w₁ due_eq retired_eq _ _ run onward =>
    obtain ⟨hdue, hd₁, hlisted, lots, done, left, w₂, rfl, hgets, hleft⟩ :=
      hu.candidates hd due_eq onward
    rw [run, hgets.run] at h
    cases left with
    | cons e left =>
      cases hleft e rfl with
      | abandoned _ _ run | crashed _ run =>
        rw [Tick.Phase.proceed, run] at h
        cases h
    | nil =>
      rw [List.append_nil] at hdue hlisted h
      rw [Tick.Phase.proceed, runTick_done rfl] at h
      cases h
      obtain ⟨_, hon⟩ := hgets.onward hd₁ hdue.nodup fun e he => (hlisted e he).2.1
      refine ⟨done, lots, hdue, ?_, ?_⟩
      · rw [retired_eq]
      · rw [hon.table, onward.table]

end Scenario.World

/-- What the sweep and the loop make of a row, the one after the other. -/
theorem Relay.Tick.handled_failExhausted {t : Tick} {lots : Entry → Lot} {due : List Entry}
    (hdue : ∀ d ∈ due, d.isClaimable t.config.maxRetry t.cutoff) (e : Entry) :
    t.handled lots due (e.failExhausted t.config.maxRetry t.cutoff) =
      if e ∈ due then t.rowAfter e (lots e)
      else e.failExhausted t.config.maxRetry t.cutoff := by
  by_cases hx : e.isExhausted t.config.maxRetry t.cutoff
  · have hretired : e.retired ∉ due := fun h => by
      have hc := Entry.isClaimable_iff.1 (hdue _ h)
      cases hc.1
    have he : e ∉ due := fun h => by
      obtain ⟨-, -, hlt⟩ := Entry.isClaimable_iff.1 (hdue e h)
      obtain ⟨-, -, hle⟩ := Entry.isExhausted_iff.1 hx
      exact absurd hlt (Int.not_lt.2 hle)
    rw [Entry.failExhausted, if_pos hx, handled, if_neg hretired, if_neg he]
  · rw [Entry.failExhausted, if_neg hx, handled]

namespace Relay

/-- One number of a report is that of the rows that came to be so, by outcomes of a certain kind or
by the sweep. -/
structure Report.Counts (f : Report → Nat) (kind : Outcome → Bool) (swept : Bool)
    (came : Entry → Entry → Bool) : Prop where
  start : ∀ n retired, f (.start n retired) = if swept then retired else 0
  add : ∀ r o, f (r.add o) = f r + if kind o then 1 else 0
  tells : ∀ {o e e'}, e.status = .pending → Outcome.Tells e e' o → came e e' = kind o
  same : ∀ e, came e e = false
  retired : ∀ e, e.status = .pending → came e e.retired = swept

theorem status_retired (e : Entry) : e.retired.status = .failed := rfl

theorem Report.counts_published : Report.Counts Report.published (· = .published) false
    fun e e' => e.status ≠ .published ∧ e'.status = .published where
  start _ _ := rfl
  add r o := by cases o <;> rfl
  tells {o e e'} hp ht := by cases o <;> simp_all [Outcome.Tells]
  same e := by simp
  retired e hp := by simp [status_retired]

theorem Report.counts_failed : Report.Counts Report.failed (· ∈ [.exhausted, .rejected]) true
    fun e e' => e.status ≠ .failed ∧ e'.status = .failed where
  start _ _ := rfl
  add r o := by cases o <;> rfl
  tells {o e e'} hp ht := by cases o <;> simp_all [Outcome.Tells]
  same e := by simp
  retired e hp := by simp [status_retired, hp]

theorem Report.counts_retried : Report.Counts Report.retried (· = .retried) false
    fun e e' => e.status = .pending ∧ e'.status = .pending ∧
      e'.retryCount = e.retryCount + 1 where
  start _ _ := rfl
  add r o := by cases o <;> rfl
  tells {o e e'} hp ht := by
    have hmore : e.retryCount ≠ e.retryCount + 1 := by omega
    cases o <;> simp_all [Outcome.Tells]
  same e := by
    have hmore : e.retryCount ≠ e.retryCount + 1 := by omega
    simp [hmore]
  retired e hp := by simp [status_retired]

end Relay

namespace Scenario.World
variable {w w' : World} {t : Tick} {deadline : Option Millis} {r : Report}

/-- Where nobody else writes, the numbers of a report are those of the rows. -/
theorem Unshared.count_of_report (hu : w.Unshared deadline) (hd : w.table.Distinct)
    (h : w.runTick t deadline .sweep = (.ok (some (.ok r)), w')) {f : Report → Nat}
    {kind : Outcome → Bool} {swept : Bool} {came : Entry → Entry → Bool}
    (hf : Report.Counts f kind swept came) : f r = w.table.turned w'.table came := by
  obtain ⟨due, lots, hdue, rfl, htable⟩ := hu.gets_of_report hd h
  have hlisted : ∀ e ∈ due, e ∈ w.table ∧ e.isClaimable t.config.maxRetry t.cutoff :=
    fun e he => List.mem_filter.1 (hdue.subset he)
  let row (e : Entry) := t.handled lots due (e.failExhausted t.config.maxRetry t.cutoff)
  have hrow : ∀ e, row e = _ := Tick.handled_failExhausted fun e he => (hlisted e he).2
  have hid : ∀ e, (row e).id = e.id := by
    intro e
    rw [hrow]
    split
    · exact t.id_rowAfter e _
    · unfold Entry.failExhausted
      split <;> rfl
  have hmap : w'.table = w.table.map row := by
    rw [htable, Table.failExhausted, List.map_map]
    rfl
  rw [hmap, hd.turned_map hid, Report.foldl_add hf.add, hf.start]
  -- A listed row is what its outcome says, and the sweep has a say in the others only.
  have hcount : (w.table.countP fun e => came e (row e)) = w.table.countP fun e =>
      if e ∈ due then kind (t.counted e (lots e))
      else swept && e.isExhausted t.config.maxRetry t.cutoff := by
    refine List.countP_congr fun e _ => ?_
    rw [hrow]
    by_cases he : e ∈ due
    · obtain ⟨hp, -⟩ := Entry.isClaimable_iff.1 (hlisted e he).2
      rw [if_pos he, if_pos he, hf.tells hp (t.counted_tells hp (lots e))]
    · rw [if_neg he, if_neg he]
      unfold Entry.failExhausted
      split <;> rename_i hx
      · rw [hf.retired e (Entry.isExhausted_iff.1 hx).1, hx, Bool.and_true]
      · simp [hf.same, hx]
  have hswept : (w.table.countP fun e => e ∉ due ∧
      (swept && e.isExhausted t.config.maxRetry t.cutoff)) =
        if swept then (w.table.failExhausted t.config.maxRetry t.cutoff).1.length else 0 := by
    cases swept with
    | false => simp
    | true =>
      rw [Table.length_failExhausted, if_pos rfl]
      refine List.countP_congr fun e _ => ?_
      have hnot : e.isExhausted t.config.maxRetry t.cutoff → e ∉ due := fun hx he => by
        obtain ⟨-, -, hlt⟩ := Entry.isClaimable_iff.1 (hlisted e he).2
        obtain ⟨-, -, hle⟩ := Entry.isExhausted_iff.1 hx
        exact absurd hlt (Int.not_lt.2 hle)
      simpa using hnot
  rw [hcount, Table.countP_ite hd.of_map hdue.nodup fun e he => (hlisted e he).1, hswept,
    Nat.add_comm]

/-- However a tick comes by its report, each candidate is counted in it once, and each row that the
sweep retired. Where nobody else writes and no two rows have one id, it tells how many rows were
published, failed, or have another attempt counted. -/
theorem tick_tally (t : Tick) :
    (∀ next, t.ask .sweep = .call t.sweepCall next → ∀ (retired : List Entry) (r : Report),
      t.Reaches (next (.ok retired)) (.done (.ok r)) → r.candidates + retired.length = r.total) ∧
    ∀ (w w' : World) (worker : String) (now : Instant) (deadline : Option Millis) (r : Report),
      Tick.start? worker w.relay.value now = some t →
      w.tick worker now deadline = (.ok (some (.ok r)), w') →
      (∃ retired w₁, w.perform t.sweepCall = (.ok (.ok retired), w₁) ∧
        retired.length = w.table.countP (·.isExhausted t.config.maxRetry t.cutoff) ∧
        r.candidates + retired.length = r.total) ∧
      (w.table.Distinct → w.Unshared deadline →
        r.published = w.table.turned w'.table
          (fun e e' => e.status ≠ .published ∧ e'.status = .published) ∧
        r.failed = w.table.turned w'.table
          (fun e e' => e.status ≠ .failed ∧ e'.status = .failed) ∧
        r.retried = w.table.turned w'.table fun e e' =>
          e.status = .pending ∧ e'.status = .pending ∧ e'.retryCount = e.retryCount + 1) := by
  refine ⟨fun next hask retired r hreach => ?_, fun w w' worker now deadline r ht h => ⟨?_, ?_⟩⟩
  · cases hask
    exact hreach.balanced_of_list
  · rw [tick_eq ht] at h
    cases w.opening t deadline with
    | sweepFails _ _ run | listFails _ _ _ run =>
      rw [run] at h
      cases h
    | @opens due retired w₁ _ _ retired_eq sweep _ run =>
      rw [run] at h
      refine ⟨retired, w₁, sweep, ?_, ?_⟩
      · rw [← retired_eq, Table.length_failExhausted]
      · exact (reaches_of_runTick h).balanced (Tick.Phase.balanced_start due _)
  · intro hd hu
    rw [tick_eq ht] at h
    exact ⟨hu.count_of_report hd h Report.counts_published,
      hu.count_of_report hd h Report.counts_failed, hu.count_of_report hd h Report.counts_retried⟩

/-- Two rows to be sent, of which the first cannot be claimed, and one without attempts left. -/
def mixed : World :=
  { ofTable [{ Entry.sample with id := .ofNat 1, createdAt := 1 },
      { Entry.sample with id := .ofNat 2, createdAt := 2 },
      { Entry.sample with id := .ofNat 3, retryCount := 3 }] 0 with
    faults := fun m => if m = .tryClaim then [some (.error .lockTimeout)] else [] }

theorem tick_tally_mixed :
    (∃ t : Tick, t.Reaches (.list 1) (.done (.ok ⟨1, 0, 0, 1, 0, 0, 1⟩)) ∧
      1 + 1 = Report.total ⟨1, 0, 0, 1, 0, 0, 1⟩) ∧
    ∃ w', mixed.tick "w1" 10 none = (.ok (some (.ok ⟨2, 1, 0, 1, 0, 0, 1⟩)), w') ∧
      mixed.table.turned w'.table
        (fun e e' => e.status ≠ .published ∧ e'.status = .published) = 1 ∧
      mixed.table.turned w'.table (fun e e' => e.status ≠ .failed ∧ e'.status = .failed) = 1 := by
  let e₁ : Entry := { Entry.sample with id := .ofNat 1, createdAt := 1 }
  let e₂ : Entry := { Entry.sample with id := .ofNat 2, createdAt := 2 }
  let t : Tick := ⟨"w1", .default, 10, -299999999990⟩
  have hreach : t.Reaches (.list 1) (.done (.ok ⟨1, 0, 0, 1, 0, 0, 1⟩)) :=
    .call rfl (.ok [e₁]) (.call rfl (.error .lockTimeout) .refl)
  refine ⟨⟨t, hreach, (tick_tally t).1 _ rfl [e₁] _ hreach⟩, ?_⟩
  have hd : mixed.table.Distinct := by unfold Table.Distinct; decide
  have ht : Tick.start? "w1" mixed.relay.value 10 = some t := by decide
  let listed := (mixed.table.failExhausted 3 t.cutoff).2.findPending 3 100 t.cutoff
  have hlisted : listed = [e₁, e₂] :=
    (Table.oldest_findPending_failExhausted hd 3 100 t.cutoff).unique
      ⟨by decide +kernel, by decide +kernel, by decide +kernel, by decide +kernel⟩
  have hrun : (mixed.runTick t none .sweep).1 = .ok (some (.ok ⟨2, 1, 0, 1, 0, 0, 1⟩)) := by
    refine (congrArg Prod.fst (runTick_call (p := .sweep) rfl)).trans ?_
    refine (congrArg Prod.fst (runTick_call (p := .list 1) rfl)).trans ?_
    show (runTick t none _ (.proceed listed (.start listed.length 1))).1 = _
    rw [hlisted]
    refine (congrArg Prod.fst (runTick_call (p := .claim e₁ [e₂] _) rfl)).trans ?_
    refine (congrArg Prod.fst (runTick_call (p := .claim e₂ [] _) rfl)).trans ?_
    refine (congrArg Prod.fst (runTick_send (p := .send _ [] _) rfl)).trans ?_
    refine (congrArg Prod.fst (runTick_call (p := .record _ _ [] _) rfl)).trans ?_
    exact congrArg Prod.fst (runTick_done rfl)
  have htick : mixed.tick "w1" 10 none =
      (.ok (some (.ok ⟨2, 1, 0, 1, 0, 0, 1⟩)), (mixed.runTick t none .sweep).2) := by
    rw [tick_eq ht]
    exact Prod.ext hrun rfl
  obtain ⟨-, hturned⟩ := (tick_tally t).2 mixed _ "w1" 10 none _ ht htick
  obtain ⟨hpublished, hfailed, -⟩ := hturned hd (.of_script rfl rfl rfl)
  exact ⟨_, htick, hpublished.symm, hfailed.symm⟩

end Scenario.World
end Outbox
