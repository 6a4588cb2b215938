import Outbox.Proofs.Relay.TickImage
import Outbox.Proofs.Scenario.Shutdown
import Mathlib.Algebra.GroupWithZero.Nat

/-!
# What an abandoned tick leaves behind

The sends of a tick take their time one after the other, so the tick is at its timeout with at most
one candidate: those before it are settled, those after it were never touched. That one is left
claimed. However the broker stalls, the oldest candidate is settled if one send fits in a tick.
-/

namespace Outbox

open Relay (Tick Lot)
open Scenario (World Machine RelayRun)

theorem RelayConfig.batchSize_pos_of_validate {c : RelayConfig} (h : c.validate = .ok ()) :
    0 < c.batchSize.toNat := by
  by_contra hlt
  have hlt : c.batchSize < 1 := by omega
  unfold validate at h
  simp only [hlt, if_true] at h
  split at h <;> cases h

theorem Scenario.Reply.wait_le (r : Scenario.Reply) (limit : Millis) : r.wait limit ≤ limit := by
  unfold wait
  split
  · exact Nat.min_le_right ..
  · exact Nat.le_refl limit

namespace Scenario.World
variable {w w' : World} {limit : Millis} {n : Nat}

/-- How long the next sends take one after the other, each of them given up after `limit`. -/
def sendTime (w : World) (limit : Millis) (n : Nat) : Millis :=
  ((List.range n).map fun i => (w.reply i).wait limit).sum

theorem sendTime_succ (w : World) (limit : Millis) (n : Nat) :
    w.sendTime limit (n + 1) = w.sendTime limit n + (w.reply n).wait limit := by
  simp [sendTime, List.range_succ]

theorem sendTime_mono (w : World) (limit : Millis) {m : Nat} (h : m ≤ n) :
    w.sendTime limit m ≤ w.sendTime limit n := by
  induction h with
  | refl => exact Nat.le_refl _
  | step _ ih =>
    rw [sendTime_succ]
    exact Nat.le_trans ih (Nat.le_add_right ..)

/-- The first send comes before the others. -/
theorem sendTime_cons (h : ∀ i, w'.reply i = w.reply (1 + i)) (limit : Millis) (n : Nat) :
    w.sendTime limit (n + 1) = (w.reply 0).wait limit + w'.sendTime limit n := by
  have hreply : ∀ i, w'.reply i = w.reply (i + 1) := fun i => by rw [h, Nat.add_comm]
  simp [sendTime, List.range_succ_eq_map, hreply, Function.comp_def]

/-- A tick without faults takes as long as its sends. -/
theorem Gets.time_eq {t : Tick} {deadline : Option Millis} {lots : Entry → Lot} {es : List Entry}
    (h : w.Gets t deadline lots es w') (hf : w.Faultless)
    (hle : ∀ limit ∈ deadline, w.time ≤ limit) :
    w'.time = w.time + w.sendTime t.config.sendTimeout es.length ∧
      (∀ limit ∈ deadline, w'.time ≤ limit) ∧ ∀ i, w'.reply i = w.reply (es.length + i) := by
  induction h with
  | nil => exact ⟨rfl, hle, fun i => by rw [List.length_nil, Nat.zero_add]⟩
  | @cons w w₁ w₂ e es past gets ih =>
    obtain ⟨d, hl⟩ := past.faultless hf
    have hon := past.goes.onward
    have hin := past.inTime
    rw [hl] at hon hin
    obtain ⟨htime, hle, hreply⟩ := ih (hon.faultless hf) (hin rfl)
    refine ⟨?_, hle, fun i => ?_⟩
    · rw [htime, hon.time, List.length_cons, sendTime_cons hon.reply]
      exact Nat.add_assoc ..
    · rw [hreply, hon.reply, List.length_cons]
      exact congrArg w.reply (by simp only [Lot.messages, List.length_singleton]; omega)

end Scenario.World

/-- What a tick makes of a row if it is done with some candidates and still waits for another. -/
def Relay.Tick.cutRow (t : Tick) (lots : Entry → Lot) (done : List Entry) (waiting : Option Entry)
    (x : Entry) : Entry :=
  if waiting = some x then x.leased t.worker t.now
  else t.handled lots done (x.failExhausted t.config.maxRetry t.cutoff)

theorem Relay.Tick.id_cutRow (t : Tick) (lots : Entry → Lot) (done : List Entry)
    (waiting : Option Entry) (x : Entry) : (t.cutRow lots done waiting x).id = x.id := by
  have hswept : (x.failExhausted t.config.maxRetry t.cutoff).id = x.id := by
    unfold Entry.failExhausted
    split <;> rfl
  unfold cutRow handled
  split
  · rfl
  · split
    · exact (t.id_rowAfter _ _).trans hswept
    · exact hswept

theorem Table.Distinct.put_cutRow {tbl : Table} (h : tbl.Distinct) (t : Tick) (lots : Entry → Lot)
    (done : List Entry) {e : Entry} (he : e ∈ tbl) :
    Table.put (tbl.map (t.cutRow lots done none)) e.id (e.leased t.worker t.now) =
      tbl.map (t.cutRow lots done (some e)) := by
  have hd : Table.Distinct (tbl.map (t.cutRow lots done none)) :=
    h.map fun x _ => t.id_cutRow ..
  rw [Table.put_eq_map hd, List.map_map]
  refine List.map_congr_left fun x hx => ?_
  simp only [Function.comp_def, t.id_cutRow]
  by_cases hid : x.id = e.id
  · obtain rfl := h.eq_of_id hx he hid
    simp [Tick.cutRow]
  · have hne : e ≠ x := fun h => hid (h ▸ rfl)
    simp [Tick.cutRow, hid, hne]

namespace Scenario.World
variable {w w' : World} {t : Tick} {lots : Entry → Lot} {done left : List Entry}

/-- A tick without faults is done with some candidates, and waits for the first of those left when
its time is up. -/
structure Cut (t : Tick) (lots : Entry → Lot) (done left : List Entry) (w : World)
    (result : Option (Except StoreError Relay.Report)) (w' : World) : Prop where
  lots_eq : ∀ {i e}, done[i]? = some e → lots e = .recorded (t.heard (w.reply i))
  inTime : w.sendTime t.config.sendTimeout done.length ≤ t.config.tickTimeout
  late : left ≠ [] → t.config.tickTimeout < w.sendTime t.config.sendTimeout (done.length + 1)
  result_eq : result = none ↔ left ≠ []
  table_eq : w'.table = w.table.map (t.cutRow lots done left.head?)
  messages_eq : w'.messages = w.messages ++ (done ++ left.take 1).map .ofEntry

theorem Unshared.cut (hu : w.Unshared (some (w.time + t.config.tickTimeout))) (hf : w.Faultless)
    (hd : w.table.Distinct) (hmax : t.config.maxRetry ≤ Entry.greatestCount) :
    ∃ lots done left result w', Oldest t.config.batchSize.toNat
        (w.table.filter (·.isClaimable t.config.maxRetry t.cutoff)) (done ++ left) ∧
      w.runTick t (some (w.time + t.config.tickTimeout)) .sweep = (.ok result, w') ∧
      w.Cut t lots done left result w' := by
  cases w.opening t (some (w.time + t.config.tickTimeout)) with
  | sweepFails faulty | listFails faulty => exact absurd hf faulty
  | @opens due retired _ w₁ due_eq _ _ _ run onward =>
    obtain ⟨hdue, hd₁, hlisted, lots, done, left, w₂, rfl, hgets, hleft⟩ :=
      hu.candidates hd due_eq onward
    have hf₁ := onward.faultless hf
    have hreply : ∀ i, w₁.reply i = w.reply i := fun i => by
      rw [onward.reply, List.length_nil, Nat.zero_add]
    have hsendTime : ∀ n, w₁.sendTime t.config.sendTimeout n =
        w.sendTime t.config.sendTimeout n := fun n => by
      simp only [sendTime, hreply]
    have hle : ∀ limit ∈ some (w.time + t.config.tickTimeout), w₁.time ≤ limit := by
      rintro _ ⟨⟩
      rw [onward.time]
      exact Nat.le_add_right ..
    obtain ⟨htime, hin, hreply₂⟩ := hgets.time_eq hf₁ hle
    have htime : w₂.time = w.time + w.sendTime t.config.sendTimeout done.length := by
      rw [htime, onward.time, hsendTime]
      rfl
    have hlots : ∀ {i e}, done[i]? = some e → lots e = .recorded (t.heard (w.reply i)) :=
      fun he => by rw [hgets.lots_eq hf₁ he, hreply]
    have hinTime : w.sendTime t.config.sendTimeout done.length ≤ t.config.tickTimeout := by
      have h := hin _ rfl
      rw [htime] at h
      exact Nat.le_of_add_le_add_left h
    have hdone : done.Nodup := (List.nodup_append.1 hdue.nodup).1
    obtain ⟨_, hon⟩ := hgets.onward hd₁ hdone fun e he =>
      (hlisted e (List.mem_append_left left he)).2.1
    rw [Lot.flatMap_messages fun e he => hgets.exists_recorded hf₁ he] at hon
    have htable : w₂.table = w.table.map (t.cutRow lots done none) := by
      rw [hon.table, onward.table, Table.failExhausted, List.map_map]
      rfl
    have hsent : w₂.messages = w.messages ++ done.map .ofEntry := by
      rw [hon.messages, onward.messages, List.append_nil]
    have hrun := run.trans (hgets.run left _)
    cases left with
    | nil =>
      refine ⟨lots, done, [], _, w₂, hdue, hrun.trans (runTick_done rfl), hlots, hinTime,
        fun hne => absurd rfl hne, by simp, htable, ?_⟩
      rw [hsent]
      simp
    | cons e rest =>
      obtain ⟨he, -, hc⟩ := hlisted e (by simp)
      cases hleft e rfl with
      | crashed hcount =>
        obtain ⟨-, -, hlt⟩ := Entry.isClaimable_iff.1 hc
        omega
      | @abandoned limit w₃ mem late run₃ onward₃ =>
        obtain rfl : w.time + t.config.tickTimeout = limit := by simpa using mem
        refine ⟨lots, done, e :: rest, none, w₃, hdue, hrun.trans (run₃ ..), hlots, hinTime,
          fun _ => ?_, by simp, ?_, ?_⟩
        · rw [htime, hreply₂, hreply, Nat.add_zero, Nat.add_assoc, ← sendTime_succ] at late
          exact Nat.lt_of_add_lt_add_left late
        · rw [onward₃.table, htable]
          exact hd.put_cutRow t lots done he
        · rw [onward₃.messages, hsent]
          simp

/-- What is left of the candidates `due` by a tick that has to stop at its timeout. -/
structure Leaves (t : Tick) (due : List Entry) (w : World)
    (result : Option (Except StoreError Relay.Report)) (w' : World) : Prop where
  /-- A candidate whose send ends in time is settled by its reply, or for want of one. -/
  settled : ∀ i e, due[i]? = some e →
    w.sendTime t.config.sendTimeout (i + 1) < t.config.tickTimeout →
    w'.table.row? e.id = some (t.settled e (t.heard (w.reply i)))
  /-- The first whose send does not end in time is claimed and otherwise as it was. -/
  waiting : ∀ i e, due[i]? = some e →
    t.config.tickTimeout < w.sendTime t.config.sendTimeout (i + 1) →
    (∀ j < i, w.sendTime t.config.sendTimeout (j + 1) < t.config.tickTimeout) →
    w'.table.row? e.id = some (e.leased t.worker t.now)
  untouched : ∀ i e, due[i]? = some e → ∀ j < i,
    t.config.tickTimeout < w.sendTime t.config.sendTimeout (j + 1) → w'.table.row? e.id = some e
  sent : ∃ n, w'.messages = w.messages ++ (due.take n).map .ofEntry ∧ ∀ i < due.length,
    i < n ↔ ∀ j < i, w.sendTime t.config.sendTimeout (j + 1) < t.config.tickTimeout
  abandoned : result = none ↔
    ∃ i < due.length, t.config.tickTimeout < w.sendTime t.config.sendTimeout (i + 1)
  claims : (w'.table.filter fun e => e ∉ w.table ∧ e.claimedAt.isSome).length ≤ 1

namespace Cut
variable {result : Option (Except StoreError Relay.Report)}

theorem lt_length_iff (h : w.Cut t lots done left result w') {i : Nat}
    (hi : i < (done ++ left).length) :
    i < done.length ↔ w.sendTime t.config.sendTimeout (i + 1) ≤ t.config.tickTimeout := by
  constructor
  · intro hlt
    exact Nat.le_trans (sendTime_mono w _ hlt) h.inTime
  · intro hle
    by_contra hge
    have hleft : left ≠ [] := by
      rintro rfl
      rw [List.append_nil] at hi
      exact hge hi
    have hmono := sendTime_mono w t.config.sendTimeout (Nat.succ_le_succ (Nat.not_lt.1 hge))
    exact absurd (Nat.lt_of_lt_of_le (h.late hleft) hmono) (Nat.not_lt.2 hle)

theorem row?_eq (h : w.Cut t lots done left result w') (hd : w.table.Distinct) {e : Entry}
    (he : e ∈ w.table) : w'.table.row? e.id = some (t.cutRow lots done left.head? e) := by
  have hid := t.id_cutRow lots done left.head?
  have hd' : Table.Distinct (w.table.map (t.cutRow lots done left.head?)) :=
    hd.map fun x _ => hid x
  rw [h.table_eq]
  exact hd'.row?_eq_some.2 ⟨List.mem_map_of_mem he, hid e⟩

/-- What is new in the table and carries a claim is the row that the tick waits for. -/
theorem claimed_subset (h : w.Cut t lots done left result w') :
    (w'.table.filter fun e => e ∉ w.table ∧ e.claimedAt.isSome) ⊆
      (left.take 1).map (·.leased t.worker t.now) := by
  intro x hx
  obtain ⟨hx, hnew⟩ := List.mem_filter.1 hx
  simp only [Bool.decide_and, Bool.and_eq_true, decide_eq_true_eq] at hnew
  obtain ⟨hnot, hclaimed⟩ := hnew
  rw [h.table_eq] at hx
  obtain ⟨y, hy, rfl⟩ := List.mem_map.1 hx
  unfold Tick.cutRow at hnot hclaimed ⊢
  split
  · rename_i hwaiting
    refine List.mem_map.2 ⟨y, ?_, rfl⟩
    cases left with
    | nil => cases hwaiting
    | cons e left =>
      cases hwaiting
      exact List.mem_cons_self
  · -- Whatever else became of the row, there is no claim on it that was not there before.
    rename_i hwaiting
    rw [if_neg hwaiting] at hnot hclaimed
    unfold Tick.handled at hnot hclaimed
    split at hclaimed <;> rename_i hdone
    · obtain ⟨i, hi⟩ := List.mem_iff_getElem?.1 hdone
      rw [h.lots_eq hi] at hclaimed
      generalize t.heard (w.reply i) = d at hclaimed
      match d with
      | .ok () | .error (.retryable _) | .error (.permanent _) => cases hclaimed
    · rw [if_neg hdone] at hnot
      unfold Entry.failExhausted at hnot hclaimed
      split at hclaimed <;> rename_i hx
      · cases hclaimed
      · rw [if_neg hx] at hnot
        exact absurd hy hnot

section
variable (h : w.Cut t lots done left result w') (hd : w.table.Distinct)
  (hdue : Oldest t.config.batchSize.toNat
    (w.table.filter (·.isClaimable t.config.maxRetry t.cutoff)) (done ++ left))
include h hd hdue

theorem row?_of_done {i : Nat} {e : Entry} (he : done[i]? = some e) :
    w'.table.row? e.id = some (t.settled e (t.heard (w.reply i))) := by
  have hdone : e ∈ done := List.mem_of_getElem? he
  obtain ⟨htable, hc⟩ := List.mem_filter.1 (hdue.subset (List.mem_append_left left hdone))
  have hwaiting : left.head? ≠ some e := fun hw =>
    (List.nodup_append.1 hdue.nodup).2.2 e hdone e (List.mem_of_mem_head? hw) rfl
  rw [h.row?_eq hd htable, Tick.cutRow, if_neg hwaiting, Entry.failExhausted_of_isClaimable hc,
    Tick.handled, if_pos hdone, h.lots_eq he]
  rfl

theorem row?_of_waiting {e : Entry} (he : left.head? = some e) :
    w'.table.row? e.id = some (e.leased t.worker t.now) := by
  have hmem := hdue.subset (List.mem_append_right done (List.mem_of_mem_head? he))
  rw [h.row?_eq hd (List.mem_filter.1 hmem).1, Tick.cutRow, if_pos he]

theorem row?_of_left {i : Nat} {e : Entry} (he : left[i + 1]? = some e) :
    w'.table.row? e.id = some e := by
  have hleft : e ∈ left := List.mem_of_getElem? he
  obtain ⟨htable, hc⟩ := List.mem_filter.1 (hdue.subset (List.mem_append_right done hleft))
  obtain ⟨-, hn, hdisjoint⟩ := List.nodup_append.1 hdue.nodup
  have hdone : e ∉ done := fun hdone => hdisjoint e hdone e hleft rfl
  have hwaiting : left.head? ≠ some e := fun hw => by
    rw [List.head?_eq_getElem?] at hw
    have hfirst := (List.getElem?_inj (List.length_pos_of_mem hleft) hn).1 (hw.trans he.symm)
    exact absurd hfirst (Nat.succ_ne_zero i).symm
  rw [h.row?_eq hd htable, Tick.cutRow, if_neg hwaiting, Entry.failExhausted_of_isClaimable hc,
    Tick.handled, if_neg hdone]

omit hdue in
theorem length_claimed_le :
    (w'.table.filter fun e => e ∉ w.table ∧ e.claimedAt.isSome).length ≤ 1 := by
  have hd' : w'.table.Distinct := by
    rw [h.table_eq]
    exact hd.map fun x _ => t.id_cutRow ..
  refine Nat.le_trans ((hd'.of_map.filter _).subperm h.claimed_subset).length_le ?_
  rw [List.length_map, List.length_take]
  exact Nat.min_le_left ..

theorem leaves (hne : ∀ i < (done ++ left).length,
    w.sendTime t.config.sendTimeout (i + 1) ≠ t.config.tickTimeout) :
    w.Leaves t (done ++ left) result w' := by
  have hlt : ∀ {i e}, (done ++ left)[i]? = some e → i < (done ++ left).length :=
    fun he => (List.getElem?_eq_some_iff.1 he).1
  have hbound : ∀ {i}, i < (done ++ left).length → (i < done.length ↔
      w.sendTime t.config.sendTimeout (i + 1) < t.config.tickTimeout) := fun hi =>
    (h.lt_length_iff hi).trans ⟨fun hle => Nat.lt_of_le_of_ne hle (hne _ hi), Nat.le_of_lt⟩
  refine ⟨fun i e he hin => ?_, fun i e he hlate hfirst => ?_, fun i e he j hj hlate => ?_, ?_, ?_,
    h.length_claimed_le hd⟩
  · have hi : i < done.length := (hbound (hlt he)).2 hin
    rw [List.getElem?_append_left hi] at he
    exact h.row?_of_done hd hdue he
  · have hi : ¬ i < done.length := fun hi =>
      absurd ((hbound (hlt he)).1 hi) (Nat.lt_asymm hlate)
    have hle : i ≤ done.length := by
      by_contra hgt
      have hgt := Nat.not_le.1 hgt
      exact Nat.lt_irrefl _
        ((hbound (Nat.lt_trans hgt (hlt he))).2 (hfirst done.length hgt))
    obtain rfl := Nat.le_antisymm hle (Nat.not_lt.1 hi)
    rw [List.getElem?_append_right (Nat.le_refl _), Nat.sub_self, ← List.head?_eq_getElem?] at he
    exact h.row?_of_waiting hd hdue he
  · have hj' : ¬ j < done.length := fun hj' =>
      absurd ((hbound (Nat.lt_trans hj (hlt he))).1 hj') (Nat.lt_asymm hlate)
    obtain ⟨k, rfl⟩ : ∃ k, i = done.length + (k + 1) := ⟨i - done.length - 1, by omega⟩
    rw [List.getElem?_append_right (Nat.le_add_right ..), Nat.add_sub_cancel_left] at he
    exact h.row?_of_left hd hdue he
  · refine ⟨done.length + 1, ?_, fun i hi => ⟨fun hle j hj => ?_, fun hall => ?_⟩⟩
    · rw [h.messages_eq, List.take_length_add_append]
    · exact (hbound (Nat.lt_trans hj hi)).1 (by omega)
    · by_contra hgt
      have hlt : done.length < i := by omega
      exact Nat.lt_irrefl _ ((hbound (Nat.lt_trans hlt hi)).2 (hall done.length hlt))
  · rw [h.result_eq]
    constructor
    · intro hleft
      refine ⟨done.length, ?_, h.late hleft⟩
      rw [List.length_append]
      exact Nat.lt_add_of_pos_right (List.length_pos_iff.2 hleft)
    · rintro ⟨i, hi, hlate⟩ rfl
      rw [List.append_nil] at hi hbound
      exact Nat.lt_asymm hlate ((hbound hi).1 hi)

end
end Cut

/-- A pass of a relay is a tick by the clock on the wall, with the timeout in force. -/
theorem tickPass_of_mem_passes {r : RelayRun} {k : Nat} {p : Machine.relay.Pass}
    (hp : p ∈ Machine.relay.passes k r) : p.start.tickPass r.worker = (p.result, p.finish) := by
  refine Machine.forall_passes (m := Machine.relay) (Q := fun s : RelayRun => s.worker = r.worker)
    (P := fun p => p.start.tickPass r.worker = (p.result, p.finish))
    (fun h hs => (RelayRun.worker_step hs).trans h) (fun h hpass => ?_) rfl k p hp
  obtain ⟨_, -, -, -, hresult⟩ := Machine.pass?_eq_some hpass
  rw [← h]
  exact hresult

/-- In a run of a relay, take a tick without faults, with nobody else around and with its own time
for every reply. It settles the candidates whose sends end before its timeout, leaves the first of
the others claimed and touches no more; and if a send is shorter than a tick, the oldest row that
can be claimed is settled in any case. -/
theorem tick_leaves {k : Nat} {worker : String} {p : Machine.relay.Pass}
    (hp : p ∈ Machine.relay.passes k (.start worker w)) (hf : p.start.Faultless)
    (hu : p.start.Unshared (some (p.start.time + p.start.relay.value.tickTimeout)))
    (hd : p.start.table.Distinct)
    (ht : Tick.start? worker p.start.relay.value p.start.clock = some t)
    (hmax : t.config.maxRetry ≤ Entry.greatestCount) :
    ∃ due result, Oldest t.config.batchSize.toNat
        (p.start.table.filter (·.isClaimable t.config.maxRetry t.cutoff)) due ∧
      p.result = .ok result ∧
      ((∀ i < due.length,
          p.start.sendTime t.config.sendTimeout (i + 1) ≠ t.config.tickTimeout) →
        p.start.Leaves t due result p.finish) ∧
      (t.config.validate = .ok () → t.config.sendTimeout < t.config.tickTimeout →
        ∀ e ∈ p.start.table, e.isClaimable t.config.maxRetry t.cutoff →
          (∀ x ∈ p.start.table, x.isClaimable t.config.maxRetry t.cutoff → x ≠ e → e.Earlier x) →
          p.finish.table.row? e.id = some (t.settled e (t.heard (p.start.reply 0)))) := by
  let v := p.start.readClock.2
  have hconfig : t.config = v.relay.value := by
    obtain ⟨_, -, rfl⟩ := Option.map_eq_some_iff.1 ht
    rfl
  have hrun : p.start.tickPass worker =
      v.runTick t (some (v.time + t.config.tickTimeout)) .sweep := by
    rw [hconfig]
    exact tick_eq (w := v) ht _
  have hu : v.Unshared (some (v.time + t.config.tickTimeout)) := by
    rw [hconfig]
    exact ⟨hu.fallback, hu.replies, hu.schedule⟩
  obtain ⟨lots, done, left, result, w', hdue, hresult, hcut⟩ := hu.cut hf hd hmax
  have hend := (tickPass_of_mem_passes hp).symm.trans (hrun.trans hresult)
  obtain rfl : p.finish = w' := (Prod.mk.inj hend).2
  refine ⟨_, result, hdue, (Prod.mk.inj hend).1, fun hne => ?_,
    fun hvalid hshort e he hc hfirst => ?_⟩
  · have h := hcut.leaves hd hdue hne
    exact ⟨h.settled, h.waiting, h.untouched, h.sent, h.abandoned, h.claims⟩
  · have hhead : (done ++ left).head? = some e :=
      hdue.head?_eq (RelayConfig.batchSize_pos_of_validate hvalid) (List.mem_filter.2 ⟨he, hc⟩)
        fun x hx => hfirst x (List.mem_filter.1 hx).1 (List.mem_filter.1 hx).2
    rw [List.head?_eq_getElem?] at hhead
    have hpos : 0 < done.length := by
      refine (hcut.lt_length_iff (List.getElem?_eq_some_iff.1 hhead).1).2 ?_
      have hwait := (v.reply 0).wait_le t.config.sendTimeout
      simp only [sendTime, Nat.zero_add, List.range_one, List.map_singleton, List.sum_singleton]
      exact Nat.le_trans hwait (Nat.le_of_lt hshort)
    rw [List.getElem?_append_left hpos] at hhead
    exact hcut.row?_of_done hd hdue hhead

/-- Two rows to be sent, a broker that never answers, and time for one send but not for two. -/
def unanswered : World :=
  { ofTable [{ Entry.sample with id := .ofNat 1, createdAt := 1 },
      { Entry.sample with id := .ofNat 2, createdAt := 2 }] 10 with
    fallback := ⟨[], none, .ok ()⟩
    relay := .new { RelayConfig.default with tickTimeout := 8000 } }

theorem unanswered_leaves :
    ∃ p ∈ Machine.relay.passes 2 (.start "w1" unanswered), p.result = .ok none ∧
      p.finish.table.row? (.ofNat 1) = some { Entry.sample with
        id := .ofNat 1, createdAt := 1, retryCount := 1,
        lastError := some "send timed out after 5000ms" } ∧
      p.finish.table.row? (.ofNat 2) = some { Entry.sample with
        id := .ofNat 2, createdAt := 2, claimedBy := some "w1", claimedAt := some 10 } := by
  let e₁ : Entry := { Entry.sample with id := .ofNat 1, createdAt := 1 }
  let e₂ : Entry := { Entry.sample with id := .ofNat 2, createdAt := 2 }
  let t : Tick := ⟨"w1", { RelayConfig.default with tickTimeout := 8000 }, 10, -299999999990⟩
  let start := (unanswered.advance 0).advance 1000
  let p : Machine.relay.Pass := ⟨start, (start.tickPass "w1").1, (start.tickPass "w1").2⟩
  have hp : p ∈ Machine.relay.passes 2 (.start "w1" unanswered) := by
    let asleep : RelayRun :=
      ⟨"w1", unanswered.advance 0, .start unanswered.signal unanswered.relay, .asleep 1000⟩
    have hstep : Machine.relay.step (RelayRun.start "w1" unanswered) = .going asleep := rfl
    have hpass : Machine.relay.pass? asleep = some p := rfl
    rw [Machine.passes_going hstep]
    exact List.mem_append_right _ (Machine.mem_passes_of_pass? hpass 0)
  have hf : p.start.Faultless := fun _ _ h => absurd h List.not_mem_nil
  have hu : p.start.Unshared (some (p.start.time + p.start.relay.value.tickTimeout)) :=
    .of_script rfl rfl rfl
  have hd : p.start.table.Distinct := by unfold Table.Distinct; decide
  have ht : Tick.start? "w1" p.start.relay.value p.start.clock = some t := by decide
  obtain ⟨due, result, hdue, hresult, hleaves, -⟩ := tick_leaves hp hf hu hd ht (by decide)
  obtain rfl : due = [e₁, e₂] := hdue.unique
    ⟨by decide +kernel, by decide +kernel, by decide +kernel, by decide +kernel⟩
  have h := hleaves (by decide +kernel)
  refine ⟨p, hp, ?_, ?_, ?_⟩
  · rw [hresult, h.abandoned.2 ⟨1, by decide, by decide +kernel⟩]
  · exact (h.settled 0 e₁ rfl (by decide +kernel)).trans (by decide +kernel)
  · exact h.waiting 1 e₂ rfl (by decide +kernel) (by decide +kernel)

end Scenario.World
end Outbox
