import Outbox.Admin.Handler
import Outbox.Proofs.Table.Row
import Mathlib.Logic.Function.Basic

/-!
# Many requests to put one entry back

A service answers any number of requests from one table, and their calls to the store mix in any
order. If all of them ask to put the same failed entry back, one shows it put back and all others
find it pending (`replays_answered`): until somebody has won, the table is as it was, and afterwards
nothing that the others do changes it (`Contest.turn`).
-/

namespace Outbox.Admin

/-- The response of a handler that is done. -/
def Handler.response? : Handler → Option Response
  | .respond r => some r
  | _ => none

theorem Handler.isSome_response?_of_rank {h : Handler} (hr : h.rank = 0) : h.response?.isSome := by
  cases h with
  | respond r => rfl
  | list | count | get | inspect | replay | reinspect => cases hr

/-- Requests that are answered at the same time from one table. -/
structure Service (n : Nat) where
  table : Table
  handlers : Fin n → Handler

namespace Service

variable {n : Nat} {s : Service n} {i j : Fin n}

/-- The next call of one handler is answered; a handler that is done makes none. -/
def turn (s : Service n) (i : Fin n) : Service n :=
  match (s.handlers i).ask with
  | .call c next =>
    { table := (s.table.answer c).2
      handlers := Function.update s.handlers i (next (s.table.answer c).1) }
  | _ => s

/-- The service after turns of its handlers in the order given. -/
def run (s : Service n) (turns : List (Fin n)) : Service n := turns.foldl turn s

section
variable {c : Call} {next : c.Answer → Handler} (h : (s.handlers i).ask = .call c next)
include h

theorem table_turn : (s.turn i).table = (s.table.answer c).2 := by
  rw [turn, h]

theorem handlers_turn_self : (s.turn i).handlers i = next (s.table.answer c).1 := by
  rw [turn, h]
  exact Function.update_self ..

end

theorem turn_of_respond {r : Response} (h : s.handlers i = .respond r) : s.turn i = s := by
  rw [turn, h]
  rfl

/-- A handler sees nothing of the turns of others. -/
theorem handlers_turn_of_ne (h : j ≠ i) : (s.turn i).handlers j = s.handlers j := by
  unfold turn
  split
  · exact Function.update_of_ne h ..
  · rfl

/-- What holds at first and after each turn holds after a run. -/
theorem run_induction {P : Service n → Prop} (hs : P s) (hturn : ∀ s i, P s → P (s.turn i))
    (turns : List (Fin n)) : P (s.run turns) := by
  induction turns generalizing s with
  | nil => exact hs
  | cons i turns ih => exact ih (hturn s i hs)

/-! ### Progress -/

theorem rank_turn_self (s : Service n) (i : Fin n) :
    ((s.turn i).handlers i).rank ≤ (s.handlers i).rank - 1 := by
  cases ha : (s.handlers i).ask with
  | call c next =>
    rw [handlers_turn_self ha]
    exact Nat.le_sub_one_of_lt (Handler.rank_lt_of_ask_call ha _)
  | send => exact absurd ha Handler.ask_ne_send
  | done r =>
    have hr : (s.handlers i).rank = 0 := by
      cases hh : s.handlers i with
      | respond => rfl
      | list | count | get | inspect | replay | reinspect => rw [hh] at ha; cases ha
    have hsame : (s.turn i).handlers i = s.handlers i := by rw [turn, ha]
    rw [hsame]
    omega

theorem rank_run (s : Service n) (turns : List (Fin n)) (i : Fin n) :
    ((s.run turns).handlers i).rank ≤ (s.handlers i).rank - turns.count i := by
  induction turns generalizing s with
  | nil => exact Nat.le_refl _
  | cons j turns ih =>
    refine Nat.le_trans (ih (s.turn j)) ?_
    by_cases hj : j = i
    · subst hj
      have hself := s.rank_turn_self j
      rw [List.count_cons_self]
      omega
    · exact Nat.le_of_eq (by rw [List.count_cons_of_ne hj, handlers_turn_of_ne (Ne.symm hj)])

/-- A handler with as many turns as it may make calls is done. -/
theorem isSome_response?_run {turns : List (Fin n)}
    (h : (s.handlers i).rank ≤ turns.count i) :
    ((s.run turns).handlers i).response?.isSome := by
  have hrank := s.rank_run turns i
  exact Handler.isSome_response?_of_rank (by omega)

end Service

open Service

/-! ### Requests for one entry -/

/-- The request is let in and asks to put an entry back. -/
structure Request.Replays (r : Request) (verify : String → Bool) (id : Uuid) : Prop where
  method : r.method = "POST"
  place : ∃ segment, Resource.ofPath? r.path = some (.replay segment) ∧ segmentId? segment = some id
  secret : authorize verify r.secret = .ok ()

namespace Request.Replays

variable {r : Request} {verify : String → Bool} {id : Uuid}

theorem handler_eq (h : r.Replays verify id) : r.handler verify = .inspect id := by
  obtain ⟨segment, hplace, hid⟩ := h.place
  have hallows : (Resource.replay segment).allows r.method := by
    rw [h.method]
    rfl
  simp [Request.handler, hplace, hallows, h.secret, Resource.isOpen, Resource.handler, hid]

theorem deliver_eq (h : r.Replays verify id) (s : Response) : r.deliver s = s :=
  if_neg (by rw [h.method]; decide)

end Request.Replays

section
variable {n : Nat} {s : Service n} {i : Fin n} {t : Table} {id : Uuid} {e : Entry}

/-! ### Entries that cannot be put back -/

/-- The response if the entry that a look at the table finds cannot be put back. -/
def refusal : Option Entry → Handler
  | some e => .notReplayable e.status
  | none => .notFound

/-- The table is as it was, and whoever looked at it was refused. -/
structure Refused (t : Table) (id : Uuid) (s : Service n) : Prop where
  table : s.table = t
  handlers : ∀ i, s.handlers i = .inspect id ∨ s.handlers i = refusal (t.row? id)

theorem Refused.turn (hrow : ∀ e, t.row? id = some e → e.status ≠ .failed) (h : Refused t id s)
    (i : Fin n) : Refused t id (s.turn i) := by
  rcases h.handlers i with hi | hi
  · have ha : (s.handlers i).ask = (Handler.inspect id).ask := congrArg _ hi
    refine ⟨(table_turn ha).trans h.table, fun j => ?_⟩
    by_cases hj : j = i
    · subst hj
      refine .inr ?_
      rw [handlers_turn_self ha, h.table]
      cases hr : t.row? id with
      | none => simp only [Table.answer, hr, refusal]
      | some e => simp only [Table.answer, hr, refusal, if_neg (hrow e hr)]
    · rw [handlers_turn_of_ne hj]
      exact h.handlers j
  · have hdone : ∃ r, refusal (t.row? id) = .respond r := by
      cases t.row? id <;> exact ⟨_, rfl⟩
    obtain ⟨r, hr⟩ := hdone
    rwa [turn_of_respond (hi.trans hr)]

theorem Refused.response? (h : Refused t id s) (hdone : (s.handlers i).response?.isSome) :
    (s.handlers i).response? = (refusal (t.row? id)).response? := by
  rcases h.handlers i with hi | hi
  · rw [hi] at hdone
    cases hdone
  · rw [hi]

/-! ### A failed entry -/

/-- A handler whose request has not won, and will not if somebody else has. -/
def IsBehind (id : Uuid) (h : Handler) : Prop :=
  h = .inspect id ∨ h = .replay id ∨ h = .reinspect id ∨ h = .notReplayable .pending

/-- How far requests for a failed entry have come. -/
inductive Contest (t : Table) (id : Uuid) (e : Entry) (s : Service n) : Prop
  | undecided (table : s.table = t)
    (handlers : ∀ i, s.handlers i = .inspect id ∨ s.handlers i = .replay id)
  /-- One request has put the entry back. -/
  | won (i : Fin n) (table : s.table = t.put id e.replayed)
    (winner : s.handlers i = .showEntry e.replayed)
    (others : ∀ j, j ≠ i → IsBehind id (s.handlers j))

/-- As long as nobody has won, the first replay wins. -/
theorem Contest.turn_undecided (hrow : t.row? id = some e) (hf : e.status = .failed)
    (htable : s.table = t) (hs : ∀ i, s.handlers i = .inspect id ∨ s.handlers i = .replay id)
    (i : Fin n) : Contest t id e (s.turn i) := by
  rcases hs i with hi | hi
  · have ha : (s.handlers i).ask = (Handler.inspect id).ask := congrArg _ hi
    refine .undecided ((table_turn ha).trans htable) fun j => ?_
    by_cases hj : j = i
    · subst hj
      refine .inr ?_
      rw [handlers_turn_self ha, htable]
      simp only [Table.answer, hrow, if_pos hf]
    · rw [handlers_turn_of_ne hj]
      exact hs j
  · have ha : (s.handlers i).ask = (Handler.replay id).ask := congrArg _ hi
    have hreplay := Table.replayFailed_eq hrow hf
    refine .won i ?_ ?_ fun j hj => ?_
    · rw [table_turn ha, htable]
      simp only [Table.answer, hreplay]
    · rw [handlers_turn_self ha, htable]
      simp only [Table.answer, hreplay]
    · rw [handlers_turn_of_ne hj]
      exact (hs j).imp_right .inl

/-- Whoever comes behind the winner finds the entry pending and changes nothing. -/
theorem Contest.turn_won (hrow : t.row? id = some e) (htable : s.table = t.put id e.replayed)
    (hwinner : s.handlers i = .showEntry e.replayed)
    (hothers : ∀ j, j ≠ i → IsBehind id (s.handlers j)) (j : Fin n) :
    Contest t id e (s.turn j) := by
  have hrow' : Table.row? s.table id = some e.replayed :=
    htable ▸ Table.row?_put hrow (Table.mem_of_row?_eq_some hrow).2
  have hreplay : s.table.replayFailed id = (none, s.table) := by
    simp [Table.replayFailed, hrow', Entry.replay, Entry.replayed, Entry.release]
  have hstatus : e.replayed.status ≠ .failed := by simp [Entry.replayed, Entry.release]
  by_cases hj : j = i
  · subst hj
    rw [turn_of_respond hwinner]
    exact .won j htable hwinner hothers
  · -- the table stays, so it is enough that the handler stays behind
    have hstay : ∀ {c : Call} {next : c.Answer → Handler}, (s.handlers j).ask = .call c next →
        (s.table.answer c).2 = s.table → IsBehind id (next (s.table.answer c).1) →
        Contest t id e (s.turn j) := by
      intro c next ha hsame hbehind
      refine .won i ((table_turn ha).trans (hsame.trans htable))
        ((handlers_turn_of_ne (Ne.symm hj)).trans hwinner) fun k hk => ?_
      by_cases hkj : k = j
      · subst hkj
        rwa [handlers_turn_self ha]
      · rw [handlers_turn_of_ne hkj]
        exact hothers k hk
    rcases hothers j hj with hh | hh | hh | hh
    · refine hstay (congrArg Handler.ask hh) rfl ?_
      simp only [Table.answer, hrow', if_neg hstatus]
      exact .inr (.inr (.inr rfl))
    · refine hstay (congrArg Handler.ask hh) (by simp only [Table.answer, hreplay]) ?_
      simp only [Table.answer, hreplay]
      exact .inr (.inr (.inl rfl))
    · refine hstay (congrArg Handler.ask hh) rfl ?_
      simp only [Table.answer, hrow']
      exact .inr (.inr (.inr rfl))
    · rw [turn_of_respond hh]
      exact .won i htable hwinner hothers

theorem Contest.turn (hrow : t.row? id = some e) (hf : e.status = .failed)
    (h : Contest t id e s) (i : Fin n) : Contest t id e (s.turn i) := by
  cases h with
  | undecided table handlers => exact turn_undecided hrow hf table handlers i
  | won j table winner others => exact turn_won hrow table winner others i

/-- Once all requests are answered, one has won and the others found the entry pending. -/
theorem Contest.decided (hn : 0 < n) (h : Contest t id e s)
    (hdone : ∀ i, (s.handlers i).response?.isSome) :
    s.table = t.put id e.replayed ∧ ∃ i, s.handlers i = .showEntry e.replayed ∧
      ∀ j, j ≠ i → s.handlers j = .notReplayable .pending := by
  cases h with
  | undecided table handlers =>
    have h0 := hdone ⟨0, hn⟩
    rcases handlers ⟨0, hn⟩ with hh | hh <;> rw [hh] at h0 <;> cases h0
  | won i table winner others =>
    refine ⟨table, i, winner, fun j hj => ?_⟩
    have h := hdone j
    rcases others j hj with hh | hh | hh | hh
    · rw [hh] at h
      cases h
    · rw [hh] at h
      cases h
    · rw [hh] at h
      cases h
    · exact hh

end

/-- Requests to put one entry back, each of which makes its calls in turns that mix with those of
all others. Three turns are enough for each; and when all are answered, a failed entry was put back
by one of them, while all others found it pending, and any other table is as it was. -/
theorem replays_answered {n : Nat} (hn : 0 < n) {t : Table} (ht : t.Distinct) {id : Uuid}
    {verify : String → Bool} {rs : Fin n → Request} (hrs : ∀ i, (rs i).Replays verify id)
    (turns : List (Fin n)) :
    let s := Service.run ⟨t, fun i => (rs i).handler verify⟩ turns
    let answer := fun i => (s.handlers i).response?.map (rs i).deliver
    (∀ i, 3 ≤ turns.count i → (answer i).isSome) ∧
    ((∀ i, (answer i).isSome) →
      (∀ e ∈ t, e.id = id → e.status = .failed →
        s.table = t.map (fun x => if x.id = id then e.replayed else x) ∧
        ∃ i, answer i = some ⟨200, (EntryView.ofEntry e.replayed).toJson.render⟩ ∧
          ∀ j, j ≠ i →
            answer j = some ⟨409, "entry is Pending; only failed entries can be replayed"⟩) ∧
      (∀ e ∈ t, e.id = id → e.status ≠ .failed → s.table = t ∧ ∀ i, answer i =
        some ⟨409, s!"entry is {e.status.title}; only failed entries can be replayed"⟩) ∧
      ((∀ e ∈ t, e.id ≠ id) → s.table = t ∧ ∀ i, answer i = some ⟨404, "resource not found"⟩)) := by
  intro s answer
  have hstart : ∀ i, (rs i).handler verify = .inspect id := fun i => (hrs i).handler_eq
  have hanswer : ∀ i, answer i = (s.handlers i).response? := fun i => by
    simp only [answer, funext (hrs i).deliver_eq, Option.map_id']
  simp only [hanswer]
  refine ⟨fun i hi => isSome_response?_run ?_, fun hdone => ?_⟩
  · simp only [hstart]
    exact hi
  · have hrefused : (∀ e, t.row? id = some e → e.status ≠ .failed) → Refused t id s := fun hrow =>
      run_induction ⟨rfl, fun i => .inl (hstart i)⟩ (fun _ i h => h.turn hrow i) turns
    refine ⟨fun e he hid hf => ?_, fun e he hid hf => ?_, fun hnone => ?_⟩
    · have hrow := ht.row?_eq_some.2 ⟨he, hid⟩
      have hcontest : Contest t id e s :=
        run_induction (.undecided rfl fun i => .inl (hstart i)) (fun _ i h => h.turn hrow hf i)
          turns
      obtain ⟨htable, i, hwinner, hothers⟩ := hcontest.decided hn hdone
      refine ⟨htable.trans (Table.put_eq_map ht id _), i, ?_, fun j hj => ?_⟩
      · rw [hwinner]
        rfl
      · rw [hothers j hj]
        rfl
    · have hrow := ht.row?_eq_some.2 ⟨he, hid⟩
      have h := hrefused fun e' he' => by
        rw [hrow] at he'
        cases he'
        exact hf
      refine ⟨h.table, fun i => ?_⟩
      rw [h.response? (hdone i), hrow]
      rfl
    · have hrow : t.row? id = none := List.find?_eq_none.2 fun e he => by simpa using hnone e he
      have h := hrefused fun e he => by
        rw [hrow] at he
        cases he
      refine ⟨h.table, fun i => ?_⟩
      rw [h.response? (hdone i), hrow]
      rfl

/-- Somebody with the right secret asks to put the entry with the nil id back. -/
def putBack : Request :=
  { method := "POST", target := "/admin/entries/" ++ Uuid.nil.text ++ "/replay",
    secret := some "secret" }

theorem putBack_replays : putBack.Replays (· = "secret") .nil :=
  ⟨rfl, ⟨Uuid.nil.chars, by decide +kernel, by decide +kernel⟩, by decide⟩

/-- Of three requests two look at the failed entry before the third, and the one that is slower to
put it back has to look again. -/
theorem race_answered :
    let e : Entry := { Entry.sample with id := .nil, status := .failed, retryCount := 3 }
    let turns : List (Fin 3) := [0, 1, 1, 2, 0, 0, 1, 2, 2]
    let s := Service.run ⟨[e], fun _ => putBack.handler (· = "secret")⟩ turns
    let answer := fun i => (s.handlers i).response?.map putBack.deliver
    Table.Distinct [e] ∧ putBack.Replays (· = "secret") .nil ∧ (∀ i, (answer i).isSome) ∧
      s.table = [e.replayed] ∧
      ∃ i, answer i = some ⟨200, (EntryView.ofEntry e.replayed).toJson.render⟩ ∧
        ∀ j, j ≠ i →
          answer j = some ⟨409, "entry is Pending; only failed entries can be replayed"⟩ := by
  intro e turns s answer
  have hdistinct : Table.Distinct [e] := List.nodup_singleton _
  obtain ⟨hturns, hdone⟩ :=
    replays_answered (n := 3) (by decide) hdistinct (fun _ => putBack_replays) turns
  have hthree : ∀ i : Fin 3, 3 ≤ [0, 1, 1, 2, 0, 0, 1, 2, 2].count i := by decide
  have hall : ∀ i, (answer i).isSome := fun i => hturns i (hthree i)
  exact ⟨hdistinct, putBack_replays, hall, (hdone hall).1 e List.mem_cons_self rfl rfl⟩

end Outbox.Admin
