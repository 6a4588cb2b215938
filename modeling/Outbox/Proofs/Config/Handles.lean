import Outbox.Config.Handles
import Mathlib.Tactic.Common

/-!
# What a cell answers

What the handles, watchers and kept values of a cell answer is a matter of the steps before:
`Past.isOpen`, `Past.updates`, `Past.unseen` and `Past.kept` read it off them, the last step first.
The cell itself has a counter, the version it announced last and a mark for each watcher. `Agrees`
says that these stand for what the steps before say, however many handles and watchers there are.
Updates that come before a watcher looks are told as one; so it misses none if it is told of the
last.
-/

namespace Outbox.Config

variable {α : Type}

/-- The steps in which a watcher gets its mark: it subscribes, or it looks. -/
def CellStep.Concerns (name : String) : CellStep α → Prop
  | .subscribe _ other => other = name
  | .changed other => other = name
  | _ => False

/-- The steps that keep a value under a name. -/
def CellStep.Keeps (name : String) : CellStep α → Prop
  | .snapshot _ other => other = name
  | _ => False

namespace Past

section

variable (a : α) (first : String)

/-- Whether a handle is open after some steps, the last one first. -/
def isOpen : List (CellStep α) → String → Bool
  | [], h => h = first
  | .clone source name :: past, h => isOpen past h || (h = name && isOpen past source)
  | .drop name :: past, h => isOpen past h && h ≠ name
  | _ :: past, h => isOpen past h

/-- The values of the updates so far, the last one first. -/
def updates : List (CellStep α) → List α
  | [] => []
  | .update h x :: past => if isOpen first past h then x :: updates past else updates past
  | _ :: past => updates past

/-- The value of the last update. -/
def latest (past : List (CellStep α)) : α := (updates first past).headD a

/-- How many updates there were since a watcher subscribed or last looked; nothing for a name that
no watcher has. -/
def unseen (name : String) : List (CellStep α) → Option Nat
  | [] => none
  | .update h _ :: past =>
    if isOpen first past h then (unseen name past).map (· + 1) else unseen name past
  | .subscribe h name' :: past =>
    if isOpen first past h ∧ name' = name then some 0 else unseen name past
  | .changed name' :: past =>
    if name' = name then (unseen name past).map fun _ => 0 else unseen name past
  | _ :: past => unseen name past

/-- The value that was the last when a snapshot was taken and kept under a name. -/
def kept (name : String) : List (CellStep α) → Option α
  | [] => none
  | .snapshot h name' :: past =>
    if isOpen first past h ∧ name' = name then some (latest a first past) else kept name past
  | _ :: past => kept name past

end

variable {a : α} {first : String} {name : String} {past : List (CellStep α)}

theorem updates_mono (later past : List (CellStep α)) :
    (updates first past).length ≤ (updates first (later ++ past)).length := by
  induction later with
  | nil => exact Nat.le_refl _
  | cons op later ih =>
    cases op with
    | update h x =>
      rw [List.cons_append, updates]
      split
      · exact Nat.le_trans ih (Nat.le_succ _)
      · exact ih
    | _ => exact ih

/-- Once a watcher has seen `n` updates it always has. -/
theorem unseen_append {n : Nat} (hn : n ≤ (updates first past).length)
    (hpast : ∀ k, unseen first name past = some k → k + n ≤ (updates first past).length)
    (later : List (CellStep α)) {k : Nat} (hk : unseen first name (later ++ past) = some k) :
    k + n ≤ (updates first (later ++ past)).length := by
  have hzero {k : Nat} (later : List (CellStep α)) (hk : k = 0) :
      k + n ≤ (updates first (later ++ past)).length := by
    rw [hk, Nat.zero_add]
    exact Nat.le_trans hn (updates_mono later past)
  induction later generalizing k with
  | nil => exact hpast k hk
  | cons op later ih =>
    cases op with
    | update h x =>
      rw [List.cons_append, unseen] at hk
      rw [List.cons_append, updates]
      split at hk
      next hh =>
        obtain ⟨j, hj, rfl⟩ := Option.map_eq_some_iff.1 hk
        rw [if_pos hh, List.length_cons]
        have := ih hj
        omega
      next hh =>
        rw [if_neg hh]
        exact ih hk
    | subscribe h other =>
      rw [List.cons_append, unseen] at hk
      split at hk
      · exact hzero later (Option.some.inj hk).symm
      · exact ih hk
    | changed other =>
      rw [List.cons_append, unseen] at hk
      split at hk
      · obtain ⟨-, -, rfl⟩ := Option.map_eq_some_iff.1 hk
        exact hzero later rfl
      · exact ih hk
    | version | snapshot | read | clone | drop => exact ih hk

theorem unseen_le {k : Nat} (hk : unseen first name past = some k) :
    k ≤ (updates first past).length := by
  rw [← List.append_nil past] at hk ⊢
  refine unseen_append (n := 0) (Nat.zero_le _) ?_ past hk
  nofun

/-- What a watcher has not seen is not forgotten before it looks. -/
theorem unseen_of_not_concerns {k : Nat} (hk : unseen first name past = some (k + 1))
    {later : List (CellStep α)} (hlater : ∀ op ∈ later, ¬ op.Concerns name) :
    ∃ m, unseen first name (later ++ past) = some (m + 1) := by
  induction later with
  | nil => exact ⟨k, hk⟩
  | cons op later ih =>
    obtain ⟨m, hm⟩ := ih fun op hop => hlater op (List.mem_cons_of_mem _ hop)
    have hop := hlater op List.mem_cons_self
    cases op with
    | update h x =>
      rw [List.cons_append, unseen]
      split
      · exact ⟨m + 1, congrArg (Option.map (· + 1)) hm⟩
      · exact ⟨m, hm⟩
    | subscribe h other => exact ⟨m, (if_neg fun h => hop h.2).trans hm⟩
    | changed other => exact ⟨m, (if_neg hop).trans hm⟩
    | version | snapshot | read | clone | drop => exact ⟨m, hm⟩

theorem kept_of_not_keeps {x : α} (hx : kept a first name past = some x)
    {later : List (CellStep α)} (hlater : ∀ op ∈ later, ¬ op.Keeps name) :
    kept a first name (later ++ past) = some x := by
  induction later with
  | nil => exact hx
  | cons op later ih =>
    have ih := ih fun op hop => hlater op (List.mem_cons_of_mem _ hop)
    have hop := hlater op List.mem_cons_self
    cases op with
    | snapshot h other => exact (if_neg fun h => hop h.2).trans ih
    | _ => exact ih

end Past

namespace Cell

theorem look_snd (c : Cell α) (live : Bool) (w : Watcher) :
    (c.look live w).2 = ⟨c.announcements⟩ := by
  unfold look
  split
  · rfl
  next h =>
    rw [← not_not.1 h]
    split <;> rfl

end Cell

namespace Handles

variable {a : α} {first : String} {s : Handles α} {past : List (CellStep α)} {name : String}

theorem lookup_define {β : Type} (name other : String) (b : β) (l : List (String × β)) :
    (define name b l).lookup other = if name = other then some b else l.lookup other := by
  by_cases h : name = other
  · simp [define, h]
  · rw [define, List.lookup_cons, beq_eq_false_iff_ne.2 (Ne.symm h), if_neg h]
    change (l.filter fun p => p.1 ≠ name).lookup other = l.lookup other
    induction l with
    | nil => rfl
    | cons p l ih =>
      by_cases hp : p.1 = name
      · rw [List.filter_cons_of_neg (by simpa using hp), ih, List.lookup_cons,
          beq_eq_false_iff_ne.2 (hp ▸ Ne.symm h)]
      · rw [List.filter_cons_of_pos (by simpa using hp), List.lookup_cons, List.lookup_cons, ih]

/-- What the steps lead to, the last one first. -/
def after (s : Handles α) : List (CellStep α) → Handles α
  | [] => s
  | op :: past => ((s.after past).step op).2

/-- The answer to one more step. -/
def reply (s : Handles α) (op : CellStep α) : CellReply α := (s.step op).1

theorem after_append (s : Handles α) (later past : List (CellStep α)) :
    s.after (later ++ past) = (s.after past).after later := by
  induction later with
  | nil => rfl
  | cons op later ih => exact congrArg (fun s => (step s op).2) ih

theorem run_append (s : Handles α) (ops ops' : List (CellStep α)) :
    s.run (ops ++ ops') = s.run ops ++ (s.after ops.reverse).run ops' := by
  induction ops generalizing s with
  | nil => rfl
  | cons op ops ih =>
    rw [List.reverse_cons, after_append]
    exact congrArg ((s.step op).1 :: ·) (ih (s.step op).2)

/-! ### The cell and the steps before -/

/-- The parts of a cell say what the steps before say. -/
structure Agrees (a : α) (first : String) (past : List (CellStep α)) (s : Handles α) : Prop where
  handles : ∀ h, h ∈ s.handles ↔ Past.isOpen first past h
  value : s.cell.value = Past.latest a first past
  version : s.cell.version = (Past.updates first past).length
  announced : s.cell.announced = s.cell.version
  announcements : s.cell.announcements = s.cell.version
  /-- The mark of a watcher is short of the updates that it has not seen. -/
  seen : ∀ name, (s.watchers.lookup name).map Watcher.seen =
    (Past.unseen first name past).map ((Past.updates first past).length - ·)
  kept : ∀ name, s.kept.lookup name = Past.kept a first name past

theorem agrees_new (a : α) (first : String) : Agrees a first [] (new a first) where
  handles h := by simp [Handles.new, Past.isOpen]
  value := rfl
  version := rfl
  announced := rfl
  announcements := rfl
  seen _ := rfl
  kept _ := rfl

namespace Agrees

/-- A step that changes nothing agrees with a past that says the same with it. -/
theorem of_past (hs : Agrees a first past s) {past' : List (CellStep α)}
    (hopen : ∀ h, Past.isOpen first past' h = Past.isOpen first past h)
    (hupdates : Past.updates first past' = Past.updates first past)
    (hunseen : ∀ name, Past.unseen first name past' = Past.unseen first name past)
    (hkept : ∀ name, Past.kept a first name past' = Past.kept a first name past) :
    Agrees a first past' s where
  handles h := hopen h ▸ hs.handles h
  value := by rw [Past.latest, hupdates]; exact hs.value
  version := hupdates ▸ hs.version
  announced := hs.announced
  announcements := hs.announcements
  seen name := by rw [hunseen, hupdates]; exact hs.seen name
  kept name := hkept name ▸ hs.kept name

theorem update (hs : Agrees a first past s) (h : String) (x : α) :
    Agrees a first (.update h x :: past) (s.step (.update h x)).2 := by
  by_cases hh : Past.isOpen first past h
  · have hupdates : Past.updates first (.update h x :: past) = x :: Past.updates first past :=
      if_pos hh
    rw [step, if_pos ((hs.handles h).2 hh)]
    refine ⟨hs.handles, ?_, ?_, rfl, congrArg (· + 1) hs.announcements, fun name => ?_, hs.kept⟩
    · rw [Past.latest, hupdates]
      rfl
    · rw [hupdates]
      exact congrArg (· + 1) hs.version
    · -- one more update, and one more that the watcher has not seen
      rw [hupdates, Past.unseen, if_pos hh]
      refine (hs.seen name).trans ?_
      cases Past.unseen first name past <;> simp
  · rw [step, if_neg fun hmem => hh ((hs.handles h).1 hmem)]
    exact hs.of_past (fun _ => rfl) (if_neg hh) (fun _ => if_neg hh) fun _ => rfl

theorem snapshot (hs : Agrees a first past s) (h name : String) :
    Agrees a first (.snapshot h name :: past) (s.step (.snapshot h name)).2 := by
  by_cases hh : Past.isOpen first past h
  · rw [step, if_pos ((hs.handles h).2 hh)]
    refine ⟨hs.handles, hs.value, hs.version, hs.announced, hs.announcements, hs.seen,
      fun other => ?_⟩
    refine (lookup_define name other _ _).trans ?_
    rw [Past.kept, hs.value, hs.kept]
    simp only [hh, true_and]
  · rw [step, if_neg fun hmem => hh ((hs.handles h).1 hmem)]
    exact hs.of_past (fun _ => rfl) rfl (fun _ => rfl) fun _ => if_neg fun hkept => hh hkept.1

theorem subscribe (hs : Agrees a first past s) (h name : String) :
    Agrees a first (.subscribe h name :: past) (s.step (.subscribe h name)).2 := by
  by_cases hh : Past.isOpen first past h
  · rw [step, if_pos ((hs.handles h).2 hh)]
    refine ⟨hs.handles, hs.value, hs.version, hs.announced, hs.announcements, fun other => ?_,
      hs.kept⟩
    refine (congrArg _ (lookup_define name other _ _)).trans ?_
    rw [Past.unseen]
    by_cases hname : name = other
    · rw [if_pos hname, if_pos ⟨hh, hname⟩]
      exact congrArg some (hs.announcements.trans hs.version)
    · rw [if_neg hname, if_neg fun h => hname h.2]
      exact hs.seen other
  · rw [step, if_neg fun hmem => hh ((hs.handles h).1 hmem)]
    exact hs.of_past (fun _ => rfl) rfl (fun _ => if_neg fun hnew => hh hnew.1) fun _ => rfl

theorem changed (hs : Agrees a first past s) (name : String) :
    Agrees a first (.changed name :: past) (s.step (.changed name)).2 := by
  have hseen := hs.seen name
  rw [step]
  cases hw : s.watchers.lookup name with
  | none =>
    rw [hw] at hseen
    have hnone : Past.unseen first name past = none := by
      cases hunseen : Past.unseen first name past with
      | none => rfl
      | some n => rw [hunseen] at hseen; cases hseen
    refine hs.of_past (fun _ => rfl) rfl (fun other => ?_) fun _ => rfl
    rw [Past.unseen]
    split
    next h => rw [← h, hnone]; rfl
    next => rfl
  | some w =>
    rw [hw] at hseen
    obtain ⟨n, hn, -⟩ := Option.map_eq_some_iff.1 hseen.symm
    refine ⟨hs.handles, hs.value, hs.version, hs.announced, hs.announcements, fun other => ?_,
      hs.kept⟩
    refine (congrArg _ (lookup_define name other _ _)).trans ?_
    rw [Past.unseen, Cell.look_snd]
    by_cases hname : name = other
    · rw [if_pos hname, if_pos hname, ← hname, hn]
      exact congrArg some (hs.announcements.trans hs.version)
    · rw [if_neg hname, if_neg hname]
      exact hs.seen other

theorem clone (hs : Agrees a first past s) (h name : String) :
    Agrees a first (.clone h name :: past) (s.step (.clone h name)).2 := by
  have hhandles (other : String) : Past.isOpen first (.clone h name :: past) other =
    (Past.isOpen first past other || (other = name && Past.isOpen first past h)) := rfl
  by_cases hh : Past.isOpen first past h
  · rw [step, if_pos ((hs.handles h).2 hh)]
    refine ⟨fun other => ?_, hs.value, hs.version, hs.announced, hs.announcements, hs.seen,
      hs.kept⟩
    rw [hhandles, hh]
    simp only [List.mem_append, List.mem_filter, List.mem_singleton, hs.handles]
    by_cases hname : other = name <;> simp [hname]
  · rw [step, if_neg fun hmem => hh ((hs.handles h).1 hmem)]
    refine hs.of_past (fun other => ?_) rfl (fun _ => rfl) fun _ => rfl
    rw [hhandles, Bool.eq_false_iff.2 hh, Bool.and_false, Bool.or_false]

theorem drop (hs : Agrees a first past s) (h : String) :
    Agrees a first (.drop h :: past) (s.step (.drop h)).2 := by
  have hhandles (other : String) : Past.isOpen first (.drop h :: past) other =
    (Past.isOpen first past other && other ≠ h) := rfl
  by_cases hh : Past.isOpen first past h
  · rw [step, if_pos ((hs.handles h).2 hh)]
    refine ⟨fun other => ?_, hs.value, hs.version, hs.announced, hs.announcements, hs.seen,
      hs.kept⟩
    simp [hhandles, List.mem_filter, hs.handles]
  · rw [step, if_neg fun hmem => hh ((hs.handles h).1 hmem)]
    refine hs.of_past (fun other => ?_) rfl (fun _ => rfl) fun _ => rfl
    rw [hhandles]
    by_cases hother : other = h <;> simp [hother, hh]

/-- What one step preserves. -/
theorem step (hs : Agrees a first past s) (op : CellStep α) :
    Agrees a first (op :: past) (s.step op).2 := by
  cases op with
  | update h x => exact hs.update h x
  | snapshot h name => exact hs.snapshot h name
  | subscribe h name => exact hs.subscribe h name
  | changed name => exact hs.changed name
  | clone h name => exact hs.clone h name
  | drop h => exact hs.drop h
  | version | read =>
    rw [Handles.step]
    split <;> exact hs.of_past (fun _ => rfl) rfl (fun _ => rfl) fun _ => rfl

end Agrees

/-- After any steps the parts of a cell say what these say. -/
theorem agrees_after (a : α) (first : String) (past : List (CellStep α)) :
    Agrees a first past ((new a first).after past) := by
  induction past with
  | nil => exact agrees_new a first
  | cons op past ih => exact ih.step op

/-! ### What is answered -/

/-- The answers that the steps before call for. -/
structure Answers (a : α) (first : String) (past : List (CellStep α)) (s : Handles α) : Prop where
  version : ∀ h, Past.isOpen first past h →
    s.reply (.version h) = .version (Past.updates first past).length
  update : ∀ h x, Past.isOpen first past h →
    s.reply (.update h x) = .version ((Past.updates first past).length + 1)
  snapshot : ∀ h name, Past.isOpen first past h →
    s.reply (.snapshot h name) = .value (Past.latest a first past)
  read : ∀ name x, s.reply (.read name) = .value x ↔ Past.kept a first name past = some x
  /-- A watcher is told at once if there is an update that it has not seen, and of the version. -/
  changed : ∀ name v, s.reply (.changed name) = .notice (.changed v) ↔
    v = (Past.updates first past).length ∧ ∃ n, Past.unseen first name past = some (n + 1)
  pending : ∀ name, s.reply (.changed name) = .notice .pending ↔
    Past.unseen first name past = some 0 ∧ ∃ h, Past.isOpen first past h
  closed : ∀ name, s.reply (.changed name) = .notice .closed ↔
    Past.unseen first name past = some 0 ∧ ∀ h, ¬ Past.isOpen first past h
  unknown : ∀ name, s.reply (.changed name) = .missing ↔ Past.unseen first name past = none

namespace Agrees

theorem isEmpty_handles (hs : Agrees a first past s) :
    s.handles.isEmpty ↔ ∀ h, ¬ Past.isOpen first past h := by
  simp only [List.isEmpty_iff, List.eq_nil_iff_forall_not_mem, hs.handles]

/-- What a watcher finds, by what it has not seen. -/
theorem reply_changed (hs : Agrees a first past s) (name : String) :
    s.reply (.changed name) = match Past.unseen first name past with
      | none => .missing
      | some 0 => .notice (if s.handles.isEmpty then .closed else .pending)
      | some (_ + 1) => .notice (.changed (Past.updates first past).length) := by
  have hseen := hs.seen name
  have hannouncements := hs.announcements.trans hs.version
  rw [reply, Handles.step]
  cases hw : s.watchers.lookup name with
  | none =>
    rw [hw] at hseen
    cases hunseen : Past.unseen first name past with
    | none => rfl
    | some n => rw [hunseen] at hseen; cases hseen
  | some w =>
    rw [hw] at hseen
    cases hunseen : Past.unseen first name past with
    | none => rw [hunseen] at hseen; cases hseen
    | some n =>
      have hle := Past.unseen_le hunseen
      rw [hunseen] at hseen
      have hseen : w.seen = (Past.updates first past).length - n := Option.some.inj hseen
      cases n with
      | zero =>
        have hlook : s.cell.look (!s.handles.isEmpty) w =
            if !s.handles.isEmpty then (.pending, w) else (.closed, w) :=
          if_neg (not_not.2 (hseen.trans hannouncements.symm))
        simp only [hlook]
        cases s.handles.isEmpty <;> rfl
      | succ n =>
        have hlook : s.cell.look (!s.handles.isEmpty) w =
            (.changed s.cell.announced, ⟨s.cell.announcements⟩) :=
          if_pos (by omega)
        simp only [hlook, hs.announced, hs.version]

theorem answers (hs : Agrees a first past s) : Answers a first past s := by
  have hempty := hs.isEmpty_handles
  constructor
  case version =>
    intro h hh
    rw [reply, Handles.step, if_pos ((hs.handles h).2 hh), hs.version]
  case update =>
    intro h x hh
    rw [reply, Handles.step, if_pos ((hs.handles h).2 hh)]
    exact congrArg (fun n => CellReply.version (n + 1)) hs.version
  case snapshot =>
    intro h name hh
    rw [reply, Handles.step, if_pos ((hs.handles h).2 hh), hs.value]
  case read =>
    intro name x
    rw [reply, Handles.step, hs.kept]
    cases Past.kept a first name past <;> simp
  case changed =>
    intro name v
    rw [hs.reply_changed]
    rcases Past.unseen first name past with _ | _ | n
    · simp
    · cases s.handles.isEmpty <;> simp
    · simp [eq_comm]
  case unknown =>
    intro name
    rw [hs.reply_changed]
    rcases Past.unseen first name past with _ | _ | n <;> simp
  case pending =>
    intro name
    rw [hs.reply_changed, ← not_forall_not, ← hempty]
    rcases Past.unseen first name past with _ | _ | n
    · simp
    · cases s.handles.isEmpty <;> simp
    · simp
  case closed =>
    intro name
    rw [hs.reply_changed, ← hempty]
    rcases Past.unseen first name past with _ | _ | n
    · simp
    · cases s.handles.isEmpty <;> simp
    · simp

end Agrees

theorem answers_after (a : α) (first : String) (past : List (CellStep α)) :
    Answers a first past ((new a first).after past) :=
  (agrees_after a first past).answers

/-- The last answer of a run is the answer after the steps before. -/
theorem run_concat (s : Handles α) (past : List (CellStep α)) (op : CellStep α) :
    s.run (past.reverse ++ [op]) = s.run past.reverse ++ [(s.after past).reply op] := by
  rw [run_append, List.reverse_reverse]
  rfl

theorem isOpen_of_reply_snapshot {h : String} {x : α}
    (hx : ((new a first).after past).reply (.snapshot h name) = .value x) :
    Past.isOpen first past h ∧ x = Past.latest a first past := by
  have hs := agrees_after a first past
  by_cases hh : Past.isOpen first past h
  · rw [hs.answers.snapshot h name hh] at hx
    exact ⟨hh, (CellReply.value.inj hx).symm⟩
  · rw [reply, step, if_neg fun hmem => hh ((hs.handles h).1 hmem)] at hx
    cases hx

/-- A snapshot keeps its value. -/
theorem reply_read_of_snapshot {h : String} {x : α} {later : List (CellStep α)}
    (hx : ((new a first).after past).reply (.snapshot h name) = .value x)
    (hlater : ∀ op ∈ later, ¬ op.Keeps name) :
    ((new a first).after (later ++ .snapshot h name :: past)).reply (.read name) = .value x := by
  obtain ⟨hh, rfl⟩ := isOpen_of_reply_snapshot hx
  have hkept : Past.kept a first name (.snapshot h name :: past) =
      some (Past.latest a first past) := if_pos ⟨hh, rfl⟩
  exact ((answers_after a first _).read name _).2 (Past.kept_of_not_keeps hkept hlater)

/-- No version is told twice, and none after a later one. -/
theorem lt_of_reply_changed {later : List (CellStep α)} {v v' : Nat}
    (hv : ((new a first).after past).reply (.changed name) = .notice (.changed v))
    (hv' : ((new a first).after (later ++ .changed name :: past)).reply (.changed name) =
      .notice (.changed v')) : v < v' := by
  obtain ⟨rfl, n, hn⟩ := ((answers_after a first past).changed name v).1 hv
  obtain ⟨rfl, k, hk⟩ := ((answers_after a first _).changed name v').1 hv'
  have hupdates : Past.updates first (.changed name :: past) = Past.updates first past := rfl
  -- at the look it has seen all updates, so that what it has not seen later is new
  have hlooked : Past.unseen first name (.changed name :: past) = some 0 :=
    (if_pos rfl).trans (congrArg (Option.map fun _ => 0) hn)
  have hle := Past.unseen_append (Nat.le_of_eq (congrArg List.length hupdates.symm))
    (fun j hj => by
      obtain rfl : 0 = j := Option.some.inj (hlooked.symm.trans hj)
      exact Nat.le_of_eq (Nat.zero_add _)) later hk
  omega

/-- An update is told to whoever watched when it came, even if nobody is left to update. -/
theorem reply_changed_of_update {h : String} (hh : Past.isOpen first past h)
    (hname : ((new a first).after past).reply (.changed name) ≠ .missing) (x : α)
    {later : List (CellStep α)} (hlater : ∀ op ∈ later, ¬ op.Concerns name) :
    ((new a first).after (later ++ .update h x :: past)).reply (.changed name) =
      .notice (.changed (Past.updates first (later ++ .update h x :: past)).length) := by
  obtain ⟨n, hn⟩ := Option.ne_none_iff_exists'.1
    (mt ((answers_after a first past).unknown name).2 hname)
  have hunseen : Past.unseen first name (.update h x :: past) = some (n + 1) :=
    (if_pos hh).trans (congrArg (Option.map (· + 1)) hn)
  exact ((answers_after a first _).changed name _).2
    ⟨rfl, Past.unseen_of_not_concerns hunseen hlater⟩

/-- Whatever the steps are, a cell answers the next one from those before: its version is the number
of updates, and a watcher is told of exactly the updates that it has not seen, or that no more can
come. A snapshot keeps its value, the versions that a watcher is told increase, and the last update
reaches it. -/
theorem answered_from_past (a : α) (first : String) :
    (∀ past op, (new a first).run (past.reverse ++ [op]) =
      (new a first).run past.reverse ++ [((new a first).after past).reply op]) ∧
    (∀ past, Answers a first past ((new a first).after past)) ∧
    (∀ past h name x later,
      ((new a first).after past).reply (.snapshot h name) = .value x →
      (∀ op ∈ later, ¬ op.Keeps name) →
      ((new a first).after (later ++ .snapshot h name :: past)).reply (.read name) = .value x) ∧
    (∀ past later name v v',
      ((new a first).after past).reply (.changed name) = .notice (.changed v) →
      ((new a first).after (later ++ .changed name :: past)).reply (.changed name) =
        .notice (.changed v') →
      v < v') ∧
    ∀ past later h x name, Past.isOpen first past h →
      ((new a first).after past).reply (.changed name) ≠ .missing →
      (∀ op ∈ later, ¬ op.Concerns name) →
      ((new a first).after (later ++ .update h x :: past)).reply (.changed name) =
        .notice (.changed (Past.updates first (later ++ .update h x :: past)).length) := by
  refine ⟨run_concat _, answers_after a first, ?_, ?_, ?_⟩
  · intro past h name x later hx hlater
    exact reply_read_of_snapshot hx hlater
  · intro past later name v v' hv hv'
    exact lt_of_reply_changed hv hv'
  · intro past later h x name hh hname hlater
    exact reply_changed_of_update hh hname x hlater

/-- Two updates through two handles that are dropped before the watcher looks: it is told of the
second one, and then that nobody is left. The snapshot is still the value of before. -/
theorem dropped_updates_answered :
    let past : List (CellStep Nat) := [.drop "b", .drop "a", .update "a" 30, .update "b" 20,
      .snapshot "b" "k", .clone "a" "b", .subscribe "a" "w"]
    ((new 10 "a").after past).reply (.changed "w") = .notice (.changed 2) ∧
      ((new 10 "a").after (.changed "w" :: past)).reply (.changed "w") = .notice .closed ∧
      ((new 10 "a").after past).reply (.read "k") = .value 10 := by
  intro past
  obtain ⟨-, hanswers, hkept, -, htold⟩ := answered_from_past 10 "a"
  refine ⟨?_, ?_, ?_⟩
  · refine htold [.snapshot "b" "k", .clone "a" "b", .subscribe "a" "w"]
      [.drop "b", .drop "a", .update "a" 30] "b" 20 "w" rfl nofun ?_
    simp [CellStep.Concerns]
  · refine ((hanswers (.changed "w" :: past)).closed "w").2 ⟨rfl, fun h hh => ?_⟩
    simp only [past, Past.isOpen, Bool.and_eq_true, Bool.or_eq_true, decide_eq_true_eq] at hh
    obtain ⟨⟨rfl | ⟨rfl, -⟩, ha⟩, hb⟩ := hh
    · exact ha rfl
    · exact hb rfl
  · refine hkept [.clone "a" "b", .subscribe "a" "w"] "b" "k" 10
      [.drop "b", .drop "a", .update "a" 30, .update "b" 20] rfl ?_
    simp [CellStep.Keeps]

end Handles
end Outbox.Config
