import Outbox.Config.Cell
import Mathlib.Data.List.Nodup
import Mathlib.Data.List.Perm.Subperm
import Mathlib.Data.List.Sort
import Mathlib.Tactic.Common

/-!
# Updates that overlap

An update replaces the value and counts in one step and announces its version in another, and other
updates may come in between; where none does, it is the update of the cell (`cell_after_apart`).
`turns` reads the order of either step off a schedule. Each update has a version of its own, which
is its place in the order of counting, and announces just that (`Agrees`). So the versions announced
are in order exactly if the updates announce in the order in which they counted, and the last one
announced is the last one counted only if the update that counted last also announced last.
-/

namespace Outbox.Config

variable {α : Type}

/-- How far an update has come. -/
inductive Stage (α : Type)
  | waiting (value : α)
  /-- It has replaced the value and counted, and has its version still to announce. -/
  | counted (version : Nat)
  | finished

/-- A cell with updates under way. -/
structure Updating (α : Type) where
  cell : Cell α
  stages : List (Stage α)
  /-- The versions announced so far, the last one first. -/
  told : List Nat

namespace Updating

/-- The updates that have taken a step, the first one being step 0, the last of them first. -/
def turns (n k : Nat) : List Nat → List Nat
  | [] => []
  | i :: past => if i < n ∧ past.count i = k then i :: turns n k past else turns n k past

/-- The version of an update: its place in the order of counting. -/
def place (n : Nat) (past : List Nat) (i : Nat) : Nat := (turns n 0 past).reverse.idxOf i + 1

section
variable {n k i j : Nat} {past : List Nat}

theorem mem_turns : i ∈ turns n k past ↔ i < n ∧ k < past.count i := by
  induction past with
  | nil => simp [turns]
  | cons j past ih =>
    rw [turns, List.count_cons]
    by_cases hj : j = i
    · subst hj
      rw [if_pos (beq_self_eq_true j)]
      split
      next h => simp [h]
      next h =>
        rw [ih]
        omega
    · split <;> simp [ih, hj, Ne.symm hj]

theorem nodup_turns : (turns n k past).Nodup := by
  induction past with
  | nil => exact List.nodup_nil
  | cons i past ih =>
    rw [turns]
    split
    next h =>
      refine List.nodup_cons.2 ⟨fun hi => ?_, ih⟩
      have := (mem_turns.1 hi).2
      omega
    next => exact ih

theorem place_cons (hi : i ∈ turns n 0 past) (j : Nat) :
    place n (j :: past) i = place n past i := by
  unfold place
  rw [turns]
  split
  · rw [List.reverse_cons, List.idxOf_append_of_mem (List.mem_reverse.2 hi)]
  · rfl

theorem place_of_counts (hi : i < n) (hpast : past.count i = 0) :
    place n (i :: past) i = (turns n 0 past).length + 1 := by
  have hmem : i ∉ (turns n 0 past).reverse := by
    rw [List.mem_reverse, mem_turns]
    omega
  rw [place, turns, if_pos ⟨hi, hpast⟩, List.reverse_cons, List.idxOf_append_of_notMem hmem,
    List.idxOf_cons_self, List.length_reverse]

theorem place_le (hi : i ∈ turns n 0 past) : place n past i ≤ (turns n 0 past).length := by
  have := List.idxOf_lt_length_of_mem (List.mem_reverse.2 hi)
  rw [List.length_reverse] at this
  exact this

theorem place_injOn (hi : i ∈ turns n 0 past) (h : place n past i = place n past j) : i = j :=
  List.idxOf_inj (List.mem_reverse.2 hi) |>.1 (Nat.succ.inj h)

/-- Who counted later has the greater version. -/
theorem pairwise_place (n : Nat) (past : List Nat) :
    (turns n 0 past).Pairwise fun i j => place n past j < place n past i := by
  induction past with
  | nil => exact List.Pairwise.nil
  | cons j past ih =>
    have hrest : (turns n 0 past).Pairwise fun i k =>
        place n (j :: past) k < place n (j :: past) i :=
      ih.imp_of_mem fun hi hk h => by rwa [place_cons hi, place_cons hk]
    by_cases hj : j < n ∧ past.count j = 0
    · have hturns : turns n 0 (j :: past) = j :: turns n 0 past := if_pos hj
      rw [hturns]
      refine List.pairwise_cons.2 ⟨fun i hi => ?_, hrest⟩
      rw [place_cons hi, place_of_counts hj.1 hj.2]
      exact Nat.lt_succ_of_le (place_le hi)
    · have hturns : turns n 0 (j :: past) = turns n 0 past := if_neg hj
      rw [hturns]
      exact hrest

theorem map_place_cons (n : Nat) (past : List Nat) (j : Nat) {is : List Nat}
    (his : is ⊆ turns n 0 past) : is.map (place n (j :: past)) = is.map (place n past) :=
  List.map_congr_left fun _ hi => place_cons (his hi) j

/-- The versions of those who have counted are all the numbers up to how many they are. -/
theorem map_place_turns (n : Nat) (past : List Nat) : (turns n 0 past).map (place n past) =
    (List.range' 1 (turns n 0 past).length).reverse := by
  induction past with
  | nil => rfl
  | cons j past ih =>
    by_cases hj : j < n ∧ past.count j = 0
    · have hturns : turns n 0 (j :: past) = j :: turns n 0 past := if_pos hj
      rw [hturns, List.map_cons, place_of_counts hj.1 hj.2,
        map_place_cons _ _ _ (List.Subset.refl _), ih, List.length_cons, List.range'_1_concat,
        List.reverse_append, Nat.add_comm]
      rfl
    · have hturns : turns n 0 (j :: past) = turns n 0 past := if_neg hj
      rw [hturns, map_place_cons _ _ _ (List.Subset.refl _), ih]

/-- Who counted last has the greatest version. -/
theorem place_of_head? (hi : (turns n 0 past).head? = some i) :
    place n past i = (turns n 0 past).length := by
  have hmap := map_place_turns n past
  obtain ⟨rest, hturns⟩ := List.head?_eq_some_iff.1 hi
  rw [hturns, List.map_cons, List.length_cons, List.range'_1_concat, List.reverse_append] at hmap
  rw [hturns, List.length_cons, (List.cons.inj hmap).1, Nat.add_comm]

theorem turns_one_subset (n : Nat) (past : List Nat) : turns n 1 past ⊆ turns n 0 past := by
  intro i hi
  obtain ⟨hn, hcount⟩ := mem_turns.1 hi
  exact mem_turns.2 ⟨hn, Nat.lt_of_succ_lt hcount⟩

/-- Of those who counted, some are in the order of counting just if their versions are. -/
theorem sublist_turns_iff {is : List Nat} (hnodup : is.Nodup) (his : is ⊆ turns n 0 past) :
    is.Sublist (turns n 0 past) ↔ (is.map (place n past)).Pairwise (· ≥ ·) := by
  rw [List.pairwise_map]
  constructor
  · intro h
    exact ((pairwise_place n past).sublist h).imp Nat.le_of_lt
  · intro h
    have hstrict : is.Pairwise fun i j => place n past j < place n past i :=
      (h.and hnodup).imp_of_mem fun hi _ ⟨hle, hne⟩ =>
        Nat.lt_of_le_of_ne hle fun heq => hne (place_injOn (his hi) heq.symm)
    have : Std.Antisymm fun i j => place n past j < place n past i :=
      ⟨fun _ _ hij hji => absurd hij (Nat.lt_asymm hji)⟩
    exact List.sublist_of_subperm_of_pairwise (List.subperm_of_subset hnodup his) hstrict
      (pairwise_place n past)

end

/-! ### Updates step by step -/

variable {a : α} {values : List α} {past : List Nat} {s : Updating α}

/-- A new cell with updates that have not begun. -/
def start (a : α) (values : List α) : Updating α := ⟨.new a, values.map .waiting, []⟩

/-- The next step of one of the updates. -/
def step (s : Updating α) (i : Nat) : Updating α :=
  match s.stages[i]? with
  | some (.waiting a) =>
    let c := s.cell.replace a
    { s with cell := c, stages := s.stages.set i (.counted c.version) }
  | some (.counted v) => ⟨s.cell.announce v, s.stages.set i .finished, v :: s.told⟩
  | _ => s

/-- An update that is not interrupted. -/
theorem cell_step_step {i : Nat} {x : α} (hi : s.stages[i]? = some (.waiting x)) :
    ((s.step i).step i).cell = s.cell.update x := by
  have hcounted : (s.step i).stages[i]? = some (.counted (s.cell.version + 1)) := by
    rw [step, hi]
    exact List.getElem?_set_self (List.getElem?_eq_some_iff.1 hi).1
  rw [step, hcounted, step, hi]
  rfl

/-- What steps of the updates lead to, the last step first. -/
def after (s : Updating α) : List Nat → Updating α
  | [] => s
  | i :: past => (s.after past).step i

/-- How far an update has come by some steps. -/
def stageAfter (values : List α) (past : List Nat) (i : Nat) : Option (Stage α) :=
  values[i]?.map fun a =>
    match past.count i with
    | 0 => .waiting a
    | 1 => .counted (place values.length past i)
    | _ => .finished

/-- The cell and the updates are what the steps so far make them. -/
structure Agrees (a : α) (values : List α) (past : List Nat) (s : Updating α) : Prop where
  stages : ∀ i, s.stages[i]? = stageAfter values past i
  value : s.cell.value = ((turns values.length 0 past).head?.bind (values[·]?)).getD a
  version : s.cell.version = (turns values.length 0 past).length
  told : s.told = (turns values.length 1 past).map (place values.length past)
  announced : s.cell.announced = s.told.headD 0
  announcements : s.cell.announcements = s.told.length

theorem agrees_start (a : α) (values : List α) : Agrees a values [] (start a values) where
  stages i := by
    rw [start, stageAfter, List.getElem?_map]
    rfl
  value := rfl
  version := rfl
  told := rfl
  announced := rfl
  announcements := rfl

theorem stageAfter_cons_of_ne {i j : Nat} (h : i ≠ j) :
    stageAfter values (i :: past) j = stageAfter values past j := by
  unfold stageAfter
  rw [List.count_cons_of_ne h]
  refine Option.map_congr fun a ha => ?_
  have hj := (List.getElem?_eq_some_iff.1 ha).1
  split
  · rfl
  next hcount => rw [place_cons (mem_turns.2 ⟨hj, by omega⟩)]
  · rfl

theorem stageAfter_of_idle {i : Nat} (hi : values.length ≤ i ∨ 2 ≤ past.count i) :
    stageAfter values past i = values[i]?.map fun _ => .finished := by
  rcases hi with hi | hi
  · rw [stageAfter, List.getElem?_eq_none hi]
    rfl
  · obtain ⟨k, hk⟩ := Nat.exists_eq_add_of_le' hi
    simp only [stageAfter, hk]

namespace Agrees

theorem stages_set (h : Agrees a values past s) {i : Nat} {x : Stage α}
    (hi : i < s.stages.length) (hx : stageAfter values (i :: past) i = some x) (j : Nat) :
    (s.stages.set i x)[j]? = stageAfter values (i :: past) j := by
  by_cases hj : i = j
  · rw [← hj, List.getElem?_set_self hi, hx]
  · rw [List.getElem?_set_ne hj, stageAfter_cons_of_ne hj, h.stages]

/-- An update that has not begun counts. -/
theorem counts (h : Agrees a values past s) {i : Nat} {x : α} (hi : values[i]? = some x)
    (hcount : past.count i = 0) : Agrees a values (i :: past) (s.step i) := by
  have hn := (List.getElem?_eq_some_iff.1 hi).1
  have hstage : s.stages[i]? = some (.waiting x) := by
    rw [h.stages, stageAfter, hi, hcount]
    rfl
  have hplace := place_of_counts hn hcount
  have hturns : turns values.length 0 (i :: past) = i :: turns values.length 0 past :=
    if_pos ⟨hn, hcount⟩
  have hturns' : turns values.length 1 (i :: past) = turns values.length 1 past :=
    if_neg (by omega)
  rw [step, hstage]
  refine ⟨fun j => ?_, ?_, ?_, ?_, h.announced, h.announcements⟩
  · refine h.stages_set (List.getElem?_eq_some_iff.1 hstage).1 ?_ j
    rw [stageAfter, hi, List.count_cons_self, hcount]
    simp only [Option.map_some, hplace, Cell.replace, h.version]
  · rw [hturns, List.head?_cons, Option.bind_some, hi]
    rfl
  · rw [hturns]
    exact congrArg (· + 1) h.version
  · rw [hturns', map_place_cons _ _ _ (turns_one_subset _ _)]
    exact h.told

/-- An update that has counted announces its version. -/
theorem announces (h : Agrees a values past s) {i : Nat} {x : α} (hi : values[i]? = some x)
    (hcount : past.count i = 1) : Agrees a values (i :: past) (s.step i) := by
  have hn := (List.getElem?_eq_some_iff.1 hi).1
  have hstage : s.stages[i]? = some (.counted (place values.length past i)) := by
    rw [h.stages, stageAfter, hi, hcount]
    rfl
  have hmem : i ∈ turns values.length 0 past := mem_turns.2 ⟨hn, by omega⟩
  have hturns : turns values.length 0 (i :: past) = turns values.length 0 past :=
    if_neg (by omega)
  have hturns' : turns values.length 1 (i :: past) = i :: turns values.length 1 past :=
    if_pos ⟨hn, hcount⟩
  rw [step, hstage]
  refine ⟨fun j => ?_, ?_, ?_, ?_, rfl, congrArg (· + 1) h.announcements⟩
  · refine h.stages_set (List.getElem?_eq_some_iff.1 hstage).1 ?_ j
    rw [stageAfter, hi, List.count_cons_self, hcount]
    rfl
  · rw [hturns]
    exact h.value
  · rw [hturns]
    exact h.version
  · rw [hturns', List.map_cons, place_cons hmem, map_place_cons _ _ _ (turns_one_subset _ _)]
    exact congrArg _ h.told

/-- Nothing is left to do for an update that has announced its version, or that there is not. -/
theorem idles (h : Agrees a values past s) {i : Nat} (hi : values.length ≤ i ∨ 2 ≤ past.count i) :
    Agrees a values (i :: past) (s.step i) := by
  have hturns (k : Nat) (hk : k < 2) :
      turns values.length k (i :: past) = turns values.length k past := if_neg (by omega)
  have hstage : stageAfter values (i :: past) i = stageAfter values past i := by
    rw [stageAfter_of_idle hi, stageAfter_of_idle (hi.imp_right fun hcount => ?_)]
    rw [List.count_cons_self]
    exact Nat.le_succ_of_le hcount
  have hstep : s.step i = s := by
    rw [step, h.stages, stageAfter_of_idle hi]
    cases values[i]? <;> rfl
  rw [hstep]
  refine ⟨fun j => ?_, ?_, ?_, ?_, h.announced, h.announcements⟩
  · by_cases hj : i = j
    · rw [← hj, hstage, h.stages]
    · rw [stageAfter_cons_of_ne hj, h.stages]
  · rw [hturns 0 (by decide)]
    exact h.value
  · rw [hturns 0 (by decide)]
    exact h.version
  · rw [hturns 1 (by decide), map_place_cons _ _ _ (turns_one_subset _ _)]
    exact h.told

/-- What one step preserves. -/
theorem step (h : Agrees a values past s) (i : Nat) : Agrees a values (i :: past) (s.step i) := by
  cases hi : values[i]? with
  | none => exact h.idles (.inl (List.getElem?_eq_none_iff.1 hi))
  | some a =>
    rcases hcount : past.count i with _ | _ | k
    · exact h.counts hi hcount
    · exact h.announces hi hcount
    · exact h.idles (.inr (by omega))

end Agrees

theorem agrees_after (a : α) (values : List α) (past : List Nat) :
    Agrees a values past ((start a values).after past) := by
  induction past with
  | nil => exact agrees_start a values
  | cons i past ih => exact ih.step i

/-- Updates that do not overlap are those of the cell, one after the other. -/
theorem cell_after_apart (a : α) (values : List α) {is : List Nat} (hn : is.Nodup)
    (his : ∀ i ∈ is, i < values.length) :
    ((start a values).after (is.flatMap fun i => [i, i])).cell =
      (is.filterMap (values[·]?)).foldr (fun x c => c.update x) (.new a) := by
  induction is with
  | nil => rfl
  | cons i is ih =>
    obtain ⟨hi, hn⟩ := List.nodup_cons.1 hn
    obtain ⟨hlt, his⟩ := List.forall_mem_cons.1 his
    let past := is.flatMap fun i => [i, i]
    have hvalue : values[i]? = some values[i] := List.getElem?_eq_getElem hlt
    have hcount : past.count i = 0 := List.count_eq_zero.2 fun hmem => by
      obtain ⟨j, hj, hij⟩ := List.mem_flatMap.1 hmem
      obtain rfl : i = j := by simpa using hij
      exact hi hj
    have hstage : ((start a values).after past).stages[i]? = some (.waiting values[i]) := by
      rw [(agrees_after a values past).stages, stageAfter, hvalue, hcount]
      rfl
    rw [List.filterMap_cons, hvalue, List.foldr_cons, ← ih hn his]
    exact cell_step_step hstage

/-! ### What is announced -/

/-- All updates have counted and announced their versions. -/
def AllDone (values : List α) (past : List Nat) : Prop := ∀ i < values.length, 2 ≤ past.count i

theorem turns_perm_of_allDone (h : AllDone values past) {k : Nat} (hk : k < 2) :
    (turns values.length k past).Perm (List.range values.length) := by
  rw [List.perm_ext_iff_of_nodup nodup_turns List.nodup_range]
  intro i
  rw [mem_turns, List.mem_range]
  exact ⟨And.left, fun hi => ⟨hi, Nat.lt_of_lt_of_le hk (h i hi)⟩⟩

namespace Agrees

/-- Each version is announced once. -/
theorem told_perm (h : Agrees a values past s) (hdone : AllDone values past) :
    s.told.Perm (List.range' 1 values.length) := by
  have hcounted := turns_perm_of_allDone hdone (k := 0) (by decide)
  have hannounced := turns_perm_of_allDone hdone (k := 1) (by decide)
  have hlength : (turns values.length 0 past).length = values.length := by
    rw [hcounted.length_eq, List.length_range]
  rw [h.told]
  refine ((hannounced.trans hcounted.symm).map _).trans ?_
  rw [map_place_turns, hlength]
  exact List.reverse_perm _

theorem announced_eq_version_iff (h : Agrees a values past s) (hdone : AllDone values past) :
    s.cell.announced = s.cell.version ↔
      (turns values.length 1 past).head? = (turns values.length 0 past).head? := by
  have hcounted := turns_perm_of_allDone hdone (k := 0) (by decide)
  have hperm := (turns_perm_of_allDone hdone (k := 1) (by decide)).trans hcounted.symm
  rw [h.announced, h.version, h.told]
  cases hannounced : turns values.length 1 past with
  | nil =>
    rw [hannounced] at hperm
    rw [hperm.nil_eq.symm]
    simp
  | cons i rest =>
    have hi : i ∈ turns values.length 0 past :=
      turns_one_subset _ _ (hannounced ▸ List.mem_cons_self)
    obtain ⟨j, hj⟩ := Option.isSome_iff_exists.1 (List.isSome_head?.2 (List.ne_nil_of_mem hi))
    rw [← place_of_head? hj, hj, List.map_cons, List.headD_cons, List.head?_cons, Option.some_inj]
    exact ⟨place_injOn hi, fun hij => hij ▸ rfl⟩

end Agrees

/-- Updates that overlap count one version each and announce just that, so what a watcher is told is
never ahead of the version, and the value is that of the update that counted last. But the versions
announced are in order just if the updates announce in the order in which they count; and when all
have finished, a watcher that has not seen all of them is told the version of the cell just if the
update that counted last announced last. -/
theorem overlapping_updates (a : α) (values : List α) (past : List Nat) :
    let s := (start a values).after past
    let counted := turns values.length 0 past
    let announced := turns values.length 1 past
    s.cell.version = counted.length ∧
      s.cell.value = (counted.head?.bind (values[·]?)).getD a ∧
      s.told.Nodup ∧ (∀ v ∈ s.told, v ≤ s.cell.version) ∧
      (s.told.Pairwise (· ≥ ·) ↔ announced.Sublist counted) ∧
      (AllDone values past → s.cell.version = values.length ∧
        s.told.Perm (List.range' 1 values.length) ∧
        (s.cell.announced = s.cell.version ↔ announced.head? = counted.head?) ∧
        ∀ live w, w.seen < values.length →
          ((s.cell.look live w).1 = .changed s.cell.version ↔
            announced.head? = counted.head?)) := by
  intro s counted announced
  have h : Agrees a values past s := agrees_after a values past
  have hsubset := turns_one_subset values.length past
  refine ⟨h.version, h.value, ?_, ?_, ?_, fun hdone => ⟨?_, h.told_perm hdone,
    h.announced_eq_version_iff hdone, fun live w hw => ?_⟩⟩
  · rw [h.told]
    exact List.Nodup.map_on (fun i hi j _ => place_injOn (hsubset hi)) nodup_turns
  · rw [h.told, h.version]
    intro v hv
    obtain ⟨i, hi, rfl⟩ := List.mem_map.1 hv
    exact place_le (hsubset hi)
  · rw [h.told]
    exact (sublist_turns_iff nodup_turns hsubset).symm
  · rw [h.version, (turns_perm_of_allDone hdone (by decide)).length_eq, List.length_range]
  · have hseen : w.seen ≠ s.cell.announcements := by
      rw [h.announcements, (h.told_perm hdone).length_eq, List.length_range']
      exact Nat.ne_of_lt hw
    rw [← h.announced_eq_version_iff hdone, Cell.look, if_pos hseen]
    exact ⟨Notice.changed.inj, congrArg _⟩

/-- Of two updates the one that counts first announces last. -/
theorem announcements_go_back :
    let past := [0, 1, 1, 0]
    let s := (start 5 [10, 20]).after past
    AllDone [10, 20] past ∧ ¬ s.told.Pairwise (· ≥ ·) ∧ s.cell.announced ≠ s.cell.version := by
  refine ⟨?_, by decide, by decide⟩
  unfold AllDone
  decide

end Updating
end Outbox.Config
