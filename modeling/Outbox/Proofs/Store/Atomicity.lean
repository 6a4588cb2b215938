import Outbox.Proofs.Store.History

/-!
# Transactions are atomic

`stagedAfter` looks at one transaction alone, and `moves` at the table alone: what enters it is
whole transactions at their commits, and what changes it are calls. `Atomic` says that a store
behaves like that, however the uses of its transactions and the calls are mixed: nobody sees the
entries of a transaction before its commit, and all of them are there after it.
-/

namespace Outbox

/-- A call of a table; one with a fault fails with it and does nothing. -/
def Table.use (t : Table) (c : Call) : Option StoreError → Except Crash c.Answer × Table
  | some e => (.ok (.error e), t)
  | none =>
    match t.perform c with
    | .error e => (.error e, t)
    | .ok (a, t) => (.ok a, t)

/-- The entries that an answer shows. -/
def Call.shown : (c : Call) → c.Answer → List Entry
  | .findPending .., .ok es | .failExhausted .., .ok es | .list _, .ok es => es
  | .tryClaim .., .ok held => [held.entry]
  | .markPublished .., .ok e | .recordFailure .., .ok e | .markFailed .., .ok e => [e]
  | .replayFailed _, .ok e | .get _, .ok e => e.toList
  | _, _ => []

namespace Table
variable {t : Table}

theorem mem_put_of_row? {id : Uuid} {e e' : Entry} (hr : t.row? id = some e) (h : e'.id = e.id) :
    e' ∈ t.put id e' :=
  (mem_of_row?_eq_some (row?_put hr (h.trans (mem_of_row?_eq_some hr).2))).1

theorem mem_record_of_eq_ok {c : Claim} {change : Entry → Except Refusal Entry}
    (hid : ∀ e e', change e = .ok e' → e'.id = e.id) {e : Entry}
    (h : (t.record c change).1 = .ok e) : e ∈ (t.record c change).2 := by
  rcases t.record_cases c change with hx | ⟨x, x', hr, hc, hx⟩ <;> rw [hx] at h ⊢
  · cases h
  · cases h
    exact mem_put_of_row? hr (hid x _ hc)

/-- An answer shows rows as they are after the call. -/
theorem mem_answer_of_mem_shown {c : Call} {e : Entry} (he : e ∈ c.shown (t.answer c).1) :
    e ∈ (t.answer c).2 := by
  -- An outcome that was recorded is answered with the row alone.
  have hrecord : ∀ (claim : Claim) (change : Entry → Except Refusal Entry)
      (shown : Except StoreError Entry → List Entry), (∀ x, shown (.ok x) = [x]) →
      (∀ x, shown (.error x) = []) → (∀ x x', change x = .ok x' → x'.id = x.id) →
      e ∈ shown (t.record claim change).1 → e ∈ (t.record claim change).2 := by
    intro claim change shown hok herr hid he
    cases hx : (t.record claim change).1 with
    | error x => simp [hx, herr] at he
    | ok x =>
      rw [hx, hok, List.mem_singleton] at he
      exact mem_record_of_eq_ok hid (he ▸ hx)
  cases c with
  | count => cases he
  | deletePublished => cases he
  | findPending m n cutoff =>
    have he : e ∈ t.findPending m n cutoff := he
    exact (List.mem_filter.1 (List.mem_mergeSort.1 (List.mem_of_mem_take he))).1
  | list f =>
    have he : e ∈ t.list f := he
    have he := List.mem_of_mem_drop (List.mem_of_mem_take he)
    exact (List.mem_filter.1 (List.mem_mergeSort.1 he)).1
  | get id =>
    have he : e ∈ (t.row? id).toList := he
    exact (mem_of_row?_eq_some (Option.mem_toList.1 he)).1
  | failExhausted m cutoff =>
    obtain ⟨x, hx, rfl⟩ := List.mem_map.1 he
    obtain ⟨hx, hexhausted⟩ := List.mem_filter.1 hx
    exact List.mem_map.2 ⟨x, hx, if_pos hexhausted⟩
  | tryClaim id worker now cutoff =>
    simp only [answer] at he ⊢
    rcases t.tryClaim_cases id worker now cutoff with h | ⟨x, hr, _, _, h⟩ <;> rw [h] at he ⊢
    · cases he
    · obtain rfl := List.mem_singleton.1 he
      exact mem_put_of_row? hr rfl
  | replayFailed id =>
    simp only [answer] at he ⊢
    rcases t.replayFailed_cases id with h | ⟨x, hr, _, h⟩ <;> rw [h] at he ⊢
    · cases he
    · obtain rfl := List.mem_singleton.1 he
      exact mem_put_of_row? hr rfl
  | markPublished c now =>
    refine hrecord c (·.markPublished c now) (Call.markPublished c now).shown (fun _ => rfl)
      (fun _ => rfl) (fun x x' h => ?_) he
    rw [(Entry.markPublished_eq_ok.1 h).2]
    rfl
  | recordFailure c error m =>
    refine hrecord c (·.recordFailure c error m) (Call.recordFailure c error m).shown
      (fun _ => rfl) (fun _ => rfl) (fun x x' h => ?_) he
    rw [(Entry.recordFailure_eq_ok.1 h).2]
    rfl
  | markFailed c error =>
    refine hrecord c (·.markFailed c error) (Call.markFailed c error).shown (fun _ => rfl)
      (fun _ => rfl) (fun x x' h => ?_) he
    rw [(Entry.markFailed_eq_ok.1 h).2]
    rfl

theorem stats_total (t : Table) :
    t.stats.pending + t.stats.published + t.stats.failed = t.length := by
  induction t with
  | nil => rfl
  | cons e t ih =>
    simp only [stats, List.countP_cons, List.length_cons] at ih ⊢
    cases e.status <;> simp <;> omega

end Table

namespace Store

/-- What a use of a store does to one transaction, which is none while it is not open. -/
def Op.stage (tx : String) (staged : Option (List Entry)) : Op → Option (List Entry)
  | .begin tx' => if tx' = tx then some [] else staged
  | .insert tx' e => if tx' = tx then staged.map (· ++ [e]) else staged
  | .append tx' event id now =>
    if tx' = tx then staged.map (· ++ (event.entry id now).toOption.toList) else staged
  | .commit tx' | .rollback tx' => if tx' = tx then none else staged
  | .call .. => staged

/-- The entries staged in a transaction after some uses of a store. -/
def stagedAfter (ops : List Op) (tx : String) : Option (List Entry) :=
  ops.foldl (Op.stage tx) none

/-- What happens to a table where transactions enter it as a whole. -/
inductive Move
  | commit (es : List Entry)
  | call (c : Call) (fault : Option StoreError)

namespace Move

def apply (t : Table) : Move → Table
  | commit es => t ++ es
  | call c fault => (t.use c fault).2

def entries : Move → List Entry
  | commit es => es
  | call .. => []

end Move

/-- What a use of a store means for its table, by what is staged. -/
def Op.move? (staged : String → Option (List Entry)) : Op → Option Move
  | .commit tx => (staged tx).map .commit
  | .call c fault => some (.call c fault)
  | _ => none

/-- What some uses of a store mean for its table, after those before. -/
def movesFrom (before : List Op) : List Op → List Move
  | [] => []
  | op :: ops => (op.move? (stagedAfter before)).toList ++ movesFrom (before ++ [op]) ops

def moves (ops : List Op) : List Move := movesFrom [] ops

/-- The entries of the committed transactions, in the order of the commits. -/
def committedBy (ops : List Op) : List Entry := (moves ops).flatMap Move.entries

theorem stagedAfter_concat (ops : List Op) (op : Op) (tx : String) :
    stagedAfter (ops ++ [op]) tx = op.stage tx (stagedAfter ops tx) := List.foldl_append

theorem movesFrom_append (before ops ops' : List Op) :
    movesFrom before (ops ++ ops') = movesFrom before ops ++ movesFrom (before ++ ops) ops' := by
  induction ops generalizing before with
  | nil => simp [movesFrom]
  | cons op ops ih => simp [movesFrom, ih]

theorem moves_concat (ops : List Op) (op : Op) :
    moves (ops ++ [op]) = moves ops ++ (op.move? (stagedAfter ops)).toList := by
  simp [moves, movesFrom_append, movesFrom]

theorem committedBy_concat (ops : List Op) (op : Op) : committedBy (ops ++ [op]) =
    committedBy ops ++ (op.move? (stagedAfter ops)).toList.flatMap Move.entries := by
  simp [committedBy, moves_concat]

/-! ### The transactions of a store one by one -/

theorem lookup_others (ps : List (String × List Entry)) (tx tx' : String) :
    (ps.filter fun p => p.1 ≠ tx').lookup tx = if tx' = tx then none else ps.lookup tx := by
  induction ps with
  | nil => simp
  | cons p ps ih =>
    rw [List.lookup_cons]
    by_cases hp : p.1 = tx'
    · rw [List.filter_cons_of_neg (by simpa using hp), ih]
      by_cases htx : tx' = tx
      · rw [if_pos htx, if_pos htx]
      · rw [if_neg htx, if_neg htx, hp, beq_eq_false_iff_ne.2 (Ne.symm htx)]
    · rw [List.filter_cons_of_pos (by simpa using hp), List.lookup_cons, ih]
      by_cases htx : tx' = tx
      · rw [if_pos htx, if_pos htx, beq_eq_false_iff_ne.2 fun h => hp (h.symm.trans htx.symm)]
      · rw [if_neg htx, if_neg htx]

theorem staged?_open (s : Store) (t : Table) (tx tx' : String) (es : List Entry) :
    staged? ⟨t, (tx', es) :: s.others tx'⟩ tx = if tx' = tx then some es else s.staged? tx := by
  unfold staged? others
  rw [List.lookup_cons, lookup_others]
  by_cases htx : tx' = tx
  · simp [htx]
  · rw [beq_eq_false_iff_ne.2 (Ne.symm htx), if_neg htx, if_neg htx]

theorem staged?_close (s : Store) (t : Table) (tx tx' : String) :
    staged? ⟨t, s.others tx'⟩ tx = if tx' = tx then none else s.staged? tx :=
  lookup_others s.openTransactions tx tx'

/-- Nothing happens to a transaction that is not open. -/
theorem staged?_of_closed {s : Store} {tx tx' : String} (hs : s.staged? tx' = none)
    {staged : Option (List Entry)} (hclosed : tx' = tx → staged = none) :
    s.staged? tx = if tx' = tx then staged else s.staged? tx := by
  split <;> rename_i htx
  · rw [hclosed htx, ← htx, hs]
  · rfl

theorem staged?_insert? (s : Store) (tx tx' : String) (e : Entry) :
    ((s.insert? tx' e).getD s).staged? tx =
      if tx' = tx then (s.staged? tx).map (· ++ [e]) else s.staged? tx := by
  unfold insert?
  cases hs : s.staged? tx' with
  | none => exact staged?_of_closed hs fun htx => by rw [← htx, hs]; rfl
  | some es =>
    refine (s.staged?_open s.table tx tx' (es ++ [e])).trans ?_
    split <;> rename_i htx
    · rw [← htx, hs]
      rfl
    · rfl

theorem append?_getD (s : Store) (tx : String) (event : Event) (id : Uuid) (now : Instant) :
    ((s.append? tx event id now).map (·.2)).getD s =
      match event.entry id now with
      | .ok e => (s.insert? tx e).getD s
      | .error _ => s := by
  unfold append? insert?
  cases s.staged? tx <;> cases event.entry id now <;> rfl

end Store

namespace History
open Store (Op Move)

theorem staged?_step (h : History) (op : Op) (tx : String) :
    (h.step op).store.staged? tx = op.stage tx (h.store.staged? tx) := by
  cases op with
  | begin tx' => exact h.store.staged?_open h.table tx tx' []
  | insert tx' e => exact h.store.staged?_insert? tx tx' e
  | append tx' event id now =>
    simp only [step, withStore, Store.append?_getD, Op.stage]
    cases event.entry id now with
    | ok e => exact h.store.staged?_insert? tx tx' e
    | error _ =>
      -- An event that is refused stages nothing.
      simp [Except.toOption]
  | commit tx' =>
    simp only [step, withStore, Store.commit?]
    cases hs : h.store.staged? tx' with
    | none => exact Store.staged?_of_closed hs fun _ => rfl
    | some es => exact h.store.staged?_close (h.table ++ es) tx tx'
  | rollback tx' =>
    simp only [step, withStore, Store.rollback?]
    cases hs : h.store.staged? tx' with
    | none => exact Store.staged?_of_closed hs fun _ => rfl
    | some es => exact h.store.staged?_close h.table tx tx'
  | call c fault =>
    simp only [step]
    rcases h.perform_cases c fault with ⟨_, he⟩ | ⟨_, he⟩ | ⟨_, he⟩ <;> rw [he] <;> rfl

theorem staged?_run (ops : List Op) (tx : String) :
    (run ops).store.staged? tx = Store.stagedAfter ops tx := by
  induction ops using List.reverseRecOn with
  | nil => rfl
  | append_singleton ops op ih => rw [run_concat, staged?_step, ih, Store.stagedAfter_concat]

/-! ### The table of a store -/

/-- A call depends on the table alone. -/
theorem perform_eq_use (h : History) (c : Call) (fault : Option StoreError) :
    (h.perform c fault).1 = (h.table.use c fault).1 ∧
      (h.perform c fault).2.table = (h.table.use c fault).2 := by
  unfold perform Table.use
  cases fault with
  | some e => exact ⟨rfl, rfl⟩
  | none => cases h.table.perform c <;> exact ⟨rfl, rfl⟩

theorem table_step (h : History) (op : Op) :
    (h.step op).table = (op.move? h.store.staged?).toList.foldl Move.apply h.table := by
  cases op with
  | begin tx => rfl
  | insert tx e =>
    simp only [step, withStore, Store.insert?]
    cases h.store.staged? tx <;> rfl
  | append tx event id now =>
    simp only [step, withStore, Store.append?_getD, Store.insert?]
    cases event.entry id now <;> cases h.store.staged? tx <;> rfl
  | commit tx =>
    simp only [step, withStore, Store.commit?, Op.move?]
    cases h.store.staged? tx <;> rfl
  | rollback tx =>
    simp only [step, withStore, Store.rollback?]
    cases h.store.staged? tx <;> rfl
  | call c fault => exact (h.perform_eq_use c fault).2

/-- The table is what the moves make of an empty one. -/
theorem table_run (ops : List Op) : (run ops).table = (Store.moves ops).foldl Move.apply [] := by
  induction ops using List.reverseRecOn with
  | nil => rfl
  | append_singleton ops op ih =>
    rw [run_concat, table_step, Store.moves_concat, List.foldl_append, ← ih,
      show (run ops).store.staged? = Store.stagedAfter ops from funext (staged?_run ops)]

theorem committed_run (ops : List Op) : (run ops).committed = Store.committedBy ops := by
  induction ops using List.reverseRecOn with
  | nil => rfl
  | append_singleton ops op ih =>
    rw [run_concat, Store.committedBy_concat, ← ih]
    cases op with
    | commit tx =>
      simp only [step, Op.move?, staged?_run]
      cases Store.stagedAfter ops tx <;> simp [Move.entries]
    | call c fault =>
      simp only [step]
      rcases (run ops).perform_cases c fault with ⟨_, he⟩ | ⟨_, he⟩ | ⟨_, he⟩ <;> rw [he] <;>
        simp [Op.move?, Move.entries, answered]
    | _ => exact (List.append_nil _).symm

/-- What the transactions of a store leave behind, however their uses and the calls are mixed. -/
structure Atomic (ops : List Op) : Prop where
  /-- Calls are answered as if transactions had entered the table as a whole, when they were
  committed, and nothing else had. -/
  answers : ∀ c fault, ((run ops).perform c fault).1 =
    (((Store.moves ops).foldl Move.apply []).use c fault).1
  /-- A commit puts what its transaction staged behind all rows, in order, and leaves these. -/
  commit : ∀ tx, ((run ops).step (.commit tx)).table =
    (run ops).table ++ (Store.stagedAfter ops tx).getD []
  /-- Any other use of a transaction leaves the table. -/
  hidden : ∀ op, (∀ tx, op ≠ .commit tx) → (∀ c fault, op ≠ .call c fault) →
    ((run ops).step op).table = (run ops).table
  /-- What an answer shows was committed. -/
  shown : ∀ c fault a, ((run ops).perform c fault).1 = .ok a → ∀ e ∈ c.shown a,
    ∃ e₀ ∈ Store.committedBy ops, e₀.origin = e.origin
  /-- What was committed and not purged is counted. -/
  counted : ∀ s, ((run ops).perform .count none).1 = .ok (.ok s) →
    s.pending + s.published + s.failed + (run ops).purged.length = (Store.committedBy ops).length
  balance : ((Store.committedBy ops).map (·.id)).Perm
    ((run ops).table.map (·.id) ++ (run ops).purged.map (·.id))
  /-- An entry that was not committed is not in the table, and never was. -/
  absent : ∀ e ∈ Store.inserted ops, e ∉ Store.committedBy ops →
    ∀ row ∈ (run ops).table ++ (run ops).purged, row.id ≠ e.id

theorem exists_committed_of_shown {ops : List Op} (hn : ((Store.inserted ops).map (·.id)).Nodup)
    {c : Call} {fault : Option StoreError} {a : c.Answer}
    (ha : ((run ops).perform c fault).1 = .ok a) {e : Entry} (he : e ∈ c.shown a) :
    ∃ e₀ ∈ Store.committedBy ops, e₀.origin = e.origin := by
  have hrow : e ∈ ((run ops).perform c fault).2.table := by
    rcases (run ops).perform_cases c fault with ⟨x, hx⟩ | ⟨x, hx⟩ | ⟨-, hx⟩
    · rw [hx] at ha
      cases ha
      cases c <;> cases he
    · rw [hx] at ha
      cases ha
    · rw [hx] at ha ⊢
      cases ha
      exact Table.mem_answer_of_mem_shown he
  have hins : Store.inserted (ops ++ [.call c fault]) = Store.inserted ops := by
    simp [Store.inserted, Op.incoming?]
  have l := ledger_run (ops ++ [.call c fault]) (hins ▸ hn)
  rw [run_concat] at l
  obtain ⟨e₀, he₀, ho⟩ := l.exists_committed hrow
  rw [← run_concat, committed_run, Store.committedBy_concat] at he₀
  simp only [Op.move?, Option.toList_some, List.flatMap_cons, Move.entries, List.flatMap_nil,
    List.append_nil] at he₀
  exact ⟨e₀, he₀, ho⟩

theorem committed_ids_perm {ops : List Op} (hn : ((Store.inserted ops).map (·.id)).Nodup) :
    ((Store.committedBy ops).map (·.id)).Perm
      ((run ops).table.map (·.id) ++ (run ops).purged.map (·.id)) := by
  have hb := (ledger_run ops hn).balance.map Entry.Origin.id
  rw [committed_run, List.map_map, List.map_map, List.map_append] at hb
  exact hb.symm

theorem id_ne_of_not_committed {ops : List Op} (hn : ((Store.inserted ops).map (·.id)).Nodup)
    {e : Entry} (he : e ∈ Store.inserted ops) (hnot : e ∉ Store.committedBy ops) {row : Entry}
    (hrow : row ∈ (run ops).table ++ (run ops).purged) : row.id ≠ e.id := by
  intro hid
  have hmem : e.id ∈ (Store.committedBy ops).map (·.id) := by
    rw [(committed_ids_perm hn).mem_iff, ← List.map_append, ← hid]
    exact List.mem_map_of_mem hrow
  obtain ⟨e₀, he₀, hid₀⟩ := List.mem_map.1 hmem
  have hsource : e₀ ∈ Store.inserted ops := by
    have hsub := (ledger_run ops hn).source.subset
    rw [committed_run] at hsub
    exact hsub (List.mem_append_left _ he₀)
  exact hnot (List.inj_on_of_nodup_map hn hsource he hid₀ ▸ he₀)

/-- Whatever is done with a store, its transactions are atomic. -/
theorem atomic_run (ops : List Op) (hn : ((Store.inserted ops).map (·.id)).Nodup) :
    Atomic ops := by
  refine ⟨fun c fault => ?_, fun tx => ?_, fun op hcommit hcall => ?_,
    fun c fault a ha e he => exists_committed_of_shown hn ha he, fun s hs => ?_,
    committed_ids_perm hn, fun e he hnot row hrow => id_ne_of_not_committed hn he hnot hrow⟩
  · rw [((run ops).perform_eq_use c fault).1, table_run]
  · rw [table_step, Op.move?, staged?_run]
    cases Store.stagedAfter ops tx <;> simp [Move.apply]
  · rw [table_step]
    cases op with
    | commit tx => exact absurd rfl (hcommit tx)
    | call c fault => exact absurd rfl (hcall c fault)
    | _ => rfl
  · have hs : (run ops).table.stats = s := Except.ok.inj (Except.ok.inj hs)
    have hlength := (committed_ids_perm hn).length_eq
    simp only [List.length_append, List.length_map] at hlength
    rw [hlength, ← hs, Table.stats_total]

/-- A review without a rating that JSON could write. -/
def unrated : Event := .reviewCreated ⟨.ofNat 7, .ofNat 8, .ofNat 9, "lee", "slow", .nan⟩

/-- Four transactions at once. One is committed late, one early, one is rolled back, and one stays
open; a worker claims an entry in between, and an event is refused. -/
def mixed : List Op :=
  [.begin "a", .begin "b", .insert "a" .sample, .insert "b" { Entry.sample with id := .ofNat 2 },
    .append "a" unrated (.ofNat 6) 0, .commit "b", .call (.tryClaim (.ofNat 2) "w1" 10 0) none,
    .begin "c", .insert "c" { Entry.sample with id := .ofNat 3 },
    .insert "a" { Entry.sample with id := .ofNat 4 }, .rollback "c", .commit "a", .begin "d",
    .insert "d" { Entry.sample with id := .ofNat 5 }]

theorem mixed_atomic :
    ((Store.inserted mixed).map (·.id)).Nodup ∧
    (run mixed).table.map (·.id) = [.ofNat 2, .ofNat 1, .ofNat 4] ∧
    (Store.committedBy mixed).map (·.id) = [.ofNat 2, .ofNat 1, .ofNat 4] ∧
    ((run mixed).step (.commit "d")).table =
      (run mixed).table ++ [{ Entry.sample with id := .ofNat 5 }] ∧
    Atomic mixed := by
  have hn : ((Store.inserted mixed).map (·.id)).Nodup := by decide +kernel
  have hatomic := atomic_run mixed hn
  refine ⟨hn, by decide +kernel, by decide +kernel, ?_, hatomic⟩
  rw [hatomic.commit "d"]
  have hd : Store.stagedAfter mixed "d" = some [{ Entry.sample with id := .ofNat 5 }] := by
    decide +kernel
  rw [hd, Option.getD_some]

end History
end Outbox
