import Outbox.Proofs.Table.Effect
import Outbox.Store.Transaction
import Mathlib.Data.List.Flatten
import Mathlib.Data.List.Induction
import Mathlib.Data.List.Perm.Subperm

/-!
# Histories of a store

A `History` is a store with what happened to it: the entries as they were committed, the rows that
purges removed, and the deeds of its calls. `ledger_run` is the balance that every history keeps: up
to what delivery changes in a row, the table and the purged rows together are exactly the committed
entries, and no entry is committed that was not inserted.
-/

namespace Outbox

/-- What nothing ever changes in an entry. -/
structure Entry.Origin where
  id : Uuid
  draft : Draft
  createdAt : Instant
  deriving DecidableEq

def Entry.origin (e : Entry) : Origin :=
  ⟨e.id, ⟨e.aggregateType, e.aggregateId, e.eventType, e.topic, e.payload⟩, e.createdAt⟩

theorem Turn.origin_eq {d : Deed} {e e' : Entry} (h : Turn d e e') : e'.origin = e.origin := by
  cases h <;> rfl

/-- What holds at the start and is kept by each step holds after every run of a system, where `P`
also knows the entries that came in so far, all of distinct ids. -/
theorem run_induction {σ ω : Type} {step : σ → ω → σ} {incoming? : ω → Option Entry} {start : σ}
    {P : List Entry → σ → Prop} (init : P [] start)
    (next : ∀ es s o, (es.map (·.id)).Nodup → P es s → P (es ++ (incoming? o).toList) (step s o))
    (os : List ω) (hn : ((os.filterMap incoming?).map (·.id)).Nodup) :
    P (os.filterMap incoming?) (os.foldl step start) := by
  induction os using List.reverseRecOn with
  | nil => exact init
  | append_singleton os o ih =>
    have hcat : (os ++ [o]).filterMap incoming? =
        os.filterMap incoming? ++ (incoming? o).toList := by
      cases h : incoming? o <;> simp [h]
    rw [hcat, List.map_append] at hn
    rw [hcat, List.foldl_append]
    exact next _ _ o hn.of_append_left (ih hn.of_append_left)

theorem Event.exists_create_of_entry {event : Event} {id : Uuid} {now : Instant} {e : Entry}
    (h : event.entry id now = .ok e) : ∃ d, Entry.create id d now = .ok e := by
  unfold entry at h
  cases hd : event.draft with
  | error _ => rw [hd] at h; cases h
  | ok d =>
    rw [hd] at h
    change (Entry.create id d now).mapError _ = .ok e at h
    cases hc : Entry.create id d now with
    | error _ => rw [hc] at h; cases h
    | ok _ => rw [hc] at h; cases h; exact ⟨d, hc⟩

namespace Store

/-- The entries staged in all open transactions. -/
def allStaged (s : Store) : List Entry := s.openTransactions.flatMap (·.2)

/-- One use of a store. A call with a fault fails with it and does nothing. -/
inductive Op
  | begin (tx : String)
  | insert (tx : String) (e : Entry)
  | append (tx : String) (event : Event) (id : Uuid) (now : Instant)
  | commit (tx : String)
  | rollback (tx : String)
  | call (c : Call) (fault : Option StoreError)

def Op.incoming? : Op → Option Entry
  | insert _ e => some e
  | append _ event id now => (event.entry id now).toOption
  | _ => none

theorem Op.incoming?_eq_some {op : Op} {e : Entry} (h : op.incoming? = some e) :
    (∃ tx, op = .insert tx e) ∨
      ∃ tx event id now, op = .append tx event id now ∧ event.entry id now = .ok e := by
  cases op with
  | insert tx e' => cases h; exact .inl ⟨tx, rfl⟩
  | append tx event id now =>
    change (event.entry id now).toOption = some e at h
    cases he : event.entry id now with
    | error _ => rw [he] at h; cases h
    | ok e' =>
      rw [he] at h
      cases h
      exact .inr ⟨tx, event, id, now, rfl, he⟩
  | begin | commit | rollback | call => cases h

def inserted (ops : List Op) : List Entry := ops.filterMap Op.incoming?

theorem inserted_append (ops ops' : List Op) :
    inserted (ops ++ ops') = inserted ops ++ inserted ops' := List.filterMap_append

theorem create_of_mem_inserted {ops : List Op}
    (hc : ∀ tx e, .insert tx e ∈ ops → ∃ id d now, Entry.create id d now = .ok e) {e : Entry}
    (he : e ∈ inserted ops) : ∃ id d now, Entry.create id d now = .ok e := by
  obtain ⟨op, hop, he⟩ := List.mem_filterMap.1 he
  rcases Op.incoming?_eq_some he with ⟨tx, rfl⟩ | ⟨tx, event, id, now, rfl, hev⟩
  · exact hc tx e hop
  · obtain ⟨d, hd⟩ := Event.exists_create_of_entry hev
    exact ⟨id, d, now, hd⟩

/-- The transactions of a list other than one stage no more than all of them, even with what that
one stages. -/
theorem lookup_append_others_subperm (ps : List (String × List Entry)) (tx : String) :
    ((ps.lookup tx).getD [] ++ (ps.filter fun p => p.1 ≠ tx).flatMap (·.2)).Subperm
      (ps.flatMap (·.2)) := by
  induction ps with
  | nil => exact List.Subperm.refl _
  | cons p ps ih =>
    rw [List.lookup_cons]
    by_cases hp : p.1 = tx
    · rw [List.filter_cons_of_neg (by simpa using hp), hp, beq_self_eq_true, List.flatMap_cons]
      exact (List.subperm_append_left _).2 (List.filter_sublist.flatMap _).subperm
    · rw [List.filter_cons_of_pos (by simpa using hp), beq_eq_false_iff_ne.2 (Ne.symm hp),
        List.flatMap_cons, List.flatMap_cons]
      exact (List.perm_append_comm_assoc ..).subperm.trans ((List.subperm_append_left _).2 ih)

theorem staged_append_others_subperm (s : Store) (tx : String) :
    ((s.staged? tx).getD [] ++ (s.others tx).flatMap (·.2)).Subperm s.allStaged :=
  lookup_append_others_subperm s.openTransactions tx

theorem flatMap_others_subperm (s : Store) (tx : String) :
    ((s.others tx).flatMap (·.2)).Subperm s.allStaged :=
  (List.sublist_append_right ..).subperm.trans (s.staged_append_others_subperm tx)

end Store

/-- A store and what happened to it so far. -/
structure History where
  store : Store
  /-- The entries as they were committed. -/
  committed : List Entry
  /-- The rows that purges removed. -/
  purged : List Entry
  /-- What calls achieved, the last deed first. -/
  deeds : List Deed

namespace History
open Store (Op)

def empty : History := ⟨.ofTable [], [], [], []⟩

/-- The committed entries as they are now. -/
def table (h : History) : Table := h.store.table

/-- The rows that a call removed by purging. -/
def purgedBy (t t' : Table) : Call → List Entry
  | .deletePublished .. => t.filter fun e => !t'.contains e
  | _ => []

/-- A call that the table answered. -/
def answered (h : History) (c : Call) (a : c.Answer) (t : Table) : History :=
  { store := { h.store with table := t }
    committed := h.committed
    purged := h.purged ++ purgedBy h.table t c
    deeds := c.deeds a ++ h.deeds }

def perform (h : History) (c : Call) : Option StoreError → Except Crash c.Answer × History
  | some e => (.ok (.error e), h)
  | none =>
    match h.table.perform c with
    | .error e => (.error e, h)
    | .ok (a, t) => (.ok a, h.answered c a t)

def withStore (h : History) (s : Option Store) : History := { h with store := s.getD h.store }

def step (h : History) : Op → History
  | .begin tx => h.withStore (h.store.begin tx)
  | .insert tx e => h.withStore (h.store.insert? tx e)
  | .append tx event id now => h.withStore ((h.store.append? tx event id now).map (·.2))
  | .commit tx =>
    { h.withStore (h.store.commit? tx) with
      committed := h.committed ++ (h.store.staged? tx).getD [] }
  | .rollback tx => h.withStore (h.store.rollback? tx)
  | .call c fault => (h.perform c fault).2

/-- The history of some uses of an empty store. -/
def run (ops : List Op) : History := ops.foldl step empty

theorem run_concat (ops : List Op) (op : Op) : run (ops ++ [op]) = (run ops).step op :=
  List.foldl_append

/-- What one more use of the store can lead to. -/
inductive Stepped (h : History) (op : Op) : History → Prop
  /-- Nothing happens. -/
  | same : Stepped h op h
  /-- Transactions change, and at most the entry of the operation is staged. -/
  | staged {ts : List (String × List Entry)}
      (source : (ts.flatMap (·.2)).Subperm (h.store.allStaged ++ op.incoming?.toList)) :
      Stepped h op { h with store := ⟨h.table, ts⟩ }
  /-- A transaction moves its entries to the end of the table. -/
  | committed {es : List Entry} {ts : List (String × List Entry)}
      (source : (es ++ ts.flatMap (·.2)).Subperm h.store.allStaged) :
      Stepped h op { h with store := ⟨h.table ++ es, ts⟩, committed := h.committed ++ es }
  /-- The table answers a call. -/
  | answered {c : Call} (eq : op = .call c none) :
      Stepped h op (h.answered c (h.table.answer c).1 (h.table.answer c).2)

theorem perform_cases (h : History) (c : Call) (fault : Option StoreError) :
    (∃ e, h.perform c fault = (.ok (.error e), h)) ∨ (∃ e, h.perform c fault = (.error e, h)) ∨
      fault = none ∧ h.perform c fault = (.ok (h.table.answer c).1,
        h.answered c (h.table.answer c).1 (h.table.answer c).2) := by
  cases fault with
  | some e => exact .inl ⟨e, rfl⟩
  | none =>
    cases ho : h.table.overflows c with
    | true => exact .inr (.inl ⟨.countOverflow, by simp [perform, Table.perform, ho]⟩)
    | false => exact .inr (.inr ⟨rfl, by simp [perform, Table.perform, ho]⟩)

theorem stepped_insert (h : History) (tx : String) (e : Entry) (op : Op)
    (ho : op.incoming? = some e) : Stepped h op (h.withStore (h.store.insert? tx e)) := by
  have hsub := h.store.staged_append_others_subperm tx
  unfold Store.insert?
  cases hs : h.store.staged? tx with
  | none => exact .same
  | some es =>
    rw [hs, Option.getD_some] at hsub
    refine .staged ?_
    rw [ho, List.flatMap_cons, Option.toList_some, List.append_assoc]
    refine (List.perm_append_comm.append_left _).subperm.trans ?_
    rw [← List.append_assoc]
    exact (List.subperm_append_right _).2 hsub

theorem stepped (h : History) (op : Op) : Stepped h op (h.step op) := by
  cases op with
  | begin tx =>
    exact .staged ((h.store.flatMap_others_subperm tx).trans (List.sublist_append_left ..).subperm)
  | insert tx e => exact h.stepped_insert tx e _ rfl
  | append tx event id now =>
    simp only [step, Store.append?]
    cases hs : h.store.staged? tx with
    | none => exact .same
    | some es =>
      cases he : event.entry id now with
      | error _ => exact .same
      | ok e =>
        have := h.stepped_insert tx e (.append tx event id now)
          (by simp [Op.incoming?, he, Except.toOption])
        simpa [Store.insert?, hs] using this
  | commit tx =>
    have hsub := h.store.staged_append_others_subperm tx
    simp only [step, Store.commit?]
    cases hs : h.store.staged? tx with
    | none => simpa [withStore] using Stepped.same
    | some es =>
      rw [hs, Option.getD_some] at hsub
      exact .committed hsub
  | rollback tx =>
    simp only [step, Store.rollback?]
    cases hs : h.store.staged? tx with
    | none => exact .same
    | some _ =>
      have hsub : h.store.allStaged.Subperm (h.store.allStaged ++ []) :=
        (List.sublist_append_left ..).subperm
      exact .staged ((h.store.flatMap_others_subperm tx).trans hsub)
  | call c fault =>
    simp only [step]
    rcases h.perform_cases c fault with ⟨_, he⟩ | ⟨_, he⟩ | ⟨rfl, he⟩ <;> rw [he]
    exacts [.same, .same, .answered rfl]

/-! ### The ledger -/

/-- The balance of a history in which `es` were inserted. -/
structure Ledger (es : List Entry) (h : History) : Prop where
  /-- Every committed entry is in the table or purged, and nothing else is. -/
  balance : ((h.table ++ h.purged).map Entry.origin).Perm (h.committed.map Entry.origin)
  /-- Entries are committed as they were inserted, and only once. -/
  source : (h.committed ++ h.store.allStaged).Subperm es

theorem map_origin_answer {t : Table} (ht : t.Distinct) {c : Call}
    (hc : ∀ before limit lock, c ≠ .deletePublished before limit lock) :
    (t.answer c).2.map Entry.origin = t.map Entry.origin := by
  obtain ⟨f, hf⟩ := Table.exists_effect ht c
  rw [hf.eq, List.map_filterMap, ← List.filterMap_eq_map]
  refine List.filterMap_congr fun e he => ?_
  generalize hfe : f e = r
  cases hfe ▸ hf.row e he with
  | kept => rfl
  | turned _ turn => exact congrArg some turn.origin_eq
  | purged call => exact absurd call (hc _ _ _)

/-- A call moves rows from the table to the purged ones, if anywhere. -/
theorem balance_answer {t : Table} (ht : t.Distinct) (c : Call) :
    (((t.answer c).2 ++ purgedBy t (t.answer c).2 c).map Entry.origin).Perm
      (t.map Entry.origin) := by
  by_cases hc : ∃ before limit lock, c = .deletePublished before limit lock
  · obtain ⟨before, limit, lock, rfl⟩ := hc
    -- A purge keeps or removes equal rows alike, so what is missing afterwards is what it removed.
    let keep : Entry → Bool := fun e => !(t.outdated before limit).contains e.id
    have h : t.filter (fun e => !(t.filter keep).contains e) = t.filter fun e => !keep e := by
      refine List.filter_congr fun e he => ?_
      cases hx : keep e <;> simp [List.contains_eq_mem, List.mem_filter, he, hx]
    refine List.Perm.map _ ?_
    show (t.filter keep ++ t.filter fun e => !(t.filter keep).contains e).Perm t
    rw [h]
    exact List.filter_append_perm _ t
  · simp only [not_exists] at hc
    have : purgedBy t (t.answer c).2 c = [] := by
      cases c with
      | deletePublished before limit lock => exact absurd rfl (hc before limit lock)
      | _ => rfl
    rw [this, List.append_nil, map_origin_answer ht hc]

namespace Ledger
variable {es : List Entry} {h h' : History}

theorem source_nodup (l : Ledger es h) (hn : (es.map (·.id)).Nodup) :
    ((h.committed ++ h.store.allStaged).map (·.id)).Nodup := by
  obtain ⟨l', hp, hl⟩ := l.source
  exact (hp.map (·.id)).nodup_iff.1 (hn.sublist (hl.map _))

theorem committed_nodup (l : Ledger es h) (hn : (es.map (·.id)).Nodup) :
    (h.committed.map (·.id)).Nodup := by
  have := l.source_nodup hn
  rw [List.map_append] at this
  exact this.of_append_left

theorem exists_committed (l : Ledger es h) {e : Entry} (he : e ∈ h.table) :
    ∃ e₀ ∈ h.committed, e₀.origin = e.origin :=
  List.mem_map.1 (l.balance.subset (List.mem_map_of_mem (List.mem_append_left _ he)))

/-- An entry on its way to the table has an id of its own. -/
theorem id_ne_of_staged (l : Ledger es h) (hn : (es.map (·.id)).Nodup) {e e' : Entry}
    (he : e ∈ h.committed) (he' : e' ∈ h.store.allStaged) : e'.id ≠ e.id := by
  have := l.source_nodup hn
  rw [List.map_append] at this
  intro hid
  exact List.disjoint_of_nodup_append this (List.mem_map_of_mem he) (hid ▸ List.mem_map_of_mem he')

theorem table_append_purged_nodup (l : Ledger es h) (hn : (es.map (·.id)).Nodup) :
    ((h.table ++ h.purged).map (·.id)).Nodup := by
  have := l.balance.map Entry.Origin.id
  simp only [List.map_map] at this
  exact this.nodup_iff.2 (l.committed_nodup hn)

theorem distinct (l : Ledger es h) (hn : (es.map (·.id)).Nodup) : h.table.Distinct := by
  have := l.table_append_purged_nodup hn
  rw [List.map_append] at this
  exact this.of_append_left

theorem mono {es' : List Entry} (l : Ledger es h) (hs : es.Subperm es') : Ledger es' h :=
  ⟨l.balance, l.source.trans hs⟩

theorem step (l : Ledger es h) {op : Op} (hn : (es.map (·.id)).Nodup) (hs : Stepped h op h') :
    Ledger (es ++ op.incoming?.toList) h' := by
  cases hs with
  | same => exact l.mono (List.sublist_append_left ..).subperm
  | staged source =>
    refine ⟨l.balance, ((List.subperm_append_left _).2 source).trans ?_⟩
    rw [← List.append_assoc]
    exact (List.subperm_append_right _).2 l.source
  | @committed new ts source =>
    refine ⟨?_, List.Subperm.trans ?_ (l.mono (List.sublist_append_left ..).subperm).source⟩
    · have hperm : ((h.table ++ new) ++ h.purged).Perm ((h.table ++ h.purged) ++ new) := by
        simp only [List.append_assoc]
        exact List.perm_append_comm.append_left _
      have hb := l.balance.append_right (new.map Entry.origin)
      rw [← List.map_append, ← List.map_append] at hb
      exact (hperm.map _).trans hb
    · show ((h.committed ++ new) ++ ts.flatMap (·.2)).Subperm _
      rw [List.append_assoc]
      exact (List.subperm_append_left _).2 source
  | @answered c eq =>
    have hsub : es.Subperm (es ++ op.incoming?.toList) := (List.sublist_append_left ..).subperm
    refine Ledger.mono ⟨List.Perm.trans ?_ l.balance, l.source⟩ hsub
    let removed := purgedBy h.table (h.table.answer c).2 c
    have hperm : ((h.table.answer c).2 ++ (h.purged ++ removed)).Perm
        (((h.table.answer c).2 ++ removed) ++ h.purged) := by
      rw [List.append_assoc]
      exact List.perm_append_comm.append_left _
    have hb := (balance_answer (l.distinct hn) c).append_right (h.purged.map Entry.origin)
    rw [← List.map_append, ← List.map_append] at hb
    exact (hperm.map _).trans hb

end Ledger

/-- The balance holds for whatever is done with an empty store. -/
theorem ledger_run (ops : List Op) (hn : ((Store.inserted ops).map (·.id)).Nodup) :
    Ledger (Store.inserted ops) (run ops) :=
  run_induction (P := Ledger) ⟨.refl _, List.Subperm.refl _⟩
    (fun _ h op hn l => l.step hn (h.stepped op)) ops hn

end History
end Outbox
