import Outbox.Proofs.Store.Agreement

/-!
# Each request agrees

For each request: its command is one that a database can carry out, and whatever the database does
then is what the table does. The requests that change one entry go through `Turns`: a condition that
is a test on entries, and an assignment that turns the entries that pass it. A new entry comes into
the rows of a database as it comes into a table.
-/

namespace Outbox.Remote

open Sql Statement

variable {t : Table}

/-! ### Requests for entries -/

theorem ranks_before (ht : t.Storable) (p : Entry → Bool) :
    Query.Ranks [(.createdAt, false), (.id, false)] Entry.before (t.filter p) := by
  refine ⟨fun a ha b hb => ?_, fun _ _ _ => Entry.before_trans, fun a b => ?_⟩
  · exact (Query.sorted_age (ht.micro a (List.mem_filter.1 ha).1)
      (ht.micro b (List.mem_filter.1 hb).1)).symm
  · simpa using Entry.before_total a b

/-- Newest first is oldest first the other way round. -/
theorem ranks_after (ht : t.Storable) (p : Entry → Bool) :
    Query.Ranks [(.createdAt, true), (.id, true)] (fun a b => b.before a) (t.filter p) := by
  have h := ranks_before ht p
  refine ⟨fun a ha b hb => ?_, fun a b c hab hbc => h.trans c b a hbc hab, fun a b => h.total b a⟩
  exact h.sorted b hb a ha

theorem eq_of_before (ht : t.Storable) {p : Entry → Bool} {a b : Entry} (ha : a ∈ t.filter p)
    (hb : b ∈ t.filter p) (hab : a.before b) (hba : b.before a) : a = b :=
  ht.distinct.eq_of_id (List.mem_filter.1 ha).1 (List.mem_filter.1 hb).1
    (Entry.id_eq_of_before hab hba)

/-- The entries that a query gives are a page of the sorted ones. -/
theorem entries_of_selects (ht : t.Storable) {q : Query} {params : List Value} {rs : List Row}
    {p : Entry → Bool} {le : Entry → Entry → Bool} (page : Table → Table)
    (h : q.Selects params t.rows rs) (hp : ∀ e ∈ t, q.filter.holds params (.ofEntry e) = p e)
    (hle : Query.Ranks q.order le (t.filter p))
    (antisymm : ∀ a ∈ t.filter p, ∀ b ∈ t.filter p, le a b → le b a → a = b)
    (hpage : ∀ s : Table, q.cut params s.rows = (page s).rows) (hsub : ∀ s, page s ⊆ s) :
    (Reply.rows rs).entries = page ((t.filter p).mergeSort le) := by
  rw [h.eq_mergeSort hp hle antisymm, hpage]
  refine Reply.entries_rows fun e he => ht.micro e ?_
  exact (List.mem_filter.1 (List.mem_mergeSort.1 (hsub _ he))).1

theorem faithful_findPending (ht : t.Storable) {m limit : Int} {cutoff : Instant}
    (hc : (Call.findPending m limit cutoff).Fits) : Faithful t (.findPending m limit cutoff) := by
  have hcutoff : cutoff.IsMicro := hc.instants _ (List.mem_singleton_self _)
  have hlimit : 0 ≤ limit := hc.bounds limit (List.mem_singleton_self _)
  have hp := fun e he => holds_findPending (ht.micro e he) m limit hcutoff
  have hle := ranks_before ht (·.isClaimable m cutoff)
  refine ⟨⟨plain_of_fits hc, .select (Query.selects_run ?_ hp hle)⟩, fun r rows ⟨_, h⟩ => ?_⟩
  · rintro e (h | h)
    · cases h
      exact Value.exists_integer_eq hlimit
    · cases h
  · change Yields _ _ (.select _) _ _ at h
    cases h with
    | select selected =>
      refine ⟨?_, mirrors_rows ht.micro⟩
      have hpage : ∀ s : Table, s.rows.take limit.toNat = Table.rows (s.take limit.toNat) :=
        fun s => List.map_take.symm
      have := entries_of_selects ht _ selected hp hle (fun a ha b hb => eq_of_before ht ha hb)
        hpage fun s => List.take_subset _ s
      exact congrArg Except.ok this

theorem faithful_list (ht : t.Storable) {f : Filter} (hc : (Call.list f).Fits) :
    Faithful t (.list f) := by
  have hlimit : 0 ≤ f.limit := hc.bounds _ (List.mem_cons_self ..)
  have hoffset : 0 ≤ f.offset := hc.bounds _ (List.mem_cons_of_mem _ (List.mem_singleton_self _))
  have hp := fun e (_ : e ∈ t) => holds_list (e := e) f [.integer f.limit, .integer f.offset]
  have hle := ranks_after ht (Table.shows f)
  refine ⟨⟨plain_of_fits hc, .select (Query.selects_run ?_ hp hle)⟩, fun r rows ⟨_, h⟩ => ?_⟩
  · rintro e (h | h)
    · cases h
      exact Value.exists_integer_eq hlimit
    · cases h
      exact Value.exists_integer_eq hoffset
  · change Yields _ _ (.select _) _ _ at h
    cases h with
    | select selected =>
      refine ⟨?_, mirrors_rows ht.micro⟩
      have hpage : ∀ s : Table, (s.rows.drop f.offset.toNat).take f.limit.toNat =
          Table.rows ((s.drop f.offset.toNat).take f.limit.toNat) := fun s => by
        rw [Table.rows, Table.rows, List.map_take, List.map_drop]
      have := entries_of_selects ht _ selected hp hle
        (fun a ha b hb hab hba => eq_of_before ht ha hb hba hab) hpage
        fun s => List.Subset.trans (List.take_subset _ _) (List.drop_subset _ s)
      exact congrArg Except.ok this

theorem faithful_get (ht : t.Storable) {id : Uuid} (hc : (Call.get id).Fits) :
    Faithful t (.get id) := by
  have hp : ∀ e ∈ t, (equals .id 1).holds [.uuid id] (.ofEntry e) = decide (e.id = id) :=
    fun e _ => holds_equals_id id rfl
  have hle : Query.Ranks [] (fun _ _ => true) (t.filter (·.id = id)) :=
    ⟨fun _ _ _ _ => rfl, fun _ _ _ _ _ => rfl, fun _ _ => rfl⟩
  refine ⟨⟨plain_of_fits hc, .select (Query.selects_run nofun hp hle)⟩, fun r rows ⟨_, h⟩ => ?_⟩
  change Yields _ _ (.select _) _ _ at h
  cases h with
  | @select _ rs selected =>
    refine ⟨?_, mirrors_rows ht.micro⟩
    have honly : ∀ a ∈ t.filter (·.id = id), ∀ b ∈ t.filter (·.id = id), true → true → a = b := by
      intro a ha b hb _ _
      obtain ⟨ha, hid⟩ := List.mem_filter.1 ha
      obtain ⟨hb, hid'⟩ := List.mem_filter.1 hb
      rw [decide_eq_true_iff] at hid hid'
      exact ht.distinct.eq_of_id ha hb (hid.trans hid'.symm)
    have hentries := entries_of_selects ht (fun s => s) selected hp hle honly
      (fun _ => rfl) fun s => List.Subset.refl s
    have hsorted : (t.filter (·.id = id)).Pairwise fun _ _ => true :=
      List.pairwise_of_forall fun _ _ => rfl
    rw [List.mergeSort_of_pairwise hsorted, ht.distinct.filter_id] at hentries
    have hhead : (Reply.rows rs).entries.head? = t.row? id := by
      rw [hentries]
      cases t.row? id <;> rfl
    exact congrArg Except.ok hhead

/-! ### Requests that change one entry -/

theorem faithful_tryClaim (ht : t.Storable) {id : Uuid} {worker : String} {now cutoff : Instant}
    (hc : (Call.tryClaim id worker now cutoff).Fits) :
    Faithful t (.tryClaim id worker now cutoff) := by
  have hnow : now.IsMicro := hc.instants _ (List.mem_cons_self ..)
  have hcutoff : cutoff.IsMicro :=
    hc.instants _ (List.mem_cons_of_mem _ (List.mem_singleton_self _))
  have hworker : Column.claimedBy.Fits worker := hc.texts _ (List.mem_singleton_self _)
  have hp := fun e he => holds_tryClaim (ht.micro e he) id (.text worker) (.ofInstant now) hcutoff
  have hf (e : Entry) (he : e ∈ t)
      (h : decide ((e.id = id ∧ e.status = .pending) ∧ e.isIdle cutoff)) :=
    turns_tryClaim (ht.micro e he) (ht.fits e he) hnow hworker (of_decide_eq_true h).1.2
      (of_decide_eq_true h).2 (.uuid id) (.ofInstant cutoff)
  refine ⟨⟨plain_of_fits hc, yields_run_turns ht hp hf⟩, fun r rows ⟨_, h⟩ => ?_⟩
  show claimed id r = (t.tryClaim id worker now cutoff).1 ∧
    Mirrors rows (t.tryClaim id worker now cutoff).2
  rcases h.turned_cases ht hp (fun e h => (of_decide_eq_true h).1.1) hf with
    ⟨hnone, hreply, hrows⟩ | ⟨e, hr, hpe, hreply, hrows⟩
  · have hrefused : t.tryClaim id worker now cutoff = (.error (.claimContention id), t) := by
      refine (t.tryClaim_cases id worker now cutoff).resolve_right ?_
      rintro ⟨e, hr, pending, idle, -⟩
      obtain ⟨he, hid⟩ := Table.mem_of_row?_eq_some hr
      exact hnone e he (decide_eq_true ⟨⟨hid, pending⟩, idle⟩)
    rw [hrefused]
    refine ⟨?_, hrows⟩
    simp only [claimed, hreply]
    rfl
  · obtain ⟨⟨-, pending⟩, idle⟩ := of_decide_eq_true hpe
    rw [Table.tryClaim_eq hr pending worker now idle]
    refine ⟨?_, hrows⟩
    simp only [claimed, hreply]
    rfl

theorem faithful_replayFailed (ht : t.Storable) {id : Uuid} (hc : (Call.replayFailed id).Fits) :
    Faithful t (.replayFailed id) := by
  have hp := fun e (_ : e ∈ t) => holds_replayFailed (e := e) id
  have hf (e : Entry) (he : e ∈ t) (h : decide (e.id = id ∧ e.status = .failed)) :=
    turns_replayFailed (ht.micro e he) (ht.fits e he) (of_decide_eq_true h).2 [.uuid id]
  refine ⟨⟨plain_of_fits hc, yields_run_turns ht hp hf⟩, fun r rows ⟨_, h⟩ => ?_⟩
  show Except.ok r.entries.head? = .ok (t.replayFailed id).1 ∧ Mirrors rows (t.replayFailed id).2
  rcases h.turned_cases ht hp (fun e h => (of_decide_eq_true h).1) hf with
    ⟨hnone, hreply, hrows⟩ | ⟨e, hr, hpe, hreply, hrows⟩
  · have hrefused : t.replayFailed id = (none, t) := by
      refine (t.replayFailed_cases id).resolve_right ?_
      rintro ⟨e, hr, failed, -⟩
      obtain ⟨he, hid⟩ := Table.mem_of_row?_eq_some hr
      exact hnone e he (decide_eq_true ⟨hid, failed⟩)
    rw [hrefused, hreply]
    exact ⟨rfl, hrows⟩
  · rw [Table.replayFailed_eq hr (of_decide_eq_true hpe).2, hreply]
    exact ⟨rfl, hrows⟩

/-! ### Outcomes -/

/-- What an outcome leads to, given the change that the holder of the lease may make. -/
theorem outcome_of_yields (ht : t.Storable) {c : Claim} {cells : List (Column × Expr)}
    {params : List Value} {f : Entry → Entry} {change : Entry → Except Refusal Entry} {r : Reply}
    {rows : List Row} (hchange : ∀ e e', change e = .ok e' ↔ e.IsHeldBy c ∧ e' = f e)
    (hp : ∀ e ∈ t, heldByClaim.holds params (.ofEntry e) = decide (e.IsHeldBy c))
    (hf : ∀ e ∈ t, decide (e.IsHeldBy c) → Turns cells params e (f e))
    (h : Yields params t.rows (.update cells heldByClaim) r rows) :
    outcome c.entryId r = (t.record c change).1 ∧ Mirrors rows (t.record c change).2 := by
  have hid : ∀ e, decide (Entry.IsHeldBy e c) → e.id = c.entryId := fun e h =>
    (of_decide_eq_true h).id_eq
  rcases h.turned_cases ht hp hid hf with ⟨hnone, hreply, hrows⟩ | ⟨e, hr, hpe, hreply, hrows⟩
  · have hlost : t.record c change = (.error (.leaseLost c.entryId), t) := by
      refine (t.record_cases c change).resolve_right ?_
      rintro ⟨e, e', hr, hok, -⟩
      refine hnone e (Table.mem_of_row?_eq_some hr).1 ?_
      exact decide_eq_true ((hchange e e').1 hok).1
    rw [hlost]
    refine ⟨?_, hrows⟩
    simp only [outcome, hreply]
    rfl
  · rw [Table.record_eq hr change ((hchange e _).2 ⟨of_decide_eq_true hpe, rfl⟩)]
    refine ⟨?_, hrows⟩
    simp only [outcome, hreply]
    rfl

theorem faithful_markPublished (ht : t.Storable) {c : Claim} {now : Instant}
    (hc : (Call.markPublished c now).Fits) : Faithful t (.markPublished c now) := by
  have hat : c.claimedAt.IsMicro := hc.instants _ (List.mem_cons_self ..)
  have hnow : now.IsMicro := hc.instants _ (List.mem_cons_of_mem _ (List.mem_singleton_self _))
  have hp := fun e he => holds_heldByClaim (ht.micro e he) hat [.ofInstant now]
  have hf (e : Entry) (he : e ∈ t) (h : decide (e.IsHeldBy c)) :=
    turns_markPublished (ht.micro e he) (ht.fits e he) (of_decide_eq_true h)
      (.uuid c.entryId) (.text c.worker) (.ofInstant c.claimedAt) hnow
  exact ⟨⟨plain_of_fits hc, yields_run_turns ht hp hf⟩, fun r rows ⟨_, h⟩ =>
    outcome_of_yields ht (fun _ _ => Entry.markPublished_eq_ok) hp hf h⟩

theorem faithful_recordFailure (ht : t.Storable) {c : Claim} {error : String} {m : Int}
    (hc : (Call.recordFailure c error m).Fits) : Faithful t (.recordFailure c error m) := by
  have hat : c.claimedAt.IsMicro := hc.instants _ (List.mem_singleton_self _)
  have herror : Column.lastError.Fits error :=
    hc.texts _ (List.mem_cons_of_mem _ (List.mem_singleton_self _))
  have hp := fun e he => holds_heldByClaim (ht.micro e he) hat [.text error, .integer m]
  have hf (e : Entry) (he : e ∈ t) (h : decide (e.IsHeldBy c)) :=
    turns_recordFailure (ht.micro e he) (of_decide_eq_true h)
      (.uuid c.entryId) (.text c.worker) (.ofInstant c.claimedAt) herror m
  exact ⟨⟨plain_of_fits hc, yields_run_turns ht hp hf⟩, fun r rows ⟨_, h⟩ =>
    outcome_of_yields ht (fun _ _ => Entry.recordFailure_eq_ok) hp hf h⟩

theorem faithful_markFailed (ht : t.Storable) {c : Claim} {error : String}
    (hc : (Call.markFailed c error).Fits) : Faithful t (.markFailed c error) := by
  have hat : c.claimedAt.IsMicro := hc.instants _ (List.mem_singleton_self _)
  have herror : Column.lastError.Fits error :=
    hc.texts _ (List.mem_cons_of_mem _ (List.mem_singleton_self _))
  have hp := fun e he => holds_heldByClaim (ht.micro e he) hat [.text error]
  have hf (e : Entry) (he : e ∈ t) (h : decide (e.IsHeldBy c)) :=
    turns_markFailed (ht.micro e he) (of_decide_eq_true h)
      (.uuid c.entryId) (.text c.worker) (.ofInstant c.claimedAt) herror
  exact ⟨⟨plain_of_fits hc, yields_run_turns ht hp hf⟩, fun r rows ⟨_, h⟩ =>
    outcome_of_yields ht (fun _ _ => Entry.markFailed_eq_ok) hp hf h⟩

/-! ### The sweep -/

theorem faithful_failExhausted (ht : t.Storable) {m : Int} {cutoff : Instant}
    (hc : (Call.failExhausted m cutoff).Fits) : Faithful t (.failExhausted m cutoff) := by
  have hcutoff : cutoff.IsMicro := hc.instants _ (List.mem_singleton_self _)
  have hp := fun e he => holds_failExhausted (ht.micro e he) m hcutoff
    [.text Entry.retryLimitReached]
  have hf (e : Entry) (he : e ∈ t) (h : e.isExhausted m cutoff) :=
    turns_failExhausted (ht.micro e he) (ht.fits e he) h (.integer m) (.ofInstant cutoff)
  exact ⟨⟨plain_of_fits hc, yields_run_turns ht hp hf⟩, fun r rows ⟨_, h⟩ => by
    obtain ⟨hreply, hrows⟩ := h.exists_turned ht hp hf
    exact ⟨⟨_, rfl, hreply⟩, hrows⟩⟩

/-! ### The purge -/

/-- The two orders part ways where there is no time of publication, but not on outdated entries. -/
theorem ranks_publishedBefore (ht : t.Storable) (before : Instant) :
    Query.Ranks [(.publishedAt, false)] Table.publishedBefore
      (t.filter (Table.isOutdated before)) := by
  have hsome : ∀ e ∈ t.filter (Table.isOutdated before),
      ∃ s, e.publishedAt = some s ∧ s.IsMicro := by
    intro e he
    obtain ⟨he, hout⟩ := List.mem_filter.1 he
    obtain ⟨s, hs, -⟩ := (Option.any_eq_true _ _).1 (Bool.and_eq_true_iff.1 hout).2
    exact ⟨s, hs, (ht.micro e he).publishedAt s hs⟩
  refine ⟨fun a ha b hb => ?_, fun _ _ _ => Table.publishedBefore_trans,
    Table.publishedBefore_total⟩
  obtain ⟨x, hx, hmx⟩ := hsome a ha
  obtain ⟨y, hy, hmy⟩ := hsome b hb
  rw [Query.sorted_singleton, Bool.eq_iff_iff]
  simp only [Row.ofEntry, hx, hy, Value.ofOption, Value.sortOrder_ofInstant, Int.isLE_compare,
    Table.publishedBefore, decide_eq_true_iff]
  exact (hmx.microseconds_le_iff hmy).symm

/-- A row is removed by its key if its entry is by its id. -/
theorem contains_id (s : Table) (e : Entry) :
    (s.rows.map (· .id)).contains (Row.ofEntry e .id) = (s.map (·.id)).contains e.id := by
  rw [Bool.eq_iff_iff, List.contains_iff_mem, List.contains_iff_mem, Table.rows, List.map_map]
  simp [Row.ofEntry]

theorem faithful_deletePublished (ht : t.Storable) {before : Instant} {limit : Int}
    {lock : Millis} (hc : (Call.deletePublished before limit lock).Fits) :
    Faithful t (.deletePublished before limit lock) := by
  have hbefore : before.IsMicro := hc.instants _ (List.mem_singleton_self _)
  have hlimit : 0 ≤ limit := hc.bounds _ (List.mem_singleton_self _)
  have hp := fun e he => holds_deletePublished (ht.micro e he) hbefore [.integer limit]
  have hle := ranks_publishedBefore ht before
  refine ⟨⟨plain_of_fits hc, .delete (Query.selects_run ?_ hp hle)⟩, fun r rows ⟨_, h⟩ => ?_⟩
  · rintro e (h | h)
    · cases h
      exact Value.exists_integer_eq hlimit
    · cases h
  · change Yields _ _ (.delete _ _) _ _ at h
    cases h with
    | @delete _ _ rs selected =>
      obtain ⟨s, hs, hsorted, hcut⟩ := selected.exists_entries hp
      obtain rfl : rs = Table.rows (s.take limit.toNat) := hcut.trans List.map_take.symm
      have hperm := List.mergeSort_perm (t.filter (Table.isOutdated before)) Table.publishedBefore
      constructor
      · refine congrArg Except.ok ?_
        calc t.rows.countP _ = t.countP fun e => ((s.take limit.toNat).map (·.id)).contains e.id :=
              Table.countP_rows fun e _ => contains_id _ e
          _ = (s.take limit.toNat).length := by
              rw [List.countP_eq_length_filter, (ht.distinct.taken_perm hs _).length_eq]
          _ = (t.outdated before limit).length := by
              rw [Table.outdated, List.length_map, List.length_take, List.length_take,
                hs.length_eq, hperm.length_eq]
      · refine ⟨t.filter fun e => !((s.take limit.toNat).map (·.id)).contains e.id, ?_, ?_⟩
        · rw [Table.filter_rows (t := t) fun e _ => congrArg (! ·) (contains_id _ e)]
          exact mirrors_rows fun e he => ht.micro e (List.mem_filter.1 he).1
        · exact ht.distinct.purgedAlike hs hperm (hle.pairwise hs hsorted)
            (List.pairwise_mergeSort hle.trans hle.total _) limit.toNat

/-! ### Counts -/

/-- A value that no group has is the content of no row. -/
theorem lookup_groups {c : Column} {table : List Row} {cs : List (Value × Nat)}
    (h : cs.Perm ((groups c table).map fun v => (v, table.countP (· c = v)))) (v : Value) :
    (cs.lookup v).getD 0 = table.countP (· c = v) := by
  have hmem : ∀ p, p ∈ cs ↔ p.1 ∈ table.map (· c) ∧ p.2 = table.countP (· c = p.1) := by
    intro p
    rw [h.mem_iff, List.mem_map, ← List.mem_eraseDups]
    constructor
    · rintro ⟨w, hw, rfl⟩
      exact ⟨hw, rfl⟩
    · rintro ⟨hp, hcount⟩
      exact ⟨p.1, hp, hcount ▸ rfl⟩
  cases hl : cs.lookup v with
  | some k =>
    obtain ⟨l, l', rfl, -⟩ := List.lookup_eq_some_iff.1 hl
    exact ((hmem (v, k)).1 (by simp)).2
  | none =>
    refine (List.countP_eq_zero.2 fun r hr hv => ?_).symm
    have hv : r c = v := of_decide_eq_true hv
    have hgroup := (hmem (v, table.countP (· c = v))).2 ⟨List.mem_map.2 ⟨r, hr, hv⟩, rfl⟩
    simpa using List.lookup_eq_none_iff.1 hl _ hgroup

theorem faithful_count (ht : t.Storable) : Faithful t .count := by
  refine ⟨⟨nofun, .countBy (List.Perm.refl _)⟩, fun r rows ⟨_, h⟩ => ?_⟩
  change Yields _ _ (.countBy .status) _ _ at h
  cases h with
  | @countBy _ cs counted =>
    have hcount : ∀ s : Status, Reply.countOf s (.counts cs) = t.countP (·.status = s) := by
      intro s
      refine (lookup_groups counted (.status s)).trans (Table.countP_rows fun e _ => ?_)
      simp [Row.ofEntry]
    refine ⟨?_, mirrors_rows ht.micro⟩
    show Except.ok (Stats.mk _ _ _) = .ok (Stats.mk _ _ _)
    rw [hcount, hcount, hcount]

/-! ### New entries -/

section
variable {id : Uuid} {d : Draft} {now : Instant} {e : Entry}

theorem distinct_concat_iff (ht : t.Distinct) :
    Table.Distinct (t ++ [e]) ↔ ∀ x ∈ t, x.id ≠ e.id := by
  unfold Table.Distinct at *
  rw [List.map_append, List.map_singleton, (List.perm_append_singleton _ _).nodup_iff,
    List.nodup_cons, List.mem_map]
  constructor
  · rintro ⟨hnew, -⟩ x hx hid
    exact hnew ⟨x, hx, hid⟩
  · intro hnew
    refine ⟨?_, ht⟩
    rintro ⟨x, hx, hid⟩
    exact hnew x hx hid

variable (h : Entry.create id d now = .ok e) (hp : ∀ c, IsPlain (d.text c))
include h

theorem assign_insert : assign (insertColumns.mapIdx fun i c => (c, .param (i + 1)))
    (insert e).values .empty = .ofEntry e := by
  rw [Entry.eq_fresh_of_create h]
  funext c
  cases c <;> rfl

include hp

theorem plain_insert : ∀ v ∈ (insert e).values, v.IsPlain := by
  rw [Entry.eq_fresh_of_create h]
  have hcells : ∀ c ∈ insertColumns, (Row.ofEntry (.fresh id d now) c).IsPlain := by
    intro c hc
    cases c with
    | aggregateType => exact hp .aggregateType
    | aggregateId => exact hp .aggregateId
    | eventType => exact hp .eventType
    | topic => exact hp .topic
    | payload => exact hp .payload
    | _ => trivial
  intro v hv
  obtain ⟨p, hp, rfl⟩ := List.mem_map.1 hv
  obtain ⟨c, hc, rfl⟩ := List.mem_map.1 hp
  exact hcells c hc

/-- A new entry comes into the table as its last row, unless its id is taken. -/
theorem insert_yields_iff (ht : t.Storable) (hnow : now.IsMicro) {r : Reply} {rows : List Row} :
    (insert e).Yields t.rows r rows ↔
      Table.Distinct (t ++ [e]) ∧ r = .affected 1 ∧ Mirrors rows (t ++ [e]) := by
  have hmicro : ∀ x ∈ t ++ [e], x.IsMicro := by
    intro x hx
    rcases List.mem_append.1 hx with hx | hx
    · exact ht.micro x hx
    · rw [List.mem_singleton.1 hx, Entry.eq_fresh_of_create h]
      exact ⟨hnow, nofun, nofun⟩
  have hrows : t.rows ++ [Row.ofEntry e] = Table.rows (t ++ [e]) := by
    rw [Table.rows, Table.rows, List.map_append, List.map_singleton]
  have hassign := assign_insert h
  have hallowed : (Row.ofEntry e).Allowed := Entry.allowed_iff.2 (Entry.fits_fresh h hp)
  rw [distinct_concat_iff ht.distinct]
  constructor
  · rintro ⟨-, hy⟩
    change Yields _ _ (.insert _) _ _ at hy
    cases hy with
    | insert _ fresh =>
      rw [hassign] at fresh ⊢
      refine ⟨fun x hx hid => ?_, rfl, hrows ▸ mirrors_rows hmicro⟩
      exact fresh (.ofEntry x) (List.mem_map.2 ⟨x, hx, rfl⟩) (congrArg Value.uuid hid)
  · rintro ⟨hnew, rfl, hm⟩
    refine ⟨plain_insert h hp, ?_⟩
    rw [hm.eq, ← hrows, ← hassign]
    refine .insert (hassign ▸ hallowed) fun r hr hid => ?_
    obtain ⟨x, hx, rfl⟩ := List.mem_map.1 hr
    rw [hassign] at hid
    exact hnew x hx (Value.uuid.inj hid)

omit h hp in
/-- An entry that is inserted and committed alone comes into the table as its last row. -/
theorem commit_insert (s : Store) (tx : String) (e : Entry) :
    (((s.begin tx).insert? tx e).bind (·.commit? tx)).map (·.table) = some (s.table ++ [e]) := by
  simp [Store.begin, Store.insert?, Store.commit?, Store.staged?]

end

/-! ### Every request -/

theorem faithful (ht : t.Storable) : ∀ c : Call, c.Fits → Faithful t c
  | .findPending .., hc => faithful_findPending ht hc
  | .failExhausted .., hc => faithful_failExhausted ht hc
  | .tryClaim .., hc => faithful_tryClaim ht hc
  | .markPublished .., hc => faithful_markPublished ht hc
  | .recordFailure .., hc => faithful_recordFailure ht hc
  | .markFailed .., hc => faithful_markFailed ht hc
  | .deletePublished .., hc => faithful_deletePublished ht hc
  | .replayFailed .., hc => faithful_replayFailed ht hc
  | .get .., hc => faithful_get ht hc
  | .list .., hc => faithful_list ht hc
  | .count, _ => faithful_count ht

/-- No attempt that the table can be asked to count is one too many. -/
theorem perform_eq (ht : t.Storable) (c : Call) : t.perform c = .ok (t.answer c) := by
  have hno : t.overflows c = false := by
    cases c with
    | recordFailure c error m =>
      cases hr : t.row? c.entryId with
      | none => simp [Table.overflows, hr]
      | some e =>
        have hroom := ht.room e (Table.mem_of_row?_eq_some hr).1
        simp [Table.overflows, hr, Entry.overflows, hroom]
    | _ => rfl
  simp [Table.perform, hno]

/-- A database answers every request as the table does, and takes in every new entry. -/
theorem answers_agree (ht : t.Storable) :
    (∀ c : Call, c.Fits → t.perform c = .ok (t.answer c) ∧
      Answers t.rows c (answer t.rows c).1 (answer t.rows c).2 ∧
      ∀ a rows, Answers t.rows c a rows → Agrees t c a rows) ∧
    ∀ id d now e, Entry.create id d now = .ok e → now.IsMicro → (∀ c, IsPlain (d.text c)) →
      (∀ r rows, (insert e).Yields t.rows r rows ↔
        Table.Distinct (t ++ [e]) ∧ r = .affected 1 ∧ Mirrors rows (t ++ [e])) ∧
      ∀ (s : Store) tx, s.table = t →
        (((s.begin tx).insert? tx e).bind (·.commit? tx)).map (·.table) = some (t ++ [e]) := by
  refine ⟨fun c hc => ?_, fun id d now e h hnow hp => ⟨fun r rows => ?_, ?_⟩⟩
  · obtain ⟨possible, agrees⟩ := faithful ht c hc
    refine ⟨perform_eq ht c, ?_, fun a rows h => ?_⟩
    · rw [answer_eq]
      exact answers_iff.2 ⟨_, possible, rfl⟩
    · obtain ⟨r, hy, rfl⟩ := answers_iff.1 h
      exact agrees r rows hy
  · exact insert_yields_iff h hp ht hnow
  · rintro s tx rfl
    exact commit_insert s tx e

/-- What a follower brings into the table. -/
def followed : Draft := ⟨"Follow", "a-1", "UserFollowed", "mopl.user.followed", "\x7b\x7d"⟩

theorem followed_isPlain (c : Entry.Column) : IsPlain (followed.text c) := by
  cases c <;> unfold IsPlain <;> decide

/-- One entry, held by a worker. -/
def heldTable : Table := [Entry.sample.leased "w1" 2000]

theorem fits_worker : Column.claimedBy.Fits "w1" := by
  refine ⟨by unfold IsPlain; decide, ?_⟩
  rintro n ⟨⟩
  decide

theorem heldTable_storable : heldTable.Storable := by
  have hcreate : Entry.create (.ofNat 1) followed 0 = .ok .sample := rfl
  have hsample := Entry.fits_fresh hcreate followed_isPlain
  have hturn : Turn (.claimed ⟨Entry.sample.id, "w1", 2000⟩ 0) .sample
      (Entry.sample.leased "w1" 2000) := .claimed rfl rfl
  have hleased : (Entry.sample.leased "w1" 2000).Fits := by
    refine hturn.fits hsample (by decide) nofun ?_
    rintro w ⟨⟩
    exact fits_worker
  refine ⟨List.nodup_singleton _, ?_, ?_, ?_⟩
  · rintro e (_ | ⟨_, ⟨⟩⟩)
    exact Entry.allowed_iff.2 hleased
  · rintro e (_ | ⟨_, ⟨⟩⟩)
    refine ⟨by decide, nofun, ?_⟩
    rintro _ ⟨⟩
    decide
  · rintro e (_ | ⟨_, ⟨⟩⟩)
    decide

/-- The holder publishes the entry, and another entry comes in. -/
theorem heldTable_agrees :
    heldTable.Storable ∧ Call.Fits (.markPublished ⟨.ofNat 1, "w1", 2000⟩ 3000) ∧
    (∀ a rows, Answers heldTable.rows (.markPublished ⟨.ofNat 1, "w1", 2000⟩ 3000) a rows →
      a = .ok ((Entry.sample.leased "w1" 2000).published 3000) ∧
        Mirrors rows [(Entry.sample.leased "w1" 2000).published 3000]) ∧
    Entry.create (.ofNat 2) followed 1000 = .ok (.fresh (.ofNat 2) followed 1000) ∧
    (insert (.fresh (.ofNat 2) followed 1000)).Yields heldTable.rows (.affected 1)
      (Table.rows (heldTable ++ [.fresh (.ofNat 2) followed 1000])) := by
  have hc : Call.Fits (.markPublished ⟨.ofNat 1, "w1", 2000⟩ 3000) := by
    refine ⟨by decide, ?_, nofun⟩
    rintro p (_ | ⟨_, ⟨⟩⟩)
    exact fits_worker
  have hmicro : ∀ e ∈ heldTable ++ [.fresh (.ofNat 2) followed 1000], e.IsMicro := by
    intro e he
    rcases List.mem_append.1 he with he | he
    · exact heldTable_storable.micro e he
    · cases List.mem_singleton.1 he
      exact ⟨by decide, nofun, nofun⟩
  obtain ⟨hcalls, hentries⟩ := answers_agree heldTable_storable
  refine ⟨heldTable_storable, hc, (hcalls _ hc).2.2, rfl, ?_⟩
  refine ((hentries _ _ _ _ rfl (by decide) followed_isPlain).1 _ _).2 ⟨?_, rfl, ?_⟩
  · exact (distinct_concat_iff heldTable_storable.distinct).2 (by decide)
  · exact mirrors_rows hmicro

end Outbox.Remote
