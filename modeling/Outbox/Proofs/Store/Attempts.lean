import Outbox.Proofs.Store.Consistency

/-!
# Attempts are counted

The count in a row is the number of failed attempts that the log has for it since it was last put
back: `attempts` reads the log, and each deed changes the row and the log in the same way. With one
limit for all workers no row gets beyond it, and one that has reached it has failed, so the sweep
finds nothing to retire.
-/

namespace Outbox

namespace Deed
variable {d : Deed} {ds log : List Deed} {id : Uuid}

/-- The deed counts a failed attempt on an entry. -/
def countsFor (id : Uuid) : Deed → Bool
  | retried c _ _ => c.entryId = id
  | _ => false

/-- The failed attempts on an entry since it was last put back, in a log that starts with the last
deed. -/
def attempts (ds : List Deed) (id : Uuid) : Nat :=
  (ds.takeWhile (· ≠ replayed id)).countP (countsFor id)

theorem attempts_cons (d : Deed) (ds : List Deed) (id : Uuid) :
    attempts (d :: ds) id =
      if d = replayed id then 0 else attempts ds id + if d.countsFor id then 1 else 0 := by
  unfold attempts
  by_cases h : d = replayed id
  · simp [h]
  · simp [h, List.countP_cons]

theorem attempts_cons_of_ne (h : d.entryId ≠ id) : attempts (d :: ds) id = attempts ds id := by
  have hr : d ≠ replayed id := by
    rintro rfl
    exact h rfl
  have hc : d.countsFor id = false := by
    cases d with
    | retried c => exact decide_eq_false h
    | _ => rfl
  simp [attempts_cons, hr, hc]

theorem attempts_append_of_ne (log : List Deed) (h : ∀ d ∈ ds, d.entryId ≠ id) :
    attempts (ds ++ log) id = attempts log id := by
  induction ds with
  | nil => rfl
  | cons d ds ih =>
    rw [List.cons_append, attempts_cons_of_ne (h d List.mem_cons_self)]
    exact ih fun d' hd' => h d' (List.mem_cons_of_mem d hd')

/-- Of deeds for different entries only the one for the entry matters to its count. -/
theorem attempts_append_of_mem (log : List Deed) (hn : (ds.map entryId).Nodup) (hd : d ∈ ds) :
    attempts (ds ++ log) d.entryId = attempts (d :: log) d.entryId := by
  obtain ⟨newer, older, rfl⟩ := List.append_of_mem hd
  rw [List.map_append, List.map_cons] at hn
  have hnewer : ∀ d' ∈ newer, d'.entryId ≠ d.entryId := by
    intro d' hd' hid
    have hdis := List.disjoint_of_nodup_append hn (List.mem_map_of_mem hd')
    exact hdis (by rw [hid]; exact List.mem_cons_self)
  have holder : ∀ d' ∈ older, d'.entryId ≠ d.entryId := by
    intro d' hd' hid
    have hnot := (List.nodup_cons.1 hn.of_append_right).1
    exact hnot (List.mem_map.2 ⟨d', hd', hid⟩)
  rw [List.append_assoc, attempts_append_of_ne _ hnewer, List.cons_append, attempts_cons,
    attempts_cons, attempts_append_of_ne _ holder]

end Deed

/-- A deed changes the count in a row as it changes the count in the log. -/
theorem Turn.retryCount_eq {d : Deed} {e e' : Entry} (h : Turn d e e') :
    e'.retryCount =
      if d = .replayed e.id then 0 else e.retryCount + if d.countsFor e.id then 1 else 0 := by
  cases h with
  | retried held => simp [Entry.retried, Entry.release, Deed.countsFor, held.id_eq]
  | claimed | published | rejected | retired => simp [Deed.countsFor]; rfl
  | replayed => simp [Entry.replayed, Entry.release]

/-- The limit of attempts that a call goes by. -/
def Call.maxRetry? : Call → Option Int
  | .findPending m _ _ | .failExhausted m _ | .recordFailure _ _ m => some m
  | _ => none

def Store.Op.maxRetry? : Op → Option Int
  | .call c _ => c.maxRetry?
  | _ => none

namespace Entry

/-- The count of an entry does not exceed a bound, and reaches it only in failure. -/
structure Within (m : Int) (e : Entry) : Prop where
  le : e.retryCount ≤ m
  lt : e.status ≠ .failed → e.retryCount < m

theorem within_fresh {m : Int} (hm : 1 ≤ m) (id : Uuid) (d : Draft) (now : Instant) :
    (fresh id d now).Within m := by
  constructor
  · show 0 ≤ m
    omega
  · intro _
    show 0 < m
    omega

end Entry

theorem Turn.within {m : Int} (hm : 1 ≤ m) {d : Deed} {e e' : Entry} (h : Turn d e e')
    (hd : ∀ c error m', d = .retried c error m' → m' ≤ m) (he : e.Within m) : e'.Within m := by
  cases h with
  | claimed => exact ⟨he.le, he.lt⟩
  | published held =>
    have hlt := he.lt (by simp [held.pending])
    exact ⟨he.le, fun _ => hlt⟩
  | @retried e c error m' held =>
    have hlt := he.lt (by simp [held.pending])
    refine ⟨Int.add_one_le_of_lt hlt, fun hs => ?_⟩
    refine Int.lt_of_lt_of_le (b := m') ?_ (hd c error m' rfl)
    show e.retryCount + 1 < m'
    by_contra hge
    exact hs (if_pos (Int.not_lt.1 hge))
  | rejected => exact ⟨he.le, fun hs => absurd rfl hs⟩
  | retired => exact ⟨he.le, fun hs => absurd rfl hs⟩
  | replayed =>
    constructor
    · show 0 ≤ m
      omega
    · intro _
      show 0 < m
      omega

theorem Table.failExhausted_of_within {t : Table} {m : Int} (h : ∀ e ∈ t, e.Within m)
    (cutoff : Instant) : t.failExhausted m cutoff = ([], t) := by
  refine failExhausted_of_forall fun e he hx => ?_
  obtain ⟨hp, -, hle⟩ := Entry.isExhausted_iff.1 hx
  have hlt := (h e he).lt (by simp [hp])
  omega

namespace History
open Store (Op)
variable {es : List Entry} {h h' : History}

/-- The rows have the counts of the log, and the log is about committed entries. -/
structure Counted (h : History) : Prop where
  row : ∀ e ∈ h.table, e.retryCount = Deed.attempts h.deeds e.id
  known : ∀ d ∈ h.deeds, ∃ e ∈ h.committed, e.id = d.entryId

namespace Counted

theorem answered (hc : Counted h) (l : Ledger es h) (hn : (es.map (·.id)).Nodup) (c : Call) :
    Counted (h.answered c (h.table.answer c).1 (h.table.answer c).2) := by
  obtain ⟨f, heff⟩ := Table.exists_effect (l.distinct hn) c
  refine ⟨fun e he => ?_, fun d hd => ?_⟩
  · show e.retryCount = Deed.attempts (c.deeds (h.table.answer c).1 ++ h.deeds) e.id
    rcases heff.mem_cases he with ⟨he, hu⟩ | ⟨d, hd, e₀, he₀, turn⟩
    · rw [Deed.attempts_append_of_ne _ hu]
      exact hc.row e he
    · have hid : e.id = e₀.id := congrArg Entry.Origin.id turn.origin_eq
      have hlog := Deed.attempts_append_of_mem h.deeds heff.once hd
      rw [turn.entryId_eq, Deed.attempts_cons] at hlog
      rw [hid, hlog, turn.retryCount_eq, hc.row e₀ he₀]
      split
      · rfl
      · split <;> simp
  · rcases List.mem_append.1 hd with hd | hd
    · obtain ⟨e, he, hid⟩ := heff.deed d hd
      obtain ⟨e₀, he₀, ho⟩ := l.exists_committed he
      exact ⟨e₀, he₀, (congrArg Entry.Origin.id ho).trans hid⟩
    · exact hc.known d hd

theorem step (hc : Counted h) (l : Ledger es h) (hn : (es.map (·.id)).Nodup)
    (hz : ∀ e ∈ es, e.retryCount = 0) {op : Op} (hs : Stepped h op h') : Counted h' := by
  cases hs with
  | same => exact hc
  | staged => exact ⟨hc.row, hc.known⟩
  | @committed new _ source =>
    refine ⟨fun e he => ?_, fun d hd => ?_⟩
    · rcases List.mem_append.1 he with he | he
      · exact hc.row e he
      · have hstaged := source.subset (List.mem_append_left _ he)
        have hne : ∀ d ∈ h.deeds, d.entryId ≠ e.id := by
          intro d hd hid
          obtain ⟨e₀, he₀, hid₀⟩ := hc.known d hd
          exact l.id_ne_of_staged hn he₀ hstaged (hid.symm.trans hid₀.symm)
        have hlog := Deed.attempts_append_of_ne [] hne
        rw [List.append_nil] at hlog
        show e.retryCount = Deed.attempts h.deeds e.id
        rw [hz e (l.source.subset (List.mem_append_right _ hstaged)), hlog]
        rfl
    · obtain ⟨e, he, hid⟩ := hc.known d hd
      exact ⟨e, List.mem_append_left _ he, hid⟩
  | answered => exact hc.answered l hn _

end Counted

theorem counted_run (ops : List Op) (hn : ((Store.inserted ops).map (·.id)).Nodup)
    (hz : ∀ e ∈ Store.inserted ops, e.retryCount = 0) : Counted (run ops) := by
  let P es h := Ledger es h ∧ ((∀ e ∈ es, e.retryCount = 0) → Counted h)
  have hempty : Counted empty :=
    ⟨fun _ he => absurd he List.not_mem_nil, fun _ hd => absurd hd List.not_mem_nil⟩
  have h : P (Store.inserted ops) (run ops) := by
    refine run_induction ⟨⟨.refl _, List.Subperm.refl _⟩, fun _ => hempty⟩ ?_ ops hn
    rintro es h op hn ⟨l, hc⟩
    refine ⟨l.step hn (h.stepped op), fun hz => ?_⟩
    have hz := fun e he => hz e (List.mem_append_left _ he)
    exact (hc hz).step l hn hz (h.stepped op)
  exact h.2 hz

section
variable {m : Int} {ops : List Op}

theorem within_run_of_le (hm : 1 ≤ m)
    (hc : ∀ tx e, .insert tx e ∈ ops → ∃ id d now, Entry.create id d now = .ok e)
    (hle : ∀ c fault m', .call c fault ∈ ops → c.maxRetry? = some m' → m' ≤ m) :
    ∀ e ∈ (run ops).table, e.Within m := by
  have hin : ∀ e ∈ Store.inserted ops, e.Within m := by
    intro e he
    obtain ⟨id, d, now, h⟩ := Store.create_of_mem_inserted hc he
    rw [Entry.eq_fresh_of_create h]
    exact Entry.within_fresh hm id d now
  refine (throughout_run ops hin fun c d e e' hmem hd turn he => ?_).table
  refine turn.within hm ?_ he
  rintro claim error m' rfl
  cases hd
  exact hle _ none m' hmem rfl

theorem within_run (hm : 1 ≤ m)
    (hc : ∀ tx e, .insert tx e ∈ ops → ∃ id d now, Entry.create id d now = .ok e)
    (hfix : ∀ c fault m', .call c fault ∈ ops → c.maxRetry? = some m' → m' = m) :
    ∀ e ∈ (run ops).table, e.Within m :=
  within_run_of_le hm hc fun c fault m' hop hm' => Int.le_of_eq (hfix c fault m' hop hm')

theorem retired_notMem_run (hm : 1 ≤ m)
    (hc : ∀ tx e, .insert tx e ∈ ops → ∃ id d now, Entry.create id d now = .ok e)
    (hfix : ∀ c fault m', .call c fault ∈ ops → c.maxRetry? = some m' → m' = m)
    (id : Uuid) (m' : Int) (cutoff : Instant) : .retired id m' cutoff ∉ (run ops).deeds := by
  induction ops using List.reverseRecOn with
  | nil => exact List.not_mem_nil
  | append_singleton ops op ih =>
    have hc := fun tx e h => hc tx e (List.mem_append_left _ h)
    have ih := ih hc fun c fault m' h => hfix c fault m' (List.mem_append_left _ h)
    rw [run_concat]
    have hs := (run ops).stepped op
    generalize (run ops).step op = next at hs
    cases hs with
    | same => exact ih
    | staged => exact ih
    | committed => exact ih
    | @answered c eq =>
      intro hd
      rcases List.mem_append.1 hd with hd | hd
      · -- A sweep that retires something would have the limit, which no pending row has reached.
        cases Call.does_of_mem_deeds hd
        have hrows := within_run hm hc fun c fault m' h =>
          hfix c fault m' (List.mem_append_left _ h)
        obtain rfl : m' = m := hfix (.failExhausted m' cutoff) none m' (by simp [eq]) rfl
        simp [Table.answer, Table.failExhausted_of_within hrows, Call.deeds] at hd
      · exact ih hd

end

/-- All calls that go by a limit go by one limit, and only created entries come into the store. Then
every row has the count of failed attempts since it was created or last put back, no count exceeds
the limit, a row whose count has reached it has failed, and no sweep ever retires a row. -/
theorem retries_accounted (m : Int) (hm : 1 ≤ m) (ops : List Op)
    (hc : ∀ tx e, .insert tx e ∈ ops → ∃ id d now, Entry.create id d now = .ok e)
    (hfix : ∀ c fault m', .call c fault ∈ ops → c.maxRetry? = some m' → m' = m) :
    (((Store.inserted ops).map (·.id)).Nodup →
      ∀ e ∈ (run ops).table, e.retryCount = Deed.attempts (run ops).deeds e.id) ∧
    (∀ e ∈ (run ops).table, e.retryCount ≤ m ∧ (e.status = .pending → e.retryCount < m) ∧
      (e.retryCount = m → e.status = .failed)) ∧
    (∀ id m' cutoff, .retired id m' cutoff ∉ (run ops).deeds) ∧
    ∀ cutoff, (run ops).table.failExhausted m cutoff = ([], (run ops).table) := by
  have hrows := within_run hm hc hfix
  refine ⟨fun hn => ?_, fun e he => ?_, retired_notMem_run hm hc hfix, fun cutoff => ?_⟩
  · refine (counted_run ops hn fun e he => ?_).row
    obtain ⟨id, d, now, h⟩ := Store.create_of_mem_inserted hc he
    rw [Entry.eq_fresh_of_create h]
    rfl
  · obtain ⟨hle, hlt⟩ := hrows e he
    refine ⟨hle, fun hp => hlt (by simp [hp]), fun heq => ?_⟩
    by_contra hs
    exact absurd (hlt hs) (by omega)
  · exact Table.failExhausted_of_within hrows cutoff

/-- Two attempts are allowed. One worker is too late to record its failure, another one uses the
attempts up, and the entry is put back and fails once more. -/
def wornOut : List Op :=
  [.begin "tx", .insert "tx" .sample, .commit "tx", .call (.failExhausted 2 0) none,
    .call (.findPending 2 10 0) none, .call (.tryClaim (.ofNat 1) "w1" 10 0) none,
    .call (.recordFailure ⟨.ofNat 1, "w1", 10⟩ "busy" 2) none,
    .call (.tryClaim (.ofNat 1) "w1" 20 0) none, .call (.tryClaim (.ofNat 1) "w2" 40 30) none,
    .call (.recordFailure ⟨.ofNat 1, "w1", 20⟩ "late" 2) none,
    .call (.recordFailure ⟨.ofNat 1, "w2", 40⟩ "busy" 2) none,
    .call (.replayFailed (.ofNat 1)) none, .call (.tryClaim (.ofNat 1) "w1" 50 0) none,
    .call (.recordFailure ⟨.ofNat 1, "w1", 50⟩ "down" 2) none]

theorem wornOut_accounted :
    (1 : Int) ≤ 2 ∧
    (∀ tx e, .insert tx e ∈ wornOut → ∃ id d now, Entry.create id d now = .ok e) ∧
    (∀ c fault m', .call c fault ∈ wornOut → c.maxRetry? = some m' → m' = 2) ∧
    ((Store.inserted wornOut).map (·.id)).Nodup ∧
    (run wornOut).table = [{ Entry.sample with retryCount := 1, lastError := some "down" }] ∧
    Deed.attempts (run wornOut).deeds Entry.sample.id = 1 ∧
    (run wornOut).table.failExhausted 2 60 = ([], (run wornOut).table) := by
  have hc : ∀ tx e, .insert tx e ∈ wornOut → ∃ id d now, Entry.create id d now = .ok e := by
    intro tx e he
    obtain ⟨-, rfl⟩ : tx = "tx" ∧ e = .sample := by simpa [wornOut] using he
    exact Entry.exists_create_sample
  have hfix : ∀ c fault m', .call c fault ∈ wornOut → c.maxRetry? = some m' → m' = 2 := by
    have hall : ∀ m' ∈ wornOut.filterMap Op.maxRetry?, m' = 2 := by decide
    intro c fault m' hop hm
    exact hall m' (List.mem_filterMap.2 ⟨_, hop, hm⟩)
  have hn : ((Store.inserted wornOut).map (·.id)).Nodup := by decide
  have ht : (run wornOut).table =
      [{ Entry.sample with retryCount := 1, lastError := some "down" }] := by decide +kernel
  obtain ⟨hcount, -, -, hsweep⟩ := retries_accounted 2 (by decide) wornOut hc hfix
  refine ⟨by decide, hc, hfix, hn, ht, ?_, hsweep 60⟩
  have h := hcount hn _ (ht ▸ List.mem_singleton_self _)
  exact (Int.natCast_inj.1 h).symm

end History
end Outbox
