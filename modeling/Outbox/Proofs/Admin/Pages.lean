import Outbox.Proofs.Admin.Outsiders
import Outbox.Proofs.Admin.Secrets
import Outbox.Proofs.Scenario.Unshared
import Outbox.Proofs.Table.Oldest

/-!
# Pages of a listing

All pages that administrators ask for under one filter are cut from one list: the entries that pass
the filter, the last one created first (`NewestFirst`). Pages of one size that follow one another
make up that list from its beginning, so none of them repeats an entry of another, and no entry
between them is missed (`pages_of_listing`).
-/

namespace Outbox

/-! ### Newest first -/

/-- The entries with a status and an event type, if these are asked for, the last one created
first. -/
structure Table.NewestFirst (t : Table) (status : Option Status) (eventType : Option String)
    (es : List Entry) : Prop where
  mem_iff : ∀ e, e ∈ es ↔ e ∈ t ∧ (∀ s ∈ status, e.status = s) ∧ ∀ n ∈ eventType, e.eventType = n
  ordered : es.Pairwise fun a b => b.Earlier a

namespace Table

variable {t : Table} {status : Option Status} {eventType : Option String} {es es' : List Entry}

theorem NewestFirst.nodup (h : t.NewestFirst status eventType es) : es.Nodup :=
  h.ordered.imp fun hab => hab.ne.symm

/-- There is one such list. -/
theorem NewestFirst.unique (h : t.NewestFirst status eventType es)
    (h' : t.NewestFirst status eventType es') : es = es' := by
  have hperm : es.Perm es' := (List.perm_ext_iff_of_nodup h.nodup h'.nodup).2 fun e =>
    (h.mem_iff e).trans (h'.mem_iff e).symm
  exact hperm.eq_of_pairwise (fun a b _ _ hab hba => absurd hba hab.asymm) h.ordered h'.ordered

theorem shows_iff {f : Filter} {e : Entry} :
    shows f e ↔ (∀ s ∈ f.status, e.status = s) ∧ ∀ n ∈ f.eventType, e.eventType = n := by
  simp [shows, Option.all_eq_true]

/-- The list that a listing cuts its page from. -/
theorem newestFirst_sorted (ht : t.Distinct) (f : Filter) : t.NewestFirst f.status f.eventType
    ((t.filter (shows f)).mergeSort fun a b => b.before a) where
  mem_iff e := by rw [List.mem_mergeSort, List.mem_filter, shows_iff]
  ordered := by
    have hsorted := Entry.pairwise_mergeSort (fun a b => b.before a)
      (fun _ _ _ hab hbc => Entry.before_trans hbc hab) (fun a b => Entry.before_total b a)
      (ht.filter (shows f))
    exact hsorted.imp fun h => Entry.earlier_of_before h.1 h.2.symm

end Table

namespace Admin

open ListQuery (clamp greatestLimit greatestOffset)
open Scenario (World)

/-! ### Pages -/

/-- The part of a list that a page shows. -/
def page (es : List Entry) (limit offset : Int) : List Entry :=
  (es.drop (clamp 0 greatestOffset offset).toNat).take (clamp 1 greatestLimit limit).toNat

section
variable {es : List Entry} {size n i j : Nat}

theorem length_page_le (es : List Entry) (limit offset : Int) :
    (page es limit offset).length ≤ 200 := by
  refine Nat.le_trans (List.length_take_le ..) ?_
  unfold clamp greatestLimit
  omega

/-- Nothing is changed about a limit and an offset that are in their bounds. -/
theorem page_eq (hsize : 1 ≤ size) (hsize' : size ≤ 200) (hn : n ≤ 100000) :
    page es size n = (es.drop n).take size := by
  have hoffset : (clamp 0 greatestOffset n).toNat = n := by
    unfold clamp greatestOffset
    omega
  have hlimit : (clamp 1 greatestLimit size).toNat = size := by
    unfold clamp greatestLimit
    omega
  rw [page, hoffset, hlimit]

/-- Pages that follow one another leave nothing out. -/
theorem flatMap_page (hsize : 1 ≤ size) (hsize' : size ≤ 200) (hn : n * size ≤ 100000) :
    (List.range (n + 1)).flatMap (fun k => page es size (k * size : Nat)) =
      es.take ((n + 1) * size) := by
  induction n with
  | zero =>
    rw [Nat.zero_add, List.range_one, List.flatMap_singleton, page_eq hsize hsize' hn, Nat.zero_mul,
      Nat.one_mul, List.drop_zero]
  | succ n ih =>
    have hle : n * size ≤ 100000 := Nat.le_trans (Nat.mul_le_mul_right size n.le_succ) hn
    rw [List.range_succ, List.flatMap_append, ih hle, List.flatMap_singleton,
      page_eq hsize hsize' hn, ← List.take_add, ← Nat.succ_mul]

/-- What comes before a page is not on it. -/
theorem disjoint_page (h : es.Nodup) (hsize : 1 ≤ size) (hsize' : size ≤ 200)
    (hij : i < j) (hj : j * size ≤ 100000) :
    (page es size (i * size : Nat)).Disjoint (page es size (j * size : Nat)) := by
  have hend : i * size + size ≤ j * size := by
    rw [← Nat.succ_mul]
    exact Nat.mul_le_mul_right size hij
  rw [page_eq hsize hsize' (Nat.le_trans (Nat.le_of_add_right_le hend) hj),
    page_eq hsize hsize' hj, List.take_drop]
  exact List.disjoint_of_subset_left (List.drop_subset ..) <|
    List.disjoint_of_subset_right (List.take_subset ..) <| List.disjoint_take_drop h hend

end

/-! ### Responses -/

/-- The response that shows entries. -/
def shown (es : List Entry) : Response :=
  ⟨200, (Json.list (es.map fun e => (EntryView.ofEntry e).toJson)).render⟩

/-- The request is let in and asks for a page. -/
structure Request.AsksFor (r : Request) (verify : String → Bool) (q : ListQuery) : Prop where
  method : r.method = "GET"
  place : Resource.ofPath? r.path = some .entries
  secret : authorize verify r.secret = .ok ()
  query : ListQuery.ofForm? r.query = some q

namespace Request.AsksFor

variable {r : Request} {verify : String → Bool} {q : ListQuery}

theorem handler_eq (h : r.AsksFor verify q) : r.handler verify = .list q.filter := by
  have hallows : Resource.entries.allows r.method := by
    rw [h.method]
    rfl
  rw [Request.handler_of_place h.place hallows rfl, h.secret]
  simp only [Resource.handler, h.query]

example : Request.AsksFor ⟨"GET", "/admin/entries?limit=500&status=failed&offset=-1", some "secret"⟩
    (· = "secret") ⟨500, -1, some .failed, none⟩ :=
  ⟨rfl, by decide +kernel, by decide, by decide +kernel⟩

theorem deliver_eq (h : r.AsksFor verify q) (s : Response) : r.deliver s = s :=
  if_neg (by rw [h.method]; decide)

end Request.AsksFor
end Admin

namespace Scenario.World

open Admin (ListQuery Request Response page shown)

variable {w : World} {t : Table} {q : ListQuery}

/-- The world has a table, and no listing of it fails. -/
structure Shows (w : World) (t : Table) : Prop where
  table : w.table = t
  faults : ∀ f ∈ w.faults .list, f = none

/-- A query is answered with a response, to everybody who is let in to ask it, and can be asked
again. -/
structure Serves (w : World) (q : ListQuery) (s : Response) : Prop where
  served : ∃ w' : World, w.serve (.list q.filter) = (.ok s, w') ∧ w'.Shows w.table
  responded : ∀ r : Request, r.AsksFor (Secret.verify w.admin.value) q →
    ∃ w' : World, w.command (.request r) = (.ok (.responded s), w') ∧ w'.Shows w.table

theorem Shows.serve_list (h : w.Shows t) (f : Filter) :
    ∃ w' : World, w.serve (.list f) = (.ok (shown (t.list f)), w') ∧ w'.Shows t := by
  have hfault : (w.nextFault (Call.list f).method).1 = none := nextFault_eq_none h.faults
  obtain ⟨w', hw', hon⟩ := perform_answered (c := .list f) (by rw [hfault]; rfl) rfl
  refine ⟨w', ?_, hon.table.trans h.table, fun x hx => h.faults x ((hon.faults _).subset hx)⟩
  rw [serve]
  split <;> rename_i hask
  · cases hask
  · cases hask
    rw [hw', ← h.table]
    exact serve_respond w' (shown (w.table.list f))
  · cases hask

theorem Shows.serves (h : w.Shows t) (q : ListQuery) : w.Serves q (shown (t.list q.filter)) := by
  obtain ⟨w', hserve, hw'⟩ := h.serve_list q.filter
  rw [← h.table] at hw'
  refine ⟨⟨w', hserve, hw'⟩, fun r hr => ⟨w', ?_, hw'⟩⟩
  have hhandler : w.handler r = .list q.filter := hr.handler_eq
  simp only [command, hhandler, hserve, hr.deliver_eq]

end Scenario.World

namespace Admin

open Scenario (World)

/-- All pages under one filter are cut from the one list of what passes it, newest first. However
much a query asks for, it is answered with at most 200 entries; and pages of one size that follow
one another make up the beginning of that list, each entry once. -/
theorem pages_of_listing {t : Table} (ht : t.Distinct) (status : Option StatusView)
    (eventType : Option String) :
    ∃ es, t.NewestFirst (status.map StatusView.toStatus) eventType es ∧
      (∀ q : ListQuery, q.status = status → q.eventType = eventType →
        ∀ w : World, w.Shows t → w.Serves q (shown (page es q.limit q.offset))) ∧
      (∀ limit offset, (page es limit offset).length ≤ 200) ∧
      ∀ size n : Nat, 1 ≤ size → size ≤ 200 → n * size ≤ 100000 →
        (List.range (n + 1)).flatMap (fun k => page es size (k * size : Nat)) =
          es.take ((n + 1) * size) ∧
        ∀ i j, i < j → j ≤ n →
          (page es size (i * size : Nat)).Disjoint (page es size (j * size : Nat)) := by
  have hes := Table.newestFirst_sorted ht ⟨status.map StatusView.toStatus, eventType, 0, 0⟩
  refine ⟨_, hes, ?_, length_page_le _, fun size n hsize hsize' hn => ?_⟩
  · rintro q rfl rfl w hw
    exact hw.serves q
  · refine ⟨flatMap_page hsize hsize' hn, fun i j hij hj => ?_⟩
    exact disjoint_page hes.nodup hsize hsize' hij (Nat.le_trans (Nat.mul_le_mul_right size hj) hn)

/-- Of three failed entries, two of them created at one time, the second page of two has the
last. -/
theorem second_page_of_failed :
    let row (id : Nat) (createdAt : Instant) (status : Status) : Entry :=
      { Entry.sample with id := .ofNat id, createdAt, status }
    let t : Table := [row 1 5 .failed, row 2 7 .pending, row 3 5 .failed, row 4 6 .failed]
    let w := World.ofTable t 0
    t.Distinct ∧ w.Shows t ∧
    t.NewestFirst (some .failed) none [row 4 6 .failed, row 3 5 .failed, row 1 5 .failed] ∧
    w.Serves ⟨2, 2, some .failed, none⟩ (shown [row 1 5 .failed]) := by
  intro row t w
  have ht : t.Distinct := by unfold Table.Distinct; decide
  have hw : w.Shows t := ⟨rfl, fun _ h => absurd h List.not_mem_nil⟩
  have hlist : t.NewestFirst (some .failed) none
      [row 4 6 .failed, row 3 5 .failed, row 1 5 .failed] := by
    refine ⟨fun e => ⟨fun he => ?_, ?_⟩, by decide⟩
    · simp only [List.mem_cons, List.not_mem_nil, or_false] at he
      obtain rfl | rfl | rfl := he <;> decide
    · simp only [t, List.mem_cons, List.not_mem_nil, or_false]
      rintro ⟨rfl | rfl | rfl | rfl, hstatus, -⟩
      · simp
      · exact absurd (hstatus .failed rfl) (by decide)
      · simp
      · simp
  obtain ⟨es, hes, hserves, -⟩ := pages_of_listing ht (some .failed) none
  obtain rfl := hes.unique hlist
  exact ⟨ht, hw, hlist, hserves ⟨2, 2, some .failed, none⟩ rfl rfl w hw⟩

end Admin
end Outbox
