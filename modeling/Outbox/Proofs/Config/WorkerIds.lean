import Outbox.Proofs.Config.Rewrite
import Mathlib.Data.List.Nodup

/-!
# Workers have ids of their own

The id of a worker is the instance id, a dash and a number. No digit is a dash, so the last dash of
an id tells its two parts apart (`workerId_inj`): ids are shared neither within a process nor
between processes with different instance ids. The check of a file makes room for the longest id of
a worker, so each id fits its column (`workerIds_of_load`).
-/

namespace Outbox.Config

variable {env : Environment} {d d' : Disk} {f : ConfigFile} {l : Loaded} {s : String} {m n : Nat}

/-! ### Ids -/

/-- The id of one worker. -/
def workerId (instanceId : String) (n : Nat) : String := instanceId ++ "-" ++ toString n

theorem toList_workerId (s : String) (n : Nat) :
    (workerId s n).toList = s.toList ++ '-' :: Nat.toDigits 10 n := by
  have hdigits : (toString n).toList = Nat.toDigits 10 n := Nat.toList_repr
  rw [workerId, String.toList_append, String.toList_append, hdigits, List.append_assoc]
  rfl

/-- What stands behind the last dash is told apart from what stands before it. -/
theorem append_dash_inj {as bs ms ns : List Char} (hm : '-' ∉ ms) (hn : '-' ∉ ns) :
    as ++ '-' :: ms = bs ++ '-' :: ns ↔ as = bs ∧ ms = ns := by
  refine ⟨fun h => ?_, fun ⟨ha, hm⟩ => ha ▸ hm ▸ rfl⟩
  -- if one front were longer, its dash would be among the digits of the other
  obtain ⟨cs, rfl, hcs⟩ | ⟨cs, rfl, hcs⟩ := List.append_eq_append_iff.1 h
  · cases cs with
    | nil => exact ⟨(List.append_nil as).symm, (List.cons.inj hcs).2⟩
    | cons c cs => exact absurd (by rw [(List.cons.inj hcs).2]; simp) hm
  · cases cs with
    | nil => exact ⟨List.append_nil bs, (List.cons.inj hcs).2.symm⟩
    | cons c cs => exact absurd (by rw [(List.cons.inj hcs).2]; simp) hn

/-- An id of a worker is that of one instance and one number. -/
theorem workerId_inj {s s' : String} : workerId s m = workerId s' n ↔ s = s' ∧ m = n := by
  have hdash : ∀ n, '-' ∉ Nat.toDigits 10 n :=
    Text.not_mem_toDigits (by decide) (by decide) (by decide)
  rw [← String.toList_inj, toList_workerId, toList_workerId, append_dash_inj (hdash m) (hdash n),
    String.toList_inj, Text.toDigits_inj]

theorem isBlank_workerId (s : String) (n : Nat) : Text.isBlank (workerId s n) = false := by
  rw [Text.isBlank, toList_workerId, List.all_append, List.all_cons,
    show Text.isBlankChar '-' = false by decide, Bool.false_and, Bool.and_false]

/-- A character takes at least one byte. -/
theorem length_le_utf8ByteSize (s : String) : s.length ≤ s.utf8ByteSize := by
  have hchars : ∀ cs : List Char, cs.length ≤ (String.ofList cs).utf8ByteSize := by
    intro cs
    induction cs with
    | nil => exact Nat.le_refl 0
    | cons c cs ih =>
      have hpos := c.utf8Size_pos
      rw [String.ofList_cons, String.utf8ByteSize_append, String.utf8ByteSize_singleton,
        List.length_cons]
      omega
  have hs := hchars s.toList
  rwa [String.ofList_toList, String.length_toList] at hs

/-- The longest id of a worker in bytes bounds the characters of each. -/
theorem length_workerId_le (h : n < m) (s : String) :
    (workerId s n).length ≤ longestWorkerId s m := by
  have hdigits := Text.length_toDigits_mono (Nat.le_sub_one_of_lt h)
  have hsize := length_le_utf8ByteSize s
  have hlength : (toString (m - 1)).length = (Nat.toDigits 10 (m - 1)).length := by
    rw [← String.length_toList]
    exact congrArg List.length Nat.toList_repr
  rw [← String.length_toList, toList_workerId, List.length_append, List.length_cons,
    String.length_toList, longestWorkerId, hlength]
  omega

/-! ### Ids of a configuration -/

theorem mem_workerIds {id : String} :
    id ∈ l.workerIds ↔ ∃ n < l.workers, id = workerId l.instanceId n := by
  simp [Loaded.workerIds, workerId, eq_comm]

theorem length_workerIds (l : Loaded) : l.workerIds.length = l.workers := by
  simp [Loaded.workerIds]

theorem nodup_workerIds (l : Loaded) : l.workerIds.Nodup :=
  List.Nodup.map (f := workerId l.instanceId) (fun _ _ h => (workerId_inj.1 h).2) List.nodup_range

theorem disjoint_workerIds {l l' : Loaded} (h : l.instanceId ≠ l'.instanceId) :
    l.workerIds.Disjoint l'.workerIds := by
  intro id hid hid'
  obtain ⟨m, -, rfl⟩ := mem_workerIds.1 hid
  obtain ⟨n, -, heq⟩ := mem_workerIds.1 hid'
  exact h (workerId_inj.1 heq).1

/-- Whatever the file and the machine call the instance, a configuration that was loaded gives each
of its workers an id of its own, which is not blank and has no more than 100 characters; and no
configuration with another instance id gives any of these ids. -/
theorem workerIds_of_load (h : load env d = .ok (l, d')) :
    (∃ s f, d.file = .text s ∧ ConfigFile.parse? s = some f ∧ 0 < f.relay.workers ∧
      l.workerIds.length = f.relay.workers ∧
      l.instanceId = instanceId f.relay.instanceId env) ∧
    l.workerIds.Nodup ∧
    (∀ id ∈ l.workerIds, Text.isBlank id = false ∧ id.length ≤ 100) ∧
    ∀ l' : Loaded, l.instanceId ≠ l'.instanceId → l.workerIds.Disjoint l'.workerIds := by
  obtain ⟨s, f, hs, hf, hcheck, rfl, -⟩ := exists_file_of_load h
  have hchecked := checked_of_check hcheck
  refine ⟨⟨s, f, hs, hf, hchecked.workers, length_workerIds _, rfl⟩, nodup_workerIds _,
    fun id hid => ?_, fun l' => disjoint_workerIds⟩
  obtain ⟨n, hn, rfl⟩ := mem_workerIds.1 hid
  exact ⟨isBlank_workerId _ n, Nat.le_trans (length_workerId_le hn _) hchecked.room⟩

/-- A file with a number of workers under an instance id of its own. -/
def fleet (name : String) (workers : Nat) : ConfigFile :=
  { plainFile with relay := { RelaySection.default with workers, instanceId := some name } }

theorem load_fleet (name : String) (workers : Nat) (h : Storable workers)
    (hname : Text.isBlank name = false) (hcheck : check (fleet name workers) name = .ok ()) :
    ∃ d', load (host none) ⟨.text (fleet name workers).render, false⟩ =
      .ok (.ofFile (host none) (fleet name workers)
        (rewritten (host none) (fleet name workers)).secret, d') := by
  have hlisten : Net.SocketAddress.parse? plainFile.listen.text = some plainFile.listen := by
    decide +kernel
  have hwritable : (fleet name workers).Writable :=
    { listen := hlisten
      relay := { RelaySection.writable_default with workers := h }
      cleaner := CleanerConfig.writable_default
      broker := writable_internalBroker }
  have hid : instanceId (fleet name workers).relay.instanceId (host none) = name := by
    simp [fleet, instanceId, Option.filter, hname]
  refine ⟨⟨.text (rewritten (host none) (fleet name workers)).render, false⟩, ?_⟩
  rw [load_of_plain rfl (ConfigFile.parse?_render hwritable)
    (show isHashed plainFile.secret = false by decide), hid, hcheck]
  rfl

/-- One instance has the name of another and behind it what looks like the number of a worker. -/
theorem fleets_apart :
    ∃ l d l' d', load (host none) ⟨.text (fleet "relay" 12).render, false⟩ = .ok (l, d) ∧
      load (host none) ⟨.text (fleet "relay-1" 2).render, false⟩ = .ok (l', d') ∧
      "relay-11" ∈ l.workerIds ∧ "relay-1-1" ∈ l'.workerIds ∧
      l.workerIds.Nodup ∧ (∀ id ∈ l.workerIds, Text.isBlank id = false ∧ id.length ≤ 100) ∧
      l.workerIds.Disjoint l'.workerIds := by
  obtain ⟨d, hload⟩ := load_fleet "relay" 12 (by decide) (by decide) rfl
  obtain ⟨d', hload'⟩ := load_fleet "relay-1" 2 (by decide) (by decide) rfl
  obtain ⟨-, hnodup, hfit, hdisjoint⟩ := workerIds_of_load hload
  have hid : ∀ name workers, (Loaded.ofFile (host none) (fleet name workers)
      (rewritten (host none) (fleet name workers)).secret).instanceId =
        instanceId (some name) (host none) := fun _ _ => rfl
  refine ⟨_, d, _, d', hload, hload', ?_, ?_, hnodup, hfit, hdisjoint _ ?_⟩
  · exact mem_workerIds.2 ⟨11, by decide, by decide +kernel⟩
  · exact mem_workerIds.2 ⟨1, by decide, by decide +kernel⟩
  · rw [hid, hid]
    decide +kernel

end Outbox.Config
