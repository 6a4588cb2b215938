import Outbox.Proofs.Cleaner.Batches

/-!
# Purges that fail half way

Any batch of a purge may fail. What the batches before it did is one thing, however many there were:
they removed the outdated rows that were published first. So the next purge only has to go on from
there.
-/

namespace Outbox

open Cleaner (Purge)
open Scenario (World)

namespace Scenario.World
variable {w : World}

/-- Whichever batches of a purge fail, it has removed outdated rows and no others, those published
first; if it ended well or for a lock it says how many. A purge without faults, whatever the size
of its batches, then comes to what it would have come to at once. -/
theorem purge_interrupted (hd : w.table.Distinct) (threshold : Instant) :
    ∃ r w', w.purge threshold = (.ok r, w') ∧
      (∀ n, r = .ok n ∨ r = .error (.lockTimeout n) → (w.table.missing w'.table).length = n) ∧
      (∀ e ∈ w.table.missing w'.table, e.PublishedBefore threshold ∧
        ∀ x ∈ w'.table, x.PublishedBefore threshold →
          ∀ time ∈ e.publishedAt, ∀ time' ∈ x.publishedAt, time ≤ time') ∧
      w'.table.Sublist w.table ∧
      ∀ later once : World, later.table = w'.table → once.table = w.table →
        (∀ f ∈ later.faults .deletePublished, f = none) →
        (∀ f ∈ once.faults .deletePublished, f = none) →
        ∃ n n' v v', later.purge threshold = (.ok (.ok n), v) ∧
          once.purge threshold = (.ok (.ok n'), v') ∧ v.table = v'.table := by
  obtain ⟨r, w', h⟩ := exists_purgeEnds (.ofConfig w.cleaner.value threshold) hd 0
  have hpurged : w.table.PurgedTo threshold w'.table := h.purgedTo
  refine ⟨r, w', h.run, fun n => h.length_missing hd, fun e he => ⟨?_, ?_⟩, hpurged.sublist, ?_⟩
  · simpa [Table.isOutdated_eq_decide] using hpurged.outdated e he
  · intro x hx hout time htime time' htime'
    have hfirst := hpurged.first e he x hx (by simpa [Table.isOutdated_eq_decide] using hout)
    rw [Option.mem_def] at htime htime'
    simpa [Table.publishedBefore, htime, htime'] using hfirst
  · intro later once hlater honce hf hf'
    have hd' : w'.table.Distinct := hd.sublist (hpurged.sublist.map _)
    rw [← hlater] at hd'
    rw [← honce] at hd
    obtain ⟨r, v, hv⟩ := exists_purgeEnds (.ofConfig later.cleaner.value threshold) hd' 0
    obtain ⟨r', v', hv'⟩ := exists_purgeEnds (.ofConfig once.cleaner.value threshold) hd 0
    obtain ⟨n, rfl⟩ := hv.faultless hf
    obtain ⟨n', rfl⟩ := hv'.faultless hf'
    refine ⟨n, n', v, v', hv.run, hv'.run, ?_⟩
    rw [hv.table_eq hd', hv'.table_eq hd, hlater, honce]
    exact hpurged.filter_eq (honce ▸ hd)

/-- Batches of one row, of which the second does not get its lock. -/
def jammed : World :=
  { overdue with
    cleaner := .new { CleanerConfig.default with batchSize := 1 }
    faults := fun m => if m = .deletePublished then [none, some .lockTimeout] else [] }

theorem purge_jammed :
    jammed.table.Distinct ∧
    ∃ w', jammed.purge 20 = (.ok (.error (.lockTimeout 1)), w') ∧
      (jammed.table.missing w'.table).length = 1 ∧
      ∃ n n' v v', (ofTable w'.table 0).purge 20 = (.ok (.ok n), v) ∧
        overdue.purge 20 = (.ok (.ok n'), v') ∧ v.table = v'.table := by
  have hd : jammed.table.Distinct := by unfold Table.Distinct; decide
  obtain ⟨r, w', h, hcount, -, -, hlater⟩ := purge_interrupted hd 20
  obtain rfl : r = .error (.lockTimeout 1) := by
    let p : Purge := .ofConfig jammed.cleaner.value 20
    let w₁ := (jammed.perform p.call).2
    have hfirst : jammed.perform p.call = (.ok (.ok 1), w₁) := by
      have hone : (jammed.table.deletePublishedBefore 20 p.batch).1 = 1 := by
        rw [Table.deletePublishedBefore_fst]
        decide
      rw [← hone]
      rfl
    have hsecond : w₁.perform p.call = (.ok (.error .lockTimeout), (w₁.perform p.call).2) := rfl
    have hrest : w₁.runPurge p 1 =
        (.ok (.error (.lockTimeout 1)), (w₁.perform p.call).2) := by
      rw [runPurge_perform, hsecond]
      rfl
    have hrun : jammed.purge 20 = w₁.runPurge p 1 := by
      rw [purge, runPurge_perform, hfirst]
      rfl
    rw [hrun, hrest] at h
    cases h
    rfl
  have hnone : ∀ w : World, w.faults = (fun _ => []) →
      ∀ f ∈ w.faults .deletePublished, f = none := by
    intro w hw f hf
    rw [hw] at hf
    exact absurd hf List.not_mem_nil
  exact ⟨hd, w', h, hcount 1 (.inr rfl),
    hlater (ofTable w'.table 0) overdue rfl rfl (hnone _ rfl) (hnone _ rfl)⟩

end Scenario.World
end Outbox
