import Mathlib
import MeshIncidence.Proofs.Audit.Passing

/-!
Audits of a mesh of which nothing has been asked. All that can be found is that cells have the same
vertices: these are checked one cell at a time when a mesh is made, and are not compared with one another.
-/
namespace MeshIncidence

namespace Mesh

variable {m : Mesh}

/-- Cells refer to vertices that are there. -/
theorem Sound.within_points (sound : m.Sound) : (Incidence.ofRows m.cells).Within m.points := by
  intro v hv
  obtain ⟨cell, hcell, hv⟩ := List.mem_flatten.mp hv
  exact sound.inside_points hcell hv

theorem Sound.bounds_fresh (sound : m.Sound) : Audit.bounds m.store = [] := by
  refine List.filterMap_eq_nil_iff.mpr fun entry hentry => ?_
  have recorded := Store.mem_recordedRelations.mp hentry
  rw [sound.relations] at recorded
  split at recorded
  · rename_i ends
    have points : m.store.sizeOf entry.1.2 = m.points := by
      rw [ends.2, Store.sizeOf, sound.counts, if_pos rfl, Option.getD_some]
    rw [Audit.boundsFinding_eq, points, ← Option.some.inj recorded, if_pos sound.within_points]
  · cases recorded

/-- Before anything is asked, only cells have vertices that could agree. -/
theorem Sound.mem_duplicates_fresh (sound : m.Sound) {d : Int} {i j : Nat} :
    (d, i, j) ∈ Audit.triples (Audit.duplicates m.store) ↔ d = m.dim ∧ FirstAlike m.cells i j := by
  have positive := sound.positive
  rw [Audit.mem_triples_duplicates, sound.dim]
  simp only [sound.relations, and_true]
  constructor
  · rintro ⟨-, -, r, hr, alike⟩
    split at hr
    · rename_i top
      rw [← Option.some.inj hr, Incidence.rows_ofRows] at alike
      exact ⟨top, alike⟩
    · cases hr
  · rintro ⟨rfl, alike⟩
    exact ⟨positive, le_rfl, _, if_pos rfl, by rwa [Incidence.rows_ofRows]⟩

theorem Sound.triples_fresh_eq_nil_iff (sound : m.Sound) :
    Audit.triples (Audit.duplicates m.store) = [] ↔ Different m.cells := by
  rw [← forall_not_firstAlike, List.eq_nil_iff_forall_not_mem]
  constructor
  · intro none i j alike
    exact none (m.dim, i, j) (sound.mem_duplicates_fresh.mpr ⟨rfl, alike⟩)
  · rintro none ⟨d, i, j⟩ shared
    exact none i j (sound.mem_duplicates_fresh.mp shared).2

/-- A mesh that was just made has a report, in which cells with the vertices of an earlier cell are
listed and nothing else. So it is valid exactly if no two cells have the same vertices. -/
theorem fresh_report (accepted : m.Accepted) :
    ∃ report : Report, Audit.report ⟨true, true, true, true⟩ m.store = .ok report ∧
      report.inconsistentDims = some [] ∧ report.outOfBoundsPairs = some [] ∧
      report.nonInversePairs = some [] ∧
      (∃ shared, report.duplicateEntities = some shared ∧
        ∀ d i j, (d, i, j) ∈ shared ↔ d = m.dim ∧ FirstAlike m.cells i j) ∧
      (report.valid = true ↔ Different m.cells) := by
  have sound := accepted.sound
  have faithful := sound.faithful
  have inverse := Audit.inverses_eq_nil fun _ hentry => Audit.inverseFinding_eq_none faithful hentry
  have uncounted : ∀ dim, m.Overflows dim → m.store.count? dim = none := by
    rintro dim ⟨above, below, -⟩
    rw [sound.counts, if_neg above.ne', if_neg below.ne]
  refine ⟨_, Audit.report_eq inverse, ?_⟩
  rw [Audit.consistency_eq_nil faithful uncounted, sound.bounds_fresh]
  refine ⟨rfl, rfl, rfl, ⟨_, rfl, fun d i j => sound.mem_duplicates_fresh⟩, ?_⟩
  rw [Report.valid_iff, sound.triples_fresh_eq_nil_iff]
  exact ⟨fun valid => valid.2.2.1, fun different => ⟨rfl, rfl, different, rfl⟩⟩

/-- A strip has two different triangles. -/
theorem fresh_report_strip :
    strip.Accepted ∧ Different strip.cells ∧
      ∃ report : Report, Audit.report ⟨true, true, true, true⟩ strip.store = .ok report ∧
        report.inconsistentDims = some [] ∧ report.outOfBoundsPairs = some [] ∧
        report.nonInversePairs = some [] ∧
        (∃ shared, report.duplicateEntities = some shared ∧
          ∀ d i j, (d, i, j) ∈ shared ↔ d = strip.dim ∧ FirstAlike strip.cells i j) ∧
        (report.valid = true ↔ Different strip.cells) := by
  have different : Different strip.cells := by
    refine List.pairwise_pair.mpr fun same => ?_
    exact absurd ((same 0).mp (by decide)) (by decide)
  exact ⟨strip_accepted, different, fresh_report strip_accepted⟩

/-- One triangle twice, from different vertices on. -/
def doubled : Mesh :=
  ⟨Shape.simplex 2, [[0, 1, 2], [2, 0, 1]], 3,
    ⟨2, [(0, 3), (2, 2)], [((2, 0), Incidence.ofRows [[0, 1, 2], [2, 0, 1]])]⟩⟩

/-- A mesh may be accepted and not pass its first audit. -/
theorem fresh_report_doubled :
    doubled.Accepted ∧
      ∃ report : Report, Audit.report ⟨true, true, true, true⟩ doubled.store = .ok report ∧
        report.duplicateEntities = some [(2, 0, 1)] ∧ report.valid = false := by
  have accepted : doubled.Accepted :=
    ⟨Registry.builtin, ⟨[2, 3], .word, [0, 1, 2, 2, 0, 1]⟩, .inferred, none, rfl, rfl⟩
  have reported : Audit.report ⟨true, true, true, true⟩ doubled.store =
      .ok ⟨some [], some [], some [(2, 0, 1)], some []⟩ := by cbv
  exact ⟨accepted, _, reported, rfl, rfl⟩

end Mesh

end MeshIncidence
