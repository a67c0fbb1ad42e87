import Mathlib
import MeshIncidence.Proofs.Resolution.Tampered

/-!
The footprint of a request for a relation. It may ask for other relations and for the entities of both
dimensions, and it may fail at any of these. Whatever the store holds, nothing is recorded on the way but
the relation and its reverse, what comes with the entities of either dimension, and the entities at the
vertices that these go by.
-/
namespace MeshIncidence

namespace Resolution

variable {shape : Shape} {d0 d1 : Int} {s : Store}

/-- All that a request for (d0, d1) may record, in a mesh whose cells are of dimension `top`. -/
def footprint (top d0 d1 : Int) : List (Int × Int) :=
  [(0, top), (top, top), (top, d0), (d0, 0), (top, d1), (d1, 0), (d0, d1), (d1, d0)] ++
    if 0 < min d0 d1 then [(0, min d0 d1)] else []

/-- The entities at the vertices that a relation goes by are those of the lower dimension, or the cells
where the lower dimension is that of the vertices. -/
theorem relatedPairs_subset_footprint (top : Int) (h0 : 0 ≤ d0) (h1 : 0 ≤ d1) :
    relatedPairs top d0 d1 ⊆ footprint top d0 d1 := by
  have lower : 0 ≤ min d0 d1 := le_min h0 h1
  have star : (0, starOf top (min d0 d1)) ∈ footprint top d0 d1 := by
    by_cases bottom : min d0 d1 = 0
    · rw [starOf, if_pos bottom]
      simp [footprint]
    · rw [starOf, if_neg bottom, footprint, if_pos (by omega)]
      simp
  rw [relatedPairs, derivedPairs, numberedPairs, numberedPairs]
  simp only [List.append_subset, List.cons_subset, List.nil_subset, and_true]
  refine ⟨⟨?_, ?_, star⟩, ⟨?_, ?_, ?_, ?_⟩, ?_, ?_, ?_, ?_⟩ <;> simp [footprint]

/-- Vertices are related by way of the cells at them alone, and no entities are counted for it. -/
theorem frame_corners (h : s.Coherent) :
    s.Frame [] [(0, 0), (0, s.dim)] ((relation shape 0 0).run s).2.store := by
  have corners : Confined [] [(0, 0), (0, starOf s.dim 0)] s (relation shape 0 0 ⟨s, []⟩) :=
    confined_falling (n := 1) h h.whole_bottom h.whole_bottom (lt_irrefl _)
  exact corners.frame

end Resolution

namespace Mesh

variable {m : Mesh} {s : Store} {d0 d1 : Int}

/-- On whatever has been written to the store of an accepted mesh, a request for a relation counts the
entities of its two dimensions at most, and records no relation outside its footprint, whether it
succeeds or fails. If it succeeds, the relation is recorded. Vertices are related without counting
anything. -/
theorem relation_keeps_to_footprint (accepted : m.Accepted) (written : m.store.Written s)
    (c0 : m.Covers d0) (c1 : m.Covers d1) :
    let ended := (Resolution.relation m.shape d0 d1).run s
    let corners := (Resolution.relation m.shape 0 0).run s
    s.Frame [d0, d1] (Resolution.footprint m.dim d0 d1) ended.2.store ∧
      (ended.1 = .ok () → (ended.2.store.relation? d0 d1).isSome) ∧
      s.Frame [] [(0, 0), (0, m.dim)] corners.2.store := by
  intro ended corners
  have coherent := accepted.coherent written
  have dim : s.dim = m.dim := written.grows.dim.trans accepted.sound.dim
  have confined : Confined [d0, d1] (Resolution.relatedPairs s.dim d0 d1) s ended :=
    Resolution.confined_relation coherent
  refine ⟨?_, fun succeeds => ?_, ?_⟩
  · rw [dim] at confined
    exact confined.frame.mono (List.Subset.refl _)
      (Resolution.relatedPairs_subset_footprint m.dim c0.1 c1.1)
  · have holds : ended.2.store.Holds d0 d1 :=
      Resolution.ensures_relationWithin Resolution.nesting ⟨s, []⟩ () ended.2
        (Prod.ext succeeds rfl)
    exact holds.recorded
  · rw [← dim]
    exact Resolution.frame_corners coherent

/-- The triangles at the edges cannot be found, because the strip's store has been tampered with. The
triangles that touch stay recorded, and the edges are not counted. -/
theorem relation_keeps_to_footprint_strip :
    let ended := (Resolution.relation strip.shape 1 2).run tampered
    strip.Accepted ∧ strip.store.Written tampered ∧ strip.Covers 1 ∧ strip.Covers 2 ∧
      ended.1 = .error .entryOutside ∧ (ended.2.store.relation? 2 2).isSome ∧
      ended.2.store.count? 1 = none ∧
      tampered.Frame [1, 2] (Resolution.footprint 2 1 2) ended.2.store ∧
      ended.2.store.relation? 1 1 = none ∧
      tampered.Frame [] [(0, 0), (0, 2)] ((Resolution.relation strip.shape 0 0).run tampered).2.store := by
  have failed : ((Resolution.relation strip.shape 1 2).run tampered).1 = .error .entryOutside := by
    cbv
  have touching : (((Resolution.relation strip.shape 1 2).run tampered).2.store.relation? 2 2).isSome =
      true := by cbv
  have uncounted : ((Resolution.relation strip.shape 1 2).run tampered).2.store.count? 1 = none := by
    cbv
  intro ended
  have c1 : strip.Covers 1 := by decide
  have c2 : strip.Covers 2 := by decide
  obtain ⟨frame, -, corners⟩ := relation_keeps_to_footprint strip_accepted tampered_written c1 c2
  have edges : ended.2.store.relation? 1 1 = none := frame.relation (by decide)
  exact ⟨strip_accepted, tampered_written, c1, c2, failed, touching, uncounted, frame, edges, corners⟩

end Mesh

end MeshIncidence
