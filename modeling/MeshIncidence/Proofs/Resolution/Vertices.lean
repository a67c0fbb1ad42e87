import Mathlib
import MeshIncidence.Proofs.Incidence.Encoding
import MeshIncidence.Proofs.Resolution.Determined

/-!
The vertices of entities. A vertex is its own, and any other entity has those that its relation to the
vertices lists. Asking an entity for its vertices on a faithful store reads them off.
-/
namespace MeshIncidence

namespace Mesh

variable {m : Mesh} {d : Int} {rows : List (List Int)} {s : Store}

/-- The vertices of every entity of a dimension. A vertex is its own. -/
def faces (m : Mesh) (d : Int) : Except Fault (List (List Int)) :=
  if d = 0 then .ok ((List.range m.points).map fun v : Nat => [(v : Int)]) else m.vertexRows d

/-- The entities that are counted are the faces. -/
theorem exists_faces {n : Nat} (hc : m.countOf d = .ok n) :
    ∃ rows, m.faces d = .ok rows ∧ rows.length = n := by
  unfold faces
  split
  · rename_i zero
    subst zero
    refine ⟨_, rfl, ?_⟩
    rw [List.length_map, List.length_range, eq_points_of_countOf hc]
  · rename_i above
    exact vertexRows_of_countOf hc above

theorem countOf_of_faces (covers : m.Covers d) (h : m.faces d = .ok rows) :
    m.countOf d = .ok rows.length := by
  unfold faces at h
  unfold countOf
  rw [if_pos covers]
  split at h
  · rename_i zero
    cases h
    simp [zero]
  · rename_i above
    rw [if_neg above]
    unfold vertexRows at h
    split at h
    · rename_i top
      cases h
      rw [if_pos top]
    · rename_i below
      obtain ⟨k, hk, rfl⟩ := Outcome.map_eq_ok.mp h
      rw [if_neg below, hk]
      rfl

/-- The vertices of an entity are those of its face. The number of a vertex has to be a word. -/
theorem vertices_eq_face (faithful : Faithful m s) {n : Nat} (full : m.Full s d n)
    (h : m.faces d = .ok rows) {i : Nat} (hi : i < rows.length)
    (word : d = 0 → Word.fits i = true) :
    (((⟨d, i⟩ : Entity).vertices m.shape).run s).1 = .ok rows[i] := by
  have count := faithful.count full.count
  have settles := Entity.determined_vertices ⟨d, i⟩ ⟨s, []⟩ faithful (m.knows_counted s)
  apply settles.outcome.trans
  unfold faces at h
  split at h
  · rename_i zero
    cases h
    rw [if_pos zero, Entity.itself, if_pos (word zero)]
    simp
  · rename_i above
    have covers := covers_of_countOf count
    rw [if_neg above, answerOf_of_fine full.fine not_overflows_zero count
      (faithful.count faithful.bottom),
      relationOf_zero (by have := covers.1; omega), h, Outcome.map_ok, Outcome.ok_bind,
      Incidence.row_ofRows hi]
    rfl

/-- Where a relation to the entities was turned round, their numbers are words. -/
theorem vertices_of_numbered (faithful : Faithful m s) {n : Nat} (full : m.Full s d n)
    (small : (n : Int) + 1 < Word.bound) (h : m.faces d = .ok rows) {i : Nat} (hi : i < rows.length) :
    (((⟨d, i⟩ : Entity).vertices m.shape).run s).1 = .ok rows[i] := by
  refine vertices_eq_face faithful full h hi fun _ => ?_
  obtain ⟨found, hfound, length⟩ := exists_faces (faithful.count full.count)
  rw [h] at hfound
  cases hfound
  have positive : 0 < Word.bound := by decide
  rw [Word.fits, decide_eq_true_eq]
  constructor <;> omega

end Mesh

end MeshIncidence
