import Mathlib
import MeshIncidence.Proofs.Derivation.Neighbours
import MeshIncidence.Proofs.Resolution.Laziness
import MeshIncidence.Proofs.Resolution.Rows

/-!
Relations are mutual inverses in every store that requests lead to, however the shape splits cells. One of
two dimensions that differ was turned round from the other one; within one dimension, rows are those of
neighbours, and these are mutual. Entries count as often as they occur.
-/
namespace MeshIncidence

namespace Mesh

variable {m : Mesh} {s : Store} {d d0 d1 : Int} {r q : Incidence}

/-- Within one dimension, rows are those of neighbours on a way by mutually inverse rows. -/
theorem neighbourRows_of_relationOf (h : m.relationOf d d = .ok r) :
    ∃ onward between found, Incidence.Inverse between onward ∧
      Derivation.neighbourRows onward between = .ok found ∧ r = Incidence.ofRows found := by
  -- Vertices are neighbours by way of the cells, anything else by way of the vertices.
  by_cases bottom : d = 0
  · subst bottom
    obtain ⟨found, inside, -, hf, rfl⟩ := relationOf_vertices_eq_ok.mp h
    exact ⟨_, _, found, (Incidence.inverse_turned inside).symm, hf, rfl⟩
  · obtain ⟨rows, found, -, inside, -, hf, rfl⟩ := (relationOf_level_eq_ok bottom).mp h
    exact ⟨_, _, found, Incidence.inverse_turned inside, hf, rfl⟩

theorem length_rows_of_recorded (faithful : Faithful m s) (hr : s.relation? d0 d1 = some r) :
    r.rows.length = s.sizeOf d0 := by
  obtain ⟨n0, n1, c0, c1⟩ := faithful.counted hr
  have covers := covers_of_countOf (faithful.count c1)
  rw [Incidence.length_rows, Store.sizeOf, c0, Option.getD_some]
  exact sourceCount_relationOf (faithful.count c0) covers.1 (faithful.relation hr)

/-- A relation to a higher dimension refers back as often as it is referred to. -/
theorem count_of_falling (faithful : Faithful m s) (falling : d1 < d0)
    (hr : s.relation? d0 d1 = some r) (hq : s.relation? d1 d0 = some q) (e0 e1 : Nat) :
    (r.rows.getD e0 []).count (e1 : Int) = (q.rows.getD e1 []).count (e0 : Int) := by
  obtain ⟨-, n, -, c1⟩ := faithful.counted hr
  obtain ⟨found, -, rfl, rfl, inside, -⟩ := rows_of_recorded faithful falling hr hq c1
  rw [Incidence.rows_ofRows, Incidence.rows_ofRows, Incidence.count_turned inside]

theorem count_of_level (faithful : Faithful m s) (hr : s.relation? d d = some r) (e0 e1 : Nat) :
    (r.rows.getD e0 []).count (e1 : Int) = (r.rows.getD e1 []).count (e0 : Int) := by
  obtain ⟨onward, between, found, inverse, hf, rfl⟩ :=
    neighbourRows_of_relationOf (faithful.relation hr)
  rw [Incidence.rows_ofRows]
  exact Derivation.count_neighbourRows inverse hf e0 e1

/-- Two relations that are recorded between the same dimensions, one in each direction, have a row for
each entity, and one refers to an entity as often as the other one refers back. -/
theorem recorded_mutually_inverse (accepted : m.Accepted) (reached : m.Reaches s)
    (hr : s.relation? d0 d1 = some r) (hq : s.relation? d1 d0 = some q) :
    r.rows.length = s.sizeOf d0 ∧ q.rows.length = s.sizeOf d1 ∧
      ∀ e0 e1 : Nat,
        (r.rows.getD e0 []).count (e1 : Int) = (q.rows.getD e1 []).count (e0 : Int) := by
  have faithful := reached.faithful accepted
  refine ⟨length_rows_of_recorded faithful hr, length_rows_of_recorded faithful hq,
    fun e0 e1 => ?_⟩
  rcases lt_trichotomy d0 d1 with rising | rfl | falling
  · exact (count_of_falling faithful rising hq hr e1 e0).symm
  · rw [hr] at hq
    cases hq
    exact count_of_level faithful hr e0 e1
  · exact count_of_falling faithful falling hr hq e0 e1

/-- Two triangles of a shape whose first edge has one vertex twice. -/
def pinched : Mesh :=
  ⟨Shape.custom "pinched" 2 [[[0], [1], [2]], [[0, 0], [1, 2]], [[0, 1, 2]]] none none,
    [[0, 1, 2], [1, 2, 3]], 4,
    ⟨2, [(0, 4), (2, 2)], [((2, 0), Incidence.ofRows [[0, 1, 2], [1, 2, 3]])]⟩⟩

/-- The first edge of a pinched triangle has its vertex twice, and the vertex has the edge twice. -/
theorem recorded_mutually_inverse_pinched :
    let s := Demand.after pinched.shape pinched.store [.entities 3, .relation 0 1]
    pinched.Accepted ∧ pinched.Reaches s ∧
      ∃ r q, s.relation? 0 1 = some r ∧ s.relation? 1 0 = some q ∧
        r.rows.length = s.sizeOf 0 ∧ q.rows.length = s.sizeOf 1 ∧
        (∀ e0 e1 : Nat,
          (r.rows.getD e0 []).count (e1 : Int) = (q.rows.getD e1 []).count (e0 : Int)) ∧
        (r.rows.getD 0 []).count 0 = 2 := by
  have accepted : pinched.Accepted :=
    ⟨Registry.builtin, ⟨[2, 3], .word, [0, 1, 2, 1, 2, 3]⟩, .given pinched.shape, none, rfl, rfl⟩
  have twice : ((Demand.after pinched.shape pinched.store [.entities 3, .relation 0 1]).relation?
      0 1).map (fun r => (r.rows.getD 0 []).count 0) = some 2 := by cbv
  have down : ((Demand.after pinched.shape pinched.store [.entities 3, .relation 0 1]).relation?
      1 0).isSome = true := by cbv
  intro s
  obtain ⟨r, hr, two⟩ := Option.map_eq_some_iff.mp twice
  obtain ⟨q, hq⟩ := Option.isSome_iff_exists.mp down
  have reached : pinched.Reaches s := ⟨_, rfl⟩
  obtain ⟨sources, targets, counts⟩ := recorded_mutually_inverse accepted reached hr hq
  exact ⟨accepted, reached, r, q, hr, hq, sources, targets, counts, two⟩

end Mesh

end MeshIncidence
