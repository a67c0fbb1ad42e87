import Mathlib
import MeshIncidence.Proofs.Simplicial.Faces

/-!
Incidence in a mesh of simplices is containment. An entity is in the row of another one exactly where
its vertices are among the other one's, in either direction, and a row lists one part for each subset
of the vertices.
-/
namespace MeshIncidence

namespace Mesh

variable {m : Mesh} {D d0 d1 : Int} {s : Store}

/-- In a mesh of simplices, an entity is in the row of another one exactly where it is contained in
it, whichever of the two relations is read, and the row has one entry for each subset of vertices. -/
theorem incidence_eq_containment (accepted : m.Accepted) (simplicial : m.shape = Shape.simplex D)
    (reached : m.Reaches s) (nonneg : 0 ≤ d1) (falling : d1 < d0) (below : d0 ≤ D)
    {down up : Incidence} (hdown : s.relation? d0 d1 = some down)
    (hup : s.relation? d1 d0 = some up) {e0 e1 : Nat} (h0 : e0 < s.sizeOf d0)
    (h1 : e1 < s.sizeOf d1) :
    ∃ row column whole part,
      down.row e0 = .ok row ∧ up.row e1 = .ok column ∧
      (((⟨d0, e0⟩ : Entity).vertices m.shape).run s).1 = .ok whole ∧
      (((⟨d1, e1⟩ : Entity).vertices m.shape).run s).1 = .ok part ∧
      ((e1 : Int) ∈ row ↔ (e0 : Int) ∈ column) ∧
      ((e1 : Int) ∈ row ↔ VertexList.subsetOf part whole = true) ∧
      row.length = (d0 + 1).toNat.choose (d1 + 1).toNat ∧
      ∀ vertices : Finset Int, vertices ⊆ whole.toFinset → vertices.card = (d1 + 1).toNat →
        ∃! e : Nat, (e : Int) ∈ row ∧
          ∃ found, (((⟨d1, e⟩ : Entity).vertices m.shape).run s).1 = .ok found ∧
            found.toFinset = vertices := by
  have sound := accepted.sound
  have faithful := reached.faithful accepted
  have hdim := dim_of_simplex simplicial
  have storable := storable_of_wellFormed sound (wellFormed_of_simplex simplicial)
  obtain ⟨n0, n1, c0, c1⟩ := faithful.counted hdown
  rw [Store.sizeOf, c0, Option.getD_some] at h0
  rw [Store.sizeOf, c1, Option.getD_some] at h1
  obtain ⟨found, hfound, rfl, rfl, -, small⟩ := rows_of_recorded faithful falling hdown hup c1
  obtain ⟨wholes, hw, rfl⟩ := vertexRows_of_countOf (faithful.count c0) (by omega)
  obtain ⟨faces, hp, rfl⟩ := exists_faces (faithful.count c1)
  have hwfaces : m.faces d0 = .ok wholes := by rw [Mesh.faces, if_neg (by omega), hw]
  have lists := lists_fallingRows sound simplicial nonneg falling below hw hp hfound
  have hlen : e0 < found.length := lists.length_eq ▸ h0
  have hrow : Lists faces wholes[e0] found[e0] := (List.forall₂_iff_get.mp lists).2 e0 _ _
  have hturned : e1 < (Incidence.turned found faces.length).length := by
    rw [Incidence.length_turned]
    exact h1
  have part_of := fun {e} (he : e < faces.length) =>
    vertices_of_numbered faithful ⟨c1, storable d1⟩ small hp he
  obtain ⟨-, -, cell, hcell, within⟩ :=
    vertices_of_entity sound (wellFormed_of_simplex simplicial) (by omega) (by omega) hw
      (List.getElem_mem h0)
  refine ⟨found[e0], (Incidence.turned found faces.length)[e1], wholes[e0], faces[e1],
    Incidence.row_ofRows hlen, Incidence.row_ofRows hturned,
    vertices_eq_face faithful ⟨c0, storable d0⟩ hwfaces h0 (fun zero => by omega), part_of h1,
    (Incidence.mem_getElem_turned hlen hturned).symm, ?_, ?_, ?_⟩
  · rw [hrow.mem_natCast h1, VertexList.subsetOf_iff]
  · rw [length_of_lists sound simplicial nonneg (by omega) hp hcell within hrow,
      (card_of_face sound simplicial (by omega) below hwfaces (List.getElem_mem _)).2]
  · intro vertices sub size
    obtain ⟨e, ⟨hin, he, hface⟩, unique⟩ :=
      existsUnique_listed sound simplicial nonneg (by omega) hp hcell within hrow sub size
    refine ⟨e, ⟨hin, faces[e], part_of he, hface⟩, ?_⟩
    rintro e' ⟨hin', found', hfound', hset⟩
    have he' := hrow.lt_of_mem hin'
    rw [part_of he'] at hfound'
    cases hfound'
    exact unique e' ⟨hin', he', hset⟩

/-- The triangles and edges of a strip, once the triangles at its edges have been asked for. -/
theorem incidence_eq_containment_strip :
    let s := Demand.after strip.shape strip.store [.relation 1 2]
    strip.Accepted ∧ strip.shape = Shape.simplex 2 ∧ strip.Reaches s ∧
      0 < s.sizeOf 2 ∧ 3 < s.sizeOf 1 ∧
      ∃ down up row column whole part,
        s.relation? 2 1 = some down ∧ s.relation? 1 2 = some up ∧
        down.row 0 = .ok row ∧ up.row 3 = .ok column ∧
        (((⟨2, 0⟩ : Entity).vertices strip.shape).run s).1 = .ok whole ∧
        (((⟨1, 3⟩ : Entity).vertices strip.shape).run s).1 = .ok part ∧
        ((3 : Int) ∈ row ↔ (0 : Int) ∈ column) ∧
        ((3 : Int) ∈ row ↔ VertexList.subsetOf part whole = true) ∧ row.length = 3 := by
  have triangles : (Demand.after strip.shape strip.store [.relation 1 2]).sizeOf 2 = 2 := by cbv
  have edges : (Demand.after strip.shape strip.store [.relation 1 2]).sizeOf 1 = 5 := by cbv
  have down : ((Demand.after strip.shape strip.store [.relation 1 2]).relation? 2 1).isSome = true := by
    cbv
  have up : ((Demand.after strip.shape strip.store [.relation 1 2]).relation? 1 2).isSome = true := by
    cbv
  intro s
  obtain ⟨down, hdown⟩ := Option.isSome_iff_exists.mp down
  obtain ⟨up, hup⟩ := Option.isSome_iff_exists.mp up
  have reached : strip.Reaches s := ⟨_, rfl⟩
  have first : 0 < s.sizeOf 2 := by rw [triangles]; decide
  have fourth : 3 < s.sizeOf 1 := by rw [edges]; decide
  obtain ⟨row, column, whole, part, hrow, hcolumn, hwhole, hpart, same, contained, length, -⟩ :=
    incidence_eq_containment strip_accepted rfl reached (by decide) (by decide) (by decide) hdown hup
      first fourth
  exact ⟨strip_accepted, rfl, reached, first, fourth, down, up, row, column, whole, part, hdown, hup,
    hrow, hcolumn, hwhole, hpart, same, contained, length⟩

end Mesh

end MeshIncidence
