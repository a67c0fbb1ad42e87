import Mathlib
import MeshIncidence.Proofs.Numbering.Admitted
import MeshIncidence.Proofs.Resolution.Inverses
import MeshIncidence.Proofs.Resolution.Membership
import MeshIncidence.Proofs.Simplicial.Faces

/-!
What rows found by way of the vertices say, however the cells are split. Within one dimension a row lists
the others with a vertex in common, and that of a vertex the others in its cells. Between two dimensions
it lists every part whose vertices the whole has, be it of whatever cell, as long as parts have vertices.
-/
namespace MeshIncidence

/-- The row of an entity: the others of `n` that are related to it, each once. -/
structure ListsOthers (related : Nat → Nat → Prop) (n e : Nat) (row : List Int) : Prop where
  nodup : row.Nodup
  mem : ∀ x, x ∈ row ↔ ∃ i < n, x = (i : Int) ∧ i ≠ e ∧ related e i

theorem ListsOthers.congr {related other : Nat → Nat → Prop} {n e : Nat} {row : List Int}
    (h : ListsOthers related n e row) (same : ∀ i < n, related e i ↔ other e i) :
    ListsOthers other n e row := by
  refine ⟨h.nodup, fun x => (h.mem x).trans ?_⟩
  exact exists_congr fun i => and_congr_right fun hi => by rw [same i hi]

/-- Whatever is related to nothing has an empty row. -/
theorem ListsOthers.eq_nil {related : Nat → Nat → Prop} {n e : Nat} {row : List Int}
    (h : ListsOthers related n e row) (none : ∀ i, ¬ related e i) : row = [] := by
  refine List.eq_nil_iff_forall_not_mem.mpr fun x hx => ?_
  obtain ⟨i, -, -, -, hi⟩ := (h.mem x).mp hx
  exact none i hi

namespace Mesh

variable {m : Mesh} {s : Store} {d d0 d1 : Int} {r : Incidence}

/-- Neighbours on a way by mutually inverse rows are the others with an entry in common. -/
theorem listsOthers_neighbourRows {onward between found : List (List Int)}
    (inverse : Incidence.Inverse between onward)
    (hf : Derivation.neighbourRows onward between = .ok found) {e : Nat} (he : e < between.length) :
    ListsOthers (fun a b => ∃ x ∈ between.getD a [], x ∈ between.getD b []) between.length e
      (found.getD e []) := by
  refine ⟨Derivation.nodup_neighbourRows hf e, fun x => ?_⟩
  rw [Derivation.getD_neighbourRows inverse hf he, Derivation.mem_neighboursOf inverse he]
  constructor
  · rintro ⟨i, hi, rfl, differ, y, hy, hyi⟩
    exact ⟨i, hi, rfl, differ, y, by simpa [he] using hy, by simpa [hi] using hyi⟩
  · rintro ⟨i, hi, rfl, differ, y, hy, hyi⟩
    exact ⟨i, hi, rfl, differ, y, by simpa [he] using hy, by simpa [hi] using hyi⟩

/-- Entities above the vertices are neighbours at a vertex. -/
theorem listsOthers_above (h : m.relationOf d d = .ok r) (above : d ≠ 0)
    {rows : List (List Int)} (hrows : m.vertexRows d = .ok rows) {e : Nat} (he : e < rows.length) :
    ListsOthers (fun a b => ∃ v ∈ rows.getD a [], v ∈ rows.getD b []) rows.length e
      (r.rows.getD e []) := by
  obtain ⟨rows', found, hrows', inside, -, hf, rfl⟩ := (relationOf_level_eq_ok above).mp h
  rw [hrows] at hrows'
  cases hrows'
  rw [Incidence.rows_ofRows]
  exact listsOthers_neighbourRows (Incidence.inverse_turned inside) hf he

/-- Vertices are neighbours in a cell. -/
theorem listsOthers_vertices (h : m.relationOf 0 0 = .ok r) {v : Nat} (hv : v < m.points) :
    ListsOthers (fun v w => ∃ cell ∈ m.cells, (v : Int) ∈ cell ∧ (w : Int) ∈ cell) m.points v
      (r.rows.getD v []) := by
  obtain ⟨found, inside, -, hf, rfl⟩ := relationOf_vertices_eq_ok.mp h
  have length := Incidence.length_turned m.cells m.points
  have lists := listsOthers_neighbourRows (Incidence.inverse_turned inside).symm hf
    (by rw [length]; exact hv)
  rw [length] at lists
  rw [Incidence.rows_ofRows]
  exact lists.congr fun w hw => exists_mem_turned_iff hv hw

/-- A recorded relation within one dimension is that of sharing. Above the vertices it relates the
entities with a vertex in common, and vertices that have a cell in common. -/
theorem level_relation_shares (accepted : m.Accepted) (reached : m.Reaches s)
    (hr : s.relation? d d = some r) :
    r.rows.length = s.sizeOf d ∧
    (0 < d → ∃ vertices, s.relation? d 0 = some (Incidence.ofRows vertices) ∧
      vertices.length = s.sizeOf d ∧ ∀ e < s.sizeOf d,
        ListsOthers (fun e0 e1 => ∃ v ∈ vertices.getD e0 [], v ∈ vertices.getD e1 [])
          (s.sizeOf d) e (r.rows.getD e [])) ∧
    (d = 0 → ∀ v < s.sizeOf d,
      ListsOthers (fun v w => ∃ cell ∈ m.cells, (v : Int) ∈ cell ∧ (w : Int) ∈ cell)
        (s.sizeOf d) v (r.rows.getD v []) ∧
      ((∀ cell ∈ m.cells, (v : Int) ∉ cell) → r.rows[v]? = some [])) := by
  have faithful := reached.faithful accepted
  have length := length_rows_of_recorded faithful hr
  have hrelation := faithful.relation hr
  obtain ⟨n, -, count, -⟩ := faithful.counted hr
  have size : s.sizeOf d = n := by rw [Store.sizeOf, count, Option.getD_some]
  rw [size] at length ⊢
  refine ⟨length, fun above => ?_, ?_⟩
  · obtain ⟨vertices, hvertices, width, hrecorded⟩ :=
      faithful.vertexRelation ⟨count, (faithful.bare hr).1⟩ (by omega)
    refine ⟨vertices, hrecorded, width, fun e he => ?_⟩
    rw [← width] at he ⊢
    exact listsOthers_above hrelation (by omega) hvertices he
  · rintro rfl v hv
    have points : n = m.points := by
      rw [faithful.bottom] at count
      exact (Option.some.inj count).symm
    rw [points] at hv length ⊢
    have lists := listsOthers_vertices hrelation hv
    refine ⟨lists, fun isolated => ?_⟩
    have empty : r.rows.getD v [] = [] := by
      refine lists.eq_nil ?_
      rintro w ⟨cell, hcell, hin, -⟩
      exact isolated cell hcell hin
    have there : v < r.rows.length := by omega
    rw [List.getElem?_eq_getElem there, ← List.getD_eq_getElem _ [] there, empty]

/-- Two triangles, and a vertex of neither. -/
def solitary : Mesh :=
  ⟨Shape.simplex 2, [[0, 1, 2], [1, 2, 3]], 5,
    ⟨2, [(0, 5), (2, 2)], [((2, 0), Incidence.ofRows [[0, 1, 2], [1, 2, 3]])]⟩⟩

/-- The last vertex has no neighbours, and the second one has three. -/
theorem level_relation_shares_solitary :
    let s := Demand.after solitary.shape solitary.store [.entities 3, .relation 0 0]
    solitary.Accepted ∧ solitary.Reaches s ∧ ∃ r, s.relation? 0 0 = some r ∧
      r.rows.length = s.sizeOf 0 ∧ 1 < s.sizeOf 0 ∧ 4 < s.sizeOf 0 ∧
      ListsOthers (fun v w => ∃ cell ∈ solitary.cells, (v : Int) ∈ cell ∧ (w : Int) ∈ cell)
        (s.sizeOf 0) 1 (r.rows.getD 1 []) ∧
      r.rows.getD 1 [] = [0, 2, 3] ∧ r.rows[4]? = some [] := by
  have accepted : solitary.Accepted :=
    ⟨Registry.builtin, ⟨[2, 3], .word, [0, 1, 2, 1, 2, 3]⟩, .inferred, some 5, rfl, rfl⟩
  have second : ((Demand.after solitary.shape solitary.store [.entities 3, .relation 0 0]).relation?
      0 0).map (fun r => r.rows.getD 1 []) = some [0, 2, 3] := by cbv
  have size : (Demand.after solitary.shape solitary.store [.entities 3, .relation 0 0]).sizeOf 0 =
      5 := by cbv
  intro s
  obtain ⟨r, hr, row⟩ := Option.map_eq_some_iff.mp second
  have reached : solitary.Reaches s := ⟨_, rfl⟩
  obtain ⟨length, -, vertices⟩ := level_relation_shares accepted reached hr
  have there : 1 < s.sizeOf 0 ∧ 4 < s.sizeOf 0 := by rw [size]; decide
  exact ⟨accepted, reached, r, hr, length, there.1, there.2, (vertices rfl 1 there.1).1, row,
    (vertices rfl 4 there.2).2 (by decide)⟩

/-- Rows found through the vertices list all parts that lie within an entity. -/
theorem lists_throughVertices {wholes parts found : List (List Int)} (differ : d0 ≠ d1)
    (inside : ∀ whole ∈ wholes, ∀ v ∈ whole, 0 ≤ v ∧ v < m.points)
    (nonempty : ∀ part ∈ parts, part ≠ []) (hw : m.vertexRows d0 = .ok wholes)
    (hp : m.vertexRows d1 = .ok parts) (h : m.throughVertices d0 d1 = .ok found) :
    List.Forall₂ (Lists parts) wholes found := by
  rw [throughVertices_eq_of_inside inside hw hp h, if_neg differ, List.forall₂_map_right_iff,
    List.forall₂_same]
  intro whole hwhole
  exact ⟨nodup_eraseDups _, fun e => mem_partsOf (inside whole hwhole) nonempty⟩

/-- A recorded relation between two dimensions that lie between vertices and cells is containment. Each
entity has in its row all entities of the lower dimension whose vertices it has, if parts have
vertices. -/
theorem falling_relation_contains (accepted : m.Accepted) (plain : m.shape.Plain)
    (reached : m.Reaches s) (above : 0 < d1) (falling : d1 < d0) (below : d0 < m.dim)
    (filled : ∀ parts, m.shape.template d1 = .ok parts → [] ∉ parts)
    (hr : s.relation? d0 d1 = some r) :
    ∃ wholes parts, s.relation? d0 0 = some (Incidence.ofRows wholes) ∧
      s.relation? d1 0 = some (Incidence.ofRows parts) ∧
      wholes.length = s.sizeOf d0 ∧ parts.length = s.sizeOf d1 ∧
      List.Forall₂ (Lists parts) wholes r.rows := by
  have sound := accepted.sound
  have storable := storable_of_plain sound plain
  have faithful := reached.faithful accepted
  obtain ⟨n0, n1, c0, c1⟩ := faithful.counted hr
  obtain ⟨wholes, hw, width, recorded⟩ := faithful.vertexRelation ⟨c0, storable d0⟩ (by omega)
  obtain ⟨parts, hp, width', recorded'⟩ := faithful.vertexRelation ⟨c1, storable d1⟩ (by omega)
  obtain ⟨template', admits', keys'⟩ := vertexRows_of_plain sound plain (by omega) hp
  have inside : ∀ whole ∈ wholes, ∀ v ∈ whole, 0 ≤ v ∧ v < m.points :=
    inside_of_plain sound plain (by omega) hw
  have nonempty : ∀ part ∈ parts, part ≠ [] := by
    rintro _ hpart rfl
    obtain ⟨cell, -, part, hpart, empty⟩ := keys' _ hpart
    rw [Shape.keyOf_eq_nil_iff.mp empty.symm] at hpart
    exact filled template' admits'.template hpart
  have hrelation := faithful.relation hr
  rw [relationOf_falling (by omega), fallingRows_between (by omega) above] at hrelation
  obtain ⟨found, hf, rfl⟩ := Outcome.map_eq_ok.mp hrelation
  refine ⟨wholes, parts, recorded, recorded', ?_, ?_, ?_⟩
  · rw [width, Store.sizeOf, c0, Option.getD_some]
  · rw [width', Store.sizeOf, c1, Option.getD_some]
  · rw [Incidence.rows_ofRows]
    exact lists_throughVertices (by omega) inside nonempty hw hp hf

/-- Two cells with four vertices, each with one face and one edge. The face of the first cell has the
vertices of the second one's edge. -/
def wedged : Mesh :=
  ⟨Shape.custom "wedged" 3 [[[0], [1], [2], [3]], [[0, 1]], [[1, 2, 3]], [[0, 1, 2, 3]]] none none,
    [[0, 1, 2, 3], [2, 3, 4, 5]], 6,
    ⟨3, [(0, 6), (3, 2)], [((3, 0), Incidence.ofRows [[0, 1, 2, 3], [2, 3, 4, 5]])]⟩⟩

/-- The first face has the edge of a cell that has not the face. -/
theorem falling_relation_contains_wedged :
    let s := Demand.after wedged.shape wedged.store [.relation 2 1]
    wedged.Accepted ∧ wedged.shape.Plain ∧ wedged.Reaches s ∧ (0 : Int) < 1 ∧ (1 : Int) < 2 ∧
      2 < wedged.dim ∧ (∀ parts, wedged.shape.template 1 = .ok parts → [] ∉ parts) ∧
      ∃ r wholes parts, s.relation? 2 1 = some r ∧ s.relation? 2 0 = some (Incidence.ofRows wholes) ∧
        s.relation? 1 0 = some (Incidence.ofRows parts) ∧ wholes.length = s.sizeOf 2 ∧
        parts.length = s.sizeOf 1 ∧ List.Forall₂ (Lists parts) wholes r.rows ∧ r.rows = [[1], []] := by
  have accepted : wedged.Accepted :=
    ⟨Registry.builtin, ⟨[2, 4], .word, [0, 1, 2, 3, 2, 3, 4, 5]⟩, .given wedged.shape, none, rfl, rfl⟩
  have edges : ((Demand.after wedged.shape wedged.store [.relation 2 1]).relation? 2 1).map
      (fun r => r.rows) = some [[1], []] := by cbv
  have filled : ∀ parts, wedged.shape.template 1 = .ok parts → [] ∉ parts := by
    rintro parts ⟨⟩
    decide
  intro s
  obtain ⟨r, hr, rows⟩ := Option.map_eq_some_iff.mp edges
  have plain : wedged.shape.Plain := rfl
  have reached : wedged.Reaches s := ⟨_, rfl⟩
  obtain ⟨wholes, parts, down, down', size, size', lists⟩ := falling_relation_contains accepted
    plain reached (by decide : (0 : Int) < 1) (by decide : (1 : Int) < 2) (by decide) filled hr
  exact ⟨accepted, plain, reached, by decide, by decide, by decide, filled, r, wholes, parts, hr,
    down, down', size, size', lists, rows⟩

end Mesh

end MeshIncidence
