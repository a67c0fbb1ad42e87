import Mathlib
import MeshIncidence.Proofs.Resolution.Rows
import MeshIncidence.Proofs.Resolution.Vertices

/-!
Which entities a row lists, told by their vertices. Where the shape splits well, nothing else about the
entities decides it: not the order in which they were numbered, and not the way the row was found.
-/
namespace MeshIncidence

namespace Mesh

variable {m : Mesh} {d d0 d1 : Int} {found : List (List Int)}

/-- An entity, given by its number and its vertices, belongs to the row of another one of a dimension
not lower. Vertices are neighbours in a cell, other entities of one dimension at a vertex; cells have
the parts that the shape splits them into; any other entity has those whose vertices it has. -/
def Incident (m : Mesh) (d0 d1 : Int) (e0 e1 : Nat) (whole part : List Int) : Prop :=
  if d0 = d1 then
    e1 ≠ e0 ∧ if d0 = 0 then ∃ cell ∈ m.cells, (∀ v ∈ whole, v ∈ cell) ∧ ∀ v ∈ part, v ∈ cell
      else ∃ v ∈ whole, v ∈ part
  else if d0 = m.dim ∧ d1 ≠ 0 then
    ∃ parts, m.shape.template d1 = .ok parts ∧ part ∈ Numbering.keysOf parts whole
  else ∀ v ∈ part, v ∈ whole

/-- Vertices are at a common cell where they are of one. -/
theorem exists_mem_turned_iff {i j : Nat} (hi : i < m.points) (hj : j < m.points) :
    (∃ c ∈ (Incidence.turned m.cells m.points).getD i [],
      c ∈ (Incidence.turned m.cells m.points).getD j []) ↔
      ∃ cell ∈ m.cells, (i : Int) ∈ cell ∧ (j : Int) ∈ cell := by
  have star : ∀ {k : Nat}, k < m.points →
      (Incidence.turned m.cells m.points).getD k [] = Incidence.column m.cells k := by
    intro k hk
    simp [Incidence.turned, hk]
  rw [star hi, star hj]
  constructor
  · rintro ⟨c, hci, hcj⟩
    obtain ⟨a, ha, rfl, hia⟩ := Incidence.mem_column.mp hci
    obtain ⟨b, hb, same, hjb⟩ := Incidence.mem_column.mp hcj
    have same : a = b := by omega
    subst same
    exact ⟨m.cells[a], List.getElem_mem ha, hia, hjb⟩
  · rintro ⟨cell, hcell, hin, hjn⟩
    obtain ⟨c, hc, rfl⟩ := List.mem_iff_getElem.mp hcell
    exact ⟨(c : Int), Incidence.mem_column.mpr ⟨c, hc, rfl, hin⟩,
      Incidence.mem_column.mpr ⟨c, hc, rfl, hjn⟩⟩

theorem mem_vertexNeighbours (h : m.vertexNeighbours = .ok found) {i j : Nat}
    (hi : i < m.points) (hj : j < m.points) : (j : Int) ∈ found.getD i [] ↔
      j ≠ i ∧ ∃ cell ∈ m.cells, (i : Int) ∈ cell ∧ (j : Int) ∈ cell := by
  obtain ⟨inside, -, h⟩ := vertexNeighbours_eq_ok.mp h
  rw [Derivation.mem_neighbourRows (Incidence.inverse_turned inside).symm h,
    exists_mem_turned_iff hi hj]

/-- A cell's row lists the numbers of its keys. -/
theorem mem_cellRows {parts rows : List (List Int)} (sound : m.Sound)
    (regular : m.shape.Regular d parts) (above : d ≠ 0) (below : d ≠ m.dim)
    (hp : m.vertexRows d = .ok rows) (h : m.cellRows d = .ok found) {c j : Nat}
    (hc : c < m.cells.length) (hj : j < rows.length) :
    (j : Int) ∈ found.getD c [] ↔ rows[j] ∈ Numbering.keysOf parts m.cells[c] := by
  have hrows := vertexRows_below sound regular below hp
  have nodup : rows.Nodup := hrows ▸ nodup_eraseDups _
  have row : found.getD c [] =
      (Numbering.places rows (Numbering.keysOf parts m.cells[c])).map Int.ofNat := by
    rw [cellRows_below sound regular above h, ← hrows]
    simp [hc]
  rw [row, Numbering.places, List.map_map, List.mem_map]
  constructor
  · rintro ⟨key, hkey, number⟩
    have number : rows.idxOf key = j := Int.ofNat.inj number
    subst number
    rwa [List.getElem_idxOf]
  · intro hkey
    -- No key is numbered twice, so its number leads back to it.
    exact ⟨rows[j], hkey, by simp [nodup.idxOf_getElem]⟩

/-- A row found by way of the vertices lists the neighbours at a vertex, or the parts. -/
theorem mem_throughVertices {wholes parts : List (List Int)} (sound : m.Sound)
    (wellFormed : m.WellFormed) (above : 0 < d1) (falling : d1 ≤ d0) (below : d0 ≤ m.dim)
    (hw : m.vertexRows d0 = .ok wholes) (hp : m.vertexRows d1 = .ok parts)
    (h : m.throughVertices d0 d1 = .ok found) {i j : Nat} (hi : i < wholes.length)
    (hj : j < parts.length) : (j : Int) ∈ found.getD i [] ↔
      if d0 = d1 then j ≠ i ∧ ∃ v ∈ wholes[i], v ∈ parts[j] else ∀ v ∈ parts[j], v ∈ wholes[i] := by
  have inside : ∀ row ∈ wholes, ∀ v ∈ row, 0 ≤ v ∧ v < m.points := fun row hrow v hv =>
    inside_of_entity sound wellFormed (by omega) below hw hrow hv
  -- A part without vertices would lie within every entity, but no way leads to it.
  have nonempty : ∀ row ∈ parts, row ≠ [] := fun row hrow =>
    (vertices_of_entity sound wellFormed above (by omega) hp hrow).1
  have row := throughVertices_eq sound wellFormed above falling below hw hp h
  split
  · rename_i same
    subst same
    rw [hw] at hp
    cases hp
    rw [if_pos rfl] at row
    have entry : found.getD i [] =
        Derivation.neighboursOf (Incidence.turned wholes m.points) wholes[i] i := by
      simp [row, hi]
    rw [entry, Derivation.mem_neighboursOf (Incidence.inverse_turned inside) hi]
    constructor
    · rintro ⟨k, hk, number, differ, v, hv, hvk⟩
      have number : j = k := by omega
      subst number
      exact ⟨differ, v, hv, hvk⟩
    · rintro ⟨differ, v, hv, hvk⟩
      exact ⟨j, hj, rfl, differ, v, hv, hvk⟩
  · rename_i differ
    rw [if_neg differ] at row
    have entry : found.getD i [] =
        Derivation.partsOf (Incidence.turned parts m.points) parts wholes[i] wholes[i] := by
      simp [row, hi]
    rw [entry, mem_partsOf (inside _ (List.getElem_mem hi)) nonempty]
    constructor
    · rintro ⟨k, hk, number, within⟩
      have number : j = k := by omega
      subst number
      exact within
    · exact fun within => ⟨j, hj, rfl, within⟩

/-- A row that does not rise in dimension lists the entities that are incident. -/
theorem mem_fallingRows {wholes parts : List (List Int)} (sound : m.Sound)
    (wellFormed : m.WellFormed) (nonneg : 0 ≤ d1) (falling : d1 ≤ d0) (below : d0 ≤ m.dim)
    (hw : m.faces d0 = .ok wholes) (hp : m.faces d1 = .ok parts)
    (h : m.fallingRows d0 d1 = .ok found) {i j : Nat} (hi : i < wholes.length)
    (hj : j < parts.length) :
    (j : Int) ∈ found.getD i [] ↔ m.Incident d0 d1 i j wholes[i] parts[j] := by
  unfold fallingRows at h
  by_cases bottom : d1 = 0
  · rw [faces, if_pos bottom] at hp
    cases hp
    simp only [List.length_map, List.length_range] at hj
    rw [if_pos bottom] at h
    by_cases vertices : d0 = 0
    · rw [faces, if_pos vertices] at hw
      cases hw
      simp only [List.length_map, List.length_range] at hi
      rw [if_pos vertices] at h
      rw [mem_vertexNeighbours h hi hj]
      simp [Incident, bottom, vertices]
    · rw [faces, if_neg vertices] at hw
      rw [if_neg vertices, hw] at h
      cases h
      simp [Incident, bottom, vertices, hi]
  · have positive : 0 < d0 := by omega
    rw [faces, if_neg bottom] at hp
    rw [faces, if_neg (by omega)] at hw
    rw [if_neg bottom] at h
    by_cases cells : d0 = m.dim ∧ d1 ≠ m.dim
    · obtain ⟨template, regular⟩ := wellFormed d1 (by omega) (by omega)
      rw [vertexRows, if_pos cells.1] at hw
      cases hw
      rw [if_pos cells] at h
      have differ : d0 ≠ d1 := fun same => cells.2 (same ▸ cells.1)
      rw [mem_cellRows sound regular bottom cells.2 hp h hi hj, Incident, if_neg differ,
        if_pos ⟨cells.1, bottom⟩, regular.template]
      simp
    · rw [if_neg cells] at h
      rw [mem_throughVertices sound wellFormed (by omega) falling below hw hp h hi hj]
      by_cases same : d0 = d1
      · simp [Incident, same, bottom]
      · have other : ¬ (d0 = m.dim ∧ d1 ≠ 0) := fun top =>
          cells ⟨top.1, fun whole => same (top.1.trans whole.symm)⟩
        rw [Incident, if_neg same, if_neg same, if_neg other]

/-- A row lists the entities that are incident; a relation that rises in dimension, those to which the
entity is. -/
theorem mem_relationOf {v0 v1 : List (List Int)} (sound : m.Sound) (wellFormed : m.WellFormed)
    {r : Incidence} (h : m.relationOf d0 d1 = .ok r) (c0 : m.countOf d0 = .ok v0.length)
    (c1 : m.countOf d1 = .ok v1.length) (h0 : m.faces d0 = .ok v0) (h1 : m.faces d1 = .ok v1)
    {i j : Nat} (hi : i < v0.length) (hj : j < v1.length) : (j : Int) ∈ r.rows.getD i [] ↔
      if d0 < d1 then m.Incident d1 d0 j i v1[j] v0[i] else m.Incident d0 d1 i j v0[i] v1[j] := by
  have covers0 := covers_of_countOf c0
  have covers1 := covers_of_countOf c1
  by_cases rising : d0 < d1
  · obtain ⟨found, n, hfound, -, inside, -, rfl⟩ := (relationOf_rising_eq_ok rising).mp h
    rw [if_pos rising, Incidence.rows_ofRows, ← (Incidence.inverse_turned inside).mem j i]
    exact mem_fallingRows sound wellFormed covers0.1 (by omega) covers1.2 h1 h0 hfound hj hi
  · rw [relationOf_falling rising] at h
    obtain ⟨found, hfound, rfl⟩ := Outcome.map_eq_ok.mp h
    rw [if_neg rising, Incidence.rows_ofRows]
    exact mem_fallingRows sound wellFormed covers1.1 (by omega) covers0.2 h0 h1 hfound hi hj

end Mesh

end MeshIncidence
