import Mathlib
import MeshIncidence.Proofs.Mesh.Replacement
import MeshIncidence.Proofs.Mesh.Touching
import MeshIncidence.Proofs.Relabelling.Rows
import MeshIncidence.Proofs.Resolution.Ways

/-!
Meshes whose vertices have other names. The cells touch as before, so entities get the same numbers and
cells have the same parts. The vertices of entities are renamed, and rows that were gathered by way of
the vertices list the same entities.
-/
namespace MeshIncidence

namespace Mesh

variable {m : Mesh} {d d0 d1 : Int} {rename : Int → Int} {rows : List (List Int)}

/-- The mesh with other names for its vertices. -/
def renamed (m : Mesh) (rename : Int → Int) : Mesh :=
  m.withCells (m.cells.map (List.map rename))

@[simp] theorem shape_renamed : (m.renamed rename).shape = m.shape := rfl

@[simp] theorem dim_renamed : (m.renamed rename).dim = m.dim := rfl

@[simp] theorem points_renamed : (m.renamed rename).points = m.points := rfl

@[simp] theorem covers_renamed : (m.renamed rename).Covers d ↔ m.Covers d := Iff.rfl

@[simp] theorem cells_renamed : (m.renamed rename).cells = m.cells.map (List.map rename) := rfl

theorem suits_renamed (sound : m.Sound) (renames : Renames m.points rename) :
    m.Suits (m.renamed rename).cells := by
  have suits := sound.suits
  have points : (m.points : Int) = m.pointCount := Int.toNat_of_nonneg sound.points
  refine ⟨fun k hk cell hcell => ?_, fun cell hcell v hv => ?_, fun cell hcell => ?_⟩
  · obtain ⟨old, hold, rfl⟩ := List.mem_map.mp hcell
    simpa using suits.width k hk old hold
  · obtain ⟨old, hold, rfl⟩ := List.mem_map.mp hcell
    obtain ⟨u, hu, rfl⟩ := List.mem_map.mp hv
    have := suits.inside old hold u hu
    rw [← points] at this ⊢
    exact (renames.inside u).mpr this
  · obtain ⟨old, hold, rfl⟩ := List.mem_map.mp hcell
    exact (suits.nodup old hold).map renames.injective

theorem accepted_renamed (sound : m.Sound) (renames : Renames m.points rename) :
    (m.renamed rename).Accepted :=
  sound.accepted_withCells (suits_renamed sound renames)

/-- The neighbours of a vertex are met through the cells at it. -/
theorem rows_vertexNeighbours {found : List (List Int)}
    (h : m.vertexNeighbours = .ok found) : found.length = m.points ∧
      ∀ v, v < m.points → found.getD v [] =
        Derivation.neighboursOf m.cells (Incidence.column m.cells v) v := by
  obtain ⟨inside, -, h⟩ := vertexNeighbours_eq_ok.mp h
  rw [Derivation.neighbourRows_eq (Incidence.inverse_turned inside).back] at h
  rw [← Except.ok.inj h]
  exact ⟨by simp [Incidence.length_turned], fun v hv => by simp [Incidence.turned, hv]⟩

/-- A vertex has the same neighbours in the same order, by their new names. -/
theorem vertexNeighbours_renamed (renames : Renames m.points rename) {found : List (List Int)}
    (h : m.vertexNeighbours = .ok found) :
    ∃ found', (m.renamed rename).vertexNeighbours = .ok found' ∧ found'.length = found.length ∧
      ∀ v k : Nat, v < m.points → (k : Int) = rename v →
        found'.getD k [] = (found.getD v []).map rename := by
  have cells : RowsRenamed rename m.cells (m.renamed rename).cells := .of_map rename m.cells
  obtain ⟨inside, small, -⟩ := vertexNeighbours_eq_ok.mp h
  have inside' := cells.inside renames inside
  have h' := vertexNeighbours_eq_ok.mpr ⟨inside', small,
    Derivation.neighbourRows_eq (Incidence.inverse_turned inside').back⟩
  obtain ⟨length, row⟩ := rows_vertexNeighbours h
  obtain ⟨length', row'⟩ := rows_vertexNeighbours h'
  refine ⟨_, h', by rw [length', length, points_renamed], fun v k hv name => ?_⟩
  have hk : k < m.points := by
    have := (renames.inside v).mpr ⟨by omega, by omega⟩
    omega
  rw [row v hv, row' k hk, name, cells.column_eq renames.injective]
  exact Derivation.neighboursOf_names renames.injective m.cells _ name

section Renames

variable (sound : m.Sound) (renames : Renames m.points rename)

include sound renames

/-- The cells touch as before. -/
theorem touching_renamed : (m.renamed rename).touching = m.touching := by
  have inside : ∀ cell ∈ m.cells, ∀ v ∈ cell, 0 ≤ v ∧ v < m.points :=
    fun cell hcell v hv => sound.inside_points hcell hv
  have cells : RowsRenamed rename m.cells (m.renamed rename).cells := .of_map rename m.cells
  have inside' := cells.inside renames inside
  -- Outcomes are compared, not only rows: too many vertices is the same failure for both meshes.
  rw [touching, touching, points_renamed, Incidence.transpose?_of_inside (Int.natCast_nonneg _) inside,
    Incidence.transpose?_of_inside (Int.natCast_nonneg _) inside']
  split
  · rfl
  split
  · rfl
  · simp only [Outcome.ok_bind, Incidence.rows_ofRows, Int.toNat_natCast]
    rw [Derivation.neighbourRows_eq (Incidence.inverse_turned inside).inside,
      Derivation.neighbourRows_eq (Incidence.inverse_turned inside').inside, cells_renamed,
      List.zipIdx_map, List.map_map]
    congr 1
    refine List.map_congr_left fun entry hentry => ?_
    refine Derivation.neighboursOf_renamed (fun v hv => cells.rowAt_turned renames ?_) entry.2
    exact inside entry.1 (List.fst_mem_of_mem_zipIdx hentry) v hv

variable (plain : m.shape.Plain)

include plain

/-- Entities get the same numbers, and their vertices the new names. -/
theorem numbering_renamed :
    (m.renamed rename).numbering d = (m.numbering d).map (Numbering.renamed rename) := by
  rw [numbering, touching_renamed sound renames, numbering, shape_renamed, cells_renamed]
  cases m.touching with
  | error e => rfl
  | ok touching =>
    cases Numbering.expected m.shape d with
    | error e => rfl
    | ok e => exact Numbering.ofCells_renamed plain renames.injective e m.cells touching

theorem countOf_renamed : (m.renamed rename).countOf d = m.countOf d := by
  simp only [countOf, covers_renamed, dim_renamed, points_renamed, cells_renamed, List.length_map,
    numbering_renamed sound renames plain]
  cases m.numbering d <;> simp

theorem cellRows_renamed (above : d ≠ 0) : (m.renamed rename).cellRows d = m.cellRows d := by
  simp only [cellRows, above, if_false, numbering_renamed sound renames plain]
  cases m.numbering d <;> simp

theorem vertexRows_renamed (below : d ≠ m.dim) : (m.renamed rename).vertexRows d =
    (m.vertexRows d).map (List.map (VertexList.renamed rename)) := by
  simp only [vertexRows, dim_renamed, below, if_false, numbering_renamed sound renames plain]
  cases m.numbering d <;> rfl

theorem exists_rowsRenamed (h : m.vertexRows d = .ok rows) :
    ∃ rows', (m.renamed rename).vertexRows d = .ok rows' ∧ RowsRenamed rename rows rows' := by
  by_cases top : d = m.dim
  · rw [vertexRows, if_pos top] at h
    cases h
    exact ⟨_, if_pos top, .of_map rename m.cells⟩
  · rw [vertexRows_renamed sound renames plain top, h, Outcome.map_ok]
    exact ⟨_, rfl, .of_renamed rename rows⟩

/-- Rows of a cell's entities above the vertices, and of its neighbours, stay. -/
theorem fallingRows_renamed (above : 0 < d) :
    (m.renamed rename).fallingRows m.dim d = m.fallingRows m.dim d := by
  have positive := sound.positive
  have hd : d ≠ 0 := by omega
  by_cases top : d = m.dim
  · subst top
    rw [fallingRows_cells positive, ← touching_renamed sound renames]
    exact fallingRows_cells (m := m.renamed rename) positive
  · simp only [fallingRows, hd, dim_renamed, top, if_false, ne_eq, not_false_eq_true, and_self, if_true]
    exact cellRows_renamed sound renames plain hd

/-- Between dimensions that lie between the vertices and the cells, rows list the same entities. -/
theorem throughVertices_renamed (falling : d1 ≤ d0) (below : d0 < m.dim)
    {wholes found : List (List Int)} (hw : m.vertexRows d0 = .ok wholes)
    (inside : ∀ row ∈ wholes, ∀ v ∈ row, 0 ≤ v ∧ v < m.points)
    (h : m.throughVertices d0 d1 = .ok found) :
    ∃ found', (m.renamed rename).throughVertices d0 d1 = .ok found' ∧
      List.Forall₂ List.Perm found found' := by
  obtain ⟨wholes', parts, hw', hp, parts_inside, small, h⟩ := throughVertices_eq_ok.mp h
  rw [hw] at hw'
  cases hw'
  have names : RowsRenamed rename parts (parts.map (VertexList.renamed rename)) :=
    .of_renamed rename parts
  -- All that a way through the vertices uses: under its new name, a vertex has the same parts.
  have agree : ∀ whole ∈ wholes, ∀ v ∈ whole,
      Derivation.rowAt (Incidence.turned (parts.map (VertexList.renamed rename)) m.points) (rename v) =
        Derivation.rowAt (Incidence.turned parts m.points) v :=
    fun whole hwhole v hv => names.rowAt_turned renames (inside whole hwhole v hv)
  have inside' := (RowsRenamed.of_renamed rename wholes).inside renames inside
  have stars_inside : ∀ {rows wholes : List (List Int)},
      (∀ row ∈ wholes, ∀ v ∈ row, 0 ≤ v ∧ v < m.points) → ∀ row ∈ wholes, ∀ v ∈ row,
        0 ≤ v ∧ v < (Incidence.turned rows m.points).length := by
    intro rows wholes inside
    simpa only [Incidence.length_turned] using inside
  have hw' : (m.renamed rename).vertexRows d0 = .ok (wholes.map (VertexList.renamed rename)) := by
    rw [vertexRows_renamed sound renames plain (ne_of_lt below), hw, Outcome.map_ok]
  have hp' : (m.renamed rename).vertexRows d1 = .ok (parts.map (VertexList.renamed rename)) := by
    rw [vertexRows_renamed sound renames plain (by omega), hp, Outcome.map_ok]
  have parts_inside' := names.inside renames parts_inside
  by_cases same : d0 = d1
  · rw [if_pos same, Derivation.neighbourRows_eq (stars_inside inside)] at h
    rw [← Except.ok.inj h]
    exact ⟨_, throughVertices_eq_ok.mpr ⟨_, _, hw', hp', parts_inside', small,
      (if_pos same).trans (Derivation.neighbourRows_eq (stars_inside inside'))⟩,
      Derivation.neighbourRows_perm agree⟩
  · rw [if_neg same, Derivation.partRows_self_eq (stars_inside inside)
      fun row hrow e he => Incidence.mem_turned hrow he] at h
    rw [← Except.ok.inj h]
    exact ⟨_, throughVertices_eq_ok.mpr ⟨_, _, hw', hp', parts_inside', small,
      (if_neg same).trans (Derivation.partRows_self_eq (stars_inside inside')
        fun row hrow e he => Incidence.mem_turned hrow he)⟩,
      Derivation.partRows_perm renames.injective agree⟩

end Renames

end Mesh

end MeshIncidence
