import Mathlib
import MeshIncidence.Proofs.Mesh.Accepted

/-!
Meshes of other cells. Cells that an accepted mesh could have had, each of the right length and with
different vertices that are all there, are accepted with the same shape and the same number of vertices.
-/
namespace MeshIncidence

namespace CellArray

/-- Rows of one width laid out one after the other are cut out again. -/
theorem rows_flatten (element : Element) {cells : List (List Int)} {width : Nat}
    (length : ∀ cell ∈ cells, cell.length = width) :
    rows ⟨[cells.length, width], element, cells.flatten⟩ cells.length width = cells := by
  induction cells with
  | nil => simp [rows]
  | cons cell cells ih =>
    have first : cell.length = width := length cell (by simp)
    have later := ih fun c hc => length c (by simp [hc])
    simp only [rows] at later
    simp only [rows, List.length_cons, List.range_succ_eq_map, List.map_cons, List.map_map,
      List.flatten_cons]
    congr 1
    · simp [← first]
    -- Every later row starts one width further on.
    · conv_rhs => rw [← later]
      apply List.map_congr_left
      intro i _
      simp only [Function.comp_apply, Nat.succ_eq_add_one, Nat.add_mul, Nat.one_mul]
      rw [Nat.add_comm, ← List.drop_drop]
      simp [← first]

theorem full_flatten (element : Element) {cells : List (List Int)} {width : Nat}
    (length : ∀ cell ∈ cells, cell.length = width) :
    Full ⟨[cells.length, width], element, cells.flatten⟩ := by
  induction cells with
  | nil => simp [Full, volume]
  | cons cell cells ih =>
    have later := ih fun c hc => length c (by simp [hc])
    simp only [Full, volume_eq_prod, List.prod_cons, List.prod_nil, mul_one] at later ⊢
    simp [later, length cell (by simp), Nat.add_mul, Nat.add_comm]

end CellArray

namespace Mesh

variable {m : Mesh} {cells : List (List Int)}

/-- The mesh of other cells, with the same shape and as many vertices. -/
def withCells (m : Mesh) (cells : List (List Int)) : Mesh :=
  ⟨m.shape, cells, m.pointCount,
    ⟨m.dim, [(0, m.points), (m.dim, cells.length)], [((m.dim, 0), Incidence.ofRows cells)]⟩⟩

/-- What is asked of the cells of a mesh. -/
structure Suits (m : Mesh) (cells : List (List Int)) : Prop where
  width : ∀ k, m.shape.vertexCount = .ok k → ∀ cell ∈ cells, cell.length = k
  inside : ∀ cell ∈ cells, ∀ v ∈ cell, 0 ≤ v ∧ v < m.pointCount
  nodup : ∀ cell ∈ cells, cell.Nodup

theorem Sound.suits (h : m.Sound) : m.Suits m.cells where
  width := by
    intro k hk cell hcell
    obtain ⟨n, hn, -, width⟩ := h.width
    rw [hk] at hn
    cases hn
    exact width cell hcell
  inside := h.inside
  nodup := h.nodup

/-- A mesh of cells that suit an accepted one is accepted. -/
theorem Sound.accepted_withCells (sound : m.Sound) (suits : m.Suits cells) :
    (m.withCells cells).Accepted := by
  obtain ⟨k, hk, positive, -⟩ := sound.width
  have width := suits.width k hk
  have admissible : Admissible Registry.builtin k cells (.given m.shape) (some m.pointCount)
      m.shape m.pointCount := {
    chosen := .given m.shape
    dim := sound.positive
    vertices := hk
    wide := positive
    counted := .given m.pointCount
    nonneg := sound.points
    inside := suits.inside
    nodup := suits.nodup }
  refine ⟨Registry.builtin, ⟨[cells.length, k], .word, cells.flatten⟩, .given m.shape,
    some m.pointCount, CellArray.full_flatten _ width, ofArray_eq_ok.mpr ⟨_, _, rfl, rfl, ?_⟩⟩
  rw [CellArray.rows_flatten _ width]
  exact (build_eq_ok width).mpr ⟨_, _, admissible, rfl⟩

end Mesh

end MeshIncidence
