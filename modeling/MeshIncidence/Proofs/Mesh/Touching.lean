import Mathlib
import MeshIncidence.Proofs.Derivation.Neighbours
import MeshIncidence.Proofs.Mesh.Accepted
import MeshIncidence.Proofs.Resolution.Ways

/-!
Cells that touch. Going from a cell to its vertices and on to the cells at them meets every cell with a
vertex in common, so the relation between the cells is complete.
-/
namespace MeshIncidence

namespace Incidence

theorem mem_rowAt_turned {rows : List (List Int)} {n : Nat} {v e : Int} (h0 : 0 ≤ v) (h1 : v < n) :
    e ∈ Derivation.rowAt (turned rows n) v ↔
      ∃ i, ∃ h : i < rows.length, e = (i : Int) ∧ v ∈ rows[i] := by
  rw [rowAt_turned ⟨h0, h1⟩, mem_column]

end Incidence

namespace Mesh

variable {m : Mesh} {touching : List (List Int)}

theorem Sound.inside_points (h : m.Sound) {cell : List Int} (hcell : cell ∈ m.cells) {v : Int}
    (hv : v ∈ cell) : 0 ≤ v ∧ v < m.points := by
  have := h.inside cell hcell v hv
  have hp : (m.points : Int) = m.pointCount := Int.toNat_of_nonneg h.points
  omega

theorem Sound.points_small (h : m.Sound) (small : m.pointCount + 1 < Word.bound) :
    (m.points : Int) + 1 < Word.bound := by
  have hp : (m.points : Int) = m.pointCount := Int.toNat_of_nonneg h.points
  omega

/-- The cells at the vertices can be found where there are not too many vertices. -/
theorem Sound.touching_exists (h : m.Sound) (small : m.pointCount + 1 < Word.bound) :
    ∃ touching, m.touching = .ok touching := by
  have inside : ∀ cell ∈ m.cells, ∀ v ∈ cell, 0 ≤ v ∧ v < m.points :=
    fun cell hcell v hv => h.inside_points hcell hv
  exact ⟨_, touching_eq_ok.mpr ⟨inside, h.points_small small,
    Derivation.neighbourRows_eq (Incidence.inverse_turned inside).inside⟩⟩

theorem touching_eq (ht : m.touching = .ok touching) :
    touching = m.cells.zipIdx.map fun entry =>
      Derivation.neighboursOf (Incidence.turned m.cells m.points) entry.1 entry.2 := by
  obtain ⟨inside, -, ht⟩ := touching_eq_ok.mp ht
  rw [Derivation.neighbourRows_eq (Incidence.inverse_turned inside).inside] at ht
  exact (Except.ok.inj ht).symm

theorem length_touching (ht : m.touching = .ok touching) : touching.length = m.cells.length := by
  rw [touching_eq ht, List.length_map, List.length_zipIdx]

/-- Cells touch exactly where they have a vertex in common. -/
theorem mem_touching (ht : m.touching = .ok touching) {c : Nat} (hc : c < m.cells.length)
    (hc' : c < touching.length) {e : Int} :
    e ∈ touching[c] ↔ ∃ i, ∃ hi : i < m.cells.length, e = (i : Int) ∧ i ≠ c ∧
      ∃ v ∈ m.cells[c], v ∈ m.cells[i] := by
  obtain ⟨inside, -, -⟩ := touching_eq_ok.mp ht
  simp only [touching_eq ht, List.getElem_map, List.getElem_zipIdx, Nat.zero_add]
  exact Derivation.mem_neighboursOf (Incidence.inverse_turned inside) hc

theorem natCast_mem_touching (ht : m.touching = .ok touching) {c i : Nat} (hc : c < m.cells.length)
    (hc' : c < touching.length) (hi : i < m.cells.length) :
    (i : Int) ∈ touching[c] ↔ i ≠ c ∧ ∃ v ∈ m.cells[c], v ∈ m.cells[i] := by
  rw [mem_touching ht hc hc']
  constructor
  · rintro ⟨j, hj, same, differ, shared⟩
    have same : i = j := by omega
    subst same
    exact ⟨differ, shared⟩
  · rintro ⟨differ, shared⟩
    exact ⟨i, hi, rfl, differ, shared⟩

theorem nonneg_of_mem_touching (ht : m.touching = .ok touching) {row : List Int}
    (hrow : row ∈ touching) {e : Int} (he : e ∈ row) : 0 ≤ e := by
  obtain ⟨c, hc, rfl⟩ := List.mem_iff_getElem.mp hrow
  obtain ⟨i, -, rfl, -⟩ := (mem_touching ht (by rw [← length_touching ht]; exact hc) hc).mp he
  exact Int.natCast_nonneg i

end Mesh

end MeshIncidence
