import Mathlib
import MeshIncidence.Proofs.Mesh.Touching

/-!
Cells that are appended. The rows of cells at the vertices get longer, and cells touch more cells than
before, but what comes before a given cell among the cells that an earlier one touches stays the same, in
the same order.
-/
namespace MeshIncidence

namespace Incidence

/-- The entries of a row below `n`. -/
def below (n : Nat) (row : List Int) : List Int := row.filter fun e => decide (e < n)

theorem below_below {c n : Nat} (h : c ≤ n) (row : List Int) : below c (below n row) = below c row := by
  rw [below, below, List.filter_filter]
  refine List.filter_congr fun e _ => ?_
  rw [Bool.eq_iff_iff]
  simp only [decide_eq_true_eq, Bool.and_eq_true]
  omega

theorem below_append (n : Nat) (a b : List Int) : below n (a ++ b) = below n a ++ below n b :=
  List.filter_append ..

theorem below_eq_self {n : Nat} {row : List Int} (h : ∀ e ∈ row, e < n) : below n row = row :=
  List.filter_eq_self.mpr fun e he => by simpa using h e he

theorem below_eq_nil {n : Nat} {row : List Int} (h : ∀ e ∈ row, n ≤ e) : below n row = [] :=
  List.filter_eq_nil_iff.mpr fun e he => by simpa using h e he

theorem labelled_append (k : Nat) (rows more : List (List Int)) :
    labelled k (rows ++ more) = labelled k rows ++ labelled (k + rows.length) more := by
  induction rows generalizing k with
  | nil => rfl
  | cons row rows ih =>
    have next : k + 1 + rows.length = k + (rows.length + 1) := by omega
    rw [List.cons_append, labelled, labelled, ih, List.append_assoc, List.length_cons, next]

/-- The sources of a target among the first rows. -/
theorem below_column_append (rows more : List (List Int)) (target : Int) :
    below rows.length (column (rows ++ more) target) = column rows target := by
  have split : column (rows ++ more) target = column rows target ++
      ((labelled rows.length more).filter fun p => p.2 == target).map Prod.fst := by
    rw [column, labelled_append, List.filter_append, List.map_append, Nat.zero_add]
    rfl
  rw [split, below_append, below_eq_self, below_eq_nil, List.append_nil]
  · intro e he
    obtain ⟨p, hp, rfl⟩ := List.mem_map.mp he
    obtain ⟨i, -, source, -⟩ := mem_labelled.mp (List.mem_filter.mp hp).1
    omega
  · intro e he
    obtain ⟨i, hi, rfl, -⟩ := mem_column.mp he
    omega

end Incidence

/-- Neighbours below `n` are neighbours through rows below `n`. -/
theorem Derivation.below_neighboursOf {onward onward' : List (List Int)} {between : List Int}
    {e n : Nat} (rows : ∀ v ∈ between, Incidence.below n (rowAt onward' v) = rowAt onward v) :
    Incidence.below n (neighboursOf onward' between e) = neighboursOf onward between e := by
  have reached : Incidence.below n (between.flatMap (rowAt onward')) =
      between.flatMap (rowAt onward) := by
    rw [Incidence.below, List.filter_flatMap]
    exact List.flatMap_congr rows
  rw [neighboursOf, Incidence.below, filter_eraseDups, List.filter_comm, ← Incidence.below, reached,
    neighboursOf]

namespace Mesh

variable {m other : Mesh} {touching touching' : List (List Int)} {more : List (List Int)}

/-- Among the cells that a cell touches, the old ones are those that it touched before, in the same
order. -/
theorem below_touching (appended : other.cells = m.cells ++ more) (ht : m.touching = .ok touching)
    (ht' : other.touching = .ok touching') {c : Nat} (hc : c < m.cells.length) :
    Incidence.below m.cells.length (touching'.getD c []) = touching.getD c [] := by
  obtain ⟨inside, -, -⟩ := touching_eq_ok.mp ht
  obtain ⟨inside', -, -⟩ := touching_eq_ok.mp ht'
  have hc' : c < other.cells.length := by
    rw [appended, List.length_append]
    omega
  have same : other.cells[c] = m.cells[c] := by
    simp only [appended, List.getElem_append_left hc]
  have row : touching.getD c [] =
      Derivation.neighboursOf (Incidence.turned m.cells m.points) m.cells[c] c := by
    simp [touching_eq ht, hc]
  have row' : touching'.getD c [] =
      Derivation.neighboursOf (Incidence.turned other.cells other.points) other.cells[c] c := by
    simp [touching_eq ht', hc']
  rw [row, row', same]
  refine Derivation.below_neighboursOf fun v hv => ?_
  have old := inside m.cells[c] (List.getElem_mem hc) v hv
  have new := inside' other.cells[c] (List.getElem_mem hc') v (same ▸ hv)
  rw [Incidence.rowAt_turned old, Incidence.rowAt_turned new, appended, Incidence.below_column_append]

end Mesh

end MeshIncidence
