import Mathlib
import MeshIncidence.Numbering
import MeshIncidence.Proofs.Outcome

/-!
What a numbering does when it succeeds: which templates are expected of cells, what a visit to a cell
checks before its parts are placed, and the rows that are left when all cells were visited.
-/
namespace MeshIncidence.Numbering

variable {shape : Shape} {e : Expected} {n k : Numbering}

/-- A template is expected of cells if it has parts and all of them lie within a cell. -/
theorem expected_eq_ok {dim : Int} :
    expected shape dim = .ok e ↔ ∃ first others n, shape.template dim = .ok (first :: others) ∧
      shape.vertexCount = .ok n ∧ (∀ part ∈ first :: others, ∀ i ∈ part, 0 ≤ i ∧ i < n) ∧
      e = ⟨dim, (first :: others).length, first.length⟩ := by
  have inside : ∀ (parts : List (List Int)) (n : Nat),
      (parts.find? fun part => part.any fun i => decide (i < 0 ∨ (n : Int) ≤ i)) = none ↔
        ∀ part ∈ parts, ∀ i ∈ part, 0 ≤ i ∧ i < n := by
    intro parts n
    simp only [List.find?_eq_none, List.any_eq_true, decide_eq_true_eq, not_exists, not_and, not_or,
      not_lt, not_le]
  simp only [expected, Outcome.bind_eq_ok, Outcome.mapError_eq_ok]
  constructor
  · rintro ⟨parts, template, h⟩
    cases parts with
    | nil => cases h
    | cons first others =>
      obtain ⟨n, corners, h⟩ := Outcome.bind_eq_ok.mp h
      split at h
      · cases h
      rename_i none
      cases h
      exact ⟨first, others, n, template, Outcome.mapError_eq_ok.mp corners, (inside _ n).mp none, rfl⟩
  · rintro ⟨first, others, n, template, corners, places, rfl⟩
    refine ⟨first :: others, template, ?_⟩
    dsimp only
    rw [corners, Outcome.mapError_ok, Outcome.ok_bind, (inside _ n).mpr places]

/-- A part is placed if it has as many vertices as expected. -/
theorem placeChecked_eq_ok {cell : Nat} {touching part : List Int} :
    placeChecked shape e cell touching n part = .ok k ↔
      part.length = e.partVertices ∧ n.place cell touching part = .ok k := by
  unfold placeChecked
  split
  · rename_i width
    simp [width]
  · rename_i width
    simp [Decidable.not_not.mp width]

/-- A cell is numbered if it splits into as many parts as expected and each of them is placed. -/
theorem visit_eq_ok {cell : (List Int × List Int) × Nat} :
    visit shape e n cell = .ok k ↔
      ∃ parts, shape.split cell.1.1 e.dim = .ok parts ∧ parts.length = e.parts ∧
        parts.foldlM (placeChecked shape e cell.2 cell.1.2) n = .ok k := by
  simp only [visit, Outcome.bind_eq_ok, Outcome.mapError_eq_ok]
  refine exists_congr fun parts => and_congr_right fun _ => ?_
  split
  · rename_i number
    simp [number]
  · rename_i number
    simp [Decidable.not_not.mp number]

theorem length_cellEntities_place {cell : Nat} {touching part : List Int}
    (h : n.place cell touching part = .ok k) :
    k.cellEntities.length = n.cellEntities.length := by
  obtain ⟨found, -, h⟩ := Outcome.bind_eq_ok.mp h
  cases found <;> cases h <;> simp [assign, extend]

theorem length_cellEntities_visit {cell : (List Int × List Int) × Nat}
    (h : visit shape e n cell = .ok k) : k.cellEntities.length = n.cellEntities.length := by
  obtain ⟨parts, -, -, h⟩ := visit_eq_ok.mp h
  refine Outcome.foldlM_preserves (P := fun k => k.cellEntities.length = n.cellEntities.length)
    (fun part _ j j' hj hstep => ?_) rfl h
  rw [length_cellEntities_place (placeChecked_eq_ok.mp hstep).2, hj]

/-- Every cell has a row in a finished numbering. -/
theorem length_cellRows {cells touching : List (List Int)}
    (h : ofCells shape e cells touching = .ok n) : n.cellRows.length = cells.length := by
  rw [cellRows, List.length_map]
  refine Outcome.foldlM_preserves (P := fun k => k.cellEntities.length = cells.length)
    (fun cell _ j j' hj hstep => ?_) (by simp [initial]) h
  rw [length_cellEntities_visit hstep, hj]

end MeshIncidence.Numbering
