import Mathlib
import MeshIncidence.Proofs.Incidence.Encoding
import MeshIncidence.Proofs.Incidence.Inversion

/-!
Turning relations round. How often one entity refers to another is read off the rows for any two numbers,
also for those of no entity. A relation turned round says the same with the numbers exchanged, in
ascending order, so that turning it round again gives back every row but for its order.
-/
namespace MeshIncidence.Incidence

/-- How often row `i` refers to `j`. A row that is not there refers to nothing. -/
def multiplicity (rows : List (List Int)) (i j : Int) : Nat :=
  if 0 ≤ i then (rows.getD i.toNat []).count j else 0

theorem multiplicity_natCast (rows : List (List Int)) (i : Nat) (j : Int) :
    multiplicity rows i j = (rows.getD i []).count j := by
  simp [multiplicity]

theorem multiplicity_of_neg (rows : List (List Int)) {i : Int} (h : i < 0) (j : Int) :
    multiplicity rows i j = 0 :=
  if_neg (by omega)

theorem multiplicity_of_length_le {rows : List (List Int)} {i : Nat} (h : rows.length ≤ i) (j : Int) :
    multiplicity rows i j = 0 := by
  simp [multiplicity_natCast, h]

/-- Numbers that no row holds are never referred to. -/
theorem multiplicity_eq_zero {rows : List (List Int)} {j : Int} (h : ∀ row ∈ rows, j ∉ row)
    (i : Int) : multiplicity rows i j = 0 := by
  unfold multiplicity
  split
  · rw [List.count_eq_zero]
    intro hj
    rw [List.getD_eq_getElem?_getD] at hj
    cases found : rows[i.toNat]? with
    | none => simp [found] at hj
    | some row => exact h row (List.mem_of_getElem? found) (by simpa [found] using hj)
  · rfl

/-- Rows turned round refer back as often as they are referred to, whatever the two numbers. -/
theorem multiplicity_turned {rows : List (List Int)} {n : Nat}
    (inside : ∀ row ∈ rows, ∀ e ∈ row, 0 ≤ e ∧ e < n) (i j : Int) :
    multiplicity (turned rows n) j i = multiplicity rows i j := by
  rcases lt_or_ge i 0 with negative | nonneg
  · rw [multiplicity_of_neg rows negative]
    refine multiplicity_eq_zero (fun row hrow hi => ?_) j
    have := (mem_turned hrow hi).1
    omega
  rcases lt_or_ge j 0 with negative | nonneg'
  · rw [multiplicity_of_neg _ negative]
    refine (multiplicity_eq_zero (fun row hrow hj => ?_) i).symm
    have := (inside row hrow j hj).1
    omega
  obtain ⟨a, rfl⟩ := Int.eq_ofNat_of_zero_le nonneg
  obtain ⟨b, rfl⟩ := Int.eq_ofNat_of_zero_le nonneg'
  rw [multiplicity_natCast, multiplicity_natCast, count_turned inside]

/-- Rows turned round twice are the rows, each in ascending order. -/
theorem turned_turned {rows : List (List Int)} {n : Nat}
    (inside : ∀ row ∈ rows, ∀ e ∈ row, 0 ≤ e ∧ e < n) :
    turned (turned rows n) rows.length = rows.map VertexList.ascending := by
  refine List.ext_getElem (by rw [length_turned, List.length_map]) fun i h h' => ?_
  have hi : i < rows.length := by rwa [length_turned] at h
  rw [getElem_turned, List.getElem_map]
  exact VertexList.eq_ascending (pairwise_column _ _)
    (column_turned_perm hi (inside _ (List.getElem_mem hi)))

/-- Turning round is refused for a target that is not there, and for nothing else that is recorded. -/
theorem transpose?_inconsistent_iff {r : Incidence} {n : Int} :
    (∃ cause, r.transpose? n = .error (.inconsistent cause)) ↔ ∃ t ∈ r.targets, t < 0 ∨ n ≤ t := by
  have outside : (r.targets.any fun t => decide (t < 0 ∨ n ≤ t)) = true ↔
      ∃ t ∈ r.targets, t < 0 ∨ n ≤ t := by
    simp only [List.any_eq_true, decide_eq_true_eq]
  rw [← outside]
  unfold transpose?
  constructor
  · rintro ⟨cause, h⟩
    split at h
    · assumption
    -- What else fails is the encoding.
    split at h
    · cases h
    split at h
    · cases h
    dsimp only at h
    cases hr : ofOffsets? (runningTotals 0 (r.targetCounts n.toNat))
        ((r.pairs.mergeSort fun p q => decide (p.2 ≤ q.2)).map Prod.fst) <;> rw [hr] at h <;> cases h
  · intro h
    exact ⟨_, if_pos h⟩

/-- A relation that refers to the first `n` entities alone can be turned round as long as `n` rows can be
laid out. -/
theorem transpose?_of_ascending {r back : Incidence} (ascending : r.Ascending) {n : Nat}
    (within : ∀ t ∈ r.targets, 0 ≤ t ∧ t < n) :
    r.transpose? n = .ok back ↔ (n : Int) + 1 < Word.bound ∧ back = ofRows (turned r.rows n) := by
  obtain ⟨rows, rfl⟩ := exists_rows ascending
  have inside : ∀ row ∈ rows, ∀ t ∈ row, 0 ≤ t ∧ t < n := List.forall_mem_flatten.mp within
  rw [transpose?_ofRows, rows_ofRows, Int.toNat_natCast]
  exact ⟨fun h => h.2.2, fun h => ⟨inside, Int.natCast_nonneg n, h⟩⟩

/-- A relation is refused exactly if it refers to what is not among the first `n` entities. Any other is
turned round onto `n` ascending rows, which refer back exactly as often as they are referred to, as long as
the number of offsets is a word. Turned round once more, it has its rows again, in ascending order. -/
theorem transposition_exact {r : Incidence} (ascending : r.Ascending) (n : Nat) :
    ((∃ cause, r.transpose? n = .error (.inconsistent cause)) ↔
      ∃ t ∈ r.targets, t < 0 ∨ (n : Int) ≤ t) ∧
    ((∀ t ∈ r.targets, 0 ≤ t ∧ t < n) → (n : Int) + 1 < Word.bound →
      ∃ back, r.transpose? n = .ok back ∧ back.rows.length = n ∧ back.Ascending ∧
        (∀ row ∈ back.rows, row.Pairwise (· ≤ ·)) ∧
        (∀ i j : Int, multiplicity back.rows j i = multiplicity r.rows i j) ∧
        ((r.sourceCount : Int) + 1 < Word.bound →
          ∃ again, back.transpose? r.sourceCount = .ok again ∧
            again.rows = r.rows.map VertexList.ascending ∧
            ((∀ row ∈ r.rows, row.Pairwise (· ≤ ·)) → again = r))) := by
  refine ⟨transpose?_inconsistent_iff, fun within small => ?_⟩
  have forth := (transpose?_of_ascending ascending within).mpr ⟨small, rfl⟩
  obtain ⟨rows, rfl⟩ := exists_rows ascending
  have inside : ∀ row ∈ rows, ∀ e ∈ row, 0 ≤ e ∧ e < n := List.forall_mem_flatten.mp within
  rw [rows_ofRows] at forth ⊢
  refine ⟨_, forth, by rw [rows_ofRows, length_turned], ascending_ofRows _, ?_, ?_, fun few => ?_⟩
  · rw [rows_ofRows]
    intro row hrow
    obtain ⟨j, -, rfl⟩ := List.mem_map.mp hrow
    exact pairwise_column rows j
  · rw [rows_ofRows]
    exact multiplicity_turned inside
  · rw [sourceCount_ofRows] at few ⊢
    have again : (ofRows (turned rows n)).transpose? rows.length =
        .ok (ofRows (rows.map VertexList.ascending)) := by
      rw [← turned_turned inside]
      exact transpose?_ofRows.mpr
        ⟨fun row hrow e he => mem_turned hrow he, Int.natCast_nonneg _, few, rfl⟩
    refine ⟨_, again, rows_ofRows _, fun sorted => ?_⟩
    have same : rows.map VertexList.ascending = rows.map id :=
      List.map_congr_left fun row hrow => VertexList.ascending_of_pairwise (sorted row hrow)
    rw [same, List.map_id]

/-- A row with an entry twice, an empty one, and targets to which nothing refers. -/
theorem transposition_exact_ragged :
    let r := ofRows [[2, 0, 2], [], [0]]
    r.Ascending ∧ (∀ t ∈ r.targets, 0 ≤ t ∧ t < (4 : Nat)) ∧ ((4 : Nat) : Int) + 1 < Word.bound ∧
      (r.sourceCount : Int) + 1 < Word.bound ∧
      ∃ back, r.transpose? (4 : Nat) = .ok back ∧ back.rows = [[0, 2], [], [0, 0], []] ∧
        (∀ i j : Int, multiplicity back.rows j i = multiplicity r.rows i j) ∧
        ∃ again, back.transpose? r.sourceCount = .ok again ∧
          again.rows = [[2, 0, 2], [], [0]].map VertexList.ascending := by
  have ascending := ascending_ofRows [[2, 0, 2], [], [0]]
  have within : ∀ t ∈ (ofRows [[2, 0, 2], [], [0]]).targets, 0 ≤ t ∧ t < (4 : Nat) := by decide
  have small : ((4 : Nat) : Int) + 1 < Word.bound := by decide
  have few : ((ofRows [[2, 0, 2], [], [0]]).sourceCount : Int) + 1 < Word.bound := by decide
  obtain ⟨back, forth, -, -, -, counts, turns⟩ := (transposition_exact ascending 4).2 within small
  obtain ⟨again, hagain, rows, -⟩ := turns few
  have computed : (ofRows [[2, 0, 2], [], [0]]).transpose? (4 : Nat) =
      .ok (ofRows [[0, 2], [], [0, 0], []]) := by cbv
  have value : back = ofRows [[0, 2], [], [0, 0], []] :=
    Except.ok.inj (forth.symm.trans computed)
  exact ⟨ascending, within, small, few, back, forth, by rw [value, rows_ofRows], counts, again, hagain,
    rows⟩

end MeshIncidence.Incidence
