import Mathlib
import MeshIncidence.Incidence.Build

/-!
Pairs of a relation that is laid out row after row. A target's source is found by halving the
offsets; the search ends at the number of offsets that do not exceed the target's place, which is
the number of rows begun so far. So the pairs are the rows with their numbers, in stored order.
-/
namespace MeshIncidence.Incidence

/-- The pairs of rows numbered from `k` on. -/
def labelled (k : Nat) : List (List Int) → List (Int × Int)
  | [] => []
  | row :: rows => row.map (fun t => ((k : Int), t)) ++ labelled (k + 1) rows

theorem getD_le_getD {xs : List Int} (h : xs.Pairwise (· ≤ ·)) {i j : Nat} (hij : i ≤ j)
    (hj : j < xs.length) : xs.getD i 0 ≤ xs.getD j 0 := by
  have hi : i < xs.length := by omega
  rw [List.getD_eq_getElem _ _ hi, List.getD_eq_getElem _ _ hj]
  rcases Nat.lt_or_eq_of_le hij with lt | rfl
  · exact List.pairwise_iff_getElem.mp h i j hi hj lt
  · exact Int.le_refl _

/-- The search keeps entries up to `x` before `lo` and greater ones from `hi` on. -/
theorem firstAbove_splits {xs : List Int} {x : Int} (h : xs.Pairwise (· ≤ ·)) (lo hi : Nat)
    (hlo : lo ≤ hi) (hhi : hi ≤ xs.length) (below : ∀ i < lo, xs.getD i 0 ≤ x)
    (above : ∀ i < xs.length, hi ≤ i → x < xs.getD i 0) :
    firstAbove xs x lo hi ≤ xs.length ∧
      (∀ i < firstAbove xs x lo hi, xs.getD i 0 ≤ x) ∧
      ∀ i < xs.length, firstAbove xs x lo hi ≤ i → x < xs.getD i 0 := by
  fun_induction firstAbove xs x lo hi with
  | case1 lo hi lt middle le ih =>
    have hm : middle < hi := by omega
    refine ih (by omega) hhi (fun i hi' => ?_) above
    exact (getD_le_getD h (by omega) (by omega)).trans le
  | case2 lo hi lt middle gt ih =>
    refine ih (by omega) (by omega) below fun i hi' hm => ?_
    exact (Int.not_le.mp gt).trans_le (getD_le_getD h hm hi')
  | case3 lo hi stop =>
    have : lo = hi := by omega
    subst this
    exact ⟨hhi, below, above⟩

theorem firstAbove_eq_countP {xs : List Int} (h : xs.Pairwise (· ≤ ·)) (x : Int) :
    firstAbove xs x 0 xs.length = xs.countP fun y => decide (y ≤ x) := by
  obtain ⟨hk, below, above⟩ := firstAbove_splits (x := x) h 0 xs.length (Nat.zero_le _) le_rfl
    (fun i hi => absurd hi (Nat.not_lt_zero i)) (fun i hi hl => absurd hi (Nat.not_lt.mpr hl))
  generalize firstAbove xs x 0 xs.length = k at *
  have front : (xs.take k).countP (fun y => decide (y ≤ x)) = (xs.take k).length := by
    rw [List.countP_eq_length]
    intro y hy
    obtain ⟨i, hi, rfl⟩ := List.mem_iff_getElem.mp hy
    have hi' : i < k ∧ i < xs.length := by simpa using hi
    have := below i hi'.1
    rw [List.getD_eq_getElem _ _ hi'.2] at this
    simpa using this
  have back : (xs.drop k).countP (fun y => decide (y ≤ x)) = 0 := by
    rw [List.countP_eq_zero]
    intro y hy
    obtain ⟨i, hi, rfl⟩ := List.mem_iff_getElem.mp hy
    have hi' : k + i < xs.length := by rw [List.length_drop] at hi; omega
    have := above (k + i) hi' (by omega)
    rw [List.getD_eq_getElem _ _ hi'] at this
    simpa using this
  calc k = (xs.take k).length := by simp [List.length_take, Nat.min_eq_left hk]
    _ = xs.countP fun y => decide (y ≤ x) := by
      conv_rhs => rw [← List.take_append_drop k xs, List.countP_append, front, back, Nat.add_zero]

/-- Places before the first total are below all totals. -/
theorem countP_runningTotals_eq_zero {s place : Int} (ns : List Nat) (h : place < s) :
    (runningTotals s ns).countP (fun y => decide (y ≤ place)) = 0 := by
  rw [List.countP_eq_zero]
  intro y hy
  have := le_of_mem_runningTotals hy
  simp only [decide_eq_true_eq]
  omega

/-- With `k` rows and `start` targets before them, rows are labelled from `k` on. -/
theorem map_zipIdx_flatten (k start : Nat) (rows : List (List Int)) :
    (rows.flatten.zipIdx start).map (fun entry =>
      ((k : Int) + (runningTotals start (rows.map List.length)).countP
        (fun y => decide (y ≤ (entry.2 : Int))) - 1, entry.1)) = labelled k rows := by
  induction rows generalizing k start with
  | nil => simp [labelled]
  | cons row rows ih =>
    rw [List.flatten_cons, List.zipIdx_append, List.map_append, labelled,
      ← ih (k + 1) (start + row.length)]
    congr 1
    · conv_rhs => rw [← List.zipIdx_map_fst start row, List.map_map]
      refine List.map_congr_left fun entry hentry => ?_
      obtain ⟨hlo, hhi, -⟩ := List.mem_zipIdx hentry
      have before : (entry.2 : Int) < (start : Int) + row.length := by omega
      have hz := countP_runningTotals_eq_zero (rows.map List.length) before
      simp only [List.map_cons, runningTotals, List.countP_cons, hz, Function.comp_apply]
      have : (start : Int) ≤ entry.2 := by omega
      simp [this]
    · refine List.map_congr_left fun entry hentry => ?_
      obtain ⟨hlo, -, -⟩ := List.mem_zipIdx hentry
      have : (start : Int) ≤ entry.2 := by omega
      simp only [List.map_cons, runningTotals, List.countP_cons, this, decide_true, if_true,
        Nat.cast_add, Nat.cast_one]
      congr 1
      omega

theorem pairs_ofRows (rows : List (List Int)) : (ofRows rows).pairs = labelled 0 rows := by
  rw [← map_zipIdx_flatten 0 0 rows]
  refine List.map_congr_left fun entry _ => ?_
  have := firstAbove_eq_countP (ascending_ofRows rows) entry.2
  simp only [sourceAt, this, Nat.cast_zero, zero_add]
  rfl

theorem mem_labelled {k : Nat} {rows : List (List Int)} {p : Int × Int} :
    p ∈ labelled k rows ↔ ∃ i, ∃ h : i < rows.length, p.1 = ((k + i : Nat) : Int) ∧ p.2 ∈ rows[i] := by
  induction rows generalizing k with
  | nil => simp [labelled]
  | cons row rows ih =>
    simp only [labelled, List.mem_append, List.mem_map, ih]
    constructor
    · rintro (⟨t, ht, rfl⟩ | ⟨i, hi, h1, h2⟩)
      · exact ⟨0, by simp, by simp, by simpa using ht⟩
      · exact ⟨i + 1, by simpa using hi, by rw [h1]; congr 1; omega, by simpa using h2⟩
    · intro h
      rcases h with ⟨i, hi, h1, h2⟩
      cases i with
      | zero => exact Or.inl ⟨p.2, by simpa using h2, Prod.ext (by simpa using h1.symm) rfl⟩
      | succ i =>
        exact Or.inr ⟨i, by simpa using hi, by rw [h1]; congr 1; omega, by simpa using h2⟩

end MeshIncidence.Incidence
