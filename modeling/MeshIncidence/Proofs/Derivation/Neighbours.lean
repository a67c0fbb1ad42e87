import Mathlib
import MeshIncidence.Proofs.Derivation.Gathering
import MeshIncidence.Proofs.Incidence.Inversion

/-!
Neighbours through rows that refer to each other. Going on from an entity by one list of rows and back by
its inverse meets the entities with which it has an entry in common. So neighbours are mutual, whatever
the rows are. A row that is not there reads as empty.
-/
namespace MeshIncidence

namespace Incidence

/-- Rows each of which refers to the rows of the other list that refer back. -/
structure Inverse (a b : List (List Int)) : Prop where
  inside : ∀ row ∈ a, ∀ e ∈ row, 0 ≤ e ∧ e < b.length
  back : ∀ row ∈ b, ∀ e ∈ row, 0 ≤ e ∧ e < a.length
  mem : ∀ i j : Nat, (j : Int) ∈ a.getD i [] ↔ (i : Int) ∈ b.getD j []

theorem Inverse.symm {a b : List (List Int)} (h : Inverse a b) : Inverse b a :=
  ⟨h.back, h.inside, fun i j => (h.mem j i).symm⟩

theorem inverse_turned {rows : List (List Int)} {n : Nat}
    (inside : ∀ row ∈ rows, ∀ e ∈ row, 0 ≤ e ∧ e < n) : Inverse rows (turned rows n) where
  inside := by simpa [length_turned] using inside
  back := fun _ hrow _ he => mem_turned hrow he
  mem := by
    intro i j
    rw [← List.count_pos_iff, ← List.count_pos_iff, count_turned inside]

/-- The row of a number that is there is its column. -/
theorem rowAt_turned {rows : List (List Int)} {n : Nat} {v : Int} (h : 0 ≤ v ∧ v < n) :
    Derivation.rowAt (turned rows n) v = column rows v := by
  have hv : v.toNat < (turned rows n).length := by rw [length_turned]; omega
  rw [Derivation.rowAt, List.getD_eq_getElem _ _ hv, getElem_turned, Int.toNat_of_nonneg h.1]

end Incidence

namespace Derivation

variable {onward between found : List (List Int)}

/-- Neighbours are the others that have an entry in common. -/
theorem mem_neighboursOf (h : Incidence.Inverse between onward) {i : Nat} (hi : i < between.length)
    {e : Int} : e ∈ neighboursOf onward between[i] i ↔
      ∃ k, ∃ hk : k < between.length, e = (k : Int) ∧ k ≠ i ∧
        ∃ x ∈ between[i], x ∈ between[k] := by
  have met : ∀ x ∈ between[i], (e ∈ rowAt onward x ↔
      ∃ k, ∃ hk : k < between.length, e = (k : Int) ∧ x ∈ between[k]) := by
    intro x hx
    obtain ⟨j, rfl⟩ := Int.eq_ofNat_of_zero_le (h.inside _ (List.getElem_mem hi) x hx).1
    have hj : j < onward.length := by
      have := (h.inside _ (List.getElem_mem hi) _ hx).2
      omega
    constructor
    · intro he
      obtain ⟨h0, h1⟩ := h.back _ (rowAt_mem (by omega) (by omega)) e he
      obtain ⟨k, rfl⟩ := Int.eq_ofNat_of_zero_le h0
      have hk : k < between.length := by omega
      refine ⟨k, hk, rfl, ?_⟩
      have := (h.mem k j).mpr (by simpa [rowAt] using he)
      simpa [hk] using this
    · intro hk
      obtain ⟨k, hk, rfl, hx⟩ := hk
      have := (h.mem k j).mp (by simpa [hk] using hx)
      simpa [rowAt] using this
  rw [neighboursOf, List.mem_eraseDups, List.mem_filter, List.mem_flatMap, decide_eq_true_eq]
  constructor
  · intro h
    obtain ⟨⟨x, hx, he⟩, differ⟩ := h
    obtain ⟨k, hk, rfl, hxk⟩ := (met x hx).mp he
    exact ⟨k, hk, rfl, by omega, x, hx, hxk⟩
  · intro h
    obtain ⟨k, hk, rfl, differ, x, hx, hxk⟩ := h
    exact ⟨⟨x, hx, (met x hx).mpr ⟨k, hk, rfl, hxk⟩⟩, by omega⟩

theorem getD_neighbourRows (h : Incidence.Inverse between onward)
    (hf : neighbourRows onward between = .ok found) {i : Nat} (hi : i < between.length) :
    found.getD i [] = neighboursOf onward between[i] i := by
  rw [neighbourRows_eq h.inside] at hf
  cases hf
  simp [hi]

theorem nodup_neighbourRows (hf : neighbourRows onward between = .ok found) (i : Nat) :
    (found.getD i []).Nodup := by
  by_cases hi : i < found.length
  · rw [List.getD_eq_getElem _ _ hi]
    exact nodup_rows hf (List.getElem_mem hi)
  · simp [Nat.le_of_not_lt hi]

theorem mem_neighbourRows (h : Incidence.Inverse between onward)
    (hf : neighbourRows onward between = .ok found) {i k : Nat} :
    (k : Int) ∈ found.getD i [] ↔
      k ≠ i ∧ ∃ x ∈ between.getD i [], x ∈ between.getD k [] := by
  by_cases hi : i < between.length
  · rw [getD_neighbourRows h hf hi, mem_neighboursOf h hi]
    constructor
    · intro hk
      obtain ⟨k', hk, same, differ, x, hx, hxk⟩ := hk
      have : k = k' := by omega
      subst this
      exact ⟨differ, x, by simpa [hi] using hx, by simpa [hk] using hxk⟩
    · intro hk
      obtain ⟨differ, x, hx, hxk⟩ := hk
      have inside : k < between.length := by
        by_contra outside
        simp [Nat.le_of_not_lt outside] at hxk
      exact ⟨k, inside, rfl, differ, x, by simpa [hi] using hx, by simpa [inside] using hxk⟩
  · rw [neighbourRows_eq h.inside] at hf
    cases hf
    simp [Nat.le_of_not_lt hi]

/-- Neighbours are mutual, and nothing is its neighbour twice. -/
theorem count_neighbourRows (h : Incidence.Inverse between onward)
    (hf : neighbourRows onward between = .ok found) (i k : Nat) :
    (found.getD i []).count (k : Int) = (found.getD k []).count (i : Int) := by
  have both : (k : Int) ∈ found.getD i [] ↔ (i : Int) ∈ found.getD k [] := by
    rw [mem_neighbourRows h hf, mem_neighbourRows h hf]
    constructor
    · exact fun ⟨differ, x, hx, hxk⟩ => ⟨differ.symm, x, hxk, hx⟩
    · exact fun ⟨differ, x, hx, hxk⟩ => ⟨differ.symm, x, hxk, hx⟩
  rw [(nodup_neighbourRows hf i).count, (nodup_neighbourRows hf k).count]
  simp only [both]

end Derivation

end MeshIncidence
