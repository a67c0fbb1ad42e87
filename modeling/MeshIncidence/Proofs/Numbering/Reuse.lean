import Mathlib
import MeshIncidence.Numbering
import MeshIncidence.Proofs.VertexList

/-!
Numbers are used again for the same vertices only. The search sees a list of vertices through the comparison
alone. As this is an equivalence, lists with the same vertices are found alike, and lists that are found
under one number have the same vertices.
-/
namespace MeshIncidence.Numbering

open VertexList

variable {n : Numbering} {cell e : Nat} {a b touching : List Int}

theorem find_congr (h : sameVertices a b = true) (n : Numbering) (cell : Nat)
    (touching : List Int) : n.find cell a touching = n.find cell b touching := by
  -- The list looked for stands second in the comparison, and the congruence is about the first.
  have alike : ∀ e, sameVertices (n.verticesOf e) a = sameVertices (n.verticesOf e) b := fun e => by
    rw [sameVertices_comm, sameVertices_congr h, sameVertices_comm]
  induction touching with
  | nil => rfl
  | cons other rest ih => simp only [find, alike, ih]

theorem sameVertices_of_find (h : n.find cell a touching = .ok (some e)) :
    sameVertices (n.verticesOf e) a = true := by
  induction touching with
  | nil => cases h
  | cons other rest ih =>
    rw [find] at h
    split at h
    · exact ih h
    split at h
    · cases h
    split at h
    · rename_i found
      cases h
      have same := List.find?_some found
      exact same
    · exact ih h

/-- Scanning decides inclusion. Comparing is an equivalence to which the order of the vertices does not
matter, and different vertices compare as their ascending orders do, by one scan if the lengths agree.
Hence the search finds lists with the same vertices alike, and only such lists under one number. -/
theorem comparison_sound_for_reuse :
    (∀ a b, subsetOf a b = true ↔ ∀ v ∈ a, v ∈ b) ∧
    (Equivalence fun a b => sameVertices a b = true) ∧
    (∀ a a' b b', a.Perm a' → b.Perm b' → sameVertices a b = sameVertices a' b') ∧
    (∀ a b, a.Nodup → b.Nodup →
      (sameVertices a b = true ↔ ascending a = ascending b) ∧
      (a.length = b.length →
        subsetOf a b = sameVertices a b ∧ subsetOf b a = sameVertices a b)) ∧
    ∀ (n : Numbering) (a b : List Int),
      (sameVertices a b = true → ∀ cell touching,
        n.find cell a touching = n.find cell b touching) ∧
      (∀ e cell touching cell' touching', n.find cell a touching = .ok (some e) →
        n.find cell' b touching' = .ok (some e) → sameVertices a b = true) := by
  refine ⟨fun _ _ => subsetOf_iff, sameVertices_equivalence,
    fun _ _ _ _ => sameVertices_reordered, fun a b ha hb => ⟨?_, fun length => ⟨?_, ?_⟩⟩,
    fun n a b => ⟨fun same => find_congr same n, ?_⟩⟩
  · rw [sameVertices_iff_perm ha, ascending_eq_iff_perm]
  · exact subsetOf_eq_sameVertices ha length
  · rw [sameVertices_comm]
    exact subsetOf_eq_sameVertices hb length.symm
  · intro e cell touching cell' touching' found found'
    have first := sameVertices_of_find found
    have second := sameVertices_of_find found'
    exact sameVertices_trans (by rwa [sameVertices_comm]) second

/-- A triangle of a numbering of two is found in each order of its vertices. Lists with repetitions are
compared as well. -/
theorem comparison_sound_for_reuse_triangle :
    ([7, 4, (9 : Int)].Nodup ∧ [9, 7, (4 : Int)].Nodup ∧
      [7, 4, (9 : Int)].length = [9, 7, (4 : Int)].length ∧
      subsetOf [7, 4, 9] [9, 7, 4] = true ∧
      find ⟨[[0, 1], []], [[1, 4, 9], [4, 7, 9]]⟩ 1 [7, 4, 9] [0] = .ok (some 1)) ∧
    sameVertices [7, 4, 9] [9, 7, 4] = true ∧ ascending [7, 4, 9] = ascending [9, 7, 4] ∧
    find ⟨[[0, 1], []], [[1, 4, 9], [4, 7, 9]]⟩ 1 [9, 7, 4] [0] = .ok (some 1) ∧
    sameVertices [5, 5, 6] [6, 6, 5] = true ∧ sameVertices [6, 6, 5] [5, 6, 6] = true ∧
    sameVertices [5, 5, 6] [5, 6, 6] = true := by
  obtain ⟨-, equivalence, order, different, search⟩ := comparison_sound_for_reuse
  have nodup : [7, 4, (9 : Int)].Nodup := by decide
  have nodup' : [9, 7, (4 : Int)].Nodup := by decide
  have inside : subsetOf [7, 4, 9] [9, 7, 4] = true := by decide
  have found : find ⟨[[0, 1], []], [[1, 4, 9], [4, 7, 9]]⟩ 1 [7, 4, 9] [0] = .ok (some 1) := by
    decide
  obtain ⟨sorted, scan⟩ := different _ _ nodup nodup'
  have same : sameVertices [7, 4, 9] [9, 7, 4] = true := by rw [← (scan rfl).1, inside]
  have repeated : sameVertices [5, 5, 6] [6, 6, 5] = true := by decide
  have reordered : sameVertices [6, 6, 5] [5, 6, 6] = true := by
    rw [order _ [5, 6, 6] _ _ (by decide) (List.Perm.refl _)]
    exact equivalence.refl _
  refine ⟨⟨nodup, nodup', rfl, inside, found⟩, same, sorted.mp same, ?_, repeated, reordered,
    equivalence.trans repeated reordered⟩
  rw [← (search _ _ _).1 same, found]

end MeshIncidence.Numbering
