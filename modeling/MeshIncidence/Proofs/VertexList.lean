import Mathlib
import MeshIncidence.VertexList

/-!
Vertex lists as names of sets. Comparing two lists is an equivalence, whatever vertices they repeat, and
the order of the vertices does not matter to it. For different vertices it is equality of the ascending
orders, and one scan is enough: in a list that is no longer they leave room for no other vertex.
-/
namespace MeshIncidence.VertexList

variable {a b c : List Int}

/-- Of different vertices, the ascending list ascends strictly. -/
theorem pairwise_lt_ascending {vertices : List Int} (h : vertices.Nodup) :
    (ascending vertices).Pairwise (· < ·) := by
  have differ : (ascending vertices).Nodup := (ascending_perm vertices).nodup_iff.mpr h
  exact (pairwise_ascending vertices).imp₂ (fun _ _ hle hne => lt_of_le_of_ne hle hne) differ

theorem ascending_eq_iff_perm : ascending a = ascending b ↔ a.Perm b := by
  constructor
  · intro h
    have same : (ascending a).Perm (ascending b) := by rw [h]
    exact (ascending_perm a).symm.trans (same.trans (ascending_perm b))
  · exact ascending_congr

/-- Different vertices in ascending order are a name of their set. -/
theorem ascending_eq_iff (ha : a.Nodup) (hb : b.Nodup) :
    ascending a = ascending b ↔ ∀ v, v ∈ a ↔ v ∈ b := by
  rw [ascending_eq_iff_perm, List.perm_ext_iff_of_nodup ha hb]

/-- Of a list that does not fall, repetitions erased leave what was listed, in strict order. -/
theorem eraseReps_loop {xs kept : List Int} {x : Int} (sorted : (kept.reverse ++ [x]).Pairwise (· < ·))
    (rest : (x :: xs).Pairwise (· ≤ ·)) :
    (List.eraseRepsBy.loop (· == ·) x xs kept).Pairwise (· < ·) ∧
      ∀ v, v ∈ List.eraseRepsBy.loop (· == ·) x xs kept ↔ v ∈ kept ∨ v = x ∨ v ∈ xs := by
  induction xs generalizing x kept with
  | nil =>
    rw [List.eraseRepsBy.loop, List.reverse_cons]
    exact ⟨sorted, by simp⟩
  | cons y ys ih =>
    obtain ⟨least, tail⟩ := List.pairwise_cons.mp rest
    rw [List.eraseRepsBy.loop]
    split
    · rename_i same
      obtain rfl := beq_iff_eq.mp same
      obtain ⟨strict, mem⟩ := ih sorted tail
      exact ⟨strict, fun v => by simp [mem]⟩
    · rename_i differ
      have next : x < y := lt_of_le_of_ne (least y (by simp)) (by simpa using differ)
      have longer : ((x :: kept).reverse ++ [y]).Pairwise (· < ·) := by
        rw [List.reverse_cons, List.pairwise_append]
        refine ⟨sorted, List.pairwise_singleton .., fun u hu v hv => ?_⟩
        obtain rfl := List.mem_singleton.mp hv
        rcases List.mem_append.mp hu with hu | hu
        · exact ((List.pairwise_append.mp sorted).2.2 u hu x (by simp)).trans next
        · obtain rfl := List.mem_singleton.mp hu
          exact next
      obtain ⟨strict, mem⟩ := ih longer tail
      exact ⟨strict, fun v => by rw [mem]; simp only [List.mem_cons]; tauto⟩

/-- The vertices of a list, each once, ascend strictly. -/
theorem distinct_spec (xs : List Int) : (distinct xs).Pairwise (· < ·) ∧
    ∀ v, v ∈ distinct xs ↔ v ∈ xs := by
  have sorted := pairwise_ascending xs
  have mem : ∀ v, v ∈ ascending xs ↔ v ∈ xs := fun v => mem_ascending
  rw [distinct, List.eraseReps]
  cases h : ascending xs with
  | nil =>
    simp only [h, List.not_mem_nil, false_iff] at mem
    exact ⟨.nil, fun v => by simp [List.eraseRepsBy, mem]⟩
  | cons x rest =>
    rw [h] at sorted mem
    obtain ⟨strict, same⟩ := @eraseReps_loop rest [] x (by simp) sorted
    exact ⟨strict, fun v => by rw [List.eraseRepsBy, same, ← mem]; simp⟩

/-- The vertices in ascending order, each once, are a name of their set. -/
theorem distinct_eq_iff : distinct a = distinct b ↔ ∀ v, v ∈ a ↔ v ∈ b := by
  obtain ⟨strict, mem⟩ := distinct_spec a
  obtain ⟨strict', mem'⟩ := distinct_spec b
  constructor
  · intro same v
    rw [← mem, ← mem', same]
  · intro same
    exact List.Pairwise.eq_of_mem_iff strict strict' fun v => by rw [mem, mem', same]

theorem sameSet_eq_beq : sameSet a b = (distinct b == distinct a) := by
  rw [Bool.eq_iff_iff, sameSet_iff, beq_iff_eq, distinct_eq_iff]
  exact forall_congr' fun _ => Iff.comm

theorem sameVertices_refl (a : List Int) : sameVertices a a = true :=
  sameVertices_iff.mpr ⟨rfl, fun _ => id, fun _ => id⟩

theorem sameVertices_comm (a b : List Int) : sameVertices a b = sameVertices b a := by
  rw [Bool.eq_iff_iff, sameVertices_iff, sameVertices_iff, and_comm (a := ∀ v ∈ b, v ∈ a)]
  exact and_congr_left fun _ => eq_comm

theorem sameVertices_trans (hab : sameVertices a b = true) (hbc : sameVertices b c = true) :
    sameVertices a c = true := by
  obtain ⟨lab, ab, ba⟩ := sameVertices_iff.mp hab
  obtain ⟨lbc, bc, cb⟩ := sameVertices_iff.mp hbc
  exact sameVertices_iff.mpr
    ⟨lab.trans lbc, fun v hv => bc v (ab v hv), fun v hv => ba v (cb v hv)⟩

theorem sameVertices_equivalence : Equivalence fun a b => sameVertices a b = true where
  refl := sameVertices_refl
  symm same := by rwa [sameVertices_comm]
  trans := sameVertices_trans

/-- Lists with the same vertices compare alike with any other. -/
theorem sameVertices_congr (h : sameVertices a b = true) (c : List Int) :
    sameVertices a c = sameVertices b c := by
  rw [Bool.eq_iff_iff]
  exact ⟨sameVertices_trans (by rwa [sameVertices_comm]), sameVertices_trans h⟩

/-- Where the lengths agree, the vertices alone decide. -/
theorem sameVertices_iff_of_length (h : a.length = b.length) :
    sameVertices a b = true ↔ ∀ v, v ∈ a ↔ v ∈ b := by
  rw [sameVertices_iff]
  exact ⟨fun same v => ⟨same.2.1 v, same.2.2 v⟩,
    fun same => ⟨h, fun v => (same v).mp, fun v => (same v).mpr⟩⟩

theorem sameVertices_of_perm (h : a.Perm b) : sameVertices a b = true :=
  (sameVertices_iff_of_length h.length_eq).mpr fun _ => h.mem_iff

theorem sameVertices_reordered {a' b' : List Int} (ha : a.Perm a') (hb : b.Perm b') :
    sameVertices a b = sameVertices a' b' := by
  calc sameVertices a b = sameVertices a' b := sameVertices_congr (sameVertices_of_perm ha) b
    _ = sameVertices b a' := sameVertices_comm a' b
    _ = sameVertices b' a' := sameVertices_congr (sameVertices_of_perm hb) a'
    _ = sameVertices a' b' := sameVertices_comm b' a'

/-- Different vertices that are all in a list no longer than theirs are all that it has. -/
theorem perm_of_subsetOf (ha : a.Nodup) (short : b.length ≤ a.length)
    (h : subsetOf a b = true) : a.Perm b := by
  have inside : a.Subperm b := List.subperm_of_subset ha (subsetOf_iff.mp h)
  exact inside.perm_of_length_le short

/-- Where the lengths agree, scanning a list of different vertices decides. -/
theorem subsetOf_eq_sameVertices (ha : a.Nodup) (length : a.length = b.length) :
    subsetOf a b = sameVertices a b := by
  rw [Bool.eq_iff_iff]
  constructor
  · intro inside
    exact sameVertices_of_perm (perm_of_subsetOf ha length.ge inside)
  · intro same
    exact subsetOf_iff.mpr (sameVertices_iff.mp same).2.1

theorem sameVertices_iff_perm (ha : a.Nodup) : sameVertices a b = true ↔ a.Perm b := by
  constructor
  · intro same
    obtain ⟨length, inside, -⟩ := sameVertices_iff.mp same
    exact perm_of_subsetOf ha length.ge (subsetOf_iff.mpr inside)
  · exact sameVertices_of_perm

/-- With repetitions the comparison is coarser. -/
example : sameVertices [5, 5, 6] [6, 6, 5] = true ∧ ¬ [5, 5, 6].Perm [6, 6, (5 : Int)] := by decide

end MeshIncidence.VertexList
