/-!
Vertex lists read as sets. `subsetOf` and `sameVertices` compare them; `ascending` is the order
in which a list is kept as the name of its set.
-/
namespace MeshIncidence.VertexList

/-- Every vertex of `candidate` occurs in `reference`. -/
def subsetOf (candidate reference : List Int) : Bool :=
  candidate.all fun v => reference.contains v

/-- Equally long lists with the same vertices. -/
def sameVertices (a b : List Int) : Bool :=
  a.length == b.length && subsetOf a b && subsetOf b a

/-- Equal as sets, whatever the lengths. -/
def sameSet (a b : List Int) : Bool := subsetOf a b && subsetOf b a

def ascending (xs : List Int) : List Int := xs.mergeSort fun a b => decide (a ≤ b)

/-- The vertices of a list in ascending order, each once. -/
def distinct (xs : List Int) : List Int := (ascending xs).eraseReps

theorem subsetOf_iff {a b : List Int} : subsetOf a b = true ↔ ∀ v ∈ a, v ∈ b := by
  simp [subsetOf]

theorem sameVertices_iff {a b : List Int} :
    sameVertices a b = true ↔ a.length = b.length ∧ (∀ v ∈ a, v ∈ b) ∧ ∀ v ∈ b, v ∈ a := by
  simp [sameVertices, subsetOf_iff, and_assoc]

theorem sameSet_iff {a b : List Int} : sameSet a b = true ↔ ∀ v, v ∈ a ↔ v ∈ b := by
  simp only [sameSet, Bool.and_eq_true, subsetOf_iff]
  exact ⟨fun h v => ⟨h.1 v, h.2 v⟩, fun h => ⟨fun v => (h v).1, fun v => (h v).2⟩⟩

theorem ascending_perm (xs : List Int) : (ascending xs).Perm xs := List.mergeSort_perm xs _

theorem mem_ascending {xs : List Int} {v : Int} : v ∈ ascending xs ↔ v ∈ xs :=
  (ascending_perm xs).mem_iff

theorem length_ascending (xs : List Int) : (ascending xs).length = xs.length :=
  (ascending_perm xs).length_eq

theorem pairwise_ascending (xs : List Int) : (ascending xs).Pairwise (· ≤ ·) := by
  have h : (ascending xs).Pairwise fun a b => decide (a ≤ b) = true :=
    List.pairwise_mergeSort
      (by intro a b c; simp only [decide_eq_true_eq]; exact Int.le_trans)
      (by intro a b; simp only [Bool.or_eq_true, decide_eq_true_eq]; exact Int.le_total a b) xs
  simpa only [decide_eq_true_eq] using h

/-- A list that does not fall is the ascending order of its entries. -/
theorem eq_ascending {xs ys : List Int} (sorted : xs.Pairwise (· ≤ ·)) (perm : xs.Perm ys) :
    xs = ascending ys :=
  (perm.trans (ascending_perm ys).symm).eq_of_pairwise (fun _ _ _ _ => Int.le_antisymm) sorted
    (pairwise_ascending ys)

theorem ascending_of_pairwise {xs : List Int} (sorted : xs.Pairwise (· ≤ ·)) : ascending xs = xs :=
  (eq_ascending sorted (List.Perm.refl xs)).symm

/-- Lists of the same entries have one ascending order. -/
theorem ascending_congr {xs ys : List Int} (h : xs.Perm ys) : ascending xs = ascending ys :=
  eq_ascending (pairwise_ascending xs) ((ascending_perm xs).trans h)

end MeshIncidence.VertexList
