import MeshIncidence.Shape.Basic

/-!
Simplices. The sub-entities of dimension d are all choices of d + 1 of the vertices, in
lexicographic order.
-/
namespace MeshIncidence.Shape

/-- All ways to keep `k` entries of a list in their order, earlier entries kept first. A list too
short for what is still to be kept is left at once. -/
def choices {α : Type} : Nat → List α → List (List α)
  | 0, _ => [[]]
  | _ + 1, [] => []
  | k + 1, x :: xs =>
    if xs.length < k then [] else (choices k xs).map (x :: ·) ++ choices (k + 1) xs

theorem mem_choices {α : Type} {k : Nat} {xs ys : List α} :
    ys ∈ choices k xs ↔ ys.Sublist xs ∧ ys.length = k := by
  induction xs generalizing k ys with
  | nil => cases k <;> cases ys <;> simp [choices]
  | cons x xs ih =>
    cases k with
    | zero => cases ys <;> simp [choices]
    | succ k =>
      rw [choices]
      split
      · rename_i short
        simp only [List.not_mem_nil, false_iff, not_and]
        intro hs hk
        have := hs.length_le
        simp only [List.length_cons] at this
        omega
      · simp only [List.mem_append, List.mem_map, ih, List.sublist_cons_iff]
        constructor
        · rintro (⟨zs, ⟨hz, hk⟩, rfl⟩ | ⟨hy, hk⟩)
          · exact ⟨Or.inr ⟨zs, rfl, hz⟩, by simp [hk]⟩
          · exact ⟨Or.inl hy, hk⟩
        · rintro ⟨hy | ⟨zs, rfl, hz⟩, hk⟩
          · exact Or.inr ⟨hy, hk⟩
          · exact Or.inl ⟨zs, ⟨hz, by simpa using hk⟩, rfl⟩

def simplexName (dim : Int) : String :=
  if dim = 1 then "interval"
  else if dim = 2 then "triangle"
  else if dim = 3 then "tetrahedron"
  else s!"simplex{dim}"

/-- Local vertices 0 up to `dim`. -/
def corners (dim : Int) : List Int := (List.range (dim + 1).toNat).map Int.ofNat

def simplex (dim : Int) : Shape :=
  ofTemplate "SimplexCell" (simplexName dim) dim fun d =>
    within (simplexName dim) dim d (.ok (choices (d + 1).toNat (corners dim)))

/-- Simplices start at dimension one. -/
def simplex? (dim : Int) : Except ShapeFault Shape :=
  if dim < 1 then .error (.simplexDimension dim) else .ok (simplex dim)

end MeshIncidence.Shape
