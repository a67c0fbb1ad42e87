import MeshIncidence.Proofs.Shape.Regular

/-!
Choices of a list without repeats name every subset of a size once, and they ascend in lexicographic
order where the list ascends. The parts of a simplex are the choices of its vertices, so what a part
has for parts are parts of the cell.
-/
namespace MeshIncidence.Shape

variable {α β : Type}

theorem choices_map (f : α → β) (k : Nat) (xs : List α) :
    choices k (xs.map f) = (choices k xs).map (List.map f) := by
  induction xs generalizing k with
  | nil => cases k <;> simp [choices]
  | cons x xs ih =>
    cases k with
    | zero => simp [choices]
    | succ k =>
      simp only [List.map_cons, choices, List.length_map, ih]
      split
      · rfl
      · simp only [List.map_append, List.map_map, Function.comp_def, List.map_cons]

/-- Choices with the first entry come before the choices without it. -/
theorem pairwise_choices {r : α → α → Prop} {xs : List α} (h : xs.Pairwise r) (k : Nat) :
    (choices k xs).Pairwise (List.Lex r) := by
  induction xs generalizing k with
  | nil => cases k <;> simp [choices]
  | cons x xs ih =>
    obtain ⟨first, others⟩ := List.pairwise_cons.mp h
    cases k with
    | zero => simp [choices]
    | succ k =>
      rw [choices]
      split
      · exact List.Pairwise.nil
      rw [List.pairwise_append]
      refine ⟨?_, ih others (k + 1), ?_⟩
      · exact List.pairwise_map.mpr ((ih others k).imp List.Lex.cons)
      · intro a ha b hb
        obtain ⟨a, -, rfl⟩ := List.mem_map.mp ha
        obtain ⟨inside, length⟩ := mem_choices.mp hb
        cases b with
        | nil => cases length
        | cons y b => exact List.Lex.rel (first y (inside.subset (List.mem_cons_self ..)))

/-- A choice of different entries is known by its members. -/
theorem filter_mem_of_sublist [DecidableEq α] {xs ys : List α} (h : xs.Nodup)
    (hs : ys.Sublist xs) : xs.filter (· ∈ ys) = ys := by
  induction hs with
  | slnil => rfl
  | cons x hs ih =>
    obtain ⟨hx, hxs⟩ := List.nodup_cons.mp h
    rw [List.filter_cons_of_neg (by simpa using fun hmem => hx (hs.subset hmem)), ih hxs]
  | cons_cons x hs ih =>
    obtain ⟨hx, hxs⟩ := List.nodup_cons.mp h
    rw [List.filter_cons_of_pos (by simp)]
    congr 1
    refine Eq.trans (List.filter_congr fun y hy => ?_) (ih hxs)
    have : y ≠ x := fun same => hx (same ▸ hy)
    simp [this]

/-- The lists name the subsets of `k` members, each of them once and each member once. -/
structure NamesSubsets (base : Finset Int) (k : Nat) (lists : List (List Int)) : Prop where
  all : ∀ s, s ∈ lists.map List.toFinset ↔ s ∈ base.powersetCard k
  once : (lists.map List.toFinset).Nodup
  nodup : ∀ list ∈ lists, list.Nodup

theorem namesSubsets_choices {xs : List Int} (h : xs.Nodup) (k : Nat) :
    NamesSubsets xs.toFinset k (choices k xs) := by
  have nodup : ∀ ys ∈ choices k xs, ys.Nodup := fun ys hys => h.sublist (mem_choices.mp hys).1
  constructor
  case nodup => exact nodup
  case once =>
    refine (nodup_choices h).map_on fun a ha b hb same => ?_
    have members : ∀ x, x ∈ a ↔ x ∈ b := fun x => by
      rw [← List.mem_toFinset, same, List.mem_toFinset]
    rw [← filter_mem_of_sublist h (mem_choices.mp ha).1,
      ← filter_mem_of_sublist h (mem_choices.mp hb).1]
    simp only [members]
  case all =>
    intro s
    rw [List.mem_map, Finset.mem_powersetCard]
    constructor
    · rintro ⟨ys, hys, rfl⟩
      obtain ⟨inside, length⟩ := mem_choices.mp hys
      refine ⟨fun x hx => ?_, ?_⟩
      · exact List.mem_toFinset.mpr (inside.subset (List.mem_toFinset.mp hx))
      · rw [List.toFinset_card_of_nodup (nodup ys hys), length]
    · rintro ⟨inside, card⟩
      have chosen : (xs.filter (· ∈ s)).toFinset = s := by
        ext x
        simpa using fun hx => List.mem_toFinset.mp (inside hx)
      refine ⟨xs.filter (· ∈ s), mem_choices.mpr ⟨List.filter_sublist, ?_⟩, chosen⟩
      rw [← List.toFinset_card_of_nodup (h.filter _), chosen, card]

theorem toFinset_corners (dim : Int) : (corners dim).toFinset = Finset.Icc 0 dim := by
  ext i
  rw [List.mem_toFinset, mem_corners, Finset.mem_Icc]
  omega

theorem template_simplex {dim d : Int} (h0 : 0 ≤ d) (h1 : d ≤ dim) :
    (simplex dim).template d = .ok (choices (d + 1).toNat (corners dim)) :=
  (regular_simplex h0 h1).template

/-- The vertices at the corners of a simplex are all its vertices. -/
theorem pickAt_corners {dim : Int} {vertices : List Int}
    (width : vertices.length = (dim + 1).toNat) : pickAt vertices (corners dim) = vertices := by
  rw [pickAt, corners, ← width, List.map_map]
  refine List.ext_getElem (by simp) fun i _ hi => ?_
  simp [List.getElem?_eq_getElem hi]

/-- A simplex splits a cell into the choices of its vertices. -/
theorem split_simplex {dim d : Int} {vertices : List Int} (h0 : 0 ≤ d) (h1 : d ≤ dim)
    (width : vertices.length = (dim + 1).toNat) :
    (simplex dim).split vertices d = .ok (choices (d + 1).toNat vertices) := by
  have regular := regular_simplex h0 h1
  have corners_eq : (simplex dim).vertexCount = .ok vertices.length := by
    rw [width, vertexCount_simplex (h0.trans h1)]
  rw [split_eq_of_plain regular.plain regular.template corners_eq
    fun part hp => regular.places corners_eq hp]
  conv_rhs => rw [← pickAt_corners width, pickAt, choices_map]
  rfl

/-- A choice of some of the chosen is a choice of all. -/
theorem choices_subset {k l : Nat} {xs part : List α} (hp : part ∈ choices k xs) :
    choices l part ⊆ choices l xs := by
  intro sub hs
  obtain ⟨inside, length⟩ := mem_choices.mp hs
  exact mem_choices.mpr ⟨inside.trans (mem_choices.mp hp).1, length⟩

/-- The template of a simplex lists the subsets of its corners, ascending and in lexicographic order.
A cell of different vertices is split into the subsets of its vertices, and the parts of its parts
are among its own. -/
theorem simplex_splits_into_subsets {dim d : Int} (h : 1 ≤ dim) (h0 : 0 ≤ d) (h1 : d ≤ dim) :
    simplex? dim = .ok (simplex dim) ∧
    (∃ parts, (simplex dim).template d = .ok parts ∧
      parts.length = (dim + 1).toNat.choose (d + 1).toNat ∧
      (∀ part ∈ parts, part.Pairwise (· < ·)) ∧ parts.Pairwise (List.Lex (· < ·)) ∧
      NamesSubsets (Finset.Icc 0 dim) (d + 1).toNat parts) ∧
    ∀ vertices : List Int, vertices.Nodup → vertices.length = (dim + 1).toNat →
      ∃ found, (simplex dim).split vertices d = .ok found ∧
        NamesSubsets vertices.toFinset (d + 1).toNat found ∧
        ∀ e, 0 ≤ e → e ≤ d → ∃ smaller, (simplex dim).split vertices e = .ok smaller ∧
          ∀ part ∈ found, ∃ inner, (simplex d).split part e = .ok inner ∧
            NamesSubsets part.toFinset (e + 1).toNat inner ∧ inner ⊆ smaller := by
  refine ⟨if_neg (by omega), ⟨_, template_simplex h0 h1, ?_, ?_, ?_, ?_⟩, ?_⟩
  · rw [length_choices, length_corners]
  · exact fun part hp => (pairwise_corners dim).sublist (mem_choices.mp hp).1
  · exact pairwise_choices (pairwise_corners dim) _
  · rw [← toFinset_corners]
    exact namesSubsets_choices ((pairwise_corners dim).imp ne_of_lt) _
  · intro vertices different width
    refine ⟨_, split_simplex h0 h1 width, namesSubsets_choices different _, fun e he0 he1 => ?_⟩
    refine ⟨_, split_simplex he0 (he1.trans h1) width, fun part hp => ?_⟩
    obtain ⟨inside, length⟩ := mem_choices.mp hp
    exact ⟨_, split_simplex he0 he1 length, namesSubsets_choices (different.sublist inside) _,
      choices_subset hp⟩

/-- In a tetrahedron the faces of a cell are its triples of vertices, and their edges are edges of the
cell. -/
theorem tetrahedron_splits_into_subsets :
    ((1 : Int) ≤ 3 ∧ (0 : Int) ≤ 2 ∧ (2 : Int) ≤ 3) ∧
    (simplex 3).template 2 = .ok [[0, 1, 2], [0, 1, 3], [0, 2, 3], [1, 2, 3]] ∧
    (simplex 3).split [7, 4, 9, 1] 2 = .ok [[7, 4, 9], [7, 4, 1], [7, 9, 1], [4, 9, 1]] ∧
    NamesSubsets [7, 4, 9, 1].toFinset 3 [[7, 4, 9], [7, 4, 1], [7, 9, 1], [4, 9, 1]] ∧
    (simplex 3).split [7, 4, 9, 1] 1 = .ok [[7, 4], [7, 9], [7, 1], [4, 9], [4, 1], [9, 1]] ∧
    (simplex 2).split [4, 9, 1] 1 = .ok [[4, 9], [4, 1], [9, 1]] ∧
    [[4, 9], [4, 1], [9, 1]] ⊆ [[7, 4], [7, 9], [7, 1], [4, 9], [4, 1], [9, (1 : Int)]] := by
  have bounds : (1 : Int) ≤ 3 ∧ (0 : Int) ≤ 2 ∧ (2 : Int) ≤ 3 := by decide
  obtain ⟨-, -, splits⟩ := simplex_splits_into_subsets bounds.1 bounds.2.1 bounds.2.2
  obtain ⟨found, split, names, nested⟩ := splits [7, 4, 9, 1] (by decide) rfl
  cases split
  obtain ⟨edges, edges_split, within⟩ := nested 1 (by decide) (by decide)
  cases edges_split
  obtain ⟨inner, inner_split, -, inside⟩ := within [4, 9, 1] (by decide)
  cases inner_split
  exact ⟨bounds, rfl, rfl, names, rfl, rfl, inside⟩

end MeshIncidence.Shape
