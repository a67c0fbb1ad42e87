import Mathlib
import MeshIncidence.Proofs.Outcome
import MeshIncidence.Proofs.VertexList
import MeshIncidence.Shape.Registry

/-!
Shapes that split cells well in a dimension: by their template alone, into parts of one positive
length, none with a vertex twice, none beyond the cell and no two with the same vertices. The ascending
vertices of a part are its key. All simplices split well, and so do the built-in products of intervals.
-/
namespace MeshIncidence

namespace Shape

/-- The vertices of a cell at the given places. -/
def pickAt (cell part : List Int) : List Int := part.map fun i => cell.getD i.toNat 0

/-- The vertices of a part in ascending order. -/
def keyOf (cell part : List Int) : List Int := VertexList.ascending (pickAt cell part)

@[simp] theorem mem_keyOf {cell part : List Int} {v : Int} :
    v ∈ keyOf cell part ↔ v ∈ pickAt cell part :=
  VertexList.mem_ascending

@[simp] theorem length_keyOf (cell part : List Int) : (keyOf cell part).length = part.length := by
  rw [keyOf, VertexList.length_ascending, pickAt, List.length_map]

theorem keyOf_eq_nil_iff {cell part : List Int} : keyOf cell part = [] ↔ part = [] := by
  rw [← List.length_eq_zero_iff, length_keyOf, List.length_eq_zero_iff]

/-- The shape splits every cell well in a dimension, into the given parts. -/
structure Regular (s : Shape) (dim : Int) (parts : List (List Int)) : Prop where
  plain : s.Plain
  template : s.template dim = .ok parts
  nonempty : parts ≠ []
  width : ∃ k, 0 < k ∧ ∀ part ∈ parts, part.length = k
  nodup : ∀ part ∈ parts, part.Nodup
  inside : ∃ n, s.vertexCount = .ok n ∧ ∀ part ∈ parts, ∀ i ∈ part, 0 ≤ i ∧ i < n
  differ : parts.Pairwise fun a b => VertexList.sameSet a b = false

theorem pick_eq {cell part : List Int} (h : ∀ i ∈ part, 0 ≤ i ∧ i < cell.length) :
    pick cell part = .ok (pickAt cell part) := by
  refine Outcome.mapM_eq_map fun i hi => ?_
  obtain ⟨h0, h1⟩ := h i hi
  obtain ⟨k, rfl⟩ := Int.eq_ofNat_of_zero_le h0
  have hk : k < cell.length := by omega
  simp [Position.entry?_natCast, hk]

theorem getD_inj {cell : List Int} (h : cell.Nodup) {i j : Int} (hi : 0 ≤ i ∧ i < cell.length)
    (hj : 0 ≤ j ∧ j < cell.length) (same : cell.getD i.toNat 0 = cell.getD j.toNat 0) : i = j := by
  have hi' : i.toNat < cell.length := by omega
  have hj' : j.toNat < cell.length := by omega
  rw [List.getD_eq_getElem _ _ hi', List.getD_eq_getElem _ _ hj'] at same
  have := (h.getElem_inj_iff).mp same
  omega

theorem nodup_pickAt {cell part : List Int} (hc : cell.Nodup) (hp : part.Nodup)
    (h : ∀ i ∈ part, 0 ≤ i ∧ i < cell.length) : (pickAt cell part).Nodup :=
  hp.map_on fun i hi j hj same => getD_inj hc (h i hi) (h j hj) same

theorem mem_pickAt {cell part : List Int} (hc : cell.Nodup)
    (h : ∀ i ∈ part, 0 ≤ i ∧ i < cell.length) {i : Int} (hi : 0 ≤ i ∧ i < cell.length) :
    cell.getD i.toNat 0 ∈ pickAt cell part ↔ i ∈ part := by
  rw [pickAt, List.mem_map]
  constructor
  · intro h
    rcases h with ⟨j, hj, same⟩
    rwa [← getD_inj hc (h j hj) hi same]
  · exact fun hi => ⟨i, hi, rfl⟩

/-- The vertices of a part are vertices of the cell. -/
theorem mem_cell_of_mem_pickAt {cell part : List Int} (h : ∀ i ∈ part, 0 ≤ i ∧ i < cell.length)
    {v : Int} (hv : v ∈ pickAt cell part) : v ∈ cell := by
  obtain ⟨i, hi, rfl⟩ := List.mem_map.mp hv
  have hlt : i.toNat < cell.length := by have := h i hi; omega
  rw [List.getD_eq_getElem _ _ hlt]
  exact List.getElem_mem hlt

/-- Parts of a cell have the same vertices exactly where they have the same places. -/
theorem pickAt_alike_iff {cell a b : List Int} (hc : cell.Nodup)
    (ha : ∀ i ∈ a, 0 ≤ i ∧ i < cell.length) (hb : ∀ i ∈ b, 0 ≤ i ∧ i < cell.length) :
    (∀ v, v ∈ pickAt cell a ↔ v ∈ pickAt cell b) ↔ ∀ i, i ∈ a ↔ i ∈ b := by
  constructor
  · intro same i
    constructor
    · intro hi
      exact (mem_pickAt hc hb (ha i hi)).mp ((same _).mp ((mem_pickAt hc ha (ha i hi)).mpr hi))
    · intro hi
      exact (mem_pickAt hc ha (hb i hi)).mp ((same _).mpr ((mem_pickAt hc hb (hb i hi)).mpr hi))
  · intro same v
    simp only [pickAt, List.mem_map, same]

/-- A plain shape picks the parts of its template. -/
theorem split_eq_of_plain {s : Shape} {dim : Int} {parts : List (List Int)} {cell : List Int}
    (plain : s.Plain) (template : s.template dim = .ok parts)
    (width : s.vertexCount = .ok cell.length)
    (places : ∀ part ∈ parts, ∀ i ∈ part, 0 ≤ i ∧ i < cell.length) :
    s.split cell dim = .ok (parts.map (pickAt cell)) := by
  obtain ⟨corners, hcorners, hlen⟩ := Outcome.map_eq_ok.mp width
  rw [plain, splitBy, hcorners, Outcome.ok_bind, if_neg (by rw [hlen]; simp), template,
    Outcome.ok_bind]
  exact Outcome.mapM_eq_map fun part hp => pick_eq (places part hp)

namespace Regular

variable {s : Shape} {dim : Int} {parts : List (List Int)} {cell part : List Int}

theorem places (h : s.Regular dim parts) (width : s.vertexCount = .ok cell.length)
    (hp : part ∈ parts) : ∀ i ∈ part, 0 ≤ i ∧ i < cell.length := by
  obtain ⟨n, hn, inside⟩ := h.inside
  rw [width] at hn
  cases hn
  exact inside part hp

theorem pairwise_keyOf (h : s.Regular dim parts) (width : s.vertexCount = .ok cell.length)
    (hc : cell.Nodup) (hp : part ∈ parts) : (keyOf cell part).Pairwise (· < ·) :=
  VertexList.pairwise_lt_ascending (nodup_pickAt hc (h.nodup part hp) (h.places width hp))

theorem keyOf_ne_nil (h : s.Regular dim parts) (cell : List Int) (hp : part ∈ parts) :
    keyOf cell part ≠ [] := by
  obtain ⟨k, hk, width⟩ := h.width
  rw [Ne, keyOf_eq_nil_iff, ← List.length_eq_zero_iff, width part hp]
  omega

/-- No two parts of a cell have the same key. -/
theorem nodup_keys (h : s.Regular dim parts) (width : s.vertexCount = .ok cell.length)
    (hc : cell.Nodup) : (parts.map (keyOf cell)).Nodup := by
  rw [List.Nodup, List.pairwise_map]
  refine h.differ.imp_of_mem fun {a b} ha hb differ same => ?_
  have hset := (VertexList.ascending_eq_iff (nodup_pickAt hc (h.nodup a ha) (h.places width ha))
    (nodup_pickAt hc (h.nodup b hb) (h.places width hb))).mp same
  have places := (pickAt_alike_iff hc (h.places width ha) (h.places width hb)).mp hset
  rw [VertexList.sameSet_iff.mpr places] at differ
  cases differ

end Regular

theorem length_choices {α : Type} (k : Nat) (xs : List α) :
    (choices k xs).length = xs.length.choose k := by
  induction xs generalizing k with
  | nil => cases k <;> simp [choices]
  | cons x xs ih =>
    cases k with
    | zero => simp [choices]
    | succ k =>
      rw [choices, List.length_cons, Nat.choose_succ_succ]
      split
      · rename_i short
        rw [Nat.choose_eq_zero_of_lt short, Nat.choose_eq_zero_of_lt (by omega)]
        rfl
      · rw [List.length_append, List.length_map, ih, ih]

theorem nodup_choices {α : Type} {k : Nat} {xs : List α} (h : xs.Nodup) : (choices k xs).Nodup := by
  induction xs generalizing k with
  | nil => cases k <;> simp [choices]
  | cons x xs ih =>
    obtain ⟨hx, hxs⟩ := List.nodup_cons.mp h
    cases k with
    | zero => simp [choices]
    | succ k =>
      rw [choices]
      split
      · exact List.nodup_nil
      · apply List.Nodup.append ((ih hxs).map (List.cons_injective)) (ih hxs)
        -- Choices of the first half have `x`, choices of the second half have not.
        rintro ys hys hys'
        obtain ⟨zs, -, rfl⟩ := List.mem_map.mp hys
        exact hx ((mem_choices.mp hys').1.subset (List.mem_cons_self ..))

theorem pairwise_corners (dim : Int) : (corners dim).Pairwise (· < ·) := by
  rw [corners, List.pairwise_map]
  exact List.pairwise_lt_range.imp fun h => Int.ofNat_lt.mpr h

theorem mem_corners {dim i : Int} : i ∈ corners dim ↔ 0 ≤ i ∧ i < dim + 1 := by
  rw [corners, List.mem_map]
  constructor
  · intro h
    rcases h with ⟨k, hk, rfl⟩
    have := List.mem_range.mp hk
    change 0 ≤ (k : Int) ∧ (k : Int) < dim + 1
    omega
  · intro h
    rcases h with ⟨h0, h1⟩
    exact ⟨i.toNat, List.mem_range.mpr (by omega), Int.toNat_of_nonneg h0⟩

theorem length_corners {dim : Int} : (corners dim).length = (dim + 1).toNat := by simp [corners]

theorem vertexCount_simplex {dim : Int} (h : 0 ≤ dim) :
    (simplex dim).vertexCount = .ok (dim + 1).toNat := by
  have : (simplex dim).template 0 = .ok (choices 1 (corners dim)) := by
    simp [simplex, ofTemplate, within, h]
  rw [vertexCount, localCount, this, Outcome.map_ok, length_choices, length_corners,
    Nat.choose_one_right]

/-- A simplex has a part for every choice of its vertices. -/
theorem regular_simplex {dim d : Int} (h0 : 0 ≤ d) (h1 : d ≤ dim) :
    (simplex dim).Regular d (choices (d + 1).toNat (corners dim)) := by
  have length : ∀ part ∈ choices (d + 1).toNat (corners dim), part.length = (d + 1).toNat :=
    fun part hp => (mem_choices.mp hp).2
  have ascends : ∀ part ∈ choices (d + 1).toNat (corners dim), part.Pairwise (· < ·) :=
    fun part hp => (pairwise_corners dim).sublist (mem_choices.mp hp).1
  constructor
  case plain => rfl
  case template => simp [simplex, ofTemplate, within, h0, h1]
  case nonempty =>
    intro empty
    have := congrArg List.length empty
    rw [length_choices, length_corners, List.length_nil] at this
    exact (Nat.choose_pos (by omega)).ne' this
  case width => exact ⟨(d + 1).toNat, by omega, length⟩
  case nodup => exact fun part hp => (ascends part hp).imp fun hlt => ne_of_lt hlt
  case inside =>
    refine ⟨_, vertexCount_simplex (by omega), fun part hp i hi => ?_⟩
    have := mem_corners.mp ((mem_choices.mp hp).1.subset hi)
    omega
  case differ =>
    have corners_nodup : (corners dim).Nodup := (pairwise_corners dim).imp fun hlt => ne_of_lt hlt
    refine (nodup_choices corners_nodup).imp_of_mem fun {a b} ha hb differ => ?_
    rw [Bool.eq_false_iff]
    intro same
    exact differ (List.Pairwise.eq_of_mem_iff (ascends a ha) (ascends b hb)
      (VertexList.sameSet_iff.mp same))

theorem regular_quadrilateral :
    quadrilateral.Regular 1 [[0, 1], [0, 2], [1, 3], [2, 3]] where
  plain := rfl
  template := rfl
  nonempty := by decide
  width := ⟨2, by decide, by decide⟩
  nodup := by decide
  inside := ⟨4, rfl, by decide⟩
  differ := by decide

theorem regular_hexahedron_edges :
    hexahedron.Regular 1 [[0, 1], [0, 2], [0, 4], [1, 3], [1, 5], [2, 3], [2, 6], [3, 7], [4, 5],
      [4, 6], [5, 7], [6, 7]] where
  plain := rfl
  template := rfl
  nonempty := by decide
  width := ⟨2, by decide, by decide⟩
  nodup := by decide
  inside := ⟨8, rfl, by decide⟩
  differ := by decide

theorem regular_hexahedron_faces :
    hexahedron.Regular 2 [[0, 1, 2, 3], [0, 1, 4, 5], [0, 2, 4, 6], [1, 3, 5, 7], [2, 3, 6, 7],
      [4, 5, 6, 7]] where
  plain := rfl
  template := rfl
  nonempty := by decide
  width := ⟨4, by decide, by decide⟩
  nodup := by decide
  inside := ⟨8, rfl, by decide⟩
  differ := by decide

end Shape

end MeshIncidence
