import Mathlib
import MeshIncidence.Proofs.Mesh.Construction
import MeshIncidence.Proofs.Outcome
import MeshIncidence.Proofs.Resolution.Faithful
import MeshIncidence.Workspace

/-!
Meshes that are accepted. Arrays have as many entries as their extents say, however they come about.
A mesh that is made from such an array has cells of one length, each with different vertices that are
all there, and starts with a store that is faithful to it.
-/
namespace MeshIncidence

namespace CellArray

/-- The entries fill the extents. -/
def Full (a : CellArray) : Prop := a.entries.length = volume a.extents

theorem volume_eq_prod (extents : List Nat) : volume extents = extents.prod :=
  List.prod_eq_foldl.symm

/-- Open extents set to `q` contribute that factor each. -/
theorem prod_map_settled (q : Nat) (extents : List Int) :
    (extents.map fun e => if e = -1 then q else e.toNat).prod =
      q ^ extents.count (-1) *
        ((extents.filter fun e => decide (e ≠ -1)).map Int.toNat).prod := by
  induction extents with
  | nil => simp
  | cons e extents ih =>
    rw [List.map_cons, List.prod_cons, ih]
    by_cases h : e = -1
    · simp [h, pow_succ]
      ring
    · simp [h]
      ring

theorem volume_settled {total : Nat} {extents : List Int} {settled : List Nat}
    (h : settle? total extents = some settled) : volume settled = total := by
  have product := fun q => prod_map_settled q extents
  unfold settle? at h
  simp only [volume_eq_prod] at h ⊢
  split at h
  · cases h
  split at h
  · rename_i closed
    split at h
    · rename_i known
      cases h
      have : (extents.map fun e => if e = -1 then 0 else e.toNat) = extents.map Int.toNat := by
        refine List.map_congr_left fun e _ => ?_
        split
        · rename_i he
          simp [he]
        · rfl
      rw [← this, product, closed, pow_zero, one_mul, known]
    · cases h
  · rename_i open1
    split at h
    · rename_i divides
      cases h
      rw [product, open1, pow_one, Nat.div_mul_cancel divides.2]
    · cases h
  · cases h

theorem full_reshape {a b : CellArray} {extents : List Int} (h : a.reshape extents = .ok b) :
    b.Full := by
  unfold reshape at h
  split at h
  · cases h
  · rename_i settled hs
    cases h
    exact (volume_settled hs).symm

/-- The rows of a full array have its width. -/
theorem length_of_mem_rows {a : CellArray} {count width : Nat} (full : a.Full)
    (extents : a.extents = [count, width]) {row : List Int} (h : row ∈ a.rows count width) :
    row.length = width := by
  obtain ⟨i, hi, rfl⟩ := List.mem_map.mp h
  have hi := List.mem_range.mp hi
  have total : a.entries.length = count * width := by
    rw [full, extents]
    simp [volume]
  have : (i + 1) * width ≤ count * width := Nat.mul_le_mul_right _ hi
  rw [List.length_take, List.length_drop, total]
  rw [Nat.add_mul, Nat.one_mul] at this
  omega

theorem length_rows (a : CellArray) (count width : Nat) : (a.rows count width).length = count := by
  simp [rows]

end CellArray

namespace Nested

/-- Items of one volume add up. -/
theorem length_entriesFrom {kind : Element} {inner : List Nat} {items : List Nested}
    (each : ∀ item es, entries kind inner item = .ok es → es.length = CellArray.volume inner)
    {es : List Int} (h : entriesFrom kind inner items = .ok es) :
    es.length = items.length * CellArray.volume inner := by
  induction items generalizing es with
  | nil =>
    rw [entriesFrom] at h
    cases h
    simp
  | cons item items ih =>
    rw [entriesFrom] at h
    obtain ⟨here, hhere, h⟩ := Outcome.bind_eq_ok.mp h
    obtain ⟨there, hthere, rfl⟩ := Outcome.map_eq_ok.mp h
    rw [List.length_append, each item here hhere, ih hthere, List.length_cons]
    ring

theorem length_entries {kind : Element} {extents : List Nat} {nested : Nested} {es : List Int}
    (h : nested.entries kind extents = .ok es) : es.length = CellArray.volume extents := by
  induction extents generalizing nested es with
  | nil =>
    rw [entries] at h
    unfold entry at h
    split at h
    · split at h
      · cases h
      · cases h
        rfl
    all_goals cases h
    all_goals rfl
  | cons n inner ih =>
    cases nested with
    | list items =>
      rw [entries] at h
      split at h
      · cases h
      · rename_i same
        have same : items.length = n := by simpa using same
        rw [length_entriesFrom (fun item es he => ih he) h, same, CellArray.volume_eq_prod,
          CellArray.volume_eq_prod, List.prod_cons]
    | _ => cases h

theorem full_toArray {nested : Nested} {kind? : Option Element} {a : CellArray}
    (h : nested.toArray kind? = .ok a) : a.Full := by
  unfold toArray at h
  obtain ⟨extents, -, h⟩ := Outcome.bind_eq_ok.mp h
  split at h
  · cases h
  obtain ⟨kind, -, h⟩ := Outcome.bind_eq_ok.mp h
  split at h
  · rename_i empty
    cases h
    have : (0 : Nat) ∈ extents := by simpa using empty
    simp [CellArray.Full, CellArray.volume_eq_prod, List.prod_eq_zero this]
  · obtain ⟨es, hes, rfl⟩ := Outcome.map_eq_ok.mp h
    exact length_entries hes

end Nested

/-- Arrays are full whether or not they are given other extents. -/
theorem Workspace.full_cellArray {cells : CellSource} {a : CellArray}
    (h : cellArray cells = .ok a) : a.Full := by
  obtain ⟨b, hb, h⟩ := Outcome.bind_eq_ok.mp h
  split at h
  · cases h
    exact Nested.full_toArray hb
  · exact CellArray.full_reshape h

namespace Mesh

/-- Made from a full array. -/
def Accepted (m : Mesh) : Prop :=
  ∃ registry a choice points?, CellArray.Full a ∧ ofArray registry a choice points? = .ok m

/-- What is checked of the cells before they make a mesh, and what its store starts with. -/
structure Sound (m : Mesh) : Prop where
  positive : 1 ≤ m.dim
  points : 0 ≤ m.pointCount
  width : ∃ k, m.shape.vertexCount = .ok k ∧ 0 < k ∧ ∀ cell ∈ m.cells, cell.length = k
  inside : ∀ cell ∈ m.cells, ∀ v ∈ cell, 0 ≤ v ∧ v < m.pointCount
  nodup : ∀ cell ∈ m.cells, cell.Nodup
  dim : m.store.dim = m.dim
  counts : ∀ d, m.store.count? d =
    if d = 0 then some m.points else if d = m.dim then some m.cells.length else none
  relations : ∀ a b, m.store.relation? a b =
    if a = m.dim ∧ b = 0 then some (Incidence.ofRows m.cells) else none

/-- Cells have as many vertices as the shape says. -/
theorem Sound.vertexCount {m : Mesh} (sound : m.Sound) {cell : List Int} (hcell : cell ∈ m.cells) :
    m.shape.vertexCount = .ok cell.length := by
  obtain ⟨k, hk, -, width⟩ := sound.width
  rw [hk, width cell hcell]

theorem sound_of_build {registry : Registry} {columns : Nat} {cells : List (List Int)}
    {choice : ShapeChoice} {points? : Option Int} {m : Mesh}
    (width : ∀ cell ∈ cells, cell.length = columns)
    (h : build registry columns cells choice points? = .ok m) : m.Sound := by
  obtain ⟨shape, points, admissible, rfl⟩ := (build_eq_ok width).mp h
  exact {
    positive := admissible.dim
    points := admissible.nonneg
    width := ⟨columns, admissible.vertices, admissible.wide, width⟩
    inside := admissible.inside
    nodup := admissible.nodup
    dim := rfl
    counts := count?_start shape.dim points cells
    relations := relation?_start shape.dim points cells }

/-- The store that a mesh starts with holds what the cells say. -/
theorem Sound.faithful {m : Mesh} (h : m.Sound) : Faithful m m.store := by
  have positive := h.positive
  have c0 : m.Covers 0 := ⟨by omega, by omega⟩
  have ct : m.Covers m.dim := ⟨by omega, by omega⟩
  have h0 : m.dim ≠ 0 := by omega
  have vertices : m.relationOf m.dim 0 = .ok (Incidence.ofRows m.cells) := by
    rw [relationOf_zero (by omega), vertexRows, if_pos rfl]
    rfl
  constructor
  case positive => exact positive
  case dim => exact h.dim
  case count =>
    intro d n hc
    rw [h.counts] at hc
    split at hc
    · rename_i hd
      cases hc
      rw [hd, countOf, if_pos c0, if_pos rfl]
    split at hc
    · rename_i hd
      cases hc
      rw [hd, countOf, if_pos ct, if_neg h0, if_pos rfl]
    · cases hc
  case relation =>
    intro a b r hr
    rw [h.relations] at hr
    split at hr
    · rename_i hab
      cases hr
      rw [hab.1, hab.2, vertices]
    · cases hr
  case ends =>
    intro a b r hr
    rw [h.relations] at hr
    split at hr
    · rename_i hab
      rw [hab.1, hab.2, h.counts, h.counts, if_neg h0, if_pos rfl, if_pos rfl]
      exact ⟨rfl, rfl⟩
    · cases hr
  case vertices =>
    intro d n hc hd _
    rw [h.counts, if_neg hd] at hc
    split at hc
    · rename_i top
      rw [h.relations, if_pos ⟨top, rfl⟩]
      rfl
    · cases hc
  case bare =>
    intro a b r hr
    rw [h.relations] at hr
    split at hr
    · rename_i hab
      rw [hab.1, hab.2]
      exact ⟨not_overflows_top, fun _ => rfl⟩
    · cases hr
  case cells =>
    intro d n hc hd
    rw [h.counts] at hc
    split at hc
    · rename_i bottom
      rw [h.relations, if_pos ⟨rfl, bottom⟩]
      rfl
    · cases hc
  case bottom => rw [h.counts, if_pos rfl]
  case top => rw [h.counts, if_neg h0, if_pos rfl]

theorem Accepted.sound {m : Mesh} (h : m.Accepted) : m.Sound := by
  obtain ⟨registry, a, choice, points?, full, h⟩ := h
  obtain ⟨count, columns, extents, -, h⟩ := ofArray_eq_ok.mp h
  exact sound_of_build (fun cell hc => CellArray.length_of_mem_rows full extents hc) h

/-- Two triangles with an edge in common. -/
def strip : Mesh :=
  ⟨Shape.simplex 2, [[0, 1, 2], [1, 2, 3]], 4,
    ⟨2, [(0, 4), (2, 2)], [((2, 0), Incidence.ofRows [[0, 1, 2], [1, 2, 3]])]⟩⟩

theorem strip_accepted : strip.Accepted :=
  ⟨Registry.builtin, ⟨[2, 3], .word, [0, 1, 2, 1, 2, 3]⟩, .inferred, none, rfl, rfl⟩

end Mesh

end MeshIncidence
