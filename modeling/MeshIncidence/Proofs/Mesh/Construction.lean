import Mathlib
import MeshIncidence.Mesh.Basic
import MeshIncidence.Proofs.Outcome
import MeshIncidence.Proofs.Store.Growth
import MeshIncidence.VertexList

/-!
When cells make a mesh. Each step of the construction succeeds exactly where a condition on the cells
holds, and `build_eq_ok` puts the steps together. Cells that are refused for a vertex they have twice are
those with equal neighbours in ascending order.
-/
namespace MeshIncidence

namespace VertexList

/-- Two neighbours in a list are equal. -/
def stutters (xs : List Int) : Bool := (xs.zip xs.tail).any fun p => p.1 == p.2

theorem stutters_cons_cons (x y : Int) (xs : List Int) :
    stutters (x :: y :: xs) = (x == y || stutters (y :: xs)) := rfl

theorem stutters_iff_of_pairwise {xs : List Int} (h : xs.Pairwise (· ≤ ·)) :
    stutters xs = true ↔ ¬ xs.Nodup := by
  induction xs with
  | nil => simp [stutters]
  | cons x xs ih =>
    obtain ⟨least, others⟩ := List.pairwise_cons.mp h
    cases xs with
    | nil => simp [stutters]
    | cons y xs =>
      -- The first entry comes again only if it is also the second one.
      have again : x ∈ y :: xs ↔ x = y := by
        constructor
        · intro hx
          have low := least y (List.mem_cons_self ..)
          rcases List.mem_cons.mp hx with same | hx
          · exact same
          · exact le_antisymm low ((List.pairwise_cons.mp others).1 x hx)
        · rintro rfl
          exact List.mem_cons_self ..
      rw [stutters_cons_cons, Bool.or_eq_true, beq_iff_eq, ih others, List.nodup_cons (a := x),
        again, not_and_or, not_not]

/-- A list has an entry twice where its ascending order has equal neighbours. -/
theorem stutters_ascending (xs : List Int) : stutters (ascending xs) = !decide xs.Nodup := by
  rw [Bool.eq_iff_iff, stutters_iff_of_pairwise (pairwise_ascending xs),
    (ascending_perm xs).nodup_iff]
  simp

end VertexList

namespace Mesh

variable {registry : Registry} {columns : Nat} {cells : List (List Int)} {choice : ShapeChoice}
  {points? : Option Int}

/-- The cells that have a vertex twice are found by comparing neighbours in ascending order. -/
theorem repeating_eq_stutters : repeating cells =
    (cells.zipIdx.filter fun cell => VertexList.stutters (VertexList.ascending cell.1)).map
      Prod.snd := by
  simp only [repeating, VertexList.stutters_ascending]

theorem repeating_eq_nil_iff : repeating cells = [] ↔ ∀ cell ∈ cells, cell.Nodup := by
  rw [repeating, List.map_eq_nil_iff, List.filter_eq_nil_iff]
  constructor
  · intro none cell hcell
    obtain ⟨i, hi, rfl⟩ := List.mem_iff_getElem.mp hcell
    simpa using none (cells[i], i) (List.mem_zipIdx_iff_getElem?.mpr (by simp [hi]))
  · intro nodup entry hentry
    simpa using nodup entry.1 (List.fst_mem_of_mem_zipIdx hentry)

/-- The shape that a choice stands for, if cells have `columns` vertices. -/
inductive Chosen (registry : Registry) (columns : Nat) : ShapeChoice → Shape → Prop where
  | inferred (above : 2 ≤ columns) :
    Chosen registry columns .inferred (Shape.simplex (columns - 1))
  | named {name : String} {shape : Shape} (registered : registry.find? name = some shape) :
    Chosen registry columns (.named name) shape
  | given (shape : Shape) : Chosen registry columns (.given shape) shape

theorem resolveShape_eq_ok {shape : Shape} :
    resolveShape registry columns choice = .ok shape ↔ Chosen registry columns choice shape := by
  constructor
  · intro h
    cases choice with
    | inferred =>
      rw [resolveShape] at h
      split at h
      · cases h
      · cases h
        exact .inferred (by omega)
    | named name =>
      rw [resolveShape, Outcome.mapError_eq_ok, Registry.lookup] at h
      split at h
      · cases h
      · rename_i found
        cases h
        exact .named found
    | given shape =>
      cases h
      exact .given shape
  · intro h
    cases h with
    | inferred above => rw [resolveShape, if_neg (by omega)]
    | named registered => rw [resolveShape, Registry.lookup, registered, Outcome.mapError_ok]
    | given => rfl

/-- The number of vertices: as many as are given, or else one more than the greatest one. -/
inductive Counted (cells : List (List Int)) : Option Int → Int → Prop where
  | given (points : Int) : Counted cells (some points) points
  | bare (h : cells = []) : Counted cells none 0
  | greatest {v : Int} (mem : v ∈ cells.flatten) (above : ∀ w ∈ cells.flatten, w ≤ v) :
    Counted cells none (v + 1)

theorem countPoints_eq_ok {points : Int} (nonempty : ∀ cell ∈ cells, cell ≠ []) :
    countPoints cells points? = .ok points ↔
      Counted cells points? points ∧ ∀ cell ∈ cells, ∀ v ∈ cell, 0 ≤ v ∧ v < points := by
  rw [← List.forall_mem_flatten]
  cases cells with
  | nil =>
    constructor
    · intro h
      cases h
      cases points? with
      | none => exact ⟨.bare rfl, by simp⟩
      | some points => exact ⟨.given points, by simp⟩
    · rintro ⟨counted, -⟩
      cases counted with
      | given => rfl
      | bare => rfl
      | greatest mem => cases mem
  | cons cell cells =>
    obtain ⟨v, hv⟩ := List.exists_mem_of_ne_nil _ (nonempty cell (List.mem_cons_self ..))
    have some : (cell :: cells).flatten ≠ [] := by
      apply List.ne_nil_of_mem (a := v)
      simp [hv]
    obtain ⟨least, hleast⟩ := Option.isSome_iff_exists.mp (List.isSome_min?_of_ne_nil some)
    obtain ⟨greatest, hgreatest⟩ := Option.isSome_iff_exists.mp (List.isSome_max?_of_ne_nil some)
    obtain ⟨hl, low⟩ := List.min?_eq_some_iff.mp hleast
    obtain ⟨hg, high⟩ := List.max?_eq_some_iff.mp hgreatest
    simp only [countPoints, hleast, hgreatest, List.isEmpty_cons]
    rw [if_neg (by simp)]
    constructor
    · intro h
      split at h
      · cases h
      rename_i within
      cases h
      refine ⟨?_, fun w hw => ?_⟩
      · cases points? with
        | none => exact .greatest hg high
        | some points => exact .given points
      · have := low w hw
        have := high w hw
        omega
    · rintro ⟨counted, inside⟩
      have number : points?.getD (greatest + 1) = points := by
        cases counted with
        | given => rfl
        | bare h => cases h
        | greatest mem above =>
          have := above greatest hg
          have := high _ mem
          rw [Option.getD_none]
          omega
      have := inside least hl
      have := inside greatest hg
      rw [number, if_neg (by omega)]

/-- The store that cells start with. -/
def start (dim points : Int) (cells : List (List Int)) : Store :=
  ⟨dim, [(0, points.toNat), (dim, cells.length)], [((dim, 0), Incidence.ofRows cells)]⟩

theorem count?_start (dim points : Int) (cells : List (List Int)) (d : Int) :
    (start dim points cells).count? d =
      if d = 0 then some points.toNat else if d = dim then some cells.length else none := by
  rw [Store.count?, start, List.lookup_cons, List.lookup_cons, List.lookup_nil]
  by_cases bottom : d = 0
  · rw [if_pos bottom, beq_iff_eq.mpr bottom]
  rw [if_neg bottom, beq_false_of_ne bottom]
  by_cases top : d = dim
  · rw [if_pos top, beq_iff_eq.mpr top]
  · rw [if_neg top, beq_false_of_ne top]

theorem relation?_start (dim points : Int) (cells : List (List Int)) (a b : Int) :
    (start dim points cells).relation? a b =
      if a = dim ∧ b = 0 then some (Incidence.ofRows cells) else none := by
  rw [Store.relation?, start, List.lookup_cons, List.lookup_nil]
  by_cases own : (a, b) = (dim, 0)
  · rw [if_pos (Prod.mk.inj own), beq_iff_eq.mpr own]
  · rw [if_neg (by simpa using own), beq_false_of_ne own]

theorem seed_eq_ok {dim points : Int} {s : Store} : seed dim columns cells points = .ok s ↔
    1 ≤ dim ∧ 0 ≤ points ∧ 1 ≤ columns ∧ s = start dim points cells := by
  constructor
  · intro h
    unfold seed Store.blank? at h
    split at h
    · cases h
    rename_i positive
    rw [Outcome.ok_bind] at h
    obtain ⟨first, hfirst, h⟩ := Outcome.bind_eq_ok.mp h
    obtain ⟨second, hsecond, h⟩ := Outcome.bind_eq_ok.mp h
    split at h
    · cases h
    rename_i some
    obtain ⟨-, -, nonneg, rfl⟩ := Store.setCount_ok hfirst
    obtain ⟨-, -, -, rfl⟩ := Store.setCount_ok hsecond
    obtain ⟨-, -, -, -, rfl⟩ := Store.setRelation_ok h
    exact ⟨by omega, nonneg, by omega, rfl⟩
  · rintro ⟨positive, nonneg, some, rfl⟩
    have above : (dim == 0) = false := beq_false_of_ne (by omega)
    have covers : 0 ≤ dim := by omega
    rw [seed, Store.blank?, if_neg (by omega), Outcome.ok_bind,
      Store.setCount_eq ⟨le_rfl, covers⟩ rfl nonneg, Outcome.ok_bind,
      Store.setCount_eq ⟨covers, le_rfl⟩ (by simp [Store.count?, List.lookup_cons, above])
        (Int.natCast_nonneg _),
      Outcome.ok_bind, if_neg (by omega),
      Store.setRelation_eq ⟨covers, le_rfl⟩ ⟨le_rfl, covers⟩ rfl
        (by simp [Store.count?, List.lookup_cons, above, Incidence.sourceCount_ofRows])]
    rfl

/-- What cells with `columns` vertices, a choice of their shape and a number of vertices have to satisfy
to make a mesh, if the choice stands for `shape` and the number is `points`. -/
structure Admissible (registry : Registry) (columns : Nat) (cells : List (List Int))
    (choice : ShapeChoice) (points? : Option Int) (shape : Shape) (points : Int) : Prop where
  chosen : Chosen registry columns choice shape
  dim : 1 ≤ shape.dim
  vertices : shape.vertexCount = .ok columns
  wide : 1 ≤ columns
  counted : Counted cells points? points
  nonneg : 0 ≤ points
  inside : ∀ cell ∈ cells, ∀ v ∈ cell, 0 ≤ v ∧ v < points
  nodup : ∀ cell ∈ cells, cell.Nodup

/-- Cells make a mesh exactly where they are admissible, and then the mesh starts with them alone. -/
theorem build_eq_ok {m : Mesh} (width : ∀ cell ∈ cells, cell.length = columns) :
    build registry columns cells choice points? = .ok m ↔ ∃ shape points,
      Admissible registry columns cells choice points? shape points ∧
        m = ⟨shape, cells, points, start shape.dim points cells⟩ := by
  have nonempty : 1 ≤ columns → ∀ cell ∈ cells, cell ≠ [] := by
    intro some cell hcell empty
    have := width cell hcell
    rw [empty, List.length_nil] at this
    omega
  constructor
  · intro h
    obtain ⟨shape, resolved, h⟩ := Outcome.bind_eq_ok.mp h
    split at h
    · cases h
    rename_i dim
    obtain ⟨vertices, hvertices, h⟩ := Outcome.bind_eq_ok.mp h
    split at h
    · cases h
    rename_i same
    have same : columns = vertices := by simpa using same
    subst same
    obtain ⟨points, hpoints, h⟩ := Outcome.bind_eq_ok.mp h
    split at h
    · cases h
    rename_i repeats
    obtain ⟨s, hs, rfl⟩ := Outcome.map_eq_ok.mp h
    obtain ⟨-, nonneg, some, rfl⟩ := seed_eq_ok.mp hs
    obtain ⟨counted, inside⟩ := (countPoints_eq_ok (nonempty some)).mp hpoints
    refine ⟨shape, points, ?_, rfl⟩
    exact {
      chosen := resolveShape_eq_ok.mp resolved
      dim := by omega
      vertices := Outcome.mapError_eq_ok.mp hvertices
      wide := some
      counted := counted
      nonneg := nonneg
      inside := inside
      nodup := repeating_eq_nil_iff.mp (by simpa using repeats) }
  · rintro ⟨shape, points, h, rfl⟩
    have dim := h.dim
    rw [build, resolveShape_eq_ok.mpr h.chosen, Outcome.ok_bind, if_neg (by omega), h.vertices,
      Outcome.mapError_ok, Outcome.ok_bind, if_neg (by simp),
      (countPoints_eq_ok (nonempty h.wide)).mpr ⟨h.counted, h.inside⟩, Outcome.ok_bind,
      if_neg (by simpa using repeating_eq_nil_iff.mpr h.nodup),
      seed_eq_ok.mpr ⟨dim, h.nonneg, h.wide, rfl⟩, Outcome.map_ok]

theorem ofArray_eq_ok {a : CellArray} {m : Mesh} : ofArray registry a choice points? = .ok m ↔
    ∃ count columns, a.extents = [count, columns] ∧ a.element.fractional = false ∧
      build registry columns (a.rows count columns) choice points? = .ok m := by
  unfold ofArray
  constructor
  · intro h
    split at h
    · rename_i count columns extents
      split at h
      · cases h
      · rename_i integral
        exact ⟨count, columns, extents, Bool.eq_false_iff.mpr integral, h⟩
    · cases h
  · rintro ⟨count, columns, extents, integral, h⟩
    rw [extents]
    dsimp only
    rwa [integral, if_neg (by simp)]

end Mesh

end MeshIncidence
