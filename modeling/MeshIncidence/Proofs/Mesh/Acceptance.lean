import Mathlib
import MeshIncidence.Proofs.Mesh.Accepted

/-!
Arrays that make a mesh. An array of integers with two extents makes a mesh exactly where its rows are
admissible cells, and the mesh starts with the two counts and the rows of the array, encoded by offsets that
are one width apart.
-/
namespace MeshIncidence

namespace CellArray

theorem flatten_rows_eq_take (a : CellArray) (count width : Nat) :
    (a.rows count width).flatten = a.entries.take (count * width) := by
  rw [rows]
  induction count with
  | zero => simp
  | succ count ih =>
    rw [List.range_succ, List.map_append, List.flatten_append, ih, Nat.succ_mul, List.take_add]
    simp

theorem flatten_rows {a : CellArray} {count width : Nat} (full : a.Full)
    (extents : a.extents = [count, width]) : (a.rows count width).flatten = a.entries := by
  rw [flatten_rows_eq_take, List.take_of_length_le]
  rw [full, extents, volume_eq_prod, List.prod_cons, List.prod_singleton]

end CellArray

namespace Incidence

theorem runningTotals_eq_range {width : Nat} {rows : List (List Int)}
    (h : ∀ row ∈ rows, row.length = width) (start : Int) :
    runningTotals start (rows.map List.length) =
      (List.range (rows.length + 1)).map fun i => start + ((i * width : Nat) : Int) := by
  induction rows generalizing start with
  | nil => simp [runningTotals]
  | cons row rows ih =>
    rw [List.forall_mem_cons] at h
    rw [List.map_cons, runningTotals, ih h.2, h.1, List.length_cons,
      List.range_succ_eq_map (n := _ + 1), List.map_cons, List.map_map]
    congr 1
    · simp
    · refine List.map_congr_left fun i _ => ?_
      simp only [Function.comp_apply, Nat.succ_mul]
      omega

/-- Rows of one width start one width apart. -/
theorem offsets_ofRows {width : Nat} {rows : List (List Int)}
    (h : ∀ row ∈ rows, row.length = width) : (ofRows rows).offsets =
      (List.range (rows.length + 1)).map fun i => ((i * width : Nat) : Int) := by
  change runningTotals 0 (rows.map List.length) = _
  rw [runningTotals_eq_range h]
  simp only [zero_add]

end Incidence

namespace Mesh

variable {registry : Registry} {a : CellArray} {choice : ShapeChoice} {points? : Option Int}
  {count columns : Nat}

/-- An array of integers makes a mesh exactly where its rows are admissible. The mesh is of the shape and the
number of vertices that make them so. It starts with the count of vertices, the count of cells and the vertices
of the cells, which are the rows of the array in order, and with nothing else. Cells that are refused for a
vertex they have twice are those with equal neighbours in ascending order. -/
theorem makes_mesh_iff_admissible (full : a.Full) (extents : a.extents = [count, columns])
    (integral : a.element.fractional = false) :
    ((∃ m, ofArray registry a choice points? = .ok m) ↔ ∃ shape points,
      Admissible registry columns (a.rows count columns) choice points? shape points) ∧
    (∀ m, ofArray registry a choice points? = .ok m →
      Admissible registry columns (a.rows count columns) choice points? m.shape m.pointCount ∧
      m.cells = a.rows count columns ∧ m.store.dim = m.dim ∧
      m.store.counts = [(0, m.pointCount.toNat), (m.dim, count)] ∧
      ∃ r, m.store.relations = [((m.dim, 0), r)] ∧ r.rows = a.rows count columns ∧
        r.offsets = (List.range (count + 1)).map (fun i => ((i * columns : Nat) : Int)) ∧
        r.targets = a.entries) ∧
    repeating (a.rows count columns) = ((a.rows count columns).zipIdx.filter fun cell =>
      VertexList.stutters (VertexList.ascending cell.1)).map Prod.snd := by
  have width : ∀ cell ∈ a.rows count columns, cell.length = columns :=
    fun cell hcell => CellArray.length_of_mem_rows full extents hcell
  have made : ∀ m, ofArray registry a choice points? = .ok m ↔
      build registry columns (a.rows count columns) choice points? = .ok m := by
    intro m
    rw [ofArray_eq_ok]
    constructor
    · rintro ⟨n, k, same, -, h⟩
      rw [extents] at same
      cases same
      exact h
    · exact fun h => ⟨count, columns, extents, integral, h⟩
  simp only [made]
  refine ⟨?_, fun m h => ?_, repeating_eq_stutters⟩
  · constructor
    · rintro ⟨m, h⟩
      obtain ⟨shape, points, admissible, -⟩ := (build_eq_ok width).mp h
      exact ⟨shape, points, admissible⟩
    · rintro ⟨shape, points, admissible⟩
      exact ⟨_, (build_eq_ok width).mpr ⟨shape, points, admissible, rfl⟩⟩
  · obtain ⟨shape, points, admissible, rfl⟩ := (build_eq_ok width).mp h
    refine ⟨admissible, rfl, rfl, ?_, Incidence.ofRows (a.rows count columns), rfl,
      Incidence.rows_ofRows _, ?_, CellArray.flatten_rows full extents⟩
    · rw [start, CellArray.length_rows]
      rfl
    · rw [Incidence.offsets_ofRows width, CellArray.length_rows]

/-- Two quadrilaterals, with vertices that no cell has. -/
theorem makes_mesh_of_quadrilaterals :
    let a : CellArray := ⟨[2, 4], .word, [0, 1, 2, 3, 2, 3, 6, 7]⟩
    a.Full ∧ a.extents = [2, 4] ∧ a.element.fractional = false ∧
    Admissible Registry.builtin 4 [[0, 1, 2, 3], [2, 3, 6, 7]] (.named "quadrilateral") (some 9)
      Shape.quadrilateral 9 ∧
    ∃ m, ofArray Registry.builtin a (.named "quadrilateral") (some 9) = .ok m ∧
      m.cells = [[0, 1, 2, 3], [2, 3, 6, 7]] ∧ m.store.dim = m.dim ∧
      m.store.counts = [(0, m.pointCount.toNat), (m.dim, 2)] ∧
      ∃ r, m.store.relations = [((m.dim, 0), r)] ∧ r.rows = [[0, 1, 2, 3], [2, 3, 6, 7]] ∧
        r.offsets = [0, 4, 8] := by
  intro a
  have registered : Registry.builtin.find? "quadrilateral" = some Shape.quadrilateral := rfl
  have admissible : Admissible Registry.builtin 4 [[0, 1, 2, 3], [2, 3, 6, 7]]
      (.named "quadrilateral") (some 9) Shape.quadrilateral 9 := {
    chosen := .named registered
    dim := by decide
    vertices := rfl
    wide := by decide
    counted := .given 9
    nonneg := by decide
    inside := by decide
    nodup := by decide }
  obtain ⟨accepts, starts, -⟩ :=
    @makes_mesh_iff_admissible Registry.builtin a (.named "quadrilateral") (some 9) 2 4 rfl rfl rfl
  obtain ⟨m, made⟩ := accepts.mpr ⟨_, _, admissible⟩
  obtain ⟨-, cells, dim, counts, r, relations, rows, offsets, -⟩ := starts m made
  exact ⟨rfl, rfl, rfl, admissible, m, made, cells, dim, counts, r, relations, rows, offsets⟩

end Mesh

end MeshIncidence
