import Mathlib
import MeshIncidence.Numbering
import MeshIncidence.Proofs.Outcome

/-!
Vertices by other names. Numbering compares vertices with each other and never looks at a single one. So
if every vertex gets a name of its own, each step ends alike: with the same failure, or with the same
entities in each cell, and the vertices of each entity renamed and put in ascending order again.
-/
namespace MeshIncidence

variable {rename : Int → Int}

namespace VertexList

/-- Vertices by other names, in ascending order. -/
def renamed (rename : Int → Int) (vertices : List Int) : List Int :=
  ascending (vertices.map rename)

theorem renamed_perm (vertices : List Int) :
    (renamed rename vertices).Perm (vertices.map rename) := ascending_perm _

@[simp] theorem renamed_nil : renamed rename [] = [] := by simp [renamed, ascending]

@[simp] theorem length_renamed (vertices : List Int) :
    (renamed rename vertices).length = vertices.length := by
  simp [renamed, length_ascending]

theorem mem_renamed {vertices : List Int} {v : Int} :
    v ∈ renamed rename vertices ↔ ∃ u ∈ vertices, rename u = v := by
  simp [renamed, mem_ascending]

theorem renamed_ascending (vertices : List Int) :
    renamed rename (ascending vertices) = ascending (vertices.map rename) :=
  ascending_congr ((ascending_perm vertices).map rename)

theorem subsetOf_renamed (injective : Function.Injective rename) (a b : List Int) :
    subsetOf (renamed rename a) (renamed rename b) = subsetOf a b := by
  rw [Bool.eq_iff_iff]
  simp [subsetOf_iff, mem_renamed, injective.eq_iff]

theorem sameVertices_renamed (injective : Function.Injective rename) (a b : List Int) :
    sameVertices (renamed rename a) (renamed rename b) = sameVertices a b := by
  simp [sameVertices, subsetOf_renamed injective]

end VertexList

namespace Shape

variable {shape : Shape}

theorem pick_map (cell places : List Int) :
    pick (cell.map rename) places = (pick cell places).map (List.map rename) := by
  refine Outcome.mapM_translated (fun i => ?_) places
  rw [Position.entry?_map]
  cases Position.entry? cell i <;> rfl

theorem splitBy_map (name : String) (template : Int → Except ShapeFault (List (List Int)))
    (cell : List Int) (dim : Int) : splitBy name template (cell.map rename) dim =
      (splitBy name template cell dim).map (List.map (List.map rename)) := by
  unfold splitBy
  cases template 0 with
  | error e => rfl
  | ok corners =>
    simp only [Outcome.ok_bind, List.length_map]
    split
    · rfl
    · cases template dim with
      | error e => rfl
      | ok parts => exact Outcome.mapM_translated (pick_map cell) parts

/-- A plain shape splits a cell by places, whatever its vertices are called. -/
theorem Plain.split_map (plain : shape.Plain) (cell : List Int) (dim : Int) :
    shape.split (cell.map rename) dim =
      (shape.split cell dim).map (List.map (List.map rename)) := by
  rw [plain, splitBy_map]

end Shape

/-- Rows that are not there stay empty. -/
theorem getD_map_rows {f : List Int → List Int} (empty : f [] = []) (rows : List (List Int))
    (i : Nat) : (rows.map f).getD i [] = f (rows.getD i []) := by
  by_cases known : i < rows.length
  · simp [known]
  · simp [Nat.le_of_not_lt known, empty]

namespace Numbering

variable {shape : Shape} (n : Numbering) (cell entity : Nat)

/-- The numbering with other names for the vertices. -/
def renamed (rename : Int → Int) (n : Numbering) : Numbering :=
  ⟨n.cellEntities, n.entityVertices.map (VertexList.renamed rename)⟩

@[simp] theorem cellEntities_renamed : (n.renamed rename).cellEntities = n.cellEntities := rfl

@[simp] theorem count_renamed : (n.renamed rename).count = n.count := by simp [renamed, count]

@[simp] theorem cellRows_renamed : (n.renamed rename).cellRows = n.cellRows := rfl

theorem verticesOf_renamed :
    (n.renamed rename).verticesOf entity = VertexList.renamed rename (n.verticesOf entity) :=
  getD_map_rows VertexList.renamed_nil _ _

theorem assign_renamed :
    (n.renamed rename).assign cell entity = (n.assign cell entity).renamed rename := rfl

theorem extend_renamed (vertices : List Int) :
    (n.renamed rename).extend (VertexList.renamed rename vertices) =
      (n.extend vertices).renamed rename := by
  simp [extend, renamed]

/-- The search finds the same entity. -/
theorem find_renamed (injective : Function.Injective rename) (vertices touching : List Int) :
    (n.renamed rename).find cell (VertexList.renamed rename vertices) touching =
      n.find cell vertices touching := by
  induction touching with
  | nil => rfl
  | cons other rest ih =>
    simp only [find, cellEntities_renamed, verticesOf_renamed,
      VertexList.sameVertices_renamed injective, ih]

theorem place_renamed (injective : Function.Injective rename) (touching part : List Int) :
    (n.renamed rename).place cell touching (part.map rename) =
      (n.place cell touching part).map (renamed rename) := by
  simp only [place, ← VertexList.renamed_ascending, find_renamed n cell injective]
  cases n.find cell (VertexList.ascending part) touching with
  | error e => rfl
  | ok found =>
    cases found with
    | some e => rfl
    | none => simp [extend_renamed, assign_renamed]

theorem placeChecked_renamed (injective : Function.Injective rename) (e : Expected)
    (touching part : List Int) :
    (n.renamed rename).placeChecked shape e cell touching (part.map rename) =
      (n.placeChecked shape e cell touching part).map (renamed rename) := by
  simp only [placeChecked, List.length_map, place_renamed n cell injective]
  split <;> rfl

theorem visit_renamed (plain : shape.Plain) (injective : Function.Injective rename) (e : Expected)
    (entry : (List Int × List Int) × Nat) :
    visit shape e (n.renamed rename) ((entry.1.1.map rename, entry.1.2), entry.2) =
      (visit shape e n entry).map (renamed rename) := by
  simp only [visit, plain.split_map]
  cases shape.split entry.1.1 e.dim with
  | error e => rfl
  | ok parts =>
    simp only [Outcome.map_ok, Outcome.mapError_ok, Outcome.ok_bind, List.length_map]
    split
    · rfl
    · exact Outcome.foldlM_translated
        (fun k part => placeChecked_renamed k entry.2 injective e entry.1.2 part) parts n

/-- Cells by other names are numbered alike. -/
theorem ofCells_renamed (plain : shape.Plain) (injective : Function.Injective rename) (e : Expected)
    (cells touching : List (List Int)) :
    ofCells shape e (cells.map (List.map rename)) touching =
      (ofCells shape e cells touching).map (renamed rename) := by
  have translated := Outcome.foldlM_translated (fun k entry => visit_renamed k plain injective e entry)
    (cells.zip touching).zipIdx (initial cells.length)
  simp only [ofCells, List.zip_map_left, List.zipIdx_map, List.length_map]
  exact translated

end Numbering

end MeshIncidence
