import MeshIncidence.Mesh.CellArray
import MeshIncidence.Request
import MeshIncidence.Shape.Registry

/-!
Meshes of cells of one shape, each given by the numbers of its vertices. A mesh starts with the counts
of vertices and cells and with the vertices of each cell; everything else is found on request.
-/
namespace MeshIncidence

structure Mesh where
  shape : Shape
  cells : List (List Int)
  pointCount : Int
  store : Store

/-- How the shape of a mesh's cells is told. -/
inductive ShapeChoice where
  | inferred
  | named (name : String)
  | given (shape : Shape)

namespace Mesh

/-- Cells of unknown shape are simplices. -/
def resolveShape (registry : Registry) (columns : Nat) : ShapeChoice → Except Fault Shape
  | .inferred =>
    if columns < 2 then .error (.cells (.noShape columns))
    else .ok (Shape.simplex (columns - 1))
  | .named name => (registry.lookup name).mapError .registry
  | .given shape => .ok shape

/-- The number of vertices: the given one, or one more than the greatest vertex. Cells must not
refer beyond it. -/
def countPoints (cells : List (List Int)) (points? : Option Int) : Except Fault Int :=
  if cells.isEmpty then .ok (points?.getD 0)
  else
    match cells.flatten.min?, cells.flatten.max? with
    | some least, some greatest =>
      let points := points?.getD (greatest + 1)
      if least < 0 ∨ points ≤ greatest then
        .error (.cells (.vertexOutside points least greatest))
      else .ok points
    | _, _ => .error (.cells .noVertices)

/-- The cells that have a vertex twice. -/
def repeating (cells : List (List Int)) : List Nat :=
  (cells.zipIdx.filter fun cell => !decide cell.1.Nodup).map Prod.snd

/-- The store a mesh starts with. -/
def seed (dim : Int) (columns : Nat) (cells : List (List Int)) (points : Int) :
    Except Fault Store :=
  Store.blank? dim >>= fun s =>
    s.setCount 0 points >>= fun s =>
      s.setCount dim cells.length >>= fun s =>
        if columns = 0 then .error (.cells .noVertices)
        else s.setRelation dim 0 (Incidence.ofRows cells)

/-- A mesh of the given cells, `columns` vertices each. -/
def build (registry : Registry) (columns : Nat) (cells : List (List Int)) (choice : ShapeChoice)
    (points? : Option Int) : Except Fault Mesh :=
  resolveShape registry columns choice >>= fun shape =>
    if shape.dim < 1 then .error (.cells (.shapeDimension shape.dim))
    else shape.vertexCount.mapError Fault.shape >>= fun vertices =>
      if columns ≠ vertices then .error (.cells (.columns shape.name vertices columns))
      else countPoints cells points? >>= fun points =>
        if repeating cells ≠ [] then .error (.cells (.repeatedVertex (repeating cells)))
        else (seed shape.dim columns cells points).map fun s => ⟨shape, cells, points, s⟩

/-- A mesh whose cells are the rows of an array. -/
def ofArray (registry : Registry) (a : CellArray) (choice : ShapeChoice)
    (points? : Option Int) : Except Fault Mesh :=
  match a.extents with
  | [count, columns] =>
    if a.element.fractional then .error (.cells (.fractional a.element.name))
    else build registry columns (a.rows count columns) choice points?
  | _ => .error (.cells (.rank a.extents))

def dim (m : Mesh) : Int := m.shape.dim

def text (m : Mesh) : String :=
  s!"Mesh(cell_type={m.shape.name}, manifold_dim={m.dim}, n_points={m.pointCount}, " ++
  s!"n_cells={m.cells.length})\n    entities    : " ++ m.store.countsText ++
  "\n    connectivity: " ++ m.store.pairsText

end Mesh

end MeshIncidence
