import MeshIncidence.Fault
import MeshIncidence.Position
import MeshIncidence.Shape.Basic
import MeshIncidence.VertexList

/-!
Numbers for the sub-entities of the cells. Cells are walked in order and split; a part is a new entity
only where no earlier touching cell has an entity with the same vertices. The search looks at
touching cells alone, so a part is compared with few entities and not with all of them.
-/
namespace MeshIncidence

/-- Entities found so far: by cell, in the order of the cell's parts, and by number, each with its
vertices in ascending order. -/
structure Numbering where
  cellEntities : List (List Nat)
  entityVertices : List (List Int)
  deriving DecidableEq, Repr

namespace Numbering

def initial (cells : Nat) : Numbering := ⟨List.replicate cells [], []⟩

def count (n : Numbering) : Nat := n.entityVertices.length

def verticesOf (n : Numbering) (entity : Nat) : List Int := n.entityVertices.getD entity []

/-- The first entity with the given vertices on touching cells before `cell`, in their order. -/
def find (n : Numbering) (cell : Nat) (vertices : List Int) :
    List Int → Except Fault (Option Nat)
  | [] => .ok none
  | other :: rest =>
    if (cell : Int) ≤ other then n.find cell vertices rest
    else match Position.entry? n.cellEntities other with
      | none => .error .entryOutside
      | some entities =>
        match entities.find? fun e => VertexList.sameVertices (n.verticesOf e) vertices with
        | some e => .ok (some e)
        | none => n.find cell vertices rest

/-- Gives a cell its next entity. -/
def assign (n : Numbering) (cell entity : Nat) : Numbering :=
  { n with cellEntities := n.cellEntities.modify cell fun entities => entities ++ [entity] }

/-- Adds an entity with the next number. -/
def extend (n : Numbering) (vertices : List Int) : Numbering :=
  { n with entityVertices := n.entityVertices ++ [vertices] }

/-- Numbers one part of a cell. -/
def place (cell : Nat) (touching : List Int) (n : Numbering) (part : List Int) :
    Except Fault Numbering :=
  let vertices := VertexList.ascending part
  n.find cell vertices touching >>= fun
    | some e => .ok (n.assign cell e)
    | none => .ok ((n.extend vertices).assign cell n.count)

/-- What every cell's parts have to look like. -/
structure Expected where
  dim : Int
  parts : Nat
  partVertices : Nat
  deriving DecidableEq, Repr

/-- A part of the right length, numbered. -/
def placeChecked (shape : Shape) (e : Expected) (cell : Nat) (touching : List Int)
    (n : Numbering) (part : List Int) : Except Fault Numbering :=
  if part.length ≠ e.partVertices then
    .error (.inconsistent (.subentityLength shape.name e.dim part.length e.partVertices))
  else n.place cell touching part

/-- Numbers the parts of one cell: its place, its vertices and the cells it touches are given. -/
def visit (shape : Shape) (e : Expected) (n : Numbering) (cell : (List Int × List Int) × Nat) :
    Except Fault Numbering :=
  (shape.split cell.1.1 e.dim).mapError Fault.shape >>= fun parts =>
    if parts.length ≠ e.parts then
      .error (.inconsistent
        (.subentityCount shape.name parts.length e.dim cell.2 e.parts))
    else parts.foldlM (placeChecked shape e cell.2 cell.1.2) n

/-- Numbers the parts of all cells. -/
def ofCells (shape : Shape) (e : Expected) (cells touching : List (List Int)) :
    Except Fault Numbering :=
  (cells.zip touching).zipIdx.foldlM (visit shape e) (initial cells.length)

/-- The template of a dimension, if every cell can be split by it. -/
def expected (shape : Shape) (dim : Int) : Except Fault Expected :=
  (shape.template dim).mapError Fault.shape >>= fun parts =>
    match parts with
    | [] => .error (.inconsistent (.emptyTemplate shape.name dim))
    | first :: _ =>
      shape.vertexCount.mapError Fault.shape >>= fun bound =>
        match parts.find? fun part => part.any fun i => decide (i < 0 ∨ (bound : Int) ≤ i) with
        | some part => .error (.inconsistent (.localVertexOutside shape.name part dim bound))
        | none => .ok ⟨dim, parts.length, first.length⟩

/-- The entities of each cell, as rows of a relation. -/
def cellRows (n : Numbering) : List (List Int) := n.cellEntities.map fun es => es.map Int.ofNat

end Numbering

end MeshIncidence
