import MeshIncidence.Fault
import MeshIncidence.Position
import MeshIncidence.Text.Quoted

/-!
Shapes of reference cells. A shape's template lists, for each dimension, the local vertices of every
sub-entity; splitting a cell reads the template off the cell's own vertices. `ofTemplate` is the
split every plain shape uses; a shape may also bring a split of its own.
-/
namespace MeshIncidence

structure Shape where
  label : String
  name : String
  dim : Int
  template : Int → Except ShapeFault (List (List Int))
  split : List Int → Int → Except ShapeFault (List (List Int))

namespace Shape

/-- Number of sub-entities of a dimension. -/
def localCount (s : Shape) (dim : Int) : Except ShapeFault Nat :=
  (s.template dim).map List.length

/-- Number of vertices of a cell. -/
def vertexCount (s : Shape) : Except ShapeFault Nat := s.localCount 0

/-- Number of vertices of the first sub-entity of a dimension. -/
def localVertexCount (s : Shape) (dim : Int) : Except ShapeFault Nat :=
  s.template dim >>= fun
    | [] => .error .missingEntry
    | first :: _ => .ok first.length

def text (s : Shape) : String :=
  s!"{s.label}(name=" ++ Text.quoted s.name ++ s!", dim={s.dim})"

/-- The vertices at the given places of a cell. -/
def pick (vertices places : List Int) : Except ShapeFault (List Int) :=
  places.mapM fun i =>
    match Position.entry? vertices i with
    | none => .error .missingEntry
    | some v => .ok v

/-- Splits a cell as a template says. -/
def splitBy (name : String) (template : Int → Except ShapeFault (List (List Int)))
    (vertices : List Int) (dim : Int) : Except ShapeFault (List (List Int)) :=
  template 0 >>= fun corners =>
    if vertices.length ≠ corners.length then
      .error (.vertexCount name corners.length vertices.length)
    else template dim >>= fun parts => parts.mapM (pick vertices)

def ofTemplate (label name : String) (dim : Int)
    (template : Int → Except ShapeFault (List (List Int))) : Shape :=
  ⟨label, name, dim, template, splitBy name template⟩

/-- A shape that splits cells by its template alone. -/
def Plain (s : Shape) : Prop := s.split = splitBy s.name s.template

/-- Answers only for dimensions from zero up to the shape's own. -/
def within (name : String) (shapeDim dim : Int)
    (answer : Except ShapeFault (List (List Int))) : Except ShapeFault (List (List Int)) :=
  if 0 ≤ dim ∧ dim ≤ shapeDim then answer else .error (.dimensionOutside dim name shapeDim)

/-- A shape whose template is written out as a table, one list of sub-entities a dimension. -/
def ofTable (label name : String) (dim : Int) (table : List (List (List Int))) : Shape :=
  ofTemplate label name dim fun d =>
    within name dim d <|
      match table[d.toNat]? with
      | none => .error .missingEntry
      | some parts => .ok parts

theorem plain_ofTemplate (label name : String) (dim : Int)
    (template : Int → Except ShapeFault (List (List Int))) :
    (ofTemplate label name dim template).Plain := rfl

theorem plain_ofTable (label name : String) (dim : Int) (table : List (List (List Int))) :
    (ofTable label name dim table).Plain := rfl

end Shape

end MeshIncidence
