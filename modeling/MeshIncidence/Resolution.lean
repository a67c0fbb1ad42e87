import MeshIncidence.Derivation
import MeshIncidence.Numbering

/-!
Counts and relations on demand. Every count and relation of a mesh has one way to it from the cells:
numbering the entities of a dimension gives their vertices and the entities of each cell; a relation
to a higher dimension is turned round from its reverse; any other goes through the vertices, except
that vertices meet through the cells. What is recorded already is not derived again.

Requests call one another. `nesting` bounds how many requests for a relation can be under way inside
one another.
-/
namespace MeshIncidence.Resolution

/-- Whether the entities of a dimension are there with the relations that define them. Fails where
only some of these are recorded. -/
def recorded (s : Store) (dim : Int) : Except Fault Bool :=
  let byCell := (s.relation? s.dim dim).isSome
  let byVertex := (s.relation? dim 0).isSome
  if (s.count? dim).isSome then
    if (!byCell && dim ≠ s.dim) || (!byVertex && dim ≠ 0) then
      .error (.inconsistent (.incidenceMissing dim))
    else .ok true
  else if byCell || byVertex then .error (.inconsistent (.countMissing dim))
  else .ok false

/-- Numbers the entities of a dimension and records them: their number, those of each cell, and their
vertices. The numbers of entities are lengths, but vertices are as the shape has split them off, and
if one of them is no word, they are not recorded. -/
def numberInto (shape : Shape) (dim : Int) : Request Nat := do
  Request.note (.numbering dim)
  let expected ← Request.lift (Numbering.expected shape dim)
  let s ← Request.store
  let cells ← Request.lift (s.relation s.dim 0)
  let touching ← Request.lift (s.relation s.dim s.dim)
  let n ← Request.lift (Numbering.ofCells shape expected cells.rows touching.rows)
  Request.write fun s => s.setCount dim n.count
  Request.write fun s => s.setRelation s.dim dim (Incidence.ofRows n.cellRows)
  let vertices ← Request.lift ((Incidence.ofRows? n.entityVertices).mapError Fault.encoding)
  Request.write fun s => s.setRelation dim 0 vertices
  Request.note (.numbered n.count dim)
  pure n.count

/-- The number of entities of a dimension, found if it is not recorded. Touching cells are asked for
through `resolve`. -/
def entitiesBy (resolve : Int → Int → Request Unit) (shape : Shape) (dim : Int) :
    Request Nat := do
  let s ← Request.store
  if s.Covers dim then do
    if ← Request.lift (recorded s dim) then pure (s.sizeOf dim)
    else do
      resolve s.dim s.dim
      numberInto shape dim
  else Request.fail (.entityDimension dim s.dim)

/-- Derives a relation between recorded dimensions. Relations it comes from are asked for through
`resolve`. -/
def deriveBy (resolve : Int → Int → Request Unit) (d0 d1 : Int) : Request Unit := do
  if d0 < d1 then do
    resolve d1 d0
    Derivation.transposeInto d0 d1
  else if 0 < d0 ∧ d1 = 0 then Request.fail (.inconsistent (.byproductMissing d0))
  else do
    let s ← Request.store
    let through := if d0 = 0 ∧ d1 = 0 then s.dim else 0
    resolve d0 through
    resolve through d1
    Derivation.composeInto d0 d1 through

/-- Derives a relation between recorded dimensions, unless it is recorded as well. -/
def settleBy (resolve : Int → Int → Request Unit) (d0 d1 : Int) : Request Unit := do
  if ← Request.read fun s => s.hasRelation d0 d1 then pure ()
  else do
    deriveBy resolve d0 d1
    Request.note (.derived d0 d1)

/-- Makes sure that a relation is recorded, with at most the given number of such requests inside
one another. -/
def relationWithin (shape : Shape) : Nat → Int → Int → Request Unit
  | 0, _, _ => Request.fail .nestingSpent
  | n + 1, d0, d1 => do
    Request.note (.requested d0 d1)
    if ← Request.read fun s => s.hasRelation d0 d1 then pure ()
    else do
      let _ ← entitiesBy (relationWithin shape n) shape d0
      let _ ← entitiesBy (relationWithin shape n) shape d1
      settleBy (relationWithin shape n) d0 d1

/-- A relation to the cells' neighbours through a higher dimension, its reverse, the vertices'
relation to the cells, and the cells' vertices. -/
def nesting : Nat := 4

/-- Makes sure that a relation is recorded. -/
def relation (shape : Shape) (d0 d1 : Int) : Request Unit := relationWithin shape nesting d0 d1

/-- The number of entities of a dimension, found if it is not recorded. -/
def entities (shape : Shape) (dim : Int) : Request Nat :=
  entitiesBy (relation shape) shape dim

/-- Makes sure that every count and every relation is recorded. -/
def everything (shape : Shape) : Request Unit := do
  let s ← Request.store
  s.dimensions.forM fun d => do
    let _ ← entities shape d
  s.dimensions.forM fun d0 => s.dimensions.forM fun d1 => relation shape d0 d1

/-- A relation, recorded first if it is not there. -/
def fetch (shape : Shape) (d0 d1 : Int) : Request Incidence := do
  relation shape d0 d1
  Request.read fun s => s.relation d0 d1

end MeshIncidence.Resolution
