import MeshIncidence.Request
import MeshIncidence.VertexList

/-!
Relations from other relations: by turning one round, or by going through a third dimension and
keeping the entities that belong. Rows keep the order in which entities are met.
-/
namespace MeshIncidence.Derivation

/-- Records (d0, d1) as (d1, d0) turned round. -/
def transposeInto (d0 d1 : Int) : Request Unit := do
  Request.note (.transposing d0 d1)
  match ← Request.read fun s => s.findRelation d1 d0 with
  | none => Request.fail (.inconsistent (.nothingToTranspose d1 d0))
  | some r =>
    let n ← Request.read fun s => s.size d0
    let turned ← Request.lift (r.transpose? n)
    Request.write fun s => s.setRelation d0 d1 turned

/-- Which of the entities met belong to a row. -/
abbrev Keeps : Type := Int → Except Fault Bool

/-- Neighbours: every entity but the row's own. -/
def others (e0 : Nat) (e1 : Int) : Except Fault Bool := .ok (decide (e1 ≠ e0))

/-- The row of an entity that another row refers to. -/
def rowOf (onward : List (List Int)) (e : Int) : Except Fault (List Int) :=
  match Position.entry? onward e with
  | none => .error .entryOutside
  | some row => .ok row

/-- Parts: entities whose vertices are all among the given ones. -/
def contained (vertices : List Int) (partVertices : List (List Int)) (e1 : Int) :
    Except Fault Bool :=
  (rowOf partVertices e1).map fun part => VertexList.subsetOf part vertices

/-- Adds an entity to a row, unless it is there already or does not belong. -/
def gather (keeps : Keeps) (row : List Int) (e1 : Int) : Except Fault (List Int) :=
  if row.contains e1 then .ok row
  else (keeps e1).map fun keep => if keep then row ++ [e1] else row

/-- The entities met by going on from each of the given ones. -/
def reached (onward : List (List Int)) (between : List Int) : Except Fault (List Int) :=
  (between.mapM (rowOf onward)).map List.flatten

def row (onward : List (List Int)) (keeps : Keeps) (between : List Int) :
    Except Fault (List Int) :=
  reached onward between >>= fun met => met.foldlM (gather keeps) []

/-- Every row, for the rows between and what each row keeps. -/
def rows (onward : List (List Int)) (between : List (List Int × Keeps)) :
    Except Fault (List (List Int)) :=
  between.mapM fun entry => row onward entry.2 entry.1

/-- Rows of neighbours, within one dimension. -/
def neighbourRows (onward between : List (List Int)) : Except Fault (List (List Int)) :=
  rows onward (between.zipIdx.map fun entry => (entry.1, others entry.2))

/-- Rows of parts, for the vertices of wholes and of parts. -/
def partRows (onward between vertices partVertices : List (List Int)) :
    Except Fault (List (List Int)) :=
  rows onward ((between.zip vertices).map fun entry => (entry.1, contained entry.2 partVertices))

/-- The length of the longest row, and one at least. -/
def widest (rows : List (List Int)) : Nat := rows.foldl (fun n row => max n row.length) 1

/-- A relation that is one step of a way through a third dimension. -/
def step (d0 d1 a b : Int) : Request Unit := do
  if ← Request.read fun s => s.hasRelation a b then pure ()
  else Request.fail (.inconsistent (.stepMissing d0 d1 a b))

/-- Records (d0, d1) by way of dimension d. -/
def composeInto (d0 d1 d : Int) : Request Unit := do
  Request.note (.composing d0 d1 d)
  if d0 < d1 then Request.fail (.inconsistent (.risingDimensions d0 d1))
  else do
    step d0 d1 d0 d
    step d0 d1 d d1
    let between ← Request.read fun s => s.relation d0 d
    let onward ← Request.read fun s => s.relation d d1
    let found ←
      if d0 = d1 then Request.lift (neighbourRows onward.rows between.rows)
      else do
        let wholes ← Request.read fun s => s.relation d0 0
        let parts ← Request.read fun s => s.relation d1 0
        Request.lift (partRows onward.rows between.rows wholes.rows parts.rows)
    Request.note (.composed d0 d1 found.length (widest found))
    Request.write fun s => s.setRelation d0 d1 (Incidence.ofRows found)

end MeshIncidence.Derivation
