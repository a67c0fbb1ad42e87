import MeshIncidence.Resolution

/-!
Views of single entities. A view is a dimension and a number; whatever is asked of it is read from the
store, and found first if it is not there.
-/
namespace MeshIncidence

structure Entity where
  dim : Int
  index : Nat
  deriving DecidableEq, Repr

namespace Entity

/-- The entity with the given number, if there is one. -/
def view (shape : Shape) (dim index : Int) : Request Entity := do
  let n ← Resolution.entities shape dim
  if 0 ≤ index ∧ index < n then pure ⟨dim, index.toNat⟩
  else Request.fail (.entityOutside index n dim)

/-- The numbers of the incident entities of a dimension. -/
def incidentIndices (shape : Shape) (e : Entity) (dim : Int) : Request (List Int) := do
  let r ← Resolution.fetch shape e.dim dim
  Request.lift ((r.row e.index).mapError Fault.encoding)

/-- Views of the incident entities of a dimension. -/
def incident (shape : Shape) (e : Entity) (dim : Int) : Request (List Entity) := do
  (← e.incidentIndices shape dim).mapM (view shape dim)

/-- A vertex is its own only vertex. Its number has to be a word. -/
def itself (e : Entity) : Except Fault (List Int) :=
  if Word.fits e.index then .ok [(e.index : Int)] else .error (.encoding .notAWord)

def vertices (shape : Shape) (e : Entity) : Request (List Int) :=
  if e.dim = 0 then Request.lift e.itself else e.incidentIndices shape 0

/-- All entities of a dimension by number, each with its vertices. -/
def listing (shape : Shape) (dim : Int) : Request (List (Entity × List Int)) := do
  let n ← Resolution.entities shape dim
  (List.range n).mapM fun index : Nat => do
    let e ← view shape dim index
    let found ← e.vertices shape
    pure (e, found)

def text (e : Entity) : String := s!"MeshEntity(dim={e.dim}, index={e.index})"

end Entity

end MeshIncidence
