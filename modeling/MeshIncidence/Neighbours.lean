import MeshIncidence.Resolution

/-!
Neighbour relations between the vertices and the cells of a mesh.
-/
namespace MeshIncidence

inductive Neighbours where
  | pointToCells
  | pointToPoints
  | cellToCells
  | cellToPoints
  deriving DecidableEq, Repr

namespace Neighbours

/-- The relation asked for. The vertices of the cells are always there. -/
def find (shape : Shape) : Neighbours → Request Incidence
  | pointToCells => Resolution.fetch shape 0 shape.dim
  | pointToPoints => Resolution.fetch shape 0 0
  | cellToCells => Resolution.fetch shape shape.dim shape.dim
  | cellToPoints => Request.read fun s => s.relation shape.dim 0

end Neighbours

end MeshIncidence
