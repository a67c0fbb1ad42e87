import MeshIncidence.Shape.Simplex
import MeshIncidence.Shape.Tensor

/-!
Shapes by name. A name is registered once; names are listed in the order of registration and
reported in ascending order.
-/
namespace MeshIncidence

structure Registry where
  entries : List (String × Shape)

namespace Registry

def builtin : Registry where
  entries := [Shape.simplex 1, Shape.simplex 2, Shape.simplex 3, Shape.quadrilateral,
    Shape.hexahedron].map fun s => (s.name, s)

def names (r : Registry) : List String := r.entries.map Prod.fst

/-- Names in ascending order of their characters. -/
def sortedNames (r : Registry) : List String := r.names.mergeSort fun a b => decide (a ≤ b)

def find? (r : Registry) (name : String) : Option Shape := r.entries.lookup name

def lookup (r : Registry) (name : String) : Except RegistryFault Shape :=
  match r.find? name with
  | none => .error (.unknownName name r.sortedNames)
  | some s => .ok s

/-- Registers a shape under a name, its own one by default. -/
def register (r : Registry) (s : Shape) (name? : Option String) : Except RegistryFault Registry :=
  let name := name?.getD s.name
  if r.names.contains name then .error (.nameTaken name r.sortedNames)
  else .ok ⟨r.entries ++ [(name, s)]⟩

end Registry

end MeshIncidence
