import MeshIncidence.Shape.Deviation
import MeshIncidence.Shape.Registry

/-!
Shapes as they are described from outside.
-/
namespace MeshIncidence.Shape

inductive Description where
  | registered (name : String)
  | simplex (dim : Int)
  | tensor (name : String) (table : List (List (List Int)))
  | custom (name : String) (dim : Int) (table : List (List (List Int)))
      (deviation? : Option Deviation) (start? : Option Int)
  deriving DecidableEq, Repr

/-- The shape described, found in a registry where only its name is given. -/
def Description.build (registry : Registry) : Description → Except Fault Shape
  | registered name => (registry.lookup name).mapError Fault.registry
  | simplex dim => (simplex? dim).mapError Fault.shape
  | tensor name table => .ok (Shape.tensor name table)
  | custom name dim table deviation? start? =>
    .ok (Shape.custom name dim table deviation? start?)

end MeshIncidence.Shape
