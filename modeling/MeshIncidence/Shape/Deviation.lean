import MeshIncidence.Shape.Basic

/-!
Shapes that do not split cells as their template says. A deviation alters the parts of a split; it
may set in only at cells whose first vertex reaches a threshold.
-/
namespace MeshIncidence.Shape

inductive Deviation where
  | dropLast
  | repeatLast
  | lengthenLast
  | reverse
  deriving DecidableEq, Repr

namespace Deviation

/-- What becomes of the parts. The last part is needed where it is repeated or lengthened, and its
first vertex where it is lengthened. -/
def alter (parts : List (List Int)) : Deviation → Except ShapeFault (List (List Int))
  | dropLast => .ok parts.dropLast
  | repeatLast =>
    match parts.getLast? with
    | none => .error .missingEntry
    | some part => .ok (parts ++ [part])
  | lengthenLast =>
    match parts.getLast? with
    | some (v :: part) => .ok (parts.dropLast ++ [v :: part ++ [v]])
    | _ => .error .missingEntry
  | reverse => .ok (parts.reverse.map List.reverse)

end Deviation

/-- Whether a deviation has set in at a cell. -/
def reaches (vertices : List Int) : Option Int → Except ShapeFault Bool
  | none => .ok true
  | some start =>
    match vertices with
    | [] => .error .missingEntry
    | v :: _ => .ok (decide (start ≤ v))

/-- A tabulated shape, with the deviation of its split if there is one. -/
def custom (name : String) (dim : Int) (table : List (List (List Int)))
    (deviation? : Option Deviation) (start? : Option Int) : Shape :=
  let plain := ofTable "CustomCell" name dim table
  match deviation? with
  | none => plain
  | some deviation =>
    { plain with
      split := fun vertices d =>
        plain.split vertices d >>= fun parts =>
          reaches vertices start? >>= fun reached =>
            if reached then deviation.alter parts else .ok parts }

end MeshIncidence.Shape
