import MeshIncidence.Shape.Basic

/-!
Products of intervals, given by tables. Local vertex i of the quadrilateral and the hexahedron sits
at the reference point whose coordinates are the binary digits of i, lowest first.
-/
namespace MeshIncidence.Shape

/-- The shape of a table whose last entry is the cell itself. -/
def tensor (name : String) (table : List (List (List Int))) : Shape :=
  ofTable "TensorProductCell" name (table.length - 1) table

def quadrilateral : Shape := tensor "quadrilateral" [
  [[0], [1], [2], [3]],
  [[0, 1], [0, 2], [1, 3], [2, 3]],
  [[0, 1, 2, 3]]]

def hexahedron : Shape := tensor "hexahedron" [
  [[0], [1], [2], [3], [4], [5], [6], [7]],
  [[0, 1], [0, 2], [0, 4], [1, 3], [1, 5], [2, 3], [2, 6], [3, 7], [4, 5], [4, 6], [5, 7], [6, 7]],
  [[0, 1, 2, 3], [0, 1, 4, 5], [0, 2, 4, 6], [1, 3, 5, 7], [2, 3, 6, 7], [4, 5, 6, 7]],
  [[0, 1, 2, 3, 4, 5, 6, 7]]]

end MeshIncidence.Shape
