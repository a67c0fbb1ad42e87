import Mathlib
import MeshIncidence.Mesh.Basic
import MeshIncidence.Resolution

/-!
The one way from the cells of a mesh to each count and each relation, without a store. What a request
has to find is fixed by the shape, the cells and the number of vertices; the definitions here say
what it is, or which failure stands in its place. The failure alone may depend on what was asked for
before, and only where the shape splits off vertices that cannot be stored.
-/
namespace MeshIncidence.Mesh

/-- The number of vertices, as it is recorded. -/
def points (m : Mesh) : Nat := m.pointCount.toNat

/-- The cells that have a vertex in common with each cell. -/
def touching (m : Mesh) : Except Fault (List (List Int)) :=
  (Incidence.ofRows m.cells).transpose? m.points >>= fun stars =>
    Derivation.neighbourRows stars.rows m.cells

/-- The numbers given to the sub-entities of a dimension between zero and that of the cells. -/
def numbering (m : Mesh) (dim : Int) : Except Fault Numbering :=
  m.touching >>= fun touching =>
    Numbering.expected m.shape dim >>= fun expected =>
      Numbering.ofCells m.shape expected m.cells touching

def Covers (m : Mesh) (dim : Int) : Prop := 0 ≤ dim ∧ dim ≤ m.dim

instance (m : Mesh) (dim : Int) : Decidable (m.Covers dim) :=
  inferInstanceAs (Decidable (0 ≤ dim ∧ dim ≤ m.dim))

/-- The number of entities of a dimension. -/
def countOf (m : Mesh) (dim : Int) : Except Fault Nat :=
  if m.Covers dim then
    if dim = 0 then .ok m.points
    else if dim = m.dim then .ok m.cells.length
    else (m.numbering dim).map Numbering.count
  else .error (.entityDimension dim m.dim)

/-- The vertices of every entity of a dimension above zero. -/
def vertexRows (m : Mesh) (dim : Int) : Except Fault (List (List Int)) :=
  if dim = m.dim then .ok m.cells else (m.numbering dim).map Numbering.entityVertices

/-- The entities of every cell, of a dimension below that of the cells. -/
def cellRows (m : Mesh) (dim : Int) : Except Fault (List (List Int)) :=
  if dim = 0 then .ok m.cells else (m.numbering dim).map Numbering.cellRows

/-- The entities of a dimension above zero at every vertex. -/
def stars (m : Mesh) (dim : Int) : Except Fault Incidence :=
  m.vertexRows dim >>= fun rows => (Incidence.ofRows rows).transpose? m.points

/-- Rows found by way of the vertices, between dimensions above zero. -/
def throughVertices (m : Mesh) (d0 d1 : Int) : Except Fault (List (List Int)) :=
  m.vertexRows d0 >>= fun wholes =>
    m.stars d1 >>= fun stars =>
      if d0 = d1 then Derivation.neighbourRows stars.rows wholes
      else m.vertexRows d1 >>= fun parts => Derivation.partRows stars.rows wholes wholes parts

/-- Vertices that have a cell in common. -/
def vertexNeighbours (m : Mesh) : Except Fault (List (List Int)) :=
  m.stars m.dim >>= fun stars => Derivation.neighbourRows m.cells stars.rows

/-- The rows of a relation that does not rise in dimension. -/
def fallingRows (m : Mesh) (d0 d1 : Int) : Except Fault (List (List Int)) :=
  if d1 = 0 then if d0 = 0 then m.vertexNeighbours else m.vertexRows d0
  else if d0 = m.dim ∧ d1 ≠ m.dim then m.cellRows d1
  else m.throughVertices d0 d1

/-- The relation between two recorded dimensions. -/
def relationOf (m : Mesh) (d0 d1 : Int) : Except Fault Incidence :=
  if d0 < d1 then
    m.fallingRows d1 d0 >>= fun rows =>
      m.countOf d0 >>= fun n => (Incidence.ofRows rows).transpose? n
  else (m.fallingRows d0 d1).map Incidence.ofRows

/-- Whether numbering a dimension finds a vertex that is no word. Its entities can be counted then, but
their vertices cannot be recorded. -/
def Overflows (m : Mesh) (dim : Int) : Prop :=
  0 < dim ∧ dim < m.dim ∧ ∃ k, m.numbering dim = .ok k ∧ Incidence.fits k.entityVertices = false

instance (m : Mesh) (dim : Int) : Decidable (m.Overflows dim) :=
  match h : m.numbering dim with
  | .ok k =>
    decidable_of_iff (0 < dim ∧ dim < m.dim ∧ Incidence.fits k.entityVertices = false) (by
      simp [Overflows, h])
  | .error _ => .isFalse (by simp [Overflows, h])

/-- The vertices of the entities of every dimension can be recorded, where the entities are found. -/
def Storable (m : Mesh) : Prop := ∀ dim, ¬ m.Overflows dim

/-- Of the dimensions that overflow, a store has counted those that are `known`. -/
def Knows (m : Mesh) (known : Int → Bool) (s : Store) : Prop :=
  ∀ dim, m.Overflows dim → (s.count? dim).isSome = known dim

/-- What comes of asking for the entities of a dimension. A dimension that overflows is counted the
first time and found to be recorded in part ever after. -/
def entitiesOf (m : Mesh) (known : Int → Bool) (dim : Int) : Except Fault Nat :=
  if m.Overflows dim then
    .error (if known dim then .inconsistent (.incidenceMissing dim) else .encoding .notAWord)
  else m.countOf dim

/-- What comes of asking for a relation: both dimensions have to be covered, and their entities
found. The entities of the cells are found where they are known, without their vertices. -/
def answerOf (m : Mesh) (known : Int → Bool) (d0 d1 : Int) : Except Fault Incidence :=
  if ¬ m.Covers d0 then .error (.dimensionOutside d0 m.dim)
  else if ¬ m.Covers d1 then .error (.dimensionOutside d1 m.dim)
  else if d0 = m.dim ∧ m.Overflows d1 ∧ known d1 then m.relationOf d0 d1
  else m.entitiesOf known d0 >>= fun _ => m.entitiesOf known d1 >>= fun _ => m.relationOf d0 d1

/-- The dimensions from zero up to that of the cells. -/
def dimensions (m : Mesh) : List Int := (List.range (m.dim + 1).toNat).map Int.ofNat

/-- What comes of asking for everything: the first failure among the counts and then the
relations. -/
def everythingOf (m : Mesh) (known : Int → Bool) : Except Fault Unit :=
  (m.dimensions.forM fun d => (m.entitiesOf known d).map fun _ => ()) >>= fun _ =>
    m.dimensions.forM fun d0 => m.dimensions.forM fun d1 =>
      (m.answerOf known d0 d1).map fun _ => ()

end MeshIncidence.Mesh
