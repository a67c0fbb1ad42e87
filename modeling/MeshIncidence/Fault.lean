/-!
Causes of failure. Each part of the library has its own causes; `Fault` gathers them. An
`Inconsistency` says that recorded counts and relations disagree, or that a shape contradicts its
own template, and names the dimension or the pair of dimensions concerned.
-/
namespace MeshIncidence

/-- Why offsets and targets are not an incidence relation, or one cannot be built or read. -/
inductive EncodingFault where
  | noOffsets
  | firstOffset (found : Int)
  | lastOffset (found : Int) (targets : Nat)
  | sourceOutside (source : Int) (sources : Nat)
  | notAWord
  | lengthOutside
  | unmatchedTarget
  | negativeSource
  | sourceBeyondCount
  deriving DecidableEq, Repr

/-- Why a shape cannot answer for a dimension or split a cell. -/
inductive ShapeFault where
  | simplexDimension (dim : Int)
  | dimensionOutside (dim : Int) (shape : String) (shapeDim : Int)
  | vertexCount (shape : String) (expected found : Nat)
  | missingEntry
  deriving DecidableEq, Repr

inductive RegistryFault where
  | nameTaken (name : String) (registered : List String)
  | unknownName (name : String) (registered : List String)
  deriving DecidableEq, Repr

/-- Why nested lists are not an array of cells. -/
inductive ArrayFault where
  | ragged
  | notANumber
  | notAWord
  | absentEntry
  | mixedDepth
  | extents
  deriving DecidableEq, Repr

/-- Why an array of cells is not a mesh. -/
inductive CellFault where
  | rank (extents : List Nat)
  | fractional (element : String)
  | noShape (columns : Nat)
  | shapeDimension (dim : Int)
  | columns (shape : String) (vertices columns : Nat)
  | vertexOutside (points least greatest : Int)
  | repeatedVertex (cells : List Nat)
  | noVertices
  deriving DecidableEq, Repr

inductive Inconsistency where
  | countRecorded (dim : Int) (size : Nat)
  | relationRecorded (d0 d1 : Int)
  | relationMissing (d0 d1 : Int)
  | sourcesMissing (d0 d1 : Int)
  | rowCount (d0 d1 : Int) (rows size : Nat)
  | incidenceMissing (dim : Int)
  | countMissing (dim : Int)
  | emptyTemplate (shape : String) (dim : Int)
  | localVertexOutside (shape : String) (vertices : List Int) (dim : Int) (bound : Nat)
  | subentityCount (shape : String) (found : Nat) (dim : Int) (cell expected : Nat)
  | subentityLength (shape : String) (dim : Int) (found expected : Nat)
  | byproductMissing (d0 : Int)
  | targetOutside (bound least greatest : Int)
  | nothingToTranspose (d1 d0 : Int)
  | risingDimensions (d0 d1 : Int)
  | stepMissing (d0 d1 a b : Int)
  | entitiesUnlinked (dim : Int)
  | entitiesUncounted (dim : Int)
  | outOfBounds (d0 d1 : Int) (size : Nat)
  | sharedVertices (dim : Int) (first second : Nat) (vertices : List Int)
  | notInverse (d0 d1 : Int)
  deriving DecidableEq, Repr

inductive Fault where
  | encoding (cause : EncodingFault)
  | shape (cause : ShapeFault)
  | registry (cause : RegistryFault)
  | array (cause : ArrayFault)
  | cells (cause : CellFault)
  | inconsistent (cause : Inconsistency)
  | storeDimension (dim : Int)
  | dimensionOutside (dim storeDim : Int)
  | entityDimension (dim storeDim : Int)
  | negativeCount (size : Int)
  | entityOutside (index : Int) (count : Nat) (dim : Int)
  | entryOutside
  | nestingSpent
  deriving DecidableEq, Repr

namespace Inconsistency

/-- The dimension an inconsistency is about, if it is about one. -/
def dim? : Inconsistency → Option Int
  | countRecorded dim _ | incidenceMissing dim | countMissing dim | emptyTemplate _ dim
  | localVertexOutside _ _ dim _ | subentityCount _ _ dim _ _ | subentityLength _ dim _ _
  | entitiesUnlinked dim | entitiesUncounted dim | sharedVertices dim _ _ _ => some dim
  | _ => none

/-- The pair of dimensions an inconsistency is about, if it is about one. -/
def pair? : Inconsistency → Option (Int × Int)
  | relationRecorded d0 d1 | relationMissing d0 d1 | sourcesMissing d0 d1 | rowCount d0 d1 _ _
  | nothingToTranspose d0 d1 | risingDimensions d0 d1 | outOfBounds d0 d1 _
  | notInverse d0 d1 => some (d0, d1)
  | stepMissing _ _ a b => some (a, b)
  | byproductMissing d0 => some (d0, 0)
  | _ => none

end Inconsistency

/-- What sort of failure a fault is, for callers that only tell these apart. -/
inductive FaultKind where
  | badValue
  | badType
  | unknownKey
  | badIndex
  | refused
  | inconsistent
  deriving DecidableEq, Repr

namespace EncodingFault

def kind : EncodingFault → FaultKind
  | noOffsets | firstOffset _ | lastOffset _ _ | notAWord => .badValue
  | sourceOutside _ _ | unmatchedTarget => .badIndex
  | lengthOutside | negativeSource | sourceBeyondCount => .refused

end EncodingFault

namespace ShapeFault

def kind : ShapeFault → FaultKind
  | missingEntry => .badIndex
  | _ => .badValue

end ShapeFault

namespace RegistryFault

def kind : RegistryFault → FaultKind
  | nameTaken _ _ => .badValue
  | unknownName _ _ => .unknownKey

end RegistryFault

namespace ArrayFault

def kind : ArrayFault → FaultKind
  | ragged | notANumber | notAWord => .badValue
  | mixedDepth => .badType
  | absentEntry | extents => .refused

end ArrayFault

namespace CellFault

def kind : CellFault → FaultKind
  | fractional _ => .badType
  | noVertices => .refused
  | _ => .badValue

end CellFault

namespace Fault

def kind : Fault → FaultKind
  | encoding cause => cause.kind
  | shape cause => cause.kind
  | registry cause => cause.kind
  | array cause => cause.kind
  | cells cause => cause.kind
  | inconsistent _ => .inconsistent
  | entityOutside _ _ _ | entryOutside => .badIndex
  | nestingSpent => .refused
  | _ => .badValue

end Fault

end MeshIncidence
