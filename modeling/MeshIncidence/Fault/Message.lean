import MeshIncidence.Fault
import MeshIncidence.Text.Quoted

/-!
The wording of faults. A fault that a caller meets while reading a list or holding a number has no
wording of its own.
-/
namespace MeshIncidence
open Text

/-- The extents of an array as they are reported. -/
def extentsText (extents : List Nat) : String :=
  "torch.Size(" ++ bracketed (extents.map toString) ++ ")"

def registeredText (names : List String) : String :=
  "Current registered cell types are: " ++ bracketed (names.map quoted)

namespace EncodingFault

def message? : EncodingFault → Option String
  | noOffsets => some <|
    "Offsets array must have length >= 1 (n_sources + 1), but got len(self.offsets)=0. " ++
    "Even for 0 sources, offsets should be [0]."
  | firstOffset found => some <|
    s!"First offset must be 0, but got self.offsets[0].item()={found}. " ++
    "The offset-indices encoding requires offsets[0] == 0."
  | lastOffset found targets => some <|
    "Last offset must equal length of indices, but got " ++
    s!"last_offset={found} != indices_length={targets}. " ++
    "The offset-indices encoding requires offsets[-1] == len(indices)."
  | sourceOutside source sources =>
    some s!"Source index source={source} is out of range for self.n_sources={sources}."
  | _ => none

end EncodingFault

namespace ShapeFault

def message? : ShapeFault → Option String
  | simplexDimension dim => some s!"Simplex dimension must be >= 1, got dim={dim}."
  | dimensionOutside dim shape shapeDim => some <|
    s!"Sub-entity dimension dim={dim} is out of range for cell type " ++
    quoted shape ++ s!" of dimension {shapeDim}."
  | vertexCount shape expected found => some <|
    "Cell type " ++ quoted shape ++ s!" expects {expected} vertices per cell, got {found}."
  | missingEntry => none

end ShapeFault

namespace RegistryFault

def message : RegistryFault → String
  | nameTaken name registered => s!"Name {name} already in use.\n" ++ registeredText registered
  | unknownName name registered =>
    "No cell type is registered under the name " ++ quoted name ++ ".\n" ++
    registeredText registered

end RegistryFault

namespace CellFault

def message? : CellFault → Option String
  | rank extents => some <|
    "`cells` must have shape (n_cells, n_vertices_per_cell), " ++
    "but got cells.shape=" ++ extentsText extents ++ "."
  | fractional element =>
    some s!"`cells` must have an integer dtype, but got cells.dtype=torch.{element}."
  | noShape found => some <|
    s!"Cannot infer a cell type from {found} vertex per " ++
    "cell; meshes must have topological dimension >= 1."
  | shapeDimension dim =>
    some s!"Meshes must have topological dimension >= 1, got cell_type.dim={dim}."
  | columns shape vertices found => some <|
    "Cell type " ++ quoted shape ++ s!" has {vertices} vertices, " ++
    s!"but `cells` has {found} columns."
  | vertexOutside points least greatest => some <|
    s!"Cell vertex indices must be in range [0, {points}), but got " ++
    s!"cells.min().item()={least} and cells.max().item()={greatest}."
  | repeatedVertex cells => some <|
    s!"Cells must have distinct vertices, but {cells.length} " ++
    "cell(s) repeat a vertex: invalid_indices.tolist()=" ++
    bracketed (cells.map toString) ++ "."
  | noVertices => none

end CellFault

namespace Inconsistency

def message : Inconsistency → String
  | countRecorded dim size =>
    s!"Entities of topological dimension {dim} have already been initialized (size {size})."
  | relationRecorded d0 d1 => s!"Connectivity {d0} - {d1} has already been computed."
  | relationMissing d0 d1 => s!"Connectivity {d0} - {d1} has not been computed."
  | sourcesMissing d0 d1 =>
    s!"Cannot store connectivity {d0} - {d1} before entities of dimension {d0} exist."
  | rowCount d0 d1 rows size =>
    s!"Connectivity {d0} - {d1} has {rows} rows but there are {size} entities of dimension {d0}."
  | incidenceMissing dim =>
    s!"Entities of topological dimension {dim} exist but connectivity is missing."
  | countMissing dim =>
    s!"Connectivity for topological dimension {dim} exists but entities are missing."
  | emptyTemplate shape dim =>
    "Cell type " ++ quoted shape ++ s!" defines no sub-entities of dimension {dim}."
  | localVertexOutside shape vertices dim bound =>
    "Cell type " ++ quoted shape ++ " references local vertices " ++
    parenthesized (vertices.map toString) ++
    s!" of dimension {dim}, but cells have {bound} vertices."
  | subentityCount shape found dim cell expected =>
    "Cell type " ++ quoted shape ++
    s!" produced {found} entities of dimension {dim} for cell {cell}, expected {expected}."
  | subentityLength shape dim found expected =>
    "Cell type " ++ quoted shape ++ s!" produced an entity of dimension " ++
    s!"{dim} with {found} vertices, expected {expected}."
  | byproductMissing d0 =>
    s!"Connectivity {d0} - 0 should have been created together with " ++
    s!"the entities of dimension {d0}."
  | targetOutside bound least greatest =>
    s!"Relation references entity indices outside [0, {bound}): min={least}, max={greatest}."
  | nothingToTranspose d1 d0 =>
    s!"Cannot transpose connectivity {d1} - {d0}: it has not been computed."
  | risingDimensions d0 d1 => s!"Intersection requires d0 >= d1, got d0={d0} and d1={d1}."
  | stepMissing d0 d1 a b =>
    s!"Cannot compute connectivity {d0} - {d1} from intersection: " ++
    s!"connectivity {a} - {b} is missing."
  | entitiesUnlinked dim => s!"Entities of dimension {dim} exist but connectivity is missing."
  | entitiesUncounted dim =>
    s!"Connectivity for dimension {dim} exists but entities are missing."
  | outOfBounds d0 d1 size =>
    s!"Connectivity {d0} - {d1} references entities outside [0, {size})."
  | sharedVertices dim first second vertices =>
    s!"Entities {first} and {second} of dimension {dim} share the vertex set " ++
    bracketed (vertices.map toString) ++ "."
  | notInverse d0 d1 => s!"Connectivity {d0} - {d1} and {d1} - {d0} are not inverses."

end Inconsistency

namespace Fault

def message? : Fault → Option String
  | encoding cause => cause.message?
  | shape cause => cause.message?
  | registry cause => some cause.message
  | array _ => none
  | cells cause => cause.message?
  | inconsistent cause => some cause.message
  | storeDimension dim => some s!"Topological dimension must be >= 1, got dim={dim}."
  | dimensionOutside dim storeDim =>
    some s!"Dimension dim={dim} is out of range for a mesh of dimension {storeDim}."
  | entityDimension dim storeDim => some <|
    s!"Cannot compute entities of dimension dim={dim} for a mesh of " ++
    s!"dimension {storeDim}."
  | negativeCount size => some s!"Entity count must be non-negative, got size={size}."
  | entityOutside index count dim => some <|
    s!"Entity index={index} is out of range for {count} entities " ++ s!"of dimension {dim}."
  | entryOutside => none
  | nestingSpent => none

def dim? : Fault → Option Int
  | inconsistent cause => cause.dim?
  | _ => none

def pair? : Fault → Option (Int × Int)
  | inconsistent cause => cause.pair?
  | _ => none

end Fault

end MeshIncidence
