import MeshIncidence.Store
import MeshIncidence.VertexList

/-!
Audit of what a store has recorded. Four checks, each with its own list of findings: counts and their
defining relations go together, relations stay inside the counts, no two entities of a dimension have
the same vertices, and a relation and its reverse say the same. Findings are tolerated and listed, or
the first one is a failure. An audit records nothing.
-/
namespace MeshIncidence

inductive Finding where
  | unlinked (dim : Int)
  | uncounted (dim : Int)
  | outOfBounds (d0 d1 : Int) (size : Nat)
  | shared (dim : Int) (first second : Nat) (vertices : List Int)
  | notInverse (d0 d1 : Int)
  deriving DecidableEq, Repr

/-- The failure that a finding is, where findings are not tolerated. -/
def Finding.inconsistency : Finding → Inconsistency
  | unlinked dim => .entitiesUnlinked dim
  | uncounted dim => .entitiesUncounted dim
  | outOfBounds d0 d1 size => .outOfBounds d0 d1 size
  | shared dim first second vertices => .sharedVertices dim first second vertices
  | notInverse d0 d1 => .notInverse d0 d1

structure Checks where
  consistency : Bool
  bounds : Bool
  duplicates : Bool
  inverses : Bool
  deriving DecidableEq, Repr

/-- The findings of every check that was made. -/
structure Report where
  inconsistentDims : Option (List Int)
  outOfBoundsPairs : Option (List (Int × Int))
  duplicateEntities : Option (List (Int × Nat × Nat))
  nonInversePairs : Option (List (Int × Int))
  deriving DecidableEq, Repr

namespace Report

/-- Nothing was found. -/
def valid (r : Report) : Bool :=
  (r.inconsistentDims.getD []).isEmpty && (r.outOfBoundsPairs.getD []).isEmpty &&
  (r.duplicateEntities.getD []).isEmpty && (r.nonInversePairs.getD []).isEmpty

end Report

namespace Audit

/-- Notes a finding, or fails at it. -/
def tell (tolerant : Bool) (found : List Finding) (finding : Finding) :
    Except Fault (List Finding) :=
  if tolerant then .ok (found ++ [finding]) else .error (.inconsistent finding.inconsistency)

/-- Looks for a finding at one place. -/
def lookAt {α : Type} (tolerant : Bool) (find : α → Except Fault (Option Finding))
    (found : List Finding) (place : α) : Except Fault (List Finding) :=
  find place >>= fun
    | none => .ok found
    | some finding => tell tolerant found finding

/-- Looks for findings at one place after the other. -/
def search {α : Type} (tolerant : Bool) (find : α → Except Fault (Option Finding)) (places : List α) :
    Except Fault (List Finding) :=
  places.foldlM (lookAt tolerant find) []

/-- A dimension that is recorded without the relations that define it, or only through them. -/
def dimFinding (s : Store) (dim : Int) : Option Finding :=
  let byCell := (s.relation? s.dim dim).isSome
  let byVertex := (s.relation? dim 0).isSome
  if (s.count? dim).isSome then
    if (dim = s.dim || byCell) && (dim = 0 || byVertex) then none else some (.unlinked dim)
  else if byCell || byVertex then some (.uncounted dim)
  else none

/-- A relation that refers to entities that are not there. -/
def boundsFinding (s : Store) (entry : (Int × Int) × Incidence) : Option Finding :=
  let size := s.sizeOf entry.1.2
  if entry.2.targets.any fun t => decide (t < 0 ∨ (size : Int) ≤ t) then
    some (.outOfBounds entry.1.1 entry.1.2 size)
  else none

/-- Compares an entity with those before it. Of these, the first one with each set of vertices has been
kept, under the vertices in ascending order. -/
def compareEntity (tolerant : Bool) (dim : Int) (scan : List (List Int × Nat) × List Finding)
    (entity : List Int × Nat) : Except Fault (List (List Int × Nat) × List Finding) :=
  let vertices := VertexList.distinct entity.1
  match scan.1.lookup vertices with
  | some first =>
    (tell tolerant scan.2 (.shared dim first entity.2 vertices)).map fun found => (scan.1, found)
  | none => .ok ((vertices, entity.2) :: scan.1, scan.2)

/-- Compares the entities of a dimension, if their vertices are recorded. -/
def compareEntities (tolerant : Bool) (s : Store) (found : List Finding) (dim : Int) :
    Except Fault (List Finding) :=
  match s.relation? dim 0 with
  | none => .ok found
  | some r => (r.rows.zipIdx.foldlM (compareEntity tolerant dim) ([], found)).map Prod.snd

/-- Row by row the same entries, in any order. -/
def sameRows (a b : List (List Int)) : Bool :=
  a.length == b.length && (a.zip b).all fun rows => rows.1.isPerm rows.2

/-- A relation to a higher dimension whose pairs, grouped by target, are not its reverse. The reverse
has a row for every target, so their number is a length and needs no check. -/
def inverseFinding (s : Store) (entry : (Int × Int) × Incidence) :
    Except Fault (Option Finding) :=
  match s.relation? entry.1.2 entry.1.1 with
  | none => .ok none
  | some reverse =>
    if entry.1.2 ≤ entry.1.1 then .ok none
    else
      ((Incidence.grouped? (entry.2.pairs.map Prod.swap) (s.sizeOf entry.1.2)).mapError
          Fault.encoding).map fun expected =>
        if sameRows expected.rows reverse.rows then none
        else some (.notInverse entry.1.1 entry.1.2)

def dims (findings : List Finding) : List Int :=
  findings.filterMap fun
    | .unlinked dim | .uncounted dim => some dim
    | _ => none

def pairs (findings : List Finding) : List (Int × Int) :=
  findings.filterMap fun
    | .outOfBounds d0 d1 _ | .notInverse d0 d1 => some (d0, d1)
    | _ => none

def triples (findings : List Finding) : List (Int × Nat × Nat) :=
  findings.filterMap fun
    | .shared dim first second _ => some (dim, first, second)
    | _ => none

/-- Makes a check, if it is asked for. -/
def ifAsked (check : Bool) (found : Except Fault (List Finding)) :
    Except Fault (Option (List Finding)) :=
  if check then found.map some else .ok none

/-- Makes the checks that are asked for, one after the other. -/
def inspect (tolerant : Bool) (checks : Checks) (s : Store) : Except Fault Report := do
  let unlinked ← ifAsked checks.consistency
    (search tolerant (fun dim => .ok (dimFinding s dim)) s.dimensions)
  let beyond ← ifAsked checks.bounds
    (search tolerant (fun entry => .ok (boundsFinding s entry)) s.recordedRelations)
  let shared ← ifAsked checks.duplicates
    ((s.dimensions.filter fun dim => decide (1 ≤ dim)).foldlM (compareEntities tolerant s) [])
  let uneven ← ifAsked checks.inverses (search tolerant (inverseFinding s) s.recordedRelations)
  pure ⟨unlinked.map dims, beyond.map pairs, shared.map triples, uneven.map pairs⟩

/-- The report of all checks that are to be made. -/
def report (checks : Checks) (s : Store) : Except Fault Report := inspect true checks s

/-- The report, unless there is a finding: then the first one is a failure. -/
def enforce (checks : Checks) (s : Store) : Except Fault Report := inspect false checks s

end Audit

end MeshIncidence
