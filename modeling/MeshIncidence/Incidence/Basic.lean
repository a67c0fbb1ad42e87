import MeshIncidence.Fault
import MeshIncidence.Position
import MeshIncidence.Word

/-!
Incidence relations from numbered sources to numbered targets. All target lists lie one after the
other in `targets`; `offsets` says where each source's list starts, and where the last one ends.
`rows` is the view by which operations are described.
-/
namespace MeshIncidence

structure Incidence where
  offsets : List Int
  targets : List Int
  starts_zero : offsets.head? = some 0
  ends_full : offsets.getLast? = some (targets.length : Int)
  deriving DecidableEq, Repr

namespace Incidence
open Position

/-- Accepts offsets that start at zero and end at the number of targets. -/
def ofOffsets? (offsets targets : List Int) : Except EncodingFault Incidence :=
  if hs : offsets.head? = some 0 then
    if he : offsets.getLast? = some (targets.length : Int) then
      .ok ⟨offsets, targets, hs, he⟩
    else .error (.lastOffset (offsets.getLast?.getD 0) targets.length)
  else match offsets.head? with
    | none => .error .noOffsets
    | some found => .error (.firstOffset found)

def sourceCount (r : Incidence) : Nat := r.offsets.length - 1

def targetCount (r : Incidence) : Nat := r.targets.length

/-- Start and end of every source's list. -/
def spans (r : Incidence) : List (Int × Int) := r.offsets.zip r.offsets.tail

def rows (r : Incidence) : List (List Int) :=
  r.spans.map fun span => slice r.targets span.1 span.2

/-- The list of one source. -/
def row (r : Incidence) (source : Int) : Except EncodingFault (List Int) :=
  if 0 ≤ source ∧ source < r.sourceCount then
    .ok (slice r.targets (r.offsets.getD source.toNat 0) (r.offsets.getD (source.toNat + 1) 0))
  else .error (.sourceOutside source r.sourceCount)

/-- How far apart the ends of every source's list are. -/
def counts (r : Incidence) : List Int :=
  r.spans.map fun span => Word.difference span.2 span.1

/-- Offsets that never fall. -/
def Ascending (r : Incidence) : Prop := r.offsets.Pairwise (· ≤ ·)

/-- By halving the stretch from `lo` to `hi`: the first place of `xs` whose entry exceeds `x`,
if entries do not fall. -/
def firstAbove (xs : List Int) (x : Int) (lo hi : Nat) : Nat :=
  if lo < hi then
    let middle := lo + (hi - lo) / 2
    if xs.getD middle 0 ≤ x then firstAbove xs x (middle + 1) hi else firstAbove xs x lo middle
  else lo
termination_by hi - lo

/-- The source whose list holds the target at `place`. -/
def sourceAt (r : Incidence) (place : Nat) : Int :=
  firstAbove r.offsets place 0 r.offsets.length - 1

/-- Every target with its source, in stored order. -/
def pairs (r : Incidence) : List (Int × Int) :=
  r.targets.zipIdx.map fun entry => (r.sourceAt entry.2, entry.1)

theorem length_rows (r : Incidence) : r.rows.length = r.sourceCount := by
  simp [rows, spans, sourceCount]

theorem length_pairs (r : Incidence) : r.pairs.length = r.targetCount := by
  simp [pairs, targetCount]

theorem pairs_snd (r : Incidence) : r.pairs.map Prod.snd = r.targets := by
  simp [pairs, Function.comp_def]

theorem ofOffsets?_ok {offsets targets : List Int} {r : Incidence}
    (h : ofOffsets? offsets targets = .ok r) : r.offsets = offsets ∧ r.targets = targets := by
  unfold ofOffsets? at h
  split at h
  · split at h
    · cases h
      exact ⟨rfl, rfl⟩
    · cases h
  · split at h <;> cases h

end Incidence

end MeshIncidence
