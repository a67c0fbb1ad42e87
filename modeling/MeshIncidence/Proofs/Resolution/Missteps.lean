import Mathlib
import MeshIncidence.Proofs.Outcome
import MeshIncidence.Resolution

/-!
Causes that only a request's own steps could bring about, if they came in a wrong order. Nothing that
is computed from recorded rows or from a shape fails for such a cause, whatever these hold.
-/
namespace MeshIncidence

/-- To write twice, or before there are sources, or rows for other sources, and to read, turn round
or go through what was not asked for. -/
def Inconsistency.misstep : Inconsistency → Bool
  | countRecorded _ _ | relationRecorded _ _ | sourcesMissing _ _ | rowCount _ _ _ _ => true
  | relationMissing _ _ | nothingToTranspose _ _ | stepMissing _ _ _ _ => true
  | risingDimensions _ _ | byproductMissing _ => true
  | _ => false

/-- Nesting that is spent is a misstep too. -/
def Fault.misstep : Fault → Bool
  | inconsistent cause => cause.misstep
  | nestingSpent => true
  | _ => false

/-- Fails for no misstep. -/
abbrev Steady {α : Type} (x : Except Fault α) : Prop :=
  Outcome.FailsAs (fun e => e.misstep = false) x

open Outcome

theorem steady_encoding {α : Type} (x : Except EncodingFault α) : Steady (x.mapError .encoding) :=
  FailsAs.mapError (fun _ => by rfl) x

theorem steady_shape {α : Type} (x : Except ShapeFault α) : Steady (x.mapError .shape) :=
  FailsAs.mapError (fun _ => by rfl) x

namespace Incidence

theorem steady_transpose? (r : Incidence) (n : Int) : Steady (r.transpose? n) := by
  unfold transpose?
  split
  · exact .error rfl
  split
  · exact .error rfl
  split
  · exact .error rfl
  · exact steady_encoding _

theorem sourceCount_of_transpose? {r t : Incidence} {n : Nat} (h : r.transpose? n = .ok t) :
    t.sourceCount = n := by
  unfold transpose? at h
  split at h
  · cases h
  split at h
  · cases h
  split at h
  · cases h
  · have offsets := (ofOffsets?_ok (mapError_eq_ok.mp h)).1
    simp [sourceCount, offsets, length_runningTotals, targetCounts]

end Incidence

namespace Derivation

theorem steady_rowOf (onward : List (List Int)) (e : Int) : Steady (rowOf onward e) := by
  unfold rowOf
  split
  · exact .error rfl
  · exact .ok _

theorem steady_rows {onward : List (List Int)} {between : List (List Int × Keeps)}
    (keeps : ∀ entry ∈ between, ∀ e, Steady (entry.2 e)) : Steady (rows onward between) := by
  refine .mapM fun entry found => .bind ?_ fun met => .foldlM (fun row e => ?_) _ _
  · exact .map (.mapM fun e _ => steady_rowOf onward e)
  · unfold gather
    split
    · exact .ok _
    · exact .map (keeps entry found e)

theorem steady_neighbourRows (onward between : List (List Int)) :
    Steady (neighbourRows onward between) := by
  apply steady_rows
  intro entry found e
  obtain ⟨row, -, rfl⟩ := List.mem_map.mp found
  exact .ok _

theorem steady_partRows (onward between vertices partVertices : List (List Int)) :
    Steady (partRows onward between vertices partVertices) := by
  apply steady_rows
  intro entry found e
  obtain ⟨row, -, rfl⟩ := List.mem_map.mp found
  exact .map (steady_rowOf partVertices e)

end Derivation

namespace Numbering

theorem steady_expected (shape : Shape) (dim : Int) : Steady (expected shape dim) := by
  refine .bind (steady_shape _) fun parts => ?_
  split
  · exact .error rfl
  · refine .bind (steady_shape _) fun bound => ?_
    split
    · exact .error rfl
    · exact .ok _

theorem steady_find (n : Numbering) (cell : Nat) (vertices touching : List Int) :
    Steady (n.find cell vertices touching) := by
  induction touching with
  | nil => exact .ok none
  | cons other rest ih =>
    unfold find
    split
    · exact ih
    split
    · exact .error rfl
    split
    · exact .ok _
    · exact ih

theorem steady_placeChecked (shape : Shape) (e : Expected) (cell : Nat) (touching : List Int)
    (n : Numbering) (part : List Int) : Steady (placeChecked shape e cell touching n part) := by
  unfold placeChecked
  split
  · exact .error rfl
  · refine .bind (steady_find _ _ _ _) fun found => ?_
    cases found <;> exact .ok _

theorem steady_ofCells (shape : Shape) (e : Expected) (cells touching : List (List Int)) :
    Steady (ofCells shape e cells touching) := by
  refine .foldlM (fun n cell => .bind (steady_shape _) fun parts => ?_) _ _
  split
  · exact .error rfl
  · exact .foldlM (steady_placeChecked shape e cell.2 cell.1.2) _ _

end Numbering

namespace Resolution

theorem steady_recorded (s : Store) (dim : Int) : Steady (recorded s dim) := by
  unfold recorded
  dsimp only
  split
  · split
    · exact .error rfl
    · exact .ok true
  split
  · exact .error rfl
  · exact .ok false

end Resolution

theorem Store.steady_hasRelation (s : Store) (d0 d1 : Int) : Steady (s.hasRelation d0 d1) := by
  refine .map ?_
  unfold findRelation within
  split
  · split
    · exact .ok _
    · exact .error rfl
  · exact .error rfl

end MeshIncidence
