import Mathlib
import MeshIncidence.Derivation
import MeshIncidence.Proofs.Store.Growth

/-!
Going through a third dimension on a store that has recorded all that is read on the way. No step is
missing there, and what is left is to find the rows and to write them.
-/
namespace MeshIncidence.Derivation

open Request

/-- Writes the rows found on a way. -/
def finish (d0 d1 : Int) (found : List (List Int)) : Request Unit := do
  Request.note (.composed d0 d1 found.length (widest found))
  Request.write fun s => s.setRelation d0 d1 (Incidence.ofRows found)

theorem finish_of_ok {d0 d1 : Int} {s t : Store} {notes : List Note} {found : List (List Int)}
    (h : s.setRelation d0 d1 (Incidence.ofRows found) = .ok t) :
    finish d0 d1 found ⟨s, notes⟩ =
      (.ok (), ⟨t, notes ++ [.composed d0 d1 found.length (widest found)]⟩) := by
  rw [finish, bind_of_ok (note_apply _ _)]
  exact write_of_ok (f := fun s => s.setRelation d0 d1 (Incidence.ofRows found)) h

variable {d0 d1 d : Int} {s : Store} {notes : List Note} {between onward wholes parts : Incidence}
  (covers : ∀ {a b r}, s.relation? a b = some r → s.Covers a ∧ s.Covers b)

include covers

theorem step_recorded {a b : Int} {r : Incidence} (hr : s.relation? a b = some r) :
    step d0 d1 a b ⟨s, notes⟩ = (.ok (), ⟨s, notes⟩) := by
  have found : s.hasRelation a b = .ok true := by
    rw [Store.hasRelation_of_covers (covers hr).1 (covers hr).2, hr, Option.isSome_some]
  unfold step
  rw [bind_of_ok ((read_apply _ _).trans (by rw [found]))]
  rfl

theorem read_recorded {a b : Int} {r : Incidence} (hr : s.relation? a b = some r) :
    read (fun s => s.relation a b) ⟨s, notes⟩ = (.ok r, ⟨s, notes⟩) := by
  rw [read_apply, Store.relation_of_some (covers hr).1 (covers hr).2 hr]

/-- Within one dimension the rows are those of neighbours. -/
theorem composeInto_level (hb : s.relation? d0 d = some between) (ho : s.relation? d d0 = some onward) :
    composeInto d0 d0 d ⟨s, notes⟩ =
      (lift (neighbourRows onward.rows between.rows) >>= finish d0 d0)
        ⟨s, notes ++ [.composing d0 d0 d]⟩ := by
  unfold composeInto
  rw [bind_of_ok (note_apply _ _), if_neg (lt_irrefl d0), bind_of_ok (step_recorded covers hb),
    bind_of_ok (step_recorded covers ho), bind_of_ok (read_recorded covers hb),
    bind_of_ok (read_recorded covers ho), if_pos rfl]
  rfl

/-- To a lower dimension the rows are those of parts. -/
theorem composeInto_parts (falling : d1 < d0) (hb : s.relation? d0 d = some between)
    (ho : s.relation? d d1 = some onward) (hw : s.relation? d0 0 = some wholes)
    (hp : s.relation? d1 0 = some parts) :
    composeInto d0 d1 d ⟨s, notes⟩ =
      (lift (partRows onward.rows between.rows wholes.rows parts.rows) >>= finish d0 d1)
        ⟨s, notes ++ [.composing d0 d1 d]⟩ := by
  unfold composeInto
  rw [bind_of_ok (note_apply _ _), if_neg (by omega), bind_of_ok (step_recorded covers hb),
    bind_of_ok (step_recorded covers ho), bind_of_ok (read_recorded covers hb),
    bind_of_ok (read_recorded covers ho), if_neg (by omega), bind_of_ok (read_recorded covers hw),
    bind_of_ok (read_recorded covers hp)]
  rfl

end MeshIncidence.Derivation
