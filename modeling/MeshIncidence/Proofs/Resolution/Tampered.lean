import Mathlib
import MeshIncidence.Proofs.Resolution.Confined
import MeshIncidence.Proofs.Resolution.Laziness

/-!
Meshes whose stores have been written to directly. The writes may contradict the cells and one
another; demands may then fail, but only for what they find, never for a misstep of their own.
-/
namespace MeshIncidence

open Request

/-- Writes by accepted writes alone, and makes no misstep on a coherent store. -/
structure Request.Orderly {α : Type} (x : Request α) : Prop where
  writes : Writes x
  steady : ∀ p : Progress, p.store.Coherent → Steady (x p).1

namespace Request.Orderly

variable {α β : Type} {x : Request α}

theorem of_silent (silent : Silent (fun _ => True) x) (steady : ∀ p, Steady (x p).1) : Orderly x :=
  ⟨silent.writes, fun p _ => steady p⟩

theorem pure (a : α) : Orderly (Pure.pure a) := of_silent (.pure a) fun _ => .ok a

theorem store : Orderly Request.store := of_silent .store fun p => .ok p.store

theorem bind {f : α → Request β} (hx : Orderly x) (hf : ∀ a, Orderly (f a)) : Orderly (x >>= f) := by
  refine ⟨hx.writes.bind fun a => (hf a).writes, fun p coherent => ?_⟩
  have first := hx.steady p coherent
  have written := hx.writes p
  rw [bind_apply]
  rcases hxp : x p with ⟨e | a, q⟩
  · rw [hxp] at first
    exact .error (first e rfl)
  · rw [hxp] at written
    exact (hf a).steady q (coherent.written written)

theorem forM {g : α → Request Unit} (hg : ∀ a, Orderly (g a)) (xs : List α) :
    Orderly (xs.forM g) := by
  induction xs with
  | nil => exact pure ()
  | cons x xs ih => exact (hg x).bind fun _ => ih

end Request.Orderly

namespace Resolution

variable {shape : Shape}

theorem orderly_entities (shape : Shape) (d : Int) : Orderly (entities shape d) :=
  ⟨writes_entities shape d, fun _ coherent => (confined_entitiesBy (n := 1) coherent).steady⟩

theorem orderly_relation (shape : Shape) (d0 d1 : Int) : Orderly (relation shape d0 d1) :=
  ⟨writes_relation shape d0 d1, fun _ coherent => (confined_relation coherent).steady⟩

theorem orderly_everything (shape : Shape) : Orderly (everything shape) := by
  refine .bind .store fun s => .bind (.forM (fun d => ?_) _) fun _ => .forM (fun d0 => ?_) _
  · exact (orderly_entities shape d).bind fun _ => .pure ()
  · exact .forM (orderly_relation shape d0) _

end Resolution

theorem Demand.orderly (shape : Shape) (d : Demand) : Orderly (d.request shape) := by
  cases d with
  | entities dim => exact (Resolution.orderly_entities shape dim).bind fun _ => .pure _
  | relation d0 d1 => exact (Resolution.orderly_relation shape d0 d1).bind fun _ => .pure _
  | everything => exact (Resolution.orderly_everything shape).bind fun _ => .pure _

namespace Mesh

variable {m : Mesh} {s : Store}

theorem Accepted.coherent (accepted : m.Accepted) (written : m.store.Written s) : s.Coherent :=
  accepted.sound.faithful.coherent.written written

/-- Whatever has been written to the store of an accepted mesh, and by whatever demands and writes,
no demand fails for a misstep. -/
theorem demands_make_no_misstep (accepted : m.Accepted) (written : m.store.Written s) (d : Demand)
    {cause : Fault} (failed : ((d.request m.shape).run s).1 = .error cause) : cause.misstep = false :=
  (d.orderly m.shape).steady ⟨s, []⟩ (accepted.coherent written) cause failed

/-- The strip's store, with cells at its vertices that it does not have. -/
def tampered : Store :=
  { strip.store with relations :=
      strip.store.relations ++ [((0, 2), Incidence.ofRows [[5], [], [0], [-9]])] }

theorem tampered_written : strip.store.Written tampered := by
  have accepted :
      strip.store.setRelation 0 2 (Incidence.ofRows [[5], [], [0], [-9]]) = .ok tampered := rfl
  exact .relation .refl accepted

/-- The edges of a cell are looked for on a cell that is not there. -/
theorem demands_make_no_misstep_strip :
    strip.Accepted ∧ strip.store.Written tampered ∧
      (((Demand.entities 1).request strip.shape).run tampered).1 = .error .entryOutside ∧
      Fault.misstep .entryOutside = false := by
  have failed :
      (((Demand.entities 1).request strip.shape).run tampered).1 = .error .entryOutside := by cbv
  exact ⟨strip_accepted, tampered_written, failed,
    demands_make_no_misstep strip_accepted tampered_written _ failed⟩

end Mesh

end MeshIncidence
