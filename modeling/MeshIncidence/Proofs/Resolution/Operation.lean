import Mathlib
import MeshIncidence.Proofs.Resolution.Laziness
import MeshIncidence.Proofs.Resolution.Recording

/-!
Runs of demands, of single derivations and of direct writes, in any order and with failures anywhere.
Direct writes may say anything, so a store need not be faithful to a mesh. Still a run only adds to
it, and a demand that has succeeded succeeds again.
-/
namespace MeshIncidence

inductive Operation where
  | demand (d : Demand)
  | transpose (d0 d1 : Int)
  | compose (d0 d1 d : Int)
  | setCount (dim size : Int)
  | setRelation (d0 d1 : Int) (r : Incidence)
  deriving DecidableEq, Repr

namespace Operation

open Request

variable {shape : Shape}

/-- Only a demand for entities has a value. -/
def request (shape : Shape) : Operation → Request (Option Nat)
  | demand d => d.request shape
  | transpose d0 d1 => Derivation.transposeInto d0 d1 >>= fun _ => Pure.pure none
  | compose d0 d1 d => Derivation.composeInto d0 d1 d >>= fun _ => Pure.pure none
  | setCount dim size => (Request.write fun s => s.setCount dim size) >>= fun _ => Pure.pure none
  | setRelation d0 d1 r => (Request.write fun s => s.setRelation d0 d1 r) >>= fun _ => Pure.pure none

/-- The store after operations made one after the other. One that fails leaves what it has recorded.
-/
def after (shape : Shape) (s : Store) : List Operation → Store
  | [] => s
  | operation :: rest => after shape ((operation.request shape).run s).2.store rest

/-- One derivation or one write, with no demand on the way. -/
def Direct : Operation → Prop
  | demand _ => False
  | _ => True

theorem writes_demand (d : Demand) : Writes (d.request shape) := by
  cases d with
  | entities dim => exact (Resolution.writes_entities shape dim).discard
  | relation d0 d1 => exact (Resolution.writes_relation shape d0 d1).discard
  | everything => exact (Resolution.writes_everything shape).discard

theorem lasting_demand (d : Demand) : Lasting (d.request shape) := by
  cases d with
  | entities dim => exact (Resolution.lasting_entities shape dim).discard
  | relation d0 d1 => exact (Resolution.lasting_relation shape d0 d1).discard
  | everything => exact (Resolution.lasting_everything shape).discard

theorem single_of_direct {operation : Operation} (direct : operation.Direct) :
    Single (operation.request shape) := by
  cases operation with
  | demand d => cases direct
  | transpose d0 d1 => exact (Derivation.single_transposeInto d0 d1).discard
  | compose d0 d1 d => exact (Derivation.single_composeInto d0 d1 d).discard
  | setCount dim size => exact (single_write fun h => .count .refl h).discard
  | setRelation d0 d1 r => exact (Derivation.single_setRelation d0 d1 r).discard

theorem writes_request (operation : Operation) : Writes (operation.request shape) := by
  cases operation with
  | demand d => exact writes_demand d
  | _ => exact (single_of_direct (by trivial)).writes

theorem written_after (shape : Shape) (s : Store) (operations : List Operation) :
    s.Written (after shape s operations) := by
  induction operations generalizing s with
  | nil => exact .refl
  | cons operation rest ih => exact (operation.writes_request ⟨s, []⟩).trans (ih _)

/-- Whatever the store a run starts from, and whatever has been done: what is recorded stays as it is
and where it is, a derivation or a write that fails changes nothing, and a demand that succeeds once
does so ever after, with the same value and nothing more to record. -/
theorem runs_append_and_repeat (shape : Shape) (start : Store) (earlier : List Operation) :
    let s := after shape start earlier
    (∀ later, s.counts <+: (after shape s later).counts ∧
      s.relations <+: (after shape s later).relations ∧
      (∀ d n, s.count? d = some n → (after shape s later).count? d = some n) ∧
      ∀ d0 d1 r, s.relation? d0 d1 = some r → (after shape s later).relation? d0 d1 = some r) ∧
    (∀ (operation : Operation) e, operation.Direct → ((operation.request shape).run s).1 = .error e →
      ((operation.request shape).run s).2.store = s) ∧
    ∀ (d : Demand) value, ((d.request shape).run s).1 = .ok value → ∀ later,
      let u := after shape ((d.request shape).run s).2.store later
      ((d.request shape).run u).1 = .ok value ∧ ((d.request shape).run u).2.store = u := by
  intro s
  refine ⟨fun later => ?_, fun operation e direct failed => ?_, fun d value once later => ?_⟩
  · have written := written_after shape s later
    exact ⟨written.counts_prefix, written.relations_prefix, fun _ _ => written.grows.count,
      fun _ _ _ => written.grows.relation⟩
  · exact (single_of_direct direct).atomic ⟨s, []⟩ e failed
  · have written := written_after shape ((d.request shape).run s).2.store later
    exact lasting_demand d ⟨s, []⟩ value _ (Prod.ext once rfl) ⟨_, []⟩ written.grows

/-- Neighbours of edges written by hand, which no cell bears out. -/
def byHand : List Operation :=
  [.demand (.relation 2 1), .setRelation 1 1 (Incidence.ofRows [[], [], [], [], []])]

/-- Such neighbours are neither replaced nor in the way. -/
theorem runs_append_and_repeat_strip :
    let shape := Mesh.strip.shape
    let s := after shape Mesh.strip.store byHand
    let counting := (Demand.entities 1).request shape
    let refused := (Operation.setCount 1 7).request shape
    let later := [.setCount 1 7, .compose 1 1 0, .demand .everything]
    (refused.run s).1 = .error (.inconsistent (.countRecorded 1 5)) ∧ (refused.run s).2.store = s ∧
      (counting.run s).1 = .ok (some 5) ∧
      let u := after shape (counting.run s).2.store later
      (counting.run u).1 = .ok (some 5) ∧ (counting.run u).2.store = u := by
  obtain ⟨-, atomic, again⟩ := runs_append_and_repeat Mesh.strip.shape Mesh.strip.store byHand
  have failed : (((Operation.setCount 1 7).request Mesh.strip.shape).run
      (after Mesh.strip.shape Mesh.strip.store byHand)).1 =
        .error (.inconsistent (.countRecorded 1 5)) := by cbv
  have once : (((Demand.entities 1).request Mesh.strip.shape).run
      (after Mesh.strip.shape Mesh.strip.store byHand)).1 = .ok (some 5) := by cbv
  exact ⟨failed, atomic (.setCount 1 7) _ trivial failed, once, again (.entities 1) _ once _⟩

end Operation

end MeshIncidence
