import Mathlib
import MeshIncidence.Proofs.Mesh.Accepted
import MeshIncidence.Proofs.Numbering.Admitted
import MeshIncidence.Proofs.Resolution.Determined

/-!
The order of demands hardly shows. Demands for entities, for a relation or for everything may come in
any order and any number, and some may fail on the way. What two stores of one mesh have both recorded
they have recorded alike. Whatever came before, a demand ends in the same way, unless the shape splits
off vertices that cannot be stored: then it shows whether their entities were asked for before.
-/
namespace MeshIncidence

/-- What may be demanded of a mesh. -/
inductive Demand where
  | entities (dim : Int)
  | relation (d0 d1 : Int)
  | everything
  deriving DecidableEq, Repr

namespace Demand

/-- Only a demand for entities has a value. -/
def request (shape : Shape) : Demand → Request (Option Nat)
  | entities dim => Resolution.entities shape dim >>= fun n => pure (some n)
  | relation d0 d1 => Resolution.relation shape d0 d1 >>= fun _ => pure none
  | everything => Resolution.everything shape >>= fun _ => pure none

/-- The store after demands made one after the other. A demand that fails leaves what it has
recorded. -/
def after (shape : Shape) (s : Store) : List Demand → Store
  | [] => s
  | demand :: rest => after shape ((demand.request shape).run s).2.store rest

variable {m : Mesh}

/-- How a demand ends, from the mesh and from what is known of the dimensions that overflow. -/
def outcome (m : Mesh) (known : Int → Bool) : Demand → Except Fault (Option Nat)
  | entities dim => m.entitiesOf known dim >>= fun n => .ok (some n)
  | relation d0 d1 => (m.answerOf known d0 d1).map (fun _ => ()) >>= fun _ => .ok none
  | everything => m.everythingOf known >>= fun _ => .ok none

theorem determined (demand : Demand) {known : Int → Bool} :
    Determined m known (demand.request m.shape) (demand.outcome m known) := by
  cases demand with
  | entities dim => exact (Resolution.determined_entities dim).bind fun n => .pure (some n)
  | relation d0 d1 => exact (Resolution.determined_relation d0 d1).bind fun _ => .pure none
  | everything => exact Resolution.determined_everything.bind fun _ => .pure none

theorem leads_after {s : Store} (h : Faithful m s) (demands : List Demand) :
    Leads m s (after m.shape s demands) := by
  induction demands generalizing s with
  | nil => exact .refl h
  | cons demand rest ih =>
    have first := (demand.determined ⟨s, []⟩ h (m.knows_counted s)).leads
    exact first.trans (ih first.faithful)

end Demand

namespace Mesh

variable {m : Mesh} {s t : Store}

/-- A store that demands lead to from the one a mesh starts with. -/
def Reaches (m : Mesh) (s : Store) : Prop := ∃ demands, s = Demand.after m.shape m.store demands

theorem Reaches.faithful (h : m.Reaches s) (accepted : m.Accepted) : Faithful m s := by
  obtain ⟨demands, rfl⟩ := h
  exact (Demand.leads_after accepted.sound.faithful demands).faithful

theorem Reaches.counts (h : m.Reaches s) (accepted : m.Accepted) (d : Int) :
    Resolution.Counts m (fun d => (s.count? d).isSome) d ⟨s, []⟩
      ((Resolution.entities m.shape d).run s) :=
  Resolution.counts_entities d (h.faithful accepted) (m.knows_counted s)

/-- The entities of a dimension that overflows are asked for with one failure the first time and with
another one ever after. -/
theorem counted_iff_of_outcome (hs : Faithful m s) (ht : Faithful m t) {d : Int}
    (beyond : m.Overflows d)
    (alike : (((Demand.entities d).request m.shape).run s).1 =
      (((Demand.entities d).request m.shape).run t).1) :
    (s.count? d).isSome ↔ (t.count? d).isSome := by
  have outcome : ∀ {u}, Faithful m u → (((Demand.entities d).request m.shape).run u).1 =
      .error (if (u.count? d).isSome then .inconsistent (.incidenceMissing d)
        else .encoding .notAWord) := fun {u} hu => by
    have settles := (Demand.entities d).determined ⟨u, []⟩ hu (m.knows_counted u)
    refine settles.outcome.trans ?_
    simp [Demand.outcome, Mesh.entitiesOf, beyond]
  rw [outcome hs, outcome ht] at alike
  cases hs' : (s.count? d).isSome <;> cases ht' : (t.count? d).isSome <;> simp_all

/-- Stores of one mesh agree on what both have recorded. All demands end alike on both, if of the
dimensions whose vertices cannot be recorded both have counted the same; and only then. -/
theorem history_unobservable (accepted : m.Accepted) (first second : List Demand) :
    (∀ d a b, (Demand.after m.shape m.store first).count? d = some a →
      (Demand.after m.shape m.store second).count? d = some b → a = b) ∧
    (∀ d0 d1 r q, (Demand.after m.shape m.store first).relation? d0 d1 = some r →
      (Demand.after m.shape m.store second).relation? d0 d1 = some q → r = q) ∧
    ((∀ demand : Demand,
      ((demand.request m.shape).run (Demand.after m.shape m.store first)).1 =
        ((demand.request m.shape).run (Demand.after m.shape m.store second)).1) ↔
      ∀ d, m.Overflows d → (((Demand.after m.shape m.store first).count? d).isSome ↔
        ((Demand.after m.shape m.store second).count? d).isSome)) := by
  have hs : Faithful m (Demand.after m.shape m.store first) := Reaches.faithful ⟨first, rfl⟩ accepted
  have ht : Faithful m (Demand.after m.shape m.store second) :=
    Reaches.faithful ⟨second, rfl⟩ accepted
  refine ⟨fun d a b ha hb => ?_, fun d0 d1 r q hr hq => ?_, fun alike d beyond => ?_,
    fun same demand => ?_⟩
  · have := hs.count ha
    rw [ht.count hb] at this
    exact (Except.ok.inj this).symm
  · have := hs.relation hr
    rw [ht.relation hq] at this
    exact (Except.ok.inj this).symm
  · exact (counted_iff_of_outcome hs ht beyond (alike (.entities d)))
  · have knows : m.Knows (fun d => ((Demand.after m.shape m.store first).count? d).isSome)
        (Demand.after m.shape m.store second) := fun d beyond => by
      rw [Bool.eq_iff_iff]
      exact (same d beyond).symm
    exact (demand.determined ⟨_, []⟩ hs (m.knows_counted _)).outcome.trans
      (demand.determined ⟨_, []⟩ ht knows).outcome.symm

/-- Everything at once, and one relation after a failure. -/
theorem history_unobservable_strip :
    let s := Demand.after strip.shape strip.store [.everything]
    let t := Demand.after strip.shape strip.store [.entities 3, .relation 0 0]
    strip.Accepted ∧ (∀ d a b, s.count? d = some a → t.count? d = some b → a = b) ∧
    (∀ d0 d1 r q, s.relation? d0 d1 = some r → t.relation? d0 d1 = some q → r = q) ∧
    ∀ demand : Demand,
      ((demand.request strip.shape).run s).1 = ((demand.request strip.shape).run t).1 := by
  intro s t
  obtain ⟨counts, relations, ends⟩ :=
    history_unobservable strip_accepted [.everything] [.entities 3, .relation 0 0]
  have storable : strip.Storable := storable_of_plain strip_accepted.sound rfl
  exact ⟨strip_accepted, counts, relations, ends.mpr fun d beyond => absurd beyond (storable d)⟩

/-- A triangle that is split into one edge, which ends at a vertex that is no word. -/
def overlong : Mesh :=
  ⟨{ Shape.ofTable "CustomCell" "overlong" 2 [[[0], [1], [2]], [[0, 1]], [[0, 1, 2]]] with
      split := fun vertices _ => .ok [[vertices.headD 0, Word.bound]] },
    [[0, 1, 2]], 3, ⟨2, [(0, 3), (2, 1)], [((2, 0), Incidence.ofRows [[0, 1, 2]])]⟩⟩

theorem overlong_accepted : overlong.Accepted :=
  ⟨Registry.builtin, ⟨[1, 3], .word, [0, 1, 2]⟩, .given overlong.shape, none, rfl, rfl⟩

/-- The edge is counted at the first demand, and found without its vertices at the second. -/
theorem history_observed_overlong :
    overlong.Accepted ∧
    (((Demand.entities 1).request overlong.shape).run
      (Demand.after overlong.shape overlong.store [])).1 = .error (.encoding .notAWord) ∧
    (((Demand.entities 1).request overlong.shape).run
      (Demand.after overlong.shape overlong.store [.entities 1])).1 =
        .error (.inconsistent (.incidenceMissing 1)) :=
  ⟨overlong_accepted, by cbv, by cbv⟩

end Mesh

end MeshIncidence
