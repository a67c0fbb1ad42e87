import Mathlib
import MeshIncidence.Entity
import MeshIncidence.Neighbours
import MeshIncidence.Proofs.Resolution.Answers

/-!
Requests whose outcome the mesh determines. Such a request ends in the same way on every faithful
store that has counted the same of the dimensions that overflow, and leaves it faithful; so do
sequences of such requests, and all that is asked of a mesh or of one of its entities is made of them.
-/
namespace MeshIncidence

/-- How a request ends that was made at `p`: as `want` says, with the store as faithful as it was. If
it succeeds, no more dimensions that overflow are counted than before. -/
structure Settles {α : Type} (m : Mesh) (known : Int → Bool) (want : Except Fault α) (p : Progress)
    (ended : Except Fault α × Progress) : Prop where
  outcome : ended.1 = want
  leads : Leads m p.store ended.2.store
  knows : ∀ {a}, want = .ok a → m.Knows known ended.2.store

/-- Whatever else a faithful store has recorded, the request ends as `want` says, if those of the
dimensions that overflow are counted that are `known`. -/
def Determined {α : Type} (m : Mesh) (known : Int → Bool) (x : Request α) (want : Except Fault α) :
    Prop :=
  ∀ p, Faithful m p.store → m.Knows known p.store → Settles m known want p (x p)

theorem Mesh.knows_counted (m : Mesh) (s : Store) : m.Knows (fun d => (s.count? d).isSome) s :=
  fun _ _ => rfl

namespace Determined

variable {α β : Type} {m : Mesh} {known : Int → Bool}

theorem lift (want : Except Fault α) : Determined m known (Request.lift want) want :=
  fun _ h knows => ⟨rfl, .refl h, fun _ => knows⟩

theorem pure (a : α) : Determined m known (Pure.pure a) (.ok a) := lift (.ok a)

theorem fail (e : Fault) : Determined m known (Request.fail e : Request α) (.error e) :=
  lift (.error e)

theorem bind {x : Request α} {f : α → Request β} {want : Except Fault α} {next : α → Except Fault β}
    (hx : Determined m known x want) (hf : ∀ a, Determined m known (f a) (next a)) :
    Determined m known (x >>= f) (want >>= next) := by
  intro p h knows
  obtain ⟨outcome, leads, knows'⟩ := hx p h knows
  rw [Request.bind_apply]
  rcases hxp : x p with ⟨e | a, q⟩
  · rw [hxp] at outcome leads
    rw [← outcome]
    exact ⟨rfl, leads, fun ok => nomatch ok⟩
  · rw [hxp] at outcome leads knows'
    have second := hf a q leads.faithful (knows' outcome.symm)
    rw [← outcome]
    exact ⟨second.outcome, leads.trans second.leads, second.knows⟩

/-- A request for its effect alone. -/
theorem discard {x : Request α} {want : Except Fault α} (hx : Determined m known x want) :
    Determined m known (x >>= fun _ => Pure.pure ()) (want.map fun _ => ()) := by
  have h : Determined m known (x >>= fun _ => Pure.pure ()) (want >>= fun _ => .ok ()) :=
    hx.bind fun _ => pure ()
  cases want <;> exact h

theorem ite {c : Prop} [Decidable c] {x y : Request α} {want other : Except Fault α}
    (hx : Determined m known x want) (hy : Determined m known y other) :
    Determined m known (if c then x else y) (if c then want else other) := by
  split
  · exact hx
  · exact hy

theorem forM {f : α → Request Unit} {g : α → Except Fault Unit}
    (hf : ∀ a, Determined m known (f a) (g a)) (xs : List α) :
    Determined m known (xs.forM f) (xs.forM g) := by
  induction xs with
  | nil => exact pure ()
  | cons x xs ih => exact (hf x).bind fun _ => ih

theorem mapM {f : α → Request β} {g : α → Except Fault β}
    (hf : ∀ a, Determined m known (f a) (g a)) (xs : List α) :
    Determined m known (xs.mapM f) (xs.mapM g) := by
  induction xs with
  | nil => exact pure []
  | cons x xs ih =>
    rw [List.mapM_cons, List.mapM_cons]
    exact (hf x).bind fun y => ih.bind fun ys => pure (y :: ys)

end Determined

namespace Resolution

variable {m : Mesh} {known : Int → Bool}

theorem determined_entities (d : Int) :
    Determined m known (entities m.shape d) (m.entitiesOf known d) := by
  intro p h knows
  have counts := counts_entities d h knows
  exact ⟨counts.outcome, counts.leads, fun found =>
    knows_entitiesBy h knows (Mesh.entitiesOf_eq_ok.mp found).1 1⟩

/-- A request for a relation that succeeds asks for no dimension that overflows, unless the relation is
there. -/
theorem determined_relation (d0 d1 : Int) : Determined m known (relation m.shape d0 d1)
    ((m.answerOf known d0 d1).map fun _ => ()) := by
  intro p h knows
  have ends := ends_relation d0 d1 h knows
  refine ⟨ends.outcome, ends.leads, fun found other beyond => ?_⟩
  obtain ⟨r, answer, -⟩ := Outcome.map_eq_ok.mp found
  cases hr : p.store.relation? d0 d1 with
  | some q =>
    obtain ⟨c0, c1⟩ := h.covers_ends hr
    have there : relation m.shape d0 d1 p = _ := relationWithin_holds ⟨c0, c1, by rw [hr]; rfl⟩ 3
    rw [there]
    exact knows other beyond
  | none =>
    have covers : m.Covers d0 ∧ m.Covers d1 := by
      have recorded := ends.recorded answer
      obtain ⟨c0, c1⟩ := ends.leads.faithful.covers_ends recorded
      exact ⟨ends.leads.faithful.store_covers_iff.mp c0, ends.leads.faithful.store_covers_iff.mp c1⟩
    rw [answerOf_of_fresh h knows covers.1 covers.2 hr] at answer
    obtain ⟨n0, found0, answer⟩ := Outcome.bind_eq_ok.mp answer
    obtain ⟨n1, found1, -⟩ := Outcome.bind_eq_ok.mp answer
    have differ : other ∉ [d0, d1] := by
      simp only [List.mem_cons, List.not_mem_nil, or_false]
      rintro (rfl | rfl)
      · exact (Mesh.entitiesOf_eq_ok.mp found0).1 beyond
      · exact (Mesh.entitiesOf_eq_ok.mp found1).1 beyond
    have confined : Confined [d0, d1] _ p.store (relation m.shape d0 d1 ⟨p.store, p.notes⟩) :=
      confined_relation h.coherent
    rw [← knows other beyond]
    exact congrArg Option.isSome (confined.frame.count differ)

/-- Everything is asked for in the same order on every store. -/
theorem determined_everything : Determined m known (everything m.shape) (m.everythingOf known) := by
  intro p h knows
  have dims : p.store.dimensions = m.dimensions := by
    rw [Store.dimensions, h.dim, Mesh.dimensions]
  rw [everything, Request.bind_of_ok (Request.store_apply p), dims]
  refine Determined.bind (Determined.forM (fun d => (determined_entities d).discard) _) (fun _ => ?_)
    p h knows
  exact Determined.forM (fun d0 => Determined.forM (fun d1 => determined_relation d0 d1) _) _

/-- A relation that is asked for is there to be read. -/
theorem determined_fetch (d0 d1 : Int) :
    Determined m known (fetch m.shape d0 d1) (m.answerOf known d0 d1) := by
  intro p h knows
  have ends := ends_relation d0 d1 h knows
  have settles := determined_relation d0 d1 p h knows
  rw [fetch, Request.bind_apply]
  rcases hr : relation m.shape d0 d1 p with ⟨e | ⟨⟩, q⟩
  · rw [hr] at ends
    have want := ends.want_of_error
    exact ⟨want.symm, ends.leads, fun ok => absurd ok (Outcome.ne_ok_of_error want _)⟩
  · rw [hr] at ends settles
    obtain ⟨r, hwant⟩ := ends.want_of_ok
    have hrel := ends.recorded hwant
    have faithful := ends.leads.faithful
    obtain ⟨c0, c1⟩ := faithful.covers_ends hrel
    refine ⟨?_, ends.leads, fun _ => settles.knows (by rw [hwant]; rfl)⟩
    rw [hwant]
    exact Store.relation_of_some c0 c1 hrel

end Resolution

namespace Entity

variable {m : Mesh} {known : Int → Bool}

theorem determined_view (dim index : Int) :
    Determined m known (view m.shape dim index) (m.entitiesOf known dim >>= fun n =>
      if 0 ≤ index ∧ index < n then .ok ⟨dim, index.toNat⟩
      else .error (.entityOutside index n dim)) :=
  (Resolution.determined_entities dim).bind fun _ => .ite (.pure _) (.fail _)

theorem determined_incidentIndices (e : Entity) (dim : Int) :
    Determined m known (e.incidentIndices m.shape dim) (m.answerOf known e.dim dim >>= fun r =>
      (r.row e.index).mapError Fault.encoding) :=
  (Resolution.determined_fetch e.dim dim).bind fun _ => .lift _

theorem determined_incident (e : Entity) (dim : Int) :
    ∃ want, Determined m known (e.incident m.shape dim) want :=
  ⟨_, (determined_incidentIndices e dim).bind fun _ => .mapM (fun i => determined_view dim i) _⟩

theorem determined_vertices (e : Entity) :
    Determined m known (e.vertices m.shape)
      (if e.dim = 0 then e.itself
      else m.answerOf known e.dim 0 >>= fun r => (r.row e.index).mapError Fault.encoding) :=
  .ite (.lift _) (determined_incidentIndices e 0)

theorem determined_listing (dim : Int) : ∃ want, Determined m known (listing m.shape dim) want :=
  ⟨_, (Resolution.determined_entities dim).bind fun _ =>
    (.mapM (fun index : Nat => (determined_view dim index).bind fun e =>
      (determined_vertices e).bind fun found => .pure (e, found)) _)⟩

end Entity

namespace Neighbours

variable {m : Mesh} {known : Int → Bool}

theorem determined_find (query : Neighbours) : ∃ want, Determined m known (query.find m.shape) want := by
  cases query with
  | pointToCells => exact ⟨_, Resolution.determined_fetch _ _⟩
  | pointToPoints => exact ⟨_, Resolution.determined_fetch _ _⟩
  | cellToCells => exact ⟨_, Resolution.determined_fetch _ _⟩
  | cellToPoints =>
    refine ⟨.ok (Incidence.ofRows m.cells), fun p h knows => ⟨?_, .refl h, fun _ => knows⟩⟩
    exact Store.relation_of_some (h.covers h.top) (h.covers h.bottom) h.cellVertices

end Neighbours

end MeshIncidence
