import Mathlib
import MeshIncidence.Proofs.Resolution.Laziness

/-!
Inquiries: demands, and all that is asked of a mesh, of a view of an entity or of neighbours. They may
come in any order, and some may fail. Views need not be of an entity that is there. After any of them a
store is faithful to its mesh.
-/
namespace MeshIncidence

inductive Inquiry where
  | demand (d : Demand)
  | rows (d0 d1 : Int)
  | listing (dim : Int)
  | view (dim index : Int)
  | indices (e : Entity) (dim : Int)
  | incident (e : Entity) (dim : Int)
  | vertices (e : Entity)
  | contains (e other : Entity)
  | neighbours (query : Neighbours)
  deriving DecidableEq, Repr

namespace Inquiry

/-- An inquiry without its answer. -/
def request (shape : Shape) : Inquiry → Request Unit
  | demand d => d.request shape >>= fun _ => pure ()
  | rows d0 d1 => Resolution.fetch shape d0 d1 >>= fun _ => pure ()
  | listing dim => Entity.listing shape dim >>= fun _ => pure ()
  | view dim index => Entity.view shape dim index >>= fun _ => pure ()
  | indices e dim => e.incidentIndices shape dim >>= fun _ => pure ()
  | incident e dim => e.incident shape dim >>= fun _ => pure ()
  | vertices e => e.vertices shape >>= fun _ => pure ()
  | contains e other => other.vertices shape >>= fun _ => e.vertices shape >>= fun _ => pure ()
  | neighbours query => query.find shape >>= fun _ => pure ()

/-- The store after inquiries made one after the other. An inquiry that fails leaves what it has
recorded. -/
def after (shape : Shape) (s : Store) : List Inquiry → Store
  | [] => s
  | inquiry :: rest => after shape ((inquiry.request shape).run s).2.store rest

variable {m : Mesh} {known : Int → Bool}

theorem determined (inquiry : Inquiry) :
    ∃ want, Determined m known (inquiry.request m.shape) want := by
  cases inquiry with
  | demand d => exact ⟨_, d.determined.discard⟩
  | rows d0 d1 => exact ⟨_, (Resolution.determined_fetch d0 d1).discard⟩
  | listing dim =>
    obtain ⟨_, h⟩ : ∃ want, Determined m known (Entity.listing m.shape dim) want :=
      Entity.determined_listing dim
    exact ⟨_, h.discard⟩
  | view dim index => exact ⟨_, (Entity.determined_view dim index).discard⟩
  | indices e dim => exact ⟨_, (Entity.determined_incidentIndices e dim).discard⟩
  | incident e dim =>
    obtain ⟨_, h⟩ : ∃ want, Determined m known (e.incident m.shape dim) want :=
      Entity.determined_incident e dim
    exact ⟨_, h.discard⟩
  | vertices e => exact ⟨_, (Entity.determined_vertices e).discard⟩
  | contains e other =>
    exact ⟨_, (Entity.determined_vertices other).bind fun _ => (Entity.determined_vertices e).discard⟩
  | neighbours query =>
    obtain ⟨_, h⟩ : ∃ want, Determined m known (query.find m.shape) want :=
      Neighbours.determined_find query
    exact ⟨_, h.discard⟩

theorem leads_after {s : Store} (h : Faithful m s) (inquiries : List Inquiry) :
    Leads m s (after m.shape s inquiries) := by
  induction inquiries generalizing s with
  | nil => exact .refl h
  | cons inquiry rest ih =>
    obtain ⟨_, determined⟩ :
        ∃ want, Determined m (fun d => (s.count? d).isSome) (inquiry.request m.shape) want :=
      inquiry.determined
    have first := (determined ⟨s, []⟩ h (m.knows_counted s)).leads
    exact first.trans (ih first.faithful)

/-- Whatever is asked of an accepted mesh, its store stays faithful. -/
theorem faithful_after (accepted : m.Accepted) (inquiries : List Inquiry) :
    Faithful m (after m.shape m.store inquiries) :=
  (leads_after accepted.sound.faithful inquiries).faithful

end Inquiry

end MeshIncidence
