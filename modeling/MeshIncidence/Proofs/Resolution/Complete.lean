import Mathlib
import MeshIncidence.Proofs.Resolution.Inquiry
import MeshIncidence.Proofs.Resolution.Recording
import MeshIncidence.Proofs.Resolution.Vertices

/-!
Complete stores, where every count and every relation is recorded. Nothing that is asked of them
changes them, and what is asked of dimensions and entities that are there is answered. Consumers can
share such a store as long as they only ask.
-/
namespace MeshIncidence

open Request

theorem Incidence.mem_targets {r : Incidence} {row : List Int} (hrow : row ∈ r.rows) {e : Int}
    (he : e ∈ row) : e ∈ r.targets := by
  obtain ⟨span, -, rfl⟩ := List.mem_map.mp hrow
  exact List.mem_of_mem_take (List.mem_of_mem_drop he)

/-- Every count and every relation is recorded, and the entities that relations refer to are there.
-/
structure Store.Complete (s : Store) : Prop where
  coherent : s.Coherent
  counted : ∀ {d}, s.Covers d → (s.count? d).isSome
  related : ∀ {d0 d1}, s.Covers d0 → s.Covers d1 → (s.relation? d0 d1).isSome
  inside : ∀ {d0 d1 r e}, s.relation? d0 d1 = some r → e ∈ r.targets → 0 ≤ e ∧ e < s.sizeOf d1
  small : (s.sizeOf 0 : Int) + 1 < Word.bound

namespace Store.Complete

variable {s : Store} {d d0 d1 : Int}

theorem covers_top (h : s.Complete) : s.Covers s.dim :=
  h.coherent.covers_of_whole h.coherent.whole_top

theorem covers_bottom (h : s.Complete) : s.Covers 0 :=
  h.coherent.covers_of_whole h.coherent.whole_bottom

theorem whole (h : s.Complete) (covers : s.Covers d) : s.Whole d :=
  ⟨h.counted covers, fun _ => h.related h.covers_top covers,
    fun _ => h.related covers h.covers_bottom⟩

theorem holds (h : s.Complete) (c0 : s.Covers d0) (c1 : s.Covers d1) : s.Holds d0 d1 :=
  ⟨c0, c1, h.related c0 c1⟩

end Store.Complete

/-- An entity that is there. -/
def Entity.Within (e : Entity) (s : Store) : Prop := s.Covers e.dim ∧ e.index < s.sizeOf e.dim

section Complete

variable {t : Store} (complete : t.Complete)

include complete

namespace Resolution

variable {shape : Shape} {d d0 d1 : Int}

theorem reads_entities (covers : t.Covers d) : Reads (· = t) (entities shape d) (· = t.sizeOf d) := by
  rintro p rfl
  exact ⟨_, p, entitiesBy_whole covers (complete.whole covers), rfl, rfl⟩

theorem reads_relation (c0 : t.Covers d0) (c1 : t.Covers d1) :
    Reads (· = t) (relation shape d0 d1) fun _ => True := by
  rintro p rfl
  exact ⟨(), _, relationWithin_holds (complete.holds c0 c1) 3, rfl, trivial⟩

theorem silent_entities (shape : Shape) (d : Int) : Silent (· = t) (entities shape d) := by
  rintro p rfl
  by_cases covers : p.store.Covers d
  · have there : entities shape d p = _ := entitiesBy_whole covers (complete.whole covers)
    rw [there]
  · unfold entities entitiesBy
    rw [bind_of_ok (store_apply p), if_neg covers]
    rfl

theorem silent_relation (shape : Shape) (d0 d1 : Int) : Silent (· = t) (relation shape d0 d1) := by
  rintro p rfl
  by_cases covers : p.store.Covers d0 ∧ p.store.Covers d1
  · rw [relation, nesting, relationWithin_holds (complete.holds covers.1 covers.2)]
  · -- Between dimensions that are not there, already looking for the relation fails.
    have refused : ∃ e, p.store.hasRelation d0 d1 = .error e := by
      unfold Store.hasRelation Store.findRelation Store.within
      split
      · rename_i c0
        rw [if_neg fun c1 => covers ⟨c0, c1⟩]
        exact ⟨_, rfl⟩
      · exact ⟨_, rfl⟩
    obtain ⟨e, he⟩ := refused
    unfold relation nesting relationWithin
    rw [bind_of_ok (note_apply _ p), bind_of_error ((read_apply _ _).trans (by rw [he]))]

theorem silent_everything (shape : Shape) : Silent (· = t) (everything shape) := by
  refine .bind .store fun s => .bind (.forM (fun d => ?_) _) fun _ => .forM (fun d0 => ?_) _
  · exact (silent_entities complete shape d).bind fun _ => .pure ()
  · exact .forM (silent_relation complete shape d0) _

theorem reads_everything : Reads (· = t) (everything shape) fun _ => True := by
  have within : ∀ d ∈ t.dimensions, t.Covers d := by
    intro d hd
    obtain ⟨i, hi, rfl⟩ := List.mem_map.mp hd
    have below := List.mem_range.mp hi
    simp only [Store.Covers, Int.ofNat_eq_natCast]
    omega
  have start : Reads (· = t) Request.store (· = t) := fun p same => ⟨p.store, p, rfl, rfl, same⟩
  refine start.bind fun s same => ?_
  rw [same]
  refine .bind (.forM fun d hd => ?_) fun _ _ => .forM fun d0 h0 => .forM fun d1 h1 => ?_
  · exact (reads_entities complete (within d hd)).discard
  · exact reads_relation complete (within d0 h0) (within d1 h1)

theorem silent_fetch (shape : Shape) (d0 d1 : Int) : Silent (· = t) (fetch shape d0 d1) :=
  (silent_relation complete shape d0 d1).bind fun _ => .read _

theorem reads_fetch (c0 : t.Covers d0) (c1 : t.Covers d1) :
    Reads (· = t) (fetch shape d0 d1) fun r => t.relation? d0 d1 = some r := by
  refine (reads_relation complete c0 c1).bind fun _ _ => .read ?_
  rintro s rfl
  obtain ⟨r, hr⟩ := Option.isSome_iff_exists.mp (complete.related c0 c1)
  exact ⟨r, Store.relation_of_some c0 c1 hr, hr⟩

end Resolution

namespace Entity

variable {shape : Shape} {e : Entity} {dim index : Int}

theorem silent_view (shape : Shape) (dim index : Int) : Silent (· = t) (view shape dim index) := by
  refine (Resolution.silent_entities complete shape dim).bind fun n => ?_
  split
  · exact .pure _
  · exact .fail _

theorem reads_view (covers : t.Covers dim) (there : 0 ≤ index ∧ index < t.sizeOf dim) :
    Reads (· = t) (view shape dim index) (· = ⟨dim, index.toNat⟩) := by
  refine (Resolution.reads_entities complete covers).bind fun n size => ?_
  rw [size, if_pos there]
  exact .pure rfl

theorem silent_incidentIndices (shape : Shape) (e : Entity) (dim : Int) :
    Silent (· = t) (e.incidentIndices shape dim) :=
  (Resolution.silent_fetch complete shape e.dim dim).bind fun _ => .lift _

theorem reads_incidentIndices (there : e.Within t) (covers : t.Covers dim) :
    Reads (· = t) (e.incidentIndices shape dim) fun found =>
      ∀ i ∈ found, 0 ≤ i ∧ i < t.sizeOf dim := by
  refine (Resolution.reads_fetch complete there.1 covers).bind fun r hr => ?_
  have count := (complete.coherent.rows hr).2.2
  have row : e.index < r.rows.length := by
    have below := there.2
    rwa [Store.sizeOf, count, Option.getD_some, ← Incidence.length_rows] at below
  refine .lift (by rw [Incidence.row_eq_getElem row, Outcome.mapError_ok]) fun i hi => ?_
  exact complete.inside hr (Incidence.mem_targets (List.getElem_mem row) hi)

theorem silent_incident (shape : Shape) (e : Entity) (dim : Int) :
    Silent (· = t) (e.incident shape dim) :=
  (silent_incidentIndices complete shape e dim).bind fun _ => .mapM (silent_view complete shape dim) _

theorem reads_incident (there : e.Within t) (covers : t.Covers dim) :
    Reads (· = t) (e.incident shape dim) fun _ => True := by
  refine (reads_incidentIndices complete there covers).bind fun found inside => .mapM fun i hi => ?_
  exact (reads_view complete covers (inside i hi)).weaken

theorem silent_vertices (shape : Shape) (e : Entity) : Silent (· = t) (e.vertices shape) := by
  unfold vertices
  split
  · exact .lift _
  · exact silent_incidentIndices complete shape e 0

theorem reads_vertices (there : e.Within t) : Reads (· = t) (e.vertices shape) fun _ => True := by
  unfold vertices
  split
  · rename_i bottom
    have below := there.2
    have small := complete.small
    rw [bottom] at below
    have fits : Word.fits e.index = true := by
      rw [Word.fits, decide_eq_true_eq]
      have : (0 : Int) < Word.bound := by decide
      omega
    exact .lift (by rw [itself, if_pos fits]) trivial
  · exact (reads_incidentIndices complete there complete.covers_bottom).weaken

theorem silent_listing (shape : Shape) (dim : Int) : Silent (· = t) (listing shape dim) := by
  refine (Resolution.silent_entities complete shape dim).bind fun n => .mapM (fun index => ?_) _
  exact (silent_view complete shape dim index).bind fun e =>
    (silent_vertices complete shape e).bind fun _ => .pure _

theorem reads_listing (covers : t.Covers dim) : Reads (· = t) (listing shape dim) fun _ => True := by
  refine (Resolution.reads_entities complete covers).bind fun n size => .mapM fun index hindex => ?_
  have below : index < t.sizeOf dim := by
    rw [← size]
    exact List.mem_range.mp hindex
  refine (reads_view complete covers ⟨by omega, by omega⟩).bind fun e view => ?_
  have there : e.Within t := by
    rw [view]
    exact ⟨covers, by simpa using below⟩
  exact (reads_vertices complete there).bind fun _ _ => .pure trivial

end Entity

namespace Neighbours

theorem silent_find (shape : Shape) (query : Neighbours) : Silent (· = t) (query.find shape) := by
  unfold find
  cases query with
  | cellToPoints => exact .read _
  | _ => exact Resolution.silent_fetch complete shape _ _

theorem reads_find {shape : Shape} (dim : t.dim = shape.dim) (query : Neighbours) :
    Reads (· = t) (query.find shape) fun _ => True := by
  have top : t.Covers shape.dim := dim ▸ complete.covers_top
  have bottom := complete.covers_bottom
  unfold find
  cases query with
  | pointToCells => exact (Resolution.reads_fetch complete bottom top).weaken
  | pointToPoints => exact (Resolution.reads_fetch complete bottom bottom).weaken
  | cellToCells => exact (Resolution.reads_fetch complete top top).weaken
  | cellToPoints =>
    refine .read ?_
    rintro s rfl
    obtain ⟨r, hr⟩ := Option.isSome_iff_exists.mp (complete.related top bottom)
    exact ⟨r, Store.relation_of_some top bottom hr, trivial⟩

end Neighbours

end Complete

namespace Inquiry

/-- About dimensions and entities that are there. -/
def Valid (s : Store) : Inquiry → Prop
  | demand (.entities dim) => s.Covers dim
  | demand (.relation d0 d1) => s.Covers d0 ∧ s.Covers d1
  | demand .everything => True
  | rows d0 d1 => s.Covers d0 ∧ s.Covers d1
  | listing dim => s.Covers dim
  | view dim index => s.Covers dim ∧ 0 ≤ index ∧ index < s.sizeOf dim
  | indices e dim => e.Within s ∧ s.Covers dim
  | incident e dim => e.Within s ∧ s.Covers dim
  | vertices e => e.Within s
  | contains e other => e.Within s ∧ other.Within s
  | neighbours _ => True

variable {t : Store} (complete : t.Complete)

include complete

theorem silent (shape : Shape) (inquiry : Inquiry) : Silent (· = t) (inquiry.request shape) := by
  cases inquiry with
  | demand d =>
    cases d with
    | entities dim => exact (Resolution.silent_entities complete shape dim).discard.discard
    | relation d0 d1 => exact (Resolution.silent_relation complete shape d0 d1).discard.discard
    | everything => exact (Resolution.silent_everything complete shape).discard.discard
  | rows d0 d1 => exact (Resolution.silent_fetch complete shape d0 d1).discard
  | listing dim => exact (Entity.silent_listing complete shape dim).discard
  | view dim index => exact (Entity.silent_view complete shape dim index).discard
  | indices e dim => exact (Entity.silent_incidentIndices complete shape e dim).discard
  | incident e dim => exact (Entity.silent_incident complete shape e dim).discard
  | vertices e => exact (Entity.silent_vertices complete shape e).discard
  | contains e other =>
    exact (Entity.silent_vertices complete shape other).bind fun _ =>
      (Entity.silent_vertices complete shape e).discard
  | neighbours query => exact (Neighbours.silent_find complete shape query).discard

/-- Whatever is asked of a complete store, it stays as it is. -/
theorem after_complete (shape : Shape) (inquiries : List Inquiry) : after shape t inquiries = t := by
  induction inquiries with
  | nil => rfl
  | cons inquiry rest ih =>
    rw [after, Request.run, inquiry.silent complete shape ⟨t, []⟩ rfl]
    exact ih

theorem reads_of_valid {shape : Shape} (dim : t.dim = shape.dim) {inquiry : Inquiry}
    (valid : inquiry.Valid t) : Reads (· = t) (inquiry.request shape) fun _ => True := by
  cases inquiry with
  | demand d =>
    cases d with
    | entities dim => exact (Resolution.reads_entities complete valid).discard.discard
    | relation d0 d1 =>
      exact (Resolution.reads_relation complete valid.1 valid.2).discard.discard
    | everything => exact (Resolution.reads_everything complete).discard.discard
  | rows d0 d1 => exact (Resolution.reads_fetch complete valid.1 valid.2).discard
  | listing dim => exact (Entity.reads_listing complete valid).discard
  | view dim index => exact (Entity.reads_view complete valid.1 valid.2).discard
  | indices e dim => exact (Entity.reads_incidentIndices complete valid.1 valid.2).discard
  | incident e dim => exact (Entity.reads_incident complete valid.1 valid.2).discard
  | vertices e => exact (Entity.reads_vertices complete valid).discard
  | contains e other =>
    exact (Entity.reads_vertices complete valid.2).bind fun _ _ =>
      (Entity.reads_vertices complete valid.1).discard
  | neighbours query => exact (Neighbours.reads_find complete dim query).discard

end Inquiry

end MeshIncidence
