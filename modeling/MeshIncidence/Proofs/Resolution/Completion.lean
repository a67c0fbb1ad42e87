import Mathlib
import MeshIncidence.Proofs.Resolution.Complete
import MeshIncidence.Proofs.Resolution.Existence
import MeshIncidence.Proofs.Resolution.Tampered

/-!
Meshes whose shape splits cells well. All that is asked of such a mesh succeeds, with one exception:
to turn a relation round takes room for the entities it is turned round onto, and there may be more
of them than words. Asking for everything makes its store complete.
-/
namespace MeshIncidence

namespace Faithful

variable {m : Mesh} {s : Store} {d d0 d1 : Int}

theorem covers_of_count (h : Faithful m s) (hc : (s.count? d).isSome) : m.Covers d := by
  obtain ⟨n, hn⟩ := Option.isSome_iff_exists.mp hc
  exact Mesh.covers_of_countOf (h.count hn)

theorem covers_of_relation (h : Faithful m s) (hr : (s.relation? d0 d1).isSome) :
    m.Covers d0 ∧ m.Covers d1 := by
  obtain ⟨r, hr⟩ := Option.isSome_iff_exists.mp hr
  obtain ⟨h0, h1⟩ := h.ends hr
  exact ⟨h.covers_of_count h0, h.covers_of_count h1⟩

end Faithful

namespace Mesh

variable {m : Mesh} {s : Store} {d d0 d1 : Int} {n : Nat}

/-- There are no more entities than parts of cells. -/
theorem count_le_parts (sound : m.Sound) {parts : List (List Int)} (regular : m.shape.Regular d parts)
    (above : 0 < d) (below : d < m.dim) (hn : m.countOf d = .ok n) :
    n ≤ m.cells.length * parts.length := by
  obtain ⟨rows, hrows, rfl⟩ := vertexRows_of_countOf hn (by omega)
  rw [vertexRows_below sound regular (by omega) hrows]
  have first : (m.keys parts).flatten.eraseDups ⊆ (m.keys parts).flatten := fun key hkey =>
    List.mem_eraseDups.mp hkey
  have fewer := ((nodup_eraseDups (m.keys parts).flatten).subperm first).length_le
  have length : (m.keys parts).flatten.length = m.cells.length * parts.length := by
    simp [keys, Numbering.keysOf, Function.comp_def]
  omega

section WellFormed

variable (sound : m.Sound) (wellFormed : m.WellFormed) (small : m.pointCount + 1 < Word.bound)

include sound wellFormed small

/-- There is room for the vertices. -/
theorem outcome_relation_iff (faithful : Faithful m s) (c0 : m.Covers d0) (c1 : m.Covers d1)
    (hn : m.countOf d0 = .ok n) : ((Resolution.relation m.shape d0 d1).run s).1 = .ok () ↔
      (0 < d0 → d0 < d1 → (n : Int) + 1 < Word.bound) := by
  obtain ⟨n1, hn1⟩ := countOf_exists sound wellFormed small c1
  have outcome : ((Resolution.relation m.shape d0 d1).run s).1 =
      if d0 < d1 then room n else .ok () := by
    have storable := storable_of_wellFormed sound wellFormed
    rw [← outcome_relationOf sound wellFormed small hn hn1,
      ← answerOf_of_fine (storable d0) (storable d1) hn hn1]
    exact (Resolution.determined_relation d0 d1 ⟨s, []⟩ faithful (m.knows_counted s)).outcome
  rw [outcome]
  split
  · rename_i rising
    rw [room_eq_ok]
    refine ⟨fun enough _ _ => enough, fun enough => ?_⟩
    by_cases bottom : d0 = 0
    · subst bottom
      rw [eq_points_of_countOf hn]
      exact sound.points_small small
    · exact enough (by have := c0.1; omega) rising
  · rename_i falling
    exact ⟨fun _ _ rising => absurd rising falling, fun _ => rfl⟩

theorem everything_eq_ok_iff (faithful : Faithful m s) :
    ((Resolution.everything m.shape).run s).1 = .ok () ↔ ∀ d, 0 < d → d < m.dim →
      (((Resolution.everything m.shape).run s).2.store.sizeOf d : Int) + 1 < Word.bound := by
  have storable := storable_of_wellFormed sound wellFormed
  have counted := fun d => countOf_exists (d := d) sound wellFormed small
  have sizes : ∀ {d n}, m.countOf d = .ok n →
      ((Resolution.everything m.shape).run s).2.store.sizeOf d = n := fun hn => by
    rw [Store.sizeOf, Resolution.count?_everything faithful storable counted hn, Option.getD_some]
  rw [Resolution.outcome_everything faithful, everythingOf_eq_ok_iff sound wellFormed small]
  refine forall_congr' fun d => ⟨fun h above below => ?_, fun h n above below hn => ?_⟩
  · obtain ⟨n, hn⟩ := counted d ⟨by omega, by omega⟩
    rw [sizes hn]
    exact h n above below hn
  · rw [← sizes hn]
    exact h above below

/-- Where everything can be had, it is there afterwards. -/
theorem complete_everything {known : Int → Bool} (faithful : Faithful m s)
    (succeeds : m.everythingOf known = .ok ()) :
    ((Resolution.everything m.shape).run s).2.store.Complete := by
  have faithful' := Resolution.faithful_everything faithful
  have covers := fun d => faithful'.store_covers_iff (d := d)
  constructor
  case coherent => exact faithful'.coherent
  case counted =>
    intro d hd
    obtain ⟨n, hn⟩ := countOf_exists sound wellFormed small ((covers d).mp hd)
    have counted := fun d => countOf_exists (d := d) sound wellFormed small
    simp [Resolution.count?_everything faithful (storable_of_wellFormed sound wellFormed) counted hn]
  case related =>
    intro d0 d1 h0 h1
    obtain ⟨r, -, hr⟩ :=
      Resolution.relation?_everything faithful succeeds ((covers d0).mp h0) ((covers d1).mp h1)
    simp [hr]
  case inside => exact fun hr he => inside_of_recorded sound wellFormed faithful' hr he
  case small => simpa [Store.sizeOf, faithful'.bottom] using sound.points_small small

end WellFormed

/-- On every store that demands lead to, the entities of every dimension are found, no more than the
cells have parts, and every relation between dimensions is found, if there is room where it is turned
round. Asking for everything then records every dimension and every pair of dimensions, and no
others; and from then on, whatever is asked leaves the store as it is, and what is asked of
dimensions and entities that are there is answered. -/
theorem wellFormed_completes (accepted : m.Accepted) (small : m.pointCount + 1 < Word.bound)
    (wellFormed : m.WellFormed) (reached : m.Reaches s) :
    (∀ d0, m.Covers d0 → ∃ n, ((Resolution.entities m.shape d0).run s).1 = .ok n ∧
      (∀ parts, 0 < d0 → d0 < m.dim → m.shape.Regular d0 parts → n ≤ m.cells.length * parts.length) ∧
      ∀ d1, m.Covers d1 → (((Resolution.relation m.shape d0 d1).run s).1 = .ok () ↔
        (0 < d0 → d0 < d1 → (n : Int) + 1 < Word.bound))) ∧
    let ended := (Resolution.everything m.shape).run s
    let t := ended.2.store
    (ended.1 = .ok () ↔ ∀ d, 0 < d → d < m.dim → (t.sizeOf d : Int) + 1 < Word.bound) ∧
    (ended.1 = .ok () →
      (∀ d, (t.count? d).isSome ↔ m.Covers d) ∧
      (∀ d0 d1, (t.relation? d0 d1).isSome ↔ m.Covers d0 ∧ m.Covers d1) ∧
      (∀ inquiries, Inquiry.after m.shape t inquiries = t) ∧
      ∀ inquiry : Inquiry, inquiry.Valid t → ((inquiry.request m.shape).run t).1 = .ok ()) := by
  have sound := accepted.sound
  have faithful := reached.faithful accepted
  refine ⟨fun d0 c0 => ?_, everything_eq_ok_iff sound wellFormed small faithful, fun succeeds => ?_⟩
  · obtain ⟨n, hn⟩ := countOf_exists sound wellFormed small c0
    have fine := storable_of_wellFormed sound wellFormed d0
    refine ⟨n, (Resolution.outcome_entities faithful fine).trans hn, ?_, fun d1 c1 => ?_⟩
    · exact fun parts above below regular => count_le_parts sound regular above below hn
    · exact outcome_relation_iff sound wellFormed small faithful c0 c1 hn
  · have outcome := Resolution.outcome_everything faithful
    have faithful' := Resolution.faithful_everything faithful
    have succeeds := outcome.symm.trans succeeds
    have complete := complete_everything sound wellFormed small faithful succeeds
    have covers := fun d => faithful'.store_covers_iff (d := d)
    refine ⟨fun d => ⟨faithful'.covers_of_count, fun h => complete.counted ((covers d).mpr h)⟩,
      fun d0 d1 => ⟨faithful'.covers_of_relation, fun h => ?_⟩,
      Inquiry.after_complete complete m.shape, fun inquiry valid => ?_⟩
    · exact complete.related ((covers d0).mpr h.1) ((covers d1).mpr h.2)
    · obtain ⟨⟨⟩, q, hq, -, -⟩ := Inquiry.reads_of_valid complete faithful'.dim valid ⟨_, []⟩ rfl
      rw [Request.run, hq]

/-- What is known of the strip when everything is asked for after the edges that touch. -/
def finished : Except Fault Unit × Progress :=
  (Resolution.everything strip.shape).run (Demand.after strip.shape strip.store [.relation 1 1])

/-- An edge is within a triangle, and to find this out changes nothing. -/
theorem wellFormed_completes_strip :
    let s := Demand.after strip.shape strip.store [.relation 1 1]
    let within : Inquiry := .contains ⟨2, 0⟩ ⟨1, 2⟩
    let asked := [within, .view 1 5, .listing 0]
    strip.Accepted ∧ strip.pointCount + 1 < Word.bound ∧ strip.WellFormed ∧ strip.Reaches s ∧
      finished = (Resolution.everything strip.shape).run s ∧ finished.1 = .ok () ∧
      ((within.request strip.shape).run finished.2.store).1 = .ok () ∧
      Inquiry.after strip.shape finished.2.store asked = finished.2.store := by
  have small : strip.pointCount + 1 < Word.bound := by decide
  have wellFormed : strip.WellFormed := wellFormed_of_simplex rfl
  have reached : strip.Reaches (Demand.after strip.shape strip.store [.relation 1 1]) := ⟨_, rfl⟩
  have succeeds : finished.1 = .ok () := by cbv
  have dim : finished.2.store.dim = 2 := by cbv
  have triangles : finished.2.store.sizeOf 2 = 2 := by cbv
  have edges : finished.2.store.sizeOf 1 = 5 := by cbv
  have valid : (Inquiry.contains ⟨2, 0⟩ ⟨1, 2⟩).Valid finished.2.store := by
    simp [Inquiry.Valid, Entity.Within, Store.Covers, dim, triangles, edges]
  obtain ⟨-, -, rest⟩ := wellFormed_completes strip_accepted small wellFormed reached
  obtain ⟨-, -, still, answered⟩ := rest succeeds
  exact ⟨strip_accepted, small, wellFormed, reached, rfl, succeeds, answered _ valid, still _⟩

end Mesh

end MeshIncidence
