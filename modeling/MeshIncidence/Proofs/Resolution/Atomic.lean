import Mathlib
import MeshIncidence.Proofs.Resolution.Laziness

/-!
Entities are found whole or not at all, or their vertices cannot be recorded. A dimension is recorded
together with its part in the cells and with the vertices of its entities, whatever was asked before and
however the shape splits cells; only where it splits off vertices that are no words, these are missing. A
request for entities that fails leaves at most what it asks for first, the cells at the vertices and the
cells that touch, unless it fails for such vertices: then the entities stay counted.
-/
namespace MeshIncidence

namespace Faithful

variable {m : Mesh} {s : Store} {d : Int}

theorem counted_iff_cells (h : Faithful m s) (below : d ≠ m.dim) :
    (s.count? d).isSome ↔ (s.relation? m.dim d).isSome := by
  constructor
  · intro hc
    obtain ⟨n, hn⟩ := Option.isSome_iff_exists.mp hc
    exact h.cells hn below
  · intro hr
    obtain ⟨r, hr⟩ := Option.isSome_iff_exists.mp hr
    exact (h.ends hr).2

theorem vertices_iff_counted (h : Faithful m s) (above : d ≠ 0) :
    (s.relation? d 0).isSome ↔ (s.count? d).isSome ∧ ¬ m.Overflows d := by
  constructor
  · intro hr
    obtain ⟨r, hr⟩ := Option.isSome_iff_exists.mp hr
    exact ⟨(h.ends hr).1, (h.bare hr).1⟩
  · rintro ⟨hc, fine⟩
    obtain ⟨n, hn⟩ := Option.isSome_iff_exists.mp hc
    exact h.vertices hn above fine

/-- A dimension that cannot be counted is not. -/
theorem count?_of_error (h : Faithful m s) {e : Fault} (he : m.countOf d = .error e) :
    s.count? d = none := by
  cases hc : s.count? d with
  | none => rfl
  | some n => exact absurd (h.count hc) (Outcome.ne_ok_of_error he n)

end Faithful

namespace Mesh

variable {m : Mesh} {s : Store}

/-- Entities are refused where they cannot be counted, or where their vertices cannot be recorded. -/
theorem overflows_or_uncounted {known : Int → Bool} {d : Int} {e : Fault}
    (failed : m.entitiesOf known d = .error e) : m.Overflows d ∨ m.countOf d = .error e := by
  unfold entitiesOf at failed
  split at failed
  · exact .inl ‹_›
  · exact .inr failed

/-- In every store that demands lead to, the entities of a dimension are recorded exactly where their
part in the cells is, and their vertices with them unless these are no words. A request for entities that
fails there changes nothing that is recorded, and adds no more than the cells at the vertices and the
cells that touch; and where the vertices are no words, the number of the entities and their part in the
cells. -/
theorem entities_all_or_nothing (accepted : m.Accepted) (reached : m.Reaches s) :
    (∀ d, d ≠ m.dim → ((s.count? d).isSome ↔ (s.relation? m.dim d).isSome)) ∧
    (∀ d, d ≠ 0 → ((s.relation? d 0).isSome ↔ (s.count? d).isSome ∧ ¬ m.Overflows d)) ∧
    ∀ dim e, ((Resolution.entities m.shape dim).run s).1 = .error e →
      let t := ((Resolution.entities m.shape dim).run s).2.store
      t.dim = s.dim ∧ (∀ d n, s.count? d = some n → t.count? d = some n) ∧
      (∀ d0 d1 r, s.relation? d0 d1 = some r → t.relation? d0 d1 = some r) ∧
      (m.Overflows dim → (t.count? dim).isSome ∧ (t.relation? m.dim dim).isSome) ∧
      (∀ d, ¬ (d = dim ∧ m.Overflows dim) → t.count? d = s.count? d) ∧
      ∀ d0 d1, (d0, d1) ≠ (0, m.dim) → (d0, d1) ≠ (m.dim, m.dim) →
        ¬ ((d0, d1) = (m.dim, dim) ∧ m.Overflows dim) → t.relation? d0 d1 = s.relation? d0 d1 := by
  have faithful := reached.faithful accepted
  refine ⟨fun d => faithful.counted_iff_cells, fun d => faithful.vertices_iff_counted,
    fun dim e failed => ?_⟩
  intro t
  have counts := reached.counts accepted dim
  have confined : Confined [dim] _ s ((Resolution.entities m.shape dim).run s) :=
    Resolution.confined_entitiesBy (n := 1) faithful.coherent
  have after : Faithful m t := counts.leads.faithful
  have refused := overflows_or_uncounted (counts.outcome.symm.trans failed)
  have uncounted : ¬ m.Overflows dim → t.count? dim = none ∧ s.count? dim = none := fun fine => by
    have missing := refused.resolve_left fine
    exact ⟨after.count?_of_error missing, faithful.count?_of_error missing⟩
  refine ⟨counts.leads.grows.dim, fun d n => counts.leads.grows.count,
    fun d0 d1 r => counts.leads.grows.relation, fun beyond => ?_, fun d other => ?_,
    fun d0 d1 bottom top other => ?_⟩
  · obtain ⟨c, hc⟩ := beyond.countOf
    have counted := counts.recorded hc
    exact ⟨Option.isSome_iff_exists.mpr ⟨c, counted⟩, after.cells counted beyond.2.1.ne⟩
  · by_cases same : d = dim
    · subst same
      obtain ⟨new, old⟩ := uncounted fun beyond => other ⟨rfl, beyond⟩
      rw [new, old]
    · exact confined.frame.count (by simpa using same)
  · -- What else a numbering writes, it has not written: its part in the cells comes with a count, and
    -- the vertices only where the request succeeds.
    by_cases written : (d0, d1) = (m.dim, dim) ∨ (d0, d1) = (dim, 0)
    · have none_of_ends : ∀ {u : Store}, Faithful m u →
          (¬ m.Overflows dim → u.count? dim = none) → u.relation? d0 d1 = none := by
        intro u hu absent
        rcases written with pair | pair <;> cases pair
        · exact hu.relation_fresh (.inr (absent fun beyond => other ⟨rfl, beyond⟩))
        · by_cases beyond : m.Overflows dim
          · cases hr : u.relation? dim 0 with
            | none => rfl
            | some r => exact absurd beyond (hu.bare hr).1
          · exact hu.relation_fresh (.inl (absent beyond))
      rw [none_of_ends after fun fine => (uncounted fine).1,
        none_of_ends faithful fun fine => (uncounted fine).2]
    · refine confined.frame.relation ?_
      rw [faithful.dim]
      simp only [Resolution.numberedPairs, List.mem_cons, List.not_mem_nil, or_false]
      tauto

/-- Two triangles of a shape that drops an edge of the second one. -/
def frayed : Mesh :=
  ⟨Shape.custom "frayed" 2 [[[0], [1], [2]], [[0, 1], [0, 2], [1, 2]], [[0, 1, 2]]] (some .dropLast)
      (some 1),
    [[0, 1, 2], [1, 2, 3]], 4,
    ⟨2, [(0, 4), (2, 2)], [((2, 0), Incidence.ofRows [[0, 1, 2], [1, 2, 3]])]⟩⟩

/-- The edges of the second triangle are refused, after those of the first one were numbered. -/
theorem entities_all_or_nothing_frayed :
    let s := frayed.store
    let ended := (Resolution.entities frayed.shape 1).run s
    frayed.Accepted ∧ frayed.Reaches s ∧
      ended.1 = .error (.inconsistent (.subentityCount "frayed" 2 1 1 3)) ∧
      (ended.2.store.relation? 0 2).isSome ∧ (ended.2.store.relation? 2 2).isSome ∧
      (∀ d, ended.2.store.count? d = s.count? d) ∧
      ∀ d0 d1, (d0, d1) ≠ (0, 2) → (d0, d1) ≠ (2, 2) →
        ended.2.store.relation? d0 d1 = s.relation? d0 d1 := by
  have accepted : frayed.Accepted :=
    ⟨Registry.builtin, ⟨[2, 3], .word, [0, 1, 2, 1, 2, 3]⟩, .given frayed.shape, none, rfl, rfl⟩
  have failed : ((Resolution.entities frayed.shape 1).run frayed.store).1 =
      .error (.inconsistent (.subentityCount "frayed" 2 1 1 3)) := by cbv
  have fine : ¬ frayed.Overflows 1 := by
    rintro ⟨-, -, k, hk, -⟩
    have refused : frayed.numbering 1 = .error (.inconsistent (.subentityCount "frayed" 2 1 1 3)) := by
      cbv
    rw [refused] at hk
    cases hk
  have reached : frayed.Reaches frayed.store := ⟨[], rfl⟩
  obtain ⟨-, -, atomic⟩ := entities_all_or_nothing accepted reached
  obtain ⟨-, -, -, -, counts, relations⟩ := atomic 1 _ failed
  exact ⟨accepted, reached, failed, by cbv, by cbv, fun d => counts d fun h => fine h.2,
    fun d0 d1 bottom top => relations d0 d1 bottom top fun h => fine h.2⟩

/-- The request for the edge of the overlong triangle fails, and leaves the edge counted and listed by the
triangle, without its vertices. -/
theorem entities_left_in_part_overlong :
    let s := overlong.store
    let ended := (Resolution.entities overlong.shape 1).run s
    overlong.Accepted ∧ overlong.Reaches s ∧ ended.1 = .error (.encoding .notAWord) ∧
      s.count? 1 = none ∧ ended.2.store.count? 1 = some 1 ∧
      s.relation? 2 1 = none ∧ ended.2.store.relation? 2 1 = some (Incidence.ofRows [[0]]) ∧
      ended.2.store.relation? 1 0 = none :=
  ⟨overlong_accepted, ⟨[], rfl⟩, by cbv, rfl, by cbv, rfl, by cbv, by cbv⟩

end Mesh

end MeshIncidence
