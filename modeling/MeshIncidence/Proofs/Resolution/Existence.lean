import Mathlib
import MeshIncidence.Proofs.Resolution.Everything
import MeshIncidence.Proofs.Resolution.Rows

/-!
What can be found where the shape splits well. Every dimension can be counted and every relation that
does not rise in dimension can be found, if there are not too many vertices. A relation that rises is
turned round onto the entities of its lower dimension, and fails only if there are too many of them.
-/
namespace MeshIncidence

namespace Mesh

variable {m other : Mesh} {d d0 d1 : Int} {n0 n1 : Nat} {rows : List (List Int)}

/-- Whether a list of so many rows can be allocated. -/
def room (n : Nat) : Except Fault Unit :=
  if !Word.fits n then .error (.encoding .notAWord)
  else if (n : Int) + 1 = Word.bound then .error (.encoding .lengthOutside)
  else .ok ()

theorem room_eq_ok {n : Nat} : room n = .ok () ↔ (n : Int) + 1 < Word.bound := by
  have positive : 0 < Word.bound := by decide
  simp only [room, Word.fits, Bool.not_eq_true', decide_eq_false_iff_not]
  split
  · simp only [reduceCtorEq, false_iff]
    omega
  · split
    · simp only [reduceCtorEq, false_iff]
      omega
    · simp only [true_iff]
      omega

/-- Turned round, rows that refer to what is there only need room. -/
theorem outcome_transpose {n : Nat}
    (inside : ∀ row ∈ rows, ∀ e ∈ row, 0 ≤ e ∧ e < n) :
    ((Incidence.ofRows rows).transpose? n).map (fun _ => ()) = room n := by
  rw [Incidence.transpose?_of_inside (Int.natCast_nonneg n) inside, room]
  split
  · rfl
  · split <;> rfl

/-- Two meshes whose counts agree, and whose relations can be found alike, can be asked for everything
alike. -/
theorem everythingOf_congr {known known' : Int → Bool} (storable : m.Storable)
    (storable' : other.Storable) (dim : other.dim = m.dim)
    (counts : ∀ d, m.Covers d → other.countOf d = m.countOf d)
    (relations : ∀ d0 d1, m.Covers d0 → m.Covers d1 →
      (other.relationOf d0 d1).map (fun _ => ()) = (m.relationOf d0 d1).map fun _ => ()) :
    other.everythingOf known' = m.everythingOf known := by
  have dims : other.dimensions = m.dimensions := by rw [dimensions, dim, dimensions]
  have covers : ∀ d, other.Covers d ↔ m.Covers d := fun d => by rw [Covers, dim, Covers]
  have entities : ∀ d, m.entitiesOf known d = m.countOf d := fun d => entitiesOf_of_fine (storable d)
  have entities' : ∀ d, other.entitiesOf known' d = other.countOf d := fun d =>
    entitiesOf_of_fine (storable' d)
  have answers : ∀ d0 ∈ m.dimensions, ∀ d1 ∈ m.dimensions,
      (other.answerOf known' d0 d1).map (fun _ => ()) =
        (m.answerOf known d0 d1).map fun _ => () := by
    intro d0 h0 d1 h1
    have c0 := mem_dimensions.mp h0
    have c1 := mem_dimensions.mp h1
    have c0' := (covers d0).mpr c0
    have c1' := (covers d1).mpr c1
    have same := relations d0 d1 c0 c1
    simp only [answerOf, c0, c1, c0', c1', storable d1, storable' d1, false_and, and_false,
      not_true_eq_false, if_false, entities, entities', counts]
    cases m.countOf d0 with
    | error e => rfl
    | ok n =>
      cases m.countOf d1 with
      | error e => rfl
      | ok n => exact same
  have counted : (other.dimensions.forM fun d => (other.entitiesOf known' d).map fun _ => ()) =
      m.dimensions.forM fun d => (m.entitiesOf known d).map fun _ => () := by
    rw [dims]
    exact Outcome.forM_congr fun d hd => by
      rw [entities', entities, counts d (mem_dimensions.mp hd)]
  rw [everythingOf, counted, dims, everythingOf]
  congr 1
  funext
  exact Outcome.forM_congr fun d0 h0 => Outcome.forM_congr fun d1 h1 => answers d0 h0 d1 h1

theorem Sound.vertexNeighbours_exists (sound : m.Sound)
    (small : m.pointCount + 1 < Word.bound) : ∃ found, m.vertexNeighbours = .ok found := by
  have inside : ∀ cell ∈ m.cells, ∀ v ∈ cell, 0 ≤ v ∧ v < m.points :=
    fun cell hcell v hv => sound.inside_points hcell hv
  exact ⟨_, vertexNeighbours_eq_ok.mpr ⟨inside, sound.points_small small,
    Derivation.neighbourRows_eq (Incidence.inverse_turned inside).back⟩⟩

section WellFormed

variable (sound : m.Sound) (wellFormed : m.WellFormed) (small : m.pointCount + 1 < Word.bound)

include sound wellFormed small

theorem countOf_exists (covers : m.Covers d) : ∃ n, m.countOf d = .ok n := by
  obtain ⟨nonneg, below⟩ := covers
  unfold countOf
  rw [if_pos ⟨nonneg, below⟩]
  split
  · exact ⟨_, rfl⟩
  split
  · exact ⟨_, rfl⟩
  · obtain ⟨touching, ht⟩ := sound.touching_exists small
    obtain ⟨parts, regular⟩ := wellFormed d (by omega) (by omega)
    exact ⟨_, by rw [numbering_eq sound regular ht, Outcome.map_ok]⟩

theorem throughVertices_exists (above : 0 < d1) (falling : d1 ≤ d0) (below : d0 ≤ m.dim)
    (c0 : m.countOf d0 = .ok n0) (c1 : m.countOf d1 = .ok n1) :
    ∃ found, m.throughVertices d0 d1 = .ok found := by
  obtain ⟨wholes, hw, -⟩ := vertexRows_of_countOf c0 (by omega)
  obtain ⟨parts, hp, -⟩ := vertexRows_of_countOf c1 (by omega)
  have inside : ∀ whole ∈ wholes, ∀ v ∈ whole,
      0 ≤ v ∧ v < (Incidence.turned parts m.points).length := fun whole hwhole v hv => by
    rw [Incidence.length_turned]
    exact inside_of_entity sound wellFormed (by omega) below hw hwhole hv
  have parts_inside : ∀ part ∈ parts, ∀ v ∈ part, 0 ≤ v ∧ v < m.points := fun part hpart v hv =>
    inside_of_entity sound wellFormed above (by omega) hp hpart hv
  have some : ∃ found, (if d0 = d1 then
      Derivation.neighbourRows (Incidence.turned parts m.points) wholes
      else Derivation.partRows (Incidence.turned parts m.points) wholes wholes parts) =
        .ok found := by
    split
    · exact ⟨_, Derivation.neighbourRows_eq inside⟩
    · exact ⟨_, Derivation.partRows_self_eq inside
        fun row hrow e he => Incidence.mem_turned hrow he⟩
  obtain ⟨found, hfound⟩ := some
  exact ⟨found, throughVertices_eq_ok.mpr
    ⟨wholes, parts, hw, hp, parts_inside, sound.points_small small, hfound⟩⟩

theorem fallingRows_exists (nonneg : 0 ≤ d1) (falling : d1 ≤ d0) (below : d0 ≤ m.dim)
    (c0 : m.countOf d0 = .ok n0) (c1 : m.countOf d1 = .ok n1) :
    ∃ found, m.fallingRows d0 d1 = .ok found := by
  unfold fallingRows
  split
  · split
    · exact sound.vertexNeighbours_exists small
    · rename_i above
      obtain ⟨found, hfound, -⟩ := vertexRows_of_countOf c0 above
      exact ⟨found, hfound⟩
  · rename_i above
    split
    · rename_i cells
      obtain ⟨found, hfound, -⟩ := vertexRows_of_countOf c1 above
      rw [vertexRows, if_neg cells.2] at hfound
      obtain ⟨k, hk, -⟩ := Outcome.map_eq_ok.mp hfound
      exact ⟨k.cellRows, by rw [cellRows, if_neg above, hk, Outcome.map_ok]⟩
    · exact throughVertices_exists sound wellFormed small (by omega) falling below c0 c1

/-- A relation between counted dimensions can be found, if there is room for it. -/
theorem outcome_relationOf (c0 : m.countOf d0 = .ok n0) (c1 : m.countOf d1 = .ok n1) :
    (m.relationOf d0 d1).map (fun _ => ()) = if d0 < d1 then room n0 else .ok () := by
  have covers0 := covers_of_countOf c0
  have covers1 := covers_of_countOf c1
  by_cases rising : d0 < d1
  · obtain ⟨found, hfound⟩ :=
      fallingRows_exists sound wellFormed small covers0.1 (by omega) covers1.2 c1 c0
    rw [relationOf, if_pos rising, if_pos rising, hfound, Outcome.ok_bind, c0, Outcome.ok_bind]
    exact outcome_transpose fun row hrow e he => inside_fallingRows sound wellFormed covers0.1
      (by omega) covers1.2 c1 c0 hfound hrow he
  · obtain ⟨found, hfound⟩ :=
      fallingRows_exists sound wellFormed small covers1.1 (by omega) covers0.2 c0 c1
    rw [relationOf_falling rising, hfound, if_neg rising]
    rfl

/-- Everything can be had if there is room for the entities of each dimension below the cells. -/
theorem everythingOf_eq_ok_iff {known : Int → Bool} : m.everythingOf known = .ok () ↔
    ∀ d n, 0 < d → d < m.dim → m.countOf d = .ok n → (n : Int) + 1 < Word.bound := by
  have positive := sound.positive
  have exists_iff : ∀ d0 d1, (∃ r, m.relationOf d0 d1 = .ok r) ↔
      (m.relationOf d0 d1).map (fun _ => ()) = .ok () := by
    intro d0 d1
    cases m.relationOf d0 d1 <;> simp
  rw [everythingOf_eq_ok]
  constructor
  · rintro ⟨-, -, related⟩ d n above below hn
    have top : m.Covers m.dim := ⟨by omega, le_rfl⟩
    obtain ⟨c, hc⟩ := countOf_exists sound wellFormed small top
    -- Every dimension is turned round at least once, to be related to the cells.
    have found := (exists_iff d m.dim).mp (related d m.dim ⟨by omega, by omega⟩ top)
    rw [outcome_relationOf sound wellFormed small hn hc, if_pos below] at found
    exact room_eq_ok.mp found
  · intro enough
    refine ⟨storable_of_wellFormed sound wellFormed, fun d => countOf_exists sound wellFormed small,
      fun d0 d1 c0 c1 => ?_⟩
    obtain ⟨n0, h0⟩ := countOf_exists sound wellFormed small c0
    obtain ⟨n1, h1⟩ := countOf_exists sound wellFormed small c1
    rw [exists_iff, outcome_relationOf sound wellFormed small h0 h1]
    split
    · rename_i rising
      have below := c1.2
      rw [room_eq_ok]
      by_cases bottom : d0 = 0
      · subst bottom
        rw [eq_points_of_countOf h0]
        exact sound.points_small small
      · exact enough d0 n0 (by have := c0.1; omega) (by omega) h0
    · rfl

end WellFormed

end Mesh

end MeshIncidence
