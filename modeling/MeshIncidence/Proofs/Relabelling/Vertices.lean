import Mathlib
import MeshIncidence.Proofs.Numbering.Admitted
import MeshIncidence.Proofs.Relabelling.Renamed
import MeshIncidence.Proofs.Resolution.Answers
import MeshIncidence.Proofs.Resolution.Everything

/-!
Vertices renumbered. Entities keep their numbers, and so do all relations between them and the cells;
what changes is how vertices are called in the rows that list them, in which row the entities at a
vertex are, and the order in which rows between other entities were gathered.
-/
namespace MeshIncidence

/-- A permutation of the first `n` numbers as names for them. Any other number keeps its own. -/
def renumber {n : Nat} (p : Equiv.Perm (Fin n)) (v : Int) : Int :=
  if h : 0 ≤ v ∧ v < n then (p ⟨v.toNat, by omega⟩ : Nat) else v

theorem renumber_natCast {n : Nat} (p : Equiv.Perm (Fin n)) (v : Fin n) :
    renumber p (v : Nat) = (p v : Nat) := by
  have := v.isLt
  simp [renumber]

theorem renames_renumber {n : Nat} (p : Equiv.Perm (Fin n)) : Renames n (renumber p) := by
  have inside : ∀ v, 0 ≤ renumber p v ∧ renumber p v < n ↔ 0 ≤ v ∧ v < n := by
    intro v
    unfold renumber
    split
    · rename_i hv
      simp [hv]
    · rfl
  refine ⟨fun a b same => ?_, inside⟩
  by_cases ha : 0 ≤ a ∧ a < n
  · have hb := (inside b).mp (same ▸ (inside a).mpr ha)
    rw [renumber, dif_pos ha, renumber, dif_pos hb] at same
    have := p.injective (Fin.ext (Int.ofNat.inj same))
    simp only [Fin.mk.injEq] at this
    omega
  · have hb : ¬ (0 ≤ b ∧ b < n) := fun hb => ha ((inside a).mp (same ▸ (inside b).mpr hb))
    rwa [renumber, dif_neg ha, renumber, dif_neg hb] at same

namespace Mesh

variable {m : Mesh} {d d0 d1 : Int} {rename : Int → Int} {rows : List (List Int)}

/-- Vertices onto which entities were turned round are there. -/
theorem inside_of_star (positive : 1 ≤ m.dim) (above : 0 < d) {t : Incidence}
    (h : m.relationOf 0 d = .ok t) (hrows : m.vertexRows d = .ok rows) :
    ∀ row ∈ rows, ∀ v ∈ row, 0 ≤ v ∧ v < m.points := by
  rw [relationOf_star positive above, stars_eq_ok] at h
  obtain ⟨rows', hrows', inside, -⟩ := h
  rw [hrows] at hrows'
  cases hrows'
  exact inside

section Renames

variable (sound : m.Sound) (renames : Renames m.points rename) (plain : m.shape.Plain)

include sound renames plain

/-- Relations of the cells to entities above the vertices stay, in both directions. -/
theorem relationOf_renamed_cells (above0 : 0 < d0) (above1 : 0 < d1) (below0 : d0 ≤ m.dim)
    (below1 : d1 ≤ m.dim) (cells : d0 = m.dim ∨ d1 = m.dim) :
    (m.renamed rename).relationOf d0 d1 = m.relationOf d0 d1 := by
  have counts : ∀ d, (m.renamed rename).countOf d = m.countOf d := fun d =>
    countOf_renamed sound renames plain
  have rows := fun d (above : 0 < d) => fallingRows_renamed (d := d) sound renames plain above
  unfold relationOf
  by_cases rising : d0 < d1
  · have top : d1 = m.dim := by omega
    rw [if_pos rising, if_pos rising, top, rows d0 above0, counts]
  · have top : d0 = m.dim := by omega
    rw [if_neg rising, if_neg rising, top, rows d1 above1]

/-- A vertex has the same entities under its new number. -/
theorem relationOf_renamed_stars (above : 0 < d) {r : Incidence} (h : m.relationOf 0 d = .ok r) :
    ∃ q, (m.renamed rename).relationOf 0 d = .ok q ∧ q.rows.length = r.rows.length ∧
      ∀ v k : Nat, v < m.points → (k : Int) = rename v → q.rows.getD k [] = r.rows.getD v [] := by
  have positive := sound.positive
  rw [relationOf_star positive above, stars_eq_ok] at h
  obtain ⟨rows, hrows, inside, small, rfl⟩ := h
  obtain ⟨rows', hrows', names⟩ := exists_rowsRenamed sound renames plain hrows
  refine ⟨Incidence.ofRows (Incidence.turned rows' m.points), ?_, ?_, fun v k hv name => ?_⟩
  · rw [relationOf_star (m := m.renamed rename) positive above, stars_eq_ok]
    exact ⟨rows', hrows', names.inside renames inside, small, rfl⟩
  · simp [Incidence.rows_ofRows, Incidence.length_turned]
  · have row := names.rowAt_turned renames (v := v) ⟨by omega, by omega⟩
    rw [← name] at row
    simpa [Incidence.rows_ofRows, Derivation.rowAt] using row

/-- Entities have the vertices that they had, by their new names. -/
theorem relationOf_renamed_vertices (above : 0 < d) {r : Incidence} (h : m.relationOf d 0 = .ok r) :
    ∃ q, (m.renamed rename).relationOf d 0 = .ok q ∧
      q.rows = if d = m.dim then r.rows.map (List.map rename)
        else r.rows.map (VertexList.renamed rename) := by
  rw [relationOf_zero above] at h
  obtain ⟨rows, hrows, rfl⟩ := Outcome.map_eq_ok.mp h
  rw [relationOf_zero (m := m.renamed rename) above, Incidence.rows_ofRows]
  split
  · rename_i top
    rw [vertexRows, if_pos top] at hrows
    cases hrows
    refine ⟨_, by rw [vertexRows, dim_renamed, if_pos top, Outcome.map_ok], ?_⟩
    rw [Incidence.rows_ofRows, cells_renamed]
  · rename_i below
    rw [vertexRows_renamed sound renames plain below, hrows]
    exact ⟨_, rfl, Incidence.rows_ofRows _⟩

/-- Rows between such dimensions list the same entities, whether or not they were turned round. -/
theorem relationOf_renamed_between (above0 : 0 < d0) (above1 : 0 < d1) (below0 : d0 < m.dim)
    (below1 : d1 < m.dim) {t0 t1 r : Incidence} (star0 : m.relationOf 0 d0 = .ok t0)
    (star1 : m.relationOf 0 d1 = .ok t1) (h : m.relationOf d0 d1 = .ok r) :
    ∃ q, (m.renamed rename).relationOf d0 d1 = .ok q ∧ List.Forall₂ List.Perm r.rows q.rows := by
  have counts : (m.renamed rename).countOf d0 = m.countOf d0 := countOf_renamed sound renames plain
  have between0 : d0 ≠ m.dim := ne_of_lt below0
  have between1 : d1 ≠ m.dim := ne_of_lt below1
  by_cases rising : d0 < d1
  · obtain ⟨found, n, hfound, hn, inside, small, rfl⟩ := (relationOf_rising_eq_ok rising).mp h
    rw [fallingRows_between between1 above0] at hfound
    obtain ⟨wholes, -, hw, -⟩ := throughVertices_eq_ok.mp hfound
    obtain ⟨found', hfound', perm⟩ := throughVertices_renamed sound renames plain
      (le_of_lt rising) below1 hw (inside_of_star sound.positive above1 star1 hw) hfound
    -- Rows that are turned round are made anew in ascending order, so nothing changes here.
    refine ⟨Incidence.ofRows (Incidence.turned found n), ?_,
      List.forall₂_same.mpr fun row _ => List.Perm.refl row⟩
    refine (relationOf_rising_eq_ok rising).mpr ⟨found', n, ?_, counts.trans hn,
      Incidence.inside_of_perm perm inside, small, by rw [Incidence.turned_of_perm perm]⟩
    rw [fallingRows_between (m := m.renamed rename) between1 above0, hfound']
  · rw [relationOf_falling rising, fallingRows_between between0 above1] at h
    obtain ⟨found, hfound, rfl⟩ := Outcome.map_eq_ok.mp h
    obtain ⟨wholes, -, hw, -⟩ := throughVertices_eq_ok.mp hfound
    obtain ⟨found', hfound', perm⟩ := throughVertices_renamed sound renames plain
      (by omega) below0 hw (inside_of_star sound.positive above0 star0 hw) hfound
    refine ⟨Incidence.ofRows found', ?_, ?_⟩
    · rw [relationOf_falling rising, fallingRows_between (m := m.renamed rename) between0 above1,
        hfound', Outcome.map_ok]
    · rwa [Incidence.rows_ofRows, Incidence.rows_ofRows]

end Renames

/-- What becomes of a relation when the vertices are renumbered. Where the row of a vertex was, the row
of its new number lists the same; where vertices are listed, their new numbers are, in ascending order
for entities that are numbered; what the cells are related to stays; other rows may be reordered. -/
def Renumbered (m : Mesh) (p : Equiv.Perm (Fin m.points)) (d0 d1 : Int) (r q : Incidence) : Prop :=
  if d0 = 0 then
    q.rows.length = r.rows.length ∧ ∀ v : Fin m.points, q.rows.getD (p v) [] =
      if d1 = 0 then (r.rows.getD v []).map (renumber p) else r.rows.getD v []
  else if d1 = 0 then
    q.rows = if d0 = m.dim then r.rows.map (List.map (renumber p))
      else r.rows.map fun vertices => VertexList.ascending (vertices.map (renumber p))
  else if d0 = m.dim ∨ d1 = m.dim then q = r
  else List.Forall₂ List.Perm r.rows q.rows

/-- Every relation is found again, and corresponds. -/
theorem relationOf_renumbered (sound : m.Sound) (plain : m.shape.Plain)
    (p : Equiv.Perm (Fin m.points)) (c0 : m.Covers d0) (c1 : m.Covers d1)
    (stars : ∀ d, 0 < d → d ≤ m.dim → ∃ t, m.relationOf 0 d = .ok t) {r : Incidence}
    (h : m.relationOf d0 d1 = .ok r) :
    ∃ q, (m.renamed (renumber p)).relationOf d0 d1 = .ok q ∧ m.Renumbered p d0 d1 r q := by
  have renames := renames_renumber p
  obtain ⟨nonneg0, below0⟩ := c0
  obtain ⟨nonneg1, below1⟩ := c1
  have name : ∀ v : Fin m.points, ((p v : Nat) : Int) = renumber p (v : Nat) := fun v =>
    (renumber_natCast p v).symm
  -- The cases are those of the definition, from the inside: neither dimension is that of the
  -- vertices, then the second one is, then the first.
  rcases Int.lt_or_eq_of_le nonneg0 with above0 | rfl
  · have h0 : d0 ≠ 0 := by omega
    rcases Int.lt_or_eq_of_le nonneg1 with above1 | rfl
    · have h1 : d1 ≠ 0 := by omega
      by_cases cells : d0 = m.dim ∨ d1 = m.dim
      · refine ⟨r, ?_, by rw [Renumbered, if_neg h0, if_neg h1, if_pos cells]⟩
        rw [relationOf_renamed_cells sound renames plain above0 above1 below0 below1 cells, h]
      · obtain ⟨t0, star0⟩ := stars d0 above0 below0
        obtain ⟨t1, star1⟩ := stars d1 above1 below1
        obtain ⟨q, hq, perm⟩ := relationOf_renamed_between sound renames plain above0 above1
          (by omega) (by omega) star0 star1 h
        exact ⟨q, hq, by rwa [Renumbered, if_neg h0, if_neg h1, if_neg cells]⟩
    · obtain ⟨q, hq, rows⟩ := relationOf_renamed_vertices sound renames plain above0 h
      exact ⟨q, hq, by rw [Renumbered, if_neg h0, if_pos rfl]; exact rows⟩
  · rcases Int.lt_or_eq_of_le nonneg1 with above1 | rfl
    · have h1 : d1 ≠ 0 := by omega
      obtain ⟨q, hq, length, row⟩ := relationOf_renamed_stars sound renames plain above1 h
      refine ⟨q, hq, ?_⟩
      rw [Renumbered, if_pos rfl]
      exact ⟨length, fun v => by rw [if_neg h1]; exact row v (p v) v.isLt (name v)⟩
    · rw [relationOf_falling (lt_irrefl _), fallingRows, if_pos rfl, if_pos rfl] at h
      obtain ⟨found, hfound, rfl⟩ := Outcome.map_eq_ok.mp h
      obtain ⟨found', hfound', length, row⟩ := vertexNeighbours_renamed renames hfound
      refine ⟨Incidence.ofRows found', ?_, ?_⟩
      · rw [relationOf_falling (lt_irrefl _), fallingRows, if_pos rfl, if_pos rfl, hfound',
          Outcome.map_ok]
      · rw [Renumbered, if_pos rfl, Incidence.rows_ofRows, Incidence.rows_ofRows]
        exact ⟨length, fun v => by rw [if_pos rfl]; exact row v (p v) v.isLt (name v)⟩

/-- With the vertices renumbered, the entities of each dimension can be counted or fail alike; and where
everything can be had, it still can, and every relation is the old one but for the vertices' numbers. -/
theorem renumbered_alike (accepted : m.Accepted) (plain : m.shape.Plain)
    (p : Equiv.Perm (Fin m.points)) :
    let other := m.renamed (renumber p)
    let first := (Resolution.everything m.shape).run m.store
    let second := (Resolution.everything other.shape).run other.store
    other.Accepted ∧
    (∀ d, ((Resolution.entities other.shape d).run other.store).1 =
      ((Resolution.entities m.shape d).run m.store).1) ∧
    (first.1 = .ok () → second.1 = .ok () ∧
      ∀ d0 d1, m.Covers d0 → m.Covers d1 → ∃ r q, first.2.store.relation? d0 d1 = some r ∧
        second.2.store.relation? d0 d1 = some q ∧ m.Renumbered p d0 d1 r q) := by
  intro other first second
  have sound := accepted.sound
  have positive := sound.positive
  have renames := renames_renumber p
  have accepted' : other.Accepted := accepted_renamed sound renames
  have faithful := sound.faithful
  have faithful' := accepted'.sound.faithful
  have storable := storable_of_plain sound plain
  have storable' : other.Storable := storable_of_plain accepted'.sound plain
  have counts : ∀ d, other.countOf d = m.countOf d := fun d => countOf_renamed sound renames plain
  refine ⟨accepted', fun d => ?_, fun succeeds => ?_⟩
  · exact ((Resolution.outcome_entities faithful' (storable' d)).trans (counts d)).trans
      (Resolution.outcome_entities faithful (storable d)).symm
  · have outcome : first.1 = m.everythingOf _ := Resolution.outcome_everything faithful
    have outcome' : second.1 = other.everythingOf _ := Resolution.outcome_everything faithful'
    rw [outcome] at succeeds
    obtain ⟨-, counted, related⟩ := everythingOf_eq_ok.mp succeeds
    have stars : ∀ d, 0 < d → d ≤ m.dim → ∃ t, m.relationOf 0 d = .ok t := fun d above below =>
      related 0 d ⟨le_rfl, by omega⟩ ⟨by omega, below⟩
    have renumbered : ∀ {d0 d1 r}, m.Covers d0 → m.Covers d1 → m.relationOf d0 d1 = .ok r →
        ∃ q, other.relationOf d0 d1 = .ok q ∧ m.Renumbered p d0 d1 r q := fun c0 c1 hr =>
      relationOf_renumbered sound plain p c0 c1 stars hr
    have succeeds' : second.1 = .ok () := by
      refine outcome'.trans (everythingOf_eq_ok.mpr
        ⟨storable', fun d covers => by rw [counts]; exact counted d covers, ?_⟩)
      intro d0 d1 c0 c1
      obtain ⟨r, hr⟩ := related d0 d1 c0 c1
      obtain ⟨q, hq, -⟩ := renumbered c0 c1 hr
      exact ⟨q, hq⟩
    refine ⟨succeeds', fun d0 d1 c0 c1 => ?_⟩
    obtain ⟨r, hr, recorded⟩ := Resolution.relation?_everything faithful succeeds c0 c1
    obtain ⟨q, hq, recorded'⟩ :=
      Resolution.relation?_everything faithful' (outcome'.symm.trans succeeds') c0 c1
    obtain ⟨q', hq', alike⟩ := renumbered c0 c1 hr
    rw [hq] at hq'
    cases hq'
    exact ⟨r, q, recorded, recorded', alike⟩

/-- A strip whose vertices are numbered the other way round. -/
def reversed : Equiv.Perm (Fin strip.points) := (Fin.revPerm : Equiv.Perm (Fin 4))

theorem renumbered_alike_strip :
    let other := strip.renamed (renumber reversed)
    let first := (Resolution.everything strip.shape).run strip.store
    let second := (Resolution.everything other.shape).run other.store
    strip.Accepted ∧ strip.shape.Plain ∧ other.cells = [[3, 2, 1], [2, 1, 0]] ∧
    ((Resolution.entities other.shape 1).run other.store).1 =
      ((Resolution.entities strip.shape 1).run strip.store).1 ∧
    first.1 = .ok () ∧ second.1 = .ok () ∧
    ∃ r q, first.2.store.relation? 1 0 = some r ∧ second.2.store.relation? 1 0 = some q ∧
      q.rows = r.rows.map fun vertices => VertexList.ascending (vertices.map (renumber reversed)) := by
  have succeeds : ((Resolution.everything strip.shape).run strip.store).1 = .ok () := by cbv
  have plain : strip.shape.Plain := rfl
  obtain ⟨-, counts, relations⟩ := renumbered_alike strip_accepted plain reversed
  obtain ⟨succeeds', renumbered⟩ := relations succeeds
  obtain ⟨r, q, hr, hq, rows⟩ := renumbered 1 0 ⟨by decide, by decide⟩ ⟨by decide, by decide⟩
  exact ⟨strip_accepted, plain, by decide, counts 1, succeeds, succeeds', r, q, hr, hq, rows⟩

end Mesh

end MeshIncidence
