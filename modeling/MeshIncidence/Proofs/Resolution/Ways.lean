import Mathlib
import MeshIncidence.Proofs.Incidence.Inversion
import MeshIncidence.Proofs.Outcome
import MeshIncidence.Proofs.Resolution.Canonical

/-!
What it takes for rows to be found. A relation is turned round exactly where it refers to entities that
are there, and these are few enough for a list of rows; a way through the vertices begins with that.
-/
namespace MeshIncidence.Mesh

variable {m : Mesh} {d d0 d1 : Int} {found : List (List Int)}

/-- Rows of the cells' neighbours. -/
theorem fallingRows_cells (positive : 1 ≤ m.dim) : m.fallingRows m.dim m.dim = m.touching := by
  have hne : m.dim ≠ 0 := by omega
  simp [fallingRows, hne, throughVertices, stars, vertexRows, touching]

/-- Rows between two dimensions that lie between the vertices and the cells. -/
theorem fallingRows_between (below : d0 ≠ m.dim) (above : 0 < d1) :
    m.fallingRows d0 d1 = m.throughVertices d0 d1 := by
  have hne : d1 ≠ 0 := by omega
  simp [fallingRows, below, hne]

theorem stars_eq_ok {t : Incidence} : m.stars d = .ok t ↔
    ∃ rows, m.vertexRows d = .ok rows ∧ (∀ row ∈ rows, ∀ v ∈ row, 0 ≤ v ∧ v < m.points) ∧
      (m.points : Int) + 1 < Word.bound ∧
      t = Incidence.ofRows (Incidence.turned rows m.points) := by
  simp [stars, Outcome.bind_eq_ok, Incidence.transpose?_ofRows]

theorem touching_eq_ok : m.touching = .ok found ↔
    (∀ cell ∈ m.cells, ∀ v ∈ cell, 0 ≤ v ∧ v < m.points) ∧ (m.points : Int) + 1 < Word.bound ∧
      Derivation.neighbourRows (Incidence.turned m.cells m.points) m.cells = .ok found := by
  simp only [touching, Outcome.bind_eq_ok, Incidence.transpose?_ofRows]
  constructor
  · rintro ⟨_, ⟨inside, -, small, rfl⟩, h⟩
    rw [Incidence.rows_ofRows, Int.toNat_natCast] at h
    exact ⟨inside, small, h⟩
  · rintro ⟨inside, small, h⟩
    refine ⟨_, ⟨inside, Int.natCast_nonneg _, small, rfl⟩, ?_⟩
    rwa [Incidence.rows_ofRows, Int.toNat_natCast]

theorem vertexNeighbours_eq_ok : m.vertexNeighbours = .ok found ↔
    (∀ cell ∈ m.cells, ∀ v ∈ cell, 0 ≤ v ∧ v < m.points) ∧ (m.points : Int) + 1 < Word.bound ∧
      Derivation.neighbourRows m.cells (Incidence.turned m.cells m.points) = .ok found := by
  have cells : ∀ rows, m.vertexRows m.dim = .ok rows ↔ rows = m.cells := by
    simp [vertexRows, eq_comm]
  simp only [vertexNeighbours, Outcome.bind_eq_ok, stars_eq_ok, cells]
  constructor
  · rintro ⟨_, ⟨_, rfl, inside, small, rfl⟩, h⟩
    rw [Incidence.rows_ofRows] at h
    exact ⟨inside, small, h⟩
  · rintro ⟨inside, small, h⟩
    refine ⟨_, ⟨_, rfl, inside, small, rfl⟩, ?_⟩
    rwa [Incidence.rows_ofRows]

theorem throughVertices_eq_ok : m.throughVertices d0 d1 = .ok found ↔
    ∃ wholes parts, m.vertexRows d0 = .ok wholes ∧ m.vertexRows d1 = .ok parts ∧
      (∀ row ∈ parts, ∀ v ∈ row, 0 ≤ v ∧ v < m.points) ∧ (m.points : Int) + 1 < Word.bound ∧
      (if d0 = d1 then Derivation.neighbourRows (Incidence.turned parts m.points) wholes
      else Derivation.partRows (Incidence.turned parts m.points) wholes wholes parts) =
        .ok found := by
  simp only [throughVertices, Outcome.bind_eq_ok, stars_eq_ok]
  constructor
  · rintro ⟨wholes, hw, _, ⟨parts, hp, inside, small, rfl⟩, h⟩
    rw [Incidence.rows_ofRows, hp, Outcome.ok_bind] at h
    exact ⟨wholes, parts, hw, hp, inside, small, h⟩
  · rintro ⟨wholes, parts, hw, hp, inside, small, h⟩
    refine ⟨wholes, hw, _, ⟨parts, hp, inside, small, rfl⟩, ?_⟩
    rwa [Incidence.rows_ofRows, hp, Outcome.ok_bind]

/-- A relation that rises in dimension is the reverse one turned round. -/
theorem relationOf_rising_eq_ok (rising : d0 < d1) {r : Incidence} : m.relationOf d0 d1 = .ok r ↔
    ∃ found n, m.fallingRows d1 d0 = .ok found ∧ m.countOf d0 = .ok n ∧
      (∀ row ∈ found, ∀ e ∈ row, 0 ≤ e ∧ e < n) ∧ (n : Int) + 1 < Word.bound ∧
      r = Incidence.ofRows (Incidence.turned found n) := by
  simp [relationOf, rising, Outcome.bind_eq_ok, Incidence.transpose?_ofRows]

/-- Vertices are related by way of the cells. -/
theorem relationOf_vertices_eq_ok {r : Incidence} : m.relationOf 0 0 = .ok r ↔
    ∃ found, (∀ cell ∈ m.cells, ∀ v ∈ cell, 0 ≤ v ∧ v < m.points) ∧
      (m.points : Int) + 1 < Word.bound ∧
      Derivation.neighbourRows m.cells (Incidence.turned m.cells m.points) = .ok found ∧
      r = Incidence.ofRows found := by
  rw [relationOf, if_neg (lt_irrefl _), fallingRows, if_pos rfl, if_pos rfl]
  simp only [Outcome.map_eq_ok, vertexNeighbours_eq_ok]
  constructor
  · rintro ⟨found, ⟨inside, small, hf⟩, rfl⟩
    exact ⟨found, inside, small, hf, rfl⟩
  · rintro ⟨found, inside, small, hf, rfl⟩
    exact ⟨found, ⟨inside, small, hf⟩, rfl⟩

/-- Any other entities of one dimension are related by way of the vertices. -/
theorem relationOf_level_eq_ok (above : d ≠ 0) {r : Incidence} : m.relationOf d d = .ok r ↔
    ∃ rows found, m.vertexRows d = .ok rows ∧ (∀ row ∈ rows, ∀ v ∈ row, 0 ≤ v ∧ v < m.points) ∧
      (m.points : Int) + 1 < Word.bound ∧
      Derivation.neighbourRows (Incidence.turned rows m.points) rows = .ok found ∧
      r = Incidence.ofRows found := by
  rw [relationOf, if_neg (lt_irrefl d), fallingRows, if_neg above, if_neg (by simp)]
  simp only [Outcome.map_eq_ok, throughVertices_eq_ok, if_true]
  constructor
  · rintro ⟨found, ⟨wholes, parts, hw, hp, inside, small, hf⟩, rfl⟩
    rw [hw] at hp
    cases hp
    exact ⟨wholes, found, hw, inside, small, hf, rfl⟩
  · rintro ⟨rows, found, hrows, inside, small, hf, rfl⟩
    exact ⟨found, ⟨rows, rows, hrows, hrows, inside, small, hf⟩, rfl⟩

/-- Vertices that are there are words, or there are too many of them to number anything. -/
theorem not_overflows_of_inside (inside : 0 < d → d < m.dim → ∀ rows, m.vertexRows d = .ok rows →
    ∀ row ∈ rows, ∀ v ∈ row, 0 ≤ v ∧ v < m.points) : ¬ m.Overflows d := by
  rintro ⟨above, below, k, hk, beyond⟩
  obtain ⟨touching, ht, -⟩ := Outcome.bind_eq_ok.mp hk
  obtain ⟨-, small, -⟩ := touching_eq_ok.mp ht
  have rows : m.vertexRows d = .ok k.entityVertices := by
    rw [vertexRows, if_neg (by omega), hk, Outcome.map_ok]
  have positive : 0 < Word.bound := by decide
  have fits : Incidence.fits k.entityVertices = true := by
    refine Incidence.fits_iff.mpr fun row hrow v hv => ?_
    have there := inside above below _ rows row hrow v hv
    rw [Word.fits, decide_eq_true_eq]
    omega
  rw [fits] at beyond
  cases beyond

end MeshIncidence.Mesh
