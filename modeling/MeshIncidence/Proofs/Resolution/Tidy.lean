import Mathlib
import MeshIncidence.Proofs.Resolution.Inverses
import MeshIncidence.Proofs.Resolution.Membership

/-!
How recorded relations are laid out. Where the shape splits well, no way of finding rows lists an entity
twice, and turning rows round keeps it so: the row of an entity then ascends strictly, as rows of vertices
do. Entities are found by splitting cells, so each has a cell whose row lists it.
-/
namespace MeshIncidence

namespace Mesh

variable {m : Mesh} {s : Store} {d d0 d1 : Int} {found rows : List (List Int)} {r : Incidence}

theorem nodup_cellRows (sound : m.Sound) (wellFormed : m.WellFormed) (above : 0 < d)
    (below : d < m.dim) (h : m.cellRows d = .ok found) {row : List Int} (hrow : row ∈ found) :
    row.Nodup := by
  obtain ⟨parts, regular⟩ := wellFormed d above below
  rw [cellRows_below sound regular (by omega) h] at hrow
  obtain ⟨cell, hcell, rfl⟩ := List.mem_map.mp hrow
  have different : (Numbering.keysOf parts cell).Nodup :=
    regular.nodup_keys (sound.vertexCount hcell) (sound.nodup cell hcell)
  exact (Numbering.nodup_places different fun _ hkey => mem_entities_of_key hcell hkey).map
    fun _ _ same => Int.ofNat.inj same

theorem nodup_throughVertices (h : m.throughVertices d0 d1 = .ok found) {row : List Int}
    (hrow : row ∈ found) : row.Nodup := by
  obtain ⟨wholes, parts, -, -, -, -, h⟩ := throughVertices_eq_ok.mp h
  split at h
  · exact Derivation.nodup_rows h hrow
  · exact Derivation.nodup_rows h hrow

/-- However rows are found that do not rise in dimension, they list no entity twice. -/
theorem nodup_fallingRows (sound : m.Sound) (wellFormed : m.WellFormed) (nonneg : 0 ≤ d1)
    (falling : d1 ≤ d0) (below : d0 ≤ m.dim) (h : m.fallingRows d0 d1 = .ok found)
    {row : List Int} (hrow : row ∈ found) : row.Nodup := by
  unfold fallingRows at h
  split at h
  · split at h
    · obtain ⟨-, -, h⟩ := vertexNeighbours_eq_ok.mp h
      exact Derivation.nodup_rows h hrow
    · exact (vertices_of_entity sound wellFormed (by omega) below h hrow).2.1
  split at h
  · rename_i cells
    exact nodup_cellRows sound wellFormed (by omega) (by omega) h hrow
  · exact nodup_throughVertices h hrow

theorem ascending_relationOf (h : m.relationOf d0 d1 = .ok r) : r.Ascending := by
  by_cases rising : d0 < d1
  · obtain ⟨-, -, -, -, -, -, rfl⟩ := (relationOf_rising_eq_ok rising).mp h
    exact Incidence.ascending_ofRows _
  · rw [relationOf_falling rising] at h
    obtain ⟨-, -, rfl⟩ := Outcome.map_eq_ok.mp h
    exact Incidence.ascending_ofRows _

/-- Rows that rise in dimension were turned round from rows without repetition, so they ascend. -/
theorem strict_rising (sound : m.Sound) (wellFormed : m.WellFormed) (nonneg : 0 ≤ d0)
    (rising : d0 < d1) (below : d1 ≤ m.dim) (h : m.relationOf d0 d1 = .ok r) {row : List Int}
    (hrow : row ∈ r.rows) : row.Pairwise (· < ·) := by
  obtain ⟨found, n, hfound, -, -, -, rfl⟩ := (relationOf_rising_eq_ok rising).mp h
  rw [Incidence.rows_ofRows] at hrow
  obtain ⟨j, -, rfl⟩ := List.mem_map.mp hrow
  exact Incidence.strict_column
    (fun _ hrow => nodup_fallingRows sound wellFormed nonneg rising.le below hfound hrow) j

theorem nodup_relationOf (sound : m.Sound) (wellFormed : m.WellFormed) (c0 : m.Covers d0)
    (c1 : m.Covers d1) (h : m.relationOf d0 d1 = .ok r) {row : List Int} (hrow : row ∈ r.rows) :
    row.Nodup := by
  by_cases rising : d0 < d1
  · exact (strict_rising sound wellFormed c0.1 rising c1.2 h hrow).imp fun hlt => ne_of_lt hlt
  · rw [relationOf_falling rising] at h
    obtain ⟨found, hfound, rfl⟩ := Outcome.map_eq_ok.mp h
    rw [Incidence.rows_ofRows] at hrow
    exact nodup_fallingRows sound wellFormed c1.1 (by omega) c0.2 hfound hrow

theorem strict_relationOf (sound : m.Sound) (wellFormed : m.WellFormed) (c0 : m.Covers d0)
    (c1 : m.Covers d1) (kind : d0 < d1 ∨ 0 < d0 ∧ d0 < m.dim ∧ d1 = 0)
    (h : m.relationOf d0 d1 = .ok r) {row : List Int} (hrow : row ∈ r.rows) :
    row.Pairwise (· < ·) := by
  rcases kind with rising | ⟨above, below, rfl⟩
  · exact strict_rising sound wellFormed c0.1 rising c1.2 h hrow
  · rw [relationOf_zero above] at h
    obtain ⟨rows, hrows, rfl⟩ := Outcome.map_eq_ok.mp h
    rw [Incidence.rows_ofRows] at hrow
    exact strict_vertexRows sound wellFormed above below hrows hrow

/-- Nothing is its own neighbour. -/
theorem not_mem_own_row (h : m.relationOf d d = .ok r) (e : Nat) : (e : Int) ∉ r.rows.getD e [] := by
  obtain ⟨onward, between, found, inverse, hf, rfl⟩ := neighbourRows_of_relationOf h
  rw [Incidence.rows_ofRows, Derivation.mem_neighbourRows inverse hf]
  exact fun neighbour => neighbour.1 rfl

/-- Every entity between vertices and cells was split off a cell. -/
theorem exists_cell_of_entity (sound : m.Sound) (wellFormed : m.WellFormed) (above : 0 < d)
    (below : d < m.dim) (hp : m.vertexRows d = .ok rows) (h : m.cellRows d = .ok found) {e : Nat}
    (he : e < rows.length) : ∃ row ∈ found, (e : Int) ∈ row := by
  obtain ⟨parts, regular⟩ := wellFormed d above below
  have key : rows[e] ∈ (m.keys parts).flatten := by
    rw [← List.mem_eraseDups, ← vertexRows_below sound regular (by omega) hp]
    exact List.getElem_mem he
  obtain ⟨cell, hcell, key⟩ := mem_keys.mp key
  obtain ⟨c, hc, rfl⟩ := List.mem_iff_getElem.mp hcell
  have listed := (mem_cellRows sound regular (by omega) (by omega) hp h hc he).mpr key
  have there : c < found.length := by
    by_contra beyond
    simp [Nat.le_of_not_lt beyond] at listed
  rw [List.getD_eq_getElem _ _ there] at listed
  exact ⟨_, List.getElem_mem there, listed⟩

/-- What holds of a recorded relation, whatever its dimensions. -/
structure Tidy (m : Mesh) (s : Store) (d0 d1 : Int) (r : Incidence) : Prop where
  counted : (s.count? d0).isSome ∧ (s.count? d1).isSome
  start : r.offsets.head? = some 0
  finish : r.offsets.getLast? = some (r.targets.length : Int)
  ascending : r.offsets.Pairwise (· ≤ ·)
  rows : r.rows.length = s.sizeOf d0
  inside : ∀ e ∈ r.targets, 0 ≤ e ∧ e < s.sizeOf d1
  nodup : ∀ row ∈ r.rows, row.Nodup
  others : d0 = d1 → ∀ e : Nat, (e : Int) ∉ r.rows.getD e []
  strict : d0 < d1 ∨ 0 < d0 ∧ d0 < m.dim ∧ d1 = 0 → ∀ row ∈ r.rows, row.Pairwise (· < ·)

theorem tidy_of_recorded (sound : m.Sound) (wellFormed : m.WellFormed) (faithful : Faithful m s)
    (hr : s.relation? d0 d1 = some r) : Tidy m s d0 d1 r := by
  obtain ⟨n0, n1, h0, h1⟩ := faithful.counted hr
  have c0 := covers_of_countOf (faithful.count h0)
  have c1 := covers_of_countOf (faithful.count h1)
  have found := faithful.relation hr
  exact {
    counted := faithful.ends hr
    start := r.starts_zero
    finish := r.ends_full
    ascending := ascending_relationOf found
    rows := length_rows_of_recorded faithful hr
    inside := fun _ he => inside_of_recorded sound wellFormed faithful hr he
    nodup := fun _ hrow => nodup_relationOf sound wellFormed c0 c1 found hrow
    others := fun level => by
      subst level
      exact not_mem_own_row found
    strict := fun kind _ hrow => strict_relationOf sound wellFormed c0 c1 kind found hrow }

/-- Whatever was demanded before, every recorded relation is tidy, and every entity between vertices and
cells is listed in the row of a cell. -/
theorem recorded_tidy (accepted : m.Accepted) (wellFormed : m.WellFormed) (reached : m.Reaches s) :
    (∀ d0 d1 r, s.relation? d0 d1 = some r → Tidy m s d0 d1 r) ∧
    ∀ d n, 0 < d → d < m.dim → s.count? d = some n →
      ∃ r, s.relation? m.dim d = some r ∧ ∀ e < n, ∃ row ∈ r.rows, (e : Int) ∈ row := by
  have sound := accepted.sound
  have faithful := reached.faithful accepted
  refine ⟨fun d0 d1 r hr => tidy_of_recorded sound wellFormed faithful hr,
    fun d n above below hc => ?_⟩
  obtain ⟨r, hr⟩ := Option.isSome_iff_exists.mp (faithful.cells hc (by omega))
  have split := faithful.relation hr
  rw [relationOf_top above below] at split
  obtain ⟨found, hfound, rfl⟩ := Outcome.map_eq_ok.mp split
  obtain ⟨rows, hrows, length⟩ := vertexRows_of_countOf (faithful.count hc) (by omega)
  refine ⟨_, hr, fun e he => ?_⟩
  rw [Incidence.rows_ofRows]
  exact exists_cell_of_entity sound wellFormed above below hrows hfound (by omega)

/-- Edges of a strip that were numbered, with the triangles at each, after a failure. -/
theorem recorded_tidy_strip :
    let s := Demand.after strip.shape strip.store [.entities 3, .relation 1 2]
    strip.Accepted ∧ strip.WellFormed ∧ strip.Reaches s ∧
      (s.relation? 1 2).isSome ∧ s.count? 1 = some 5 ∧
      (∀ d0 d1 r, s.relation? d0 d1 = some r → Tidy strip s d0 d1 r) ∧
      ∀ d n, 0 < d → d < strip.dim → s.count? d = some n →
        ∃ r, s.relation? strip.dim d = some r ∧ ∀ e < n, ∃ row ∈ r.rows, (e : Int) ∈ row := by
  have wellFormed : strip.WellFormed := wellFormed_of_simplex rfl
  have triangles : ((Demand.after strip.shape strip.store [.entities 3, .relation 1 2]).relation?
      1 2).isSome = true := by cbv
  have edges : (Demand.after strip.shape strip.store [.entities 3, .relation 1 2]).count? 1 =
      some 5 := by cbv
  intro s
  have reached : strip.Reaches s := ⟨_, rfl⟩
  exact ⟨strip_accepted, wellFormed, reached, triangles, edges,
    recorded_tidy strip_accepted wellFormed reached⟩

end Mesh

end MeshIncidence
