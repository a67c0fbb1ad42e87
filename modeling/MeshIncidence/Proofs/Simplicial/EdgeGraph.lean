import Mathlib
import MeshIncidence.Proofs.Resolution.Existence
import MeshIncidence.Proofs.Resolution.Sharing

/-!
The edge graph of a mesh of simplices. Vertices are found to be neighbours by way of the cells, without any
edges; but every two vertices of a simplex are the ends of one of its edges, so neighbours are what the
edges join. Where edges differ, a vertex has as many neighbours as edges.
-/
namespace MeshIncidence

section Ends

variable {edges : List (List Int)} {v : Int} {ends star : List Int}

/-- An edge joins each of its vertices to one other. -/
theorem exists_other_end {edge : List Int} (pair : edge.toFinset.card = 2) (hv : v ∈ edge) :
    ∃ w, edge.toFinset = {v, w} := by
  obtain ⟨a, b, -, same⟩ := Finset.card_eq_two.mp pair
  have either : v = a ∨ v = b := by simpa [same] using List.mem_toFinset.mpr hv
  rcases either with rfl | rfl
  · exact ⟨b, same⟩
  · exact ⟨a, by rw [same, Finset.pair_comm]⟩

theorem injective_pair (v : Int) : Function.Injective fun w => ({v, w} : Finset Int) := by
  intro a b same
  have alike := Finset.ext_iff.mp same
  have ha : a = v ∨ a = b := by simpa using alike a
  have hb : b = v ∨ b = a := by simpa using alike b
  omega

/-- Where edges differ, a vertex is joined to as many others as it has edges. -/
theorem length_ends_eq (different : Different edges)
    (pairs : ∀ edge ∈ edges, edge.toFinset.card = 2) (nodup : ends.Nodup) (nodup' : star.Nodup)
    (mem : ∀ w, w ∈ ends ↔ ∃ edge ∈ edges, edge.toFinset = {v, w})
    (mem' : ∀ e, e ∈ star ↔ ∃ i, ∃ hi : i < edges.length, e = (i : Int) ∧ v ∈ edges[i]) :
    ends.length = star.length := by
  -- Both sides count the sets of vertices of the edges at `v`.
  have sets : ends.toFinset.image (fun w => ({v, w} : Finset Int)) =
      star.toFinset.image fun e => (Derivation.rowAt edges e).toFinset := by
    ext vertices
    simp only [Finset.mem_image, List.mem_toFinset]
    constructor
    · rintro ⟨w, hw, rfl⟩
      obtain ⟨edge, hedge, joins⟩ := (mem w).mp hw
      obtain ⟨i, hi, rfl⟩ := List.mem_iff_getElem.mp hedge
      have hv : v ∈ edges[i] := by
        rw [← List.mem_toFinset, joins]
        exact Finset.mem_insert_self v {w}
      exact ⟨(i : Int), (mem' _).mpr ⟨i, hi, rfl, hv⟩, by rw [Derivation.rowAt_natCast hi, joins]⟩
    · rintro ⟨e, he, rfl⟩
      obtain ⟨i, hi, rfl, hv⟩ := (mem' e).mp he
      obtain ⟨w, joins⟩ := exists_other_end (pairs _ (List.getElem_mem hi)) hv
      exact ⟨w, (mem w).mpr ⟨_, List.getElem_mem hi, joins⟩, by rw [Derivation.rowAt_natCast hi, joins]⟩
  have injOn : Set.InjOn (fun e => (Derivation.rowAt edges e).toFinset) (star.toFinset : Set Int) := by
    intro e he e' he' same
    obtain ⟨i, hi, rfl, -⟩ := (mem' e).mp (List.mem_toFinset.mp he)
    obtain ⟨j, hj, rfl, -⟩ := (mem' e').mp (List.mem_toFinset.mp he')
    dsimp only at same
    rw [Derivation.rowAt_natCast hi, Derivation.rowAt_natCast hj] at same
    rw [different.eq_of_toFinset hi hj same]
  calc ends.length
      = ends.toFinset.card := (List.toFinset_card_of_nodup nodup).symm
    _ = (ends.toFinset.image fun w => ({v, w} : Finset Int)).card :=
      (Finset.card_image_of_injective _ (injective_pair v)).symm
    _ = (star.toFinset.image fun e => (Derivation.rowAt edges e).toFinset).card := by rw [sets]
    _ = star.toFinset.card := Finset.card_image_of_injOn injOn
    _ = star.length := List.toFinset_card_of_nodup nodup'

end Ends

namespace Mesh

variable {m : Mesh} {D : Int} {s : Store} {edges : List (List Int)} {r : Incidence}

/-- Two vertices are the ends of an edge exactly where they are different and have a cell in common. -/
theorem exists_edge_iff (sound : m.Sound) (simplicial : m.shape = Shape.simplex D)
    (h : m.vertexRows 1 = .ok edges) {v w : Int} :
    (∃ edge ∈ edges, edge.toFinset = {v, w}) ↔ v ≠ w ∧ ∃ cell ∈ m.cells, v ∈ cell ∧ w ∈ cell := by
  have hdim := dim_of_simplex simplicial
  have positive := sound.positive
  have faces : m.faces 1 = .ok edges := by rw [faces, if_neg (by decide), h]
  constructor
  · rintro ⟨edge, hedge, joins⟩
    have size := (card_of_face sound simplicial (by decide) (by omega) faces hedge).2
    obtain ⟨-, -, cell, hcell, within⟩ := vertices_of_entity sound (wellFormed_of_simplex simplicial)
      (by decide) (by omega) h hedge
    have inside : ∀ x ∈ ({v, w} : Finset Int), x ∈ cell := fun x hx =>
      within x (List.mem_toFinset.mp (joins ▸ hx))
    refine ⟨?_, cell, hcell, inside v (by simp), inside w (by simp)⟩
    rintro rfl
    rw [joins, Finset.pair_eq_singleton, Finset.card_singleton] at size
    cases size
  · rintro ⟨differ, cell, hcell, hv, hw⟩
    have within : {v, w} ⊆ cell.toFinset := by simp [Finset.insert_subset_iff, hv, hw]
    exact exists_entity sound simplicial (by omega) (by decide) faces hcell within
      (Finset.card_pair differ)

/-- A vertex has in its row the other ends of its edges. -/
theorem mem_vertexRow_iff (sound : m.Sound) (simplicial : m.shape = Shape.simplex D)
    (h : m.vertexRows 1 = .ok edges) (hr : m.relationOf 0 0 = .ok r) {v : Nat} (hv : v < m.points)
    (w : Int) : w ∈ r.rows.getD v [] ↔ ∃ edge ∈ edges, edge.toFinset = {(v : Int), w} := by
  rw [(listsOthers_vertices hr hv).mem, exists_edge_iff sound simplicial h]
  constructor
  · rintro ⟨i, hi, rfl, differ, cell⟩
    exact ⟨by omega, cell⟩
  · rintro ⟨differ, cell, hcell, hin, hw⟩
    obtain ⟨i, rfl⟩ := Int.eq_ofNat_of_zero_le (sound.inside_points hcell hw).1
    have hi := (sound.inside_points hcell hw).2
    exact ⟨i, by omega, rfl, by omega, cell, hcell, hin, hw⟩

/-- Where edges differ, rows of vertices are as long as those of the edges at them. -/
theorem length_vertexRow_eq (sound : m.Sound) (simplicial : m.shape = Shape.simplex D)
    (h : m.vertexRows 1 = .ok edges) (hr : m.relationOf 0 0 = .ok r) (different : Different edges)
    {v : Nat} (hv : v < m.points) :
    (r.rows.getD v []).length = ((Incidence.turned edges m.points).getD v []).length := by
  have hdim := dim_of_simplex simplicial
  have positive := sound.positive
  have faces : m.faces 1 = .ok edges := by rw [faces, if_neg (by decide), h]
  have edge := fun edge (hedge : edge ∈ edges) =>
    card_of_face sound simplicial (by decide) (by omega) faces hedge
  have there : v < (Incidence.turned edges m.points).length := by rwa [Incidence.length_turned]
  rw [List.getD_eq_getElem _ _ there, Incidence.getElem_turned]
  exact length_ends_eq different (fun e he => (edge e he).2) (listsOthers_vertices hr hv).nodup
    (Incidence.nodup_column (fun e he => (edge e he).1) v)
    (mem_vertexRow_iff sound simplicial h hr hv) fun e => Incidence.mem_column

/-- In a mesh of simplices that has not too many vertices, the neighbours of a vertex are the vertices it
is joined to by an edge, whether the edges have been found or not. Where no two edges have the same
vertices, it has as many neighbours as edges. -/
theorem pointNeighbours_eq_edgeGraph (accepted : m.Accepted) (simplicial : m.shape = Shape.simplex D)
    (small : m.pointCount + 1 < Word.bound) (reached : m.Reaches s) :
    let asked := (Neighbours.pointToPoints.find m.shape).run s
    let ended := (Resolution.entities m.shape 1).run s
    let incident := (Resolution.fetch m.shape 0 1).run s
    ∃ neighbours edges stars, asked.1 = .ok neighbours ∧ neighbours.rows.length = m.points ∧
      ended.1 = .ok edges.length ∧ ended.2.store.relation? 1 0 = some (Incidence.ofRows edges) ∧
      incident.1 = .ok stars ∧ stars.rows.length = m.points ∧ ∀ v < m.points,
        (∀ w, w ∈ neighbours.rows.getD v [] ↔
          ∃ edge ∈ edges, edge.toFinset = {(v : Int), w}) ∧
        (Different edges → (neighbours.rows.getD v []).length = (stars.rows.getD v []).length) := by
  intro asked ended incident
  have sound := accepted.sound
  have faithful := reached.faithful accepted
  have wellFormed := wellFormed_of_simplex simplicial
  have positive := sound.positive
  have bottom := faithful.count faithful.bottom
  -- The edges.
  obtain ⟨n, hn⟩ := countOf_exists sound wellFormed small ⟨by decide, positive⟩
  have fine := storable_of_wellFormed sound wellFormed 1
  have counts : Resolution.Counts m _ 1 ⟨s, []⟩ ended := reached.counts accepted 1
  obtain ⟨edges, hedges, rfl, recorded⟩ :=
    counts.leads.faithful.vertexRelation ⟨counts.recorded hn, fine⟩ (by decide)
  -- The neighbours of vertices.
  obtain ⟨found, hfound⟩ := fallingRows_exists sound wellFormed small le_rfl le_rfl (by omega) bottom
    bottom
  have neighbours : m.relationOf 0 0 = .ok (Incidence.ofRows found) := by
    rw [relationOf_falling (lt_irrefl 0), hfound, Outcome.map_ok]
  have answer : asked.1 = .ok (Incidence.ofRows found) :=
    (Resolution.outcome_fetch faithful not_overflows_zero not_overflows_zero bottom bottom).trans
      neighbours
  have rows := sourceCount_relationOf bottom le_rfl neighbours
  -- The edges at vertices.
  have stars : m.relationOf 0 1 = .ok (Incidence.ofRows (Incidence.turned edges m.points)) := by
    rw [relationOf_star positive (by decide)]
    refine stars_eq_ok.mpr ⟨edges, hedges, fun edge hedge v hv => ?_, sound.points_small small, rfl⟩
    exact inside_of_entity sound wellFormed (by decide) positive hedges hedge hv
  have answer' : incident.1 = .ok (Incidence.ofRows (Incidence.turned edges m.points)) :=
    (Resolution.outcome_fetch faithful not_overflows_zero fine bottom hn).trans stars
  have counted := counts.outcome.trans ((entitiesOf_of_fine fine).trans hn)
  refine ⟨_, edges, _, answer, by rw [Incidence.length_rows, rows], counted, recorded, answer', ?_,
    fun v hv => ⟨?_, fun different => ?_⟩⟩
  · rw [Incidence.rows_ofRows, Incidence.length_turned]
  · exact mem_vertexRow_iff sound simplicial hedges neighbours hv
  · rw [length_vertexRow_eq sound simplicial hedges neighbours different hv, Incidence.rows_ofRows]

/-- The second vertex of a strip, asked for before there are edges. It has three neighbours, and as many
edges. -/
theorem pointNeighbours_eq_edgeGraph_strip :
    let s := strip.store
    let asked := (Neighbours.pointToPoints.find strip.shape).run s
    let ended := (Resolution.entities strip.shape 1).run s
    let incident := (Resolution.fetch strip.shape 0 1).run s
    strip.Accepted ∧ strip.shape = Shape.simplex 2 ∧ strip.pointCount + 1 < Word.bound ∧
      strip.Reaches s ∧ ∃ neighbours edges stars, asked.1 = .ok neighbours ∧
        ended.2.store.relation? 1 0 = some (Incidence.ofRows edges) ∧ incident.1 = .ok stars ∧
        1 < strip.points ∧ Different edges ∧ neighbours.rows.getD 1 [] = [0, 2, 3] ∧
        (∀ w, w ∈ neighbours.rows.getD 1 [] ↔ ∃ edge ∈ edges, edge.toFinset = {1, w}) ∧
        (neighbours.rows.getD 1 []).length = (stars.rows.getD 1 []).length := by
  have row : ((Neighbours.pointToPoints.find strip.shape).run strip.store).1.map
      (fun r => r.rows.getD 1 []) = .ok [0, 2, 3] := by cbv
  have five : (((Resolution.entities strip.shape 1).run strip.store).2.store.relation? 1 0).map
      (fun r => r.rows) = some [[0, 1], [0, 2], [1, 2], [1, 3], [2, 3]] := by cbv
  have small : strip.pointCount + 1 < Word.bound := by decide
  have reached : strip.Reaches strip.store := ⟨[], rfl⟩
  have there : 1 < strip.points := by decide
  obtain ⟨neighbours, edges, stars, answer, -, -, recorded, answer', -, rows⟩ :=
    pointNeighbours_eq_edgeGraph strip_accepted (D := 2) rfl small reached
  obtain ⟨found, hfound, row⟩ := Outcome.map_eq_ok.mp row
  rw [answer] at hfound
  cases hfound
  obtain ⟨found, hfound, five⟩ := Option.map_eq_some_iff.mp five
  rw [recorded] at hfound
  cases hfound
  rw [Incidence.rows_ofRows] at five
  subst five
  have different : Different [[0, 1], [0, 2], [1, 2], [1, 3], [2, 3]] :=
    different_iff_nodup.mpr (by decide)
  obtain ⟨joined, degree⟩ := rows 1 there
  rw [Nat.cast_one] at joined
  exact ⟨strip_accepted, rfl, small, reached, neighbours, _, stars, answer, recorded, answer', there,
    different, row, joined, degree different⟩

end Mesh

end MeshIncidence
