import Mathlib
import MeshIncidence.Proofs.Numbering.Repeats
import MeshIncidence.Proofs.Resolution.Existence
import MeshIncidence.Proofs.Simplicial.Faces

/-!
Going through a third dimension of a mesh of simplices. Whichever it is, there is an entity of it on the
way from an entity to each of its parts: one within the part, one between the two, or one around both. And
parts are kept by their vertices alone, so the rows found list the same parts as those found on request.
-/
namespace MeshIncidence

/-- Rows of wholes that refer to the parts they are related to. -/
structure Relates (related : List Int → List Int → Prop) (wholes parts rows : List (List Int)) :
    Prop where
  length : rows.length = wholes.length
  inside : ∀ row ∈ rows, ∀ e ∈ row, 0 ≤ e ∧ e < parts.length
  mem : ∀ {i j : Nat} (hi : i < wholes.length) (hj : j < parts.length),
    (j : Int) ∈ rows.getD i [] ↔ related wholes[i] parts[j]

namespace Relates

variable {related other : List Int → List Int → Prop} {wholes parts mids between onward rows :
  List (List Int)}

theorem congr (h : Relates related wholes parts rows) (same : ∀ a b, related a b ↔ other a b) :
    Relates other wholes parts rows :=
  ⟨h.length, h.inside, fun hi hj => (h.mem hi hj).trans (same _ _)⟩

theorem turned (h : Relates related wholes parts rows) :
    Relates (fun part whole => related whole part) parts wholes
      (Incidence.turned rows parts.length) where
  length := Incidence.length_turned rows parts.length
  inside := by
    intro row hrow e he
    rw [← h.length]
    exact Incidence.mem_turned hrow he
  mem := by
    intro j i hj hi
    rw [← (Incidence.inverse_turned h.inside).mem i j]
    exact h.mem hi hj

/-- On a way that leads to every part within a whole, all of these are met and no others are kept. -/
theorem lists_partRows (first : Relates related wholes mids between)
    (second : Relates other mids parts onward)
    (way : ∀ whole ∈ wholes, ∀ part ∈ parts, (∀ v ∈ part, v ∈ whole) →
      ∃ mid ∈ mids, related whole mid ∧ other mid part) :
    ∃ found, Derivation.partRows onward between wholes parts = .ok found ∧
      List.Forall₂ (Mesh.Lists parts) wholes found := by
  have inside : ∀ row ∈ between, ∀ e ∈ row, 0 ≤ e ∧ e < onward.length := by
    rw [second.length]
    exact first.inside
  refine ⟨_, Derivation.partRows_eq inside second.inside, ?_⟩
  refine List.forall₂_iff_get.mpr ⟨by simp [first.length], fun i hi _ => ?_⟩
  have there : i < between.length := first.length ▸ hi
  simp only [List.get_eq_getElem, List.getElem_map, List.getElem_zip]
  refine ⟨nodup_eraseDups _, fun e => ?_⟩
  rw [Derivation.partsOf, List.mem_eraseDups, List.mem_filter, List.mem_flatMap,
    VertexList.subsetOf_iff]
  constructor
  · rintro ⟨⟨b, hb, he⟩, within⟩
    obtain ⟨h0, h1⟩ := inside _ (List.getElem_mem there) b hb
    obtain ⟨least, most⟩ := second.inside _ (Derivation.rowAt_mem h0 h1) e he
    obtain ⟨j, rfl⟩ := Int.eq_ofNat_of_zero_le least
    have hj : j < parts.length := by omega
    rw [Derivation.rowAt_natCast hj] at within
    exact ⟨j, hj, rfl, within⟩
  · rintro ⟨j, hj, rfl, within⟩
    obtain ⟨mid, hmid, before, after⟩ := way _ (List.getElem_mem hi) _ (List.getElem_mem hj) within
    obtain ⟨k, hk, rfl⟩ := List.mem_iff_getElem.mp hmid
    have met := (first.mem hi hk).mpr before
    have listed := (second.mem hk hj).mpr after
    rw [List.getD_eq_getElem _ _ there] at met
    exact ⟨⟨(k : Int), met, listed⟩, by rw [Derivation.rowAt_natCast hj]; exact within⟩

end Relates

/-- One of two entities has the vertices of the other one, that of the greater dimension. -/
def Nests (d0 d1 : Int) (a b : List Int) : Prop :=
  if d0 < d1 then ∀ v ∈ a, v ∈ b else ∀ v ∈ b, v ∈ a

theorem nests_rising {d0 d1 : Int} (rising : d0 < d1) {a b : List Int} :
    Nests d0 d1 a b ↔ ∀ v ∈ a, v ∈ b := by
  rw [Nests, if_pos rising]

theorem nests_falling {d0 d1 : Int} (falling : ¬ d0 < d1) {a b : List Int} :
    Nests d0 d1 a b ↔ ∀ v ∈ b, v ∈ a := by
  rw [Nests, if_neg falling]

namespace Mesh

/-- Rows that list the parts of wholes refer to what lies within them. -/
theorem relates_of_lists {wholes parts rows : List (List Int)}
    (lists : List.Forall₂ (Lists parts) wholes rows) :
    Relates (fun whole part => ∀ v ∈ part, v ∈ whole) wholes parts rows where
  length := lists.length_eq.symm
  inside := by
    intro row hrow e he
    obtain ⟨i, hi, rfl⟩ := List.mem_iff_getElem.mp hrow
    have listed := (List.forall₂_iff_get.mp lists).2 i (lists.length_eq ▸ hi) hi
    obtain ⟨j, hj, rfl, -⟩ := (listed.mem e).mp he
    omega
  mem := by
    intro i j hi hj
    have there : i < rows.length := lists.length_eq ▸ hi
    have listed := (List.forall₂_iff_get.mp lists).2 i hi there
    rw [List.getD_eq_getElem _ _ there]
    exact listed.mem_natCast hj

/-- Rows of the same wholes list the same parts. -/
theorem perm_of_lists {wholes parts rows rows' : List (List Int)}
    (lists : List.Forall₂ (Lists parts) wholes rows)
    (lists' : List.Forall₂ (Lists parts) wholes rows') :
    List.Forall₂ (fun row row' => row.Nodup ∧ row.Perm row') rows rows' := by
  refine List.forall₂_iff_get.mpr ⟨lists.length_eq.symm.trans lists'.length_eq, fun i hi hi' => ?_⟩
  have there : i < wholes.length := by rw [lists.length_eq]; exact hi
  have listed := (List.forall₂_iff_get.mp lists).2 i there hi
  have listed' := (List.forall₂_iff_get.mp lists').2 i there hi'
  refine ⟨listed.nodup, ?_⟩
  rw [List.perm_ext_iff_of_nodup listed.nodup listed'.nodup]
  exact fun e => (listed.mem e).trans (listed'.mem e).symm

variable {m : Mesh} {D d d0 d1 : Int} {s : Store} {rows : List (List Int)}

/-- Between two sets of vertices of a cell lies an entity of every dimension that fits. -/
theorem exists_entity_between (sound : m.Sound) (simplicial : m.shape = Shape.simplex D)
    (below : d ≤ D) (nonneg : 0 ≤ d) (h : m.faces d = .ok rows) {cell : List Int}
    (hcell : cell ∈ m.cells) {lower upper : List Int} (ordered : ∀ v ∈ lower, v ∈ upper)
    (within : ∀ v ∈ upper, v ∈ cell) (least : lower.toFinset.card ≤ (d + 1).toNat)
    (most : (d + 1).toNat ≤ upper.toFinset.card) :
    ∃ row ∈ rows, (∀ v ∈ lower, v ∈ row) ∧ ∀ v ∈ row, v ∈ upper := by
  have sub : lower.toFinset ⊆ upper.toFinset := fun v hv =>
    List.mem_toFinset.mpr (ordered v (List.mem_toFinset.mp hv))
  obtain ⟨vertices, above, under, size⟩ := Finset.exists_subsuperset_card_eq sub least most
  have inCell : vertices ⊆ cell.toFinset := fun v hv =>
    List.mem_toFinset.mpr (within v (List.mem_toFinset.mp (under hv)))
  obtain ⟨row, hrow, rfl⟩ := exists_entity sound simplicial below nonneg h hcell inCell size
  exact ⟨row, hrow, fun v hv => List.mem_toFinset.mp (above (List.mem_toFinset.mpr hv)),
    fun v hv => List.mem_toFinset.mp (under (List.mem_toFinset.mpr hv))⟩

/-- From an entity to a part of it there is a way through every other dimension. -/
theorem exists_nested (sound : m.Sound) (simplicial : m.shape = Shape.simplex D) (below : d ≤ D)
    (nonneg : 0 ≤ d) (h : m.faces d = .ok rows)
    {cell whole part : List Int} (hcell : cell ∈ m.cells) (inCell : ∀ v ∈ whole, v ∈ cell)
    (within : ∀ v ∈ part, v ∈ whole) (size0 : whole.toFinset.card = (d0 + 1).toNat)
    (size1 : part.toFinset.card = (d1 + 1).toNat) (falling : d1 < d0) :
    ∃ mid ∈ rows, Nests d0 d whole mid ∧ Nests d d1 mid part := by
  have cellSize : cell.toFinset.card = (D + 1).toNat := by
    rw [List.toFinset_card_of_nodup (sound.nodup cell hcell), length_of_simplex sound simplicial hcell]
  by_cases lowest : d < d1
  · obtain ⟨mid, hmid, -, under⟩ := exists_entity_between sound simplicial below nonneg h hcell
      (fun v hv => absurd hv List.not_mem_nil) (fun v hv => inCell v (within v hv))
      (Nat.zero_le _) (by omega : (d + 1).toNat ≤ part.toFinset.card)
    exact ⟨mid, hmid, (nests_falling (by omega)).mpr fun v hv => within v (under v hv),
      (nests_rising lowest).mpr under⟩
  by_cases highest : d0 < d
  · obtain ⟨mid, hmid, above, -⟩ := exists_entity_between sound simplicial below nonneg h hcell
      inCell (fun v hv => hv) (by omega : whole.toFinset.card ≤ (d + 1).toNat) (by omega)
    exact ⟨mid, hmid, (nests_rising highest).mpr above,
      (nests_falling lowest).mpr fun v hv => above v (within v hv)⟩
  · obtain ⟨mid, hmid, above, under⟩ := exists_entity_between sound simplicial below nonneg h hcell
      within inCell (by omega) (by omega)
    exact ⟨mid, hmid, (nests_falling highest).mpr under, (nests_falling lowest).mpr above⟩

/-- Recorded relations between different dimensions relate the entities one of which has the vertices of
the other one. -/
theorem relates_recorded (sound : m.Sound) (simplicial : m.shape = Shape.simplex D)
    (faithful : Faithful m s) (differ : d0 ≠ d1) {r : Incidence} (hr : s.relation? d0 d1 = some r)
    {v0 v1 : List (List Int)} (h0 : m.faces d0 = .ok v0) (h1 : m.faces d1 = .ok v1) :
    Relates (Nests d0 d1) v0 v1 r.rows := by
  obtain ⟨n0, n1, c0, c1⟩ := faithful.counted hr
  have covers0 := covers_of_countOf (faithful.count c0)
  have covers1 := covers_of_countOf (faithful.count c1)
  have hdim := dim_of_simplex simplicial
  have nonneg0 := covers0.1
  have nonneg1 := covers1.1
  have below0 := covers0.2
  have below1 := covers1.2
  have relation := faithful.relation hr
  by_cases rising : d0 < d1
  · obtain ⟨found, n, hfound, hn, -, -, rfl⟩ := (relationOf_rising_eq_ok rising).mp relation
    rw [countOf_of_faces covers0 h0] at hn
    cases hn
    rw [faces, if_neg (by omega)] at h1
    have lists := lists_fallingRows sound simplicial nonneg0 rising (by omega) h1 h0 hfound
    rw [Incidence.rows_ofRows]
    exact (relates_of_lists lists).turned.congr fun a b => (nests_rising rising).symm
  · rw [relationOf_falling rising] at relation
    obtain ⟨found, hfound, rfl⟩ := Outcome.map_eq_ok.mp relation
    rw [faces, if_neg (by omega)] at h0
    have lists := lists_fallingRows sound simplicial nonneg1 (by omega) (by omega) h0 h1 hfound
    rw [Incidence.rows_ofRows]
    exact (relates_of_lists lists).congr fun a b => (nests_falling rising).symm

/-- Rows found through any other dimension list the parts of every entity. -/
theorem lists_composition (sound : m.Sound) (simplicial : m.shape = Shape.simplex D)
    (faithful : Faithful m s) (above : 0 < d1) (falling : d1 < d0) (below : d0 ≤ D) (other0 : d ≠ d0)
    (other1 : d ≠ d1) {between onward : Incidence} (hb : s.relation? d0 d = some between)
    (ho : s.relation? d d1 = some onward) {wholes parts : List (List Int)}
    (hw : m.vertexRows d0 = .ok wholes) (hp : m.vertexRows d1 = .ok parts) :
    ∃ found, Derivation.partRows onward.rows between.rows wholes parts = .ok found ∧
      List.Forall₂ (Lists parts) wholes found := by
  have hdim := dim_of_simplex simplicial
  obtain ⟨-, n, -, hn⟩ := faithful.counted hb
  obtain ⟨nonneg, upto⟩ := covers_of_countOf (faithful.count hn)
  obtain ⟨mids, hmids, -⟩ := exists_faces (faithful.count hn)
  have hwholes : m.faces d0 = .ok wholes := by rw [faces, if_neg (by omega), hw]
  have hparts : m.faces d1 = .ok parts := by rw [faces, if_neg (by omega), hp]
  have first := relates_recorded sound simplicial faithful other0.symm hb hwholes hmids
  have second := relates_recorded sound simplicial faithful other1 ho hmids hparts
  refine first.lists_partRows second fun whole hwhole part hpart within => ?_
  obtain ⟨-, -, cell, hcell, inCell⟩ := vertices_of_entity sound (wellFormed_of_simplex simplicial)
    (by omega) (by omega) hw hwhole
  exact exists_nested sound simplicial (by omega) nonneg hmids hcell inCell within
    (card_of_face sound simplicial (by omega) below hwholes hwhole).2
    (card_of_face sound simplicial (by omega) (by omega) hparts hpart).2 falling

/-- Entities between the vertices and the cells are only counted if there are not too many vertices. -/
theorem small_of_countOf (sound : m.Sound) (covers : 0 < d ∧ d < m.dim) {n : Nat}
    (hn : m.countOf d = .ok n) : m.pointCount + 1 < Word.bound := by
  obtain ⟨k, hk, -⟩ := exists_numbering covers hn
  obtain ⟨touching, ht, -⟩ := Outcome.bind_eq_ok.mp hk
  obtain ⟨-, small, -⟩ := touching_eq_ok.mp ht
  rwa [points, Int.toNat_of_nonneg sound.points] at small

end Mesh

namespace Mesh

variable {m : Mesh} {D d d0 d1 : Int} {s : Store} {wholes parts : List (List Int)}

/-- By way of any other dimension, the relation that is written lists the parts. -/
theorem lists_composed (sound : m.Sound) (simplicial : m.shape = Shape.simplex D)
    (faithful : Faithful m s) (above : 0 < d1) (falling : d1 < d0) (below : d0 ≤ D) (other0 : d ≠ d0)
    (other1 : d ≠ d1) {between onward : Incidence} (hb : s.relation? d0 d = some between)
    (ho : s.relation? d d1 = some onward) (fresh : s.relation? d0 d1 = none)
    (hw : m.vertexRows d0 = .ok wholes) (hp : m.vertexRows d1 = .ok parts) :
    let composed := (Derivation.composeInto d0 d1 d).run s
    composed.1 = .ok () ∧ s.Frame [] [(d0, d1)] composed.2.store ∧
      ∃ found, composed.2.store.relation? d0 d1 = some (Incidence.ofRows found) ∧
        List.Forall₂ (Lists parts) wholes found := by
  intro composed
  have storable := storable_of_wellFormed sound (wellFormed_of_simplex simplicial)
  obtain ⟨n0, -, c0, -⟩ := faithful.counted hb
  obtain ⟨-, n1, -, c1⟩ := faithful.counted ho
  obtain ⟨rows, hrows, width, hwholes⟩ := faithful.vertexRelation ⟨c0, storable d0⟩ (by omega)
  rw [hw] at hrows
  cases hrows
  obtain ⟨rows, hrows, -, hparts⟩ := faithful.vertexRelation ⟨c1, storable d1⟩ (by omega)
  rw [hp] at hrows
  cases hrows
  obtain ⟨found, hf, lists⟩ :=
    lists_composition sound simplicial faithful above falling below other0 other1 hb ho hw hp
  have rows : s.count? d0 = some (Incidence.ofRows found).sourceCount := by
    rw [Incidence.sourceCount_ofRows, ← lists.length_eq, width, c0]
  obtain ⟨t, ht⟩ := Store.setRelation_fresh (faithful.covers c0) (faithful.covers c1) fresh rows
  have ended : composed = _ :=
    Derivation.composeInto_parts faithful.covers_ends falling hb ho hwholes hparts
  rw [Incidence.rows_ofRows, Incidence.rows_ofRows, hf, Request.bind_of_ok (Request.lift_apply _ _),
    Derivation.finish_of_ok ht] at ended
  rw [ended]
  refine ⟨rfl, Store.frame_setRelation ht, found, ?_, lists⟩
  rw [Store.relation?_setRelation ht, if_pos ⟨rfl, rfl⟩]

/-- On request, the relation that is found lists the parts as well. -/
theorem lists_asked (sound : m.Sound) (simplicial : m.shape = Shape.simplex D)
    (faithful : Faithful m s) (above : 0 < d1) (falling : d1 < d0) (below : d0 ≤ D) {n0 n1 : Nat}
    (c0 : m.countOf d0 = .ok n0) (c1 : m.countOf d1 = .ok n1) (hw : m.vertexRows d0 = .ok wholes)
    (hp : m.vertexRows d1 = .ok parts) :
    let asked := (Resolution.relation m.shape d0 d1).run s
    asked.1 = .ok () ∧ ∃ found, asked.2.store.relation? d0 d1 = some (Incidence.ofRows found) ∧
      List.Forall₂ (Lists parts) wholes found := by
  intro asked
  have hdim := dim_of_simplex simplicial
  have hparts : m.faces d1 = .ok parts := by rw [faces, if_neg (by omega), hp]
  have small := small_of_countOf sound ⟨above, by omega⟩ c1
  have wellFormed := wellFormed_of_simplex simplicial
  have storable := storable_of_wellFormed sound wellFormed
  obtain ⟨found, hf⟩ :=
    fallingRows_exists sound wellFormed small above.le falling.le (by omega) c0 c1
  have ends : Ends m (m.answerOf _ d0 d1) d0 d1 _ ⟨s, []⟩ asked :=
    Resolution.ends_relation d0 d1 faithful (m.knows_counted s)
  have want : m.answerOf (fun d => (s.count? d).isSome) d0 d1 = .ok (Incidence.ofRows found) := by
    rw [answerOf_of_fine (storable d0) (storable d1) c0 c1, relationOf_falling (by omega), hf,
      Outcome.map_ok]
  exact ⟨by rw [ends.outcome, want, Outcome.map_ok], found, ends.recorded want,
    lists_fallingRows sound simplicial above.le falling below hw hparts hf⟩

/-- In a mesh of simplices it does not matter which dimension is gone through between two others that lie
between the vertices and the cells. Where both steps are recorded, the relation is recorded with a row
for each entity and nothing else is, and the rows list the same entities, each once, as those that are
found on request. -/
theorem composition_by_any_dimension (accepted : m.Accepted) (simplicial : m.shape = Shape.simplex D)
    (reached : m.Reaches s) (above : 0 < d1) (falling : d1 < d0) (below : d0 < D) (other0 : d ≠ d0)
    (other1 : d ≠ d1) (first : (s.relation? d0 d).isSome) (second : (s.relation? d d1).isSome)
    (fresh : s.relation? d0 d1 = none) :
    let composed := (Derivation.composeInto d0 d1 d).run s
    let asked := (Resolution.relation m.shape d0 d1).run s
    composed.1 = .ok () ∧ asked.1 = .ok () ∧ s.Frame [] [(d0, d1)] composed.2.store ∧
      ∃ r q, composed.2.store.relation? d0 d1 = some r ∧ asked.2.store.relation? d0 d1 = some q ∧
        r.rows.length = s.sizeOf d0 ∧
        List.Forall₂ (fun row row' => row.Nodup ∧ row.Perm row') r.rows q.rows := by
  intro composed asked
  have sound := accepted.sound
  have faithful := reached.faithful accepted
  obtain ⟨between, hb⟩ := Option.isSome_iff_exists.mp first
  obtain ⟨onward, ho⟩ := Option.isSome_iff_exists.mp second
  obtain ⟨n0, -, c0, -⟩ := faithful.counted hb
  obtain ⟨-, n1, -, c1⟩ := faithful.counted ho
  obtain ⟨wholes, hw, width⟩ := vertexRows_of_countOf (faithful.count c0) (by omega)
  obtain ⟨parts, hp, -⟩ := vertexRows_of_countOf (faithful.count c1) (by omega)
  obtain ⟨writes, frame, found, recorded, lists⟩ :=
    lists_composed sound simplicial faithful above falling below.le other0 other1 hb ho fresh hw hp
  obtain ⟨answers, found', recorded', lists'⟩ := lists_asked sound simplicial faithful above falling
    below.le (faithful.count c0) (faithful.count c1) hw hp
  refine ⟨writes, answers, frame, _, _, recorded, recorded', ?_, ?_⟩
  · rw [Incidence.rows_ofRows, ← lists.length_eq, width, Store.sizeOf, c0, Option.getD_some]
  · rw [Incidence.rows_ofRows, Incidence.rows_ofRows]
    exact perm_of_lists lists lists'

/-- Two tetrahedra with a triangle in common, their vertices in descending order. -/
def stacked : Mesh :=
  ⟨Shape.simplex 3, [[3, 2, 1, 0], [4, 3, 2, 1]], 5,
    ⟨3, [(0, 5), (3, 2)], [((3, 0), Incidence.ofRows [[3, 2, 1, 0], [4, 3, 2, 1]])]⟩⟩

theorem stacked_steps :
    let s := Demand.after stacked.shape stacked.store [.entities 1, .relation 2 3]
    (s.relation? 2 3).isSome ∧ (s.relation? 3 1).isSome ∧ s.relation? 2 1 = none :=
  ⟨by cbv, by cbv, by cbv⟩

theorem stacked_rows :
    let s := Demand.after stacked.shape stacked.store [.entities 1, .relation 2 3]
    let composed := (Derivation.composeInto 2 1 3).run s
    let asked := (Resolution.relation stacked.shape 2 1).run s
    ((composed.2.store.relation? 2 1).bind fun r => r.rows[0]?) = some [0, 1, 3] ∧
      ((asked.2.store.relation? 2 1).bind fun r => r.rows[0]?) = some [1, 3, 0] :=
  ⟨by cbv, by cbv⟩

/-- The edges of triangles by way of the tetrahedra are those on request, in another order. -/
theorem composition_by_any_dimension_stacked :
    let s := Demand.after stacked.shape stacked.store [.entities 1, .relation 2 3]
    let composed := (Derivation.composeInto 2 1 3).run s
    let asked := (Resolution.relation stacked.shape 2 1).run s
    stacked.Accepted ∧ stacked.shape = Shape.simplex 3 ∧ stacked.Reaches s ∧
      (0 : Int) < 1 ∧ (1 : Int) < 2 ∧ (2 : Int) < 3 ∧ (3 : Int) ≠ 2 ∧ (3 : Int) ≠ 1 ∧
      (s.relation? 2 3).isSome ∧ (s.relation? 3 1).isSome ∧ s.relation? 2 1 = none ∧
      composed.1 = .ok () ∧ asked.1 = .ok () ∧ s.Frame [] [(2, 1)] composed.2.store ∧
      ∃ r q, composed.2.store.relation? 2 1 = some r ∧ asked.2.store.relation? 2 1 = some q ∧
        r.rows.length = s.sizeOf 2 ∧
        List.Forall₂ (fun row row' => row.Nodup ∧ row.Perm row') r.rows q.rows ∧
        r.rows[0]? = some [0, 1, 3] ∧ q.rows[0]? = some [1, 3, 0] := by
  obtain ⟨first, second, fresh⟩ := stacked_steps
  obtain ⟨row, row'⟩ := stacked_rows
  have accepted : stacked.Accepted :=
    ⟨Registry.builtin, ⟨[2, 4], .word, [3, 2, 1, 0, 4, 3, 2, 1]⟩, .inferred, some 5, rfl, rfl⟩
  have reached : stacked.Reaches (Demand.after stacked.shape stacked.store
      [.entities 1, .relation 2 3]) := ⟨_, rfl⟩
  obtain ⟨writes, answers, frame, r, q, hr, hq, length, same⟩ :=
    composition_by_any_dimension accepted rfl reached (by decide) (by decide) (by decide) (by decide)
      (by decide) first second fresh
  rw [hr, Option.bind_some] at row
  rw [hq, Option.bind_some] at row'
  exact ⟨accepted, rfl, reached, by decide, by decide, by decide, by decide, by decide, first, second,
    fresh, writes, answers, frame, r, q, hr, hq, length, same, row, row'⟩

end Mesh

end MeshIncidence
