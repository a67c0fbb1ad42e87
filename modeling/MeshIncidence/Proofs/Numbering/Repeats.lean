import Mathlib
import MeshIncidence.Proofs.Audit.Findings
import MeshIncidence.Proofs.Numbering.Admitted
import MeshIncidence.Proofs.Resolution.Laziness

/-!
Repeated parts. A part with vertices gets a number of an earlier cell if one has these vertices too. But
the parts of one cell are not compared with each other, and a part without vertices is compared along
touching cells alone: these are the ways to two entities with the same vertices.
-/
namespace MeshIncidence

namespace Numbering

theorem different_keysOf {parts : List (List Int)} {cell : List Int} (nodup : cell.Nodup)
    (places : ∀ part ∈ parts, ∀ i ∈ part, 0 ≤ i ∧ i < cell.length) :
    Different (keysOf parts cell) ↔ Different parts := by
  rw [Different, Different, keysOf, List.pairwise_map]
  refine List.Pairwise.iff_of_mem fun {a b} ha hb => not_congr ?_
  simp only [Shape.mem_keyOf]
  exact Shape.pickAt_alike_iff nodup (places a ha) (places b hb)

end Numbering

namespace Mesh

variable {m : Mesh} {d : Int} {s : Store} {parts touching : List (List Int)} {k : Numbering}

/-- Entity `e` stands for a part of cell `c`. It has the vertices of the part, and if there are any and
an earlier cell has them in a part too, it is an entity of an earlier cell. -/
structure StandsFor (m : Mesh) (parts vertices numbers : List (List Int)) (c : Nat)
    (part : List Int) (e : Nat) : Prop where
  alike : ∃ key, vertices[e]? = some key ∧
    ∀ v, v ∈ key ↔ v ∈ Shape.pickAt (m.cells.getD c []) part
  reused : part ≠ [] → ∀ b < c, ∀ q ∈ parts,
    (∀ v, v ∈ Shape.pickAt (m.cells.getD b []) q ↔ v ∈ Shape.pickAt (m.cells.getD c []) part) →
      ∃ a < c, (e : Int) ∈ numbers.getD a []

/-- Every cell but the first has a vertex in common with an earlier one. -/
def Linked (m : Mesh) : Prop :=
  ∀ c, ∀ hc : c < m.cells.length, 0 < c → ∃ other ∈ m.cells.take c, ∃ v ∈ m.cells[c], v ∈ other

section Numbered

variable (numbered : m.Numbered d parts touching k)

include numbered

/-- The parts of the first cell are compared with none. -/
theorem different_parts (sound : m.Sound) (some : 0 < m.cells.length)
    (different : Different k.entityVertices) : Different parts := by
  have h : 0 < (m.stops parts touching).length := by
    rw [numbered.length_stops]
    exact some
  rw [Different, numbered.vertices, Numbering.pairwise_entries] at different
  have first := different.1 0 h
  rw [List.take_zero, Numbering.fresh_nil,
    getElem_stops some (by rw [numbered.length_touching]; exact some) h] at first
  have cell := List.getElem_mem some
  exact (Numbering.different_keysOf (sound.nodup _ cell) fun p hp =>
    numbered.admits.places_of_cell sound cell hp).mp first

/-- A part without vertices is new at every cell that touches no earlier one. -/
theorem linked_of_different (empty : [] ∈ parts) (different : Different k.entityVertices) :
    m.Linked := by
  intro c hc positive
  by_contra apart
  have length := numbered.length_stops
  rw [Different, numbered.vertices, Numbering.pairwise_entries] at different
  have new : ∀ {c : Nat} (hc : c < m.cells.length) (h : c < (m.stops parts touching).length),
      ¬ m.Seen parts c hc [] →
        [] ∈ Numbering.fresh ((m.stops parts touching).take c) (m.stops parts touching)[c] :=
    fun hc h unseen => (mem_fresh_stops numbered hc h).mpr
      ⟨[], empty, (Shape.keyOf_eq_nil_iff.mpr rfl).symm, unseen⟩
  have first := new (c := 0) (by omega) (by omega) (by simp [Seen])
  have again := new hc (by omega) (by
    rintro ⟨other, earlier, touches, -⟩
    exact apart ⟨other, earlier, touches⟩)
  exact different.2 0 c positive (by omega) _ first _ again fun v => Iff.rfl

/-- Two entities with the same vertices come of parts alike or of parts without vertices. -/
theorem different_of_parts (sound : m.Sound) (different : Different parts)
    (linked : [] ∈ parts → m.Linked) : Different k.entityVertices := by
  have length := numbered.length_stops
  rw [Different, numbered.vertices, Numbering.pairwise_entries]
  constructor
  · intro c h
    have hc : c < m.cells.length := by omega
    have cell := List.getElem_mem hc
    have keys := (Numbering.different_keysOf (sound.nodup _ cell) fun p hp =>
      numbered.admits.places_of_cell sound cell hp).mpr different
    rw [getElem_stops hc (by rw [numbered.length_touching]; exact hc) h]
    exact List.Pairwise.filter _ keys
  · intro b c lt h key hkey key' hkey' same
    have hc : c < m.cells.length := by omega
    obtain ⟨p, hp, rfl, -⟩ := (mem_fresh_stops numbered (by omega) (by omega)).mp hkey
    obtain ⟨q, hq, rfl, unknown⟩ := (mem_fresh_stops numbered hc h).mp hkey'
    simp only [Shape.mem_keyOf] at same
    refine unknown ?_
    by_cases empty : q = []
    · subst empty
      obtain ⟨other, earlier, touches⟩ := linked hq c hc (by omega)
      exact ⟨other, earlier, touches, [], hq, fun v => Iff.rfl⟩
    · have touches := numbered.admits.touching_of_alike sound (List.getElem_mem _)
        (List.getElem_mem hc) hp hq empty same
      exact ⟨_, List.mem_take_iff_getElem.mpr ⟨b, by omega, rfl⟩, touches, p, hp, same⟩

theorem different_entityVertices_iff (sound : m.Sound) :
    Different k.entityVertices ↔ m.cells = [] ∨ Different parts ∧ ([] ∈ parts → m.Linked) := by
  constructor
  · intro different
    rcases Nat.eq_zero_or_pos m.cells.length with none | some
    · exact .inl (List.length_eq_zero_iff.mp none)
    · exact .inr ⟨different_parts numbered sound some different,
        fun empty => linked_of_different numbered empty different⟩
  · rintro (none | ⟨different, linked⟩)
    · rw [numbered.vertices, stops, none]
      exact List.Pairwise.nil
    · exact different_of_parts numbered sound different linked

/-- Each cell has a number for each of its parts. -/
theorem exists_standsFor (sound : m.Sound) {c : Nat} (hc : c < m.cells.length) {p : Nat}
    (hp : p < parts.length) : ∃ e : Nat, (k.cellRows.getD c [])[p]? = some (e : Int) ∧
      m.StandsFor parts k.entityVertices k.cellRows c parts[p] e := by
  have hs : c < (m.stops parts touching).length := by rw [numbered.length_stops]; exact hc
  have stop := getElem_stops hc (by rw [numbered.length_touching]; exact hc) hs
  have hp' : p < (m.stops parts touching)[c].keys.length := by simpa [stop, Numbering.keysOf] using hp
  have key : (m.stops parts touching)[c].keys[p] = Shape.keyOf m.cells[c] parts[p] := by
    simp [stop, Numbering.keysOf]
  obtain ⟨e, he, names, old⟩ := numbered.past.exists_number hs hp'
  rw [key] at names old
  have rows : ∀ b, k.cellRows.getD b [] = (k.cellEntities.getD b []).map Int.ofNat := by
    intro b
    simp only [Numbering.cellRows, List.getD_eq_getElem?_getD, List.getElem?_map]
    cases k.cellEntities[b]? <;> rfl
  refine ⟨e, by rw [rows, List.getElem?_map, he]; rfl, ?_, ?_⟩
  · obtain ⟨v, hv, same⟩ := names
    obtain ⟨-, sub, sup⟩ := VertexList.sameVertices_iff.mp same
    rw [List.getD_eq_getElem _ _ hc]
    exact ⟨v, hv, fun x => ⟨fun hx => Shape.mem_keyOf.mp (sub x hx),
      fun hx => sup x (Shape.mem_keyOf.mpr hx)⟩⟩
  · intro some b hb q hq alike
    rw [List.getD_eq_getElem _ _ hc, List.getD_eq_getElem _ _ (hb.trans hc)] at alike
    have part := List.getElem_mem hp
    have touches := numbered.admits.touching_of_alike sound (List.getElem_mem _)
      (List.getElem_mem hc) hq part some alike
    have seen : m.Seen parts c hc parts[p] :=
      ⟨_, List.mem_take_iff_getElem.mpr ⟨b, by omega, rfl⟩, touches, q, hq, alike⟩
    obtain ⟨a, ha, listed⟩ := old ((known_stops_iff numbered hc part hs).mpr seen)
    exact ⟨a, ha, by rw [rows]; exact List.mem_map_of_mem listed⟩

end Numbered

/-- Where the entities of a dimension between zero and that of the cells were counted, they come of a
numbering. -/
theorem exists_numbering (covers : 0 < d ∧ d < m.dim) {n : Nat} (h : m.countOf d = .ok n) :
    ∃ k, m.numbering d = .ok k ∧ k.count = n := by
  rw [countOf_between covers.1 covers.2] at h
  exact Outcome.map_eq_ok.mp h

/-- Entities that were found for a plain shape. The template has parts, all of one length and within the
cell; each cell has a number for each part, and uses that of an earlier cell for vertices that are not
new. Two entities have the same vertices only if two parts have the same places, or if a part has none
and there is a later cell apart from all before it. -/
theorem entities_different_iff (accepted : m.Accepted) (plain : m.shape.Plain) (above : 0 < d)
    (below : d < m.dim) (reached : m.Reaches s) {n : Nat}
    (found : ((Resolution.entities m.shape d).run s).1 = .ok n) :
    let ended := ((Resolution.entities m.shape d).run s).2.store
    ∃ parts vertices numbers, m.Admits d parts ∧
      ended.relation? d 0 = some (Incidence.ofRows vertices) ∧ vertices.length = n ∧
      ended.relation? m.dim d = some (Incidence.ofRows numbers) ∧
      (∀ c < m.cells.length, ∀ p, ∀ hp : p < parts.length, ∃ e : Nat,
        (numbers.getD c [])[p]? = some (e : Int) ∧
          m.StandsFor parts vertices numbers c parts[p] e) ∧
      (Different vertices ↔ m.cells = [] ∨ Different parts ∧ ([] ∈ parts → m.Linked)) := by
  intro ended
  have sound := accepted.sound
  have counts := reached.counts accepted d
  obtain ⟨fine, count⟩ := entitiesOf_eq_ok.mp (counts.outcome.symm.trans found)
  obtain ⟨k, hk, rfl⟩ := exists_numbering ⟨above, below⟩ count
  obtain ⟨parts, touching, numbered⟩ := exists_numbered sound plain hk
  obtain ⟨hvertices, hnumbers⟩ :=
    counts.leads.faithful.relations_of_numbering above below hk ⟨counts.recorded count, fine⟩
  exact ⟨parts, k.entityVertices, k.cellRows, numbered.admits, hvertices, rfl, hnumbers,
    fun c hc p hp => exists_standsFor numbered sound hc hp,
    different_entityVertices_iff numbered sound⟩

/-- Two triangles of a shape that lists its first edge twice. -/
def folded : Mesh :=
  ⟨Shape.custom "folded" 2 [[[0], [1], [2]], [[0, 1], [1, 0], [1, 2]], [[0, 1, 2]]] none none,
    [[0, 1, 2], [1, 2, 3]], 4,
    ⟨2, [(0, 4), (2, 2)], [((2, 0), Incidence.ofRows [[0, 1, 2], [1, 2, 3]])]⟩⟩

theorem folded_accepted : folded.Accepted :=
  ⟨Registry.builtin, ⟨[2, 3], .word, [0, 1, 2, 1, 2, 3]⟩, .given folded.shape, none, rfl, rfl⟩

/-- The first edge of the first triangle is numbered twice. -/
theorem entities_different_iff_folded :
    let s := Demand.after folded.shape folded.store [.relation 2 2]
    let ended := (Resolution.entities folded.shape 1).run s
    folded.Accepted ∧ folded.shape.Plain ∧ (0 : Int) < 1 ∧ 1 < folded.dim ∧ folded.Reaches s ∧
      ended.1 = .ok 4 ∧
      ∃ parts vertices, folded.Admits 1 parts ∧
        ended.2.store.relation? 1 0 = some (Incidence.ofRows vertices) ∧
        (Different vertices ↔ folded.cells = [] ∨ Different parts ∧ ([] ∈ parts → folded.Linked)) ∧
        ¬ Different vertices := by
  have found : ((Resolution.entities folded.shape 1).run
      (Demand.after folded.shape folded.store [.relation 2 2])).1 = .ok 4 := by cbv
  intro s ended
  have plain : folded.shape.Plain := rfl
  have reached : folded.Reaches s := ⟨_, rfl⟩
  obtain ⟨parts, vertices, -, admits, relation, -, -, -, different⟩ :=
    entities_different_iff folded_accepted plain (by decide) (by decide) reached found
  cases admits.template
  refine ⟨folded_accepted, plain, by decide, by decide, reached, found, _, vertices, admits,
    relation, different, ?_⟩
  rw [different]
  rintro (none | ⟨different, -⟩)
  · cases none
  · exact (List.pairwise_cons.mp different).1 [1, 0] (by simp) (by simp [or_comm])

/-- Edges 0 and 1 of two folded triangles have the same vertices. -/
theorem folded_numbered_twice :
    folded.Accepted ∧ folded.shape.Plain ∧ (0 : Int) < 1 ∧ 1 < folded.dim ∧
      folded.Reaches folded.store ∧
      ((Resolution.entities folded.shape 1).run folded.store).1 = .ok 4 ∧
      ∃ vertices, ((Resolution.entities folded.shape 1).run folded.store).2.store.relation? 1 0 =
        some (Incidence.ofRows vertices) ∧ vertices[0]? = some [0, 1] ∧ vertices[1]? = some [0, 1] := by
  refine ⟨folded_accepted, rfl, by decide, by decide, ⟨[], rfl⟩, by cbv,
    [[0, 1], [0, 1], [1, 2], [2, 3]], by cbv, rfl, rfl⟩

end Mesh

end MeshIncidence
