import Mathlib
import MeshIncidence.Proofs.Mesh.Touching
import MeshIncidence.Proofs.Numbering.Occurrences
import MeshIncidence.Proofs.Shape.Regular

/-!
Templates that cells can be numbered by. Of a plain shape any template will do that has parts, all of one
length and within the cell, and no other is numbered. What is new at a cell are then the parts whose
vertices no touching cell before it has in a part.
-/
namespace MeshIncidence

namespace Numbering

variable {shape : Shape} {e : Expected} {parts : List (List Int)} {stop : Stop}

/-- The keys of a cell's parts. -/
def keysOf (parts : List (List Int)) (cell : List Int) : List (List Int) :=
  parts.map (Shape.keyOf cell)

/-- A cell that is split by picking parts is a stop with the keys of these. -/
theorem splits_iff {entry : List Int × List Int}
    (split : shape.split entry.1 e.dim = .ok (parts.map (Shape.pickAt entry.1)))
    (number : parts.length = e.parts) : Splits shape e entry stop ↔
      (∀ part ∈ parts, part.length = e.partVertices) ∧ stop = ⟨keysOf parts entry.1, entry.2⟩ := by
  have keys : (parts.map (Shape.pickAt entry.1)).map VertexList.ascending = keysOf parts entry.1 := by
    rw [List.map_map]
    rfl
  constructor
  · rintro ⟨touching, picked, split', -, width, same⟩
    rw [split] at split'
    cases split'
    rw [keys] at same
    cases stop
    cases touching
    cases same
    exact ⟨by simpa [Shape.pickAt] using width, rfl⟩
  · rintro ⟨width, rfl⟩
    exact ⟨rfl, _, split, by simpa using number, by simpa [Shape.pickAt] using width, keys.symm⟩

theorem forall₂_splits_iff {todo : List (List Int × List Int)} {stops : List Stop}
    (split : ∀ entry ∈ todo, shape.split entry.1 e.dim = .ok (parts.map (Shape.pickAt entry.1)))
    (number : parts.length = e.parts) : List.Forall₂ (Splits shape e) todo stops ↔
      (todo ≠ [] → ∀ part ∈ parts, part.length = e.partVertices) ∧
        stops = todo.map fun entry => ⟨keysOf parts entry.1, entry.2⟩ := by
  constructor
  · intro splits
    induction splits with
    | nil => simp
    | cons head _ ih =>
      rw [List.forall_mem_cons] at split
      obtain ⟨width, rfl⟩ := (splits_iff split.1 number).mp head
      exact ⟨fun _ => width, congrArg _ (ih split.2).2⟩
  · rintro ⟨width, rfl⟩
    rw [List.forall₂_map_right_iff, List.forall₂_same]
    exact fun entry he =>
      (splits_iff (split entry he) number).mpr ⟨width (List.ne_nil_of_mem he), rfl⟩

end Numbering

namespace Mesh

variable {m : Mesh} {d : Int} {parts touching : List (List Int)} {k : Numbering}

/-- The template of a dimension lets all cells be numbered. -/
structure Admits (m : Mesh) (d : Int) (parts : List (List Int)) : Prop where
  template : m.shape.template d = .ok parts
  nonempty : parts ≠ []
  places : ∃ n, m.shape.vertexCount = .ok n ∧ ∀ part ∈ parts, ∀ i ∈ part, 0 ≤ i ∧ i < n
  width : m.cells ≠ [] → ∃ w, ∀ part ∈ parts, part.length = w

/-- What the numbering of a dimension passes: each cell with the keys of its parts. -/
def stops (m : Mesh) (parts touching : List (List Int)) : List Numbering.Stop :=
  (m.cells.zip touching).map fun entry => ⟨Numbering.keysOf parts entry.1, entry.2⟩

/-- An earlier cell that touches cell `c` has a part with the vertices that `p` has there. -/
def Seen (m : Mesh) (parts : List (List Int)) (c : Nat) (hc : c < m.cells.length) (p : List Int) :
    Prop :=
  ∃ other ∈ m.cells.take c, (∃ v ∈ m.cells[c], v ∈ other) ∧
    ∃ q ∈ parts, ∀ v, v ∈ Shape.pickAt other q ↔ v ∈ Shape.pickAt m.cells[c] p

/-- A numbering of the parts of all cells. -/
structure Numbered (m : Mesh) (d : Int) (parts touching : List (List Int)) (k : Numbering) :
    Prop where
  admits : m.Admits d parts
  touches : m.touching = .ok touching
  vertices : k.entityVertices = Numbering.entries (m.stops parts touching)
  past : Numbering.Past k.entityVertices (m.stops parts touching) k.cellEntities

theorem Admits.places_of_cell (admits : m.Admits d parts) (sound : m.Sound) {cell part : List Int}
    (hcell : cell ∈ m.cells) (hp : part ∈ parts) : ∀ i ∈ part, 0 ≤ i ∧ i < cell.length := by
  obtain ⟨n, hn, places⟩ := admits.places
  rw [sound.vertexCount hcell] at hn
  cases hn
  exact places part hp

/-- Cells with the same vertices in a part touch, unless the part has none. -/
theorem Admits.touching_of_alike (admits : m.Admits d parts) (sound : m.Sound)
    {a b p q : List Int} (ha : a ∈ m.cells) (hb : b ∈ m.cells) (hp : p ∈ parts) (hq : q ∈ parts)
    (some : q ≠ []) (same : ∀ v, v ∈ Shape.pickAt a p ↔ v ∈ Shape.pickAt b q) :
    ∃ v ∈ b, v ∈ a := by
  obtain ⟨i, hi⟩ := List.exists_mem_of_ne_nil _ some
  have vertex : b.getD i.toNat 0 ∈ Shape.pickAt b q := List.mem_map_of_mem hi
  exact ⟨_, Shape.mem_cell_of_mem_pickAt (admits.places_of_cell sound hb hq) vertex,
    Shape.mem_cell_of_mem_pickAt (admits.places_of_cell sound ha hp) ((same _).mpr vertex)⟩

theorem Admits.split_eq (admits : m.Admits d parts) (sound : m.Sound) (plain : m.shape.Plain)
    {cell : List Int} (hcell : cell ∈ m.cells) :
    m.shape.split cell d = .ok (parts.map (Shape.pickAt cell)) :=
  Shape.split_eq_of_plain plain admits.template (sound.vertexCount hcell)
    fun _ hp => admits.places_of_cell sound hcell hp

theorem zip_touching_ne_nil (ht : m.touching = .ok touching) :
    m.cells.zip touching ≠ [] ↔ m.cells ≠ [] := by
  simp [← List.length_eq_zero_iff, length_touching ht]

/-- Such a template numbers the parts of all cells. -/
theorem numbered_of_admits (sound : m.Sound) (plain : m.shape.Plain) (admits : m.Admits d parts)
    (ht : m.touching = .ok touching) :
    ∃ k, m.numbering d = .ok k ∧ m.Numbered d parts touching k := by
  obtain ⟨first, others, rfl⟩ := List.exists_cons_of_ne_nil admits.nonempty
  obtain ⟨n, corners, places⟩ := admits.places
  have he := Numbering.expected_eq_ok.mpr
    ⟨first, others, n, admits.template, corners, places, rfl⟩
  have split : ∀ entry ∈ m.cells.zip touching, m.shape.split entry.1 d =
      .ok ((first :: others).map (Shape.pickAt entry.1)) :=
    fun entry hentry => admits.split_eq sound plain (List.of_mem_zip hentry).1
  have width : m.cells.zip touching ≠ [] →
      ∀ part ∈ first :: others, part.length = first.length := by
    intro some part hp
    obtain ⟨w, width⟩ := admits.width ((zip_touching_ne_nil ht).mp some)
    rw [width part hp, width first (List.mem_cons_self ..)]
  have splits := (Numbering.forall₂_splits_iff (e := ⟨d, (first :: others).length, first.length⟩)
    split rfl).mpr ⟨width, rfl⟩
  obtain ⟨k, hk, vertices, past⟩ := Numbering.ofCells_of_splits (length_touching ht)
    (fun row hrow e => nonneg_of_mem_touching ht hrow) splits
  exact ⟨k, by rw [numbering, ht, Outcome.ok_bind, he, Outcome.ok_bind, hk], admits, ht, vertices, past⟩

/-- No other template numbers them. -/
theorem exists_numbered (sound : m.Sound) (plain : m.shape.Plain) (h : m.numbering d = .ok k) :
    ∃ parts touching, m.Numbered d parts touching k := by
  obtain ⟨touching, ht, done⟩ := Outcome.bind_eq_ok.mp h
  obtain ⟨e, he, done⟩ := Outcome.bind_eq_ok.mp done
  obtain ⟨first, others, n, template, corners, places, rfl⟩ := Numbering.expected_eq_ok.mp he
  obtain ⟨stops, splits⟩ := Numbering.exists_splits_of_foldlM done
  have split : ∀ entry ∈ m.cells.zip touching, m.shape.split entry.1 d =
      .ok ((first :: others).map (Shape.pickAt entry.1)) := by
    intro entry hentry
    have width := sound.vertexCount (List.of_mem_zip hentry).1
    refine Shape.split_eq_of_plain plain template width ?_
    rw [corners] at width
    cases width
    exact places
  obtain ⟨width, -⟩ := (Numbering.forall₂_splits_iff split rfl).mp splits
  have admits : m.Admits d (first :: others) := by
    refine ⟨template, by simp, ⟨n, corners, places⟩, fun some => ⟨_, width ?_⟩⟩
    exact (zip_touching_ne_nil ht).mpr some
  obtain ⟨k', hk, numbered⟩ := numbered_of_admits sound plain admits ht
  rw [h] at hk
  cases hk
  exact ⟨_, touching, numbered⟩

theorem getElem_stops {c : Nat} (hc : c < m.cells.length) (hc' : c < touching.length)
    (h : c < (m.stops parts touching).length) :
    (m.stops parts touching)[c] = ⟨Numbering.keysOf parts m.cells[c], touching[c]⟩ := by
  simp [stops]

theorem Admits.sameVertices_keyOf_iff (admits : m.Admits d parts) (some : m.cells ≠ [])
    {a b p q : List Int} (hp : p ∈ parts) (hq : q ∈ parts) :
    VertexList.sameVertices (Shape.keyOf a p) (Shape.keyOf b q) = true ↔
      ∀ v, v ∈ Shape.pickAt a p ↔ v ∈ Shape.pickAt b q := by
  obtain ⟨w, width⟩ := admits.width some
  rw [VertexList.sameVertices_iff_of_length]
  · simp only [Shape.mem_keyOf]
  · rw [Shape.length_keyOf, Shape.length_keyOf, width p hp, width q hq]

section Numbered

variable (numbered : m.Numbered d parts touching k)

include numbered

theorem Numbered.length_touching : touching.length = m.cells.length :=
  Mesh.length_touching numbered.touches

theorem Numbered.length_stops : (m.stops parts touching).length = m.cells.length := by
  simp [stops, numbered.length_touching]

theorem known_stops_iff {c : Nat} (hc : c < m.cells.length) {p : List Int} (hp : p ∈ parts)
    (h : c < (m.stops parts touching).length) :
    Numbering.known ((m.stops parts touching).take c) (m.stops parts touching)[c].touching
      (Shape.keyOf m.cells[c] p) = true ↔ m.Seen parts c hc p := by
  have ht := numbered.touches
  have length := numbered.length_touching
  have some : m.cells ≠ [] := List.ne_nil_of_length_pos (by omega)
  have hc' : c < touching.length := by omega
  have keys : ∀ other, (∃ key ∈ Numbering.keysOf parts other,
        VertexList.sameVertices key (Shape.keyOf m.cells[c] p) = true) ↔
      ∃ q ∈ parts, ∀ v, v ∈ Shape.pickAt other q ↔ v ∈ Shape.pickAt m.cells[c] p := by
    intro other
    simp only [Numbering.keysOf, List.mem_map, exists_exists_and_eq_and]
    exact exists_congr fun q => and_congr_right fun hq =>
      numbered.admits.sameVertices_keyOf_iff some hq hp
  rw [Numbering.known_iff]
  simp only [List.length_take, List.getElem_take, getElem_stops hc hc']
  constructor
  · rintro ⟨i, hi, touches, has⟩
    rw [getElem_stops (by omega) (by omega)] at has
    exact ⟨_, List.mem_take_iff_getElem.mpr ⟨i, by omega, rfl⟩,
      ((natCast_mem_touching ht hc hc' (by omega)).mp touches).2, (keys _).mp has⟩
  · rintro ⟨_, earlier, shared, same⟩
    obtain ⟨i, hi, rfl⟩ := List.mem_take_iff_getElem.mp earlier
    refine ⟨i, by omega, (natCast_mem_touching ht hc hc' (by omega)).mpr ⟨by omega, shared⟩, ?_⟩
    rw [getElem_stops (by omega) (by omega)]
    exact (keys _).mpr same

/-- New at a cell are the keys of parts that have not been seen. -/
theorem mem_fresh_stops {c : Nat} (hc : c < m.cells.length)
    (h : c < (m.stops parts touching).length) {key : List Int} :
    key ∈ Numbering.fresh ((m.stops parts touching).take c) (m.stops parts touching)[c] ↔
      ∃ p ∈ parts, key = Shape.keyOf m.cells[c] p ∧ ¬ m.Seen parts c hc p := by
  have hc' : c < touching.length := by rw [numbered.length_touching]; exact hc
  have keys : key ∈ (m.stops parts touching)[c].keys ↔
      ∃ p ∈ parts, key = Shape.keyOf m.cells[c] p := by
    simp [getElem_stops hc hc' h, Numbering.keysOf, eq_comm]
  rw [Numbering.mem_fresh, keys]
  constructor
  · rintro ⟨⟨p, hp, rfl⟩, unknown⟩
    rw [← Bool.not_eq_true, known_stops_iff numbered hc hp h] at unknown
    exact ⟨p, hp, rfl, unknown⟩
  · rintro ⟨p, hp, rfl, unknown⟩
    rw [← known_stops_iff numbered hc hp h, Bool.not_eq_true] at unknown
    exact ⟨⟨p, hp, rfl⟩, unknown⟩

end Numbered

/-- The vertices of entities are keys of parts of cells. -/
theorem vertexRows_of_plain (sound : m.Sound) (plain : m.shape.Plain) (below : d ≠ m.dim)
    {rows : List (List Int)} (h : m.vertexRows d = .ok rows) :
    ∃ parts, m.Admits d parts ∧
      ∀ row ∈ rows, ∃ cell ∈ m.cells, ∃ part ∈ parts, row = Shape.keyOf cell part := by
  rw [vertexRows, if_neg below] at h
  obtain ⟨k, hk, rfl⟩ := Outcome.map_eq_ok.mp h
  obtain ⟨parts, touching, numbered⟩ := exists_numbered sound plain hk
  have length := numbered.length_stops
  refine ⟨parts, numbered.admits, fun row hrow => ?_⟩
  rw [numbered.vertices, Numbering.mem_entries] at hrow
  obtain ⟨c, hc, hrow⟩ := hrow
  obtain ⟨part, hp, rfl, -⟩ := (mem_fresh_stops numbered (by omega) hc).mp hrow
  exact ⟨_, List.getElem_mem _, part, hp, rfl⟩

theorem inside_of_plain (sound : m.Sound) (plain : m.shape.Plain) (below : d ≠ m.dim)
    {rows : List (List Int)} (h : m.vertexRows d = .ok rows) :
    ∀ row ∈ rows, ∀ v ∈ row, 0 ≤ v ∧ v < m.points := by
  obtain ⟨parts, admits, keys⟩ := vertexRows_of_plain sound plain below h
  intro row hrow v hv
  obtain ⟨cell, hcell, part, hpart, rfl⟩ := keys row hrow
  have places := admits.places_of_cell sound hcell hpart
  exact sound.inside_points hcell (Shape.mem_cell_of_mem_pickAt places (Shape.mem_keyOf.mp hv))

/-- Parts that are picked from cells have vertices that can be recorded. -/
theorem storable_of_plain (sound : m.Sound) (plain : m.shape.Plain) : m.Storable :=
  fun _ => not_overflows_of_inside fun _ below _ h => inside_of_plain sound plain below.ne h

end Mesh

end MeshIncidence
