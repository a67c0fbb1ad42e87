import Mathlib
import MeshIncidence.Proofs.Audit.Findings
import MeshIncidence.Proofs.Resolution.Rows
import MeshIncidence.Proofs.Resolution.Vertices

/-!
Faces of simplices. The parts of a simplex are all subsets of its vertices, so in a mesh of simplices
every subset of a cell of the right size is the vertices of one entity, and of one only. The row of an
entity is the list of the entities whose vertices it has, and there are as many as there are subsets.
-/
namespace MeshIncidence

/-- The ascending lists of vertices of a cell are the keys of its parts. -/
theorem Shape.mem_keysOf_simplex {dim d : Int} {cell key : List Int} (hcell : cell.Nodup)
    (width : cell.length = (dim + 1).toNat) :
    key ∈ Numbering.keysOf (choices (d + 1).toNat (corners dim)) cell ↔
      key.Pairwise (· < ·) ∧ key.length = (d + 1).toNat ∧ ∀ v ∈ key, v ∈ cell := by
  have places : ∀ {part : List Int}, part.Sublist (corners dim) → ∀ i ∈ part, 0 ≤ i ∧ i < cell.length := by
    intro part hp i hi
    have := mem_corners.mp (hp.subset hi)
    omega
  have ascends : ∀ {part : List Int}, part.Sublist (corners dim) → (pickAt cell part).Nodup :=
    fun hp => nodup_pickAt hcell
      (((pairwise_corners dim).sublist hp).imp fun h => ne_of_lt h) (places hp)
  constructor
  · intro h
    obtain ⟨part, hp, rfl⟩ := List.mem_map.mp h
    obtain ⟨sub, length⟩ := mem_choices.mp hp
    refine ⟨VertexList.pairwise_lt_ascending (ascends sub), ?_, fun v hv => ?_⟩
    · rw [keyOf, VertexList.length_ascending, pickAt, List.length_map, length]
    · exact mem_cell_of_mem_pickAt (places sub) (VertexList.mem_ascending.mp hv)
  · intro h
    rcases h with ⟨strict, length, within⟩
    -- The part consists of the places whose vertices are in the key.
    let part := (corners dim).filter fun i => decide (cell.getD i.toNat 0 ∈ key)
    have sub : part.Sublist (corners dim) := List.filter_sublist
    have same : keyOf cell part = key := by
      refine List.Pairwise.eq_of_mem_iff (VertexList.pairwise_lt_ascending (ascends sub)) strict
        fun v => ?_
      rw [keyOf, VertexList.mem_ascending, pickAt, List.mem_map]
      constructor
      · intro h
        rcases h with ⟨i, hi, rfl⟩
        simpa using (List.mem_filter.mp hi).2
      · intro hv
        obtain ⟨i, hi, rfl⟩ := List.mem_iff_getElem.mp (within v hv)
        have at_place : cell.getD (i : Int).toNat 0 = cell[i] := by
          rw [Int.toNat_natCast, List.getD_eq_getElem _ _ hi]
        refine ⟨(i : Int), List.mem_filter.mpr ⟨mem_corners.mpr (by omega), ?_⟩, at_place⟩
        rw [decide_eq_true_eq, at_place]
        exact hv
    refine List.mem_map.mpr ⟨part, mem_choices.mpr ⟨sub, ?_⟩, same⟩
    rw [← length, ← same, keyOf, VertexList.length_ascending, pickAt, List.length_map]

namespace Mesh

variable {m : Mesh} {D d d0 d1 : Int} {rows : List (List Int)}

theorem length_of_simplex (sound : m.Sound) (simplicial : m.shape = Shape.simplex D)
    {cell : List Int} (hcell : cell ∈ m.cells) : cell.length = (D + 1).toNat := by
  obtain ⟨n, hn, -, width⟩ := sound.width
  have positive := sound.positive
  rw [dim_of_simplex simplicial] at positive
  rw [simplicial, Shape.vertexCount_simplex (by omega)] at hn
  rw [width cell hcell, ← Except.ok.inj hn]

/-- The vertices of an entity below the cells are all that a key of a cell can be. -/
theorem mem_vertexRows_simplex (sound : m.Sound) (simplicial : m.shape = Shape.simplex D)
    (above : 0 < d) (below : d < D) (h : m.vertexRows d = .ok rows) {key : List Int} :
    key ∈ rows ↔ key.Pairwise (· < ·) ∧ key.length = (d + 1).toNat ∧
      ∃ cell ∈ m.cells, ∀ v ∈ key, v ∈ cell := by
  have regular : m.shape.Regular d (Shape.choices (d + 1).toNat (Shape.corners D)) := by
    rw [simplicial]
    exact Shape.regular_simplex (by omega) (by omega)
  have hdim := dim_of_simplex simplicial
  have keys_of : ∀ cell ∈ m.cells,
      (key ∈ Numbering.keysOf (Shape.choices (d + 1).toNat (Shape.corners D)) cell ↔
        key.Pairwise (· < ·) ∧ key.length = (d + 1).toNat ∧ ∀ v ∈ key, v ∈ cell) :=
    fun cell hcell => Shape.mem_keysOf_simplex (sound.nodup cell hcell)
      (length_of_simplex sound simplicial hcell)
  rw [vertexRows_below sound regular (by omega) h, List.mem_eraseDups, mem_keys]
  constructor
  · intro h
    rcases h with ⟨cell, hcell, hkey⟩
    obtain ⟨strict, length, within⟩ := (keys_of cell hcell).mp hkey
    exact ⟨strict, length, cell, hcell, within⟩
  · intro h
    rcases h with ⟨strict, length, cell, hcell, within⟩
    exact ⟨cell, hcell, (keys_of cell hcell).mpr ⟨strict, length, within⟩⟩

/-- Faces have vertices, each once, as many as the dimension says. -/
theorem card_of_face (sound : m.Sound) (simplicial : m.shape = Shape.simplex D) (nonneg : 0 ≤ d)
    (below : d ≤ D) (h : m.faces d = .ok rows) {row : List Int} (hrow : row ∈ rows) :
    row.Nodup ∧ row.toFinset.card = (d + 1).toNat := by
  have hdim := dim_of_simplex simplicial
  suffices row.Nodup ∧ row.length = (d + 1).toNat from
    ⟨this.1, by simp [List.toFinset_card_of_nodup this.1, this.2]⟩
  unfold faces at h
  split at h
  · rename_i zero
    cases h
    obtain ⟨v, -, rfl⟩ := List.mem_map.mp hrow
    exact ⟨List.nodup_singleton _, by rw [zero]; rfl⟩
  rename_i above
  by_cases top : d = D
  · rw [vertexRows, if_pos (by omega)] at h
    cases h
    exact ⟨sound.nodup row hrow, by simp [length_of_simplex sound simplicial hrow, top]⟩
  · have := (mem_vertexRows_simplex sound simplicial (by omega) (by omega) h).mp hrow
    exact ⟨this.1.imp fun hlt => ne_of_lt hlt, this.2.1⟩

/-- Faces below the cells differ in their vertices. -/
theorem faces_inj (sound : m.Sound) (simplicial : m.shape = Shape.simplex D) (below : d < D)
    (nonneg : 0 ≤ d) (h : m.faces d = .ok rows) {i j : Nat} (hi : i < rows.length)
    (hj : j < rows.length) (same : rows[i].toFinset = rows[j].toFinset) : i = j := by
  unfold faces at h
  split at h
  · cases h
    simpa using same
  · rename_i above
    have hdim := dim_of_simplex simplicial
    have different : Different rows :=
      vertices_differ sound (wellFormed_of_simplex simplicial) (by omega) (by omega) h
    exact different.eq_of_toFinset hi hj same

/-- Every subset of a cell of the right size is a face. -/
theorem exists_face (sound : m.Sound) (simplicial : m.shape = Shape.simplex D) (below : d < D)
    (nonneg : 0 ≤ d) (h : m.faces d = .ok rows) {cell : List Int} (hcell : cell ∈ m.cells)
    {vertices : Finset Int} (within : vertices ⊆ cell.toFinset)
    (size : vertices.card = (d + 1).toNat) :
    ∃ i, ∃ hi : i < rows.length, rows[i].toFinset = vertices := by
  unfold faces at h
  split at h
  · rename_i zero
    cases h
    obtain ⟨v, rfl⟩ := Finset.card_eq_one.mp (size.trans (by rw [zero]; rfl))
    have hv := List.mem_toFinset.mp (within (Finset.mem_singleton_self v))
    obtain ⟨h0, h1⟩ := sound.inside_points hcell hv
    exact ⟨v.toNat, by simp; omega, by simp [h0]⟩
  · rename_i above
    have key : VertexList.ascending vertices.toList ∈ rows := by
      refine (mem_vertexRows_simplex sound simplicial (by omega) below h).mpr
        ⟨VertexList.pairwise_lt_ascending (Finset.nodup_toList _), ?_, cell, hcell, fun v hv => ?_⟩
      · rw [VertexList.length_ascending, Finset.length_toList, size]
      · exact List.mem_toFinset.mp (within (Finset.mem_toList.mp (VertexList.mem_ascending.mp hv)))
    obtain ⟨i, hi, hrow⟩ := List.mem_iff_getElem.mp key
    refine ⟨i, hi, ?_⟩
    ext v
    rw [hrow, List.mem_toFinset, VertexList.mem_ascending, Finset.mem_toList]

/-- Cells included, every subset of a cell of the right size is the vertices of an entity. -/
theorem exists_entity (sound : m.Sound) (simplicial : m.shape = Shape.simplex D) (below : d ≤ D)
    (nonneg : 0 ≤ d) (h : m.faces d = .ok rows) {cell : List Int} (hcell : cell ∈ m.cells)
    {vertices : Finset Int} (within : vertices ⊆ cell.toFinset)
    (size : vertices.card = (d + 1).toNat) : ∃ row ∈ rows, row.toFinset = vertices := by
  by_cases top : d = D
  · have positive := sound.positive
    have hdim := dim_of_simplex simplicial
    rw [faces, if_neg (by omega), vertexRows, if_pos (by omega)] at h
    cases h
    refine ⟨cell, hcell, (Finset.eq_of_subset_of_card_le within ?_).symm⟩
    rw [size, List.toFinset_card_of_nodup (sound.nodup cell hcell),
      length_of_simplex sound simplicial hcell, top]
  · obtain ⟨i, hi, hrow⟩ :=
      exists_face sound simplicial (by omega) nonneg h hcell within size
    exact ⟨rows[i], List.getElem_mem hi, hrow⟩

/-- The row of an entity: the faces whose vertices it has, each once. -/
structure Lists (faces : List (List Int)) (whole row : List Int) : Prop where
  nodup : row.Nodup
  mem : ∀ e, e ∈ row ↔ ∃ i, ∃ hi : i < faces.length, e = (i : Int) ∧ ∀ v ∈ faces[i], v ∈ whole

/-- A cell has its parts in its row by the places of their keys. -/
theorem lists_places {faces : List (List Int)} {cell : List Int} {keys : List (List Int)}
    (different : keys.Nodup) (known : ∀ key ∈ keys, key ∈ faces) (nodup : faces.Nodup)
    (mem : ∀ key ∈ faces, (key ∈ keys ↔ ∀ v ∈ key, v ∈ cell)) :
    Lists faces cell ((Numbering.places faces keys).map Int.ofNat) := by
  constructor
  · exact (Numbering.nodup_places different known).map fun _ _ same => Int.ofNat.inj same
  · intro e
    rw [Numbering.places, List.map_map, List.mem_map]
    constructor
    · intro h
      rcases h with ⟨key, hkey, rfl⟩
      have hlt := List.idxOf_lt_length_of_mem (known key hkey)
      refine ⟨faces.idxOf key, hlt, rfl, ?_⟩
      rw [List.getElem_idxOf]
      exact (mem key (known key hkey)).mp hkey
    · intro h
      rcases h with ⟨i, hi, rfl, within⟩
      refine ⟨faces[i], (mem _ (List.getElem_mem hi)).mpr within, ?_⟩
      simp [Function.comp_apply, nodup.idxOf_getElem]

/-- The vertices of an entity are parts of it. -/
theorem lists_vertices {whole : List Int} {n : Nat} (nodup : whole.Nodup)
    (inside : ∀ v ∈ whole, 0 ≤ v ∧ v < n) :
    Lists ((List.range n).map fun v : Nat => [(v : Int)]) whole whole := by
  refine ⟨nodup, fun e => ?_⟩
  simp only [List.length_map, List.length_range, List.getElem_map, List.getElem_range,
    List.mem_singleton, forall_eq, exists_prop]
  constructor
  · intro he
    have := inside e he
    exact ⟨e.toNat, by omega, by omega, by rwa [Int.toNat_of_nonneg this.1]⟩
  · intro h
    rcases h with ⟨i, -, rfl, hi⟩
    exact hi

/-- A cell has its parts in its row as the numbering gives them. -/
theorem lists_cellRows (sound : m.Sound) (simplicial : m.shape = Shape.simplex D) (above : 0 < d)
    (below : d < D) {faces found : List (List Int)} (hp : m.vertexRows d = .ok faces)
    (h : m.cellRows d = .ok found) : List.Forall₂ (Lists faces) m.cells found := by
  have hdim := dim_of_simplex simplicial
  have regular : m.shape.Regular d (Shape.choices (d + 1).toNat (Shape.corners D)) := by
    rw [simplicial]
    exact Shape.regular_simplex (by omega) (by omega)
  have hfaces := vertexRows_below sound regular (by omega) hp
  rw [cellRows_below sound regular (by omega) h, List.forall₂_map_right_iff, List.forall₂_same]
  intro cell hcell
  have width := length_of_simplex sound simplicial hcell
  have member : ∀ {key : List Int},
      key ∈ Numbering.keysOf (Shape.choices (d + 1).toNat (Shape.corners D)) cell ↔
        key.Pairwise (· < ·) ∧ key.length = (d + 1).toNat ∧ ∀ v ∈ key, v ∈ cell :=
    Shape.mem_keysOf_simplex (sound.nodup cell hcell) width
  rw [← hfaces]
  refine lists_places ?_ (fun key hkey => ?_) (hfaces ▸ nodup_eraseDups _) fun key hkey => ?_
  · exact regular.nodup_keys (sound.vertexCount hcell) (sound.nodup cell hcell)
  · obtain ⟨strict, length, within⟩ := member.mp hkey
    exact (mem_vertexRows_simplex sound simplicial above below hp).mpr
      ⟨strict, length, cell, hcell, within⟩
  · obtain ⟨strict, length, -⟩ := (mem_vertexRows_simplex sound simplicial above below hp).mp hkey
    exact ⟨fun hk => (member.mp hk).2.2, fun within => member.mpr ⟨strict, length, within⟩⟩

/-- An entity has its parts in its row, whichever way the row was found. -/
theorem lists_fallingRows (sound : m.Sound) (simplicial : m.shape = Shape.simplex D)
    (nonneg : 0 ≤ d1) (falling : d1 < d0) (below : d0 ≤ D) {wholes faces found : List (List Int)}
    (hw : m.vertexRows d0 = .ok wholes) (hp : m.faces d1 = .ok faces)
    (h : m.fallingRows d0 d1 = .ok found) : List.Forall₂ (Lists faces) wholes found := by
  have hdim := dim_of_simplex simplicial
  have wellFormed := wellFormed_of_simplex simplicial
  have inside := fun {row} (hrow : row ∈ wholes) v (hv : v ∈ row) =>
    inside_of_entity sound wellFormed (by omega) (by omega) hw hrow hv
  unfold fallingRows at h
  by_cases zero : d1 = 0
  · rw [if_pos zero, if_neg (by omega), hw] at h
    rw [Mesh.faces, if_pos zero] at hp
    cases h
    cases hp
    refine List.forall₂_same.mpr fun row hrow => lists_vertices ?_ (inside hrow)
    exact (vertices_of_entity sound wellFormed (by omega) (by omega) hw hrow).2.1
  rw [if_neg zero] at h
  rw [Mesh.faces, if_neg zero] at hp
  by_cases top : d0 = D
  · rw [if_pos ⟨by omega, by omega⟩] at h
    rw [vertexRows, if_pos (by omega)] at hw
    cases hw
    exact lists_cellRows sound simplicial (by omega) (by omega) hp h
  · rw [if_neg (by omega)] at h
    rw [throughVertices_eq sound wellFormed (by omega) (by omega) (by omega) hw hp h,
      if_neg (by omega), List.forall₂_map_right_iff, List.forall₂_same]
    refine fun whole hwhole => ⟨nodup_eraseDups _, fun e => ?_⟩
    refine mem_partsOf (inside hwhole) fun row hrow => ?_
    exact (vertices_of_entity sound wellFormed (by omega) (by omega) hp hrow).1

/-- What is listed is there, and is contained. -/
theorem Lists.mem_natCast {faces : List (List Int)} {whole row : List Int}
    (h : Lists faces whole row) {e : Nat} (he : e < faces.length) :
    (e : Int) ∈ row ↔ ∀ v ∈ faces[e], v ∈ whole := by
  rw [h.mem]
  constructor
  · intro h
    rcases h with ⟨i, hi, same, sub⟩
    have : e = i := by omega
    subst this
    exact sub
  · exact fun sub => ⟨e, he, rfl, sub⟩

theorem Lists.lt_of_mem {faces : List (List Int)} {whole row : List Int}
    (h : Lists faces whole row) {e : Nat} (he : (e : Int) ∈ row) : e < faces.length := by
  obtain ⟨i, hi, same, -⟩ := (h.mem _).mp he
  omega

/-- A row lists every subset of the right size once. -/
theorem existsUnique_listed (sound : m.Sound) (simplicial : m.shape = Shape.simplex D)
    (nonneg : 0 ≤ d1) (below : d1 < D) {faces : List (List Int)} (hp : m.faces d1 = .ok faces)
    {cell whole row : List Int} (hcell : cell ∈ m.cells) (within : ∀ v ∈ whole, v ∈ cell)
    (h : Lists faces whole row) {vertices : Finset Int} (sub : vertices ⊆ whole.toFinset)
    (size : vertices.card = (d1 + 1).toNat) :
    ∃! e : Nat, (e : Int) ∈ row ∧ ∃ he : e < faces.length, faces[e].toFinset = vertices := by
  have in_whole : ∀ v ∈ vertices, v ∈ whole := fun v hv => List.mem_toFinset.mp (sub hv)
  have in_cell : vertices ⊆ cell.toFinset := fun v hv =>
    List.mem_toFinset.mpr (within v (in_whole v hv))
  obtain ⟨e, he, hface⟩ := exists_face sound simplicial below nonneg hp hcell in_cell size
  refine ⟨e, ⟨(h.mem_natCast he).mpr fun v hv => in_whole v ?_, he, hface⟩, ?_⟩
  · rw [← hface]
    exact List.mem_toFinset.mpr hv
  · rintro e' ⟨-, he', hface'⟩
    exact faces_inj sound simplicial below nonneg hp he' he (hface'.trans hface.symm)

/-- A row has an entry for every subset of the right size. -/
theorem length_of_lists (sound : m.Sound) (simplicial : m.shape = Shape.simplex D)
    (nonneg : 0 ≤ d1) (below : d1 < D) {faces : List (List Int)} (hp : m.faces d1 = .ok faces)
    {cell whole row : List Int} (hcell : cell ∈ m.cells) (within : ∀ v ∈ whole, v ∈ cell)
    (h : Lists faces whole row) :
    row.length = whole.toFinset.card.choose (d1 + 1).toNat := by
  rw [← List.toFinset_card_of_nodup h.nodup, ← Finset.card_powersetCard]
  refine Finset.card_bij (fun e _ => (Derivation.rowAt faces e).toFinset) ?_ ?_ ?_
  · intro e he
    obtain ⟨i, hi, rfl, sub⟩ := (h.mem e).mp (List.mem_toFinset.mp he)
    rw [Derivation.rowAt_natCast hi, Finset.mem_powersetCard]
    refine ⟨fun v hv => List.mem_toFinset.mpr (sub v (List.mem_toFinset.mp hv)), ?_⟩
    exact (card_of_face sound simplicial nonneg (by omega) hp (List.getElem_mem hi)).2
  · intro e he e' he' same
    obtain ⟨i, hi, rfl, -⟩ := (h.mem e).mp (List.mem_toFinset.mp he)
    obtain ⟨j, hj, rfl, -⟩ := (h.mem e').mp (List.mem_toFinset.mp he')
    rw [Derivation.rowAt_natCast hi, Derivation.rowAt_natCast hj] at same
    rw [faces_inj sound simplicial below nonneg hp hi hj same]
  · intro vertices hvertices
    obtain ⟨sub, size⟩ := Finset.mem_powersetCard.mp hvertices
    obtain ⟨i, ⟨hin, hi, hface⟩, -⟩ :=
      existsUnique_listed sound simplicial nonneg below hp hcell within h sub size
    refine ⟨(i : Int), List.mem_toFinset.mpr hin, ?_⟩
    rw [Derivation.rowAt_natCast hi, hface]

end Mesh

end MeshIncidence
