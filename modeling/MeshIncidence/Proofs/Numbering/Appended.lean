import Mathlib
import MeshIncidence.Proofs.Mesh.Appended
import MeshIncidence.Proofs.Numbering.Repeats

/-!
Numbering more cells. A part is compared with the entities of earlier cells alone, so a numbering of more
cells goes through the first ones as a numbering of these goes, and the other cells add to what it has
found. Entities keep their numbers when cells are appended.
-/
namespace MeshIncidence

theorem modify_prefix {α : Type} {xs ys : List α} (h : xs <+: ys) (i : Nat) (f : α → α) :
    xs.modify i f <+: ys.modify i f := by
  obtain ⟨rest, rfl⟩ := h
  induction xs generalizing i with
  | nil => simp
  | cons x xs ih =>
    cases i with
    | zero => simp
    | succ i => simpa using ih i

namespace Numbering

variable {shape : Shape} {e : Expected} {n n' k' : Numbering} {count c : Nat}
  {touching touching' : List Int} {entry entry' : (List Int × List Int) × Nat}

/-- Only earlier cells are searched. -/
theorem find_below (n : Numbering) (c : Nat) (vertices touching : List Int) :
    n.find c vertices (Incidence.below c touching) = n.find c vertices touching := by
  induction touching with
  | nil => rfl
  | cons other rest ih =>
    by_cases later : (c : Int) ≤ other
    · have dropped : Incidence.below c (other :: rest) = Incidence.below c rest :=
        List.filter_cons_of_neg (by simpa using later)
      rw [dropped, ih, find, if_pos later]
    · have kept : Incidence.below c (other :: rest) = other :: Incidence.below c rest :=
        List.filter_cons_of_pos (by simpa using later)
      simp only [kept, find, if_neg later, ih]

/-- The numbering `n'` is of more cells and has found what `n` has found in the first `count` ones. -/
structure Padded (count : Nat) (n n' : Numbering) : Prop where
  length : n.cellEntities.length = count
  cells : n.cellEntities <+: n'.cellEntities
  vertices : n'.entityVertices = n.entityVertices

/-- The numbering `n'` has more cells and more entities, after those of `n`. -/
structure Extends (n n' : Numbering) : Prop where
  cells : n.cellEntities <+: n'.cellEntities
  vertices : n.entityVertices <+: n'.entityVertices

/-- The same cell of fewer and of more cells. Before it, the same cells are touched. -/
structure Alike (count : Nat) (entry entry' : (List Int × List Int) × Nat) : Prop where
  cell : entry'.1.1 = entry.1.1
  place : entry'.2 = entry.2
  inside : entry.2 < count
  nonneg : ∀ other ∈ entry.1.2, 0 ≤ other
  earlier : Incidence.below entry.2 entry'.1.2 = Incidence.below entry.2 entry.1.2

namespace Padded

theorem weaken (h : Padded count n n') : Extends n n' :=
  ⟨h.cells, h.vertices ▸ List.prefix_rfl⟩

theorem initial (cells more : Nat) :
    Padded cells (Numbering.initial cells) (Numbering.initial (cells + more)) where
  length := List.length_replicate
  cells := by
    rw [Numbering.initial, Numbering.initial, List.replicate_add]
    exact List.prefix_append _ _
  vertices := rfl

theorem assign (h : Padded count n n') (cell entity : Nat) :
    Padded count (n.assign cell entity) (n'.assign cell entity) where
  length := by
    rw [Numbering.assign, List.length_modify]
    exact h.length
  cells := modify_prefix h.cells _ _
  vertices := h.vertices

theorem extend (h : Padded count n n') (vertices : List Int) :
    Padded count (n.extend vertices) (n'.extend vertices) where
  length := h.length
  cells := h.cells
  vertices := congrArg (· ++ [vertices]) h.vertices

theorem find (h : Padded count n n') (hc : c ≤ count) (nonneg : ∀ other ∈ touching, 0 ≤ other)
    (vertices : List Int) : n'.find c vertices touching = n.find c vertices touching := by
  induction touching with
  | nil => rfl
  | cons other rest ih =>
    rw [List.forall_mem_cons] at nonneg
    rw [Numbering.find, Numbering.find, ih nonneg.2]
    split
    · rfl
    · rename_i earlier
      obtain ⟨i, rfl⟩ := Int.eq_ofNat_of_zero_le nonneg.1
      have hi : i < n.cellEntities.length := by rw [h.length]; omega
      have same : n'.cellEntities[i]? = n.cellEntities[i]? := by
        obtain ⟨rest, hrest⟩ := h.cells
        rw [← hrest, List.getElem?_append_left hi]
      simp only [Position.entry?_natCast, same, verticesOf, h.vertices]

theorem place (h : Padded count n n') (hc : c < count) (nonneg : ∀ other ∈ touching, 0 ≤ other)
    (earlier : Incidence.below c touching' = Incidence.below c touching) {part : List Int}
    (hk : n'.place c touching' part = .ok k') :
    ∃ k, n.place c touching part = .ok k ∧ Padded count k k' := by
  have search : ∀ vertices, n'.find c vertices touching' = n.find c vertices touching := by
    intro vertices
    rw [← find_below n' c vertices touching', earlier, find_below, h.find (by omega) nonneg]
  have counted : n'.count = n.count := congrArg List.length h.vertices
  simp only [Numbering.place, search, counted] at hk ⊢
  obtain ⟨found, hfound, hk⟩ := Outcome.bind_eq_ok.mp hk
  rw [hfound]
  cases found with
  | some entity =>
    cases hk
    exact ⟨_, rfl, h.assign c entity⟩
  | none =>
    cases hk
    exact ⟨_, rfl, (h.extend _).assign c _⟩

theorem visit (h : Padded count n n') (alike : Alike count entry entry')
    (hk : Numbering.visit shape e n' entry' = .ok k') :
    ∃ k, Numbering.visit shape e n entry = .ok k ∧ Padded count k k' := by
  obtain ⟨parts, split, number, hk⟩ := visit_eq_ok.mp hk
  rw [alike.cell] at split
  rw [alike.place] at hk
  have step : ∀ part part', part = part' → ∀ b b' c', Padded count b b' →
      placeChecked shape e entry.2 entry'.1.2 b' part' = .ok c' →
        ∃ c, placeChecked shape e entry.2 entry.1.2 b part = .ok c ∧ Padded count c c' := by
    rintro part _ rfl b b' c' hb hc
    obtain ⟨width, hc⟩ := placeChecked_eq_ok.mp hc
    obtain ⟨c, placed, padded⟩ := hb.place alike.inside alike.nonneg alike.earlier hc
    exact ⟨c, placeChecked_eq_ok.mpr ⟨width, placed⟩, padded⟩
  obtain ⟨k, hk, padded⟩ :=
    Outcome.foldlM_simulated step (List.forall₂_same.mpr fun _ _ => rfl) h hk
  exact ⟨k, visit_eq_ok.mpr ⟨parts, split, number, hk⟩, padded⟩

end Padded

namespace Extends

theorem assign (h : Extends n n') (later : n.cellEntities.length ≤ c) (entity : Nat) :
    Extends n (n'.assign c entity) where
  cells := by
    have kept := modify_prefix h.cells c fun entities => entities ++ [entity]
    rwa [List.modify_eq_self later] at kept
  vertices := h.vertices

theorem extend (h : Extends n n') (vertices : List Int) : Extends n (n'.extend vertices) where
  cells := h.cells
  vertices := h.vertices.trans (List.prefix_append _ _)

theorem place (h : Extends n n') (later : n.cellEntities.length ≤ c) {part : List Int}
    (hk : n'.place c touching part = .ok k') : Extends n k' := by
  obtain ⟨found, -, hk⟩ := Outcome.bind_eq_ok.mp hk
  cases found with
  | some entity =>
    cases hk
    exact h.assign later entity
  | none =>
    cases hk
    exact (h.extend _).assign later _

theorem visit (h : Extends n n') (later : n.cellEntities.length ≤ entry.2)
    (hk : Numbering.visit shape e n' entry = .ok k') : Extends n k' := by
  obtain ⟨parts, -, -, hk⟩ := visit_eq_ok.mp hk
  exact Outcome.foldlM_preserves
    (fun part _ b b' hb step => hb.place later (placeChecked_eq_ok.mp step).2) h hk

theorem cellRows (h : Extends n n') : n.cellRows <+: n'.cellRows := h.cells.map _

theorem fits (h : Extends n n') (fits : Incidence.fits n'.entityVertices = true) :
    Incidence.fits n.entityVertices = true :=
  Incidence.fits_iff.mpr fun row hrow => Incidence.fits_iff.mp fits row (h.vertices.subset hrow)

end Extends

/-- A numbering of more cells starts with a numbering of the first ones. -/
theorem ofCells_appended {cells more touching touching' : List (List Int)}
    (length : touching.length = cells.length)
    (length' : touching'.length = (cells ++ more).length)
    (nonneg : ∀ row ∈ touching, ∀ other ∈ row, 0 ≤ other)
    (earlier : ∀ c < cells.length,
      Incidence.below c (touching'.getD c []) = Incidence.below c (touching.getD c []))
    (hk : ofCells shape e (cells ++ more) touching' = .ok k') :
    ∃ k, ofCells shape e cells touching = .ok k ∧ Extends k k' := by
  have enough : cells.length ≤ touching'.length := by
    rw [length', List.length_append]
    omega
  have parted : ((cells ++ more).zip touching').zipIdx =
      (cells.zip (touching'.take cells.length)).zipIdx ++
        (more.zip (touching'.drop cells.length)).zipIdx cells.length := by
    conv_lhs => rw [← List.take_append_drop cells.length touching']
    rw [List.zip_append (by simp [enough]), List.zipIdx_append]
    simp [enough]
  have alike : List.Forall₂ (Alike cells.length) (cells.zip touching).zipIdx
      (cells.zip (touching'.take cells.length)).zipIdx := by
    rw [List.forall₂_iff_get]
    refine ⟨by simp [length, enough], fun c h h' => ?_⟩
    have hc : c < cells.length := by
      simp only [List.length_zipIdx, List.length_zip] at h
      omega
    have row := earlier c hc
    rw [List.getD_eq_getElem _ _ (by omega), List.getD_eq_getElem _ _ (by omega)] at row
    simp only [List.get_eq_getElem, List.getElem_zipIdx, List.getElem_zip, List.getElem_take,
      Nat.zero_add]
    exact ⟨rfl, rfl, hc, nonneg _ (List.getElem_mem _), row⟩
  rw [ofCells, parted, List.foldlM_append, List.length_append] at hk
  obtain ⟨middle, first, last⟩ := Outcome.bind_eq_ok.mp hk
  obtain ⟨k, hk, padded⟩ := Outcome.foldlM_simulated
    (fun _ _ alike _ _ _ padded step => padded.visit alike step) alike (Padded.initial _ _) first
  refine ⟨k, hk, Outcome.foldlM_preserves (P := Extends k) (fun entry there b b' hb step => ?_)
    padded.weaken last⟩
  refine hb.visit ?_ step
  rw [padded.length]
  exact List.le_snd_of_mem_zipIdx there

end Numbering

namespace Mesh

variable {m other : Mesh} {d : Int} {s t : Store} {more : List (List Int)} {touching : List (List Int)}

/-- Appended cells are numbered after the cells that were there. -/
theorem numbering_appended (shape : other.shape = m.shape) (appended : other.cells = m.cells ++ more)
    (ht : m.touching = .ok touching) {k' : Numbering} (hk : other.numbering d = .ok k') :
    ∃ k, m.numbering d = .ok k ∧ k.Extends k' := by
  obtain ⟨touching', ht', hk⟩ := Outcome.bind_eq_ok.mp hk
  obtain ⟨e, he, hk⟩ := Outcome.bind_eq_ok.mp hk
  rw [shape] at he hk
  have length' := length_touching ht'
  rw [appended] at hk length'
  have earlier : ∀ c < m.cells.length, Incidence.below c (touching'.getD c []) =
      Incidence.below c (touching.getD c []) := by
    intro c hc
    rw [← below_touching appended ht ht' hc, Incidence.below_below (by omega)]
  obtain ⟨k, hk, extends'⟩ := Numbering.ofCells_appended (length_touching ht) length'
    (fun row hrow other => nonneg_of_mem_touching ht hrow) earlier hk
  exact ⟨k, by rw [numbering, ht, Outcome.ok_bind, he, Outcome.ok_bind, hk], extends'⟩

/-- Let cells be appended to those of a mesh, with any number of vertices. If the entities of a dimension
between that of the vertices and that of the cells are found for all cells, they are found for the first ones,
in any stores that demands lead to. The vertices of these entities come first among the vertices of all, and
the first cells have the same entities in either mesh. -/
theorem appending_keeps_numbers (accepted : m.Accepted) (accepted' : other.Accepted)
    (shape : other.shape = m.shape) (appended : other.cells = m.cells ++ more)
    (small : m.pointCount + 1 < Word.bound) (above : 0 < d) (below : d < m.dim)
    (reached : m.Reaches s) (reached' : other.Reaches t) {n' : Nat}
    (found' : ((Resolution.entities other.shape d).run t).1 = .ok n') :
    let ended := (Resolution.entities m.shape d).run s
    let ended' := (Resolution.entities other.shape d).run t
    ∃ n, ended.1 = .ok n ∧ ∃ vertices vertices' numbers numbers',
      ended.2.store.relation? d 0 = some (Incidence.ofRows vertices) ∧ vertices.length = n ∧
      ended'.2.store.relation? d 0 = some (Incidence.ofRows vertices') ∧ vertices'.length = n' ∧
      vertices <+: vertices' ∧
      ended.2.store.relation? m.dim d = some (Incidence.ofRows numbers) ∧
      ended'.2.store.relation? m.dim d = some (Incidence.ofRows numbers') ∧
      numbers = numbers'.take m.cells.length := by
  intro ended ended'
  have dims : other.dim = m.dim := congrArg Shape.dim shape
  have counts : Resolution.Counts m _ d ⟨s, []⟩ ended := reached.counts accepted d
  have counts' : Resolution.Counts other _ d ⟨t, []⟩ ended' := reached'.counts accepted' d
  obtain ⟨fine', count'⟩ := entitiesOf_eq_ok.mp (counts'.outcome.symm.trans found')
  obtain ⟨k', hk', rfl⟩ := exists_numbering ⟨above, dims ▸ below⟩ count'
  obtain ⟨touching, ht⟩ := accepted.sound.touching_exists small
  obtain ⟨k, hk, extends'⟩ := numbering_appended shape appended ht hk'
  have count : m.countOf d = .ok k.count := by
    rw [countOf_between above below, hk, Outcome.map_ok]
  have fine : ¬ m.Overflows d := by
    rw [overflows_iff above (dims ▸ below) hk', Bool.not_eq_false] at fine'
    simp [overflows_iff above below hk, extends'.fits fine']
  have found : ended.1 = .ok k.count := counts.outcome.trans (entitiesOf_eq_ok.mpr ⟨fine, count⟩)
  obtain ⟨hvertices, hnumbers⟩ :=
    counts.leads.faithful.relations_of_numbering above below hk ⟨counts.recorded count, fine⟩
  obtain ⟨hvertices', hnumbers'⟩ := counts'.leads.faithful.relations_of_numbering above
    (dims ▸ below) hk' ⟨counts'.recorded count', fine'⟩
  refine ⟨k.count, found, k.entityVertices, k'.entityVertices, k.cellRows, k'.cellRows, hvertices,
    rfl, hvertices', rfl, extends'.vertices, hnumbers, dims ▸ hnumbers', ?_⟩
  rw [← length_cellRows_numbering hk]
  exact List.prefix_iff_eq_take.mp extends'.cellRows

/-- The two folded triangles and a third one that touches both, with vertices that no triangle has. -/
def foldedFurther : Mesh :=
  ⟨folded.shape, [[0, 1, 2], [1, 2, 3], [3, 1, 0]], 6,
    ⟨2, [(0, 6), (2, 3)], [((2, 0), Incidence.ofRows [[0, 1, 2], [1, 2, 3], [3, 1, 0]])]⟩⟩

/-- The first edge of a folded triangle is numbered twice, and it keeps both numbers. -/
theorem appending_keeps_numbers_folded :
    let ended := (Resolution.entities folded.shape 1).run folded.store
    let ended' := (Resolution.entities foldedFurther.shape 1).run foldedFurther.store
    folded.Accepted ∧ foldedFurther.Accepted ∧ foldedFurther.shape = folded.shape ∧
      foldedFurther.cells = folded.cells ++ [[3, 1, 0]] ∧ folded.pointCount + 1 < Word.bound ∧
      (0 : Int) < 1 ∧ 1 < folded.dim ∧ folded.Reaches folded.store ∧
      foldedFurther.Reaches foldedFurther.store ∧ ended'.1 = .ok 6 ∧
      ∃ n, ended.1 = .ok n ∧ ∃ vertices vertices' numbers numbers',
        ended.2.store.relation? 1 0 = some (Incidence.ofRows vertices) ∧ vertices.length = n ∧
        ended'.2.store.relation? 1 0 = some (Incidence.ofRows vertices') ∧ vertices'.length = 6 ∧
        vertices <+: vertices' ∧
        ended.2.store.relation? 2 1 = some (Incidence.ofRows numbers) ∧
        ended'.2.store.relation? 2 1 = some (Incidence.ofRows numbers') ∧
        numbers = numbers'.take 2 := by
  have found' : ((Resolution.entities foldedFurther.shape 1).run foldedFurther.store).1 = .ok 6 := by
    cbv
  intro ended ended'
  have accepted : foldedFurther.Accepted :=
    ⟨Registry.builtin, ⟨[3, 3], .word, [0, 1, 2, 1, 2, 3, 3, 1, 0]⟩, .given folded.shape, some 6, rfl,
      rfl⟩
  have reached : folded.Reaches folded.store := ⟨[], rfl⟩
  have reached' : foldedFurther.Reaches foldedFurther.store := ⟨[], rfl⟩
  exact ⟨folded_accepted, accepted, rfl, rfl, by decide, by decide, by decide, reached, reached', found',
    appending_keeps_numbers folded_accepted accepted rfl rfl (by decide) (by decide) (by decide) reached
      reached' found'⟩

end Mesh

end MeshIncidence
