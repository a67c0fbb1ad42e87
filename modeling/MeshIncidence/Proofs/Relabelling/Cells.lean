import Mathlib
import MeshIncidence.Proofs.Mesh.Replacement
import MeshIncidence.Proofs.Resolution.Existence
import MeshIncidence.Proofs.Resolution.Membership

/-!
Cells in another order. Entities get other numbers, but an entity keeps its vertices, and what a row
lists depends on the vertices alone. So the numbers of each dimension are permuted, and all relations
with them.
-/
namespace MeshIncidence

/-- Rows listed in two orders. -/
structure Matches (rows rows' : List (List Int)) (f : Nat → Nat) : Prop where
  length : rows'.length = rows.length
  bij : Set.BijOn f (Set.Iio rows.length) (Set.Iio rows.length)
  same : ∀ i, i < rows.length → rows'.getD (f i) [] = rows.getD i []

namespace Matches

variable {rows rows' : List (List Int)} {f : Nat → Nat}

theorem lt (h : Matches rows rows' f) {i : Nat} (hi : i < rows.length) : f i < rows'.length := by
  rw [h.length]
  exact h.bij.mapsTo hi

theorem getElem (h : Matches rows rows' f) {i : Nat} (hi : i < rows.length)
    (hk : f i < rows'.length) : rows'[f i] = rows[i] := by
  simpa [hi, hk] using h.same i hi

theorem eq_iff (h : Matches rows rows' f) {i j : Nat} (hi : i < rows.length)
    (hj : j < rows.length) : f i = f j ↔ i = j :=
  h.bij.injOn.eq_iff hi hj

theorem refl (rows : List (List Int)) : Matches rows rows id :=
  ⟨rfl, Set.bijOn_id _, fun _ _ => rfl⟩

/-- Different rows in another order are found by their places. -/
theorem of_perm (perm : rows'.Perm rows) (nodup : rows.Nodup) :
    Matches rows rows' fun i => rows'.idxOf (rows.getD i []) := by
  have known : ∀ {i : Nat}, ∀ hi : i < rows.length, rows[i] ∈ rows' := fun hi =>
    perm.mem_iff.mpr (List.getElem_mem hi)
  refine ⟨perm.length_eq, ⟨fun i hi => ?_, fun i hi j hj same => ?_, fun k hk => ?_⟩,
    fun i hi => ?_⟩
  · have hi : i < rows.length := hi
    simp only [Set.mem_Iio, List.getD_eq_getElem _ _ hi, ← perm.length_eq]
    exact List.idxOf_lt_length_of_mem (known hi)
  · have hi : i < rows.length := hi
    have hj : j < rows.length := hj
    simp only [List.getD_eq_getElem _ _ hi, List.getD_eq_getElem _ _ hj] at same
    exact (nodup.getElem_inj_iff).mp ((List.idxOf_inj (known hi)).mp same)
  · have hk : k < rows'.length := by rw [perm.length_eq]; exact hk
    obtain ⟨i, hi, row⟩ := List.mem_iff_getElem.mp (perm.mem_iff.mp (List.getElem_mem hk))
    refine ⟨i, hi, ?_⟩
    simp only [List.getD_eq_getElem _ _ hi, row]
    exact (perm.nodup_iff.mpr nodup).idxOf_getElem k hk
  · have place := List.idxOf_lt_length_of_mem (known hi)
    simp [hi, place]

end Matches

namespace Mesh

variable {m other : Mesh} {d : Int} {s t : Store} {f : Int → Nat → Nat}

/-- The mesh with its cells in another order: each cell is moved to the place that `p` gives it. -/
def permuted (m : Mesh) (p : Equiv.Perm (Fin m.cells.length)) : Mesh :=
  m.withCells (List.ofFn fun c => m.cells.get (p.symm c))

/-- The place to which a cell is moved. -/
def moved {n : Nat} (p : Equiv.Perm (Fin n)) (c : Nat) : Nat := if h : c < n then p ⟨c, h⟩ else c

theorem cells_permuted_perm (p : Equiv.Perm (Fin m.cells.length)) :
    (m.permuted p).cells.Perm m.cells := by
  have := Equiv.Perm.ofFn_comp_perm p.symm m.cells.get
  rwa [List.ofFn_get] at this

theorem matches_moved (p : Equiv.Perm (Fin m.cells.length)) :
    Matches m.cells (m.permuted p).cells (moved p) := by
  have inside : ∀ {c : Nat} (hc : c < m.cells.length), moved p c = p ⟨c, hc⟩ := fun hc => dif_pos hc
  refine ⟨(cells_permuted_perm p).length_eq, ⟨fun c hc => ?_, fun a ha b hb same => ?_, fun c hc => ?_⟩,
    fun c hc => ?_⟩
  · simp only [Set.mem_Iio, inside hc, Fin.is_lt]
  · rw [inside ha, inside hb] at same
    exact Fin.mk.inj (p.injective (Fin.ext same))
  · refine ⟨p.symm ⟨c, hc⟩, Fin.is_lt _, ?_⟩
    rw [inside (Fin.is_lt _)]
    simp
  · rw [inside hc, List.getD_eq_getElem _ _ hc]
    simp [permuted, withCells]

theorem suits_permuted (sound : m.Sound) (p : Equiv.Perm (Fin m.cells.length)) :
    m.Suits (m.permuted p).cells := by
  have suits := sound.suits
  have old : ∀ {cell}, cell ∈ (m.permuted p).cells → cell ∈ m.cells :=
    fun h => (cells_permuted_perm p).mem_iff.mp h
  exact ⟨fun k hk cell hc => suits.width k hk cell (old hc), fun cell hc => suits.inside cell (old hc),
    fun cell hc => suits.nodup cell (old hc)⟩

/-- What is incident does not depend on the order of the cells. -/
theorem incident_congr (shape : other.shape = m.shape) (cells : other.cells.Perm m.cells)
    {d0 d1 : Int} {e0 e1 k0 k1 : Nat} (number : d0 = d1 → (k1 = k0 ↔ e1 = e0)) (whole part : List Int) :
    other.Incident d0 d1 k0 k1 whole part ↔ m.Incident d0 d1 e0 e1 whole part := by
  unfold Incident
  rw [dim, shape, ← dim]
  by_cases same : d0 = d1
  · simp [same, number same, cells.mem_iff]
  · simp [same]

/-- The same entities are found in whichever order the cells are walked. -/
theorem vertexRows_perm (sound : m.Sound) (sound' : other.Sound) (shape : other.shape = m.shape)
    (cells : other.cells.Perm m.cells) (wellFormed : m.WellFormed) (above : 0 < d) (below : d < m.dim)
    {rows rows' : List (List Int)} (h : m.vertexRows d = .ok rows) (h' : other.vertexRows d = .ok rows') :
    rows'.Perm rows ∧ rows.Nodup := by
  obtain ⟨parts, regular⟩ := wellFormed d above below
  have below' : d ≠ other.dim := by
    rw [dim, shape]
    exact ne_of_lt below
  rw [vertexRows_below sound regular (ne_of_lt below) h,
    vertexRows_below sound' (shape ▸ regular) below' h']
  refine ⟨?_, nodup_eraseDups _⟩
  rw [List.perm_ext_iff_of_nodup (nodup_eraseDups _) (nodup_eraseDups _)]
  intro key
  simp only [List.mem_eraseDups, mem_keys, cells.mem_iff]

/-- The entities of each dimension correspond. -/
theorem exists_matches (sound : m.Sound) (small : m.pointCount + 1 < Word.bound)
    (wellFormed : m.WellFormed) (p : Equiv.Perm (Fin m.cells.length)) (covers : m.Covers d) :
    ∃ g : Nat → Nat, (d = 0 → g = id) ∧ (d = m.dim → ∀ c : Fin m.cells.length, g c = p c) ∧
      ∃ rows rows', m.faces d = .ok rows ∧ (m.permuted p).faces d = .ok rows' ∧
        Matches rows rows' g := by
  have sound' := (sound.accepted_withCells (suits_permuted sound p)).sound
  have positive := sound.positive
  by_cases bottom : d = 0
  · refine ⟨id, fun _ => rfl, fun top => by omega, _, _, if_pos bottom, if_pos bottom, ?_⟩
    exact Matches.refl _
  by_cases top : d = m.dim
  · refine ⟨moved p, fun zero => absurd zero bottom, fun _ c => dif_pos c.isLt, m.cells,
      (m.permuted p).cells, ?_, ?_, matches_moved p⟩
    · rw [faces, if_neg bottom, vertexRows, if_pos top]
    · rw [faces, if_neg bottom, vertexRows, if_pos (show d = (m.permuted p).dim from top)]
  · obtain ⟨nonneg, below⟩ := covers
    -- Between vertices and cells, both meshes number the same vertex lists, none of them twice.
    obtain ⟨n, hn⟩ := countOf_exists sound wellFormed small ⟨nonneg, below⟩
    obtain ⟨n', hn'⟩ := countOf_exists (m := m.permuted p) sound' wellFormed small ⟨nonneg, below⟩
    obtain ⟨rows, hrows, -⟩ := vertexRows_of_countOf hn bottom
    obtain ⟨rows', hrows', -⟩ := vertexRows_of_countOf hn' bottom
    obtain ⟨perm, nodup⟩ := vertexRows_perm sound sound' rfl (cells_permuted_perm p) wellFormed
      (by omega) (by omega) hrows hrows'
    refine ⟨_, fun zero => absurd zero bottom, fun cells => absurd cells top, rows, rows', ?_, ?_,
      Matches.of_perm perm nodup⟩
    · rw [faces, if_neg bottom, hrows]
    · rw [faces, if_neg bottom, hrows']

section Permuted

variable (sound : m.Sound) (small : m.pointCount + 1 < Word.bound) (wellFormed : m.WellFormed)
  (p : Equiv.Perm (Fin m.cells.length))

include sound small wellFormed

theorem exists_relabelling : ∃ f : Int → Nat → Nat,
    f 0 = id ∧ (∀ c : Fin m.cells.length, f m.dim c = p c) ∧ ∀ d, m.Covers d →
      ∃ rows rows', m.faces d = .ok rows ∧ (m.permuted p).faces d = .ok rows' ∧
        Matches rows rows' (f d) := by
  have positive := sound.positive
  choose! f bottom top corresponds using fun d covers =>
    exists_matches (d := d) sound small wellFormed p covers
  exact ⟨f, bottom 0 ⟨le_rfl, by omega⟩ rfl, top m.dim ⟨by omega, le_rfl⟩ rfl, corresponds⟩

theorem countOf_permuted (covers : m.Covers d) : (m.permuted p).countOf d = m.countOf d := by
  obtain ⟨g, -, -, rows, rows', hr, hr', found⟩ := exists_matches sound small wellFormed p covers
  rw [countOf_of_faces covers hr, countOf_of_faces (m := m.permuted p) covers hr', found.length]

/-- The order of the cells does not decide what can be found. -/
theorem everythingOf_permuted {known known' : Int → Bool} :
    (m.permuted p).everythingOf known' = m.everythingOf known := by
  have sound' := (sound.accepted_withCells (suits_permuted sound p)).sound
  have counts : ∀ d, m.Covers d → (m.permuted p).countOf d = m.countOf d := fun d =>
    countOf_permuted sound small wellFormed p
  refine everythingOf_congr (storable_of_wellFormed sound wellFormed)
    (storable_of_wellFormed (m := m.permuted p) sound' wellFormed) rfl counts fun d0 d1 c0 c1 => ?_
  obtain ⟨n0, h0⟩ := countOf_exists sound wellFormed small c0
  obtain ⟨n1, h1⟩ := countOf_exists sound wellFormed small c1
  rw [outcome_relationOf sound wellFormed small h0 h1,
    outcome_relationOf (m := m.permuted p) sound' wellFormed small ((counts d0 c0).trans h0)
      ((counts d1 c1).trans h1)]

end Permuted

/-- Bijections between the entities of two meshes under which all that two stores have recorded is the
same: how many entities there are, their vertices, and the rows. -/
structure Relabels (m other : Mesh) (s t : Store) (f : Int → Nat → Nat) : Prop where
  counted : ∀ d, m.Covers d → ∃ n, s.count? d = some n ∧ t.count? d = some n ∧
    Set.BijOn (f d) (Set.Iio n) (Set.Iio n)
  vertices : ∀ d e, m.Covers d → e < s.sizeOf d → ∃ found,
    (((⟨d, e⟩ : Entity).vertices m.shape).run s).1 = .ok found ∧
    (((⟨d, f d e⟩ : Entity).vertices other.shape).run t).1 = .ok found
  incidence : ∀ d0 d1 r q, s.relation? d0 d1 = some r → t.relation? d0 d1 = some q →
    ∀ e0 e1, e0 < s.sizeOf d0 → e1 < s.sizeOf d1 →
      ((e1 : Int) ∈ r.rows.getD e0 [] ↔ (f d1 e1 : Int) ∈ q.rows.getD (f d0 e0) [])

/-- Entities that are known by their vertices correspond in all that is recorded of them. -/
theorem relabels_of_matches (sound : m.Sound) (sound' : other.Sound)
    (small : m.pointCount + 1 < Word.bound) (wellFormed : m.WellFormed) (storable' : other.Storable)
    (shape : other.shape = m.shape) (cells : other.cells.Perm m.cells)
    (faithful : Faithful m s) (faithful' : Faithful other t)
    (corresponds : ∀ d, m.Covers d → ∃ rows rows', m.faces d = .ok rows ∧ other.faces d = .ok rows' ∧
      s.count? d = some rows.length ∧ t.count? d = some rows'.length ∧ Matches rows rows' (f d)) :
    m.Relabels other s t f := by
  have storable := storable_of_wellFormed sound wellFormed
  have size : ∀ {d : Int} {rows : List (List Int)}, s.count? d = some rows.length →
      s.sizeOf d = rows.length := fun hc => by rw [Store.sizeOf, hc, Option.getD_some]
  constructor
  case counted =>
    intro d covers
    obtain ⟨rows, rows', -, -, hc, hc', found⟩ := corresponds d covers
    exact ⟨rows.length, hc, found.length ▸ hc', found.bij⟩
  case vertices =>
    intro d e covers he
    obtain ⟨rows, rows', hr, hr', hc, hc', found⟩ := corresponds d covers
    rw [size hc] at he
    have word : d = 0 → ∀ k, k < rows.length → Word.fits k = true := by
      rintro rfl k hk
      rw [faithful.bottom] at hc
      have points : m.points = rows.length := Option.some.inj hc
      have bound := sound.points_small small
      have positive : 0 < Word.bound := by decide
      rw [Word.fits, decide_eq_true_eq]
      omega
    refine ⟨rows[e], vertices_eq_face faithful ⟨hc, storable d⟩ hr he fun zero => word zero e he, ?_⟩
    rw [← found.getElem he (found.lt he)]
    exact vertices_eq_face faithful' ⟨hc', storable' d⟩ hr' (found.lt he)
      fun zero => word zero _ (found.length ▸ found.lt he)
  case incidence =>
    intro d0 d1 r q hr hq e0 e1 he0 he1
    obtain ⟨n0, n1, k0, k1⟩ := faithful.counted hr
    have c0 := covers_of_countOf (faithful.count k0)
    have c1 := covers_of_countOf (faithful.count k1)
    obtain ⟨v0, w0, hv0, hw0, hc0, hc0', found0⟩ := corresponds d0 c0
    obtain ⟨v1, w1, hv1, hw1, hc1, hc1', found1⟩ := corresponds d1 c1
    rw [size hc0] at he0
    rw [size hc1] at he1
    -- Both rows are told by vertices alone, which correspond; neighbours must also differ, and that is
    -- where the map has to be injective.
    rw [mem_relationOf sound wellFormed (faithful.relation hr) (faithful.count hc0)
        (faithful.count hc1) hv0 hv1 he0 he1,
      mem_relationOf sound' (fun d above below => by
          rw [shape]
          exact wellFormed d above (by rwa [dim, shape] at below))
        (faithful'.relation hq) (faithful'.count hc0') (faithful'.count hc1') hw0 hw1
        (found0.lt he0) (found1.lt he1),
      found0.getElem he0 (found0.lt he0), found1.getElem he1 (found1.lt he1)]
    have number : d0 = d1 → (f d1 e1 = f d0 e0 ↔ e1 = e0) := by
      rintro rfl
      rw [hv0] at hv1
      cases hv1
      exact found0.eq_iff he1 he0
    split
    · rename_i rising
      exact (incident_congr shape cells (fun same => absurd same.symm (ne_of_lt rising)) _ _).symm
    · exact (incident_congr shape cells number _ _).symm

/-- With the cells in another order, everything can be had or fails alike, and there are bijections
between the entities, with the vertices in their places and the cells moved as they were, under which
all counts, all vertices and all rows are the same. -/
theorem permuted_relabels (accepted : m.Accepted) (small : m.pointCount + 1 < Word.bound)
    (wellFormed : m.WellFormed) (p : Equiv.Perm (Fin m.cells.length)) :
    let other := m.permuted p
    let first := (Resolution.everything m.shape).run m.store
    let second := (Resolution.everything other.shape).run other.store
    other.Accepted ∧ second.1 = first.1 ∧
    (first.1 = .ok () ↔
      ∀ d, 0 < d → d < m.dim → (first.2.store.sizeOf d : Int) + 1 < Word.bound) ∧
    (first.1 = .ok () → ∀ d0 d1, m.Covers d0 → m.Covers d1 →
      (first.2.store.relation? d0 d1).isSome ∧ (second.2.store.relation? d0 d1).isSome) ∧
    ∃ f : Int → Nat → Nat, f 0 = id ∧ (∀ c : Fin m.cells.length, f m.dim c = p c) ∧
      m.Relabels other first.2.store second.2.store f := by
  intro other first second
  have sound := accepted.sound
  have accepted' : other.Accepted := sound.accepted_withCells (suits_permuted sound p)
  have sound' := accepted'.sound
  have wellFormed' : other.WellFormed := wellFormed
  have storable := storable_of_wellFormed sound wellFormed
  have storable' := storable_of_wellFormed sound' wellFormed'
  have outcome : first.1 = m.everythingOf _ := Resolution.outcome_everything sound.faithful
  have outcome' : second.1 = other.everythingOf _ := Resolution.outcome_everything sound'.faithful
  have alike : second.1 = first.1 := by
    rw [outcome, outcome']
    exact everythingOf_permuted sound small wellFormed p
  have counted := fun d => countOf_exists (d := d) sound wellFormed small
  have counted' := fun d => countOf_exists (m := other) (d := d) sound' wellFormed' small
  have recorded : ∀ {d n}, m.countOf d = .ok n → first.2.store.count? d = some n := fun hc =>
    Resolution.count?_everything sound.faithful storable counted hc
  have recorded' : ∀ {d n}, other.countOf d = .ok n → second.2.store.count? d = some n := fun hc =>
    Resolution.count?_everything sound'.faithful storable' counted' hc
  obtain ⟨f, bottom, top, corresponds⟩ := exists_relabelling sound small wellFormed p
  refine ⟨accepted', alike, ?_, fun succeeds d0 d1 c0 c1 => ?_, f, bottom, top, ?_⟩
  · rw [outcome, everythingOf_eq_ok_iff sound wellFormed small]
    refine forall_congr' fun d => ⟨fun h above below => ?_, fun h n above below hn => ?_⟩
    · obtain ⟨n, hn⟩ := counted d ⟨by omega, by omega⟩
      rw [Store.sizeOf, recorded hn]
      exact h n above below hn
    · have := h above below
      rwa [Store.sizeOf, recorded hn] at this
  · obtain ⟨r, -, hr⟩ :=
      Resolution.relation?_everything sound.faithful (outcome.symm.trans succeeds) c0 c1
    obtain ⟨q, -, hq⟩ := Resolution.relation?_everything sound'.faithful
      (outcome'.symm.trans (alike.trans succeeds)) c0 c1
    exact ⟨Option.isSome_iff_exists.mpr ⟨r, hr⟩, Option.isSome_iff_exists.mpr ⟨q, hq⟩⟩
  · refine relabels_of_matches sound sound' small wellFormed storable' rfl (cells_permuted_perm p)
      (Resolution.faithful_everything sound.faithful)
      (Resolution.faithful_everything sound'.faithful) fun d covers => ?_
    obtain ⟨rows, rows', hr, hr', found⟩ := corresponds d covers
    exact ⟨rows, rows', hr, hr', recorded (countOf_of_faces covers hr),
      recorded' (countOf_of_faces (m := other) covers hr'), found⟩

/-- Two triangles that change places. -/
def swapped : Equiv.Perm (Fin strip.cells.length) := (Equiv.swap 0 1 : Equiv.Perm (Fin 2))

theorem permuted_relabels_strip :
    let other := strip.permuted swapped
    let first := (Resolution.everything strip.shape).run strip.store
    let second := (Resolution.everything other.shape).run other.store
    strip.Accepted ∧ strip.pointCount + 1 < Word.bound ∧ strip.WellFormed ∧
    other.cells = [[1, 2, 3], [0, 1, 2]] ∧ first.1 = .ok () ∧ second.1 = first.1 ∧
    ∃ f : Int → Nat → Nat, f 0 = id ∧ f 2 0 = 1 ∧ f 2 1 = 0 ∧
      strip.Relabels other first.2.store second.2.store f := by
  have small : strip.pointCount + 1 < Word.bound := by decide
  have wellFormed : strip.WellFormed := wellFormed_of_simplex rfl
  have succeeds : ((Resolution.everything strip.shape).run strip.store).1 = .ok () := by cbv
  obtain ⟨-, same, -, -, f, bottom, top, relabels⟩ :=
    permuted_relabels strip_accepted small wellFormed swapped
  exact ⟨strip_accepted, small, wellFormed, by decide, succeeds, same, f, bottom,
    top (0 : Fin 2), top (1 : Fin 2), relabels⟩

end Mesh

end MeshIncidence
