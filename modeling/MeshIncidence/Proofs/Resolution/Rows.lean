import Mathlib
import MeshIncidence.Proofs.Numbering.Deduplication
import MeshIncidence.Proofs.Resolution.Ways

/-!
What rows hold. Where the shape splits well, entities have vertices of a cell, each once; the row of an
entity lists the parts whose vertices it has, each once; and no row refers to an entity that is not
there.
-/
namespace MeshIncidence

namespace Mesh

/-- The shape splits cells well in every dimension between zero and that of the cells. -/
def WellFormed (m : Mesh) : Prop := ∀ d, 0 < d → d < m.dim → ∃ parts, m.shape.Regular d parts

variable {m : Mesh} {D d d0 d1 : Int} {parts rows : List (List Int)} {k : Numbering}

theorem dim_of_simplex (simplicial : m.shape = Shape.simplex D) : m.dim = D := by
  rw [dim, simplicial]
  rfl

theorem wellFormed_of_simplex (simplicial : m.shape = Shape.simplex D) : m.WellFormed := by
  intro d above below
  rw [dim_of_simplex simplicial] at below
  rw [simplicial]
  exact ⟨_, Shape.regular_simplex (by omega) (by omega)⟩

theorem cellRows_below (sound : m.Sound) (regular : m.shape.Regular d parts) (above : d ≠ 0)
    (h : m.cellRows d = .ok rows) :
    rows = m.cells.map fun cell =>
      (Numbering.places (m.keys parts).flatten.eraseDups (Numbering.keysOf parts cell)).map
        Int.ofNat := by
  rw [cellRows, if_neg above] at h
  obtain ⟨k, hk, rfl⟩ := Outcome.map_eq_ok.mp h
  simp [eq_byDictionary sound regular hk, Numbering.byDictionary_eq, Numbering.cellRows, keys,
    List.map_map, List.map_map]

theorem mem_entities_of_key {cell key : List Int} (hcell : cell ∈ m.cells)
    (hkey : key ∈ Numbering.keysOf parts cell) : key ∈ (m.keys parts).flatten.eraseDups :=
  List.mem_eraseDups.mpr (mem_keys.mpr ⟨cell, hcell, hkey⟩)

/-- An entity has vertices, each once, and all of one cell. -/
theorem vertices_of_entity (sound : m.Sound) (wellFormed : m.WellFormed) (above : 0 < d)
    (below : d ≤ m.dim) (h : m.vertexRows d = .ok rows) {row : List Int} (hrow : row ∈ rows) :
    row ≠ [] ∧ row.Nodup ∧ ∃ cell ∈ m.cells, ∀ v ∈ row, v ∈ cell := by
  obtain ⟨n, -, some, width⟩ := sound.width
  by_cases top : d = m.dim
  · rw [vertexRows, if_pos top] at h
    cases h
    refine ⟨fun empty => ?_, sound.nodup row hrow, row, hrow, fun v hv => hv⟩
    have := width row hrow
    rw [empty, List.length_nil] at this
    omega
  · obtain ⟨parts, regular⟩ := wellFormed d above (by omega)
    rw [vertexRows_below sound regular top h, List.mem_eraseDups] at hrow
    have strict := pairwise_of_mem_keys sound regular hrow
    obtain ⟨cell, hcell, hkey⟩ := mem_keys.mp hrow
    refine ⟨?_, strict.imp fun h => ne_of_lt h, cell, hcell,
      fun v hv => mem_cell_of_mem_key sound regular hcell hkey hv⟩
    obtain ⟨part, hp, rfl⟩ := List.mem_map.mp hkey
    exact regular.keyOf_ne_nil cell hp

theorem inside_of_entity (sound : m.Sound) (wellFormed : m.WellFormed) (above : 0 < d)
    (below : d ≤ m.dim) (h : m.vertexRows d = .ok rows) {row : List Int} (hrow : row ∈ rows) {v : Int}
    (hv : v ∈ row) : 0 ≤ v ∧ v < m.points := by
  obtain ⟨-, -, cell, hcell, hsub⟩ := vertices_of_entity sound wellFormed above below h hrow
  exact sound.inside_points hcell (hsub v hv)

theorem storable_of_wellFormed (sound : m.Sound) (wellFormed : m.WellFormed) : m.Storable := by
  intro d beyond
  obtain ⟨parts, regular⟩ := wellFormed d beyond.1 beyond.2.1
  exact not_overflows_of_regular sound regular beyond

/-- Vertices of an entity between vertices and cells ascend. -/
theorem strict_vertexRows (sound : m.Sound) (wellFormed : m.WellFormed) (above : 0 < d)
    (below : d < m.dim) (h : m.vertexRows d = .ok rows) {row : List Int} (hrow : row ∈ rows) :
    row.Pairwise (· < ·) := by
  obtain ⟨parts, regular⟩ := wellFormed d above below
  rw [vertexRows_below sound regular (by omega) h, List.mem_eraseDups] at hrow
  exact pairwise_of_mem_keys sound regular hrow

/-- Entities of a dimension below that of the cells differ in their vertices. -/
theorem vertices_differ (sound : m.Sound) (wellFormed : m.WellFormed) (above : 0 < d)
    (below : d < m.dim) (h : m.vertexRows d = .ok rows) :
    rows.Pairwise fun a b => ¬ ∀ v, v ∈ a ↔ v ∈ b := by
  obtain ⟨parts, regular⟩ := wellFormed d above below
  have strict := fun row (hrow : row ∈ rows) => strict_vertexRows sound wellFormed above below h hrow
  have nodup : rows.Nodup :=
    vertexRows_below sound regular (by omega) h ▸ nodup_eraseDups _
  exact nodup.imp_of_mem fun ha hb differ same =>
    differ (List.Pairwise.eq_of_mem_iff (strict _ ha) (strict _ hb) same)

/-- Parts are found through the vertices as those that lie within the vertices of the whole. -/
theorem mem_partsOf {rows : List (List Int)} {n : Nat} {whole : List Int}
    (inside : ∀ v ∈ whole, 0 ≤ v ∧ v < n) (nonempty : ∀ row ∈ rows, row ≠ []) {e : Int} :
    e ∈ Derivation.partsOf (Incidence.turned rows n) rows whole whole ↔
      ∃ i, ∃ hi : i < rows.length, e = (i : Int) ∧ ∀ v ∈ rows[i], v ∈ whole := by
  rw [Derivation.partsOf, List.mem_eraseDups, List.mem_filter, List.mem_flatMap,
    VertexList.subsetOf_iff]
  constructor
  · intro h
    rcases h with ⟨⟨v, hv, he⟩, within⟩
    obtain ⟨i, hi, rfl, -⟩ := (Incidence.mem_rowAt_turned (inside v hv).1 (inside v hv).2).mp he
    rw [Derivation.rowAt_natCast hi] at within
    exact ⟨i, hi, rfl, within⟩
  · intro h
    rcases h with ⟨i, hi, rfl, within⟩
    obtain ⟨v, hv⟩ := List.exists_mem_of_ne_nil _ (nonempty _ (List.getElem_mem hi))
    refine ⟨⟨v, within v hv, ?_⟩, by rw [Derivation.rowAt_natCast hi]; exact within⟩
    exact (Incidence.mem_rowAt_turned (inside v (within v hv)).1 (inside v (within v hv)).2).mpr
      ⟨i, hi, rfl, hv⟩

/-- The rows between two dimensions above zero that are found through the vertices. -/
theorem throughVertices_eq_of_inside {wholes parts found : List (List Int)}
    (inside : ∀ whole ∈ wholes, ∀ v ∈ whole, 0 ≤ v ∧ v < m.points)
    (hw : m.vertexRows d0 = .ok wholes) (hp : m.vertexRows d1 = .ok parts)
    (h : m.throughVertices d0 d1 = .ok found) :
    found = if d0 = d1 then wholes.zipIdx.map fun entry =>
        Derivation.neighboursOf (Incidence.turned parts m.points) entry.1 entry.2
      else wholes.map fun whole =>
        Derivation.partsOf (Incidence.turned parts m.points) parts whole whole := by
  have inside' : ∀ whole ∈ wholes, ∀ v ∈ whole,
      0 ≤ v ∧ v < (Incidence.turned parts m.points).length := by
    simpa [Incidence.length_turned] using inside
  obtain ⟨wholes', parts', hw', hp', -, -, h⟩ := throughVertices_eq_ok.mp h
  rw [hw] at hw'
  rw [hp] at hp'
  cases hw'
  cases hp'
  rw [Derivation.neighbourRows_eq inside', Derivation.partRows_self_eq inside'
    fun row hrow e he => Incidence.mem_turned hrow he, ← apply_ite Except.ok] at h
  exact (Except.ok.inj h).symm

theorem throughVertices_eq (sound : m.Sound) (wellFormed : m.WellFormed) (above : 0 < d1)
    (falling : d1 ≤ d0) (below : d0 ≤ m.dim) {wholes parts found : List (List Int)}
    (hw : m.vertexRows d0 = .ok wholes) (hp : m.vertexRows d1 = .ok parts)
    (h : m.throughVertices d0 d1 = .ok found) :
    found = if d0 = d1 then wholes.zipIdx.map fun entry =>
        Derivation.neighboursOf (Incidence.turned parts m.points) entry.1 entry.2
      else wholes.map fun whole =>
        Derivation.partsOf (Incidence.turned parts m.points) parts whole whole :=
  throughVertices_eq_of_inside (fun _ hwhole _ hv =>
    inside_of_entity sound wellFormed (by omega) below hw hwhole hv) hw hp h

/-- Neighbours of a vertex are vertices. -/
theorem inside_vertexNeighbours (sound : m.Sound) {found : List (List Int)}
    (h : m.vertexNeighbours = .ok found) {row : List Int} (hrow : row ∈ found) {e : Int}
    (he : e ∈ row) : 0 ≤ e ∧ e < m.points := by
  obtain ⟨-, -, h⟩ := vertexNeighbours_eq_ok.mp h
  rw [Derivation.neighbourRows_eq fun row hrow e he => Incidence.mem_turned hrow he] at h
  rw [← Except.ok.inj h] at hrow
  obtain ⟨entry, hentry, rfl⟩ := List.mem_map.mp hrow
  obtain ⟨c, hc, hin⟩ := List.mem_flatMap.mp (List.mem_filter.mp (List.mem_eraseDups.mp he)).1
  have hcell := Incidence.mem_turned (List.fst_mem_of_mem_zipIdx hentry) hc
  exact sound.inside_points (Derivation.rowAt_mem hcell.1 hcell.2) hin

/-- The parts of a cell are numbered. -/
theorem inside_cellRows (sound : m.Sound) (wellFormed : m.WellFormed) (above : 0 < d)
    (below : d < m.dim) {found : List (List Int)} (hp : m.vertexRows d = .ok rows)
    (h : m.cellRows d = .ok found) {row : List Int} (hrow : row ∈ found) {e : Int} (he : e ∈ row) :
    0 ≤ e ∧ e < rows.length := by
  obtain ⟨parts, regular⟩ := wellFormed d above below
  have keys := vertexRows_below sound regular (by omega) hp
  rw [cellRows_below sound regular (by omega) h, ← keys] at hrow
  obtain ⟨cell, hcell, rfl⟩ := List.mem_map.mp hrow
  obtain ⟨i, hi, rfl⟩ := List.mem_map.mp he
  obtain ⟨key, hkey, rfl⟩ := List.mem_map.mp hi
  have known : key ∈ rows := keys ▸ mem_entities_of_key hcell hkey
  have number := List.idxOf_lt_length_of_mem known
  exact ⟨Int.natCast_nonneg _, Int.ofNat_lt.mpr number⟩

/-- Entities met through the vertices are there. -/
theorem inside_throughVertices (sound : m.Sound) (wellFormed : m.WellFormed) (above : 0 < d1)
    (falling : d1 ≤ d0) (below : d0 ≤ m.dim) {wholes parts found : List (List Int)}
    (hw : m.vertexRows d0 = .ok wholes) (hp : m.vertexRows d1 = .ok parts)
    (h : m.throughVertices d0 d1 = .ok found) {row : List Int} (hrow : row ∈ found) {e : Int}
    (he : e ∈ row) : 0 ≤ e ∧ e < parts.length := by
  have met : ∀ whole ∈ wholes,
      ∀ e ∈ whole.flatMap (Derivation.rowAt (Incidence.turned parts m.points)),
        0 ≤ e ∧ e < parts.length := by
    intro whole hwhole e he
    obtain ⟨v, hv, hin⟩ := List.mem_flatMap.mp he
    have inside := inside_of_entity sound wellFormed (by omega) below hw hwhole hv
    obtain ⟨i, hi, rfl, -⟩ := (Incidence.mem_rowAt_turned inside.1 inside.2).mp hin
    omega
  rw [throughVertices_eq sound wellFormed above falling below hw hp h] at hrow
  split at hrow
  · obtain ⟨entry, hentry, rfl⟩ := List.mem_map.mp hrow
    exact met _ (List.fst_mem_of_mem_zipIdx hentry) e
      (List.mem_filter.mp (List.mem_eraseDups.mp he)).1
  · obtain ⟨whole, hwhole, rfl⟩ := List.mem_map.mp hrow
    exact met whole hwhole e (List.mem_filter.mp (List.mem_eraseDups.mp he)).1

/-- Rows that do not rise in dimension refer to entities that are there. -/
theorem inside_fallingRows (sound : m.Sound) (wellFormed : m.WellFormed) (nonneg : 0 ≤ d1)
    (falling : d1 ≤ d0) (below : d0 ≤ m.dim) {n0 n1 : Nat} (c0 : m.countOf d0 = .ok n0)
    (c1 : m.countOf d1 = .ok n1) {found : List (List Int)} (h : m.fallingRows d0 d1 = .ok found)
    {row : List Int} (hrow : row ∈ found) {e : Int} (he : e ∈ row) : 0 ≤ e ∧ e < n1 := by
  unfold fallingRows at h
  by_cases bottom : d1 = 0
  · have points : n1 = m.points := eq_points_of_countOf (bottom ▸ c1)
    rw [if_pos bottom] at h
    rw [points]
    by_cases vertices : d0 = 0
    · rw [if_pos vertices] at h
      exact inside_vertexNeighbours sound h hrow he
    · rw [if_neg vertices] at h
      exact inside_of_entity sound wellFormed (by omega) below h hrow he
  rw [if_neg bottom] at h
  obtain ⟨parts, hparts, rfl⟩ := vertexRows_of_countOf c1 bottom
  by_cases cells : d0 = m.dim ∧ d1 ≠ m.dim
  · rw [if_pos cells] at h
    exact inside_cellRows sound wellFormed (by omega) (by omega) hparts h hrow he
  · obtain ⟨wholes, hwholes, -⟩ := vertexRows_of_countOf c0 (by omega)
    rw [if_neg cells] at h
    exact inside_throughVertices sound wellFormed (by omega) falling below hwholes hparts h hrow he

/-- Rows that fall in dimension are as many as there are entities. -/
theorem length_fallingRows (falling : d1 < d0) (nonneg : 0 ≤ d1) {n : Nat} (hc : m.countOf d0 = .ok n)
    {found : List (List Int)} (h : m.fallingRows d0 d1 = .ok found) : found.length = n := by
  have relation : m.relationOf d0 d1 = .ok (Incidence.ofRows found) := by
    rw [relationOf_falling (by omega), h]
    rfl
  rw [← sourceCount_relationOf hc nonneg relation, Incidence.sourceCount_ofRows]

/-- No recorded relation refers to an entity that is not there. -/
theorem inside_of_recorded {s : Store} (sound : m.Sound) (wellFormed : m.WellFormed)
    (faithful : Faithful m s) {r : Incidence} (hr : s.relation? d0 d1 = some r) {e : Int}
    (he : e ∈ r.targets) : 0 ≤ e ∧ e < s.sizeOf d1 := by
  obtain ⟨n0, n1, c0, c1⟩ := faithful.counted hr
  have hr := faithful.relation hr
  have k0 := faithful.count c0
  have k1 := faithful.count c1
  have covers0 := covers_of_countOf k0
  have covers1 := covers_of_countOf k1
  rw [Store.sizeOf, c1, Option.getD_some]
  by_cases rising : d0 < d1
  · obtain ⟨found, n, hfound, -, -, -, rfl⟩ := (relationOf_rising_eq_ok rising).mp hr
    obtain ⟨row, hrow, he⟩ := List.mem_flatten.mp he
    rw [← length_fallingRows rising covers0.1 k1 hfound]
    exact Incidence.mem_turned hrow he
  · rw [relationOf_falling rising] at hr
    obtain ⟨found, hfound, rfl⟩ := Outcome.map_eq_ok.mp hr
    obtain ⟨row, hrow, he⟩ := List.mem_flatten.mp he
    exact inside_fallingRows sound wellFormed covers1.1 (by omega) covers0.2 k0 k1 hfound hrow he

/-- A relation between recorded dimensions and its reverse, from the rows that do not rise. -/
theorem rows_of_recorded {s : Store} (faithful : Faithful m s) (falling : d1 < d0)
    {down up : Incidence} (hdown : s.relation? d0 d1 = some down)
    (hup : s.relation? d1 d0 = some up) {n : Nat} (hc : s.count? d1 = some n) :
    ∃ found, m.fallingRows d0 d1 = .ok found ∧ down = Incidence.ofRows found ∧
      up = Incidence.ofRows (Incidence.turned found n) ∧
      (∀ row ∈ found, ∀ e ∈ row, 0 ≤ e ∧ e < n) ∧ (n : Int) + 1 < Word.bound := by
  have hdown := faithful.relation hdown
  rw [relationOf_falling (by omega)] at hdown
  obtain ⟨found, hfound, rfl⟩ := Outcome.map_eq_ok.mp hdown
  obtain ⟨found', n', hfound', hc', inside, small, rfl⟩ :=
    (relationOf_rising_eq_ok falling).mp (faithful.relation hup)
  rw [hfound] at hfound'
  rw [faithful.count hc] at hc'
  cases hfound'
  cases hc'
  exact ⟨found, hfound, rfl, rfl, inside, small⟩

end Mesh

end MeshIncidence
