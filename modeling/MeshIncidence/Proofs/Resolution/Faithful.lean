import Mathlib
import MeshIncidence.Proofs.Incidence.Inversion
import MeshIncidence.Proofs.Numbering.Steps
import MeshIncidence.Proofs.Resolution.Canonical
import MeshIncidence.Proofs.Store.Written

/-!
Faithful stores. A store is faithful to a mesh when all it has recorded is what the cells of the mesh
determine, and counts and their defining relations are recorded together, but for the vertices of
entities where these cannot be stored. What a request writes keeps a store faithful: a numbering, a
relation turned round, a relation by way of a third dimension.
-/
namespace MeshIncidence

/-- All that is recorded is what the cells determine, and nothing that belongs together is recorded
in part. Where a dimension overflows, its part in the cells is all that is ever recorded of it. -/
structure Faithful (m : Mesh) (s : Store) : Prop where
  positive : 1 ≤ m.dim
  dim : s.dim = m.dim
  count : ∀ {d n}, s.count? d = some n → m.countOf d = .ok n
  relation : ∀ {a b r}, s.relation? a b = some r → m.relationOf a b = .ok r
  ends : ∀ {a b r}, s.relation? a b = some r → (s.count? a).isSome ∧ (s.count? b).isSome
  vertices : ∀ {d n}, s.count? d = some n → d ≠ 0 → ¬ m.Overflows d → (s.relation? d 0).isSome
  bare : ∀ {a b r}, s.relation? a b = some r → ¬ m.Overflows a ∧ (m.Overflows b → a = m.dim)
  cells : ∀ {d n}, s.count? d = some n → d ≠ m.dim → (s.relation? m.dim d).isSome
  bottom : s.count? 0 = some m.points
  top : s.count? m.dim = some m.cells.length

namespace Mesh

variable {m : Mesh} {d n : Int}

theorem covers_of_countOf {c : Nat} (h : m.countOf d = .ok c) : m.Covers d := by
  unfold countOf at h
  split at h
  · assumption
  · cases h

theorem eq_points_of_countOf {c : Nat} (h : m.countOf 0 = .ok c) : c = m.points := by
  rw [countOf, if_pos (covers_of_countOf h), if_pos rfl] at h
  exact (Except.ok.inj h).symm

theorem countOf_between (above : 0 < d) (below : d < m.dim) :
    m.countOf d = (m.numbering d).map Numbering.count := by
  rw [countOf, if_pos ⟨above.le, below.le⟩, if_neg (by omega), if_neg (by omega)]

/-- The vertices of the entities are there as soon as the entities are counted. -/
theorem vertexRows_of_countOf {c : Nat} (h : m.countOf d = .ok c) (hd : d ≠ 0) :
    ∃ rows, m.vertexRows d = .ok rows ∧ rows.length = c := by
  unfold countOf at h
  rw [if_pos (covers_of_countOf h), if_neg hd] at h
  unfold vertexRows
  split at h
  · rename_i top
    cases h
    exact ⟨m.cells, by simp [if_pos top], rfl⟩
  · rename_i below
    obtain ⟨k, hk, rfl⟩ := Outcome.map_eq_ok.mp h
    exact ⟨k.entityVertices, by rw [if_neg below, hk]; rfl, rfl⟩

/-- Every cell has a row in the numbering of a dimension. -/
theorem length_cellRows_numbering {k : Numbering} (h : m.numbering d = .ok k) :
    k.cellRows.length = m.cells.length := by
  obtain ⟨_, -, h⟩ := Outcome.bind_eq_ok.mp h
  obtain ⟨_, -, h⟩ := Outcome.bind_eq_ok.mp h
  exact Numbering.length_cellRows h

theorem relationOf_zero (hd : 0 < d) :
    m.relationOf d 0 = (m.vertexRows d).map Incidence.ofRows := by
  have : ¬ d < 0 := by omega
  have hne : d ≠ 0 := by omega
  simp [relationOf, fallingRows, this, hne]

theorem relationOf_top (h0 : 0 < d) (h1 : d < m.dim) :
    m.relationOf m.dim d = (m.cellRows d).map Incidence.ofRows := by
  have : ¬ m.dim < d := by omega
  have hne : d ≠ 0 ∧ d ≠ m.dim := by omega
  simp [relationOf, fallingRows, this, hne]

theorem relationOf_falling {d0 d1 : Int} (h : ¬ d0 < d1) :
    m.relationOf d0 d1 = (m.fallingRows d0 d1).map Incidence.ofRows := by
  rw [relationOf, if_neg h]

theorem not_overflows_zero : ¬ m.Overflows 0 := fun h => lt_irrefl _ h.1

theorem not_overflows_top : ¬ m.Overflows m.dim := fun h => lt_irrefl _ h.2.1

/-- A dimension that overflows is between zero and that of the cells, and can be counted. -/
theorem Overflows.countOf (h : m.Overflows d) : ∃ c, m.countOf d = .ok c := by
  obtain ⟨above, below, k, hk, -⟩ := h
  exact ⟨k.count, by rw [countOf_between above below, hk]; rfl⟩

theorem overflows_iff {k : Numbering} (above : 0 < d) (below : d < m.dim)
    (hk : m.numbering d = .ok k) : m.Overflows d ↔ Incidence.fits k.entityVertices = false := by
  constructor
  · rintro ⟨-, -, k', hk', beyond⟩
    rw [hk] at hk'
    cases hk'
    exact beyond
  · exact fun beyond => ⟨above, below, k, hk, beyond⟩

theorem entitiesOf_of_fine {known : Int → Bool} (fine : ¬ m.Overflows d) :
    m.entitiesOf known d = m.countOf d := if_neg fine

theorem entitiesOf_eq_ok {known : Int → Bool} {c : Nat} :
    m.entitiesOf known d = .ok c ↔ ¬ m.Overflows d ∧ m.countOf d = .ok c := by
  unfold entitiesOf
  split
  · rename_i beyond
    simp [beyond]
  · rename_i fine
    simp [fine]

theorem answerOf_of_fine {known : Int → Bool} {d0 d1 : Int} (fine0 : ¬ m.Overflows d0)
    (fine1 : ¬ m.Overflows d1) {n0 n1 : Nat} (h0 : m.countOf d0 = .ok n0)
    (h1 : m.countOf d1 = .ok n1) : m.answerOf known d0 d1 = m.relationOf d0 d1 := by
  simp [answerOf, covers_of_countOf h0, covers_of_countOf h1, fine0, fine1, entitiesOf, h0, h1]

end Mesh

/-- The entities of a dimension are counted, and the dimension does not overflow. -/
structure Mesh.Full (m : Mesh) (s : Store) (d : Int) (n : Nat) : Prop where
  count : s.count? d = some n
  fine : ¬ m.Overflows d

theorem Mesh.Full.grows {m : Mesh} {s t : Store} {d : Int} {n : Nat} (h : m.Full s d n)
    (g : s.Grows t) : m.Full t d n := ⟨g.count h.count, h.fine⟩

/-- Where all vertices can be recorded, it does not matter what is counted already. -/
theorem Mesh.Storable.knows {m : Mesh} (storable : m.Storable) (known : Int → Bool) (s : Store) :
    m.Knows known s :=
  fun dim beyond => absurd beyond (storable dim)

namespace Faithful

variable {m : Mesh} {s t : Store} {d d0 d1 : Int} {n n0 n1 : Nat}

theorem store_covers_iff (h : Faithful m s) : s.Covers d ↔ m.Covers d := by
  simp [Store.Covers, Mesh.Covers, h.dim]

theorem covers (h : Faithful m s) {n : Nat} (hc : s.count? d = some n) : s.Covers d :=
  h.store_covers_iff.mpr (Mesh.covers_of_countOf (h.count hc))

/-- Both ends of a recorded relation are counted. -/
theorem counted (h : Faithful m s) {r : Incidence} (hr : s.relation? d0 d1 = some r) :
    ∃ n0 n1, s.count? d0 = some n0 ∧ s.count? d1 = some n1 := by
  obtain ⟨h0, h1⟩ := h.ends hr
  obtain ⟨n0, c0⟩ := Option.isSome_iff_exists.mp h0
  obtain ⟨n1, c1⟩ := Option.isSome_iff_exists.mp h1
  exact ⟨n0, n1, c0, c1⟩

theorem covers_ends (h : Faithful m s) {r : Incidence} (hr : s.relation? d0 d1 = some r) :
    s.Covers d0 ∧ s.Covers d1 := by
  obtain ⟨n0, n1, c0, c1⟩ := h.counted hr
  exact ⟨h.covers c0, h.covers c1⟩

theorem full_bottom (h : Faithful m s) : m.Full s 0 m.points := ⟨h.bottom, Mesh.not_overflows_zero⟩

theorem full_top (h : Faithful m s) : m.Full s m.dim m.cells.length :=
  ⟨h.top, Mesh.not_overflows_top⟩

/-- A dimension above zero has its vertices recorded with it, if they can be. -/
theorem vertexRelation (h : Faithful m s) (full : m.Full s d n) (hd : d ≠ 0) :
    ∃ rows, m.vertexRows d = .ok rows ∧ rows.length = n ∧
      s.relation? d 0 = some (Incidence.ofRows rows) := by
  have hcov := Mesh.covers_of_countOf (h.count full.count)
  obtain ⟨rows, hrows, hlen⟩ := Mesh.vertexRows_of_countOf (h.count full.count) hd
  obtain ⟨r, hr⟩ := Option.isSome_iff_exists.mp (h.vertices full.count hd full.fine)
  have := h.relation hr
  rw [Mesh.relationOf_zero (by have := hcov.1; omega), hrows] at this
  cases this
  exact ⟨rows, hrows, hlen, hr⟩

theorem cellVertices (h : Faithful m s) :
    s.relation? m.dim 0 = some (Incidence.ofRows m.cells) := by
  have hd := h.positive
  obtain ⟨rows, hrows, -, hr⟩ := h.vertexRelation h.full_top (by omega)
  rw [Mesh.vertexRows, if_pos rfl] at hrows
  cases hrows
  exact hr

/-- A dimension that is counted is whole, if it does not overflow. -/
theorem whole (h : Faithful m s) (full : m.Full s d n) : s.Whole d where
  counted := by rw [full.count]; rfl
  byCell below := by rw [h.dim] at below ⊢; exact h.cells full.count below
  byVertex above := h.vertices full.count above full.fine

/-- A numbering is recorded by the vertices of the entities and by the entities of the cells. -/
theorem relations_of_numbering (h : Faithful m s) (above : 0 < d) (below : d < m.dim)
    {k : Numbering} (hk : m.numbering d = .ok k) (full : m.Full s d n) :
    s.relation? d 0 = some (Incidence.ofRows k.entityVertices) ∧
      s.relation? m.dim d = some (Incidence.ofRows k.cellRows) := by
  obtain ⟨r, hr⟩ := Option.isSome_iff_exists.mp (h.vertices full.count above.ne' full.fine)
  obtain ⟨q, hq⟩ := Option.isSome_iff_exists.mp (h.cells full.count below.ne)
  have vertices := h.relation hr
  have cells := h.relation hq
  rw [Mesh.relationOf_zero above, Mesh.vertexRows, if_neg below.ne, hk] at vertices
  rw [Mesh.relationOf_top above below, Mesh.cellRows, if_neg above.ne', hk] at cells
  cases vertices
  cases cells
  exact ⟨hr, hq⟩

/-- A relation that is not recorded may be, once both its dimensions are. -/
theorem setRelation (h : Faithful m s) (h0 : m.Full s d0 n0) (h1 : m.Full s d1 n1)
    (fresh : s.relation? d0 d1 = none) {r : Incidence} (hr : m.relationOf d0 d1 = .ok r)
    (rows : r.sourceCount = n0) :
    ∃ t, s.setRelation d0 d1 r = .ok t ∧ Faithful m t ∧ s.Grows t ∧ t.relation? d0 d1 = some r := by
  obtain ⟨t, ht⟩ := Store.setRelation_fresh (h.covers h0.count) (h.covers h1.count) fresh
    (by rw [rows]; exact h0.count)
  have grows := Store.grows_setRelation ht
  obtain ⟨hcounts, hdim⟩ := Store.counts_setRelation ht
  have same : ∀ d, t.count? d = s.count? d := fun d => by simp [Store.count?, hcounts]
  have new := Store.relation?_setRelation ht
  refine ⟨t, ht, ?_, grows, by rw [new, if_pos ⟨rfl, rfl⟩]⟩
  constructor
  case positive => exact h.positive
  case dim => exact hdim.trans h.dim
  case count => exact fun hc => h.count (by rw [← same]; exact hc)
  case relation =>
    intro a b r' hr'
    rw [new] at hr'
    split at hr'
    · rename_i hp
      cases hr'
      rw [hp.1, hp.2]
      exact hr
    · exact h.relation hr'
  case ends =>
    intro a b r' hr'
    rw [new] at hr'
    rw [same, same]
    split at hr'
    · rename_i hp
      rw [hp.1, hp.2, h0.count, h1.count]
      exact ⟨rfl, rfl⟩
    · exact h.ends hr'
  case vertices =>
    intro d n hc hd fine
    rw [same] at hc
    exact grows.relation_isSome (h.vertices hc hd fine)
  case bare =>
    intro a b r' hr'
    rw [new] at hr'
    split at hr'
    · rename_i hp
      rw [hp.1, hp.2]
      exact ⟨h0.fine, fun beyond => absurd beyond h1.fine⟩
    · exact h.bare hr'
  case cells =>
    intro d n hc hd
    rw [same] at hc
    exact grows.relation_isSome (h.cells hc hd)
  case bottom => exact grows.count h.bottom
  case top => exact grows.count h.top

/-- Where a dimension is not counted, neither of its defining relations is recorded. -/
theorem relation_fresh (h : Faithful m s) {a b : Int} (fresh : s.count? a = none ∨ s.count? b = none) :
    s.relation? a b = none := by
  cases hr : s.relation? a b with
  | none => rfl
  | some r =>
    obtain ⟨ha, hb⟩ := h.ends hr
    rcases fresh with hn | hn
    · rw [hn] at ha
      cases ha
    · rw [hn] at hb
      cases hb

/-- A numbered dimension with its part in the cells, and with the vertices of its entities if they are
words, is what the cells determine. -/
theorem entered (h : Faithful m s) (h0 : 0 < d) (h1 : d < m.dim) {k : Numbering}
    (hk : m.numbering d = .ok k) {v : Store} (grows : s.Grows v)
    (vcount : ∀ e, v.count? e = if e = d then some k.count else s.count? e)
    (vrelation : ∀ a b, v.relation? a b =
      if a = d ∧ b = 0 ∧ Incidence.fits k.entityVertices then some (Incidence.ofRows k.entityVertices)
      else if a = m.dim ∧ b = d then some (Incidence.ofRows k.cellRows) else s.relation? a b) :
    Faithful m v := by
  have hcov : m.Covers d := ⟨by omega, by omega⟩
  have hne : d ≠ 0 ∧ d ≠ m.dim := by omega
  have overflows := Mesh.overflows_iff h0 h1 hk
  have still : ∀ {e}, (s.count? e).isSome → (v.count? e).isSome := grows.count_isSome
  have kept : ∀ {a b}, (s.relation? a b).isSome → (v.relation? a b).isSome := grows.relation_isSome
  constructor
  case positive => exact h.positive
  case dim => exact grows.dim.trans h.dim
  case count =>
    intro e n hn
    rw [vcount] at hn
    split at hn
    · rename_i he
      cases hn
      simp [he, Mesh.countOf, hcov, hne, hk]
    · exact h.count hn
  case relation =>
    intro a b r hr
    rw [vrelation] at hr
    split at hr
    · rename_i hp
      cases hr
      simp [hp.1, hp.2.1, Mesh.relationOf_zero h0, Mesh.vertexRows, if_neg hne.2, hk]
    split at hr
    · rename_i hp
      cases hr
      simp [hp.1, hp.2, Mesh.relationOf_top h0 h1, Mesh.cellRows, if_neg hne.1, hk]
    · exact h.relation hr
  case ends =>
    intro a b r hr
    have known : (v.count? d).isSome := by rw [vcount, if_pos rfl]; rfl
    rw [vrelation] at hr
    split at hr
    · rename_i hp
      rw [hp.1, hp.2.1, grows.count h.bottom]
      exact ⟨known, rfl⟩
    split at hr
    · rename_i hp
      rw [hp.1, hp.2, grows.count h.top]
      exact ⟨rfl, known⟩
    · exact ⟨still (h.ends hr).1, still (h.ends hr).2⟩
  case vertices =>
    intro e n hn he fine
    rw [vcount] at hn
    split at hn
    · rename_i hed
      rw [hed, overflows, Bool.not_eq_false] at fine
      rw [vrelation, if_pos ⟨hed, rfl, fine⟩]
      rfl
    · exact kept (h.vertices hn he fine)
  case bare =>
    intro a b r hr
    rw [vrelation] at hr
    split at hr
    · rename_i hp
      rw [hp.1, hp.2.1, overflows, hp.2.2]
      exact ⟨by simp, fun beyond => absurd beyond Mesh.not_overflows_zero⟩
    split at hr
    · rename_i hp
      rw [hp.1]
      exact ⟨Mesh.not_overflows_top, fun _ => rfl⟩
    · exact h.bare hr
  case cells =>
    intro e n hn he
    rw [vcount] at hn
    split at hn
    · rename_i hed
      rw [vrelation, if_neg (fun hp => hne.2 hp.1.symm), if_pos ⟨rfl, hed⟩]
      rfl
    · exact kept (h.cells hn he)
  case bottom => exact grows.count h.bottom
  case top => exact grows.count h.top

/-- The writes of a numbering succeed one after the other, as far as the vertices are words, and
together keep a store faithful. -/
theorem number (h : Faithful m s) (h0 : 0 < d) (h1 : d < m.dim) (fresh : s.count? d = none)
    {k : Numbering} (hk : m.numbering d = .ok k) :
    ∃ t u, s.setCount d k.count = .ok t ∧
      t.setRelation t.dim d (Incidence.ofRows k.cellRows) = .ok u ∧ s.Grows u ∧
      u.count? d = some k.count ∧
      (Incidence.fits k.entityVertices = false → Faithful m u) ∧
      (Incidence.fits k.entityVertices = true →
        ∃ v, u.setRelation d 0 (Incidence.ofRows k.entityVertices) = .ok v ∧ Faithful m v ∧
          u.Grows v) := by
  have hcov : m.Covers d := ⟨by omega, by omega⟩
  have hne : d ≠ 0 ∧ d ≠ m.dim := by omega
  have cellCount := Mesh.length_cellRows_numbering hk
  obtain ⟨t, u, ht, hu, grows, ucount, urelation⟩ :=
    Store.enter_dimension (n := k.count) (Incidence.ofRows k.cellRows)
      (h.store_covers_iff.mpr hcov) (by rw [h.dim]; exact h.covers h.top)
      (by rw [h.dim]; exact hne.2) fresh (h.relation_fresh (Or.inr fresh))
      (by rw [h.dim, Incidence.sourceCount_ofRows, cellCount]; exact h.top)
  rw [h.dim] at urelation
  have counted : u.count? d = some k.count := by simp [ucount]
  refine ⟨t, u, ht, hu, grows, counted, fun beyond => ?_, fun fit => ?_⟩
  · exact h.entered h0 h1 hk grows ucount fun a b => by simp [urelation, beyond]
  · have missing : u.relation? d 0 = none := by
      rw [urelation, if_neg fun hp => hne.2 hp.1, h.relation_fresh (Or.inl fresh)]
    obtain ⟨v, hv⟩ := Store.setRelation_fresh (r := Incidence.ofRows k.entityVertices)
      (grows.covers_iff.mpr (h.store_covers_iff.mpr hcov))
      (grows.covers_iff.mpr (h.covers h.bottom)) missing
      (by rw [counted, Incidence.sourceCount_ofRows]; rfl)
    have later := Store.grows_setRelation hv
    refine ⟨v, hv, h.entered h0 h1 hk (grows.trans later) (fun e => ?_) fun a b => ?_, later⟩
    · rw [Store.count?, (Store.counts_setRelation hv).1]
      exact ucount e
    · rw [Store.relation?_setRelation hv, urelation]
      simp [fit]

end Faithful

end MeshIncidence
