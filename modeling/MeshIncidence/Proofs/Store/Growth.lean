import Mathlib
import MeshIncidence.Store

/-!
Growing stores. Counts and relations are written once, so a write that succeeds leaves everything
that was recorded before as it was.
-/
namespace MeshIncidence.Store

/-- Whatever `s` has recorded, `t` has recorded alike. -/
structure Grows (s t : Store) : Prop where
  dim : t.dim = s.dim
  count : ∀ {d n}, s.count? d = some n → t.count? d = some n
  relation : ∀ {a b r}, s.relation? a b = some r → t.relation? a b = some r

theorem Grows.refl (s : Store) : s.Grows s := ⟨rfl, id, id⟩

theorem Grows.trans {s t u : Store} (h : s.Grows t) (g : t.Grows u) : s.Grows u :=
  ⟨g.dim.trans h.dim, fun hc => g.count (h.count hc), fun hr => g.relation (h.relation hr)⟩

theorem grows_setCount {s t : Store} {dim size : Int} (h : s.setCount dim size = .ok t) :
    s.Grows t := by
  obtain ⟨hr, hd⟩ := relations_setCount h
  obtain ⟨-, fresh, -, -⟩ := setCount_ok h
  refine ⟨hd, fun {d n} hc => ?_, fun {a b r} hs => by rw [relation?, hr]; exact hs⟩
  rw [count?_setCount h, if_neg, hc]
  rintro rfl
  rw [fresh] at hc
  cases hc

theorem grows_setRelation {s t : Store} {d0 d1 : Int} {r : Incidence}
    (h : s.setRelation d0 d1 r = .ok t) : s.Grows t := by
  obtain ⟨hc, hd⟩ := counts_setRelation h
  obtain ⟨-, -, fresh, -, -⟩ := setRelation_ok h
  refine ⟨hd, fun {d n} hs => by rw [count?, hc]; exact hs, fun {a b r'} hs => ?_⟩
  rw [relation?_setRelation h, if_neg, hs]
  intro h
  rcases h with ⟨rfl, rfl⟩
  rw [fresh] at hs
  cases hs

theorem setCount_eq {s : Store} {dim size : Int} (covers : s.Covers dim)
    (fresh : s.count? dim = none) (nonneg : 0 ≤ size) :
    s.setCount dim size = .ok { s with counts := s.counts ++ [(dim, size.toNat)] } := by
  have : ¬ size < 0 := by omega
  simp [setCount, within, covers, fresh, this]

theorem setRelation_eq {s : Store} {d0 d1 : Int} {r : Incidence} (c0 : s.Covers d0)
    (c1 : s.Covers d1) (fresh : s.relation? d0 d1 = none)
    (rows : s.count? d0 = some r.sourceCount) :
    s.setRelation d0 d1 r = .ok { s with relations := s.relations ++ [((d0, d1), r)] } := by
  simp [setRelation, within, c0, c1, fresh, rows]

/-- A new count of a covered dimension is accepted. -/
theorem setCount_fresh {s : Store} {dim : Int} (covers : s.Covers dim) (n : Nat)
    (fresh : s.count? dim = none) : ∃ t, s.setCount dim n = .ok t :=
  ⟨_, setCount_eq covers fresh (Int.natCast_nonneg n)⟩

/-- A new relation with a row for every source is accepted. -/
theorem setRelation_fresh {s : Store} {d0 d1 : Int} {r : Incidence} (c0 : s.Covers d0)
    (c1 : s.Covers d1) (fresh : s.relation? d0 d1 = none)
    (rows : s.count? d0 = some r.sourceCount) : ∃ t, s.setRelation d0 d1 r = .ok t :=
  ⟨_, setRelation_eq c0 c1 fresh rows⟩

/-- The two writes that enter a dimension: its count, and its part in every entity of the greatest
dimension. -/
theorem enter_dimension {s : Store} {d : Int} {n : Nat} (parts : Incidence) (hd : s.Covers d)
    (ht : s.Covers s.dim) (below : d ≠ s.dim) (fresh : s.count? d = none)
    (freshParts : s.relation? s.dim d = none) (top : s.count? s.dim = some parts.sourceCount) :
    ∃ t u, s.setCount d n = .ok t ∧ t.setRelation t.dim d parts = .ok u ∧ s.Grows u ∧
      (∀ e, u.count? e = if e = d then some n else s.count? e) ∧
      ∀ a b, u.relation? a b = if a = s.dim ∧ b = d then some parts else s.relation? a b := by
  obtain ⟨t, hst⟩ := setCount_fresh hd n fresh
  obtain ⟨trel, tdim⟩ := relations_setCount hst
  have trelation : ∀ a b, t.relation? a b = s.relation? a b := fun a b => by
    rw [relation?, trel, relation?]
  have tcovers : ∀ {e}, s.Covers e → t.Covers e := fun {e} he => by
    simpa [Covers, tdim] using he
  obtain ⟨u, htu⟩ : ∃ u, t.setRelation t.dim d parts = .ok u := by
    rw [tdim]
    apply setRelation_fresh (tcovers ht) (tcovers hd) (by simp [trelation, freshParts])
    rw [count?_setCount hst, if_neg (Ne.symm below), top]
  refine ⟨t, u, hst, htu, (grows_setCount hst).trans (grows_setRelation htu), fun e => ?_,
    fun a b => ?_⟩
  · rw [count?, (counts_setRelation htu).1, ← count?, count?_setCount hst, Int.toNat_natCast]
  · rw [relation?_setRelation htu, tdim, trelation]

theorem mem_upTo {top d : Int} :
    d ∈ (List.range (top + 1).toNat).map Int.ofNat ↔ 0 ≤ d ∧ d ≤ top := by
  simp only [List.mem_map, List.mem_range]
  constructor
  · rintro ⟨i, hi, rfl⟩
    simp only [Int.ofNat_eq_natCast]
    omega
  · rintro ⟨nonneg, below⟩
    exact ⟨d.toNat, by omega, Int.toNat_of_nonneg nonneg⟩

theorem mem_dimensions {s : Store} {d : Int} : d ∈ s.dimensions ↔ s.Covers d := mem_upTo

/-- What is recorded is listed as recorded. -/
theorem mem_recordedRelations {s : Store} {entry : (Int × Int) × Incidence} :
    entry ∈ s.recordedRelations ↔ s.relation? entry.1.1 entry.1.2 = some entry.2 := by
  obtain ⟨⟨d0, d1⟩, r⟩ := entry
  rw [recordedRelations, List.mem_filterMap]
  constructor
  · rintro ⟨p, -, hp⟩
    obtain ⟨q, hq, same⟩ := Option.map_eq_some_iff.mp hp
    cases same
    exact hq
  · intro hr
    obtain ⟨before, after, split, -⟩ := List.lookup_eq_some_iff.mp hr
    have listed : (d0, d1) ∈ s.recordedPairs := by
      rw [recordedPairs, List.mem_mergeSort, split]
      simp
    exact ⟨(d0, d1), listed, by rw [hr]; rfl⟩

theorem findRelation_of_covers {s : Store} {d0 d1 : Int} (c0 : s.Covers d0) (c1 : s.Covers d1) :
    s.findRelation d0 d1 = .ok (s.relation? d0 d1) := by
  simp [findRelation, within, c0, c1]

theorem hasRelation_of_covers {s : Store} {d0 d1 : Int} (c0 : s.Covers d0) (c1 : s.Covers d1) :
    s.hasRelation d0 d1 = .ok (s.relation? d0 d1).isSome := by
  rw [hasRelation, findRelation_of_covers c0 c1]
  rfl

theorem relation_of_some {s : Store} {d0 d1 : Int} {r : Incidence} (c0 : s.Covers d0)
    (c1 : s.Covers d1) (h : s.relation? d0 d1 = some r) : s.relation d0 d1 = .ok r := by
  rw [relation, findRelation_of_covers c0 c1, h]
  rfl

theorem size_of_some {s : Store} {dim : Int} {n : Nat} (covers : s.Covers dim)
    (h : s.count? dim = some n) : s.size dim = .ok n := by
  simp [size, within, covers, sizeOf, h]

end MeshIncidence.Store
