import Mathlib
import MeshIncidence.Proofs.Audit.Searches
import MeshIncidence.Proofs.Incidence.Transposition
import MeshIncidence.Proofs.Store.Written

/-!
What each check of an audit finds, and that it finds nothing else. The lists of a report are described by
what is recorded, for any store: a dimension that is recorded in part, a relation that refers beyond a
count, an entity with the vertices of an earlier one, a relation that is not its reverse turned round.
-/
namespace MeshIncidence

/-- Row `j` has the entries of row `i`, and of no row before that. -/
structure FirstAlike (rows : List (List Int)) (i j : Nat) : Prop where
  earlier : i < j
  there : j < rows.length
  alike : ∀ v, v ∈ rows.getD i [] ↔ v ∈ rows.getD j []
  first : ∀ k < i, ¬ ∀ v, v ∈ rows.getD k [] ↔ v ∈ rows.getD j []

/-- Rows that differ in their entries, whatever the order. -/
def Different (rows : List (List Int)) : Prop := rows.Pairwise fun a b => ¬ ∀ v, v ∈ a ↔ v ∈ b

/-- Rows differ where their sets of entries do. -/
theorem different_iff_nodup {rows : List (List Int)} :
    Different rows ↔ (rows.map List.toFinset).Nodup := by
  rw [Different, List.Nodup, List.pairwise_map]
  refine List.Pairwise.iff fun a b => ?_
  simp [Finset.ext_iff]

theorem Different.eq_of_toFinset {rows : List (List Int)} (h : Different rows) {i j : Nat}
    (hi : i < rows.length) (hj : j < rows.length) (same : rows[i].toFinset = rows[j].toFinset) :
    i = j := by
  have hi' : i < (rows.map List.toFinset).length := by rwa [List.length_map]
  have hj' : j < (rows.map List.toFinset).length := by rwa [List.length_map]
  have same' : (rows.map List.toFinset)[i] = (rows.map List.toFinset)[j] := by
    rw [List.getElem_map, List.getElem_map, same]
  exact (different_iff_nodup.mp h).getElem_inj_iff.mp same'

theorem forall_not_firstAlike {rows : List (List Int)} :
    (∀ i j, ¬ FirstAlike rows i j) ↔ Different rows := by
  rw [Different, List.pairwise_iff_getElem]
  constructor
  · intro none i j hi hj hij same
    have some : ∃ k, ∀ v, v ∈ rows.getD k [] ↔ v ∈ rows.getD j [] :=
      ⟨i, by simpa [hi, hj] using same⟩
    classical
    have least := Nat.find_min' some (m := i) (by simpa [hi, hj] using same)
    exact none (Nat.find some) j
      ⟨by omega, hj, Nat.find_spec some, fun k hk => Nat.find_min some hk⟩
  · intro different i j h
    have hi : i < rows.length := h.earlier.trans h.there
    exact different i j hi h.there h.earlier (by simpa [hi, h.there] using h.alike)

namespace Incidence

/-- A relation that refers to the first `n` entities alone. -/
def Within (r : Incidence) (n : Nat) : Prop := ∀ t ∈ r.targets, 0 ≤ t ∧ t < n

instance (r : Incidence) (n : Nat) : Decidable (r.Within n) :=
  inferInstanceAs (Decidable (∀ t ∈ r.targets, 0 ≤ t ∧ t < n))

theorem within_iff_rows {r : Incidence} {n : Nat} (ascending : r.Ascending) :
    r.Within n ↔ ∀ row ∈ r.rows, ∀ t ∈ row, 0 ≤ t ∧ t < n := by
  have flat : r.targets = r.rows.flatten := (congrArg targets (ofRows_rows ascending)).symm
  rw [Within, flat]
  exact List.forall_mem_flatten

/-- Rows turned round agree with others, each in any order, exactly where each list refers to any number as
often as the other list refers back. -/
theorem forall₂_turned_iff {a b : List (List Int)} {n : Nat} (length : b.length = n)
    (inside : ∀ row ∈ a, ∀ e ∈ row, 0 ≤ e ∧ e < n) :
    List.Forall₂ List.Perm (turned a n) b ↔
      ∀ j : Nat, j < n → ∀ i : Int, multiplicity a i j = multiplicity b j i := by
  simp only [← multiplicity_turned inside, multiplicity_natCast]
  rw [List.forall₂_iff_get]
  constructor
  · rintro ⟨-, each⟩ j hj i
    have there : j < (turned a n).length := by rwa [length_turned]
    rw [List.getD_eq_getElem _ _ there, List.getD_eq_getElem _ _ (by omega)]
    exact (each j there (by omega)).count_eq i
  · intro counts
    refine ⟨by rw [length_turned, length], fun j h₁ h₂ => List.perm_iff_count.mpr fun i => ?_⟩
    have same := counts j (by omega) i
    rwa [List.getD_eq_getElem _ _ h₁, List.getD_eq_getElem _ _ h₂] at same

end Incidence

/-- Offsets of what is recorded do not fall. -/
def Store.Ascending (s : Store) : Prop := ∀ d0 d1 r, s.relation? d0 d1 = some r → r.Ascending

theorem Store.Coherent.length_rows {s : Store} {d0 d1 : Int} {r : Incidence} (h : s.Coherent)
    (hr : s.relation? d0 d1 = some r) : r.rows.length = s.sizeOf d0 := by
  obtain ⟨-, -, sources⟩ := h.rows hr
  rw [Incidence.length_rows, sizeOf, sources, Option.getD_some]

/-- A relation that stays inside the counts, turned round, agrees with its reverse exactly where the two
refer to each other equally often. -/
theorem Store.Coherent.turned_iff {s : Store} {d0 d1 : Int} {r q : Incidence} (h : s.Coherent)
    (ascending : s.Ascending) (hr : s.relation? d0 d1 = some r) (hq : s.relation? d1 d0 = some q)
    (within : r.Within (s.sizeOf d1)) :
    List.Forall₂ List.Perm (Incidence.turned r.rows (s.sizeOf d1)) q.rows ↔
      ∀ e1 : Nat, e1 < s.sizeOf d1 → ∀ e0 : Int,
        Incidence.multiplicity r.rows e0 e1 = Incidence.multiplicity q.rows e1 e0 :=
  Incidence.forall₂_turned_iff (h.length_rows hq)
    ((Incidence.within_iff_rows (ascending _ _ _ hr)).mp within)

namespace Audit

variable {s : Store} {d d0 d1 : Int} {i j : Nat} {r q : Incidence}

section Lists

variable {findings : List Finding}

theorem mem_dims : d ∈ dims findings ↔ .unlinked d ∈ findings ∨ .uncounted d ∈ findings := by
  rw [dims, List.mem_filterMap]
  constructor
  · rintro ⟨f, hf, hd⟩
    cases f <;> cases hd
    · exact .inl hf
    · exact .inr hf
  · rintro (h | h)
    · exact ⟨_, h, rfl⟩
    · exact ⟨_, h, rfl⟩

theorem mem_pairs : (d0, d1) ∈ pairs findings ↔
    (∃ n, .outOfBounds d0 d1 n ∈ findings) ∨ .notInverse d0 d1 ∈ findings := by
  rw [pairs, List.mem_filterMap]
  constructor
  · rintro ⟨f, hf, hd⟩
    cases f <;> cases hd
    · exact .inl ⟨_, hf⟩
    · exact .inr hf
  · rintro (⟨n, h⟩ | h)
    · exact ⟨_, h, rfl⟩
    · exact ⟨_, h, rfl⟩

theorem mem_triples : (d, i, j) ∈ triples findings ↔
    ∃ vertices, .shared d i j vertices ∈ findings := by
  rw [triples, List.mem_filterMap]
  constructor
  · rintro ⟨f, hf, hd⟩
    cases f <;> cases hd
    exact ⟨_, hf⟩
  · rintro ⟨vertices, h⟩
    exact ⟨_, h, rfl⟩

end Lists

/-- A dimension is recorded with both of its defining relations or with neither. -/
theorem dimFinding_eq_none_iff : dimFinding s d = none ↔ s.Whole d ∨ s.Absent d := by
  rw [Store.whole_iff, Store.absent_iff]
  unfold dimFinding
  cases s.count? d <;> cases s.relation? s.dim d <;> cases s.relation? d 0 <;> simp

theorem dimFinding_eq_some {f : Finding} (h : dimFinding s d = some f) :
    f = .unlinked d ∨ f = .uncounted d := by
  unfold dimFinding at h
  dsimp only at h
  split at h
  · split at h
    · cases h
    · exact .inl (Option.some.inj h).symm
  split at h
  · exact .inr (Option.some.inj h).symm
  · cases h

theorem mem_dims_consistency :
    d ∈ dims (consistency s) ↔ s.Covers d ∧ ¬ (s.Whole d ∨ s.Absent d) := by
  rw [mem_dims, consistency, List.mem_filterMap, List.mem_filterMap, ← dimFinding_eq_none_iff]
  constructor
  · rintro (⟨e, he, h⟩ | ⟨e, he, h⟩)
    all_goals
      have same : e = d := by
        rcases dimFinding_eq_some h with named | named <;> cases named
        rfl
      subst same
      exact ⟨Store.mem_dimensions.mp he, by simp [h]⟩
  · rintro ⟨covers, found⟩
    obtain ⟨f, hf⟩ := Option.ne_none_iff_exists'.mp found
    rcases dimFinding_eq_some hf with rfl | rfl
    · exact .inl ⟨d, Store.mem_dimensions.mpr covers, hf⟩
    · exact .inr ⟨d, Store.mem_dimensions.mpr covers, hf⟩

theorem boundsFinding_eq {entry : (Int × Int) × Incidence} :
    boundsFinding s entry = if entry.2.Within (s.sizeOf entry.1.2) then none
      else some (.outOfBounds entry.1.1 entry.1.2 (s.sizeOf entry.1.2)) := by
  have outside : (entry.2.targets.any fun t =>
      decide (t < 0 ∨ (s.sizeOf entry.1.2 : Int) ≤ t)) = true ↔
        ¬ entry.2.Within (s.sizeOf entry.1.2) := by
    simp only [Incidence.Within, List.any_eq_true, decide_eq_true_eq, not_forall, exists_prop,
      not_and_or, not_le, not_lt]
  simp only [boundsFinding, outside, ite_not]

theorem mem_pairs_bounds : (d0, d1) ∈ pairs (bounds s) ↔
    ∃ r, s.relation? d0 d1 = some r ∧ ¬ r.Within (s.sizeOf d1) := by
  rw [mem_pairs]
  simp only [bounds, List.mem_filterMap, boundsFinding_eq, Store.mem_recordedRelations]
  constructor
  · rintro (⟨n, entry, hr, found⟩ | ⟨entry, -, found⟩)
    · split at found
      · cases found
      · rename_i beyond
        cases found
        exact ⟨entry.2, hr, beyond⟩
    · split at found <;> cases found
  · rintro ⟨r, hr, beyond⟩
    exact .inl ⟨_, ((d0, d1), r), hr, by rw [if_neg beyond]⟩

theorem sharedFinding_eq_some_iff {rows : List (List Int)} (hj : j < rows.length) {f : Finding} :
    sharedFinding d rows (rows[j], j) = some f ↔
      ∃ i, FirstAlike rows i j ∧ f = .shared d i j (VertexList.distinct rows[j]) := by
  have earlier : ∀ {i}, ((rows.take j).findIdx? fun row => VertexList.sameSet row rows[j]) =
      some i ↔ FirstAlike rows i j := by
    intro i
    simp only [List.findIdx?_eq_some_iff_getElem, List.getElem_take, List.length_take,
      VertexList.sameSet_iff]
    constructor
    · rintro ⟨hi, same, first⟩
      refine ⟨by omega, hj, ?_, fun k hk => ?_⟩
      · rwa [List.getD_eq_getElem _ _ (by omega), List.getD_eq_getElem _ _ hj]
      · rw [List.getD_eq_getElem _ _ (by omega), List.getD_eq_getElem _ _ hj]
        exact first k hk
    · intro h
      have hi := h.earlier
      have same := h.alike
      rw [List.getD_eq_getElem _ _ (by omega), List.getD_eq_getElem _ _ hj] at same
      refine ⟨by omega, same, fun k hk => ?_⟩
      have differ := h.first k hk
      rwa [List.getD_eq_getElem _ _ (by omega), List.getD_eq_getElem _ _ hj] at differ
  unfold sharedFinding
  dsimp only
  split
  · rename_i none
    simp [← earlier, none]
  · rename_i first some
    simp [← earlier, some, eq_comm]

theorem mem_sharedIn {f : Finding} : f ∈ sharedIn s d ↔
    ∃ r, s.relation? d 0 = some r ∧ ∃ i j, FirstAlike r.rows i j ∧
      f = .shared d i j (VertexList.distinct (r.rows.getD j [])) := by
  unfold sharedIn
  split
  · rename_i none
    simp [none]
  · rename_i r hr
    rw [List.mem_filterMap]
    constructor
    · rintro ⟨⟨row, j⟩, hrow, found⟩
      have hrow : r.rows[j]? = some row := List.mem_zipIdx_iff_getElem?.mp hrow
      obtain ⟨hj, rfl⟩ := List.getElem?_eq_some_iff.mp hrow
      obtain ⟨i, alike, rfl⟩ := (sharedFinding_eq_some_iff hj).mp found
      exact ⟨r, hr, i, j, alike, by rw [List.getD_eq_getElem _ _ hj]⟩
    · rintro ⟨q, hq, i, j, alike, rfl⟩
      rw [hr] at hq
      cases hq
      have hj := alike.there
      refine ⟨(r.rows[j], j), List.mem_zipIdx_iff_getElem?.mpr (by simp [hj]), ?_⟩
      exact (sharedFinding_eq_some_iff hj).mpr ⟨i, alike, by rw [List.getD_eq_getElem _ _ hj]⟩

theorem mem_duplicates {f : Finding} : f ∈ duplicates s ↔
    ∃ d r i j, (1 ≤ d ∧ d ≤ s.dim ∧ s.relation? d 0 = some r ∧ FirstAlike r.rows i j) ∧
      f = .shared d i j (VertexList.distinct (r.rows.getD j [])) := by
  simp only [duplicates, List.mem_flatMap, List.mem_filter, Store.mem_dimensions, decide_eq_true_eq,
    mem_sharedIn]
  constructor
  · rintro ⟨d, ⟨covers, above⟩, r, hr, i, j, alike, rfl⟩
    exact ⟨d, r, i, j, ⟨above, covers.2, hr, alike⟩, rfl⟩
  · rintro ⟨d, r, i, j, ⟨above, below, hr, alike⟩, rfl⟩
    exact ⟨d, ⟨⟨by omega, below⟩, above⟩, r, hr, i, j, alike, rfl⟩

theorem mem_triples_duplicates : (d, i, j) ∈ triples (duplicates s) ↔
    1 ≤ d ∧ d ≤ s.dim ∧ ∃ r, s.relation? d 0 = some r ∧ FirstAlike r.rows i j := by
  simp only [mem_triples, mem_duplicates]
  constructor
  · rintro ⟨_, d, r, i, j, ⟨above, below, hr, alike⟩, named⟩
    cases named
    exact ⟨above, below, r, hr, alike⟩
  · rintro ⟨above, below, r, hr, alike⟩
    exact ⟨_, d, r, i, j, ⟨above, below, hr, alike⟩, rfl⟩

theorem triples_duplicates_eq_nil_iff : triples (duplicates s) = [] ↔
    ∀ d r, 1 ≤ d → d ≤ s.dim → s.relation? d 0 = some r → Different r.rows := by
  rw [List.eq_nil_iff_forall_not_mem]
  constructor
  · intro none d r above below hr
    refine forall_not_firstAlike.mp fun i j alike => ?_
    exact none (d, i, j) (mem_triples_duplicates.mpr ⟨above, below, r, hr, alike⟩)
  · rintro different ⟨d, i, j⟩ found
    obtain ⟨above, below, r, hr, alike⟩ := mem_triples_duplicates.mp found
    exact forall_not_firstAlike.mpr (different d r above below hr) i j alike

theorem sameRows_iff {a b : List (List Int)} :
    sameRows a b = true ↔ List.Forall₂ List.Perm a b := by
  rw [sameRows, Bool.and_eq_true, beq_iff_eq, List.all_eq_true, List.forall₂_iff_zip]
  refine and_congr_right fun _ => ?_
  constructor
  · intro h x y hxy
    exact List.isPerm_iff.mp (h (x, y) hxy)
  · intro h entry hentry
    exact List.isPerm_iff.mpr (h hentry)

/-- A relation is compared with its reverse, if it rises in dimension and the reverse is recorded. -/
theorem inverseFinding_unpaired (h : d0 < d1 → s.relation? d1 d0 = none) :
    inverseFinding s ((d0, d1), r) = .ok none := by
  unfold inverseFinding
  dsimp only
  split
  · rfl
  · rename_i q hq
    rw [if_pos]
    by_contra rising
    rw [h (by omega)] at hq
    cases hq

theorem inverseFinding_paired (rising : d0 < d1) (hq : s.relation? d1 d0 = some q)
    (ascending : r.Ascending) (within : r.Within (s.sizeOf d1)) :
    inverseFinding s ((d0, d1), r) =
      .ok (if sameRows (Incidence.turned r.rows (s.sizeOf d1)) q.rows then none
        else some (.notInverse d0 d1)) := by
  obtain ⟨rows, rfl⟩ := Incidence.exists_rows ascending
  simp only [inverseFinding, hq, if_neg (Int.not_le.mpr rising), Incidence.grouped?_swapped within,
    Outcome.mapError_ok, Outcome.map_ok, Incidence.rows_ofRows]

/-- A relation can be compared with its reverse as far as it refers to entities that are there. -/
theorem exists_inverseFinding_iff : (∃ f, inverseFinding s ((d0, d1), r) = .ok f) ↔
    (d0 < d1 → (s.relation? d1 d0).isSome → r.Within (s.sizeOf d1)) := by
  by_cases paired : d0 < d1 ∧ (s.relation? d1 d0).isSome
  · obtain ⟨rising, some⟩ := paired
    obtain ⟨q, hq⟩ := Option.isSome_iff_exists.mp some
    have grouped : (∃ f, inverseFinding s ((d0, d1), r) = .ok f) ↔
        ∃ back, Incidence.grouped? (r.pairs.map Prod.swap) (s.sizeOf d1) = .ok back := by
      simp only [inverseFinding, hq, if_neg (Int.not_le.mpr rising)]
      cases Incidence.grouped? (r.pairs.map Prod.swap) (s.sizeOf d1) <;> simp
    rw [grouped, Incidence.exists_grouped?_iff]
    simp only [rising, some, true_implies]
    exact Incidence.forall_mem_swapped (P := fun t => 0 ≤ t ∧ t < s.sizeOf d1)
  · have unpaired : d0 < d1 → s.relation? d1 d0 = none := by simpa using paired
    rw [inverseFinding_unpaired unpaired]
    simp only [Except.ok.injEq, exists_eq', true_iff]
    exact fun rising some => absurd ⟨rising, some⟩ paired

theorem exists_inverses_iff : (∃ found, inverses s = .ok found) ↔
    ∀ d0 d1 r, d0 < d1 → s.relation? d0 d1 = some r → (s.relation? d1 d0).isSome →
      r.Within (s.sizeOf d1) := by
  have each : (∃ found, inverses s = .ok found) ↔
      ∀ entry ∈ s.recordedRelations, ∃ f, inverseFinding s entry = .ok f := by
    rw [← Outcome.exists_mapM_eq_ok]
    constructor
    · rintro ⟨found, h⟩
      obtain ⟨findings, looked, -⟩ := Outcome.map_eq_ok.mp h
      exact ⟨findings, looked⟩
    · rintro ⟨findings, looked⟩
      exact ⟨_, Outcome.map_eq_ok.mpr ⟨findings, looked, rfl⟩⟩
  rw [each]
  constructor
  · intro h d0 d1 r rising hr
    exact exists_inverseFinding_iff.mp (h ((d0, d1), r) (Store.mem_recordedRelations.mpr hr)) rising
  · rintro h ⟨⟨d0, d1⟩, r⟩ hr
    exact exists_inverseFinding_iff.mpr fun rising =>
      h d0 d1 r rising (Store.mem_recordedRelations.mp hr)

theorem mem_inverses {found : List Finding} (h : inverses s = .ok found) {f : Finding} :
    f ∈ found ↔ ∃ entry, s.relation? entry.1.1 entry.1.2 = some entry.2 ∧
      inverseFinding s entry = .ok (some f) := by
  obtain ⟨findings, hf, rfl⟩ := Outcome.map_eq_ok.mp h
  rw [List.mem_filterMap]
  simp only [id, exists_eq_right, Outcome.mem_of_mapM hf, Store.mem_recordedRelations]

theorem mem_pairs_inverses (ascending : s.Ascending) {found : List Finding}
    (h : inverses s = .ok found) : (d0, d1) ∈ pairs found ↔
      d0 < d1 ∧ ∃ r q, s.relation? d0 d1 = some r ∧ s.relation? d1 d0 = some q ∧
        ¬ List.Forall₂ List.Perm (Incidence.turned r.rows (s.sizeOf d1)) q.rows := by
  have within := exists_inverses_iff.mp ⟨found, h⟩
  -- What is found of one relation, by whether its reverse is recorded.
  have finding : ∀ {a b r f}, s.relation? a b = some r →
      inverseFinding s ((a, b), r) = .ok (some f) → a < b ∧ f = .notInverse a b ∧
        ∃ q, s.relation? b a = some q ∧
          ¬ List.Forall₂ List.Perm (Incidence.turned r.rows (s.sizeOf b)) q.rows := by
    intro a b r f hr hf
    by_cases paired : a < b → s.relation? b a = none
    · rw [inverseFinding_unpaired paired] at hf
      cases hf
    · obtain ⟨rising, some⟩ := Classical.not_imp.mp paired
      obtain ⟨q, hq⟩ := Option.ne_none_iff_exists'.mp some
      rw [inverseFinding_paired rising hq (ascending _ _ _ hr) (within a b r rising hr (by simp [hq]))]
        at hf
      split at hf
      · cases hf
      · rename_i differ
        rw [sameRows_iff] at differ
        cases hf
        exact ⟨rising, rfl, q, hq, differ⟩
  rw [mem_pairs]
  simp only [mem_inverses h]
  constructor
  · rintro (⟨n, ⟨⟨a, b⟩, r⟩, hr, hf⟩ | ⟨⟨⟨a, b⟩, r⟩, hr, hf⟩)
    all_goals
      obtain ⟨rising, named, q, hq, differ⟩ := finding hr hf
      cases named
    exact ⟨rising, r, q, hr, hq, differ⟩
  · rintro ⟨rising, r, q, hr, hq, differ⟩
    refine .inr ⟨((d0, d1), r), hr, ?_⟩
    rw [inverseFinding_paired rising hq (ascending _ _ _ hr) (within d0 d1 r rising hr (by simp [hq])),
      if_neg (by rwa [sameRows_iff])]

theorem report_eq {found : List Finding} (h : inverses s = .ok found) :
    report ⟨true, true, true, true⟩ s =
      .ok ⟨some (dims (consistency s)), some (pairs (bounds s)), some (triples (duplicates s)),
        some (pairs found)⟩ := by
  rw [report_eq_lists, if_pos rfl, h]
  rfl

end Audit

theorem Report.valid_iff {a : List Int} {b c} {e : List (Int × Int)} :
    (⟨some a, some b, some c, some e⟩ : Report).valid = true ↔ a = [] ∧ b = [] ∧ c = [] ∧ e = [] := by
  simp [valid, and_assoc]

end MeshIncidence
