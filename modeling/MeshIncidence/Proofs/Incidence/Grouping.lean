import Mathlib
import MeshIncidence.Proofs.Incidence.Transposition

/-!
Grouping pairs. Sorting by target and then stably by source puts pairs in lexicographic order, and the
rows that are cut from it list the targets of each source in ascending order. So the order in which pairs
come does not matter, and the pairs of the relation are those it was built from, sorted.
-/
namespace MeshIncidence.Incidence

theorem pairwise_of_mem_groups {pairs : List (Int × Int)} {n : Nat} {row : List Int}
    (h : row ∈ groups pairs n) : row.Pairwise (· ≤ ·) := by
  obtain ⟨i, -, rfl⟩ := List.mem_map.mp h
  rw [group_eq_ascending]
  exact VertexList.pairwise_ascending _

/-- Pairs in another order have the same groups. -/
theorem groups_congr {pairs pairs' : List (Int × Int)} (h : pairs.Perm pairs') (n : Nat) :
    groups pairs n = groups pairs' n := by
  refine List.map_congr_left fun i _ => ?_
  rw [group_eq_ascending, group_eq_ascending]
  exact VertexList.ascending_congr ((h.filter _).map _)

/-- A group with its source are the pairs of that source, in order of their targets. -/
theorem map_group (pairs : List (Int × Int)) (source : Int) :
    (group pairs source).map (fun t => (source, t)) =
      (pairs.mergeSort fun p q => decide (p.2 ≤ q.2)).filter fun p => p.1 == source := by
  rw [group, List.map_map]
  refine (List.map_congr_left fun p hp => ?_).trans (List.map_id _)
  have own := (List.mem_filter.mp hp).2
  rw [beq_iff_eq] at own
  exact Prod.ext own.symm rfl

theorem zipIdx_groups (pairs : List (Int × Int)) (n : Nat) :
    (groups pairs n).zipIdx = (List.range n).map fun i : Nat => (group pairs i, i) :=
  List.ext_getElem (by simp [groups]) fun i _ _ => by simp [groups]

/-- Groups one after the other are the pairs sorted by target and then stably by source. -/
theorem labelled_groups {pairs : List (Int × Int)} {n : Nat}
    (inside : ∀ p ∈ pairs, 0 ≤ p.1 ∧ p.1 < n) : labelled 0 (groups pairs n) = sortPairs pairs := by
  have sorted : sortPairs pairs = (List.range n).flatMap fun j : Nat =>
      (pairs.mergeSort fun p q => decide (p.2 ≤ q.2)).filter fun p => p.1 == (j : Int) :=
    mergeSort_eq_flatMap n fun p hp => inside p (List.mem_mergeSort.mp hp)
  rw [sorted, labelled_eq_flatMap, zipIdx_groups, List.flatMap_map]
  exact List.flatMap_congr fun i _ => map_group pairs i

theorem sortPairs_perm (pairs : List (Int × Int)) : (sortPairs pairs).Perm pairs :=
  (List.mergeSort_perm _ _).trans (List.mergeSort_perm _ _)

theorem pairs_groups_perm {pairs : List (Int × Int)} {n : Nat}
    (inside : ∀ p ∈ pairs, 0 ≤ p.1 ∧ p.1 < n) : (ofRows (groups pairs n)).pairs.Perm pairs := by
  rw [pairs_ofRows, labelled_groups inside]
  exact sortPairs_perm pairs

/-- Pairs of ascending rows are in lexicographic order. -/
theorem pairwise_pairs_ofRows {rows : List (List Int)}
    (sorted : ∀ row ∈ rows, row.Pairwise (· ≤ ·)) :
    (ofRows rows).pairs.Pairwise fun p q => toLex p ≤ toLex q := by
  rw [pairs_ofRows]
  refine pairwise_labelled (fun row hrow k => List.pairwise_map.mpr ?_) (fun p q h => ?_) 0
  · refine (sorted row hrow).imp ?_
    exact fun h => Prod.Lex.toLex_le_toLex.mpr (.inr ⟨rfl, h⟩)
  · exact Prod.Lex.toLex_le_toLex.mpr (.inl h)

theorem runningTotals_replicate_zero (start : Int) (n : Nat) :
    runningTotals start (List.replicate n 0) = List.replicate (n + 1) start := by
  induction n with
  | zero => rfl
  | succ n ih =>
    rw [List.replicate_succ, runningTotals, Int.natCast_zero, Int.add_zero, ih,
      List.replicate_succ (n := n + 1)]

/-- Without pairs, offsets are written down at once, and they are the same. -/
theorem ofOffsets?_replicate_zero (n : Nat) :
    ofOffsets? (List.replicate (n + 1) 0) [] = .ok (ofRows (groups [] n)) := by
  have empty : groups [] n = List.replicate n [] := by simp [groups, group, List.map_const']
  have laid := ofOffsets?_ofRows (List.replicate n [])
  rwa [List.map_replicate, List.length_nil, runningTotals_replicate_zero, List.flatten_replicate_nil,
    ← empty] at laid

/-- Where all sources are below `n`, pairs are grouped as long as `n` rows can be. -/
theorem ofPairs?_eq {sources targets : List Int} {n : Nat} (paired : sources.length = targets.length)
    (inside : ∀ source ∈ sources, 0 ≤ source ∧ source < n) :
    ofPairs? sources targets n = if (n : Int) + 1 < Word.bound
      then .ok (ofRows (groups (sources.zip targets) n)) else .error .notAWord := by
  have fits : (!Word.fits ((n : Int) + 1)) = true ↔ ¬ (n : Int) + 1 < Word.bound := by
    rw [Bool.not_eq_true', Word.fits, decide_eq_false_iff_not, Word.bound]
    omega
  have grouped : grouped? (sources.zip targets) n = .ok (ofRows (groups (sources.zip targets) n)) :=
    grouped?_eq_ok fun p hp => inside p.1 (List.of_mem_zip hp).1
  unfold ofPairs?
  simp only [fits, ite_not]
  have nonneg : ¬ (n : Int) < 0 := by omega
  by_cases none : sources = []
  · subst none
    have length : ((n : Int) + 1).toNat = n + 1 := by omega
    have nonneg' : ¬ (n : Int) + 1 < 0 := by omega
    rw [if_pos rfl, if_neg nonneg', length, ofOffsets?_replicate_zero, List.zip_nil_left]
  · rw [if_neg none, if_neg paired.ge.not_gt, if_neg nonneg, Int.toNat_natCast, grouped]

theorem zip_map_pairs (r : Incidence) :
    (r.pairs.map Prod.fst).zip (r.pairs.map Prod.snd) = r.pairs := by
  rw [List.zip_map', List.map_id'' fun _ => rfl]

/-- Pairs of a relation, taken the other way, are grouped exactly if it can be turned round, and alike. -/
theorem ofPairs?_swapped {r : Incidence} (ascending : r.Ascending) {n : Nat}
    (within : ∀ t ∈ r.targets, 0 ≤ t ∧ t < n) (back : Incidence) :
    ofPairs? (r.pairs.map Prod.snd) (r.pairs.map Prod.fst) n = .ok back ↔
      r.transpose? n = .ok back := by
  rw [transpose?_of_ascending ascending within]
  have sources : ∀ t ∈ r.pairs.map Prod.snd, 0 ≤ t ∧ t < n := by rwa [pairs_snd]
  have swapped : (r.pairs.map Prod.snd).zip (r.pairs.map Prod.fst) = r.pairs.map Prod.swap :=
    List.zip_map' ..
  obtain ⟨rows, rfl⟩ := exists_rows ascending
  rw [ofPairs?_eq (by rw [List.length_map, List.length_map]) sources, swapped, groups_swapped,
    rows_ofRows]
  split
  · rename_i small
    rw [Except.ok.injEq, eq_comm]
    exact ⟨fun same => ⟨small, same⟩, fun h => h.2⟩
  · rename_i large
    exact ⟨nofun, fun h => absurd h.1 large⟩

/-- Pairs with sources below `n` become a relation of `n` rows, each with the targets of its source in
ascending order and as often as they are paired. It is the same for the pairs in any order, and has the
pairs it was built from, now in lexicographic order. The number of offsets has to be a word. -/
theorem pairs_grouped {sources targets : List Int} {n : Nat}
    (paired : sources.length = targets.length)
    (inside : ∀ source ∈ sources, 0 ≤ source ∧ source < n) (small : (n : Int) + 1 < Word.bound) :
    ∃ r, ofPairs? sources targets n = .ok r ∧ r.Ascending ∧
      r.rows = (List.range n).map (fun i : Nat => VertexList.ascending
        (((sources.zip targets).filter fun p => p.1 == (i : Int)).map Prod.snd)) ∧
      (∀ sources' targets' : List Int, sources'.length = targets'.length →
        (sources'.zip targets').Perm (sources.zip targets) → ofPairs? sources' targets' n = .ok r) ∧
      r.pairs.Perm (sources.zip targets) ∧ r.pairs.Pairwise (fun p q => toLex p ≤ toLex q) ∧
      ofPairs? (r.pairs.map Prod.fst) (r.pairs.map Prod.snd) n = .ok r := by
  have below : ∀ p ∈ sources.zip targets, 0 ≤ p.1 ∧ p.1 < n := fun p hp =>
    inside p.1 (List.of_mem_zip hp).1
  -- All that is built from pairs is a matter of which pairs there are.
  have built : ∀ sources' targets' : List Int, sources'.length = targets'.length →
      (sources'.zip targets').Perm (sources.zip targets) →
      ofPairs? sources' targets' n = .ok (ofRows (groups (sources.zip targets) n)) := by
    intro sources' targets' paired' perm
    have inside' : ∀ source ∈ sources', 0 ≤ source ∧ source < n := by
      intro source hsource
      rw [← List.map_fst_zip paired'.le] at hsource
      obtain ⟨p, hp, rfl⟩ := List.mem_map.mp hsource
      exact below p (perm.mem_iff.mp hp)
    rw [ofPairs?_eq paired' inside', if_pos small, groups_congr perm]
  have perm := pairs_groups_perm below
  refine ⟨_, built sources targets paired (.refl _), ascending_ofRows _, ?_, built, perm,
    pairwise_pairs_ofRows fun row hrow => pairwise_of_mem_groups hrow, ?_⟩
  · rw [rows_ofRows, groups]
    exact List.map_congr_left fun i _ => group_eq_ascending _ _
  · refine built _ _ (by rw [List.length_map, List.length_map]) ?_
    rwa [zip_map_pairs]

/-- A pair that comes twice, a source without pairs, and the same pairs in another order. -/
theorem pairs_grouped_scattered :
    let sources : List Int := [1, 0, 1, 1]
    let targets : List Int := [5, -2, 3, 5]
    sources.length = targets.length ∧ (∀ source ∈ sources, 0 ≤ source ∧ source < (3 : Nat)) ∧
      ((3 : Nat) : Int) + 1 < Word.bound ∧
      ∃ r, ofPairs? sources targets (3 : Nat) = .ok r ∧ r.rows = [[-2], [3, 5, 5], []] ∧
        ofPairs? [1, 1, 1, 0] [5, 5, 3, -2] (3 : Nat) = .ok r ∧
        r.pairs = [(0, -2), (1, 3), (1, 5), (1, 5)] ∧
        ofPairs? (r.pairs.map Prod.fst) (r.pairs.map Prod.snd) (3 : Nat) = .ok r := by
  have paired : ([1, 0, 1, 1] : List Int).length = ([5, -2, 3, 5] : List Int).length := rfl
  have inside : ∀ source ∈ ([1, 0, 1, 1] : List Int), 0 ≤ source ∧ source < (3 : Nat) := by decide
  have small : ((3 : Nat) : Int) + 1 < Word.bound := by decide
  obtain ⟨r, built, -, -, alike, -, -, rebuilt⟩ := pairs_grouped paired inside small
  have computed : ofPairs? [1, 0, 1, 1] [5, -2, 3, 5] (3 : Nat) =
      .ok (ofRows [[-2], [3, 5, 5], []]) := by cbv
  have value : r = ofRows [[-2], [3, 5, 5], []] := Except.ok.inj (built.symm.trans computed)
  have pairs : r.pairs = [(0, -2), (1, 3), (1, 5), (1, 5)] := by
    rw [value, pairs_ofRows]
    rfl
  exact ⟨paired, inside, small, r, built, by rw [value, rows_ofRows],
    alike [1, 1, 1, 0] [5, 5, 3, -2] rfl (by decide), pairs, rebuilt⟩

end MeshIncidence.Incidence
