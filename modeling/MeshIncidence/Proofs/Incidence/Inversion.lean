import Mathlib
import MeshIncidence.Proofs.Incidence.Pairs
import MeshIncidence.VertexList

/-!
Inverting relations. A stable sort by a numeric key lines up, key after key, the entries of that key
in their old order; counts totalled into offsets cut such a line at the right places. Main statements:
turning rows round gives, for each target, its sources in ascending order and as often as they refer
to it (`transpose?_ofRows`, `count_turned`), and grouping pairs by source lists the targets of each in
ascending order (`grouped?_eq_ok`, `group_eq_ascending`). Pairs of a relation, grouped by target, are
the relation turned round (`grouped?_swapped`).
-/
namespace MeshIncidence.Incidence

section StableSort

variable {α : Type}

/-- Entries of one key stay in their order. -/
theorem filter_mergeSort_key (key : α → Int) (l : List α) (j : Int) :
    (l.mergeSort fun a b => decide (key a ≤ key b)).filter (fun a => key a == j) =
      l.filter fun a => key a == j := by
  let le : α → α → Bool := fun a b => decide (key a ≤ key b)
  have trans : ∀ a b c, le a b = true → le b c = true → le a c = true := by
    intro a b c
    simp only [le, decide_eq_true_eq]
    exact Int.le_trans
  have total : ∀ a b, (le a b || le b a) = true := by
    intro a b
    simp only [le, Bool.or_eq_true, decide_eq_true_eq]
    exact Int.le_total _ _
  have tied : (l.filter fun a => key a == j).Pairwise fun a b => le a b = true := by
    refine List.pairwise_of_forall_mem_list fun a ha b hb => ?_
    have ha' := (List.mem_filter.mp ha).2
    have hb' := (List.mem_filter.mp hb).2
    simp only [beq_iff_eq] at ha' hb'
    simp [le, ha', hb']
  have sub := (List.sublist_mergeSort trans total tied List.filter_sublist).filter fun a => key a == j
  rw [List.filter_filter] at sub
  simp only [Bool.and_self] at sub
  refine (sub.eq_of_length ?_).symm
  exact ((List.mergeSort_perm l _).filter _).length_eq.symm

/-- A list in ascending order of keys is, up to any key, a stretch of its front. -/
theorem filter_append_filter_not {p : α → Bool} {l : List α}
    (h : l.Pairwise fun a b => p b = true → p a = true) :
    l.filter p ++ l.filter (fun a => !p a) = l := by
  induction l with
  | nil => rfl
  | cons a l ih =>
    rw [List.pairwise_cons] at h
    by_cases ha : p a = true
    · simpa [ha] using ih h.2
    · have none : ∀ b ∈ l, ¬ p b = true := fun b hb hp => ha (h.1 b hb hp)
      have front : l.filter p = [] := List.filter_eq_nil_iff.mpr none
      have back : l.filter (fun a => !p a) = l := by
        rw [List.filter_eq_self]
        intro b hb
        simpa using none b hb
      simp [ha, front, back]

/-- A list in ascending order of keys below `n` lines up its entries key after key. -/
theorem flatMap_filter_key {key : α → Int} {l : List α}
    (sorted : l.Pairwise fun a b => key a ≤ key b) (n : Nat)
    (inside : ∀ a ∈ l, 0 ≤ key a ∧ key a < n) :
    (List.range n).flatMap (fun j : Nat => l.filter fun a => key a == (j : Int)) = l := by
  induction n generalizing l with
  | zero =>
    have : l = [] := by
      refine List.eq_nil_iff_forall_not_mem.mpr fun a ha => ?_
      have := inside a ha
      omega
    simp [this]
  | succ n ih =>
    let front := l.filter fun a => decide (key a < n)
    have hfront := ih (l := front) (sorted.filter _) fun a ha => by
      have := (List.mem_filter.mp ha).2
      exact ⟨(inside a (List.mem_filter.mp ha).1).1, by simpa using this⟩
    have last : (l.filter fun a => key a == (n : Int)) = l.filter fun a => !decide (key a < n) := by
      refine List.filter_congr fun a ha => ?_
      have := inside a ha
      rw [Bool.eq_iff_iff]
      simp only [beq_iff_eq, Bool.not_eq_true', decide_eq_false_iff_not]
      omega
    rw [List.range_succ, List.flatMap_append, List.flatMap_singleton, last]
    have early : (List.range n).flatMap (fun j : Nat => l.filter fun a => key a == (j : Int)) =
        (List.range n).flatMap (fun j : Nat => front.filter fun a => key a == (j : Int)) := by
      rw [List.flatMap_def, List.flatMap_def]
      congr 1
      refine List.map_congr_left fun j hj => ?_
      have hj : j < n := List.mem_range.mp hj
      rw [List.filter_filter]
      refine List.filter_congr fun a _ => ?_
      rw [Bool.eq_iff_iff]
      simp only [beq_iff_eq, Bool.and_eq_true, decide_eq_true_eq]
      omega
    rw [early, hfront]
    refine filter_append_filter_not (sorted.imp fun {a b} hab hb => ?_)
    simp only [decide_eq_true_eq] at hb ⊢
    omega

theorem mergeSort_eq_flatMap {key : α → Int} {l : List α} (n : Nat)
    (inside : ∀ a ∈ l, 0 ≤ key a ∧ key a < n) :
    (l.mergeSort fun a b => decide (key a ≤ key b)) =
      (List.range n).flatMap fun j : Nat => l.filter fun a => key a == (j : Int) := by
  have sorted := List.pairwise_mergeSort' (fun a b => key a ≤ key b) l
  have := flatMap_filter_key sorted n fun a ha => inside a (List.mem_mergeSort.mp ha)
  simpa only [filter_mergeSort_key] using this.symm

end StableSort

/-- Offsets totalled from the lengths of rows cut the rows out again. -/
theorem ofOffsets?_ofRows (rows : List (List Int)) :
    ofOffsets? (runningTotals 0 (rows.map List.length)) rows.flatten = .ok (ofRows rows) := by
  unfold ofOffsets?
  rw [dif_pos (head?_runningTotals 0 _), dif_pos (by simp [getLast?_runningTotals])]
  rfl

/-- The sources of one target, row after row. -/
def column (rows : List (List Int)) (target : Int) : List Int :=
  ((labelled 0 rows).filter fun p => p.2 == target).map Prod.fst

/-- The rows of the relation turned round, onto `n` targets. -/
def turned (rows : List (List Int)) (n : Nat) : List (List Int) :=
  (List.range n).map fun j : Nat => column rows j

theorem length_turned (rows : List (List Int)) (n : Nat) : (turned rows n).length = n := by
  simp [turned]

theorem getElem_turned (rows : List (List Int)) {n j : Nat} (h : j < (turned rows n).length) :
    (turned rows n)[j] = column rows j := by
  simp [turned]

theorem mem_column {rows : List (List Int)} {source target : Int} :
    source ∈ column rows target ↔
      ∃ i, ∃ h : i < rows.length, source = (i : Int) ∧ target ∈ rows[i] := by
  simp only [column, List.mem_map, List.mem_filter, mem_labelled, beq_iff_eq, Nat.zero_add]
  constructor
  · intro h
    rcases h with ⟨p, ⟨⟨i, hi, h1, h2⟩, rfl⟩, rfl⟩
    exact ⟨i, hi, h1, h2⟩
  · intro h
    rcases h with ⟨i, hi, rfl, ht⟩
    exact ⟨(i, target), ⟨⟨i, hi, rfl, ht⟩, rfl⟩, rfl⟩

/-- A source is in the turned row of a target exactly where the target is in its row. -/
theorem mem_getElem_turned {rows : List (List Int)} {n i j : Nat} (hi : i < rows.length)
    (hj : j < (turned rows n).length) :
    (i : Int) ∈ (turned rows n)[j] ↔ (j : Int) ∈ rows[i] := by
  rw [getElem_turned, mem_column]
  constructor
  · intro h
    rcases h with ⟨k, hk, same, h⟩
    have : i = k := by omega
    subst this
    exact h
  · exact fun h => ⟨i, hi, rfl, h⟩

/-- A row refers to a target once for each of its entries there. -/
theorem filter_labelled_row (k : Nat) (row : List Int) (target : Int) :
    ((row.map fun t => ((k : Int), t)).filter fun p => p.2 == target).map Prod.fst =
      List.replicate (row.count target) (k : Int) := by
  rw [List.filter_map, List.map_map, List.eq_replicate_iff]
  refine ⟨?_, fun x hx => ?_⟩
  · rw [List.length_map, List.count_eq_countP, List.countP_eq_length_filter]
    rfl
  · obtain ⟨t, -, rfl⟩ := List.mem_map.mp hx
    rfl

/-- A target's sources of rows numbered from `k` on. -/
theorem count_labelled (k : Nat) (rows : List (List Int)) (i : Nat) (target : Int) :
    (((labelled k rows).filter fun p => p.2 == target).map Prod.fst).count ((k + i : Nat) : Int) =
      (rows.getD i []).count target := by
  induction rows generalizing k i with
  | nil => simp [labelled]
  | cons row rows ih =>
    rw [labelled, List.filter_append, List.map_append, List.count_append, filter_labelled_row,
      List.count_replicate]
    cases i with
    | zero =>
      have later : ((k : Nat) : Int) ∉
          ((labelled (k + 1) rows).filter fun p => p.2 == target).map Prod.fst := by
        intro h
        obtain ⟨p, hp, hk⟩ := List.mem_map.mp h
        obtain ⟨i, -, h1, -⟩ := mem_labelled.mp (List.mem_filter.mp hp).1
        omega
      simp [List.count_eq_zero.mpr later]
    | succ i =>
      have hne : ((k : Int) == ((k + (i + 1) : Nat) : Int)) = false := by
        simp only [beq_eq_false_iff_ne, ne_eq]
        omega
      have step : ((k + (i + 1) : Nat) : Int) = ((k + 1 + i : Nat) : Int) := by congr 1; omega
      rw [hne, step, ih (k + 1) i]
      simp

/-- A source stands in a column as often as its row refers to the target. -/
theorem count_column (rows : List (List Int)) (i : Nat) (target : Int) :
    (column rows target).count (i : Int) = (rows.getD i []).count target := by
  have h := count_labelled 0 rows i target
  rwa [Nat.zero_add] at h

/-- Rows turned round refer back as often as they are referred to. -/
theorem count_turned {rows : List (List Int)} {n : Nat}
    (inside : ∀ row ∈ rows, ∀ e ∈ row, 0 ≤ e ∧ e < n) (i j : Nat) :
    ((turned rows n).getD j []).count (i : Int) = (rows.getD i []).count (j : Int) := by
  by_cases hj : j < n
  · have hj' : j < (turned rows n).length := by simpa [length_turned] using hj
    rw [List.getD_eq_getElem _ _ hj', getElem_turned, count_column]
  · have outside : (j : Int) ∉ rows.getD i [] := by
      by_cases hi : i < rows.length
      · rw [List.getD_eq_getElem _ _ hi]
        intro h
        have := inside _ (List.getElem_mem hi) _ h
        omega
      · simp [Nat.le_of_not_lt hi]
    have missing : (turned rows n).getD j [] = [] := by
      simp [length_turned, Nat.le_of_not_lt hj]
    rw [missing, List.count_eq_zero.mpr outside, List.count_nil]

/-- Rows turned round refer to rows that are there. -/
theorem mem_turned {rows : List (List Int)} {n : Nat} {row : List Int} {e : Int}
    (hrow : row ∈ turned rows n) (he : e ∈ row) : 0 ≤ e ∧ e < rows.length := by
  obtain ⟨j, -, rfl⟩ := List.mem_map.mp hrow
  obtain ⟨i, hi, rfl, -⟩ := mem_column.mp he
  constructor <;> omega

/-- A column is determined by how often each row refers to its target. -/
theorem column_eq_column {rows rows' : List (List Int)} {target target' : Int}
    (h : List.Forall₂ (fun row row' => row.count target = row'.count target') rows rows') :
    column rows target = column rows' target' := by
  suffices ∀ k, ((labelled k rows).filter fun p => p.2 == target).map Prod.fst =
      ((labelled k rows').filter fun p => p.2 == target').map Prod.fst from this 0
  induction h with
  | nil => exact fun _ => rfl
  | cons same _ ih =>
    intro k
    simp only [labelled, List.filter_append, List.map_append, filter_labelled_row, same, ih]

theorem nodup_column {rows : List (List Int)} (h : ∀ row ∈ rows, row.Nodup) (target : Int) :
    (column rows target).Nodup := by
  rw [List.nodup_iff_count_le_one]
  intro source
  by_cases hs : source ∈ column rows target
  · obtain ⟨i, hi, rfl, -⟩ := mem_column.mp hs
    rw [count_column, List.getD_eq_getElem _ _ hi]
    exact List.nodup_iff_count_le_one.mp (h _ (List.getElem_mem hi)) target
  · simp [List.count_eq_zero.mpr hs]

/-- Turned round twice, a row has the same entries again. -/
theorem column_turned_perm {rows : List (List Int)} {n i : Nat} (hi : i < rows.length)
    (inside : ∀ e ∈ rows[i], 0 ≤ e ∧ e < n) : (column (turned rows n) i).Perm rows[i] := by
  rw [List.perm_iff_count]
  intro e
  by_cases he : 0 ≤ e ∧ e < n
  · obtain ⟨k, rfl⟩ := Int.eq_ofNat_of_zero_le he.1
    have hk : k < (turned rows n).length := by rw [length_turned]; omega
    rw [count_column, List.getD_eq_getElem _ _ hk, getElem_turned, count_column,
      List.getD_eq_getElem _ _ hi]
  · have absent : e ∉ column (turned rows n) i := fun h => he <| by
      obtain ⟨k, hk, rfl, -⟩ := mem_column.mp h
      rw [length_turned] at hk
      omega
    rw [List.count_eq_zero_of_not_mem absent,
      List.count_eq_zero_of_not_mem fun h => he (inside e h)]

/-- Pairs of rows are in order if those of each row are, and if a smaller source puts a pair first. -/
theorem pairwise_labelled {R : Int × Int → Int × Int → Prop} {rows : List (List Int)}
    (within : ∀ row ∈ rows, ∀ k : Int, (row.map fun t => (k, t)).Pairwise R)
    (across : ∀ p q : Int × Int, p.1 < q.1 → R p q) (k : Nat) : (labelled k rows).Pairwise R := by
  induction rows generalizing k with
  | nil => simp [labelled]
  | cons row rows ih =>
    rw [List.forall_mem_cons] at within
    refine List.pairwise_append.mpr ⟨within.1 k, ih within.2 (k + 1), fun p hp q hq => across p q ?_⟩
    obtain ⟨t, -, rfl⟩ := List.mem_map.mp hp
    obtain ⟨i, -, h1, -⟩ := mem_labelled.mp hq
    simp only [h1]
    omega

theorem pairwise_column (rows : List (List Int)) (target : Int) :
    (column rows target).Pairwise (· ≤ ·) := by
  have ordered : (labelled 0 rows).Pairwise fun p q => p.1 ≤ q.1 :=
    pairwise_labelled
      (fun _ _ _ => List.pairwise_map.mpr (List.pairwise_of_forall fun _ _ => le_rfl))
      (fun _ _ h => h.le) 0
  exact List.pairwise_map.mpr (ordered.filter _)

/-- Where no row refers to a target twice, its sources ascend strictly. -/
theorem strict_column {rows : List (List Int)} (h : ∀ row ∈ rows, row.Nodup) (target : Int) :
    (column rows target).Pairwise (· < ·) :=
  (pairwise_column rows target).imp₂ (fun _ _ hle hne => lt_of_le_of_ne hle hne)
    (nodup_column h target)

/-- The stable sort lines up the columns. -/
theorem sorted_pairs_ofRows {rows : List (List Int)} {n : Nat}
    (inside : ∀ row ∈ rows, ∀ target ∈ row, 0 ≤ target ∧ target < n) :
    ((ofRows rows).pairs.mergeSort fun p q => decide (p.2 ≤ q.2)).map Prod.fst =
      (turned rows n).flatten := by
  rw [pairs_ofRows, mergeSort_eq_flatMap n, List.map_flatMap, List.flatMap_def]
  · rfl
  · intro p hp
    obtain ⟨i, hi, -, h2⟩ := mem_labelled.mp hp
    exact inside _ (List.getElem_mem hi) _ h2

/-- Targets occur as often as their columns are long. -/
theorem targetCounts_ofRows (rows : List (List Int)) (n : Nat) :
    (ofRows rows).targetCounts n = (turned rows n).map List.length := by
  simp only [targetCounts, turned, List.map_map]
  refine List.map_congr_left fun j _ => ?_
  rw [← pairs_snd, pairs_ofRows, Function.comp_apply, column, List.length_map,
    List.count_eq_countP, List.countP_map, List.countP_eq_length_filter]
  rfl

/-- Where all targets are below `n`, turning rows round fails only if there can be no list of `n` rows. -/
theorem transpose?_of_inside {rows : List (List Int)} {n : Int} (nonneg : 0 ≤ n)
    (inside : ∀ row ∈ rows, ∀ target ∈ row, 0 ≤ target ∧ target < n) :
    (ofRows rows).transpose? n =
      if !Word.fits n then .error (.encoding .notAWord)
      else if n + 1 = Word.bound then .error (.encoding .lengthOutside)
      else .ok (ofRows (turned rows n.toNat)) := by
  have accepted : ((ofRows rows).targets.any fun t => decide (t < 0 ∨ n ≤ t)) = false := by
    rw [List.any_eq_false]
    intro t ht
    obtain ⟨row, hrow, ht⟩ := List.mem_flatten.mp ht
    have := inside row hrow t ht
    simp only [decide_eq_true_eq]
    omega
  have inside' : ∀ row ∈ rows, ∀ target ∈ row, 0 ≤ target ∧ target < n.toNat := by
    rwa [Int.toNat_of_nonneg nonneg]
  have length : (n < 0 ∨ n + 1 = Word.bound) ↔ n + 1 = Word.bound := by omega
  simp only [transpose?, accepted, length, sorted_pairs_ofRows inside', targetCounts_ofRows,
    ofOffsets?_ofRows]
  rfl

/-- Turning rows round succeeds exactly for targets below a length that can be allocated. -/
theorem transpose?_ofRows {rows : List (List Int)} {n : Int} {t : Incidence} :
    (ofRows rows).transpose? n = .ok t ↔
      (∀ row ∈ rows, ∀ target ∈ row, 0 ≤ target ∧ target < n) ∧ 0 ≤ n ∧ n + 1 < Word.bound ∧
        t = ofRows (turned rows n.toNat) := by
  constructor
  · intro h
    have inside : ∀ row ∈ rows, ∀ target ∈ row, 0 ≤ target ∧ target < n := by
      intro row hrow target ht
      by_contra bad
      have outside : ((ofRows rows).targets.any fun t => decide (t < 0 ∨ n ≤ t)) = true :=
        List.any_eq_true.mpr ⟨target, List.mem_flatten.mpr ⟨row, hrow, ht⟩, by
          simp only [decide_eq_true_eq]
          omega⟩
      rw [transpose?, if_pos outside] at h
      cases h
    have nonneg : 0 ≤ n := by
      by_contra negative
      unfold transpose? at h
      split at h
      · cases h
      split at h
      · cases h
      rw [if_pos (by omega)] at h
      cases h
    rw [transpose?_of_inside nonneg inside] at h
    split at h
    · cases h
    rename_i fits
    split at h
    · cases h
    simp only [Word.fits, Bool.not_eq_true', decide_eq_false_iff_not, not_not] at fits
    exact ⟨inside, nonneg, by omega, (Except.ok.inj h).symm⟩
  · intro h
    rcases h with ⟨inside, nonneg, small, rfl⟩
    have fits : Word.fits n = true := by
      rw [Word.fits, decide_eq_true_eq]
      simp only [Word.bound] at small ⊢
      omega
    rw [transpose?_of_inside nonneg inside, fits, if_neg (by decide), if_neg (by omega)]

/-- The targets of one source, ascending. -/
def group (pairs : List (Int × Int)) (source : Int) : List Int :=
  ((pairs.mergeSort fun p q => decide (p.2 ≤ q.2)).filter fun p => p.1 == source).map Prod.snd

/-- The rows of pairs grouped by source, for sources below `n`. -/
def groups (pairs : List (Int × Int)) (n : Nat) : List (List Int) :=
  (List.range n).map fun i : Nat => group pairs i

theorem grouped?_eq_ok {pairs : List (Int × Int)} {n : Nat}
    (inside : ∀ p ∈ pairs, 0 ≤ p.1 ∧ p.1 < n) :
    grouped? pairs n = .ok (ofRows (groups pairs n)) := by
  have nonneg : (pairs.any fun p => decide (p.1 < 0)) = false := by
    rw [List.any_eq_false]
    intro p hp
    have := (inside p hp).1
    simpa using this
  have below : (pairs.all fun p => decide (p.1 < n)) = true := by
    rw [List.all_eq_true]
    exact fun p hp => by simpa using (inside p hp).2
  have lined : (sortPairs pairs).map Prod.snd = (groups pairs n).flatten := by
    rw [sortPairs, mergeSort_eq_flatMap n, List.map_flatMap, List.flatMap_def]
    · rfl
    · exact fun p hp => inside p (List.mem_mergeSort.mp hp)
  have lengths : sourceCounts pairs n = (groups pairs n).map List.length := by
    simp only [sourceCounts, groups, List.map_map]
    refine List.map_congr_left fun i _ => ?_
    rw [Function.comp_apply, group, List.length_map, List.countP_eq_length_filter]
    exact ((List.mergeSort_perm pairs _).filter _).length_eq.symm
  rw [grouped?, nonneg, below, lined, lengths, ofOffsets?_ofRows]
  rfl

/-- Pairs can be grouped exactly where their sources are there. -/
theorem exists_grouped?_iff {pairs : List (Int × Int)} {n : Nat} :
    (∃ r, grouped? pairs n = .ok r) ↔ ∀ p ∈ pairs, 0 ≤ p.1 ∧ p.1 < n := by
  constructor
  · rintro ⟨r, h⟩ p hp
    unfold grouped? at h
    split at h
    · cases h
    rename_i nonneg
    have low : 0 ≤ p.1 := by simpa using List.any_eq_false.mp (Bool.eq_false_iff.mpr nonneg) p hp
    split at h
    · rename_i below
      exact ⟨low, by simpa using List.all_eq_true.mp below p hp⟩
    split at h
    · -- One offset alone, but there is a target.
      obtain ⟨offsets, targets⟩ := ofOffsets?_ok h
      have ends := r.ends_full
      rw [offsets, targets, sortPairs, List.length_map, List.length_mergeSort,
        List.length_mergeSort] at ends
      have empty : pairs = [] := List.eq_nil_of_length_eq_zero (by simpa using ends.symm)
      rw [empty] at hp
      cases hp
    · cases h
  · exact fun inside => ⟨_, grouped?_eq_ok inside⟩

/-- Grouping lists the targets of a source in ascending order, each as often as it is paired. -/
theorem group_eq_ascending (pairs : List (Int × Int)) (source : Int) :
    group pairs source =
      VertexList.ascending ((pairs.filter fun p => p.1 == source).map Prod.snd) := by
  have sorted := List.pairwise_mergeSort' (fun p q : Int × Int => p.2 ≤ q.2) pairs
  exact VertexList.eq_ascending (List.pairwise_map.mpr (sorted.filter _))
    (((List.mergeSort_perm pairs _).filter _).map _)

/-- Pairs of a relation, grouped by target, list its sources. -/
theorem group_swapped (rows : List (List Int)) (target : Int) :
    group ((ofRows rows).pairs.map Prod.swap) target = column rows target := by
  have listed : (((ofRows rows).pairs.map Prod.swap).filter fun p => p.1 == target).map Prod.snd =
      column rows target := by
    rw [List.filter_map, List.map_map, pairs_ofRows]
    rfl
  rw [group_eq_ascending, listed, VertexList.ascending_of_pairwise (pairwise_column rows target)]

/-- Sources of a relation's pairs turned round are its targets. -/
theorem forall_mem_swapped {r : Incidence} {P : Int → Prop} :
    (∀ p ∈ r.pairs.map Prod.swap, P p.1) ↔ ∀ t ∈ r.targets, P t := by
  rw [← pairs_snd, List.forall_mem_map, List.forall_mem_map]
  rfl

/-- Grouped by target, pairs are the rows turned round. -/
theorem groups_swapped (rows : List (List Int)) (n : Nat) :
    groups ((ofRows rows).pairs.map Prod.swap) n = turned rows n :=
  List.map_congr_left fun j _ => group_swapped rows j

theorem grouped?_swapped {rows : List (List Int)} {n : Nat}
    (inside : ∀ t ∈ (ofRows rows).targets, 0 ≤ t ∧ t < n) :
    grouped? ((ofRows rows).pairs.map Prod.swap) n = .ok (ofRows (turned rows n)) := by
  rw [grouped?_eq_ok ((forall_mem_swapped (P := fun t => 0 ≤ t ∧ t < n)).mpr inside), groups_swapped]

end MeshIncidence.Incidence
