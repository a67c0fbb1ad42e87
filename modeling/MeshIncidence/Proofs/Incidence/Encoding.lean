import Mathlib
import MeshIncidence.Proofs.Incidence.Pairs

/-!
The encoding of rows. Offsets that do not fall cut the targets into adjacent stretches, so a relation
with such offsets is the one its rows lay out. Reading one row, how far its ends are apart, or every
target with its source then says the same as reading all rows, also where many rows are empty.
-/
namespace MeshIncidence.Incidence
open Position

/-- Offsets from `start` on, and the stretches between them, cover the targets from there. -/
theorem cut_from {targets : List Int} {start : Nat} {offsets : List Int}
    (ascending : ((start : Int) :: offsets).Pairwise (· ≤ ·))
    (finish : ((start : Int) :: offsets).getLast? = some (targets.length : Int)) :
    let rows := (((start : Int) :: offsets).zip offsets).map fun span => slice targets span.1 span.2
    runningTotals start (rows.map List.length) = (start : Int) :: offsets ∧
      rows.flatten = targets.drop start := by
  induction offsets generalizing start with
  | nil =>
    have whole : start = targets.length := by simpa using finish
    simp [runningTotals, whole]
  | cons next offsets ih =>
    obtain ⟨first, rest⟩ := List.pairwise_cons.mp ascending
    have onward : (start : Int) ≤ next := first next (List.mem_cons_self ..)
    obtain ⟨stop, rfl⟩ := Int.eq_ofNat_of_zero_le ((Int.natCast_nonneg start).trans onward)
    rw [List.getLast?_cons_cons] at finish
    have bounded : (stop : Int) ≤ targets.length := by
      rcases List.mem_cons.mp (List.mem_of_getLast? finish) with last | later
      · exact last.symm.le
      · exact (List.pairwise_cons.mp rest).1 _ later
    have cut : slice targets start stop = (targets.take stop).drop start := by
      rw [slice_natCast, Nat.min_eq_left (by omega)]
    have width : ((targets.take stop).drop start).length = stop - start := by
      rw [List.length_drop, List.length_take]
      omega
    have joined : (targets.take stop).drop start ++ targets.drop stop = targets.drop start := by
      rw [← List.drop_append_of_le_length (by rw [List.length_take]; omega), List.take_append_drop]
    obtain ⟨totals, flat⟩ := ih rest finish
    have total : (start : Int) + ((stop - start : Nat) : Int) = stop := by omega
    simp only [List.zip_cons_cons, List.map_cons, List.flatten_cons, runningTotals, cut, width, total]
    exact ⟨congrArg _ totals, by rw [flat, joined]⟩

/-- Rows of a relation lay it out again. -/
theorem ofRows_rows {r : Incidence} (ascending : r.Ascending) : ofRows r.rows = r := by
  obtain ⟨offsets, targets, starts, ends⟩ := r
  cases offsets with
  | nil => cases starts
  | cons start offsets =>
    have zero : start = ((0 : Nat) : Int) := by simpa using starts
    subst zero
    obtain ⟨totals, flat⟩ := cut_from ascending ends
    simp only [ofRows, rows, spans, List.tail_cons, mk.injEq]
    exact ⟨totals, by rw [flat, List.drop_zero]⟩

/-- A relation whose offsets do not fall was laid out from rows. -/
theorem exists_rows {r : Incidence} (ascending : r.Ascending) : ∃ rows, r = ofRows rows :=
  ⟨r.rows, (ofRows_rows ascending).symm⟩

/-- The list of a source that is there is a row. -/
theorem row_eq_getElem {r : Incidence} {i : Nat} (h : i < r.rows.length) :
    r.row i = .ok r.rows[i] := by
  have source : i < r.sourceCount := by rwa [length_rows] at h
  have before : i < r.offsets.length := by rw [sourceCount] at source; omega
  have after : i + 1 < r.offsets.length := by rw [sourceCount] at source; omega
  rw [row, if_pos ⟨by omega, by omega⟩, Int.toNat_natCast, List.getD_eq_getElem _ _ before,
    List.getD_eq_getElem _ _ after]
  simp [rows, spans]

theorem row_ofRows {rows : List (List Int)} {i : Nat} (h : i < rows.length) :
    (ofRows rows).row i = .ok rows[i] := by
  rw [row_eq_getElem (by rwa [rows_ofRows])]
  simp only [rows_ofRows]

/-- A source that is not there has no list. -/
theorem row_outside {r : Incidence} {i : Int} (h : i < 0 ∨ r.rows.length ≤ i) :
    r.row i = .error (.sourceOutside i r.rows.length) := by
  rw [length_rows] at h ⊢
  rw [row, if_neg (by omega)]

/-- The first stretch of the totals, and those after it. -/
theorem zip_tail_runningTotals (start : Int) (n : Nat) (ns : List Nat) :
    (runningTotals start (n :: ns)).zip (runningTotals start (n :: ns)).tail =
      (start, start + n) :: (runningTotals (start + n) ns).zip (runningTotals (start + n) ns).tail := by
  cases ns <;> rfl

theorem map_difference_runningTotals {start : Int} (nonneg : 0 ≤ start) (ns : List Nat) :
    ((runningTotals start ns).zip (runningTotals start ns).tail).map
      (fun span => Word.difference span.2 span.1) = ns.map fun n : Nat => (n : Int) := by
  induction ns generalizing start with
  | nil => rfl
  | cons n ns ih =>
    have next : 0 ≤ start + n := by omega
    rw [zip_tail_runningTotals, List.map_cons, ih next, List.map_cons,
      Word.difference_of_nonneg nonneg next]
    congr 1
    omega

/-- The ends of a row are as far apart as it is long. -/
theorem counts_ofRows (rows : List (List Int)) :
    (ofRows rows).counts = rows.map fun row => (row.length : Int) := by
  have lengths := map_difference_runningTotals le_rfl (rows.map List.length)
  rw [List.map_map] at lengths
  exact lengths

theorem labelled_eq_flatMap (k : Nat) (rows : List (List Int)) :
    labelled k rows = (rows.zipIdx k).flatMap fun row => row.1.map fun t => ((row.2 : Int), t) := by
  induction rows generalizing k with
  | nil => rfl
  | cons row rows ih => rw [labelled, ih, List.zipIdx_cons, List.flatMap_cons]

theorem build_rows {rows : List (List Int)} (words : ∀ row ∈ rows, ∀ e ∈ row, Word.fits e = true) :
    (Description.rows rows).build = .ok (ofRows rows) :=
  ofRows?_of_fits (fits_iff.mpr words)

/-- Rows of words are laid out and read back as they were. Offsets that are accepted and do not fall
are those that their rows have when laid out again, and however such a relation is read, it says the
same as its rows: one row at a time, where there is one; by the number of targets; and as pairs, row
after row. -/
theorem encoding_lossless :
    (∀ rows : List (List Int), (∀ row ∈ rows, ∀ e ∈ row, Word.fits e = true) →
      ∃ r, (Description.rows rows).build = .ok r ∧ r.rows = rows) ∧
    ∀ (offsets targets : List Int) (r : Incidence),
      (Description.encoded offsets targets).build = .ok r → offsets.Pairwise (· ≤ ·) →
      r.offsets = offsets ∧ r.targets = targets ∧ (Description.rows r.rows).build = .ok r ∧
      r.rows.length = r.sourceCount ∧
      (∀ i : Nat, ∀ h : i < r.rows.length, r.row i = .ok r.rows[i]) ∧
      (∀ i : Int, i < 0 ∨ r.rows.length ≤ i → r.row i = .error (.sourceOutside i r.rows.length)) ∧
      r.counts = r.rows.map (fun row => (row.length : Int)) ∧
      r.pairs = r.rows.zipIdx.flatMap fun row => row.1.map fun t => ((row.2 : Int), t) := by
  refine ⟨fun rows words => ⟨_, build_rows words, rows_ofRows rows⟩, ?_⟩
  intro offsets targets r accepted ascending
  rw [Description.build] at accepted
  split at accepted
  · rename_i fit
    obtain ⟨rfl, rfl⟩ := ofOffsets?_ok accepted
    obtain ⟨rows, rfl⟩ := exists_rows ascending
    have words : ∀ row ∈ rows, ∀ e ∈ row, Word.fits e = true := by
      intro row hrow e he
      rw [Bool.and_eq_true, List.all_eq_true, List.all_eq_true] at fit
      exact fit.2 e (List.mem_flatten.mpr ⟨row, hrow, he⟩)
    refine ⟨rfl, rfl, ?_, length_rows _, fun i h => row_eq_getElem h, fun i h => row_outside h, ?_, ?_⟩
    · rw [rows_ofRows, build_rows words]
    · rw [rows_ofRows, counts_ofRows]
    · rw [rows_ofRows, pairs_ofRows, labelled_eq_flatMap]
  · cases accepted

/-- Empty rows at the start, in the middle and at the end. -/
theorem encoding_lossless_ragged :
    (∃ r, (Description.rows [[], [2, -1], [], [1], []]).build = .ok r ∧
      r.rows = [[], [2, -1], [], [1], []]) ∧
    ∃ r, (Description.encoded [0, 0, 2, 2, 3, 3] [2, -1, 1]).build = .ok r ∧
      r.offsets = [0, 0, 2, 2, 3, 3] ∧ r.targets = [2, -1, 1] ∧
      r.rows = [[], [2, -1], [], [1], []] ∧ (Description.rows r.rows).build = .ok r ∧
      r.row 4 = .ok [] ∧ r.row 5 = .error (.sourceOutside 5 5) ∧
      r.row (-1) = .error (.sourceOutside (-1) 5) ∧
      r.counts = [0, 2, 0, 1, 0] ∧ r.pairs = [(1, 2), (1, -1), (3, 1)] := by
  obtain ⟨laid, read⟩ := encoding_lossless
  obtain ⟨offsets, targets, again, -, row, outside, counts, pairs⟩ :=
    read [0, 0, 2, 2, 3, 3] [2, -1, 1] _ rfl (by decide)
  exact ⟨laid _ (by decide), _, rfl, offsets, targets, rfl, again, row 4 (by decide),
    outside 5 (by decide), outside (-1) (by decide), counts, pairs⟩

end MeshIncidence.Incidence
