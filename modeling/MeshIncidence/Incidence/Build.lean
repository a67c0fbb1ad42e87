import MeshIncidence.Incidence.Basic

/-!
Building incidence relations. `ofRows` lays rows one after the other; `ofPairs?` groups pairs by
source with ascending targets; `transpose?` turns a relation round, each row listing its sources in
ascending order. The last two count first, total the counts into offsets, and sort stably.
-/
namespace MeshIncidence.Incidence
open Position

/-- The totals before each count, and the grand total. -/
def runningTotals (start : Int) : List Nat → List Int
  | [] => [start]
  | n :: ns => start :: runningTotals (start + n) ns

theorem head?_runningTotals (start : Int) (ns : List Nat) :
    (runningTotals start ns).head? = some start := by
  cases ns <;> rfl

theorem runningTotals_ne_nil (start : Int) (ns : List Nat) : runningTotals start ns ≠ [] := by
  cases ns <;> simp [runningTotals]

theorem getLast?_runningTotals (start : Int) (rows : List (List Int)) :
    (runningTotals start (rows.map List.length)).getLast? =
      some (start + (rows.flatten.length : Int)) := by
  induction rows generalizing start with
  | nil => simp [runningTotals]
  | cons row rows ih =>
    rw [List.map_cons, runningTotals, List.getLast?_cons, ih, List.flatten_cons,
      List.length_append, Int.natCast_add, Int.add_assoc, Option.getD_some]

theorem length_runningTotals (start : Int) (ns : List Nat) :
    (runningTotals start ns).length = ns.length + 1 := by
  induction ns generalizing start with
  | nil => rfl
  | cons n ns ih => simp [runningTotals, ih]

def ofRows (rows : List (List Int)) : Incidence where
  offsets := runningTotals 0 (rows.map List.length)
  targets := rows.flatten
  starts_zero := head?_runningTotals 0 _
  ends_full := by rw [getLast?_runningTotals, Int.zero_add]

theorem sourceCount_ofRows (rows : List (List Int)) : (ofRows rows).sourceCount = rows.length := by
  simp [sourceCount, ofRows, length_runningTotals]

theorem spans_ofRows_slice (before : List Int) (rows : List (List Int)) :
    ((runningTotals before.length (rows.map List.length)).zip
        (runningTotals before.length (rows.map List.length)).tail).map
      (fun span => slice (before ++ rows.flatten) span.1 span.2) = rows := by
  induction rows generalizing before with
  | nil => simp [runningTotals]
  | cons row rows ih =>
    have h := ih (before ++ row)
    simp only [List.length_append, List.append_assoc, Int.natCast_add] at h
    simp only [List.map_cons, runningTotals, List.tail_cons, List.flatten_cons]
    cases hn : runningTotals ((before.length : Int) + row.length) (rows.map List.length) with
    | nil => exact absurd hn (runningTotals_ne_nil _ _)
    | cons x xs =>
      have hx : x = (before.length : Int) + row.length := by
        have := head?_runningTotals ((before.length : Int) + row.length) (rows.map List.length)
        rw [hn] at this
        simpa using this
      rw [hn, List.tail_cons] at h
      rw [List.zip_cons_cons, List.map_cons, h]
      congr 1
      subst hx
      have : ((before.length : Int) + row.length) = ((before.length + row.length : Nat) : Int) := by
        simp
      rw [this, slice_natCast]
      simp [List.take_append]

theorem rows_ofRows (rows : List (List Int)) : (ofRows rows).rows = rows := by
  simpa [Incidence.rows, spans, ofRows] using spans_ofRows_slice [] rows

theorem le_of_mem_runningTotals {start x : Int} {ns : List Nat} (h : x ∈ runningTotals start ns) :
    start ≤ x := by
  induction ns generalizing start with
  | nil => simp [runningTotals] at h; omega
  | cons n ns ih =>
    rcases List.mem_cons.mp h with rfl | h
    · omega
    · have := ih h
      omega

theorem pairwise_runningTotals (start : Int) (ns : List Nat) :
    (runningTotals start ns).Pairwise (· ≤ ·) := by
  induction ns generalizing start with
  | nil => simp [runningTotals]
  | cons n ns ih =>
    refine List.pairwise_cons.mpr ⟨fun x hx => ?_, ih _⟩
    have := le_of_mem_runningTotals hx
    omega

theorem ascending_ofRows (rows : List (List Int)) : (ofRows rows).Ascending :=
  pairwise_runningTotals 0 _

/-- Whether all entries are words. -/
def fits (rows : List (List Int)) : Bool := rows.all fun row => row.all Word.fits

/-- Rows whose entries come from elsewhere. Those that are no words cannot be stored. -/
def ofRows? (rows : List (List Int)) : Except EncodingFault Incidence :=
  if fits rows then .ok (ofRows rows) else .error .notAWord

theorem fits_iff {rows : List (List Int)} :
    fits rows = true ↔ ∀ row ∈ rows, ∀ e ∈ row, Word.fits e = true := by
  simp [fits]

theorem ofRows?_of_fits {rows : List (List Int)} (h : fits rows = true) :
    ofRows? rows = .ok (ofRows rows) := if_pos h

theorem ofRows?_of_not_fits {rows : List (List Int)} (h : fits rows = false) :
    ofRows? rows = .error .notAWord := if_neg (by rw [h]; exact Bool.false_ne_true)

/-- Pairs in ascending order of targets, then stably of sources. -/
def sortPairs (pairs : List (Int × Int)) : List (Int × Int) :=
  (pairs.mergeSort fun p q => decide (p.2 ≤ q.2)).mergeSort fun p q => decide (p.1 ≤ q.1)

/-- How many pairs each of the first `n` sources has. -/
def sourceCounts (pairs : List (Int × Int)) (n : Nat) : List Nat :=
  (List.range n).map fun i : Nat => pairs.countP fun p => p.1 == (i : Int)

/-- Groups pairs by source, for sources below `n`. A single count where none is expected is not
refused at once: it leaves one offset, which the targets do not fit. -/
def grouped? (pairs : List (Int × Int)) (n : Nat) : Except EncodingFault Incidence :=
  if pairs.any fun p => decide (p.1 < 0) then .error .negativeSource
  else if pairs.all fun p => decide (p.1 < n) then
    ofOffsets? (runningTotals 0 (sourceCounts pairs n)) ((sortPairs pairs).map Prod.snd)
  else if n = 0 ∧ pairs.all fun p => p.1 == 0 then
    ofOffsets? [0] ((sortPairs pairs).map Prod.snd)
  else .error .sourceBeyondCount

/-- Groups pairs by source. Sources without a target are dropped, and a count of sources that the
pairs do not fit is refused. -/
def ofPairs? (sources targets : List Int) (n : Int) : Except EncodingFault Incidence :=
  if sources = [] then
    if !Word.fits (n + 1) then .error .notAWord
    else if n + 1 < 0 then .error .lengthOutside
    else ofOffsets? (List.replicate (n + 1).toNat 0) []
  else if sources.length < targets.length then .error .unmatchedTarget
  else if !Word.fits (n + 1) then .error .notAWord
  else if n < 0 then .error .lengthOutside
  else grouped? (sources.zip targets) n.toNat

/-- How often each of the first `n` targets occurs. -/
def targetCounts (r : Incidence) (n : Nat) : List Nat :=
  (List.range n).map fun j : Nat => r.targets.count (j : Int)

/-- The relation turned round, onto `n` rows. -/
def transpose? (r : Incidence) (n : Int) : Except Fault Incidence :=
  if r.targets.any fun t => decide (t < 0 ∨ n ≤ t) then
    .error (.inconsistent
      (.targetOutside n (r.targets.min?.getD 0) (r.targets.max?.getD 0)))
  else if !Word.fits n then .error (.encoding .notAWord)
  else if n < 0 ∨ n + 1 = Word.bound then .error (.encoding .lengthOutside)
  else
    let placed := r.pairs.mergeSort fun p q => decide (p.2 ≤ q.2)
    (ofOffsets? (runningTotals 0 (r.targetCounts n.toNat)) (placed.map Prod.fst)).mapError .encoding

/-- A relation as given from outside, before it is checked. -/
inductive Description where
  | rows (rows : List (List Int))
  | pairs (sources targets : List Int) (sourceCount : Int)
  | encoded (offsets targets : List Int)
  deriving DecidableEq, Repr

/-- Entries have to be words. -/
def Description.build : Description → Except EncodingFault Incidence
  | .rows lists => ofRows? lists
  | .pairs sources targets n =>
    if sources.all Word.fits && targets.all Word.fits then ofPairs? sources targets n
    else .error .notAWord
  | .encoded offsets targets =>
    if offsets.all Word.fits && targets.all Word.fits then ofOffsets? offsets targets
    else .error .notAWord

end MeshIncidence.Incidence
