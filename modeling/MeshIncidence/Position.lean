/-!
Positions in a list counted from either end: a negative position counts from the back.
`entry?` reads one entry and refuses positions outside the list; `slice` cuts a stretch and
clamps its ends to the list instead.
-/
namespace MeshIncidence.Position

variable {α : Type}

/-- The index that position `i` of a list of length `n` means, if there is one. -/
def index? (n : Nat) (i : Int) : Option Nat :=
  if 0 ≤ i then if i < n then some i.toNat else none
  else if 0 ≤ i + n then some (i + n).toNat
  else none

def entry? (xs : List α) (i : Int) : Option α :=
  (index? xs.length i).bind fun k => xs[k]?

/-- One end of a stretch, moved into the list. -/
def clamp (n : Nat) (i : Int) : Nat :=
  if i < 0 then (i + n).toNat else min i.toNat n

/-- The entries from `start` up to, and without, `stop`. -/
def slice (xs : List α) (start stop : Int) : List α :=
  (xs.take (clamp xs.length stop)).drop (clamp xs.length start)

theorem index?_natCast (n k : Nat) : index? n k = if k < n then some k else none := by
  simp [index?]

theorem entry?_natCast (xs : List α) (k : Nat) : entry? xs k = xs[k]? := by
  unfold entry?
  rw [index?_natCast]
  split
  · rfl
  · rename_i h
    simp [List.getElem?_eq_none (Nat.le_of_not_lt h)]

theorem entry?_map {β : Type} (f : α → β) (xs : List α) (i : Int) :
    entry? (xs.map f) i = Option.map f ( entry? xs i) := by
  unfold entry?
  rw [List.length_map]
  cases index? xs.length i <;> simp

theorem clamp_natCast (n k : Nat) : clamp n k = min k n := by
  have : ¬ ((k : Int) < 0) := by omega
  simp [clamp, this]

theorem slice_natCast (xs : List α) (a b : Nat) :
    slice xs a b = (xs.take b).drop (min a xs.length) := by
  unfold slice
  rw [clamp_natCast, clamp_natCast]
  congr 1
  by_cases h : b ≤ xs.length
  · rw [Nat.min_eq_left h]
  · have h' : xs.length ≤ b := by omega
    rw [Nat.min_eq_right h', List.take_of_length_le h', List.take_length]

end MeshIncidence.Position
