/-!
Signed 64-bit words. Integers that come from outside must fit one; the difference of two words
wraps round where it leaves their range.
-/
namespace MeshIncidence.Word

/-- Two to the 63rd: every word is less than this, and none is less than its negative. -/
def bound : Int := 9223372036854775808

def fits (x : Int) : Bool := decide (-bound ≤ x ∧ x < bound)

/-- `b - a` as a word holds it. Two non-negative words are less than `bound` apart, so only a
negative operand can wrap. -/
def difference (b a : Int) : Int :=
  if 0 ≤ a ∧ 0 ≤ b then b - a else (b - a).bmod (bound + bound).toNat

theorem difference_of_nonneg {a b : Int} (ha : 0 ≤ a) (hb : 0 ≤ b) : difference b a = b - a := by
  simp [difference, ha, hb]

end MeshIncidence.Word
