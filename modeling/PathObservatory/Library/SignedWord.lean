import Mathlib.Algebra.Group.Int.Defs

/-! # Differences of signed words

A difference of two signed words stands for the integer difference where that
fits, and otherwise for an integer that is off by one turn of the word.
-/
namespace SignedWord

/-- The integer is a word, and so is its negation. -/
def Fits (d : ℤ) : Prop := -2 ^ 63 < d ∧ d < 2 ^ 63

instance (d : ℤ) : Decidable (Fits d) := inferInstanceAs (Decidable (_ ∧ _))

theorem toInt_sub_of_fits {a b : Int64} (hlow : -2 ^ 63 ≤ a.toInt - b.toInt)
    (hhigh : a.toInt - b.toInt < 2 ^ 63) : (a - b).toInt = a.toInt - b.toInt := by
  rw [Int64.toInt_sub, Int.bmod_eq_of_le]
  · exact hlow
  · exact hhigh

theorem toInt_sub_of_low {a b : Int64} (h : a.toInt - b.toInt < -2 ^ 63) :
    (a - b).toInt = a.toInt - b.toInt + 2 ^ 64 := by
  have ha := a.le_toInt
  have hb := b.toInt_lt
  rw [Int64.toInt_sub, ← Int.add_bmod_right, Int.bmod_eq_of_le]
  · rfl
  · omega
  · omega

theorem toInt_sub_of_high {a b : Int64} (h : 2 ^ 63 ≤ a.toInt - b.toInt) :
    (a - b).toInt = a.toInt - b.toInt - 2 ^ 64 := by
  have ha := a.toInt_lt
  have hb := b.le_toInt
  have hturn := Int.add_bmod_right (a.toInt - b.toInt - 2 ^ 64) (2 ^ 64)
  rw [Int64.toInt_sub]
  rw [Int.bmod_eq_of_le (n := a.toInt - b.toInt - 2 ^ 64)] at hturn
  · rw [← hturn]
    congr 1
    omega
  · omega
  · omega

theorem toInt_neg_of_ne {a : Int64} (h : a.toInt ≠ -2 ^ 63) : (-a).toInt = -a.toInt := by
  have hlow := a.le_toInt
  have hhigh := a.toInt_lt
  rw [Int64.toInt_neg, Int.bmod_eq_of_le] <;> omega

/-- The least word is its own negation. -/
theorem toInt_neg_of_eq {a : Int64} (h : a.toInt = -2 ^ 63) : (-a).toInt = -2 ^ 63 := by
  rw [Int64.toInt_neg, h]
  rfl

end SignedWord
