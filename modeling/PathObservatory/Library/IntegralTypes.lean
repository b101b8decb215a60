import Mathlib.Algebra.Order.Ring.Int
import Mathlib.Algebra.Order.GroupWithZero.Basic

/-! # Integral types and their arithmetic

An integral type has a sign and a width, and its values are the integers between
two bounds. Operands that are narrower than `int` are promoted to it, and operands
of two types are brought to a common type. An operation on a signed type is
undefined where its result is no value of the type; on an unsigned type, and in a
conversion, the result is reduced to the value that is congruent to it.
-/

structure IntegralType where
  isSigned : Bool
  width : ℕ
  width_pos : 0 < width
deriving DecidableEq

namespace IntegralType
variable {t u : IntegralType} {z : ℤ}

protected def min (t : IntegralType) : ℤ := if t.isSigned then -2 ^ (t.width - 1) else 0

protected def max (t : IntegralType) : ℤ :=
  if t.isSigned then 2 ^ (t.width - 1) - 1 else 2 ^ t.width - 1

/-- The integer is a value of the type. -/
def Represents (t : IntegralType) (z : ℤ) : Prop := t.min ≤ z ∧ z ≤ t.max

instance (t : IntegralType) (z : ℤ) : Decidable (t.Represents z) :=
  inferInstanceAs (Decidable (_ ∧ _))

abbrev Value (t : IntegralType) := {z : ℤ // t.Represents z}

theorem two_pow_width (t : IntegralType) : (2 : ℤ) ^ t.width = 2 * 2 ^ (t.width - 1) := by
  rw [← pow_succ', Nat.sub_add_cancel t.width_pos]

/-- There are as many values as words of the width. -/
theorem max_eq (t : IntegralType) : t.max = t.min + 2 ^ t.width - 1 := by
  have hwidth := t.two_pow_width
  unfold IntegralType.min IntegralType.max
  split_ifs <;> omega

theorem min_nonpos (t : IntegralType) : t.min ≤ 0 := by
  have hpos : (0 : ℤ) < 2 ^ (t.width - 1) := pow_pos (by decide) _
  unfold IntegralType.min
  split_ifs <;> omega

theorem max_nonneg (t : IntegralType) : 0 ≤ t.max := by
  have hpos : (0 : ℤ) < 2 ^ (t.width - 1) := pow_pos (by decide) _
  have hwidth := t.two_pow_width
  unfold IntegralType.max
  split_ifs <;> omega

theorem min_of_signed (h : t.isSigned = true) : t.min = -t.max - 1 := by
  rw [IntegralType.min, IntegralType.max, if_pos h, if_pos h]
  omega

theorem min_of_unsigned (h : t.isSigned = false) : t.min = 0 := by
  rw [IntegralType.min, h]
  rfl

theorem represents_zero (t : IntegralType) : t.Represents 0 := ⟨t.min_nonpos,t.max_nonneg⟩

theorem represents_min (t : IntegralType) : t.Represents t.min :=
  ⟨le_refl _,t.min_nonpos.trans t.max_nonneg⟩

theorem represents_max (t : IntegralType) : t.Represents t.max :=
  ⟨t.min_nonpos.trans t.max_nonneg,le_refl _⟩

section Conversion

/-- The value that is congruent to the integer. -/
def wrap (t : IntegralType) (z : ℤ) : ℤ := (z - t.min) % 2 ^ t.width + t.min

theorem represents_wrap (t : IntegralType) (z : ℤ) : t.Represents (t.wrap z) := by
  have hpos : (0 : ℤ) < 2 ^ t.width := pow_pos (by decide) _
  have hrem0 := Int.emod_nonneg (z - t.min) hpos.ne'
  have hrem := Int.emod_lt_of_pos (z - t.min) hpos
  have hmax := t.max_eq
  unfold wrap
  exact ⟨by omega,by omega⟩

theorem wrap_of_represents (h : t.Represents z) : t.wrap z = z := by
  obtain ⟨hlow,hhigh⟩ := h
  rw [t.max_eq] at hhigh
  rw [wrap, Int.emod_eq_of_lt (by omega) (by omega)]
  omega

def convert (t : IntegralType) (z : ℤ) : t.Value := ⟨t.wrap z,t.represents_wrap z⟩

theorem convert_of_represents (h : t.Represents z) : t.convert z = ⟨z,h⟩ :=
  Subtype.ext (wrap_of_represents h)

/-- The operation of the type whose result is the integer; none where it is
undefined. -/
def compute (t : IntegralType) (z : ℤ) : Option t.Value :=
  if t.isSigned then if h : t.Represents z then some ⟨z,h⟩ else none else some (t.convert z)

theorem compute_of_represents (h : t.Represents z) : t.compute z = some ⟨z,h⟩ := by
  unfold compute
  split_ifs
  · rfl
  · rw [convert_of_represents h]

end Conversion

section Promotion
variable (intWidth : ℕ)

/-- Every value of the second type is one of the first. -/
def Covers (t u : IntegralType) : Prop := t.min ≤ u.min ∧ u.max ≤ t.max

theorem Covers.represents (h : Covers t u) (hz : u.Represents z) : t.Represents z :=
  ⟨h.1.trans hz.1,hz.2.trans h.2⟩

theorem Covers.refl (t : IntegralType) : Covers t t := ⟨le_refl _,le_refl _⟩

theorem Covers.trans {v : IntegralType} (h : Covers t u) (h' : Covers u v) : Covers t v :=
  ⟨h.1.trans h'.1,h'.2.trans h.2⟩

theorem covers_of_width_le (hsign : t.isSigned = u.isSigned) (h : u.width ≤ t.width) :
    Covers t u := by
  have hpow : (2 : ℤ) ^ u.width ≤ 2 ^ t.width := pow_le_pow_right₀ (by decide) h
  have hpred : (2 : ℤ) ^ (u.width - 1) ≤ 2 ^ (t.width - 1) :=
    pow_le_pow_right₀ (by decide) (by omega)
  unfold Covers IntegralType.min IntegralType.max
  rw [hsign]
  split_ifs <;> omega

/-- A signed type has the values of every narrower type. -/
theorem covers_of_signed (hsigned : t.isSigned = true) (h : u.width < t.width) : Covers t u := by
  have hpow : (2 : ℤ) ^ u.width ≤ 2 ^ (t.width - 1) := pow_le_pow_right₀ (by decide) (by omega)
  have hpos : (0 : ℤ) < 2 ^ (u.width - 1) := pow_pos (by decide) _
  have hwidth := u.two_pow_width
  simp only [Covers, IntegralType.min, IntegralType.max, hsigned, if_true]
  split_ifs <;> omega

theorem max_le_of_unsigned (hunsigned : t.isSigned = false) (h : u.width ≤ t.width) :
    u.max ≤ t.max := by
  have hpow : (2 : ℤ) ^ u.width ≤ 2 ^ t.width := pow_le_pow_right₀ (by decide) h
  have hwidth := u.two_pow_width
  have hpos : (0 : ℤ) < 2 ^ (u.width - 1) := pow_pos (by decide) _
  simp only [IntegralType.max, hunsigned, Bool.false_eq_true, if_false]
  split_ifs <;> omega

/-- Types narrower than `int` are promoted to it. -/
def promoted (t : IntegralType) : IntegralType :=
  if h : t.width < intWidth then ⟨true,intWidth,by omega⟩ else t

theorem covers_promoted (t : IntegralType) : Covers (t.promoted intWidth) t := by
  unfold promoted
  split_ifs with h
  · exact covers_of_signed rfl h
  · exact Covers.refl t

/-- The common type of two promoted types: of two signs the signed type, where it is
the wider one. -/
def balanced (t u : IntegralType) : IntegralType :=
  if t.isSigned = u.isSigned then if t.width < u.width then u else t
  else if t.isSigned then if u.width < t.width then t else u
  else if t.width < u.width then u else t

/-- The type to which values of two types are brought. Types of one sign and width
are one. -/
def commonType (t u : IntegralType) : IntegralType :=
  if t = u then t else balanced (t.promoted intWidth) (u.promoted intWidth)

theorem balanced_comm (t u : IntegralType) : balanced t u = balanced u t := by
  unfold balanced
  by_cases hsign : t.isSigned = u.isSigned
  · rw [if_pos hsign, if_pos hsign.symm]
    rcases lt_trichotomy t.width u.width with hlt | heq | hlt
    · rw [if_pos hlt, if_neg hlt.le.not_gt]
    · rw [if_neg heq.not_lt, if_neg heq.not_gt]
      cases t
      cases u
      congr
    · rw [if_neg hlt.le.not_gt, if_pos hlt]
  · rw [if_neg hsign, if_neg (Ne.symm hsign)]
    cases ht : t.isSigned
    · have hu : u.isSigned = true := by simpa [ht] using Ne.symm hsign
      simp only [hu, Bool.false_eq_true, if_true, if_false]
    · have hu : u.isSigned = false := by simpa [ht] using Ne.symm hsign
      simp only [hu, Bool.false_eq_true, if_true, if_false]

theorem commonType_comm (t u : IntegralType) : commonType intWidth t u = commonType intWidth u t := by
  unfold commonType
  by_cases h : t = u
  · rw [if_pos h, if_pos h.symm, h]
  · rw [if_neg h, if_neg (Ne.symm h), balanced_comm]

theorem balanced_covers (h : t.isSigned = u.isSigned ∨ t.isSigned = true ∧ u.width < t.width) :
    Covers (balanced t u) t ∧ Covers (balanced t u) u := by
  by_cases hsign : t.isSigned = u.isSigned
  · unfold balanced
    rw [if_pos hsign]
    split_ifs with hwidth
    · exact ⟨covers_of_width_le hsign.symm hwidth.le,Covers.refl u⟩
    · exact ⟨Covers.refl t,covers_of_width_le hsign (not_lt.mp hwidth)⟩
  · obtain ⟨hsigned,hwidth⟩ := h.resolve_left hsign
    rw [balanced, if_neg hsign, if_pos hsigned, if_pos hwidth]
    exact ⟨Covers.refl t,covers_of_signed hsigned hwidth⟩

theorem promoted_of_le (h : intWidth ≤ t.width) : t.promoted intWidth = t :=
  dif_neg (not_lt.mpr h)

theorem promoted_of_signed (h : t.isSigned = true) : (t.promoted intWidth).isSigned = true := by
  unfold promoted
  split_ifs
  · rfl
  · exact h

theorem commonType_covers_of_balanced
    (h : Covers (balanced (t.promoted intWidth) (u.promoted intWidth)) (t.promoted intWidth) ∧
      Covers (balanced (t.promoted intWidth) (u.promoted intWidth)) (u.promoted intWidth)) :
    Covers (commonType intWidth t u) t ∧ Covers (commonType intWidth t u) u := by
  unfold commonType
  split_ifs with heq
  · exact ⟨Covers.refl t,heq ▸ Covers.refl t⟩
  · exact ⟨h.1.trans (covers_promoted intWidth t),h.2.trans (covers_promoted intWidth u)⟩

/-- A signed and an unsigned type that is at least as wide as it and as `int` are brought
to the unsigned one. -/
theorem commonType_eq_unsigned (hsigned : t.isSigned = true) (hunsigned : u.isSigned = false)
    (hint : intWidth ≤ u.width) (hwidth : t.width ≤ u.width) : commonType intWidth t u = u := by
  have hne : t ≠ u := by
    rintro rfl
    rw [hsigned] at hunsigned
    cases hunsigned
  have hpromoted : (t.promoted intWidth).width ≤ u.width := by
    unfold promoted
    split_ifs
    · exact hint
    · exact hwidth
  have hsign := promoted_of_signed intWidth hsigned
  rw [commonType, if_neg hne, promoted_of_le intWidth hint, balanced,
    if_neg (by rw [hsign, hunsigned]; decide), if_pos hsign, if_neg (not_lt.mpr hpromoted)]

/-- Otherwise the common type has the values of both. -/
theorem commonType_covers (hsigned : t.isSigned = true)
    (h : u.isSigned = true ∨ u.width < intWidth ∨ u.width < t.width) :
    Covers (commonType intWidth t u) t ∧ Covers (commonType intWidth t u) u := by
  refine commonType_covers_of_balanced intWidth (balanced_covers ?_)
  have hsign := promoted_of_signed intWidth hsigned
  by_cases hnarrow : u.width < intWidth
  · left
    rw [hsign, promoted, dif_pos hnarrow]
  · rw [promoted_of_le intWidth (not_lt.mp hnarrow)]
    rcases h with hsame | hint | hwidth
    · exact .inl (hsign.trans hsame.symm)
    · exact absurd hint hnarrow
    · exact .inr ⟨hsign,by rwa [promoted_of_le intWidth (by omega)]⟩

theorem commonType_covers_unsigned (ht : t.isSigned = false) (hu : u.isSigned = false) :
    Covers (commonType intWidth t u) t ∧ Covers (commonType intWidth t u) u := by
  wlog hwidth : t.width ≤ u.width generalizing t u
  · rw [commonType_comm]
    exact (this hu ht (not_le.mp hwidth).le).symm
  by_cases hnarrow : t.width < intWidth ∧ intWidth ≤ u.width
  · obtain ⟨htwidth,huwidth⟩ := hnarrow
    have heq : balanced (t.promoted intWidth) (u.promoted intWidth) = u := by
      rw [promoted_of_le intWidth huwidth, promoted, dif_pos htwidth, balanced, if_neg (by simp [hu]),
        if_pos rfl, if_neg (not_lt.mpr huwidth)]
    have hne : t ≠ u := by
      rintro rfl
      omega
    rw [commonType, if_neg hne, heq]
    exact ⟨covers_of_width_le (hu.trans ht.symm) hwidth,Covers.refl u⟩
  · refine commonType_covers_of_balanced intWidth (balanced_covers (.inl ?_))
    unfold promoted
    split_ifs
    · rfl
    · omega
    · omega
    · exact ht.trans hu.symm

/-- The expression whose result is the integer, in operands of the type, converted
back to it. -/
def evaluate (t : IntegralType) (z : ℤ) : Option t.Value :=
  ((t.promoted intWidth).compute z).map fun result => t.convert result.val

theorem evaluate_of_represents (h : t.Represents z) : t.evaluate intWidth z = some ⟨z,h⟩ := by
  have hpromoted := (covers_promoted intWidth t).represents h
  rw [evaluate, compute_of_represents hpromoted, Option.map_some, convert_of_represents h]

end Promotion

end IntegralType
