import Mathlib.Data.Nat.Digits.Lemmas
import PathObservatory.Json.Numbers

/-! # Decimal lexemes

The digits that the writer makes of an integer are a lexeme of the grammar, and
the number they denote is the integer.
-/
namespace PathObservatory.Json

theorem toNat_decimalDigit {digit : ℕ} (h : digit < 10) :
    (decimalDigit digit).toNat = 0x30 + digit := by
  rw [decimalDigit, UInt8.toNat_ofNat']
  omega

theorem digit_decimalDigit {digit : ℕ} (h : digit < 10) : Digit (decimalDigit digit) := by
  simp only [Digit, UInt8.le_iff_toNat_le, toNat_decimalDigit h, UInt8.reduceToNat]
  omega

theorem decimal_digits (value : ℕ) : ∀ c ∈ decimal value, Digit c := by
  unfold decimal
  split_ifs with hzero
  · exact List.forall_mem_singleton.mpr (by decide)
  · intro c hc
    obtain ⟨digit,hdigit,rfl⟩ := List.mem_map.mp hc
    exact digit_decimalDigit (Nat.digits_lt_base (by decide) (List.mem_reverse.mp hdigit))

theorem decimal_ne_nil (value : ℕ) : decimal value ≠ [] := by
  unfold decimal
  split_ifs with hzero
  · exact List.cons_ne_nil _ _
  · simpa using Nat.digits_ne_nil_iff_ne_zero.mpr hzero

/-- No digits stand before the first that counts. -/
theorem integerPart_decimal (value : ℕ) : IntegerPart (decimal value) := by
  by_cases hzero : value = 0
  · subst hzero
    exact Or.inl rfl
  · refine Or.inr ⟨⟨decimal_ne_nil value,decimal_digits value⟩,?_⟩
    have hlast := Nat.getLast_digit_ne_zero 10 hzero
    have hlt := Nat.digits_lt_base (by decide : 1 < 10)
      (List.getLast_mem (Nat.digits_ne_nil_iff_ne_zero.mpr hzero))
    rw [decimal, if_neg hzero, List.head?_map, List.head?_reverse,
      List.getLast?_eq_getLast_of_ne_nil (Nat.digits_ne_nil_iff_ne_zero.mpr hzero)]
    intro hhead
    have hvalue := congrArg UInt8.toNat (Option.some.inj hhead)
    rw [toNat_decimalDigit hlt] at hvalue
    simp only [UInt8.reduceToNat] at hvalue
    omega

theorem numberText_decimal (value : ℕ) : NumberText (decimal value) := by
  have h := NumberText.intro (Or.inl rfl) (integerPart_decimal value) (Or.inl rfl) (Or.inl rfl)
  simpa using h

theorem numberText_minus_decimal (value : ℕ) : NumberText ([0x2D] ++ decimal value) := by
  have h := NumberText.intro (Or.inr rfl) (integerPart_decimal value) (Or.inl rfl) (Or.inl rfl)
  simpa using h

theorem foldl_decimalDigit {digits : List ℕ} (h : ∀ digit ∈ digits, digit < 10) :
    valueOfDigits (digits.reverse.map decimalDigit) = Nat.ofDigits 10 digits := by
  induction digits with
  | nil => rfl
  | cons digit digits ih =>
    obtain ⟨hdigit,hdigits⟩ := List.forall_mem_cons.mp h
    have hprefix := ih hdigits
    rw [valueOfDigits] at hprefix
    rw [valueOfDigits, List.reverse_cons, List.map_append, List.foldl_append, hprefix,
      Nat.ofDigits_cons, List.map_singleton, List.foldl_cons, List.foldl_nil,
      toNat_decimalDigit hdigit, Nat.add_sub_cancel_left, Nat.add_comm]

theorem valueOfDigits_decimal (value : ℕ) : valueOfDigits (decimal value) = value := by
  unfold decimal
  split_ifs with hzero
  · subst hzero
    rfl
  · rw [foldl_decimalDigit (fun digit h => Nat.digits_lt_base (by decide) h), Nat.ofDigits_digits]

end PathObservatory.Json

namespace PathObservatory.JsonValue

/-- What is written as an unsigned integer is read as that integer. -/
theorem asU64_makeNumberUnsigned (value : UInt64) :
    (makeNumberUnsigned value).asU64 = .ok value := by
  have hdigits := Json.decimal_digits value.toNat
  have hplain : (Json.decimal value.toNat).any (fun c =>
      c = 0x2E || c = 0x65 || c = 0x45 || c = 0x2D || c = 0x2B) = false := by
    rw [List.any_eq_false]
    intro c hc
    have hdigit := hdigits c hc
    simp only [Bool.or_eq_true, decide_eq_true_eq, not_or]
    exact ⟨⟨⟨⟨hdigit.ne (by decide),hdigit.ne (by decide)⟩,hdigit.ne (by decide)⟩,
      hdigit.ne (by decide)⟩,hdigit.ne (by decide)⟩
  have hall : (Json.decimal value.toNat).all Json.isDigit = true :=
    List.all_eq_true.mpr (fun c hc => Json.isDigit_iff.mpr (hdigits c hc))
  have hrange : ¬ 2 ^ 64 ≤ value.toNat := not_le.mpr value.toNat_lt
  have hempty : (Json.decimal value.toNat).isEmpty = false :=
    List.isEmpty_eq_false_iff.mpr (Json.decimal_ne_nil _)
  simp only [makeNumberUnsigned, asU64, hplain, hall, hempty, Json.valueOfDigits_decimal, hrange,
    Bool.false_eq_true, if_false, Bool.not_true, Bool.or_false, decide_false, UInt64.ofNat_toNat]

end PathObservatory.JsonValue
