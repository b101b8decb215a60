import Mathlib.Data.Nat.Bitwise
import PathObservatory.Foundation.Identity
import PathObservatory.Library.Utf8

/-! # Text of a document

Strings are byte strings. The reader checks that they are well formed UTF-8 and
appends the characters that escapes stand for.
-/
namespace PathObservatory.Json

def leadByte (mark bits : UInt32) : UInt8 := (mark ||| bits).toUInt8

def continuationByte (bits : UInt32) : UInt8 := ((0x80 : UInt32) ||| (bits &&& 0x3F)).toUInt8

/-- Append one code point; no result when it is not a scalar value. -/
def appendUtf8 (out : ByteString) (codePoint : UInt32) : Option ByteString :=
  if 0x10FFFF < codePoint ∨ (0xD800 ≤ codePoint ∧ codePoint ≤ 0xDFFF) then none
  else if codePoint < 0x80 then some (out ++ [codePoint.toUInt8])
  else if codePoint < 0x800 then
    some (out ++ [leadByte 0xC0 (codePoint >>> 6),continuationByte codePoint])
  else if codePoint < 0x10000 then
    some (out ++ [leadByte 0xE0 (codePoint >>> 12),continuationByte (codePoint >>> 6),
      continuationByte codePoint])
  else
    some (out ++ [leadByte 0xF0 (codePoint >>> 18),continuationByte (codePoint >>> 12),
      continuationByte (codePoint >>> 6),continuationByte codePoint])

def isContinuation (byte : UInt8) : Bool := byte &&& 0xC0 = 0x80

/-- The code point with the payload of one more continuation byte. -/
def withContinuation (codePoint : UInt32) (byte : UInt8) : UInt32 :=
  (codePoint <<< 6) ||| (byte &&& 0x3F).toUInt32

/-- Overlong forms, surrogates and values out of range are refused. -/
def isLegalCodePoint (minimum codePoint : UInt32) : Bool :=
  !(codePoint < minimum || 0x10FFFF < codePoint || (0xD800 ≤ codePoint && codePoint ≤ 0xDFFF))

def isValidUtf8 : ByteString → Bool
  | [] => true
  | byte :: text =>
    if byte < 0x80 then isValidUtf8 text
    else if byte &&& 0xE0 = 0xC0 then
      match text with
      | a :: text =>
        isContinuation a &&
        isLegalCodePoint 0x80 (withContinuation (byte &&& 0x1F).toUInt32 a) && isValidUtf8 text
      | _ => false
    else if byte &&& 0xF0 = 0xE0 then
      match text with
      | a :: b :: text =>
        isContinuation a && isContinuation b &&
        isLegalCodePoint 0x800
          (withContinuation (withContinuation (byte &&& 0x0F).toUInt32 a) b) && isValidUtf8 text
      | _ => false
    else if byte &&& 0xF8 = 0xF0 then
      match text with
      | a :: b :: c :: text =>
        isContinuation a && isContinuation b && isContinuation c &&
        isLegalCodePoint 0x10000 (withContinuation
          (withContinuation (withContinuation (byte &&& 0x07).toUInt32 a) b) c) && isValidUtf8 text
      | _ => false
    else false

section Appending
variable {mark bits codePoint : UInt32}

/-- Marks stand above the bits they are joined with. -/
theorem toNat_or_mark (k width : ℕ) (hmark : mark.toNat = k <<< width)
    (h : bits.toNat < 2 ^ width) : (mark ||| bits).toNat = mark.toNat + bits.toNat := by
  rw [UInt32.toNat_or, hmark, Nat.shiftLeft_add_eq_or_of_lt h]

theorem toNat_continuationByte : (continuationByte bits).toNat = bits.toNat % 64 + 0x80 := by
  have hlow : (bits &&& 0x3F).toNat = bits.toNat % 64 := Nat.and_two_pow_sub_one_eq_mod _ 6
  have hor := toNat_or_mark 2 6 (show UInt32.toNat 0x80 = 2 <<< 6 from rfl)
    (show (bits &&& 0x3F).toNat < 2 ^ 6 by omega)
  rw [continuationByte, UInt32.toNat_toUInt8, hor, hlow]
  simp only [UInt32.reduceToNat]
  omega

theorem toNat_leadByte (k width : ℕ) (hmark : mark.toNat = k <<< width)
    (h : bits.toNat < 2 ^ width) (hbyte : mark.toNat + bits.toNat < 256) :
    (leadByte mark bits).toNat = mark.toNat + bits.toNat := by
  rw [leadByte, UInt32.toNat_toUInt8, toNat_or_mark k width hmark h]
  exact Nat.mod_eq_of_lt hbyte

theorem toNat_shiftRight (count : UInt32) (h : count.toNat < 32) :
    (codePoint >>> count).toNat = codePoint.toNat / 2 ^ count.toNat := by
  rw [UInt32.toNat_shiftRight, Nat.mod_eq_of_lt h, Nat.shiftRight_eq_div_pow]

/-- What is appended for a scalar value is its encoding. -/
theorem appendUtf8_val (out : ByteString) (c : Char) :
    appendUtf8 out c.val = some (out ++ String.utf8EncodeChar c) := by
  have hlt := Utf8.toNat_lt c
  have hval : c.val.toNat = c.toNat := rfl
  have h6 : (c.val >>> 6).toNat = c.toNat / 64 := toNat_shiftRight 6 (by decide)
  have h12 : (c.val >>> 12).toNat = c.toNat / 4096 := toNat_shiftRight 12 (by decide)
  have h18 : (c.val >>> 18).toNat = c.toNat / 262144 := toNat_shiftRight 18 (by decide)
  have hscalar : ¬ (0x10FFFF < c.val ∨ (0xD800 ≤ c.val ∧ c.val ≤ 0xDFFF)) := by
    simp only [UInt32.lt_iff_toNat_lt, UInt32.le_iff_toNat_le, UInt32.reduceToNat, hval]
    omega
  have hone : c.val < 0x80 ↔ c.toNat < 0x80 := UInt32.lt_iff_toNat_lt
  have htwo : c.val < 0x800 ↔ c.toNat < 0x800 := UInt32.lt_iff_toNat_lt
  have hthree : c.val < 0x10000 ↔ c.toNat < 0x10000 := UInt32.lt_iff_toNat_lt
  rw [appendUtf8, if_neg hscalar]
  rcases Utf8.encodeChar_cases c with ⟨h,heq⟩ | ⟨h,h',heq⟩ | ⟨h,h',heq⟩ | ⟨h,heq⟩
  · have hbyte : c.val.toUInt8 = UInt8.ofNat c.toNat := rfl
    rw [if_pos (hone.mpr h), heq, hbyte]
  · have hlead := toNat_leadByte 6 5 (show UInt32.toNat 0xC0 = 6 <<< 5 from rfl)
      (show (c.val >>> 6).toNat < 2 ^ 5 by omega) (by simp only [UInt32.reduceToNat]; omega)
    rw [if_neg (mt hone.mp (by omega)), if_pos (htwo.mpr h'), heq]
    simp only [Option.some.injEq, List.append_cancel_left_eq, List.cons.injEq, and_true,
      ← UInt8.toNat_inj, toNat_continuationByte, hlead, hval, h6, UInt8.toNat_ofNat',
      UInt32.reduceToNat]
    omega
  · have hlead := toNat_leadByte 14 4 (show UInt32.toNat 0xE0 = 14 <<< 4 from rfl)
      (show (c.val >>> 12).toNat < 2 ^ 4 by omega) (by simp only [UInt32.reduceToNat]; omega)
    rw [if_neg (mt hone.mp (by omega)), if_neg (mt htwo.mp (by omega)), if_pos (hthree.mpr h'), heq]
    simp only [Option.some.injEq, List.append_cancel_left_eq, List.cons.injEq, and_true,
      ← UInt8.toNat_inj, toNat_continuationByte, hlead, hval, h6, h12, UInt8.toNat_ofNat',
      UInt32.reduceToNat]
    omega
  · have hlead := toNat_leadByte 30 3 (show UInt32.toNat 0xF0 = 30 <<< 3 from rfl)
      (show (c.val >>> 18).toNat < 2 ^ 3 by omega) (by simp only [UInt32.reduceToNat]; omega)
    rw [if_neg (mt hone.mp (by omega)), if_neg (mt htwo.mp (by omega)),
      if_neg (mt hthree.mp (by omega)), heq]
    simp only [Option.some.injEq, List.append_cancel_left_eq, List.cons.injEq, and_true,
      ← UInt8.toNat_inj, toNat_continuationByte, hlead, hval, h6, h12, h18, UInt8.toNat_ofNat',
      UInt32.reduceToNat]
    omega

theorem appendUtf8_eq_some {out result : ByteString} :
    appendUtf8 out codePoint = some result ↔
      ∃ c : Char, c.val = codePoint ∧ result = out ++ String.utf8EncodeChar c := by
  constructor
  · intro h
    by_cases hscalar : 0x10FFFF < codePoint ∨ (0xD800 ≤ codePoint ∧ codePoint ≤ 0xDFFF)
    · rw [appendUtf8, if_pos hscalar] at h
      cases h
    · have hvalid : codePoint.isValidChar := by
        simp only [UInt32.lt_iff_toNat_lt, UInt32.le_iff_toNat_le, UInt32.reduceToNat] at hscalar
        simp only [UInt32.isValidChar, Nat.isValidChar]
        omega
      refine ⟨⟨codePoint,hvalid⟩,rfl,?_⟩
      exact (Option.some.inj ((appendUtf8_val out ⟨codePoint,hvalid⟩).symm.trans h)).symm
  · rintro ⟨c,rfl,rfl⟩
    exact appendUtf8_val out c

end Appending

/-- A property of all bytes is checked on the 256 of them. -/
theorem forall_byte {P : UInt8 → Prop} (h : ∀ n : Fin 256, P (UInt8.ofFin n)) (b : UInt8) : P b :=
  h b.toFin

/-- The marks of the bytes of a sequence, by their values. -/
theorem marks_iff (b : UInt8) :
    (b &&& 0xC0 = 0x80 ↔ Utf8.Continues b) ∧
    (b &&& 0xE0 = 0xC0 ↔ 0xC0 ≤ b.toNat ∧ b.toNat < 0xE0) ∧
    (b &&& 0xF0 = 0xE0 ↔ 0xE0 ≤ b.toNat ∧ b.toNat < 0xF0) ∧
    (b &&& 0xF8 = 0xF0 ↔ 0xF0 ≤ b.toNat ∧ b.toNat < 0xF8) := by
  simp only [Utf8.Continues]
  revert b
  refine forall_byte ?_
  decide +kernel

theorem isContinuation_iff (b : UInt8) : isContinuation b = true ↔ Utf8.Continues b := by
  rw [isContinuation, decide_eq_true_eq]
  exact (marks_iff b).1

theorem leads_two_iff (b : UInt8) : b &&& 0xE0 = 0xC0 ↔ 0xC0 ≤ b.toNat ∧ b.toNat < 0xE0 :=
  (marks_iff b).2.1

theorem leads_three_iff (b : UInt8) : b &&& 0xF0 = 0xE0 ↔ 0xE0 ≤ b.toNat ∧ b.toNat < 0xF0 :=
  (marks_iff b).2.2.1

theorem leads_four_iff (b : UInt8) : b &&& 0xF8 = 0xF0 ↔ 0xF0 ≤ b.toNat ∧ b.toNat < 0xF8 :=
  (marks_iff b).2.2.2

theorem toNat_lead_two (b : UInt8) : (b &&& 0x1F).toUInt32.toNat = b.toNat % 32 :=
  Nat.and_two_pow_sub_one_eq_mod _ 5

theorem toNat_lead_three (b : UInt8) : (b &&& 0x0F).toUInt32.toNat = b.toNat % 16 :=
  Nat.and_two_pow_sub_one_eq_mod _ 4

theorem toNat_lead_four (b : UInt8) : (b &&& 0x07).toUInt32.toNat = b.toNat % 8 :=
  Nat.and_two_pow_sub_one_eq_mod _ 3

theorem toNat_withContinuation (codePoint : UInt32) (b : UInt8) (h : codePoint.toNat < 2 ^ 26) :
    (withContinuation codePoint b).toNat = codePoint.toNat * 64 + b.toNat % 64 := by
  have hlow : (b &&& 0x3F).toUInt32.toNat = b.toNat % 64 :=
    Nat.and_two_pow_sub_one_eq_mod _ 6
  have hshift : (codePoint <<< 6).toNat = codePoint.toNat <<< 6 := by
    rw [UInt32.toNat_shiftLeft]
    exact Nat.mod_eq_of_lt (by
      rw [Nat.shiftLeft_eq]
      show codePoint.toNat * 2 ^ 6 < 2 ^ 32
      omega)
  rw [withContinuation, UInt32.toNat_or, hlow, hshift,
    ← Nat.shiftLeft_add_eq_or_of_lt (Nat.mod_lt _ (by decide)), Nat.shiftLeft_eq]

theorem isLegalCodePoint_iff (minimum codePoint : UInt32) :
    isLegalCodePoint minimum codePoint = true ↔ minimum.toNat ≤ codePoint.toNat ∧
      (codePoint.toNat < 0xD800 ∨ 0xDFFF < codePoint.toNat) ∧ codePoint.toNat < 0x110000 := by
  simp only [isLegalCodePoint, Bool.not_eq_true', Bool.or_eq_false_iff, Bool.and_eq_false_iff,
    decide_eq_false_iff_not, UInt32.lt_iff_toNat_lt, UInt32.le_iff_toNat_le, UInt32.reduceToNat]
  omega

section Sequences
variable {byte a b c : UInt8} {text : ByteString}

/-! The code point that the bytes of a sequence spell. -/

def codePointTwo (byte a : UInt8) : UInt32 := withContinuation (byte &&& 0x1F).toUInt32 a

def codePointThree (byte a b : UInt8) : UInt32 :=
  withContinuation (withContinuation (byte &&& 0x0F).toUInt32 a) b

def codePointFour (byte a b c : UInt8) : UInt32 :=
  withContinuation (withContinuation (withContinuation (byte &&& 0x07).toUInt32 a) b) c

theorem toNat_codePointTwo :
    (codePointTwo byte a).toNat = byte.toNat % 32 * 64 + a.toNat % 64 := by
  have hlead := toNat_lead_two byte
  rw [codePointTwo, toNat_withContinuation _ _ (by omega), hlead]

theorem toNat_codePointThree : (codePointThree byte a b).toNat =
    (byte.toNat % 16 * 64 + a.toNat % 64) * 64 + b.toNat % 64 := by
  have hlead := toNat_lead_three byte
  have hfirst := toNat_withContinuation (byte &&& 0x0F).toUInt32 a (by omega)
  rw [codePointThree, toNat_withContinuation _ _ (by omega), hfirst, hlead]

theorem toNat_codePointFour : (codePointFour byte a b c).toNat =
    ((byte.toNat % 8 * 64 + a.toNat % 64) * 64 + b.toNat % 64) * 64 + c.toNat % 64 := by
  have hlead := toNat_lead_four byte
  have hfirst := toNat_withContinuation (byte &&& 0x07).toUInt32 a (by omega)
  have hsecond := toNat_withContinuation _ b
    (show (withContinuation (byte &&& 0x07).toUInt32 a).toNat < 2 ^ 26 by omega)
  rw [codePointFour, toNat_withContinuation _ _ (by omega), hsecond, hfirst, hlead]

theorem isValidUtf8_one (h : byte.toNat < 0x80) :
    isValidUtf8 (byte :: text) = isValidUtf8 text := by
  rw [isValidUtf8.eq_def]
  exact if_pos (UInt8.lt_iff_toNat_lt.mpr h)

theorem isValidUtf8_two (h : 0xC0 ≤ byte.toNat ∧ byte.toNat < 0xE0) :
    isValidUtf8 (byte :: text) = true ↔ ∃ a rest, text = a :: rest ∧ Utf8.Continues a ∧
      isLegalCodePoint 0x80 (codePointTwo byte a) = true ∧ isValidUtf8 rest = true := by
  have hone : ¬ byte < 0x80 := by rw [UInt8.lt_iff_toNat_lt]; simp; omega
  rw [isValidUtf8.eq_def]
  simp only [hone, (leads_two_iff byte).mpr h, if_true, if_false]
  rcases text with _ | ⟨a,rest⟩
  · simp
  · simp [isContinuation_iff, codePointTwo, and_assoc]

theorem isValidUtf8_three (h : 0xE0 ≤ byte.toNat ∧ byte.toNat < 0xF0) :
    isValidUtf8 (byte :: text) = true ↔ ∃ a b rest, text = a :: b :: rest ∧
      Utf8.Continues a ∧ Utf8.Continues b ∧
      isLegalCodePoint 0x800 (codePointThree byte a b) = true ∧ isValidUtf8 rest = true := by
  have hone : ¬ byte < 0x80 := by rw [UInt8.lt_iff_toNat_lt]; simp; omega
  have htwo : ¬ byte &&& 0xE0 = 0xC0 := by rw [leads_two_iff]; omega
  rw [isValidUtf8.eq_def]
  simp only [hone, htwo, (leads_three_iff byte).mpr h, if_true, if_false]
  rcases text with _ | ⟨a,_ | ⟨b,rest⟩⟩
  · simp
  · simp
  · simp [isContinuation_iff, codePointThree, and_assoc]

theorem isValidUtf8_four (h : 0xF0 ≤ byte.toNat ∧ byte.toNat < 0xF8) :
    isValidUtf8 (byte :: text) = true ↔ ∃ a b c rest, text = a :: b :: c :: rest ∧
      Utf8.Continues a ∧ Utf8.Continues b ∧ Utf8.Continues c ∧
      isLegalCodePoint 0x10000 (codePointFour byte a b c) = true ∧ isValidUtf8 rest = true := by
  have hone : ¬ byte < 0x80 := by rw [UInt8.lt_iff_toNat_lt]; simp; omega
  have htwo : ¬ byte &&& 0xE0 = 0xC0 := by rw [leads_two_iff]; omega
  have hthree : ¬ byte &&& 0xF0 = 0xE0 := by rw [leads_three_iff]; omega
  rw [isValidUtf8.eq_def]
  simp only [hone, htwo, hthree, (leads_four_iff byte).mpr h, if_true, if_false]
  rcases text with _ | ⟨a,_ | ⟨b,_ | ⟨c,rest⟩⟩⟩
  · simp
  · simp
  · simp
  · simp [isContinuation_iff, codePointFour, and_assoc]

theorem isValidUtf8_other (h : 0x80 ≤ byte.toNat ∧ byte.toNat < 0xC0 ∨ 0xF8 ≤ byte.toNat) :
    isValidUtf8 (byte :: text) = false := by
  have hone : ¬ byte < 0x80 := by rw [UInt8.lt_iff_toNat_lt]; simp; omega
  have htwo : ¬ byte &&& 0xE0 = 0xC0 := by rw [leads_two_iff]; omega
  have hthree : ¬ byte &&& 0xF0 = 0xE0 := by rw [leads_three_iff]; omega
  have hfour : ¬ byte &&& 0xF8 = 0xF0 := by rw [leads_four_iff]; omega
  rw [isValidUtf8.eq_def]
  simp only [hone, htwo, hthree, hfour, if_false]

end Sequences

/-- A well formed text opens with an encoded value. -/
theorem exists_of_isValidUtf8_cons {byte : UInt8} {text : ByteString}
    (h : isValidUtf8 (byte :: text) = true) :
    ∃ c rest, byte :: text = String.utf8EncodeChar c ++ rest ∧ isValidUtf8 rest = true := by
  have hrange : byte.toNat < 0x80 ∨ (0xC0 ≤ byte.toNat ∧ byte.toNat < 0xE0) ∨
      (0xE0 ≤ byte.toNat ∧ byte.toNat < 0xF0) ∨ (0xF0 ≤ byte.toNat ∧ byte.toNat < 0xF8) ∨
      (0x80 ≤ byte.toNat ∧ byte.toNat < 0xC0 ∨ 0xF8 ≤ byte.toNat) := by omega
  rcases hrange with h1 | h2 | h3 | h4 | hother
  · exact ⟨_,text,by rw [Utf8.encodeChar_one h1]; rfl,isValidUtf8_one h1 ▸ h⟩
  · obtain ⟨a,rest,rfl,ha,hlegal,hrest⟩ := (isValidUtf8_two h2).mp h
    obtain ⟨hmin,-,-⟩ := (isLegalCodePoint_iff _ _).mp hlegal
    exact ⟨_,rest,by rw [Utf8.encodeChar_two h2 ha toNat_codePointTwo hmin]; rfl,hrest⟩
  · obtain ⟨a,b,rest,rfl,ha,hb,hlegal,hrest⟩ := (isValidUtf8_three h3).mp h
    obtain ⟨hmin,hscalar,-⟩ := (isLegalCodePoint_iff _ _).mp hlegal
    exact ⟨_,rest,by
      rw [Utf8.encodeChar_three h3 ha hb toNat_codePointThree hmin hscalar]; rfl,hrest⟩
  · obtain ⟨a,b,c,rest,rfl,ha,hb,hc,hlegal,hrest⟩ := (isValidUtf8_four h4).mp h
    obtain ⟨hmin,-,hmax⟩ := (isLegalCodePoint_iff _ _).mp hlegal
    exact ⟨_,rest,by
      rw [Utf8.encodeChar_four h4 ha hb hc toNat_codePointFour hmin hmax]; rfl,hrest⟩
  · rw [isValidUtf8_other hother] at h
    cases h

/-- An encoded value is passed over. -/
theorem isValidUtf8_encodeChar_append (c : Char) (rest : ByteString) :
    isValidUtf8 (String.utf8EncodeChar c ++ rest) = true ↔ isValidUtf8 rest = true := by
  have hlt := Utf8.toNat_lt c
  rcases Utf8.encodeChar_cases c with ⟨h,heq⟩ | ⟨h,h',heq⟩ | ⟨h,h',heq⟩ | ⟨h,heq⟩
  · have hbyte : (UInt8.ofNat c.toNat).toNat = c.toNat := by
      rw [UInt8.toNat_ofNat']; omega
    rw [heq, List.singleton_append, isValidUtf8_one (by omega)]
  · rw [heq, List.cons_append, List.singleton_append, isValidUtf8_two (by
      rw [UInt8.toNat_ofNat']; omega)]
    constructor
    · rintro ⟨a,rest',htext,-,-,hrest⟩
      obtain ⟨rfl,rfl⟩ := List.cons.inj htext
      exact hrest
    · refine fun hrest => ⟨_,_,rfl,?_,?_,hrest⟩
      · simp only [Utf8.Continues, UInt8.toNat_ofNat']
        omega
      · simp only [isLegalCodePoint_iff, toNat_codePointTwo, UInt8.toNat_ofNat',
          UInt32.reduceToNat]
        omega
  · rw [heq, List.cons_append, List.cons_append, List.singleton_append, isValidUtf8_three (by
      rw [UInt8.toNat_ofNat']; omega)]
    constructor
    · rintro ⟨a,b,rest',htext,-,-,-,hrest⟩
      simp only [List.cons.injEq] at htext
      obtain ⟨rfl,rfl,rfl⟩ := htext
      exact hrest
    · refine fun hrest => ⟨_,_,_,rfl,?_,?_,?_,hrest⟩
      · simp only [Utf8.Continues, UInt8.toNat_ofNat']
        omega
      · simp only [Utf8.Continues, UInt8.toNat_ofNat']
        omega
      · simp only [isLegalCodePoint_iff, toNat_codePointThree, UInt8.toNat_ofNat',
          UInt32.reduceToNat]
        omega
  · rw [heq, List.cons_append, List.cons_append, List.cons_append, List.singleton_append,
      isValidUtf8_four (by rw [UInt8.toNat_ofNat']; omega)]
    constructor
    · rintro ⟨a,b,d,rest',htext,-,-,-,-,hrest⟩
      simp only [List.cons.injEq] at htext
      obtain ⟨rfl,rfl,rfl,rfl⟩ := htext
      exact hrest
    · refine fun hrest => ⟨_,_,_,_,rfl,?_,?_,?_,?_,hrest⟩
      · simp only [Utf8.Continues, UInt8.toNat_ofNat']
        omega
      · simp only [Utf8.Continues, UInt8.toNat_ofNat']
        omega
      · simp only [Utf8.Continues, UInt8.toNat_ofNat']
        omega
      · simp only [isLegalCodePoint_iff, toNat_codePointFour, UInt8.toNat_ofNat',
          UInt32.reduceToNat]
        omega

/-- The check accepts exactly the encodings of texts. -/
theorem isValidUtf8_iff (bytes : ByteString) :
    isValidUtf8 bytes = true ↔ ∃ text, bytes = Utf8.encode text := by
  constructor
  · intro h
    induction hn : bytes.length using Nat.strong_induction_on generalizing bytes with
    | _ n ih =>
      cases bytes with
      | nil => exact ⟨[],rfl⟩
      | cons byte tail =>
        obtain ⟨c,rest,heq,hrest⟩ := exists_of_isValidUtf8_cons h
        have hshorter : rest.length < n := by
          obtain ⟨lead,_,hlead,-⟩ := Utf8.exists_lead c
          rw [← hn, heq, hlead, List.length_append, List.length_cons]
          omega
        obtain ⟨text,rfl⟩ := ih rest.length hshorter rest hrest rfl
        exact ⟨c :: text,heq⟩
  · rintro ⟨text,rfl⟩
    induction text with
    | nil => rfl
    | cons c text ih => exact (isValidUtf8_encodeChar_append c _).mpr ih

end PathObservatory.Json
