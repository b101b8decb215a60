import PathObservatory.Json.Text

/-! # Exactly the encodings are well formed

The check of a text and the appending of a code point have tables of their own. They
agree: what passes the check is what code points append to, one after the other.
-/
namespace PathObservatory.Json
open Utf8 (Continues)

/-- A code point that is no surrogate. -/
def IsScalar (codePoint : UInt32) : Prop :=
  codePoint.toNat ≤ 0x10FFFF ∧ ¬ (0xD800 ≤ codePoint.toNat ∧ codePoint.toNat ≤ 0xDFFF)

/-! ### The forms of a code point, whatever its value -/

def twoBytes (codePoint : UInt32) : ByteString :=
  [leadByte 0xC0 (codePoint >>> 6),continuationByte codePoint]

def threeBytes (codePoint : UInt32) : ByteString :=
  [leadByte 0xE0 (codePoint >>> 12),continuationByte (codePoint >>> 6),continuationByte codePoint]

def fourBytes (codePoint : UInt32) : ByteString :=
  [leadByte 0xF0 (codePoint >>> 18),continuationByte (codePoint >>> 12),
    continuationByte (codePoint >>> 6),continuationByte codePoint]

/-- What no text goes on with: a byte that continues nothing, a longer form than the
value needs, a surrogate, or an encoding that breaks off. -/
inductive Malformed : ByteString → Prop
  | stray {byte : UInt8} {rest : ByteString} (h : Continues byte) : Malformed (byte :: rest)
  | overlongTwo {codePoint : UInt32} {rest : ByteString} (h : codePoint.toNat < 0x80) :
      Malformed (twoBytes codePoint ++ rest)
  | overlongThree {codePoint : UInt32} {rest : ByteString} (h : codePoint.toNat < 0x800) :
      Malformed (threeBytes codePoint ++ rest)
  | overlongFour {codePoint : UInt32} {rest : ByteString} (h : codePoint.toNat < 0x10000) :
      Malformed (fourBytes codePoint ++ rest)
  | surrogate {codePoint : UInt32} {rest : ByteString} (hlow : 0xD800 ≤ codePoint.toNat)
      (hhigh : codePoint.toNat ≤ 0xDFFF) : Malformed (threeBytes codePoint ++ rest)
  | truncated {codePoint : UInt32} {bytes rest : ByteString} {kept : ℕ}
      (h : appendUtf8 [] codePoint = some bytes) (hsome : 0 < kept) (hkept : kept < bytes.length)
      (hrest : ∀ byte ∈ rest.head?, ¬ Continues byte) : Malformed (bytes.take kept ++ rest)

section Appending
variable {out result : ByteString} {codePoint : UInt32}

theorem isScalar_of_appendUtf8 (h : appendUtf8 out codePoint = some result) :
    IsScalar codePoint := by
  obtain ⟨c,rfl,-⟩ := appendUtf8_eq_some.mp h
  have hvalid := Utf8.toNat_lt c
  have hval : c.val.toNat = c.toNat := rfl
  rw [IsScalar, hval]
  omega

/-- Code points append what the characters they stand for encode to. -/
theorem foldlM_appendUtf8 {codePoints : List UInt32} :
    codePoints.foldlM appendUtf8 out = some result ↔
      ∃ text : List Char, text.map (·.val) = codePoints ∧ result = out ++ Utf8.encode text := by
  induction codePoints generalizing out with
  | nil =>
    simp only [List.foldlM_nil, List.map_eq_nil_iff, exists_eq_left, Utf8.encode_nil,
      List.append_nil]
    exact ⟨fun h => (Option.some.inj h).symm,fun h => congrArg some h.symm⟩
  | cons codePoint rest ih =>
    rw [List.foldlM_cons, Option.bind_eq_bind, Option.bind_eq_some_iff]
    constructor
    · rintro ⟨next,hnext,hrest⟩
      obtain ⟨c,rfl,rfl⟩ := appendUtf8_eq_some.mp hnext
      obtain ⟨text,rfl,rfl⟩ := ih.mp hrest
      exact ⟨c :: text,rfl,by rw [Utf8.encode_cons, List.append_assoc]⟩
    · rintro ⟨text,htext,rfl⟩
      obtain ⟨c,others,rfl,rfl,rfl⟩ := List.map_eq_cons_iff.mp htext
      refine ⟨_,appendUtf8_val out c,ih.mpr ⟨others,rfl,?_⟩⟩
      rw [Utf8.encode_cons, List.append_assoc]

theorem isScalar_of_foldlM {codePoints : List UInt32}
    (h : codePoints.foldlM appendUtf8 out = some result) : ∀ c ∈ codePoints, IsScalar c := by
  obtain ⟨text,rfl,-⟩ := foldlM_appendUtf8.mp h
  intro codePoint hmem
  obtain ⟨c,-,rfl⟩ := List.mem_map.mp hmem
  exact isScalar_of_appendUtf8 (appendUtf8_val [] c)

end Appending

/-- A well formed text in front does not matter. -/
theorem isValidUtf8_append {before : ByteString} (h : isValidUtf8 before = true)
    (rest : ByteString) : isValidUtf8 (before ++ rest) = true ↔ isValidUtf8 rest = true := by
  obtain ⟨text,rfl⟩ := (isValidUtf8_iff before).mp h
  clear h
  induction text with
  | nil => exact Iff.rfl
  | cons c text ih => rw [Utf8.encode_cons, List.append_assoc, isValidUtf8_encodeChar_append, ih]

section Forms
variable {codePoint : UInt32} {rest : ByteString}

theorem toNat_shiftRight_six : (codePoint >>> 6).toNat = codePoint.toNat / 64 :=
  toNat_shiftRight 6 (by decide)

theorem toNat_shiftRight_twelve : (codePoint >>> 12).toNat = codePoint.toNat / 4096 :=
  toNat_shiftRight 12 (by decide)

theorem toNat_shiftRight_eighteen : (codePoint >>> 18).toNat = codePoint.toNat / 262144 :=
  toNat_shiftRight 18 (by decide)

/-- Two bytes that pass the check spell a code point from `0x80` on. -/
theorem isValidUtf8_twoBytes (hbound : codePoint.toNat < 0x800)
    (h : isValidUtf8 (twoBytes codePoint ++ rest) = true) : 0x80 ≤ codePoint.toNat := by
  have hlead := toNat_leadByte 6 5 (show UInt32.toNat 0xC0 = 6 <<< 5 from rfl)
    (show (codePoint >>> 6).toNat < 2 ^ 5 by rw [toNat_shiftRight_six]; omega)
    (by rw [toNat_shiftRight_six]; simp only [UInt32.reduceToNat]; omega)
  simp only [toNat_shiftRight_six, UInt32.reduceToNat] at hlead
  obtain ⟨a,_,htext,-,hlegal,-⟩ := (isValidUtf8_two (by omega)).mp h
  obtain ⟨rfl,-⟩ := List.cons.inj htext
  obtain ⟨hmin,-,-⟩ := (isLegalCodePoint_iff _ _).mp hlegal
  simp only [toNat_codePointTwo, hlead, toNat_continuationByte, UInt32.reduceToNat] at hmin
  omega

/-- Three bytes that pass the check spell no smaller code point and no surrogate. -/
theorem isValidUtf8_threeBytes (hbound : codePoint.toNat < 0x10000)
    (h : isValidUtf8 (threeBytes codePoint ++ rest) = true) :
    0x800 ≤ codePoint.toNat ∧ (codePoint.toNat < 0xD800 ∨ 0xDFFF < codePoint.toNat) := by
  have hlead := toNat_leadByte 14 4 (show UInt32.toNat 0xE0 = 14 <<< 4 from rfl)
    (show (codePoint >>> 12).toNat < 2 ^ 4 by rw [toNat_shiftRight_twelve]; omega)
    (by rw [toNat_shiftRight_twelve]; simp only [UInt32.reduceToNat]; omega)
  simp only [toNat_shiftRight_twelve, UInt32.reduceToNat] at hlead
  obtain ⟨a,b,_,htext,-,-,hlegal,-⟩ := (isValidUtf8_three (by omega)).mp h
  obtain ⟨rfl,hlast⟩ := List.cons.inj htext
  obtain ⟨rfl,-⟩ := List.cons.inj hlast
  obtain ⟨hmin,hscalar,-⟩ := (isLegalCodePoint_iff _ _).mp hlegal
  simp only [toNat_codePointThree, hlead, toNat_continuationByte, toNat_shiftRight_six,
    UInt32.reduceToNat] at hmin hscalar
  omega

theorem isValidUtf8_fourBytes (hbound : codePoint.toNat < 0x200000)
    (h : isValidUtf8 (fourBytes codePoint ++ rest) = true) : 0x10000 ≤ codePoint.toNat := by
  have hlead := toNat_leadByte 30 3 (show UInt32.toNat 0xF0 = 30 <<< 3 from rfl)
    (show (codePoint >>> 18).toNat < 2 ^ 3 by rw [toNat_shiftRight_eighteen]; omega)
    (by rw [toNat_shiftRight_eighteen]; simp only [UInt32.reduceToNat]; omega)
  simp only [toNat_shiftRight_eighteen, UInt32.reduceToNat] at hlead
  obtain ⟨a,b,c,_,htext,-,-,-,hlegal,-⟩ := (isValidUtf8_four (by omega)).mp h
  obtain ⟨rfl,hlater⟩ := List.cons.inj htext
  obtain ⟨rfl,hlast⟩ := List.cons.inj hlater
  obtain ⟨rfl,-⟩ := List.cons.inj hlast
  obtain ⟨hmin,-,-⟩ := (isLegalCodePoint_iff _ _).mp hlegal
  simp only [toNat_codePointFour, hlead, toNat_continuationByte, toNat_shiftRight_six,
    toNat_shiftRight_twelve, UInt32.reduceToNat] at hmin
  omega

/-- An encoding that breaks off is followed by what would go on with it. -/
theorem not_valid_of_truncated {c : Char} {kept : ℕ} (hsome : 0 < kept)
    (hkept : kept < (String.utf8EncodeChar c).length)
    (hrest : ∀ byte ∈ rest.head?, ¬ Continues byte) :
    ¬ isValidUtf8 ((String.utf8EncodeChar c).take kept ++ rest) = true := by
  intro h
  have hlt := Utf8.toNat_lt c
  have hnext : ∀ {byte tail}, rest = byte :: tail → ¬ Continues byte := by
    rintro byte tail rfl
    exact hrest byte rfl
  rcases Utf8.encodeChar_cases c with ⟨-,heq⟩ | ⟨-,hhigh,heq⟩ | ⟨-,hhigh,heq⟩ | ⟨-,heq⟩
  · rw [heq, List.length_singleton] at hkept
    omega
  · rw [heq] at hkept h
    obtain rfl : kept = 1 := by simp only [List.length_cons, List.length_nil] at hkept; omega
    obtain ⟨a,_,htext,ha,-⟩ := (isValidUtf8_two (by rw [UInt8.toNat_ofNat']; omega)).mp h
    exact hnext htext ha
  · rw [heq] at hkept h
    obtain rfl | rfl : kept = 1 ∨ kept = 2 := by
      simp only [List.length_cons, List.length_nil] at hkept; omega
    · obtain ⟨a,b,_,htext,ha,-⟩ := (isValidUtf8_three (by rw [UInt8.toNat_ofNat']; omega)).mp h
      exact hnext htext ha
    · obtain ⟨a,b,_,htext,-,hb,-⟩ := (isValidUtf8_three (by rw [UInt8.toNat_ofNat']; omega)).mp h
      exact hnext (List.cons.inj htext).2 hb
  · rw [heq] at hkept h
    obtain rfl | rfl | rfl : kept = 1 ∨ kept = 2 ∨ kept = 3 := by
      simp only [List.length_cons, List.length_nil] at hkept; omega
    · obtain ⟨a,b,d,_,htext,ha,-⟩ := (isValidUtf8_four (by rw [UInt8.toNat_ofNat']; omega)).mp h
      exact hnext htext ha
    · obtain ⟨a,b,d,_,htext,-,hb,-⟩ :=
        (isValidUtf8_four (by rw [UInt8.toNat_ofNat']; omega)).mp h
      exact hnext (List.cons.inj htext).2 hb
    · obtain ⟨a,b,d,_,htext,-,-,hd,-⟩ :=
        (isValidUtf8_four (by rw [UInt8.toNat_ofNat']; omega)).mp h
      exact hnext (List.cons.inj (List.cons.inj htext).2).2 hd

end Forms

theorem Malformed.not_valid {text : ByteString} (h : Malformed text) :
    ¬ isValidUtf8 text = true := by
  intro hvalid
  cases h with
  | stray hbyte =>
    rw [isValidUtf8_other (Or.inl hbyte)] at hvalid
    cases hvalid
  | overlongTwo hsmall =>
    have hmin := isValidUtf8_twoBytes (by omega) hvalid
    omega
  | overlongThree hsmall =>
    have hmin := isValidUtf8_threeBytes (by omega) hvalid
    omega
  | overlongFour hsmall =>
    have hmin := isValidUtf8_fourBytes (by omega) hvalid
    omega
  | surrogate hlow hhigh =>
    have hscalar := isValidUtf8_threeBytes (by omega) hvalid
    omega
  | truncated happend hsome hkept hrest =>
    obtain ⟨c,-,rfl⟩ := appendUtf8_eq_some.mp happend
    exact not_valid_of_truncated hsome hkept hrest hvalid

/-- The check accepts what the appending of scalar values produces, and nothing else:
behind a well formed text nothing malformed passes. -/
theorem utf8_validation_exact (text : ByteString) :
    (isValidUtf8 text = true ↔ ∃ codePoints : List UInt32,
      (∀ c ∈ codePoints, IsScalar c) ∧ codePoints.foldlM appendUtf8 [] = some text) ∧
    ∀ rest, isValidUtf8 text = true → Malformed rest → isValidUtf8 (text ++ rest) = false := by
  constructor
  · rw [isValidUtf8_iff]
    constructor
    · rintro ⟨chars,rfl⟩
      have happended := foldlM_appendUtf8.mpr
        ⟨chars,rfl,(List.nil_append (Utf8.encode chars)).symm⟩
      exact ⟨_,isScalar_of_foldlM happended,happended⟩
    · rintro ⟨codePoints,-,happended⟩
      obtain ⟨chars,-,rfl⟩ := foldlM_appendUtf8.mp happended
      exact ⟨chars,List.nil_append _⟩
  · intro rest hvalid hmalformed
    rw [Bool.eq_false_iff, Ne, isValidUtf8_append hvalid]
    exact hmalformed.not_valid

end PathObservatory.Json
