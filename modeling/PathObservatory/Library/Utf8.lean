import Mathlib.Data.Nat.Notation

/-! # The encoding of scalar values

Lean's characters are the Unicode scalar values, and `String.utf8EncodeChar` is
their encoding. The lemmas read it in decimal arithmetic: how many bytes a value
takes, which bytes open a sequence and which continue one.
-/
namespace Utf8

abbrev Bytes := List UInt8

def encode (text : List Char) : Bytes := text.flatMap String.utf8EncodeChar

@[simp] theorem encode_nil : encode [] = [] := rfl

@[simp] theorem encode_cons (c : Char) (text : List Char) :
    encode (c :: text) = String.utf8EncodeChar c ++ encode text := rfl

/-- A byte that continues a sequence. -/
def Continues (b : UInt8) : Prop := 0x80 ≤ b.toNat ∧ b.toNat < 0xC0

theorem toNat_lt (c : Char) : c.toNat < 0xD800 ∨ 0xDFFF < c.toNat ∧ c.toNat < 0x110000 := c.valid

/-- The four lengths of an encoded value. -/
theorem encodeChar_cases (c : Char) :
    (c.toNat < 0x80 ∧ String.utf8EncodeChar c = [UInt8.ofNat c.toNat]) ∨
    (0x80 ≤ c.toNat ∧ c.toNat < 0x800 ∧ String.utf8EncodeChar c =
      [UInt8.ofNat (c.toNat / 64 + 0xC0),UInt8.ofNat (c.toNat % 64 + 0x80)]) ∨
    (0x800 ≤ c.toNat ∧ c.toNat < 0x10000 ∧ String.utf8EncodeChar c =
      [UInt8.ofNat (c.toNat / 4096 + 0xE0),UInt8.ofNat (c.toNat / 64 % 64 + 0x80),
        UInt8.ofNat (c.toNat % 64 + 0x80)]) ∨
    (0x10000 ≤ c.toNat ∧ String.utf8EncodeChar c =
      [UInt8.ofNat (c.toNat / 262144 + 0xF0),UInt8.ofNat (c.toNat / 4096 % 64 + 0x80),
        UInt8.ofNat (c.toNat / 64 % 64 + 0x80),UInt8.ofNat (c.toNat % 64 + 0x80)]) := by
  have hlt := toNat_lt c
  have hv : c.val.toNat = c.toNat := rfl
  simp only [String.utf8EncodeChar, hv]
  by_cases h1 : c.toNat ≤ 0x7F
  · exact Or.inl ⟨by omega,if_pos h1⟩
  · by_cases h2 : c.toNat ≤ 0x7FF
    · refine Or.inr (Or.inl ⟨by omega,by omega,?_⟩)
      rw [if_neg h1, if_pos h2, Nat.mod_eq_of_lt (by omega : c.toNat / 64 < 32)]
    · by_cases h3 : c.toNat ≤ 0xFFFF
      · refine Or.inr (Or.inr (Or.inl ⟨by omega,by omega,?_⟩))
        rw [if_neg h1, if_neg h2, if_pos h3, Nat.mod_eq_of_lt (by omega : c.toNat / 4096 < 16)]
      · refine Or.inr (Or.inr (Or.inr ⟨by omega,?_⟩))
        rw [if_neg h1, if_neg h2, if_neg h3, Nat.mod_eq_of_lt (by omega : c.toNat / 262144 < 8)]

/-- An encoded value is a byte that opens it and bytes that continue it; only an
ASCII value has a byte below the others. -/
theorem exists_lead (c : Char) : ∃ lead rest, String.utf8EncodeChar c = lead :: rest ∧
    ¬ Continues lead ∧ (∀ b ∈ rest, Continues b) ∧
    (lead.toNat < 0x80 ∧ rest = [] ∧ lead.toNat = c.toNat ∨
      0x80 ≤ lead.toNat ∧ 0x80 ≤ c.toNat) := by
  have hlt := toNat_lt c
  rcases encodeChar_cases c with ⟨h,heq⟩ | ⟨h,h',heq⟩ | ⟨h,h',heq⟩ | ⟨h,heq⟩
  · refine ⟨_,_,heq,?_,List.forall_mem_nil _,Or.inl ?_⟩
    all_goals
      simp only [Continues, UInt8.toNat_ofNat', true_and]
      omega
  all_goals
    refine ⟨_,_,heq,?_,?_,Or.inr ?_⟩
    all_goals
      simp only [Continues, List.forall_mem_cons, List.not_mem_nil, false_imp_iff, implies_true,
        and_true, UInt8.toNat_ofNat']
      omega

theorem eq_of_toNat_eq {c d : Char} (h : c.toNat = d.toNat) : c = d := Char.toNat_inj.mp h

/-- No encoded value is a proper prefix of another. -/
theorem encodeChar_append_inj {c d : Char} {x y : Bytes}
    (h : String.utf8EncodeChar c ++ x = String.utf8EncodeChar d ++ y) : c = d ∧ x = y := by
  have hc := toNat_lt c
  have hd := toNat_lt d
  have hvalues : c.toNat = d.toNat ∧ x = y := by
    rcases encodeChar_cases c with ⟨h1,heq⟩ | ⟨h1,h2,heq⟩ | ⟨h1,h2,heq⟩ | ⟨h1,heq⟩
    all_goals
      rcases encodeChar_cases d with ⟨h3,heq'⟩ | ⟨h3,h4,heq'⟩ | ⟨h3,h4,heq'⟩ | ⟨h3,heq'⟩
      all_goals
        rw [heq, heq'] at h
        simp only [List.cons_append, List.nil_append, List.cons.injEq, ← UInt8.toNat_inj,
          UInt8.toNat_ofNat'] at h
        first
        | exact ⟨by omega,h.2⟩
        | exact ⟨by omega,h.2.2⟩
        | exact ⟨by omega,h.2.2.2⟩
        | exact ⟨by omega,h.2.2.2.2⟩
        | omega
  exact ⟨eq_of_toNat_eq hvalues.1,hvalues.2⟩

/-- The character of a value outside the surrogates. -/
theorem toNat_ofNat {n : ℕ} (h : n < 0xD800 ∨ 0xDFFF < n ∧ n < 0x110000) :
    (Char.ofNat n).toNat = n := by
  have hvalid : n.isValidChar := h
  rw [Char.ofNat, dif_pos hvalid]
  exact UInt32.toNat_ofNatLT

section Decoding
variable {n : ℕ}

/-! What the four lengths decode to. -/

theorem encodeChar_one {b : UInt8} (hb : b.toNat < 0x80) :
    String.utf8EncodeChar (Char.ofNat b.toNat) = [b] := by
  have hn : (Char.ofNat b.toNat).toNat = b.toNat := toNat_ofNat (by omega)
  rcases encodeChar_cases (Char.ofNat b.toNat) with ⟨h,heq⟩ | ⟨h,-⟩ | ⟨h,-⟩ | ⟨h,-⟩
  · rw [heq, hn, UInt8.ofNat_toNat]
  all_goals omega

theorem encodeChar_two {b a : UInt8} (hb : 0xC0 ≤ b.toNat ∧ b.toNat < 0xE0) (ha : Continues a)
    (hn : n = b.toNat % 32 * 64 + a.toNat % 64) (hmin : 0x80 ≤ n) :
    String.utf8EncodeChar (Char.ofNat n) = [b,a] := by
  unfold Continues at ha
  have hc : (Char.ofNat n).toNat = n := toNat_ofNat (by omega)
  rcases encodeChar_cases (Char.ofNat n) with ⟨h,-⟩ | ⟨h,h',heq⟩ | ⟨h,-⟩ | ⟨h,-⟩
  · omega
  · rw [heq, hc]
    simp only [List.cons.injEq, ← UInt8.toNat_inj, UInt8.toNat_ofNat', and_true]
    omega
  all_goals omega

theorem encodeChar_three {b a a' : UInt8} (hb : 0xE0 ≤ b.toNat ∧ b.toNat < 0xF0)
    (ha : Continues a) (ha' : Continues a')
    (hn : n = (b.toNat % 16 * 64 + a.toNat % 64) * 64 + a'.toNat % 64) (hmin : 0x800 ≤ n)
    (hscalar : n < 0xD800 ∨ 0xDFFF < n) :
    String.utf8EncodeChar (Char.ofNat n) = [b,a,a'] := by
  unfold Continues at ha ha'
  have hc : (Char.ofNat n).toNat = n := toNat_ofNat (by omega)
  rcases encodeChar_cases (Char.ofNat n) with ⟨h,-⟩ | ⟨h,h',-⟩ | ⟨h,h',heq⟩ | ⟨h,-⟩
  · omega
  · omega
  · rw [heq, hc]
    simp only [List.cons.injEq, ← UInt8.toNat_inj, UInt8.toNat_ofNat', and_true]
    omega
  · omega

theorem encodeChar_four {b a a' a'' : UInt8} (hb : 0xF0 ≤ b.toNat ∧ b.toNat < 0xF8)
    (ha : Continues a) (ha' : Continues a') (ha'' : Continues a'')
    (hn : n = ((b.toNat % 8 * 64 + a.toNat % 64) * 64 + a'.toNat % 64) * 64 + a''.toNat % 64)
    (hmin : 0x10000 ≤ n) (hscalar : n < 0x110000) :
    String.utf8EncodeChar (Char.ofNat n) = [b,a,a',a''] := by
  unfold Continues at ha ha' ha''
  have hc : (Char.ofNat n).toNat = n := toNat_ofNat (by omega)
  rcases encodeChar_cases (Char.ofNat n) with ⟨h,-⟩ | ⟨h,h',-⟩ | ⟨h,h',-⟩ | ⟨h,heq⟩
  · omega
  · omega
  · omega
  · rw [heq, hc]
    simp only [List.cons.injEq, ← UInt8.toNat_inj, UInt8.toNat_ofNat', and_true]
    omega

end Decoding

end Utf8
