import PathObservatory.Json.Grammar
import PathObservatory.Json.Parser

/-! # Strings are read exactly

The reader passes a string byte by byte and looks at the encoding when the whole
string is there, the grammar is stated in characters. The two agree because no
escape appends a byte that could continue a character begun before it.
-/
namespace PathObservatory.Json

theorem toNat_sub_byte {c low : UInt8} (h : low ≤ c) : (c - low).toUInt32.toNat =
    c.toNat - low.toNat := by
  rw [UInt8.toNat_toUInt32, UInt8.toNat_sub_of_le c low h]

theorem toNat_letter {c low : UInt8} (h : low ≤ c) (hle : c ≤ low + 5) (hlow : low < 0x80) :
    (c - low + 10).toUInt32.toNat = c.toNat - low.toNat + 10 := by
  simp only [UInt8.le_iff_toNat_le, UInt8.lt_iff_toNat_lt, UInt8.toNat_add, UInt8.reduceToNat] at *
  rw [UInt8.toNat_toUInt32, UInt8.toNat_add, UInt8.toNat_sub_of_le c low h]
  simp only [UInt8.reduceToNat]
  omega

theorem hexDigit_of_hexValue {c : UInt8} {digit : UInt32} (h : hexValue c = some digit) :
    HexDigit c digit.toNat := by
  unfold hexValue at h
  split_ifs at h with hdigit hlower hupper
  · obtain rfl := Option.some.inj h
    rw [toNat_sub_byte hdigit.1]
    exact .digit hdigit
  · obtain rfl := Option.some.inj h
    rw [toNat_letter hlower.1 hlower.2 (by decide)]
    exact .lower hlower
  · obtain rfl := Option.some.inj h
    rw [toNat_letter hupper.1 hupper.2 (by decide)]
    exact .upper hupper

theorem hexValue_of_hexDigit {c : UInt8} {n : ℕ} (h : HexDigit c n) :
    ∃ digit, hexValue c = some digit ∧ digit.toNat = n := by
  cases h with
  | digit h => exact ⟨_,if_pos h,toNat_sub_byte h.1⟩
  | lower h =>
    have hdigit : ¬ (0x30 ≤ c ∧ c ≤ 0x39) := by
      simp only [UInt8.le_iff_toNat_le, UInt8.reduceToNat] at h ⊢
      omega
    exact ⟨_,by rw [hexValue, if_neg hdigit, if_pos h],toNat_letter h.1 h.2 (by decide)⟩
  | upper h =>
    have hdigit : ¬ (0x30 ≤ c ∧ c ≤ 0x39) := by
      simp only [UInt8.le_iff_toNat_le, UInt8.reduceToNat] at h ⊢
      omega
    have hlower : ¬ (0x61 ≤ c ∧ c ≤ 0x66) := by
      simp only [UInt8.le_iff_toNat_le, UInt8.reduceToNat] at h ⊢
      omega
    exact ⟨_,by rw [hexValue, if_neg hdigit, if_neg hlower, if_pos h],
      toNat_letter h.1 h.2 (by decide)⟩

theorem HexDigit.lt {c : UInt8} {n : ℕ} (h : HexDigit c n) : n < 16 := by
  cases h with
  | digit h | lower h | upper h =>
    simp only [UInt8.le_iff_toNat_le, UInt8.reduceToNat] at h
    omega

theorem HexWord.length {word : ByteString} {n : ℕ} (h : HexWord word n) : word.length = 4 := by
  cases h
  rfl

theorem HexWord.lt {word : ByteString} {n : ℕ} (h : HexWord word n) : n < 0x10000 := by
  cases h with
  | intro ha hb hc hd =>
    have ha := ha.lt
    have hb := hb.lt
    have hc := hc.lt
    have hd := hd.lt
    omega

theorem toNat_pushHexDigit {value digit : UInt32} (hvalue : value.toNat < 2 ^ 28)
    (hdigit : digit.toNat < 16) :
    (pushHexDigit value digit).toNat = value.toNat * 16 + digit.toNat := by
  have hshift : (value <<< 4).toNat = value.toNat <<< 4 := by
    rw [UInt32.toNat_shiftLeft]
    exact Nat.mod_eq_of_lt (by
      rw [Nat.shiftLeft_eq]
      show value.toNat * 2 ^ 4 < 2 ^ 32
      omega)
  rw [pushHexDigit, UInt32.toNat_or, hshift,
    ← Nat.shiftLeft_add_eq_or_of_lt (by omega : digit.toNat < 2 ^ 4), Nat.shiftLeft_eq]

theorem hexDigits_cons {c : UInt8} {rest : ByteString} {value result : UInt32} :
    hexDigits value (c :: rest) = some result ↔
      ∃ digit, hexValue c = some digit ∧ hexDigits (pushHexDigit value digit) rest = some result :=
  Option.bind_eq_some_iff

/-- The word that four digit values make. -/
theorem toNat_hexDigits {w x y z : UInt32} (hw : w.toNat < 16) (hx : x.toNat < 16)
    (hy : y.toNat < 16) (hz : z.toNat < 16) :
    (pushHexDigit (pushHexDigit (pushHexDigit (pushHexDigit 0 w) x) y) z).toNat =
      ((w.toNat * 16 + x.toNat) * 16 + y.toNat) * 16 + z.toNat := by
  have h1 : (pushHexDigit 0 w).toNat = w.toNat :=
    (toNat_pushHexDigit (by decide) hw).trans (Nat.zero_add _)
  have h2 := toNat_pushHexDigit (show (pushHexDigit 0 w).toNat < 2 ^ 28 by omega) hx
  have h3 := toNat_pushHexDigit
    (show (pushHexDigit (pushHexDigit 0 w) x).toNat < 2 ^ 28 by omega) hy
  rw [toNat_pushHexDigit (by omega) hz, h3, h2, h1]

theorem hexDigits_four {a b c d : UInt8} {value : UInt32} :
    hexDigits 0 [a,b,c,d] = some value ↔ HexWord [a,b,c,d] value.toNat := by
  constructor
  · intro h
    obtain ⟨w,hw,h⟩ := hexDigits_cons.mp h
    obtain ⟨x,hx,h⟩ := hexDigits_cons.mp h
    obtain ⟨y,hy,h⟩ := hexDigits_cons.mp h
    obtain ⟨z,hz,h⟩ := hexDigits_cons.mp h
    obtain rfl := Option.some.inj h
    have hw := hexDigit_of_hexValue hw
    have hx := hexDigit_of_hexValue hx
    have hy := hexDigit_of_hexValue hy
    have hz := hexDigit_of_hexValue hz
    rw [toNat_hexDigits hw.lt hx.lt hy.lt hz.lt]
    exact .intro hw hx hy hz
  · generalize hn : value.toNat = n
    rintro ⟨ha,hb,hc,hd⟩
    obtain ⟨w,hw,rfl⟩ := hexValue_of_hexDigit ha
    obtain ⟨x,hx,rfl⟩ := hexValue_of_hexDigit hb
    obtain ⟨y,hy,rfl⟩ := hexValue_of_hexDigit hc
    obtain ⟨z,hz,rfl⟩ := hexValue_of_hexDigit hd
    have hvalue := UInt32.toNat_inj.mp
      (hn.trans (toNat_hexDigits ha.lt hb.lt hc.lt hd.lt).symm)
    simp only [hexDigits, hw, hx, hy, hz, Option.bind_some, hvalue]

/-- Four digits are read as the word they spell. -/
theorem readHex4_eq_ok {rest tail : ByteString} {value : UInt32} :
    readHex4 rest = .ok (value,tail) ↔
      ∃ word, rest = word ++ tail ∧ HexWord word value.toNat := by
  constructor
  · intro h
    unfold readHex4 at h
    split_ifs at h with hshort
    match rest with
    | [] | [_] | [_,_] | [_,_,_] => simp at hshort
    | a :: b :: c :: d :: rest =>
      cases hword : hexDigits 0 [a,b,c,d] with
      | none => simp [hword] at h
      | some result =>
        simp only [List.take_succ_cons, List.take_zero, hword, List.drop_succ_cons, List.drop_zero,
          Except.ok.injEq, Prod.mk.injEq] at h
        obtain ⟨rfl,rfl⟩ := h
        exact ⟨[a,b,c,d],rfl,hexDigits_four.mp hword⟩
  · rintro ⟨word,rfl,hword⟩
    generalize hn : value.toNat = n at hword
    obtain ⟨ha,hb,hc,hd⟩ := hword
    rename_i a b c d w x y z
    have hvalue : hexDigits 0 [a,b,c,d] = some value :=
      hexDigits_four.mpr (hn ▸ .intro ha hb hc hd)
    have hlong : ¬ ([a,b,c,d] ++ tail).length < 4 := by simp
    rw [readHex4, if_neg hlong]
    simp [hvalue]

section Escapes
variable {out result rest tail : ByteString}

theorem appendCodePoint_eq_ok {codePoint : UInt32} :
    appendCodePoint out codePoint rest = .ok (result,tail) ↔
      ∃ c : Char, c.val = codePoint ∧ result = out ++ String.utf8EncodeChar c ∧ rest = tail := by
  unfold appendCodePoint
  constructor
  · intro h
    cases happend : appendUtf8 out codePoint with
    | none => simp [happend] at h
    | some appended =>
      simp only [happend, Except.ok.injEq, Prod.mk.injEq] at h
      obtain ⟨c,hc,heq⟩ := appendUtf8_eq_some.mp happend
      exact ⟨c,hc,h.1 ▸ heq,h.2⟩
  · rintro ⟨c,rfl,rfl,rfl⟩
    rw [appendUtf8_val]

theorem toNat_surrogatePair {high low : UInt32} (hhigh : 0xD800 ≤ high ∧ high ≤ 0xDBFF)
    (hlow : 0xDC00 ≤ low ∧ low ≤ 0xDFFF) : (surrogatePair high low).toNat =
      0x10000 + (high.toNat - 0xD800) * 0x400 + (low.toNat - 0xDC00) := by
  have hfirst : (high - 0xD800).toNat = high.toNat - 0xD800 := UInt32.toNat_sub_of_le _ _ hhigh.1
  have hsecond : (low - 0xDC00).toNat = low.toNat - 0xDC00 := UInt32.toNat_sub_of_le _ _ hlow.1
  simp only [UInt32.le_iff_toNat_le, UInt32.reduceToNat] at hhigh hlow
  have hshift : ((high - 0xD800) <<< 10).toNat = (high.toNat - 0xD800) * 0x400 := by
    rw [UInt32.toNat_shiftLeft, hfirst, Nat.shiftLeft_eq]
    exact Nat.mod_eq_of_lt (show (high.toNat - 0xD800) * 2 ^ 10 < 2 ^ 32 by omega)
  rw [surrogatePair, UInt32.toNat_add, UInt32.toNat_add, hshift, hsecond]
  simp only [UInt32.reduceToNat]
  omega

theorem peek_eq_iff {c : UInt8} (hc : c ≠ 0) : peek rest = c ↔ ∃ tail, rest = c :: tail := by
  cases rest with
  | nil => simp [peek, hc.symm]
  | cons head tail => simp [peek, eq_comm]

/-- The escape of a code point is read up to its last digit. -/
theorem readUnicodeEscape_eq_ok :
    readUnicodeEscape out rest = .ok (result,tail) ↔
      ∃ text c, rest = text ++ tail ∧ EscapeText (0x75 :: text) c ∧
        result = out ++ String.utf8EncodeChar c := by
  unfold readUnicodeEscape
  rw [bind_eq_ok]
  constructor
  · rintro ⟨⟨codePoint,after⟩,hread,h⟩
    obtain ⟨word,rfl,hword⟩ := readHex4_eq_ok.mp hread
    dsimp only at h
    split_ifs at h with hhigh
    · obtain ⟨hpeek,h⟩ := require_bind_eq_ok.mp h
      obtain ⟨⟨low,after'⟩,hread',h⟩ := bind_eq_ok.mp h
      obtain ⟨hlow,h⟩ := require_bind_eq_ok.mp h
      obtain ⟨c,hc,rfl,rfl⟩ := appendCodePoint_eq_ok.mp h
      obtain ⟨second,hafter,hsecond⟩ := readHex4_eq_ok.mp hread'
      simp only [Bool.and_eq_true, decide_eq_true_eq] at hpeek hlow
      obtain ⟨after₁,rfl⟩ := (peek_eq_iff (by decide)).mp hpeek.1
      obtain ⟨after₂,hafter₁⟩ := (peek_eq_iff (by decide)).mp hpeek.2
      rw [List.drop_succ_cons, List.drop_zero] at hafter₁
      subst hafter₁
      rw [List.drop_succ_cons, List.drop_succ_cons, List.drop_zero] at hafter
      have hvalue : c.toNat = _ := (congrArg UInt32.toNat hc).trans (toNat_surrogatePair hhigh hlow)
      simp only [UInt32.le_iff_toNat_le, UInt32.reduceToNat] at hhigh hlow
      refine ⟨word ++ 0x5C :: 0x75 :: second,c,?_,.surrogates hword hsecond hhigh hlow hvalue,rfl⟩
      simp [hafter]
    · obtain ⟨-,h⟩ := require_bind_eq_ok.mp h
      obtain ⟨c,rfl,rfl,rfl⟩ := appendCodePoint_eq_ok.mp h
      exact ⟨word,c,rfl,.unicode hword,rfl⟩
  · rintro ⟨text,c,rfl,hescape,rfl⟩
    cases hescape with
    | short h => simp [shortEscapes] at h
    | unicode hword =>
      have hscalar := Utf8.toNat_lt c
      have hval : c.val.toNat = c.toNat := rfl
      have hhigh : ¬ (0xD800 ≤ c.val ∧ c.val ≤ 0xDBFF) := by
        simp only [UInt32.le_iff_toNat_le, UInt32.reduceToNat, hval]
        omega
      have hlow : (!(decide (0xDC00 ≤ c.val) && decide (c.val ≤ 0xDFFF))) = true := by
        simp only [Bool.not_eq_true', Bool.and_eq_false_iff, decide_eq_false_iff_not,
          UInt32.le_iff_toNat_le, UInt32.reduceToNat, hval]
        omega
      refine ⟨(c.val,tail),readHex4_eq_ok.mpr ⟨_,rfl,hword⟩,?_⟩
      dsimp only
      rw [if_neg hhigh]
      exact require_bind_eq_ok.mpr ⟨hlow,appendCodePoint_eq_ok.mpr ⟨c,rfl,rfl,rfl⟩⟩
    | @surrogates first second high low _ hfirst hsecond hhigh hlow hvalue =>
      have hhighVal : (UInt32.ofNat high).toNat = high :=
        UInt32.toNat_ofNat_of_lt' (show high < 2 ^ 32 by omega)
      have hlowVal : (UInt32.ofNat low).toNat = low :=
        UInt32.toNat_ofNat_of_lt' (show low < 2 ^ 32 by omega)
      have hhigh' : 0xD800 ≤ UInt32.ofNat high ∧ UInt32.ofNat high ≤ 0xDBFF := by
        simpa only [UInt32.le_iff_toNat_le, UInt32.reduceToNat, hhighVal] using hhigh
      have hlow' : 0xDC00 ≤ UInt32.ofNat low ∧ UInt32.ofNat low ≤ 0xDFFF := by
        simpa only [UInt32.le_iff_toNat_le, UInt32.reduceToNat, hlowVal] using hlow
      have hpair : c.val = surrogatePair (UInt32.ofNat high) (UInt32.ofNat low) := by
        refine UInt32.toNat_inj.mp ?_
        rw [toNat_surrogatePair hhigh' hlow', hhighVal, hlowVal]
        exact hvalue
      refine ⟨(UInt32.ofNat high,0x5C :: 0x75 :: (second ++ tail)),readHex4_eq_ok.mpr
        ⟨first,by simp,hhighVal.symm ▸ hfirst⟩,?_⟩
      dsimp only
      rw [if_pos hhigh']
      refine require_bind_eq_ok.mpr ⟨rfl,bind_eq_ok.mpr ⟨(UInt32.ofNat low,tail),
        readHex4_eq_ok.mpr ⟨second,rfl,hlowVal.symm ▸ hsecond⟩,?_⟩⟩
      refine require_bind_eq_ok.mpr ⟨?_,appendCodePoint_eq_ok.mpr ⟨c,hpair,rfl,rfl⟩⟩
      simpa only [Bool.and_eq_true, decide_eq_true_eq] using hlow'

/-- The one letter escapes of the reader are those of the grammar. -/
theorem simpleEscape_eq_some {kind byte : UInt8} :
    simpleEscape kind = some byte ↔
      ∃ c, (kind,c) ∈ shortEscapes ∧ String.utf8EncodeChar c = [byte] := by
  constructor
  · intro h
    unfold simpleEscape at h
    split_ifs at h with h1 h2 h3 h4 h5 h6 h7 h8
    all_goals obtain rfl := Option.some.inj h
    · exact ⟨Char.ofNat 0x08,by rw [h1]; decide,by decide⟩
    · exact ⟨Char.ofNat 0x0C,by rw [h2]; decide,by decide⟩
    · exact ⟨Char.ofNat 0x0A,by rw [h3]; decide,by decide⟩
    · exact ⟨Char.ofNat 0x0D,by rw [h4]; decide,by decide⟩
    · exact ⟨Char.ofNat 0x09,by rw [h5]; decide,by decide⟩
    · exact ⟨Char.ofNat 0x22,by rw [h6]; decide,by decide⟩
    · exact ⟨Char.ofNat 0x5C,by rw [h7]; decide,by decide⟩
    · exact ⟨Char.ofNat 0x2F,by rw [h8]; decide,by decide⟩
  · rintro ⟨c,hmem,hbyte⟩
    simp only [shortEscapes, List.mem_cons, Prod.mk.injEq, List.not_mem_nil, or_false] at hmem
    rcases hmem with ⟨rfl,rfl⟩ | ⟨rfl,rfl⟩ | ⟨rfl,rfl⟩ | ⟨rfl,rfl⟩ | ⟨rfl,rfl⟩ | ⟨rfl,rfl⟩ |
      ⟨rfl,rfl⟩ | ⟨rfl,rfl⟩
    all_goals
      obtain rfl := (List.cons.inj hbyte).1
      decide

theorem exists_byte_of_mem_shortEscapes {kind : UInt8} {c : Char} (h : (kind,c) ∈ shortEscapes) :
    kind ≠ 0x75 ∧ ∃ byte, String.utf8EncodeChar c = [byte] := by
  simp only [shortEscapes, List.mem_cons, Prod.mk.injEq, List.not_mem_nil, or_false] at h
  rcases h with ⟨rfl,rfl⟩ | ⟨rfl,rfl⟩ | ⟨rfl,rfl⟩ | ⟨rfl,rfl⟩ | ⟨rfl,rfl⟩ | ⟨rfl,rfl⟩ |
    ⟨rfl,rfl⟩ | ⟨rfl,rfl⟩
  all_goals exact ⟨by decide,_,rfl⟩

/-- An escape is read up to its end, and its character is appended. -/
theorem readEscape_eq_ok :
    readEscape out rest = .ok (result,tail) ↔
      ∃ text c, rest = text ++ tail ∧ EscapeText text c ∧
        result = out ++ String.utf8EncodeChar c := by
  constructor
  · intro h
    cases rest with
    | nil => simp [readEscape] at h
    | cons kind rest =>
      rw [readEscape] at h
      split_ifs at h with hunicode
      · subst hunicode
        obtain ⟨text,c,rfl,hescape,rfl⟩ := readUnicodeEscape_eq_ok.mp h
        exact ⟨0x75 :: text,c,rfl,hescape,rfl⟩
      · cases hsimple : simpleEscape kind with
        | none => simp [hsimple] at h
        | some byte =>
          obtain ⟨c,hmem,hbyte⟩ := simpleEscape_eq_some.mp hsimple
          simp only [hsimple, Except.ok.injEq, Prod.mk.injEq] at h
          exact ⟨[kind],c,by rw [h.2]; rfl,.short hmem,by rw [hbyte, h.1]⟩
  · rintro ⟨text,c,rfl,hescape,rfl⟩
    cases hescape with
    | @short kind _ hmem =>
      obtain ⟨hunicode,byte,hbyte⟩ := exists_byte_of_mem_shortEscapes hmem
      have hsimple : simpleEscape kind = some byte := simpleEscape_eq_some.mpr ⟨c,hmem,hbyte⟩
      rw [List.singleton_append, readEscape, if_neg hunicode, hsimple, hbyte]
    | unicode hword =>
      exact readUnicodeEscape_eq_ok.mpr ⟨_,c,rfl,.unicode hword,rfl⟩
    | @surrogates first second _ _ _ hfirst hsecond hhigh hlow hvalue =>
      exact readUnicodeEscape_eq_ok.mpr ⟨first ++ 0x5C :: 0x75 :: second,c,rfl,
        .surrogates hfirst hsecond hhigh hlow hvalue,rfl⟩

end Escapes

/-- What one turn of the reader passes and what it appends. -/
inductive Piece : ByteString → ByteString → Prop
  | raw {byte : UInt8} (hcontrol : 0x20 ≤ byte) (hquote : byte ≠ 0x22) (hescape : byte ≠ 0x5C) :
      Piece [byte] [byte]
  | escaped {text : ByteString} {c : Char} (h : EscapeText text c) :
      Piece (0x5C :: text) (String.utf8EncodeChar c)

inductive Pieces : ByteString → ByteString → Prop
  | nil : Pieces [] []
  | cons {first rest bytes tail : ByteString} (hfirst : Piece first bytes)
      (hrest : Pieces rest tail) : Pieces (first ++ rest) (bytes ++ tail)

section Loop
variable {limits : Limits} {out result rest tail : ByteString} {raw : UInt8}

theorem Piece.exists_head {text bytes : ByteString} (h : Piece text bytes) :
    ∃ raw rest, text = raw :: rest ∧ raw ≠ 0x22 ∧ ¬ raw < 0x20 := by
  cases h with
  | raw hcontrol hquote _ => exact ⟨_,[],rfl,hquote,UInt8.not_lt.mpr hcontrol⟩
  | escaped _ => exact ⟨0x5C,_,rfl,by decide,by decide⟩

theorem passCharacter_eq_ok (hquote : raw ≠ 0x22) (hcontrol : ¬ raw < 0x20) :
    passCharacter out raw rest = .ok (result,tail) ↔
      ∃ text bytes, raw :: rest = text ++ tail ∧ Piece text bytes ∧ result = out ++ bytes := by
  unfold passCharacter
  constructor
  · intro h
    split_ifs at h with hraw
    · simp only [Except.ok.injEq, Prod.mk.injEq] at h
      exact ⟨[raw],[raw],by rw [h.2]; rfl,.raw (UInt8.not_lt.mp hcontrol) hquote hraw,h.1.symm⟩
    · obtain rfl : raw = 0x5C := not_not.mp hraw
      obtain ⟨text,c,rfl,hescape,rfl⟩ := readEscape_eq_ok.mp h
      exact ⟨0x5C :: text,_,rfl,.escaped hescape,rfl⟩
  · rintro ⟨text,bytes,hrest,hpiece,rfl⟩
    cases hpiece with
    | raw _ _ hraw =>
      obtain ⟨rfl,rfl⟩ := List.cons.inj hrest
      exact if_pos hraw
    | @escaped text c hescape =>
      obtain ⟨rfl,rfl⟩ := List.cons.inj hrest
      rw [if_neg (not_not.mpr rfl)]
      exact readEscape_eq_ok.mpr ⟨text,c,rfl,hescape,rfl⟩

theorem stringLoop_cons {fuel : ℕ} (hquote : raw ≠ 0x22) (hcontrol : ¬ raw < 0x20) :
    stringLoop limits (fuel + 1) out (raw :: rest) = .ok (result,tail) ↔
      ∃ text bytes after, raw :: rest = text ++ after ∧ Piece text bytes ∧
        (out ++ bytes).length ≤ limits.maxStringBytes ∧
        stringLoop limits fuel (out ++ bytes) after = .ok (result,tail) := by
  rw [stringLoop, if_neg hquote, if_neg hcontrol, bind_eq_ok]
  constructor
  · rintro ⟨⟨out',after⟩,hpass,h⟩
    obtain ⟨text,bytes,hrest,hpiece,rfl⟩ := (passCharacter_eq_ok hquote hcontrol).mp hpass
    obtain ⟨hbound,h⟩ := require_bind_eq_ok.mp h
    exact ⟨text,bytes,after,hrest,hpiece,of_decide_eq_true hbound,h⟩
  · rintro ⟨text,bytes,after,hrest,hpiece,hbound,h⟩
    exact ⟨(out ++ bytes,after),(passCharacter_eq_ok hquote hcontrol).mpr ⟨text,bytes,hrest,hpiece,rfl⟩,
      require_bind_eq_ok.mpr ⟨decide_eq_true hbound,h⟩⟩

/-- The loop passes pieces up to the first quote that is none of theirs. -/
theorem stringLoop_eq_ok {fuel : ℕ} (hfuel : rest.length < fuel)
    (hout : out.length ≤ limits.maxStringBytes) :
    stringLoop limits fuel out rest = .ok (result,tail) ↔
      ∃ text bytes, rest = text ++ 0x22 :: tail ∧ Pieces text bytes ∧ result = out ++ bytes ∧
        result.length ≤ limits.maxStringBytes ∧ isValidUtf8 result = true := by
  induction fuel generalizing out rest with
  | zero => exact absurd hfuel (Nat.not_lt_zero _)
  | succ fuel ih =>
    constructor
    · intro h
      cases rest with
      | nil => simp [stringLoop] at h
      | cons raw rest =>
        by_cases hquote : raw = 0x22
        · subst hquote
          rw [stringLoop, if_pos rfl] at h
          split_ifs at h with hvalid
          simp only [Except.ok.injEq, Prod.mk.injEq] at h
          obtain ⟨rfl,rfl⟩ := h
          exact ⟨[],[],rfl,.nil,(List.append_nil _).symm,hout,hvalid⟩
        · by_cases hcontrol : raw < 0x20
          · rw [stringLoop, if_neg hquote, if_pos hcontrol] at h
            cases h
          · obtain ⟨first,bytes,after,hrest,hpiece,hbound,hloop⟩ :=
              (stringLoop_cons hquote hcontrol).mp h
            obtain ⟨_,more,rfl,-,-⟩ := hpiece.exists_head
            rw [List.cons_append] at hrest
            obtain ⟨rfl,rfl⟩ := List.cons.inj hrest
            have hshort : after.length < fuel := by
              simp only [List.length_cons, List.length_append] at hfuel
              omega
            obtain ⟨text,tailBytes,rfl,hpieces,rfl,hlength,hvalid⟩ :=
              (ih hshort hbound).mp hloop
            exact ⟨_,bytes ++ tailBytes,by simp,.cons hpiece hpieces,by simp,hlength,hvalid⟩
    · rintro ⟨text,bytes,rfl,hpieces,rfl,hlength,hvalid⟩
      cases hpieces with
      | nil =>
        rw [List.append_nil] at hvalid ⊢
        rw [List.nil_append, stringLoop, if_pos rfl, if_pos hvalid]
      | @cons first text bytes tailBytes hpiece hpieces =>
        obtain ⟨raw,more,rfl,hquote,hcontrol⟩ := hpiece.exists_head
        have hshort : (text ++ 0x22 :: tail).length < fuel := by
          simp only [List.length_cons, List.length_append] at hfuel ⊢
          omega
        have hbound : (out ++ bytes).length ≤ limits.maxStringBytes := by
          simp only [List.length_append] at hlength ⊢
          omega
        refine (stringLoop_cons hquote hcontrol).mpr
          ⟨raw :: more,bytes,text ++ 0x22 :: tail,by simp,hpiece,hbound,?_⟩
        exact (ih hshort hbound).mpr ⟨text,tailBytes,rfl,hpieces,by simp,hlength,hvalid⟩

end Loop

/-! The pieces of a string whose encoding is well formed are its characters. -/
section Characters

theorem Pieces.append {text bytes more tail : ByteString} (h : Pieces text bytes)
    (h' : Pieces more tail) : Pieces (text ++ more) (bytes ++ tail) := by
  induction h with
  | nil => exact h'
  | cons hfirst _ ih =>
    rw [List.append_assoc, List.append_assoc]
    exact .cons hfirst ih

/-- Bytes that stand for themselves. -/
theorem pieces_of_raw {bytes : ByteString} (h : ∀ b ∈ bytes, 0x20 ≤ b ∧ b ≠ 0x22 ∧ b ≠ 0x5C) :
    Pieces bytes bytes := by
  induction bytes with
  | nil => exact .nil
  | cons b bytes ih =>
    obtain ⟨hb,hrest⟩ := List.forall_mem_cons.mp h
    exact Pieces.cons (.raw hb.1 hb.2.1 hb.2.2) (ih hrest)

theorem raw_of_toNat_ge {b : UInt8} (h : 0x80 ≤ b.toNat) : 0x20 ≤ b ∧ b ≠ 0x22 ∧ b ≠ 0x5C := by
  refine ⟨UInt8.le_iff_toNat_le.mpr (by simp only [UInt8.reduceToNat]; omega),?_,?_⟩
  all_goals
    rintro rfl
    simp at h

theorem StringChar.pieces {text : ByteString} {c : Char} (h : StringChar text c) :
    Pieces text (String.utf8EncodeChar c) := by
  cases h with
  | unescaped hcontrol hquote hescape =>
    refine pieces_of_raw (fun b hb => ?_)
    obtain ⟨lead,rest,heq,-,hrest,hlead⟩ := Utf8.exists_lead c
    rw [heq] at hb
    rcases List.mem_cons.mp hb with rfl | hb
    · rcases hlead with ⟨-,-,hvalue⟩ | ⟨hlead,-⟩
      · refine ⟨UInt8.le_iff_toNat_le.mpr (by simp only [UInt8.reduceToNat]; omega),?_,?_⟩
        all_goals
          rintro rfl
          simp at hvalue
          omega
      · exact raw_of_toNat_ge hlead
    · exact raw_of_toNat_ge (hrest b hb).1
  | escaped h =>
    have hpieces := Pieces.cons (.escaped h) .nil
    rwa [List.append_nil, List.append_nil] at hpieces

theorem StringBody.pieces {text : ByteString} {chars : List Char} (h : StringBody text chars) :
    Pieces text (Utf8.encode chars) := by
  induction h with
  | nil => exact .nil
  | cons hfirst _ ih => exact hfirst.pieces.append ih

/-- Bytes that continue a character are none of an escape. -/
theorem Pieces.continued {text rest tail : ByteString} (hrest : ∀ b ∈ rest, Utf8.Continues b)
    (h : Pieces text (rest ++ tail)) : ∃ more, text = rest ++ more ∧ Pieces more tail := by
  induction rest generalizing text with
  | nil => exact ⟨text,rfl,h⟩
  | cons b rest ih =>
    obtain ⟨hb,hrest⟩ := List.forall_mem_cons.mp hrest
    generalize hbytes : b :: rest ++ tail = bytes at h
    cases h with
    | nil => simp at hbytes
    | @cons first more bytes' tail' hpiece hpieces =>
      cases hpiece with
      | raw _ _ _ =>
        obtain ⟨rfl,rfl⟩ := List.cons.inj hbytes
        obtain ⟨more,rfl,hmore⟩ := ih hrest hpieces
        exact ⟨more,rfl,hmore⟩
      | @escaped _ c hescape =>
        obtain ⟨lead,_,heq,hlead,-⟩ := Utf8.exists_lead c
        rw [heq] at hbytes
        obtain ⟨rfl,-⟩ := List.cons.inj hbytes
        exact absurd hb hlead

/-- Pieces that append an encoded text are its characters, one by one. -/
theorem Pieces.stringBody {text : ByteString} {chars : List Char}
    (h : Pieces text (Utf8.encode chars)) : StringBody text chars := by
  induction chars generalizing text with
  | nil =>
    generalize hbytes : Utf8.encode [] = bytes at h
    cases h with
    | nil => exact .nil
    | cons hpiece _ =>
      cases hpiece with
      | raw _ _ _ => simp at hbytes
      | @escaped _ c _ =>
        obtain ⟨lead,_,heq,-⟩ := Utf8.exists_lead c
        simp [heq] at hbytes
  | cons c chars ih =>
    generalize hbytes : Utf8.encode (c :: chars) = bytes at h
    cases h with
    | nil =>
      obtain ⟨lead,_,heq,-⟩ := Utf8.exists_lead c
      simp [heq] at hbytes
    | @cons first more bytes' tail' hpiece hpieces =>
      cases hpiece with
      | @raw byte hcontrol hquote hescape =>
        obtain ⟨lead,rest,heq,-,hrest,hlead⟩ := Utf8.exists_lead c
        rw [Utf8.encode_cons, heq] at hbytes
        obtain ⟨rfl,rfl⟩ := List.cons.inj hbytes
        obtain ⟨more,rfl,hmore⟩ := hpieces.continued hrest
        have hchar : StringChar (String.utf8EncodeChar c) c := by
          simp only [UInt8.le_iff_toNat_le, UInt8.reduceToNat] at hcontrol
          simp only [ne_eq, ← UInt8.toNat_inj, UInt8.reduceToNat] at hquote hescape
          rcases hlead with ⟨-,-,hvalue⟩ | ⟨-,hvalue⟩
          · exact .unescaped (hvalue ▸ hcontrol) (hvalue ▸ hquote) (hvalue ▸ hescape)
          · exact .unescaped (by omega) (by omega) (by omega)
        rw [heq] at hchar
        have hbody := StringBody.cons hchar (ih hmore)
        exact hbody
      | @escaped _ d hescape =>
        obtain ⟨rfl,rfl⟩ := Utf8.encodeChar_append_inj hbytes
        exact .cons (.escaped hescape) (ih hpieces)

end Characters

theorem isValidUtf8_pieces_iff {text bytes : ByteString} :
    Pieces text bytes ∧ isValidUtf8 bytes = true ↔
      ∃ chars, StringBody text chars ∧ bytes = Utf8.encode chars := by
  constructor
  · rintro ⟨hpieces,hvalid⟩
    obtain ⟨chars,rfl⟩ := (isValidUtf8_iff bytes).mp hvalid
    exact ⟨chars,hpieces.stringBody,rfl⟩
  · rintro ⟨chars,hbody,rfl⟩
    exact ⟨hbody.pieces,(isValidUtf8_iff _).mpr ⟨chars,rfl⟩⟩

/-- A string is read exactly when the text opens with one within the bound, and
up to its closing quote. -/
theorem parseString_eq_ok {limits : Limits} {rest result tail : ByteString} :
    parseString limits (0x22 :: rest) = .ok (result,tail) ↔
      ∃ text chars, 0x22 :: rest = text ++ tail ∧ StringText text chars ∧
        result = Utf8.encode chars ∧ result.length ≤ limits.maxStringBytes := by
  have hfuel : rest.length < (0x22 :: rest).length := Nat.lt_succ_self _
  have hloop := @stringLoop_eq_ok limits [] result rest tail _ hfuel (Nat.zero_le _)
  rw [parseString, List.drop_succ_cons, List.drop_zero, hloop]
  constructor
  · rintro ⟨text,bytes,rfl,hpieces,rfl,hlength,hvalid⟩
    obtain ⟨chars,hbody,hchars⟩ := isValidUtf8_pieces_iff.mp ⟨hpieces,hvalid⟩
    exact ⟨0x22 :: text ++ [0x22],chars,by simp,.intro hbody,hchars,hlength⟩
  · rintro ⟨text,chars,htext,⟨hbody⟩,rfl,hlength⟩
    rename_i body
    obtain ⟨hpieces,hvalid⟩ := isValidUtf8_pieces_iff.mpr ⟨chars,hbody,rfl⟩
    refine ⟨body,_,?_,hpieces,rfl,hlength,hvalid⟩
    simpa using htext

end PathObservatory.Json
