import Mathlib.Data.List.TakeWhile
import PathObservatory.Json.Grammar
import PathObservatory.Json.Parser

/-! # Numbers are read exactly

A number has no closing byte: the reader passes the longest one, so a number of
the grammar is read back whole where the text after it could not go on with it.
-/
namespace PathObservatory.Json
variable {rest tail text : ByteString} {error : Error}

theorem isDigit_iff {c : UInt8} : isDigit c = true ↔ Digit c := by
  simp [isDigit, Digit]

@[simp] theorem peek_cons {c : UInt8} : peek (c :: rest) = c := rfl

@[simp] theorem peek_nil : peek [] = 0 := rfl

instance (c : UInt8) : Decidable (Digit c) := inferInstanceAs (Decidable (_ ∧ _))

/-- The text does not go on with a number that stands before it. -/
structure EndsNumber (rest : ByteString) : Prop where
  digit : isDigit (peek rest) = false
  point : peek rest ≠ 0x2E
  exponent : ¬ (peek rest = 0x65 ∨ peek rest = 0x45)

theorem skipDigits_append (hdigits : ∀ c ∈ text, Digit c) (hrest : isDigit (peek rest) = false) :
    skipDigits (text ++ rest) = rest := by
  induction text with
  | nil =>
    cases rest with
    | nil => rfl
    | cons c rest => exact List.dropWhile_cons_of_neg (by simpa using hrest)
  | cons c text ih =>
    obtain ⟨hc,htext⟩ := List.forall_mem_cons.mp hdigits
    exact (List.dropWhile_cons_of_pos (isDigit_iff.mpr hc)).trans (ih htext)

theorem Digits.exists_cons (h : Digits text) :
    ∃ c more, text = c :: more ∧ Digit c ∧ ∀ d ∈ more, Digit d := by
  obtain ⟨hne,hall⟩ := h
  obtain ⟨c,more,rfl⟩ := List.exists_cons_of_ne_nil hne
  exact ⟨c,more,rfl,List.forall_mem_cons.mp hall⟩

theorem passDigits_sound (h : passDigits error rest = .ok tail) :
    ∃ digits, rest = digits ++ tail ∧ Digits digits ∧ digits.head? = some (peek rest) := by
  unfold passDigits at h
  split_ifs at h with hdigit
  obtain rfl := Except.ok.inj h
  cases rest with
  | nil => cases hdigit
  | cons c rest =>
    have htake : (c :: rest).takeWhile isDigit = c :: rest.takeWhile isDigit :=
      List.takeWhile_cons_of_pos hdigit
    refine ⟨(c :: rest).takeWhile isDigit,List.takeWhile_append_dropWhile.symm,⟨?_,?_⟩,?_⟩
    · rw [htake]
      exact List.cons_ne_nil _ _
    · intro d hd
      exact isDigit_iff.mp (List.mem_takeWhile_imp hd)
    · rw [htake]
      rfl

theorem passDigits_complete (h : Digits text) (hrest : isDigit (peek rest) = false) :
    passDigits error (text ++ rest) = .ok rest := by
  obtain ⟨c,more,rfl,hc,-⟩ := h.exists_cons
  rw [passDigits, List.cons_append, peek_cons, if_pos (isDigit_iff.mpr hc), ← List.cons_append,
    skipDigits_append h.2 hrest]

theorem passSign_sound (h : passSign rest = .ok tail) :
    ∃ minus, rest = minus ++ tail ∧ Minus minus := by
  unfold passSign at h
  split_ifs at h with hminus hdigit
  · obtain rfl := Except.ok.inj h
    cases rest with
    | nil => cases hminus
    | cons c rest =>
      obtain rfl : c = 0x2D := hminus
      exact ⟨[0x2D],rfl,Or.inr rfl⟩
  · obtain rfl := Except.ok.inj h
    exact ⟨[],rfl,Or.inl rfl⟩

theorem passInteger_sound (h : passInteger rest = .ok tail) :
    ∃ integer, rest = integer ++ tail ∧ IntegerPart integer := by
  unfold passInteger at h
  split_ifs at h with hzero hdigit
  · obtain rfl := Except.ok.inj h
    cases rest with
    | nil => cases hzero
    | cons c rest =>
      obtain rfl : c = 0x30 := hzero
      exact ⟨[0x30],rfl,Or.inl rfl⟩
  · obtain ⟨digits,hrest,hdigits,hhead⟩ := passDigits_sound h
    refine ⟨digits,hrest,Or.inr ⟨hdigits,?_⟩⟩
    rw [hhead]
    exact fun hsome => hzero (Option.some.inj hsome)

theorem passFraction_sound (h : passFraction rest = .ok tail) :
    ∃ fraction, rest = fraction ++ tail ∧ FractionPart fraction := by
  unfold passFraction at h
  split_ifs at h with hpoint
  · cases rest with
    | nil => cases hpoint
    | cons c rest =>
      obtain rfl : c = 0x2E := hpoint
      obtain ⟨digits,hrest,hdigits,-⟩ := passDigits_sound h
      rw [List.drop_succ_cons, List.drop_zero] at hrest
      exact ⟨0x2E :: digits,by rw [hrest]; rfl,Or.inr ⟨digits,hdigits,rfl⟩⟩
  · obtain rfl := Except.ok.inj h
    exact ⟨[],rfl,Or.inl rfl⟩

theorem exists_sign (rest : ByteString) : ∃ sign, ExponentSign sign ∧
    rest = sign ++ if peek rest = 0x2B ∨ peek rest = 0x2D then rest.drop 1 else rest := by
  split_ifs with hsign
  · cases rest with
    | nil => rcases hsign with h | h <;> cases h
    | cons c rest =>
      rcases hsign with h | h
      · obtain rfl : c = 0x2B := h
        exact ⟨[0x2B],Or.inr (Or.inl rfl),rfl⟩
      · obtain rfl : c = 0x2D := h
        exact ⟨[0x2D],Or.inr (Or.inr rfl),rfl⟩
  · exact ⟨[],Or.inl rfl,rfl⟩

theorem passExponent_sound (h : passExponent rest = .ok tail) :
    ∃ exponent, rest = exponent ++ tail ∧ ExponentPart exponent := by
  unfold passExponent at h
  split_ifs at h with he
  · cases rest with
    | nil => rcases he with h' | h' <;> cases h'
    | cons e rest =>
      dsimp only at h
      rw [List.drop_succ_cons, List.drop_zero] at h
      obtain ⟨digits,hrest,hdigits,-⟩ := passDigits_sound h
      obtain ⟨sign,hsign,hsplit⟩ := exists_sign rest
      rw [hrest] at hsplit
      exact ⟨e :: sign ++ digits,by rw [hsplit]; simp,Or.inr ⟨e,sign,digits,he,hsign,hdigits,rfl⟩⟩
  · obtain rfl := Except.ok.inj h
    exact ⟨[],rfl,Or.inl rfl⟩

theorem take_lexeme (text rest : ByteString) :
    (text ++ rest).take ((text ++ rest).length - rest.length) = text := by
  rw [List.length_append, Nat.add_sub_cancel]
  exact List.take_left

/-- What is read is a number and its lexeme. -/
theorem parseNumber_sound (h : parseNumber rest = .ok (text,tail)) :
    rest = text ++ tail ∧ NumberText text := by
  obtain ⟨afterSign,hsign,h⟩ := bind_eq_ok.mp h
  obtain ⟨afterInteger,hinteger,h⟩ := bind_eq_ok.mp h
  obtain ⟨afterFraction,hfraction,h⟩ := bind_eq_ok.mp h
  obtain ⟨afterExponent,hexponent,h⟩ := bind_eq_ok.mp h
  obtain ⟨minus,rfl,hminus⟩ := passSign_sound hsign
  obtain ⟨integer,rfl,hinteger'⟩ := passInteger_sound hinteger
  obtain ⟨fraction,rfl,hfraction'⟩ := passFraction_sound hfraction
  obtain ⟨exponent,rfl,hexponent'⟩ := passExponent_sound hexponent
  have hresult := pure_eq_ok.mp h
  have hwhole : minus ++ (integer ++ (fraction ++ (exponent ++ afterExponent))) =
      minus ++ integer ++ fraction ++ exponent ++ afterExponent := by simp
  rw [hwhole, take_lexeme, Prod.mk.injEq] at hresult
  obtain ⟨rfl,rfl⟩ := hresult
  exact ⟨hwhole,.intro hminus hinteger' hfraction' hexponent'⟩

section Completeness
variable {minus integer fraction exponent : ByteString}

theorem IntegerPart.exists_cons (h : IntegerPart integer) :
    ∃ c more, integer = c :: more ∧ Digit c := by
  rcases h with rfl | ⟨hdigits,-⟩
  · exact ⟨0x30,[],rfl,by decide,by decide⟩
  · obtain ⟨c,more,rfl,hc,-⟩ := hdigits.exists_cons
    exact ⟨c,more,rfl,hc⟩

theorem Digit.ne {c d : UInt8} (h : Digit c) (hd : ¬ Digit d) : c ≠ d := fun heq => hd (heq ▸ h)

theorem passSign_complete (h : Minus minus) (hinteger : isDigit (peek rest) = true) :
    passSign (minus ++ rest) = .ok rest := by
  rcases h with rfl | rfl
  · have hminus : peek rest ≠ 0x2D := (isDigit_iff.mp hinteger).ne (by decide)
    exact if_neg hminus
  · rw [passSign, List.singleton_append, peek_cons, if_pos rfl, List.drop_succ_cons,
      List.drop_zero, if_pos hinteger]

theorem passInteger_complete (h : IntegerPart integer) (hrest : isDigit (peek rest) = false) :
    passInteger (integer ++ rest) = .ok rest := by
  rcases h with rfl | ⟨hdigits,hhead⟩
  · rw [passInteger, List.singleton_append, peek_cons, if_pos rfl, List.drop_succ_cons,
      List.drop_zero, if_neg (by simp [hrest])]
  · obtain ⟨c,more,rfl,-⟩ := hdigits.exists_cons
    have hzero : ¬ peek (c :: more ++ rest) = 0x30 := fun heq => hhead (congrArg some heq)
    rw [passInteger, if_neg hzero, passDigits_complete hdigits hrest]

theorem passFraction_complete (h : FractionPart fraction) (hdigit : isDigit (peek rest) = false)
    (hpoint : peek rest ≠ 0x2E) : passFraction (fraction ++ rest) = .ok rest := by
  rcases h with rfl | ⟨digits,hdigits,rfl⟩
  · exact if_neg hpoint
  · rw [passFraction, List.cons_append, peek_cons, if_pos rfl, List.drop_succ_cons, List.drop_zero,
      passDigits_complete hdigits hdigit]

theorem passExponent_complete (h : ExponentPart exponent) (hrest : EndsNumber rest) :
    passExponent (exponent ++ rest) = .ok rest := by
  rcases h with rfl | ⟨e,sign,digits,he,hsign,hdigits,rfl⟩
  · exact if_neg hrest.exponent
  · have hdigitsRest : (if peek (sign ++ (digits ++ rest)) = 0x2B ∨
        peek (sign ++ (digits ++ rest)) = 0x2D then (sign ++ (digits ++ rest)).drop 1
        else sign ++ (digits ++ rest)) = digits ++ rest := by
      rcases hsign with rfl | rfl | rfl
      · obtain ⟨c,more,rfl,hc,-⟩ := hdigits.exists_cons
        refine if_neg ?_
        rintro (heq | heq)
        · exact hc.ne (by decide) heq
        · exact hc.ne (by decide) heq
      · exact if_pos (Or.inl rfl)
      · exact if_pos (Or.inr rfl)
    rw [passExponent, List.cons_append, List.cons_append, peek_cons, if_pos he,
      List.drop_succ_cons, List.drop_zero, List.append_assoc]
    dsimp only
    rw [hdigitsRest, passDigits_complete hdigits hrest.digit]

theorem ExponentPart.follows (h : ExponentPart exponent) (hrest : EndsNumber rest) :
    isDigit (peek (exponent ++ rest)) = false ∧ peek (exponent ++ rest) ≠ 0x2E := by
  rcases h with rfl | ⟨e,sign,digits,he,-,-,rfl⟩
  · exact ⟨hrest.digit,hrest.point⟩
  · rw [List.cons_append, List.cons_append, peek_cons]
    rcases he with rfl | rfl
    · exact ⟨rfl,by decide⟩
    · exact ⟨rfl,by decide⟩

theorem FractionPart.follows (h : FractionPart fraction) (hrest : isDigit (peek rest) = false) :
    isDigit (peek (fraction ++ rest)) = false := by
  rcases h with rfl | ⟨digits,-,rfl⟩
  · exact hrest
  · rfl

/-- A number is read whole when the text after it does not go on with it. -/
theorem parseNumber_complete (h : NumberText text) (hrest : EndsNumber rest) :
    parseNumber (text ++ rest) = .ok (text,rest) := by
  obtain ⟨hminus,hinteger,hfraction,hexponent⟩ := h
  rename_i minus integer fraction exponent
  obtain ⟨hdigit,hpoint⟩ := hexponent.follows hrest
  have hfollow := hfraction.follows hdigit
  obtain ⟨c,more,hcons,hc⟩ := hinteger.exists_cons
  have hfirst : isDigit (peek (integer ++ (fraction ++ (exponent ++ rest)))) = true := by
    rw [hcons]
    exact isDigit_iff.mpr hc
  have hwhole : minus ++ integer ++ fraction ++ exponent ++ rest =
      minus ++ (integer ++ (fraction ++ (exponent ++ rest))) := by simp
  refine bind_eq_ok.mpr ⟨_,hwhole ▸ passSign_complete hminus hfirst,?_⟩
  refine bind_eq_ok.mpr ⟨_,passInteger_complete hinteger hfollow,?_⟩
  refine bind_eq_ok.mpr ⟨_,passFraction_complete hfraction hdigit hpoint,?_⟩
  refine bind_eq_ok.mpr ⟨_,passExponent_complete hexponent hrest,?_⟩
  rw [take_lexeme]
  rfl

end Completeness

theorem NumberText.exists_head (h : NumberText text) :
    ∃ c more, text = c :: more ∧ (c = 0x2D ∨ isDigit c = true) := by
  obtain ⟨hminus,hinteger,-,-⟩ := h
  obtain ⟨c,more,rfl,hc⟩ := hinteger.exists_cons
  rcases hminus with rfl | rfl
  · exact ⟨c,_,rfl,Or.inr (isDigit_iff.mpr hc)⟩
  · exact ⟨0x2D,_,rfl,Or.inl rfl⟩

end PathObservatory.Json
