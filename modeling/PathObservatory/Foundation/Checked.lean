import Mathlib.Algebra.Order.Ring.Abs
import PathObservatory.Foundation.Error
import PathObservatory.Library.IntegralTypes

/-! # Checked arithmetic

Sums, differences, products and conversions of integral types of any width, with an
error where the result is refused. Every expression of a check is evaluated in the
promoted type of its operands, and none of them is undefined.
-/
namespace PathObservatory
open IntegralType

section Operations
variable {α : Type} (intWidth : ℕ) {t source : IntegralType}

/-- `&&`: the second operand is evaluated where the first one holds. -/
def both (first : Bool) (second : Option Bool) : Option Bool :=
  if first then second else some false

/-- Return an error where the condition holds. -/
def refuseIf (condition : Option Bool) (message : String) (rest : Option (Result α)) :
    Option (Result α) :=
  condition.bind fun refused =>
    if refused then some (.error { code := .outOfRange, message }) else rest

@[simp] theorem refuseIf_false (message : String) (rest : Option (Result α)) :
    refuseIf (some false) message rest = rest := rfl

@[simp] theorem refuseIf_true (message : String) (rest : Option (Result α)) :
    refuseIf (some true) message rest = some (.error { code := .outOfRange, message }) := rfl

def checkedAdd (a b : t.Value) : Option (Result t.Value) :=
  if t.isSigned then
    refuseIf (both (0 < b.val)
        ((t.evaluate intWidth (t.max - b.val)).map fun room => room.val < a.val))
      "signed addition overflow" <|
    refuseIf (both (b.val < 0)
        ((t.evaluate intWidth (t.min - b.val)).map fun room => a.val < room.val))
      "signed addition underflow" <|
    (t.evaluate intWidth (a.val + b.val)).map .ok
  else
    refuseIf ((t.evaluate intWidth (t.max - a.val)).map fun room => room.val < b.val)
      "unsigned addition overflow" <|
    (t.evaluate intWidth (a.val + b.val)).map .ok

def checkedSub (a b : t.Value) : Option (Result t.Value) :=
  if t.isSigned then
    refuseIf (both (b.val < 0)
        ((t.evaluate intWidth (t.max + b.val)).map fun room => room.val < a.val))
      "signed subtraction overflow" <|
    refuseIf (both (0 < b.val)
        ((t.evaluate intWidth (t.min + b.val)).map fun room => a.val < room.val))
      "signed subtraction underflow" <|
    (t.evaluate intWidth (a.val - b.val)).map .ok
  else
    refuseIf (some (a.val < b.val)) "unsigned subtraction underflow" <|
    (t.evaluate intWidth (a.val - b.val)).map .ok

/-- `max() / b`, which a divisor of 0 makes undefined. -/
def largestOver (b : t.Value) : Option t.Value :=
  if b.val = 0 then none else t.evaluate intWidth (t.max.tdiv b.val)

def absolute (a : t.Value) : Option t.Value :=
  if a.val < 0 then t.evaluate intWidth (-a.val) else some a

def checkedMul (a b : t.Value) : Option (Result t.Value) :=
  if a.val = 0 ∨ b.val = 0 then some (.ok (t.convert 0))
  else if t.isSigned then
    refuseIf (some (a.val = t.min ∨ b.val = t.min)) "signed multiplication overflow" <|
    (absolute intWidth a).bind fun absA =>
    (absolute intWidth b).bind fun absB =>
    refuseIf ((largestOver intWidth absB).map fun limit => limit.val < absA.val)
      "signed multiplication overflow" <|
    (t.evaluate intWidth (absA.val * absB.val)).bind fun magnitude =>
    if decide (a.val < 0) != decide (b.val < 0) then
      (t.evaluate intWidth (-magnitude.val)).map .ok
    else some (.ok magnitude)
  else
    refuseIf ((largestOver intWidth b).map fun limit => limit.val < a.val)
      "unsigned multiplication overflow" <|
    (t.evaluate intWidth (a.val * b.val)).map .ok

/-- Convert between integral types, failing when the value does not fit. -/
def checkedCast (target : IntegralType) (value : source.Value) : Option (Result target.Value) :=
  let common := commonType intWidth target source
  let wide := common.convert value.val
  refuseIf (some (source.isSigned ∧ ¬ target.isSigned ∧ value.val < 0))
    "negative value cannot convert to unsigned" <|
  refuseIf (some ((common.convert target.max).val < wide.val)) "value exceeds destination range" <|
  refuseIf (some (target.isSigned ∧ wide.val < (common.convert target.min).val))
    "value below destination range" <|
  some (.ok (target.convert value.val))

end Operations

/-- The answer is defined. It is a value exactly where the integer is one of the type,
and the value is that integer. -/
structure Exact {t : IntegralType} (answer : Option (Result t.Value)) (z : ℤ) : Prop where
  defined : answer ≠ none
  returns : (∃ v, answer = some (.ok v)) ↔ t.Represents z
  value : ∀ v, answer = some (.ok v) → v.val = z

section Exactness
variable {intWidth : ℕ} {t source : IntegralType} {answer rest : Option (Result t.Value)} {z : ℤ}
  {message : String} {error : Error}

theorem exact_ok (h : t.Represents z) : Exact (some (.ok (⟨z,h⟩ : t.Value))) z := by
  refine ⟨nofun,iff_of_true ⟨_,rfl⟩ h,fun v hv => ?_⟩
  cases hv
  rfl

theorem exact_error_iff : Exact (some (.error error) : Option (Result t.Value)) z ↔
    ¬ t.Represents z := by
  constructor
  · intro h hz
    obtain ⟨v,hv⟩ := h.returns.mpr hz
    cases hv
  · intro h
    refine ⟨nofun,iff_of_false ?_ h,nofun⟩
    rintro ⟨v,hv⟩
    cases hv

theorem exact_evaluate (h : t.Represents z) :
    Exact ((t.evaluate intWidth z).map (.ok : t.Value → Result t.Value)) z := by
  rw [evaluate_of_represents intWidth h]
  exact exact_ok h

/-- A refusal is exact where what is refused is no value. -/
theorem exact_refuseIf {p : Prop} [Decidable p] (h : p → ¬ t.Represents z)
    (hrest : ¬ p → Exact rest z) : Exact (refuseIf (some (decide p)) message rest) z := by
  by_cases hp : p
  · rw [decide_eq_true hp]
    exact exact_error_iff.mpr (h hp)
  · rw [decide_eq_false hp]
    exact hrest hp

theorem compare_evaluate {q : ℤ → Prop} [DecidablePred q] {room : ℤ} (h : t.Represents room) :
    ((t.evaluate intWidth room).map fun v => decide (q v.val)) = some (decide (q room)) := by
  rw [evaluate_of_represents intWidth h, Option.map_some]

/-- The condition compares with an expression, which is evaluated where it is a value. -/
theorem exact_guard {p : Prop} [Decidable p] {q : ℤ → Prop} [DecidablePred q] {room : ℤ}
    (hroom : p → t.Represents room) (h : p → q room → ¬ t.Represents z)
    (hrest : ¬ (p ∧ q room) → Exact rest z) :
    Exact (refuseIf (both (decide p) ((t.evaluate intWidth room).map fun v => decide (q v.val)))
      message rest) z := by
  have hboth : both (decide p) ((t.evaluate intWidth room).map fun v => decide (q v.val)) =
      some (decide (p ∧ q room)) := by
    by_cases hp : p
    · simp only [both, hp, decide_true, if_true, compare_evaluate (hroom hp), true_and]
    · simp only [both, hp, decide_false, Bool.false_eq_true, if_false, false_and]
  rw [hboth]
  exact exact_refuseIf (fun hpq => h hpq.1 hpq.2) hrest

theorem checkedAdd_exact (a b : t.Value) : Exact (checkedAdd intWidth a b) (a.val + b.val) := by
  obtain ⟨halow,hahigh⟩ := a.property
  obtain ⟨hblow,hbhigh⟩ := b.property
  have hmin := t.min_nonpos
  have hmax := t.max_nonneg
  unfold checkedAdd
  split_ifs with hsigned
  · refine exact_guard (q := fun room => room < a.val) (fun hpos => ⟨by omega,by omega⟩)
      (fun _ hover hfits => ?_) fun hover => ?_
    · have hhigh := hfits.2
      omega
    refine exact_guard (q := fun room => a.val < room) (fun hneg => ⟨by omega,by omega⟩)
      (fun _ hunder hfits => ?_) fun hunder => exact_evaluate ⟨by omega,by omega⟩
    have hlow := hfits.1
    omega
  · have hzero := min_of_unsigned (Bool.eq_false_iff.mpr hsigned)
    rw [compare_evaluate (q := fun room => room < b.val) ⟨by omega,by omega⟩]
    refine exact_refuseIf (fun hover hfits => ?_) fun hover => exact_evaluate ⟨by omega,by omega⟩
    have hhigh := hfits.2
    omega

theorem checkedSub_exact (a b : t.Value) : Exact (checkedSub intWidth a b) (a.val - b.val) := by
  obtain ⟨halow,hahigh⟩ := a.property
  obtain ⟨hblow,hbhigh⟩ := b.property
  have hmin := t.min_nonpos
  have hmax := t.max_nonneg
  unfold checkedSub
  split_ifs with hsigned
  · refine exact_guard (q := fun room => room < a.val) (fun hneg => ⟨by omega,by omega⟩)
      (fun _ hover hfits => ?_) fun hover => ?_
    · have hhigh := hfits.2
      omega
    refine exact_guard (q := fun room => a.val < room) (fun hpos => ⟨by omega,by omega⟩)
      (fun _ hunder hfits => ?_) fun hunder => exact_evaluate ⟨by omega,by omega⟩
    have hlow := hfits.1
    omega
  · have hzero := min_of_unsigned (Bool.eq_false_iff.mpr hsigned)
    refine exact_refuseIf (fun hunder hfits => ?_) fun hunder => exact_evaluate ⟨by omega,by omega⟩
    have hlow := hfits.1
    omega

section Products

theorem compare_largestOver {b : t.Value} (hb : 0 < b.val) (x : ℤ) :
    ((largestOver intWidth b).map fun limit => decide (limit.val < x)) =
      some (decide (t.max < x * b.val)) := by
  have hmax := t.max_nonneg
  have hlimit : t.Represents (t.max / b.val) :=
    ⟨t.min_nonpos.trans (Int.ediv_nonneg hmax hb.le),Int.ediv_le_self _ hmax⟩
  rw [largestOver, if_neg hb.ne', Int.tdiv_eq_ediv_of_nonneg hmax,
    compare_evaluate (q := fun limit => limit < x) hlimit]
  simp only [Int.ediv_lt_iff_lt_mul hb]

/-- Only the least value has no absolute value. -/
theorem exists_absolute (intWidth : ℕ) {a : t.Value} (hsigned : t.isSigned = true)
    (ha : a.val ≠ t.min) : ∃ v, absolute intWidth a = some v ∧ v.val = |a.val| := by
  have hmin := min_of_signed hsigned
  obtain ⟨halow,hahigh⟩ := a.property
  unfold absolute
  split_ifs with hneg
  · have hopposite : t.Represents (-a.val) := ⟨by omega,by omega⟩
    exact ⟨_,evaluate_of_represents intWidth hopposite,(abs_of_neg hneg).symm⟩
  · exact ⟨a,rfl,(abs_of_nonneg (not_lt.mp hneg)).symm⟩

/-- The sign of a product by the signs of its factors. -/
theorem mul_eq_signed (x y : ℤ) :
    (if decide (x < 0) != decide (y < 0) then -(|x| * |y|) else |x| * |y|) = x * y := by
  rcases lt_or_ge x 0 with hx | hx
  · rcases lt_or_ge y 0 with hy | hy
    · simp only [hx, hy, abs_of_neg, decide_true, bne_self_eq_false, Bool.false_eq_true, if_false,
        neg_mul_neg]
    · simp [hx, hy, hy.not_gt, abs_of_neg, abs_of_nonneg]
  · rcases lt_or_ge y 0 with hy | hy
    · simp [hx, hy, hx.not_gt, abs_of_neg, abs_of_nonneg]
    · simp [hx, hy, hx.not_gt, hy.not_gt, abs_of_nonneg]

theorem checkedMul_of_zero {a b : t.Value} (h : a.val = 0 ∨ b.val = 0) :
    Exact (checkedMul intWidth a b) (a.val * b.val) := by
  rw [checkedMul, if_pos h, mul_eq_zero.mpr h, convert_of_represents t.represents_zero]
  exact exact_ok t.represents_zero

theorem checkedMul_unsigned (hunsigned : t.isSigned = false) (a b : t.Value) :
    Exact (checkedMul intWidth a b) (a.val * b.val) := by
  by_cases hzero : a.val = 0 ∨ b.val = 0
  · exact checkedMul_of_zero hzero
  · have hmin := min_of_unsigned hunsigned
    have ha := a.property.1
    have hb := b.property.1
    have hpos : 0 < b.val := by omega
    have hproduct : 0 ≤ a.val * b.val := mul_nonneg (by omega) hpos.le
    rw [checkedMul, if_neg hzero, if_neg (Bool.eq_false_iff.mp hunsigned), compare_largestOver hpos]
    refine exact_refuseIf (fun hover hfits => ?_) fun hover => exact_evaluate ⟨by omega,by omega⟩
    have hhigh := hfits.2
    omega

/-- The least value times another one than 0 has no absolute value. -/
theorem max_lt_of_least {a b : t.Value} (hsigned : t.isSigned = true) (hb : b.val ≠ 0)
    (ha : a.val = t.min) : t.max < |a.val * b.val| := by
  have hmin := min_of_signed hsigned
  have habs : |a.val| = t.max + 1 := by
    rw [ha, abs_of_nonpos t.min_nonpos]
    omega
  have hone : 1 ≤ |b.val| := Int.one_le_abs hb
  have hgrow : |a.val| ≤ |a.val| * |b.val| := le_mul_of_one_le_right (abs_nonneg _) hone
  rw [abs_mul]
  omega

/-- The magnitude gets the sign of the product. -/
theorem exact_magnitude {a b : t.Value} (hsigned : t.isSigned = true)
    (h : |a.val| * |b.val| ≤ t.max) :
    Exact ((t.evaluate intWidth (|a.val| * |b.val|)).bind fun magnitude =>
      if decide (a.val < 0) != decide (b.val < 0) then
        (t.evaluate intWidth (-magnitude.val)).map (.ok : t.Value → Result t.Value)
      else some (.ok magnitude)) (a.val * b.val) := by
  have hmin := min_of_signed hsigned
  have hproduct : 0 ≤ |a.val| * |b.val| := mul_nonneg (abs_nonneg _) (abs_nonneg _)
  have hmagnitude : t.Represents (|a.val| * |b.val|) := ⟨by omega,h⟩
  rw [evaluate_of_represents intWidth hmagnitude, Option.bind_some, ← mul_eq_signed a.val b.val]
  dsimp only
  split_ifs
  · exact exact_evaluate ⟨by omega,by omega⟩
  · exact exact_ok hmagnitude

/-- The product of two values of a signed type is returned where its absolute value is
one of the type, and is refused elsewhere. -/
theorem checkedMul_signed (hsigned : t.isSigned = true) (a b : t.Value) :
    if |a.val * b.val| ≤ t.max then Exact (checkedMul intWidth a b) (a.val * b.val)
    else ∃ error, checkedMul intWidth a b = some (.error error) := by
  by_cases hzero : a.val = 0 ∨ b.val = 0
  · rw [mul_eq_zero.mpr hzero, abs_zero, if_pos t.max_nonneg, ← mul_eq_zero.mpr hzero]
    exact checkedMul_of_zero hzero
  have hb : 0 < |b.val| := abs_pos.mpr fun hb => hzero (.inr hb)
  rw [checkedMul, if_neg hzero, if_pos hsigned]
  by_cases hleast : a.val = t.min ∨ b.val = t.min
  · have hbeyond : t.max < |a.val * b.val| := by
      rcases hleast with ha | hb
      · exact max_lt_of_least hsigned (fun hb => hzero (.inr hb)) ha
      · rw [mul_comm]
        exact max_lt_of_least hsigned (fun ha => hzero (.inl ha)) hb
    rw [if_neg hbeyond.not_ge, decide_eq_true hleast, refuseIf_true]
    exact ⟨_,rfl⟩
  · obtain ⟨absA,habsA,hA⟩ := exists_absolute intWidth hsigned fun ha => hleast (.inl ha)
    obtain ⟨absB,habsB,hB⟩ := exists_absolute intWidth hsigned fun hb => hleast (.inr hb)
    rw [decide_eq_false hleast, refuseIf_false, habsA, Option.bind_some, habsB, Option.bind_some,
      compare_largestOver (hB ▸ hb), hA, hB, abs_mul]
    by_cases hfits : |a.val| * |b.val| ≤ t.max
    · rw [if_pos hfits, decide_eq_false hfits.not_gt, refuseIf_false]
      exact exact_magnitude hsigned hfits
    · rw [if_neg hfits, decide_eq_true (not_le.mp hfits), refuseIf_true]
      exact ⟨_,rfl⟩

/-- A product is exact but where it is the least value of a signed type. -/
theorem checkedMul_exact_iff (a b : t.Value) :
    Exact (checkedMul intWidth a b) (a.val * b.val) ↔
      ¬ (t.isSigned = true ∧ a.val * b.val = t.min) := by
  by_cases hsigned : t.isSigned = true
  · have hspec := @checkedMul_signed intWidth t hsigned a b
    have hmin := min_of_signed hsigned
    have hmax := t.max_nonneg
    split_ifs at hspec with hfits
    · refine iff_of_true hspec fun hleast => ?_
      have hlow := (abs_le.mp hfits).1
      omega
    · obtain ⟨error,herror⟩ := hspec
      have hfits : a.val * b.val < -t.max ∨ t.max < a.val * b.val := by
        by_contra hnot
        exact hfits (abs_le.mpr (by omega))
      rw [herror, exact_error_iff, Represents]
      simp only [hsigned, true_and]
      omega
  · exact iff_of_true (checkedMul_unsigned (Bool.eq_false_iff.mpr hsigned) a b)
      fun h => hsigned h.1

end Products

section Casts

/-- A conversion is exact where the common type has the bounds that are compared, and
the values that are not refused at once. -/
theorem checkedCast_exact {target : IntegralType} {value : source.Value}
    (hmax : (commonType intWidth target source).Represents target.max)
    (hmin : target.isSigned = true → (commonType intWidth target source).Represents target.min)
    (hvalue : target.isSigned = true ∨ 0 ≤ value.val →
      (commonType intWidth target source).Represents value.val) :
    Exact (checkedCast intWidth target value) value.val := by
  unfold checkedCast
  dsimp only
  refine exact_refuseIf ?_ fun hnonneg => ?_
  · rintro ⟨-,hunsigned,hneg⟩ hfits
    rw [Represents, min_of_unsigned (Bool.eq_false_iff.mpr hunsigned)] at hfits
    exact absurd hfits.1 (not_le.mpr hneg)
  have hsource : target.isSigned = true ∨ 0 ≤ value.val := by
    by_cases htarget : target.isSigned = true
    · exact .inl htarget
    · refine .inr (not_lt.mp fun hneg => ?_)
      by_cases hsigned : source.isSigned = true
      · exact hnonneg ⟨hsigned,htarget,hneg⟩
      · have hlow := value.property.1
        rw [min_of_unsigned (Bool.eq_false_iff.mpr hsigned)] at hlow
        exact absurd hlow (not_le.mpr hneg)
  rw [convert_of_represents (hvalue hsource), convert_of_represents hmax]
  refine exact_refuseIf (fun hover hfits => absurd hfits.2 (not_le.mpr hover)) fun hover =>
    exact_refuseIf ?_ fun hunder => ?_
  · rintro ⟨hsigned,hunder⟩ hfits
    rw [convert_of_represents (hmin hsigned)] at hunder
    exact absurd hfits.1 (not_le.mpr hunder)
  have hfits : target.Represents value.val := by
    refine ⟨?_,not_lt.mp hover⟩
    by_cases hsigned : target.isSigned = true
    · rw [convert_of_represents (hmin hsigned)] at hunder
      exact not_lt.mp fun h => hunder ⟨hsigned,h⟩
    · rw [min_of_unsigned (Bool.eq_false_iff.mpr hsigned)]
      exact hsource.resolve_left hsigned
  rw [convert_of_represents hfits]
  exact exact_ok hfits

theorem checkedCast_exact_of_covers {target : IntegralType} (value : source.Value)
    (h : Covers (commonType intWidth target source) target ∧
      Covers (commonType intWidth target source) source) :
    Exact (checkedCast intWidth target value) value.val :=
  checkedCast_exact (h.1.represents target.represents_max)
    (fun _ => h.1.represents target.represents_min) fun _ => h.2.represents value.property

/-- Where an unsigned type takes the values of a signed one, those that are not refused
at once are its own. -/
theorem checkedCast_to_unsigned {target : IntegralType} (value : source.Value)
    (htarget : target.isSigned = false) (hsource : source.isSigned = true) :
    Exact (checkedCast intWidth target value) value.val := by
  by_cases hwide : intWidth ≤ target.width ∧ source.width ≤ target.width
  · have hcommon : commonType intWidth target source = target := by
      rw [commonType_comm]
      exact commonType_eq_unsigned intWidth hsource htarget hwide.1 hwide.2
    have hcovers : Covers (commonType intWidth target source) target := by
      rw [hcommon]
      exact Covers.refl target
    refine checkedCast_exact (hcovers.represents target.represents_max)
      (fun _ => hcovers.represents target.represents_min) fun hvalue =>
        hcovers.represents ⟨?_,?_⟩
    · rw [min_of_unsigned htarget]
      exact hvalue.resolve_left (by rw [htarget]; decide)
    · exact value.property.2.trans (max_le_of_unsigned htarget hwide.2)
  · refine checkedCast_exact_of_covers value ?_
    rw [commonType_comm]
    exact (commonType_covers intWidth hsource (.inr (by omega))).symm

/-- A signed type that is brought to the unsigned source: its least value becomes a
large one there, and every value is refused. -/
theorem checkedCast_refused {target : IntegralType} (value : source.Value)
    (htarget : target.isSigned = true) (hsource : source.isSigned = false)
    (hint : intWidth ≤ source.width) (hwidth : target.width ≤ source.width) :
    ∃ error, checkedCast intWidth target value = some (.error error) := by
  have hcommon := commonType_eq_unsigned intWidth htarget hsource hint hwidth
  have hsourceMin := min_of_unsigned hsource
  have hvalue : source.convert value.val = value := convert_of_represents value.property
  have hmax : source.Represents target.max :=
    ⟨source.min_nonpos.trans target.max_nonneg,max_le_of_unsigned hsource hwidth⟩
  have hpow : (2 : ℤ) ^ target.width ≤ 2 ^ source.width := pow_le_pow_right₀ (by decide) hwidth
  have htargetMin := min_of_signed htarget
  have hnonnegMax := target.max_nonneg
  have htargetMax := target.max_eq
  have hleast : source.wrap target.min = target.min + 2 ^ source.width := by
    rw [wrap, hsourceMin, sub_zero, add_zero, Int.emod_eq_add_self_emod,
      Int.emod_eq_of_lt (by omega) (by omega)]
  have hnonneg : ¬ (source.isSigned ∧ ¬ target.isSigned ∧ value.val < 0) := by simp [hsource]
  rw [checkedCast, hcommon, hvalue, convert_of_represents hmax, decide_eq_false hnonneg,
    refuseIf_false]
  by_cases hover : target.max < value.val
  · rw [decide_eq_true hover, refuseIf_true]
    exact ⟨_,rfl⟩
  · have hunder : value.val < source.wrap target.min := by omega
    rw [decide_eq_false hover, refuseIf_false, decide_eq_true ⟨htarget,hunder⟩, refuseIf_true]
    exact ⟨_,rfl⟩

/-- A conversion is exact but where the source is unsigned and is the common type, and
a signed target has the value. -/
theorem checkedCast_exact_iff (target : IntegralType) (value : source.Value) :
    Exact (checkedCast intWidth target value) value.val ↔
      ¬ (target.isSigned = true ∧ source.isSigned = false ∧ intWidth ≤ source.width ∧
        target.width ≤ source.width ∧ value.val ≤ target.max) := by
  cases htarget : target.isSigned with
  | false =>
    refine iff_of_true ?_ fun h => by cases h.1
    cases hsource : source.isSigned with
    | false =>
      exact checkedCast_exact_of_covers value (commonType_covers_unsigned intWidth htarget hsource)
    | true => exact checkedCast_to_unsigned value htarget hsource
  | true =>
    by_cases hcommon : source.isSigned = false ∧ intWidth ≤ source.width ∧
        target.width ≤ source.width
    · obtain ⟨hsource,hint,hwidth⟩ := hcommon
      obtain ⟨error,herror⟩ := checkedCast_refused value htarget hsource hint hwidth
      have hlow : target.min ≤ value.val := by
        have hvalue := value.property.1
        rw [min_of_unsigned hsource] at hvalue
        exact target.min_nonpos.trans hvalue
      rw [herror, exact_error_iff]
      refine not_congr ⟨fun h => ⟨rfl,hsource,hint,hwidth,h.2⟩,fun h => ⟨hlow,h.2.2.2.2⟩⟩
    · refine iff_of_true (checkedCast_exact_of_covers value (commonType_covers intWidth htarget ?_))
        fun h => hcommon ⟨h.2.1,h.2.2.1,h.2.2.2.1⟩
      cases hsource : source.isSigned with
      | false =>
        rw [hsource] at hcommon
        simp only [true_and, not_and_or, not_le] at hcommon
        exact .inr hcommon
      | true => exact .inl rfl

end Casts

/-- Sums and differences are exact for every type. Products are but where the least value
of a signed type is the product. Conversions are but from an unsigned type, at least as
wide as `int` and as the target, to a signed one that has the value. -/
theorem checked_arithmetic_exact_iff (intWidth : ℕ) :
    (∀ (t : IntegralType) (a b : t.Value),
      Exact (checkedAdd intWidth a b) (a.val + b.val) ∧
      Exact (checkedSub intWidth a b) (a.val - b.val) ∧
      (Exact (checkedMul intWidth a b) (a.val * b.val) ↔
        ¬ (t.isSigned = true ∧ a.val * b.val = t.min))) ∧
    ∀ (target source : IntegralType) (value : source.Value),
      Exact (checkedCast intWidth target value) value.val ↔
        ¬ (target.isSigned = true ∧ source.isSigned = false ∧ intWidth ≤ source.width ∧
          target.width ≤ source.width ∧ value.val ≤ target.max) :=
  ⟨fun _ a b => ⟨checkedAdd_exact a b,checkedSub_exact a b,checkedMul_exact_iff a b⟩,
    fun target _ value => checkedCast_exact_iff target value⟩

/-- With an `int` of 32 bits: its least value times 1, and an unsigned 5 as an `int`. -/
theorem representable_results_are_refused :
    ¬ Exact (checkedMul 32 (⟨-2147483648,by decide⟩ : Value ⟨true,32,by decide⟩) ⟨1,by decide⟩)
        (-2147483648 * 1) ∧
      ¬ Exact (checkedCast 32 ⟨true,32,by decide⟩ (⟨5,by decide⟩ : Value ⟨false,32,by decide⟩)) 5 := by
  constructor
  · intro h
    exact exact_error_iff.mp h (by decide)
  · intro h
    exact exact_error_iff.mp h (by decide)

end Exactness

end PathObservatory
