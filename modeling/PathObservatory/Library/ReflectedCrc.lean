import Mathlib.Logic.Function.Iterate
import Mathlib.Data.List.GetD
import Mathlib.Algebra.Order.Group.Nat

/-! # Reflected cyclic redundancy checks

The register takes in a message bit by bit, from the lowest bit of each byte, and shifts
towards its lowest bit; where a one falls out the polynomial is added. Every step is
linear, and one to one when the polynomial has its highest bit, so that two registers
that differ once differ to the end.
-/
namespace ReflectedCrc

variable {w : ℕ} (p : BitVec w)

def shift (c : BitVec w) : BitVec w := if c.getLsbD 0 then (c >>> 1) ^^^ p else c >>> 1

/-- One bit of the message. -/
def bitStep (c : BitVec w) (bit : Bool) : BitVec w :=
  shift p (c ^^^ (BitVec.ofBool bit).setWidth w)

/-- The bits of a byte, the lowest first. -/
def bits (byte : UInt8) : List Bool := (List.range 8).map byte.toBitVec.getLsbD

/-- The register after a message. -/
def register (c : BitVec w) (data : List UInt8) : BitVec w :=
  (data.flatMap bits).foldl (bitStep p) c

/-- The register starts with ones and is complemented at the end. -/
def crc (data : List UInt8) : BitVec w :=
  register p (BitVec.allOnes w) data ^^^ BitVec.allOnes w

variable {p} {c : BitVec w}

/-! ### Shifting is linear -/

theorem xor_swap (a b p : BitVec w) : a ^^^ b ^^^ p = a ^^^ p ^^^ b := by
  rw [BitVec.xor_assoc, BitVec.xor_comm b p, BitVec.xor_assoc]

theorem xor_cancel (a b p : BitVec w) : a ^^^ p ^^^ (b ^^^ p) = a ^^^ b := by
  rw [← BitVec.xor_assoc, xor_swap a p b, BitVec.xor_assoc (a ^^^ b) p p, BitVec.xor_self,
    BitVec.xor_zero]

theorem shift_xor (a b : BitVec w) : shift p (a ^^^ b) = shift p a ^^^ shift p b := by
  unfold shift
  simp only [BitVec.getLsbD_xor, BitVec.ushiftRight_xor_distrib]
  cases a.getLsbD 0 with
  | false =>
    cases b.getLsbD 0 with
    | false => simp
    | true => simp [BitVec.xor_assoc]
  | true =>
    cases b.getLsbD 0 with
    | false => simp [xor_swap _ _ p]
    | true => simp [xor_cancel]

theorem iterate_shift_xor (n : ℕ) (a b : BitVec w) :
    (shift p)^[n] (a ^^^ b) = (shift p)^[n] a ^^^ (shift p)^[n] b := by
  induction n generalizing a b with
  | zero => rfl
  | succ n ih => rw [Function.iterate_succ_apply, shift_xor, ih]; rfl

/-- Zeros fall out without a trace. -/
theorem iterate_shift_of_clear {n : ℕ} (h : ∀ i < n, c.getLsbD i = false) :
    (shift p)^[n] c = c >>> n := by
  induction n with
  | zero => simp
  | succ n ih =>
    have hlow : (c >>> n).getLsbD 0 = false := by simpa using h n (Nat.lt_succ_self n)
    rw [Function.iterate_succ_apply', ih fun i hi => h i (Nat.lt_succ_of_lt hi), shift, hlow,
      BitVec.shiftRight_add]
    simp

/-- What stands above the bits that fall out just moves down. -/
theorem iterate_shift_split {n : ℕ} {mask : BitVec w}
    (hmask : ∀ i, mask.getLsbD i = (decide (i < n) && decide (i < w))) (c : BitVec w) :
    (shift p)^[n] c = (shift p)^[n] (c &&& mask) ^^^ (c >>> n) := by
  have hsplit : c = (c &&& mask) ^^^ (c &&& ~~~mask) := by
    refine BitVec.eq_of_getLsbD_eq fun i hi => ?_
    simp only [BitVec.getLsbD_xor, BitVec.getLsbD_and, BitVec.getLsbD_not]
    cases c.getLsbD i <;> cases mask.getLsbD i <;> simp [hi]
  have hclear : ∀ i < n, (c &&& ~~~mask).getLsbD i = false := by
    intro i hi
    rw [BitVec.getLsbD_and, BitVec.getLsbD_not, hmask]
    by_cases hw : i < w <;> simp [hi, hw]
  have hhigh : (c &&& ~~~mask) >>> n = c >>> n := by
    refine BitVec.eq_of_getLsbD_eq fun i hi => ?_
    simp only [BitVec.getLsbD_ushiftRight, BitVec.getLsbD_and, BitVec.getLsbD_not, hmask]
    by_cases hw : n + i < w
    · simp [hw]
    · simp [BitVec.getLsbD_of_ge c (n + i) (by omega)]
  calc (shift p)^[n] c = (shift p)^[n] (c &&& mask) ^^^ (shift p)^[n] (c &&& ~~~mask) := by
        rw [← iterate_shift_xor, ← hsplit]
    _ = (shift p)^[n] (c &&& mask) ^^^ (c >>> n) := by rw [iterate_shift_of_clear hclear, hhigh]

/-! ### Shifting is one to one -/

/-- A polynomial with its highest bit leaves a trace of the one that fell out. -/
theorem eq_zero_of_shift (hp : p.msb = true) (h : shift p c = 0) : c = 0 := by
  have hlast : p.getLsbD (w - 1) = true := BitVec.msb_eq_getLsbD_last p ▸ hp
  have hw : 0 < w := by
    by_contra hzero
    rw [BitVec.getLsbD_of_ge p _ (by omega)] at hlast
    cases hlast
  unfold shift at h
  cases hlow : c.getLsbD 0 with
  | true =>
    rw [hlow, if_pos rfl] at h
    have htop := congrArg (fun x => x.getLsbD (w - 1)) h
    have hover : c.getLsbD (1 + (w - 1)) = false := BitVec.getLsbD_of_ge c _ (by omega)
    simp [hlast, hover] at htop
  | false =>
    rw [hlow, if_neg (by decide)] at h
    refine BitVec.eq_of_getLsbD_eq fun i _ => ?_
    cases i with
    | zero => simpa using hlow
    | succ i =>
      have hbit := congrArg (fun x => x.getLsbD i) h
      simpa [Nat.add_comm 1 i] using hbit

theorem shift_injective (hp : p.msb = true) : Function.Injective (shift p) := by
  intro a b h
  have hdiff : shift p (a ^^^ b) = 0 := by
    rw [shift_xor, h]
    exact BitVec.xor_self
  exact BitVec.xor_eq_zero_iff.mp (eq_zero_of_shift hp hdiff)

/-! ### A byte at a time -/

/-- The number of which these are the bits. -/
def value : List Bool → BitVec w
  | [] => 0
  | bit :: rest => (BitVec.ofBool bit).setWidth w ^^^ (value rest <<< 1)

theorem getLsbD_value (all : List Bool) (i : ℕ) :
    (value all : BitVec w).getLsbD i = (decide (i < w) && all.getD i false) := by
  induction all generalizing i with
  | nil => simp [value]
  | cons bit rest ih =>
    rw [value, BitVec.getLsbD_xor, BitVec.getLsbD_shiftLeft]
    cases i with
    | zero => simp [Bool.and_comm]
    | succ i =>
      have hbit : ((BitVec.ofBool bit).setWidth w).getLsbD (i + 1) = false := by
        rw [BitVec.getLsbD_setWidth, BitVec.getLsbD_of_ge _ (i + 1) (by omega), Bool.and_false]
      rw [hbit, Nat.add_sub_cancel, ih]
      by_cases hi : i + 1 < w
      · simp [hi, Nat.lt_of_succ_lt hi]
      · simp [hi]

/-- A number that is moved up is moved down again. -/
theorem shift_double (h : c.getLsbD (w - 1) = false) : shift p (c <<< 1) = c := by
  have hlow : (c <<< 1).getLsbD 0 = false := by simp
  rw [shift, hlow, if_neg (by decide)]
  refine BitVec.eq_of_getLsbD_eq fun i hi => ?_
  rw [BitVec.getLsbD_ushiftRight, BitVec.getLsbD_shiftLeft]
  rcases Nat.lt_or_ge (1 + i) w with hlt | hge
  · simp [hlt]
  · obtain rfl : i = w - 1 := by omega
    rw [h]
    simp [hge]

theorem foldl_bitStep {all : List Bool} (h : all.length ≤ w) (c : BitVec w) :
    all.foldl (bitStep p) c = (shift p)^[all.length] (c ^^^ value all) := by
  induction all generalizing c with
  | nil => simp [value]
  | cons bit rest ih =>
    rw [List.length_cons] at h
    have hclear : (value rest : BitVec w).getLsbD (w - 1) = false := by
      rw [getLsbD_value, List.getD_eq_default]
      · simp
      · omega
    rw [List.foldl_cons, ih (by omega), bitStep, List.length_cons, Function.iterate_succ_apply,
      value, ← BitVec.xor_assoc, shift_xor (c ^^^ _), shift_double hclear]

/-- A byte is added to the register, which then shifts eight times. -/
def byteStep (p : BitVec w) (c : BitVec w) (byte : UInt8) : BitVec w :=
  (shift p)^[8] (c ^^^ byte.toBitVec.setWidth w)

theorem register_eq_foldl (hw : 8 ≤ w) (c : BitVec w) (data : List UInt8) :
    register p c data = data.foldl (byteStep p) c := by
  have hvalue : ∀ byte : UInt8, (value (bits byte) : BitVec w) = byte.toBitVec.setWidth w := by
    intro byte
    refine BitVec.eq_of_getLsbD_eq fun i hi => ?_
    rw [getLsbD_value, BitVec.getLsbD_setWidth]
    rcases Nat.lt_or_ge i 8 with hlt | hge
    · rw [List.getD_eq_getElem _ _ (by simpa [bits] using hlt)]
      simp [bits]
    · rw [List.getD_eq_default _ _ (by simpa [bits] using hge), BitVec.getLsbD_of_ge _ _ hge]
  induction data generalizing c with
  | nil => rfl
  | cons byte rest ih =>
    have hbits : (bits byte).length = 8 := by simp [bits]
    have hstep : (bits byte).foldl (bitStep p) c = byteStep p c byte := by
      rw [foldl_bitStep (hbits.le.trans hw), hbits, hvalue, byteStep]
    rw [List.foldl_cons, ← hstep, ← ih, register, List.flatMap_cons, List.foldl_append]
    rfl

/-! ### Differences stay -/

theorem byteStep_injective (hp : p.msb = true) (byte : UInt8) :
    Function.Injective fun c => byteStep p c byte := by
  intro a b h
  have hbefore := (shift_injective hp).iterate 8 h
  exact (BitVec.xor_left_inj _).mp hbefore

/-- Messages that differ in a single byte leave different registers. -/
theorem register_ne (hp : p.msb = true) (hw : 8 ≤ w) {a b : UInt8} (hne : a ≠ b) (c : BitVec w)
    (front back : List UInt8) :
    register p c (front ++ a :: back) ≠ register p c (front ++ b :: back) := by
  have hback : Function.Injective fun c => back.foldl (byteStep p) c := by
    induction back with
    | nil => exact fun _ _ h => h
    | cons byte rest ih => exact fun _ _ h => byteStep_injective hp byte (ih h)
  rw [register_eq_foldl hw, register_eq_foldl hw, List.foldl_append, List.foldl_append]
  intro h
  have hstep := (shift_injective hp).iterate 8 (hback h)
  have hbytes := congrArg (BitVec.setWidth 8) ((BitVec.xor_right_inj _).mp hstep)
  rw [BitVec.setWidth_setWidth_of_le _ hw, BitVec.setWidth_setWidth_of_le _ hw,
    BitVec.setWidth_eq, BitVec.setWidth_eq] at hbytes
  exact hne (UInt8.toBitVec_inj.mp hbytes)

theorem crc_ne (hp : p.msb = true) (hw : 8 ≤ w) {a b : UInt8} (hne : a ≠ b)
    (front back : List UInt8) : crc p (front ++ a :: back) ≠ crc p (front ++ b :: back) :=
  fun h => register_ne hp hw hne _ front back ((BitVec.xor_left_inj _).mp h)

end ReflectedCrc
