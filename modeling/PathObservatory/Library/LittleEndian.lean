import Mathlib.Data.Nat.Notation
import Mathlib.Algebra.Order.Group.Nat
import Mathlib.Tactic.Ring

/-! # Little endian digits of natural numbers

A fixed number of base 256 digits, least significant first, and the number a
digit string denotes. -/
namespace LittleEndian

def toBytes : ℕ → ℕ → List UInt8
  | 0, _ => []
  | width + 1, value => UInt8.ofNat value :: toBytes width (value / 256)

def ofBytes : List UInt8 → ℕ
  | [] => 0
  | byte :: rest => byte.toNat + 256 * ofBytes rest

@[simp] theorem length_toBytes (width value : ℕ) : (toBytes width value).length = width := by
  induction width generalizing value with
  | zero => rfl
  | succ width ih => simp [toBytes, ih]

theorem ofBytes_toBytes (width value : ℕ) :
    ofBytes (toBytes width value) = value % 256 ^ width := by
  induction width generalizing value with
  | zero => simp [toBytes, ofBytes, Nat.mod_one]
  | succ width ih =>
    have hdigit : (UInt8.ofNat value).toNat = value % 256 := by simp
    rw [toBytes, ofBytes, ih, hdigit, pow_succ', Nat.mod_mul]

/-- A value below the width's bound is recovered from its digits. -/
theorem ofBytes_toBytes_of_lt {width value : ℕ} (h : value < 256 ^ width) :
    ofBytes (toBytes width value) = value := by
  rw [ofBytes_toBytes, Nat.mod_eq_of_lt h]

/-- The digits of a number are the ones it was read from. -/
theorem toBytes_ofBytes (bytes : List UInt8) : toBytes bytes.length (ofBytes bytes) = bytes := by
  induction bytes with
  | nil => rfl
  | cons byte rest ih =>
    have hbyte : byte.toNat < 256 := byte.toNat_lt
    have hlow : UInt8.ofNat (byte.toNat + 256 * ofBytes rest) = byte := by
      refine UInt8.toNat_inj.mp ?_
      rw [UInt8.toNat_ofNat']
      omega
    have hhigh : (byte.toNat + 256 * ofBytes rest) / 256 = ofBytes rest := by omega
    rw [ofBytes, List.length_cons, toBytes, hlow, hhigh, ih]

theorem ofBytes_lt (bytes : List UInt8) : ofBytes bytes < 256 ^ bytes.length := by
  induction bytes with
  | nil => exact Nat.one_pos
  | cons byte rest ih =>
    have hbyte : byte.toNat < 256 := byte.toNat_lt
    rw [ofBytes, List.length_cons, pow_succ']
    omega

theorem ofBytes_eq_zero {bytes : List UInt8} : ofBytes bytes = 0 ↔ ∀ byte ∈ bytes, byte = 0 := by
  induction bytes with
  | nil => exact ⟨fun _ => nofun,fun _ => rfl⟩
  | cons byte rest ih =>
    have hbyte : byte.toNat = 0 ↔ byte = 0 := by
      rw [← UInt8.toNat_inj, UInt8.toNat_zero]
    rw [ofBytes, List.forall_mem_cons, ← ih, ← hbyte]
    omega

/-- A most significant digit of zero does not count. -/
theorem ofBytes_concat_zero (bytes : List UInt8) : ofBytes (bytes ++ [0]) = ofBytes bytes := by
  induction bytes with
  | nil => rfl
  | cons byte rest ih => rw [List.cons_append, ofBytes, ih, ofBytes]

end LittleEndian
