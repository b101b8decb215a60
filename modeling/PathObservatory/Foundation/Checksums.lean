import PathObservatory.Foundation.Digest
import PathObservatory.Library.ReflectedCrc

/-! # The checksum is a cyclic redundancy check

The table holds eight shifts of each byte, so that a step of the table is eight steps of
the register.
-/
namespace PathObservatory

namespace Crc32c
open ReflectedCrc

theorem shiftBit_toBitVec (crc : UInt32) :
    (shiftBit crc).toBitVec = shift kPolynomial.toBitVec crc.toBitVec := by
  have hlow : (crc &&& 1).toBitVec = (BitVec.ofBool (crc.toBitVec.getLsbD 0)).setWidth 32 :=
    BitVec.and_one_eq_setWidth_ofBool_getLsbD
  unfold shiftBit shift
  cases hbit : crc.toBitVec.getLsbD 0 with
  | true =>
    have hodd : crc &&& 1 ≠ 0 := by
      intro h
      rw [h, hbit] at hlow
      cases hlow
    rw [if_pos hodd, if_pos rfl]
    rfl
  | false =>
    have heven : crc &&& 1 = 0 := by
      rw [hbit] at hlow
      exact UInt32.toBitVec_inj.mp hlow
    rw [if_neg (not_not.mpr heven), if_neg (by decide)]
    rfl

theorem tableEntry_toBitVec (index : UInt32) :
    (tableEntry index).toBitVec = (shift kPolynomial.toBitVec)^[8] index.toBitVec := by
  have hsemiconj : Function.Semiconj UInt32.toBitVec shiftBit (shift kPolynomial.toBitVec) :=
    shiftBit_toBitVec
  exact hsemiconj.iterate_right 8 index

/-- Every byte has its entry. -/
theorem table_getD {index : UInt32} (h : index.toNat < 256) :
    table.getD index.toNat 0 = tableEntry index := by
  rw [table, List.getD_eq_getElem _ _ (by simpa using h)]
  simp

/-- A byte does not reach above the bits that fall out. -/
theorem byte_shiftRight (byte : UInt8) : byte.toBitVec.setWidth 32 >>> 8 = 0#32 := by
  refine BitVec.eq_of_getLsbD_eq fun i _ => ?_
  rw [BitVec.getLsbD_ushiftRight, BitVec.getLsbD_setWidth, BitVec.getLsbD_of_ge _ _ (by omega)]
  simp

theorem step_toBitVec (crc : UInt32) (byte : UInt8) :
    (step crc byte).toBitVec = byteStep kPolynomial.toBitVec crc.toBitVec byte := by
  have hmask : ∀ i, (0xff : UInt32).toBitVec.getLsbD i = (decide (i < 8) && decide (i < 32)) := by
    intro i
    have hones : (0xff : UInt32).toBitVec.getLsbD i = (2 ^ 8 - 1).testBit i := rfl
    rw [hones, Nat.testBit_two_pow_sub_one]
    by_cases hi : i < 8
    · simp [hi, hi.trans (by decide : 8 < 32)]
    · simp [hi]
  have hindex : ((crc ^^^ byte.toUInt32) &&& 0xff).toNat < 256 := by
    have hmod := Nat.and_two_pow_sub_one_eq_mod (crc ^^^ byte.toUInt32).toNat 8
    rw [UInt32.toNat_and]
    refine lt_of_eq_of_lt hmod (Nat.mod_lt _ (by decide))
  have hsplit := iterate_shift_split (p := kPolynomial.toBitVec) hmask
    (crc.toBitVec ^^^ byte.toBitVec.setWidth 32)
  rw [BitVec.ushiftRight_xor_distrib, byte_shiftRight] at hsplit
  rw [step, table_getD hindex, UInt32.toBitVec_xor, tableEntry_toBitVec, byteStep, hsplit,
    BitVec.xor_zero]
  rfl

end Crc32c

open Crc32c ReflectedCrc

theorem crc32c_eq_crc (data : ByteString) :
    (crc32c data).toBitVec = crc kPolynomial.toBitVec data := by
  have hfold : ∀ c : UInt32, (data.foldl step c).toBitVec =
      data.foldl (byteStep kPolynomial.toBitVec) c.toBitVec := by
    induction data with
    | nil => exact fun _ => rfl
    | cons byte rest ih =>
      intro c
      rw [List.foldl_cons, List.foldl_cons, ih, step_toBitVec]
  rw [crc, register_eq_foldl (by decide)]
  exact congrArg (· ^^^ BitVec.allOnes 32) (hfold 0xffffffff)

/-- Two strings of one length that differ in a single byte. -/
theorem crc32c_ne {a b : UInt8} (hne : a ≠ b) (front back : ByteString) :
    crc32c (front ++ a :: back) ≠ crc32c (front ++ b :: back) := by
  intro h
  have hcrc := congrArg UInt32.toBitVec h
  rw [crc32c_eq_crc, crc32c_eq_crc] at hcrc
  exact crc_ne (by decide) (by decide) hne front back hcrc

end PathObservatory
