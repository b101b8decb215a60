import Mathlib.Analysis.SpecialFunctions.Pow.NthRootLemmas
import Mathlib.Data.Fin.VecNotation
import Mathlib.Data.Nat.Prime.Defs
import PathObservatory.Library.Blocks
import PathObservatory.Library.LittleEndian

/-! # The secure hash of a byte string

SHA-256 as its standard, FIPS 180-4, states it for messages of whole bytes. The
constants are roots of primes, the message schedule is a recurrence over the words of
a block, and the message is padded to whole blocks before any of them is looked at.
-/
namespace Sha2

/-- The eight words of a hash value, and the working variables `a` to `h`. -/
abbrev Hash := Fin 8 → UInt32

/-! ### The functions and the constants of the standard -/

def rotr (x : UInt32) (n : ℕ) : UInt32 := ⟨x.toBitVec.rotateRight n⟩

def ch (x y z : UInt32) : UInt32 := (x &&& y) ^^^ (~~~x &&& z)
def maj (x y z : UInt32) : UInt32 := (x &&& y) ^^^ (x &&& z) ^^^ (y &&& z)

def bigSigma0 (x : UInt32) : UInt32 := rotr x 2 ^^^ rotr x 13 ^^^ rotr x 22
def bigSigma1 (x : UInt32) : UInt32 := rotr x 6 ^^^ rotr x 11 ^^^ rotr x 25
def smallSigma0 (x : UInt32) : UInt32 := rotr x 7 ^^^ rotr x 18 ^^^ (x >>> 3)
def smallSigma1 (x : UInt32) : UInt32 := rotr x 17 ^^^ rotr x 19 ^^^ (x >>> 10)

/-- The first sixty-four prime numbers. -/
def primes : List ℕ := (List.range 312).filter (fun n => n.Prime)

/-- The first 32 bits of the fractional part of the `n`-th root of `p`. -/
def fraction (n p : ℕ) : UInt32 := UInt32.ofNat (Nat.nthRoot n (p * 2 ^ (32 * n)))

/-- The cube roots of the primes give the constants of the rounds. -/
def constant (t : ℕ) : UInt32 := fraction 3 (primes.getD t 0)

/-- The square roots of the first eight primes give the initial hash value. -/
def initial : Hash := fun i => fraction 2 (primes.getD i 0)

/-! ### One block -/

/-- The words of a block stand in it with the highest byte first. -/
def word (block : List UInt8) (j : ℕ) : UInt32 :=
  UInt32.ofNat (LittleEndian.ofBytes ((block.drop (4 * j)).take 4).reverse)

/-- The schedule starts with the words of the block. -/
def schedule (words : ℕ → UInt32) (t : ℕ) : UInt32 :=
  if t < 16 then words t
  else smallSigma1 (schedule words (t - 2)) + schedule words (t - 7) +
    smallSigma0 (schedule words (t - 15)) + schedule words (t - 16)

def round (k w : UInt32) (v : Hash) : Hash :=
  let t1 := v 7 + bigSigma1 (v 4) + ch (v 4) (v 5) (v 6) + k + w
  let t2 := bigSigma0 (v 0) + maj (v 0) (v 1) (v 2)
  ![t1 + t2,v 0,v 1,v 2,v 3 + t1,v 4,v 5,v 6]

/-- The working variables after the first rounds. -/
def rounds (words : ℕ → UInt32) (v : Hash) : ℕ → Hash
  | 0 => v
  | t + 1 => round (constant t) (schedule words t) (rounds words v t)

def compress (v : Hash) (block : List UInt8) : Hash :=
  fun i => v i + rounds (word block) v 64 i

/-! ### The whole message -/

def blockBytes : ℕ := 64

/-- Zero bytes behind the closing bit of a message so that a length of eight bytes completes
a block. -/
theorem exists_zeros (length : ℕ) : ∃ zeros, (length + 1 + zeros) % 64 = 56 := by
  refine ⟨(119 - length % 64) % 64,?_⟩
  omega

/-- The smallest such number. -/
def zeros (length : ℕ) : ℕ := Nat.find (exists_zeros length)

/-- A closing bit, zeros, and the number of bits. The standard is about messages of
fewer than `2 ^ 64` bits, whose number fits. -/
def padding (length : ℕ) : List UInt8 :=
  0x80 :: (List.replicate (zeros length) 0 ++ (LittleEndian.toBytes 8 (8 * length)).reverse)

/-- Hash the blocks of the padded message one after the other. -/
def hash (message : List UInt8) : Hash :=
  Blocks.absorb compress blockBytes initial (message ++ padding message.length)

def digest (message : List UInt8) : List UInt8 :=
  (List.ofFn (hash message)).flatMap (fun w => (LittleEndian.toBytes 4 w.toNat).reverse)

/-! ### What follows at once -/

theorem zeros_spec (length : ℕ) : (length + 1 + zeros length) % 64 = 56 :=
  Nat.find_spec (exists_zeros length)

theorem zeros_le {length count : ℕ} (h : (length + 1 + count) % 64 = 56) :
    zeros length ≤ count :=
  Nat.find_min' (exists_zeros length) h

theorem zeros_lt (length : ℕ) : zeros length < 64 := by
  have hmod : (length + 1 + (119 - length % 64) % 64) % 64 = 56 := by omega
  have hle := zeros_le hmod
  omega

/-- Below 324 a number is prime where none below 18 but itself divides it. -/
theorem prime_iff_of_lt {n : ℕ} (h : n < 324) :
    n.Prime ↔ 2 ≤ n ∧ ∀ d < 18, 2 ≤ d → d < n → ¬ d ∣ n := by
  rw [Nat.prime_def_lt']
  refine and_congr_right fun htwo => ⟨fun hprime d _ hd hlt => hprime d hd hlt,?_⟩
  rintro hsmall d hd hlt ⟨e,rfl⟩
  rcases Nat.lt_or_ge d 18 with hd18 | hd18
  · exact hsmall d hd18 hd hlt (Dvd.intro e rfl)
  · have he : e < 18 := by
      by_contra hge
      have hsquare := Nat.mul_le_mul hd18 (not_lt.mp hge)
      omega
    have hone : 1 < e := by
      rw [← Nat.mul_lt_mul_left (a := d) (by omega)]
      omega
    have hcofactor : 1 * e < d * e := Nat.mul_lt_mul_of_pos_right (by omega) (by omega)
    exact hsmall e he hone (by omega) (Dvd.intro_left d rfl)

theorem primes_eq : primes =
    [2, 3, 5, 7, 11, 13, 17, 19, 23, 29, 31, 37, 41, 43, 47, 53, 59, 61, 67, 71, 73, 79, 83, 89,
    97, 101, 103, 107, 109, 113, 127, 131, 137, 139, 149, 151, 157, 163, 167, 173, 179, 181, 191,
    193, 197, 199, 211, 223, 227, 229, 233, 239, 241, 251, 257, 263, 269, 271, 277, 281, 283,
    293, 307, 311] := by
  have htest : primes = (List.range 312).filter
      (fun n => 2 ≤ n ∧ ∀ d < 18, 2 ≤ d → d < n → ¬ d ∣ n) := by
    refine List.filter_congr fun n hn => decide_eq_decide.mpr (prime_iff_of_lt ?_)
    have hlt := List.mem_range.mp hn
    omega
  rw [htest]
  decide +kernel

theorem schedule_of_lt (words : ℕ → UInt32) {t : ℕ} (h : t < 16) : schedule words t = words t := by
  rw [schedule, if_pos h]

theorem schedule_of_le (words : ℕ → UInt32) {t : ℕ} (h : 16 ≤ t) :
    schedule words t = smallSigma1 (schedule words (t - 2)) + schedule words (t - 7) +
      smallSigma0 (schedule words (t - 15)) + schedule words (t - 16) := by
  rw [schedule, if_neg (not_lt.mpr h)]

/-- A word is the fraction of a root where it follows some whole part of it. -/
theorem fraction_eq {n p whole : ℕ} {k : UInt32}
    (hlow : (whole * 2 ^ 32 + k.toNat) ^ n ≤ p * 2 ^ (32 * n))
    (hhigh : p * 2 ^ (32 * n) < (whole * 2 ^ 32 + k.toNat + 1) ^ n) : fraction n p = k := by
  rw [fraction, Nat.nthRoot_eq_of_le_of_lt hlow hhigh]
  refine UInt32.toNat_inj.mp ?_
  rw [UInt32.toNat_ofNat', Nat.mul_add_mod_self_right]
  exact Nat.mod_eq_of_lt k.toNat_lt

end Sha2
