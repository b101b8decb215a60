import Mathlib.Data.List.GetD
import PathObservatory.Foundation.Digest
import PathObservatory.Library.Sha2

/-! # Compressing a block

The words, the schedule and the rounds of the hasher are those of the standard. The
schedule is kept newest first while it is extended, and the constants are a table.
-/
namespace PathObservatory

namespace Sha256

/-- The eight words as a hash value. -/
def Words.hash (s : Words) : Sha2.Hash := ![s.a,s.b,s.c,s.d,s.e,s.f,s.g,s.h]

/-! ### The constants -/

/-- The word is what follows the whole part of the root. -/
def IsFraction (n p : ℕ) (k : UInt32) : Prop :=
  (Nat.nthRoot n p * 2 ^ 32 + k.toNat) ^ n ≤ p * 2 ^ (32 * n) ∧
    p * 2 ^ (32 * n) < (Nat.nthRoot n p * 2 ^ 32 + k.toNat + 1) ^ n

instance (n p : ℕ) (k : UInt32) : Decidable (IsFraction n p k) :=
  inferInstanceAs (Decidable (_ ∧ _))

theorem IsFraction.eq {n p : ℕ} {k : UInt32} (h : IsFraction n p k) : Sha2.fraction n p = k :=
  Sha2.fraction_eq h.1 h.2

theorem kSha256K_eq : kSha256K = (List.range 64).map Sha2.constant := by
  have hentries : ∀ t < 64, IsFraction 3 (Sha2.primes.getD t 0) (kSha256K.getD t 0) := by
    rw [Sha2.primes_eq]
    decide +kernel
  have hlength : kSha256K.length = 64 := rfl
  refine List.ext_getElem (by rw [hlength, List.length_map, List.length_range]) fun t ht _ => ?_
  have hentry := (hentries t (hlength ▸ ht)).eq
  rw [List.getD_eq_getElem _ _ ht] at hentry
  simpa [Sha2.constant] using hentry.symm

theorem initialWords_hash : initialWords.hash = Sha2.initial := by
  have hentries : ∀ i : Fin 8, IsFraction 2 (Sha2.primes.getD i 0) (initialWords.hash i) := by
    rw [Sha2.primes_eq]
    decide +kernel
  funext i
  exact (hentries i).eq.symm

/-! ### The schedule -/

theorem toNat_shiftLeft_byte (b : UInt8) (n : UInt32) (h : n.toNat ≤ 24) :
    (b.toUInt32 <<< n).toNat = 2 ^ n.toNat * b.toNat := by
  have hb : b.toNat < 2 ^ 8 := b.toNat_lt
  have hsmall : b.toNat * 2 ^ n.toNat < 2 ^ 32 :=
    calc b.toNat * 2 ^ n.toNat < 2 ^ 8 * 2 ^ n.toNat := by gcongr
      _ ≤ 2 ^ 8 * 2 ^ 24 := by gcongr; norm_num
      _ = 2 ^ 32 := by norm_num
  rw [UInt32.toNat_shiftLeft, UInt8.toNat_toUInt32, Nat.mod_eq_of_lt (by omega : n.toNat < 32),
    Nat.shiftLeft_eq, Nat.mod_eq_of_lt hsmall, Nat.mul_comm]

/-- A byte above others is added to them. -/
theorem toNat_byte_or (b : UInt8) (n low : UInt32) (h : n.toNat ≤ 24)
    (hlow : low.toNat < 2 ^ n.toNat) :
    ((b.toUInt32 <<< n) ||| low).toNat = low.toNat + 2 ^ n.toNat * b.toNat := by
  rw [UInt32.toNat_or, toNat_shiftLeft_byte b n h, ← Nat.two_pow_add_eq_or_of_lt hlow,
    Nat.add_comm]

theorem toUInt32_bytes (b0 b1 b2 b3 : UInt8) :
    (b0.toUInt32 <<< 24) ||| (b1.toUInt32 <<< 16) ||| (b2.toUInt32 <<< 8) ||| b3.toUInt32 =
      UInt32.ofNat (LittleEndian.ofBytes [b3,b2,b1,b0]) := by
  have h0 := b0.toNat_lt
  have h1 := b1.toNat_lt
  have h2 := b2.toNat_lt
  have h3 : b3.toNat < 2 ^ 8 := b3.toNat_lt
  have hlow : ((b2.toUInt32 <<< 8) ||| b3.toUInt32).toNat = b3.toNat + 2 ^ 8 * b2.toNat :=
    toNat_byte_or b2 8 b3.toUInt32 (by decide) h3
  have hmiddle : ((b1.toUInt32 <<< 16) ||| ((b2.toUInt32 <<< 8) ||| b3.toUInt32)).toNat =
      b3.toNat + 2 ^ 8 * b2.toNat + 2 ^ 16 * b1.toNat := by
    rw [← hlow]
    have hbound : b3.toNat + 2 ^ 8 * b2.toNat < 2 ^ 16 := by omega
    exact toNat_byte_or b1 16 _ (by decide) (hlow.trans_lt hbound)
  have hhigh : ((b0.toUInt32 <<< 24) |||
      ((b1.toUInt32 <<< 16) ||| ((b2.toUInt32 <<< 8) ||| b3.toUInt32))).toNat =
      b3.toNat + 2 ^ 8 * b2.toNat + 2 ^ 16 * b1.toNat + 2 ^ 24 * b0.toNat := by
    rw [← hmiddle]
    have hbound : b3.toNat + 2 ^ 8 * b2.toNat + 2 ^ 16 * b1.toNat < 2 ^ 24 := by omega
    exact toNat_byte_or b0 24 _ (by decide) (hmiddle.trans_lt hbound)
  refine UInt32.toNat_inj.mp ?_
  rw [UInt32.or_assoc, UInt32.or_assoc, hhigh, UInt32.toNat_ofNat']
  simp only [LittleEndian.ofBytes]
  omega

/-- The words of a block. -/
theorem blockWords_eq {n : ℕ} {block : ByteString} (h : block.length = 4 * n) :
    blockWords block = (List.range n).map (Sha2.word block) := by
  induction n generalizing block with
  | zero =>
    obtain rfl := List.length_eq_zero_iff.mp h
    rfl
  | succ n ih =>
    match block, h with
    | b0 :: b1 :: b2 :: b3 :: rest, h =>
      have hrest : rest.length = 4 * n := by
        simp only [List.length_cons] at h
        omega
      have hshift : ∀ j, Sha2.word (b0 :: b1 :: b2 :: b3 :: rest) (j + 1) = Sha2.word rest j := by
        intro j
        rw [Sha2.word, Nat.mul_succ]
        rfl
      have hothers : (List.range n).map (Sha2.word (b0 :: b1 :: b2 :: b3 :: rest) ∘ Nat.succ) =
          (List.range n).map (Sha2.word rest) := List.map_congr_left fun j _ => hshift j
      rw [List.range_succ_eq_map, List.map_cons, List.map_map, hothers, blockWords, ih hrest,
        toUInt32_bytes]
      rfl

/-- A schedule of sixteen words or more, newest first, is extended by the recurrence. -/
theorem extendSchedule_eq (words : ℕ → UInt32) (n : ℕ) {t : ℕ} (ht : 16 ≤ t) :
    extendSchedule n ((List.range t).map (Sha2.schedule words)).reverse =
      ((List.range (t + n)).map (Sha2.schedule words)).reverse := by
  have hback : ∀ (t k : ℕ), k < t →
      ((List.range t).map (Sha2.schedule words)).reverse.getD k 0 =
        Sha2.schedule words (t - 1 - k) := by
    intro t k hk
    rw [List.getD_eq_getElem _ _ (by simpa using hk), List.getElem_reverse]
    simp
  induction n generalizing t with
  | zero => rfl
  | succ n ih =>
    have hnext : smallSigma1 (Sha2.schedule words (t - 1 - 1)) +
        Sha2.schedule words (t - 1 - 6) + smallSigma0 (Sha2.schedule words (t - 1 - 14)) +
        Sha2.schedule words (t - 1 - 15) = Sha2.schedule words t :=
      (Sha2.schedule_of_le words ht).symm
    rw [extendSchedule, hback t 1 (by omega), hback t 6 (by omega), hback t 14 (by omega),
      hback t 15 (by omega), hnext]
    have hgrown : Sha2.schedule words t :: ((List.range t).map (Sha2.schedule words)).reverse =
        ((List.range (t + 1)).map (Sha2.schedule words)).reverse := by
      simp [List.range_succ]
    rw [hgrown, ih (by omega), Nat.add_right_comm, Nat.add_assoc]

/-! ### The rounds -/

theorem round_hash (s : Words) (k w : UInt32) :
    (round s (k,w)).hash = Sha2.round k w s.hash := rfl

/-- The rounds over the first words. -/
theorem foldl_round_hash (words : ℕ → UInt32) (s : Words) (n : ℕ) :
    (((List.range n).map fun t => (Sha2.constant t,Sha2.schedule words t)).foldl round s).hash =
      Sha2.rounds words s.hash n := by
  induction n with
  | zero => rfl
  | succ n ih =>
    rw [List.range_succ, List.map_append, List.foldl_append, Sha2.rounds, ← ih]
    exact round_hash _ (Sha2.constant n) (Sha2.schedule words n)

/-- Words are added one by one. -/
theorem hash_add (s t : Words) :
    Words.hash { a := s.a + t.a, b := s.b + t.b, c := s.c + t.c, d := s.d + t.d,
                 e := s.e + t.e, f := s.f + t.f, g := s.g + t.g, h := s.h + t.h } =
      fun i => s.hash i + t.hash i := by
  funext i
  match i with
  | 0 | 1 | 2 | 3 | 4 | 5 | 6 | 7 => rfl

/-- A block is compressed as the standard says. -/
theorem compress_hash (s : Words) {block : ByteString} (h : block.length = Sha2.blockBytes) :
    (compress s block).hash = Sha2.compress s.hash block := by
  have hwords : blockWords block = (List.range 16).map (Sha2.schedule (Sha2.word block)) := by
    rw [blockWords_eq (n := 16) h]
    exact List.map_congr_left fun t ht => (Sha2.schedule_of_lt _ (List.mem_range.mp ht)).symm
  have hrounds := foldl_round_hash (Sha2.word block) s 64
  have hkeyed : kSha256K.zip (extendSchedule 48 (blockWords block).reverse).reverse =
      (List.range 64).map fun t => (Sha2.constant t,Sha2.schedule (Sha2.word block) t) := by
    rw [hwords, extendSchedule_eq _ 48 le_rfl, List.reverse_reverse, kSha256K_eq, List.zip_map']
  unfold compress Sha2.compress
  simp only [hkeyed, ← hrounds]
  exact hash_add s _

end Sha256

end PathObservatory
