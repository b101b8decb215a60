import PathObservatory.Foundation.Sha256Rounds

/-! # Hashing a stream in pieces

Between two pieces the hasher holds the state of the whole blocks so far and what is
left over. Finishing pads this with pieces of its own, so that the digest is the one
of the standard however the message was cut.
-/
namespace PathObservatory
open Blocks

namespace Sha256
variable {hasher : Sha256}

theorem compressBlocks_eq {count : ℕ} (state : Words) {data : ByteString}
    (h : kBlockBytes * count ≤ data.length) :
    compressBlocks count state data =
      (feed compress kBlockBytes count state data,data.drop (kBlockBytes * count)) := by
  induction count generalizing state data with
  | zero => rfl
  | succ count ih =>
    rw [Nat.mul_succ] at h
    have hfirst : kBlockBytes ≤ data.length := by omega
    have hothers : kBlockBytes * count ≤ (data.drop kBlockBytes).length := by
      rw [List.length_drop]
      omega
    rw [compressBlocks, if_pos hfirst, ih _ hothers, feed, List.drop_drop, Nat.mul_succ,
      Nat.add_comm]

/-- The whole blocks of the input are compressed, the rest of it is left. -/
theorem compressBlocks_whole (state : Words) (data : ByteString) :
    compressBlocks (data.length / kBlockBytes) state data =
      (absorb compress kBlockBytes state data,rest kBlockBytes data) :=
  compressBlocks_eq state (whole_le kBlockBytes data)

/-- The hasher after more bytes: what was left over comes before them. -/
def fed (hasher : Sha256) (data : ByteString) : Sha256 where
  state := absorb compress kBlockBytes hasher.state (hasher.buffer ++ data)
  buffer := rest kBlockBytes (hasher.buffer ++ data)
  byteCount := hasher.byteCount + UInt64.ofNat data.length

/-- Blocks are compressed out of the buffer and straight from the input; both come to the
same. -/
theorem update_eq_fed (h : hasher.buffer.length < kBlockBytes) (data : ByteString) :
    hasher.update data = hasher.fed data := by
  have hsize : 0 < kBlockBytes := by decide
  unfold update fillBuffer fed
  by_cases hempty : hasher.buffer = []
  · simp only [hempty, if_true, compressBlocks_whole, List.nil_append]
  · simp only [if_neg hempty]
    rcases le_or_gt (kBlockBytes - hasher.buffer.length) data.length with hfills | hshort
    · have hfilled : (hasher.buffer ++ data.take (kBlockBytes - hasher.buffer.length)).length =
          kBlockBytes := by
        rw [List.length_append, List.length_take]
        omega
      have hsplit : hasher.buffer ++ data =
          (hasher.buffer ++ data.take (kBlockBytes - hasher.buffer.length)) ++
            data.drop (kBlockBytes - hasher.buffer.length) := by
        rw [List.append_assoc, List.take_append_drop]
      have habsorb := @absorb_append _ _ compress _ hsize hasher.state
        (hasher.buffer ++ data.take (kBlockBytes - hasher.buffer.length))
        (data.drop (kBlockBytes - hasher.buffer.length))
      have hrest := rest_append hsize
        (hasher.buffer ++ data.take (kBlockBytes - hasher.buffer.length))
        (data.drop (kBlockBytes - hasher.buffer.length))
      rw [absorb_of_length hsize hfilled, rest_of_length hsize hfilled, List.nil_append] at habsorb
      rw [rest_of_length hsize hfilled, List.nil_append] at hrest
      rw [if_pos hfilled, hsplit, habsorb, hrest]
      simp only [compressBlocks_whole, List.nil_append]
    · have htake : data.take (kBlockBytes - hasher.buffer.length) = data :=
        List.take_of_length_le hshort.le
      have hdrop : data.drop (kBlockBytes - hasher.buffer.length) = [] :=
        List.drop_eq_nil_of_le hshort.le
      have hpart : (hasher.buffer ++ data).length < kBlockBytes := by
        rw [List.length_append]
        omega
      rw [htake, hdrop, if_neg hpart.ne, absorb_of_lt hpart, rest_of_lt hpart]
      simp only [compressBlocks_whole]
      rw [absorb_of_lt (by decide), rest_of_lt (by decide), List.append_nil]

theorem length_buffer_fed (hasher : Sha256) (data : ByteString) :
    (hasher.fed data).buffer.length < kBlockBytes :=
  length_rest_lt (by decide) _

theorem fed_nil (h : hasher.buffer.length < kBlockBytes) : hasher.fed [] = hasher := by
  unfold fed
  rw [List.append_nil, absorb_of_lt h, rest_of_lt h]
  simp

/-- Two pieces are as good as one. -/
theorem fed_fed (hasher : Sha256) (first second : ByteString) :
    (hasher.fed first).fed second = hasher.fed (first ++ second) := by
  have hsize : 0 < kBlockBytes := by decide
  have habsorb := @absorb_append _ _ compress _ hsize hasher.state (hasher.buffer ++ first) second
  have hrest := rest_append hsize (hasher.buffer ++ first) second
  unfold fed
  rw [← List.append_assoc, habsorb, hrest, List.length_append, UInt64.ofNat_add, UInt64.add_assoc]

/-- However the bytes are cut into pieces, empty ones among them. -/
theorem foldl_update (h : hasher.buffer.length < kBlockBytes) (pieces : List ByteString) :
    pieces.foldl update hasher = hasher.fed pieces.flatten := by
  induction pieces generalizing hasher with
  | nil => exact (fed_nil h).symm
  | cons piece rest ih =>
    rw [List.foldl_cons, update_eq_fed h, ih (hasher.length_buffer_fed piece), fed_fed]
    rfl

/-! ### Finishing -/

/-- Zero bytes are fed until 56 bytes are left over for the first time. -/
theorem padZeros_eq {rounds count : ℕ} (h : hasher.buffer.length < kBlockBytes)
    (hcount : (hasher.buffer.length + count) % 64 = 56)
    (hfirst : ∀ k < count, (hasher.buffer.length + k) % 64 ≠ 56) (hrounds : count ≤ rounds) :
    padZeros rounds hasher = hasher.fed (List.replicate count 0) := by
  have hblock : kBlockBytes = 64 := rfl
  induction count generalizing rounds hasher with
  | zero =>
    have hdone : hasher.buffer.length = 56 := by omega
    rw [List.replicate_zero, fed_nil h]
    cases rounds with
    | zero => rfl
    | succ rounds => rw [padZeros, if_pos hdone]
  | succ count ih =>
    obtain ⟨rounds,rfl⟩ := Nat.exists_eq_succ_of_ne_zero (by omega : rounds ≠ 0)
    have hopen : hasher.buffer.length ≠ 56 := by
      have hzero := hfirst 0 (Nat.succ_pos count)
      omega
    have hlength : (hasher.fed [0x00]).buffer.length = (hasher.buffer.length + 1) % 64 := by
      unfold fed
      rw [length_rest, List.length_append, hblock]
      rfl
    rw [padZeros, if_neg hopen, update_eq_fed h, ih (length_buffer_fed _ _), fed_fed]
    · rfl
    · omega
    · intro k hk
      have hlater := hfirst (k + 1) (by omega)
      omega
    · omega

/-- The bytes of a word, from the highest. -/
theorem wordBytes_eq (w : UInt32) : wordBytes w = (LittleEndian.toBytes 4 w.toNat).reverse := by
  have hbyte : ∀ n : UInt32, n.toNat < 32 →
      (w >>> n).toUInt8 = UInt8.ofNat (w.toNat / 2 ^ n.toNat) := by
    intro n hn
    refine UInt8.toNat_inj.mp ?_
    rw [UInt32.toNat_toUInt8, UInt32.toNat_shiftRight, Nat.mod_eq_of_lt hn,
      Nat.shiftRight_eq_div_pow, UInt8.toNat_ofNat']
  have hlow : w.toUInt8 = UInt8.ofNat w.toNat := by
    refine UInt8.toNat_inj.mp ?_
    rw [UInt32.toNat_toUInt8, UInt8.toNat_ofNat']
  rw [wordBytes, hbyte 24 (by decide), hbyte 16 (by decide), hbyte 8 (by decide), hlow]
  simp [LittleEndian.toBytes, Nat.div_div_eq_div_mul]

theorem lengthBytes_eq (bits : UInt64) :
    lengthBytes bits = (LittleEndian.toBytes 8 bits.toNat).reverse := by
  have hbyte : ∀ n : UInt64, n.toNat < 64 →
      (bits >>> n).toUInt8 = UInt8.ofNat (bits.toNat / 2 ^ n.toNat) := by
    intro n hn
    refine UInt8.toNat_inj.mp ?_
    rw [UInt64.toNat_toUInt8, UInt64.toNat_shiftRight, Nat.mod_eq_of_lt hn,
      Nat.shiftRight_eq_div_pow, UInt8.toNat_ofNat']
  have hlow : bits.toUInt8 = UInt8.ofNat bits.toNat := by
    refine UInt8.toNat_inj.mp ?_
    rw [UInt64.toNat_toUInt8, UInt8.toNat_ofNat']
  rw [lengthBytes, hbyte 56 (by decide), hbyte 48 (by decide), hbyte 40 (by decide),
    hbyte 32 (by decide), hbyte 24 (by decide), hbyte 16 (by decide), hbyte 8 (by decide), hlow]
  simp [LittleEndian.toBytes, Nat.div_div_eq_div_mul]

/-- The counter of bytes gives the number of bits as the standard writes it. -/
theorem lengthBytes_count (length : ℕ) :
    lengthBytes (UInt64.ofNat length * 8) = (LittleEndian.toBytes 8 (8 * length)).reverse := by
  have hbits : (UInt64.ofNat length * 8).toNat = (8 * length) % 256 ^ 8 := by
    rw [UInt64.toNat_mul, UInt64.toNat_ofNat']
    simp [Nat.mul_comm]
  have hdigits := LittleEndian.toBytes_ofBytes (LittleEndian.toBytes 8 (8 * length))
  rw [LittleEndian.length_toBytes, LittleEndian.ofBytes_toBytes] at hdigits
  rw [lengthBytes_eq, hbits, hdigits]

theorem bytes_eq (s : Words) :
    s.bytes = (List.ofFn s.hash).flatMap (fun w => (LittleEndian.toBytes 4 w.toNat).reverse) := by
  simp only [Words.bytes, wordBytes_eq]
  simp [List.ofFn_succ, Words.hash]

/-- The blocks of a message are compressed as the standard says. -/
theorem absorb_hash (data : ByteString) :
    (absorb compress kBlockBytes initialWords data).hash =
      absorb Sha2.compress Sha2.blockBytes Sha2.initial data := by
  refine absorb_rel (R := fun s v => Words.hash s = v) ?_ initialWords_hash data
  rintro s _ block hblock rfl
  exact compress_hash s hblock

/-- The message with its closing bit and its zeros. -/
def marked (message : ByteString) : ByteString :=
  message ++ 0x80 :: List.replicate (Sha2.zeros message.length) 0

/-- Feeding the closing bit and zeros stops at the smallest number of zeros that leaves room
for just the length. -/
theorem padZeros_marked (message : ByteString) :
    padZeros kBlockBytes ((({} : Sha256).fed message).update [0x80]) =
      ({} : Sha256).fed (marked message) := by
  have hblock : kBlockBytes = 64 := rfl
  have hlength : (({} : Sha256).fed (message ++ [0x80])).buffer.length =
      (message.length + 1) % 64 := by
    unfold fed
    rw [length_rest, List.nil_append, List.length_append]
    rfl
  have hspec := Sha2.zeros_spec message.length
  have hlt := Sha2.zeros_lt message.length
  have hzeros : padZeros kBlockBytes (({} : Sha256).fed (message ++ [0x80])) =
      (({} : Sha256).fed (message ++ [0x80])).fed
        (List.replicate (Sha2.zeros message.length) 0) := by
    refine padZeros_eq (length_buffer_fed {} _) ?_ (fun k hk hdone => ?_) (by omega)
    · omega
    · have hle : Sha2.zeros message.length ≤ k := Sha2.zeros_le (by omega)
      omega
  rw [update_eq_fed (length_buffer_fed {} message), fed_fed, hzeros, fed_fed, List.append_assoc]
  rfl

/-- The length completes the last block. -/
theorem compress_length (message : ByteString) :
    compress (({} : Sha256).fed (marked message)).state
        ((({} : Sha256).fed (marked message)).buffer ++
          (LittleEndian.toBytes 8 (8 * message.length)).reverse) =
      absorb compress kBlockBytes initialWords
        (message ++ Sha2.padding message.length) := by
  have hwhole : ((({} : Sha256).fed (marked message)).buffer ++
      (LittleEndian.toBytes 8 (8 * message.length)).reverse).length = kBlockBytes := by
    have hspec := Sha2.zeros_spec message.length
    have hlength : (marked message).length = message.length + 1 + Sha2.zeros message.length := by
      simp [marked, Nat.add_assoc, Nat.add_comm]
    have hbuffer : (({} : Sha256).fed (marked message)).buffer.length = 56 := by
      unfold fed
      rw [length_rest, List.nil_append, hlength]
      exact hspec
    rw [List.length_append, hbuffer, List.length_reverse, LittleEndian.length_toBytes]
    rfl
  have hstate := congrArg Sha256.state (fed_fed {} (marked message)
    (LittleEndian.toBytes 8 (8 * message.length)).reverse)
  refine (absorb_of_length (by decide) hwhole).symm.trans (hstate.trans ?_)
  rw [marked, List.append_assoc]
  rfl

/-- The object is in its initial state again, and the digest is that of the standard. -/
theorem finish_fed (message : ByteString) :
    (({} : Sha256).fed message).finish = (Sha2.digest message,{}) := by
  have hcount : (({} : Sha256).fed message).byteCount * 8 = UInt64.ofNat message.length * 8 := by
    unfold fed
    rw [UInt64.zero_add]
  unfold finish
  simp only [padZeros_marked, hcount, lengthBytes_count, compress_length, bytes_eq, absorb_hash]
  rfl

/-- However a message is cut into pieces, its digest is the one of the standard. -/
theorem finish_update (pieces : List ByteString) :
    (pieces.foldl update {}).finish = (Sha2.digest pieces.flatten,{}) := by
  rw [foldl_update (by decide), finish_fed]

/-- The hasher is as new after a message, and the digest of the next one does not depend
on the first. -/
theorem streams_digest (pieces next : List ByteString) :
    (pieces.foldl update {}).finish = (Sha2.digest pieces.flatten,{}) ∧
      (next.foldl update (pieces.foldl update {}).finish.2).finish.1 =
        Sha2.digest next.flatten := by
  refine ⟨finish_update pieces,?_⟩
  rw [finish_update pieces, finish_update next]

end Sha256

/-- Identities are cut from standard digests. -/
theorem Digest.bytes_ofBytes (data : ByteString) :
    (Digest.ofBytes data).bytes = Sha2.digest data := by
  have hfinish := Sha256.finish_update [data]
  rw [List.flatten_cons, List.flatten_nil, List.append_nil] at hfinish
  exact congrArg Prod.fst hfinish

end PathObservatory
