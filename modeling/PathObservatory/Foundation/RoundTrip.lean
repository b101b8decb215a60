import PathObservatory.Foundation.Canonical

/-! # Round trips of the canonical primitives

Each reader primitive consumes exactly what the writer primitive of its name
appended, within the bound the reader is given.
-/
namespace PathObservatory
open ByteReader

namespace CanonicalReader

theorem reads_take (data : ByteString) : Reads (take data.length) data data := by
  intro rest
  simp [take, StateT.run]

theorem Reads.map_pure {α β : Type} {reader : CanonicalReader α} {bytes : ByteString} {a : α}
    {f : α → β} (h : Reads reader bytes a) :
    Reads (do let value ← reader; return f value : CanonicalReader β) bytes (f a) := by
  rw [← List.append_nil bytes]
  exact h.bind (Reads.pure (f a))

/-- A fixed width field is the number its digits denote. -/
theorem reads_fixed {β : Type} (width value : ℕ) (f : ℕ → β) (h : value < 256 ^ width) :
    Reads (do let cursor ← take width; return f (LittleEndian.ofBytes cursor) : CanonicalReader β)
      (LittleEndian.toBytes width value) (f value) := by
  have htake := reads_take (LittleEndian.toBytes width value)
  rw [LittleEndian.length_toBytes] at htake
  have hmap := Reads.map_pure htake (f := fun cursor => f (LittleEndian.ofBytes cursor))
  rwa [LittleEndian.ofBytes_toBytes_of_lt h] at hmap

theorem reads_u8 (value : UInt8) : Reads u8 (CanonicalWriter.u8 value) value := by
  have h := reads_fixed 1 value.toNat UInt8.ofNat value.toNat_lt
  have hbytes : LittleEndian.toBytes 1 value.toNat = CanonicalWriter.u8 value := by
    simp [LittleEndian.toBytes, CanonicalWriter.u8]
  rwa [UInt8.ofNat_toNat, hbytes] at h

theorem reads_u32 (value : UInt32) : Reads u32 (CanonicalWriter.u32 value) value := by
  have h := reads_fixed 4 value.toNat UInt32.ofNat value.toNat_lt
  rwa [UInt32.ofNat_toNat] at h

theorem reads_u64 (value : UInt64) : Reads u64 (CanonicalWriter.u64 value) value := by
  have h := reads_fixed 8 value.toNat UInt64.ofNat value.toNat_lt
  rwa [UInt64.ofNat_toNat] at h

theorem reads_i64 (value : Int64) : Reads i64 (CanonicalWriter.i64 value) value :=
  Reads.map_pure (reads_u64 value.toUInt64)

theorem reads_boolean (value : Bool) : Reads boolean (CanonicalWriter.boolean value) value := by
  rw [← List.append_nil (CanonicalWriter.boolean value)]
  refine (reads_u8 _).bind (Reads.check_bind ?_ ?_)
  · cases value <;> rfl
  · cases value <;> exact Reads.pure _

theorem reads_id {tag : IdTag} (value : StrongId tag) :
    Reads (id tag) (CanonicalWriter.id value) value :=
  Reads.map_pure (reads_u64 value.value)

/-- A length prefixed string within the bound is read back. -/
theorem reads_text {maxBytes : ℕ} (value : ByteString) (hbound : value.length ≤ maxBytes)
    (hlength : value.length < 2 ^ 32) :
    Reads (text maxBytes) (CanonicalWriter.text value) value := by
  have hnat : (UInt32.ofNat value.length).toNat = value.length := by
    simpa using Nat.mod_eq_of_lt hlength
  refine (reads_u32 _).bind (Reads.check_bind ?_ ?_)
  · simpa [hnat] using hbound
  · rw [hnat]
    exact reads_take value

theorem reads_bytes {maxBytes : ℕ} (value : ByteString) (hbound : value.length ≤ maxBytes)
    (hlength : value.length < 2 ^ 32) :
    Reads (bytes maxBytes) (CanonicalWriter.bytes value) value := by
  have hnat : (UInt32.ofNat value.length).toNat = value.length := by
    simpa using Nat.mod_eq_of_lt hlength
  refine (reads_u32 _).bind (Reads.check_bind ?_ ?_)
  · simpa [hnat] using hbound
  · rw [hnat]
    exact reads_take value

theorem reads_count {maxCount value : ℕ} (hbound : value ≤ maxCount) (hvalue : value < 2 ^ 32) :
    Reads (count maxCount) (CanonicalWriter.count value) value := by
  have hnat : (UInt32.ofNat value).toNat = value := by simpa using Nat.mod_eq_of_lt hvalue
  rw [← List.append_nil (CanonicalWriter.count value)]
  refine (reads_u32 _).bind (Reads.check_bind ?_ ?_)
  · simpa [hnat] using hbound
  · rw [hnat]
    exact Reads.pure value

theorem reads_digest (value : Digest) : Reads digest (CanonicalWriter.digest value) value := by
  have htake := reads_take value.bytes
  rw [value.size_eq] at htake
  have hmap := Reads.map_pure htake (f := digestOf)
  have hself : digestOf value.bytes = value := by
    refine Digest.ext ?_
    simp [digestOf, ← value.size_eq]
  rwa [hself] at hmap

/-- An identity keeps its sixteen bytes although it is read as a digest. -/
theorem reads_digestId {tag : DigestTag} (value : DigestId tag) :
    Reads (digestId tag) (CanonicalWriter.digestId value) value := by
  have hself : DigestId.fromDigest (digestOf value.bytes) = value := by
    refine DigestId.ext ?_
    simp [DigestId.fromDigest, digestOf, List.take_take, kDigestIdBytes, kDigestBytes,
      value.size_eq]
  rw [← List.append_nil (CanonicalWriter.digestId value)]
  refine (reads_bytes value.bytes ?_ ?_).bind (Reads.check_bind ?_ ?_)
  · simp [value.size_eq, kDigestIdBytes]
  · simp [value.size_eq, kDigestIdBytes]
  · simp [value.size_eq, kDigestIdBytes]
  · rw [hself]
    exact Reads.pure value

end CanonicalReader

end PathObservatory
