import PathObservatory.Foundation.Digest
import PathObservatory.Foundation.Error
import PathObservatory.Library.LittleEndian
import PathObservatory.Library.ByteReader

/-! # Canonical encoding

The writer appends fixed width little endian fields and length prefixed byte
strings; each writer primitive is the bytes it appends. The reader consumes the
same shapes with explicit bounds.
-/
namespace PathObservatory
open ByteReader

namespace CanonicalWriter

def u8 (value : UInt8) : ByteString := [value]
def boolean (value : Bool) : ByteString := u8 (if value then 1 else 0)
def u16 (value : UInt16) : ByteString := LittleEndian.toBytes 2 value.toNat
def u32 (value : UInt32) : ByteString := LittleEndian.toBytes 4 value.toNat
def u64 (value : UInt64) : ByteString := LittleEndian.toBytes 8 value.toNat
def i64 (value : Int64) : ByteString := u64 value.toUInt64

@[simp] theorem length_u16 (value : UInt16) : (u16 value).length = 2 :=
  LittleEndian.length_toBytes 2 _

@[simp] theorem length_u32 (value : UInt32) : (u32 value).length = 4 :=
  LittleEndian.length_toBytes 4 _

@[simp] theorem length_u64 (value : UInt64) : (u64 value).length = 8 :=
  LittleEndian.length_toBytes 8 _

/-- Length prefixed raw bytes. -/
def bytes (value : ByteString) : ByteString := u32 (UInt32.ofNat value.length) ++ value

def text (value : ByteString) : ByteString := u32 (UInt32.ofNat value.length) ++ value

def digest (value : Digest) : ByteString := value.bytes

def id {tag : IdTag} (value : StrongId tag) : ByteString := u64 value.value

def digestId {tag : DigestTag} (value : DigestId tag) : ByteString := bytes value.bytes

/-- Sequence element count. -/
def count (value : ℕ) : ByteString := u32 (UInt32.ofNat value)

end CanonicalWriter

/-- The unread bytes are the reader's state. -/
abbrev CanonicalReader (α : Type) := ByteReader Error α

namespace CanonicalReader

def take (count : ℕ) : CanonicalReader ByteString := fun data =>
  if data.length < count then
    .error { code := .truncatedInput, message := "canonical payload ended early",
             detail := "need " ++ toString count ++ " bytes, have " ++ toString data.length }
  else .ok (data.take count, data.drop count)

def u8 : CanonicalReader UInt8 := do
  let cursor ← take 1
  return UInt8.ofNat (LittleEndian.ofBytes cursor)

def boolean : CanonicalReader Bool := do
  let value ← u8
  require (value ≤ 1)
    { code := .invalidFormat, message := "canonical boolean is not 0 or 1" }
  return value == 1

def u16 : CanonicalReader UInt16 := do
  let cursor ← take 2
  return UInt16.ofNat (LittleEndian.ofBytes cursor)

def u32 : CanonicalReader UInt32 := do
  let cursor ← take 4
  return UInt32.ofNat (LittleEndian.ofBytes cursor)

def u64 : CanonicalReader UInt64 := do
  let cursor ← take 8
  return UInt64.ofNat (LittleEndian.ofBytes cursor)

def i64 : CanonicalReader Int64 := do
  let value ← u64
  return value.toInt64

/-- Resize a byte string to a digest: cut at 32 bytes, fill up with zeros. -/
def digestOf (raw : ByteString) : Digest where
  bytes := (raw ++ List.replicate kDigestBytes 0).take kDigestBytes
  size_eq := by simp

def digest : CanonicalReader Digest := do
  let cursor ← take kDigestBytes
  return digestOf cursor

/-- Read a length prefixed byte string, refusing a length above the bound. -/
def bytes (maxBytes : ℕ) : CanonicalReader ByteString := do
  let length ← u32
  require (length.toNat ≤ maxBytes)
    { code := .capacityExceeded, message := "canonical byte string exceeds the configured bound" }
  take length.toNat

def text (maxBytes : ℕ) : CanonicalReader ByteString := do
  let length ← u32
  require (length.toNat ≤ maxBytes)
    { code := .capacityExceeded, message := "canonical text exceeds the configured bound" }
  take length.toNat

/-- Read a sequence count, refusing a count above the bound. -/
def count (maxCount : ℕ) : CanonicalReader ℕ := do
  let value ← u32
  require (value.toNat ≤ maxCount)
    { code := .capacityExceeded,
      message := "canonical sequence count exceeds the configured bound" }
  return value.toNat

def id (tag : IdTag) : CanonicalReader (StrongId tag) := do
  let value ← u64
  return ⟨value⟩

/-- A shorter byte string is filled up with zeros before it becomes an identity. -/
def digestId (tag : DigestTag) : CanonicalReader (DigestId tag) := do
  let raw ← bytes 64
  require (raw.length ≤ 32)
    { code := .invalidFormat, message := "digest identity is too long" }
  return DigestId.fromDigest (digestOf raw)

def expectEnd : CanonicalReader Unit := fun data =>
  if data = [] then .ok ((), data)
  else .error { code := .invalidFormat, message := "canonical payload has trailing bytes",
                detail := toString data.length ++ " bytes left" }

end CanonicalReader

end PathObservatory
