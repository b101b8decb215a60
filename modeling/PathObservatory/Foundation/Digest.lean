import PathObservatory.Foundation.Identity

/-! # Content digests and checksums

SHA-256 is embedded as the streaming object of the source: a chaining state, the
bytes of an unfinished block and a byte counter. Only the filled part of the
block buffer is represented, since nothing reads past the fill mark.
-/
namespace PathObservatory

namespace Sha256

def kSha256K : List UInt32 := [
  0x428a2f98, 0x71374491, 0xb5c0fbcf, 0xe9b5dba5, 0x3956c25b, 0x59f111f1, 0x923f82a4, 0xab1c5ed5,
  0xd807aa98, 0x12835b01, 0x243185be, 0x550c7dc3, 0x72be5d74, 0x80deb1fe, 0x9bdc06a7, 0xc19bf174,
  0xe49b69c1, 0xefbe4786, 0x0fc19dc6, 0x240ca1cc, 0x2de92c6f, 0x4a7484aa, 0x5cb0a9dc, 0x76f988da,
  0x983e5152, 0xa831c66d, 0xb00327c8, 0xbf597fc7, 0xc6e00bf3, 0xd5a79147, 0x06ca6351, 0x14292967,
  0x27b70a85, 0x2e1b2138, 0x4d2c6dfc, 0x53380d13, 0x650a7354, 0x766a0abb, 0x81c2c92e, 0x92722c85,
  0xa2bfe8a1, 0xa81a664b, 0xc24b8b70, 0xc76c51a3, 0xd192e819, 0xd6990624, 0xf40e3585, 0x106aa070,
  0x19a4c116, 0x1e376c08, 0x2748774c, 0x34b0bcb5, 0x391c0cb3, 0x4ed8aa4a, 0x5b9cca4f, 0x682e6ff3,
  0x748f82ee, 0x78a5636f, 0x84c87814, 0x8cc70208, 0x90befffa, 0xa4506ceb, 0xbef9a3f7, 0xc67178f2]

def rotr (value amount : UInt32) : UInt32 := (value >>> amount) ||| (value <<< (32 - amount))

def bigSigma0 (x : UInt32) : UInt32 := rotr x 2 ^^^ rotr x 13 ^^^ rotr x 22
def bigSigma1 (x : UInt32) : UInt32 := rotr x 6 ^^^ rotr x 11 ^^^ rotr x 25
def smallSigma0 (x : UInt32) : UInt32 := rotr x 7 ^^^ rotr x 18 ^^^ (x >>> 3)
def smallSigma1 (x : UInt32) : UInt32 := rotr x 17 ^^^ rotr x 19 ^^^ (x >>> 10)

/-- The eight working words, which are also the chaining state. -/
structure Words where
  a : UInt32
  b : UInt32
  c : UInt32
  d : UInt32
  e : UInt32
  f : UInt32
  g : UInt32
  h : UInt32
deriving DecidableEq, Repr

def initialWords : Words where
  a := 0x6a09e667
  b := 0xbb67ae85
  c := 0x3c6ef372
  d := 0xa54ff53a
  e := 0x510e527f
  f := 0x9b05688c
  g := 0x1f83d9ab
  h := 0x5be0cd19

/-- The big endian words of a block. -/
def blockWords : ByteString → List UInt32
  | b0 :: b1 :: b2 :: b3 :: rest =>
    ((b0.toUInt32 <<< 24) ||| (b1.toUInt32 <<< 16) ||| (b2.toUInt32 <<< 8) ||| b3.toUInt32)
      :: blockWords rest
  | _ => []

/-- Extend the message schedule by the given number of words. The schedule is
kept newest first, so the word `k` positions back stands at index `k - 1`. -/
def extendSchedule : ℕ → List UInt32 → List UInt32
  | 0, schedule => schedule
  | n + 1, schedule =>
    extendSchedule n ((smallSigma1 (schedule.getD 1 0) + schedule.getD 6 0 +
      smallSigma0 (schedule.getD 14 0) + schedule.getD 15 0) :: schedule)

def round (s : Words) (keyed : UInt32 × UInt32) : Words :=
  let temp1 := s.h + bigSigma1 s.e + ((s.e &&& s.f) ^^^ (~~~s.e &&& s.g)) + keyed.1 + keyed.2
  let temp2 := bigSigma0 s.a + ((s.a &&& s.b) ^^^ (s.a &&& s.c) ^^^ (s.b &&& s.c))
  { a := temp1 + temp2, b := s.a, c := s.b, d := s.c,
    e := s.d + temp1, f := s.e, g := s.f, h := s.g }

def compress (state : Words) (block : ByteString) : Words :=
  let schedule := (extendSchedule 48 (blockWords block).reverse).reverse
  let t := (kSha256K.zip schedule).foldl round state
  { a := state.a + t.a, b := state.b + t.b, c := state.c + t.c, d := state.d + t.d,
    e := state.e + t.e, f := state.f + t.f, g := state.g + t.g, h := state.h + t.h }

end Sha256

structure Sha256 where
  state : Sha256.Words := Sha256.initialWords
  buffer : ByteString := []
  byteCount : UInt64 := 0
deriving DecidableEq, Repr

namespace Sha256

def kBlockBytes : ℕ := 64

/-- Compress whole blocks straight from the input; returns the unread tail. -/
def compressBlocks : ℕ → Words → ByteString → Words × ByteString
  | 0, state, data => (state, data)
  | n + 1, state, data =>
    if kBlockBytes ≤ data.length then
      compressBlocks n (compress state (data.take kBlockBytes)) (data.drop kBlockBytes)
    else (state, data)

/-- Feed bytes to an unfinished block until it is full or the input ends. -/
def fillBuffer (hasher : Sha256) (data : ByteString) : Sha256 × ByteString :=
  if hasher.buffer = [] then (hasher, data)
  else
    let room := kBlockBytes - hasher.buffer.length
    let filled := hasher.buffer ++ data.take room
    if filled.length = kBlockBytes then
      ({ hasher with state := compress hasher.state filled, buffer := [] }, data.drop room)
    else ({ hasher with buffer := filled }, data.drop room)

def update (hasher : Sha256) (data : ByteString) : Sha256 :=
  let counted := { hasher with byteCount := hasher.byteCount + UInt64.ofNat data.length }
  let (filled, rest) := fillBuffer counted data
  let (state, tail) := compressBlocks (rest.length / kBlockBytes) filled.state rest
  { filled with state := state, buffer := filled.buffer ++ tail }

/-- Append zero bytes until the buffer holds 56 bytes. A block has 64 bytes, so
64 rounds always suffice. -/
def padZeros : ℕ → Sha256 → Sha256
  | 0, hasher => hasher
  | n + 1, hasher => if hasher.buffer.length = 56 then hasher else padZeros n (hasher.update [0x00])

/-- Big endian bytes of a 64 bit length. -/
def lengthBytes (bitLength : UInt64) : ByteString :=
  [(bitLength >>> 56).toUInt8, (bitLength >>> 48).toUInt8, (bitLength >>> 40).toUInt8,
    (bitLength >>> 32).toUInt8, (bitLength >>> 24).toUInt8, (bitLength >>> 16).toUInt8,
    (bitLength >>> 8).toUInt8, bitLength.toUInt8]

def wordBytes (word : UInt32) : ByteString :=
  [(word >>> 24).toUInt8, (word >>> 16).toUInt8, (word >>> 8).toUInt8, word.toUInt8]

def Words.bytes (s : Words) : ByteString :=
  wordBytes s.a ++ wordBytes s.b ++ wordBytes s.c ++ wordBytes s.d ++
    wordBytes s.e ++ wordBytes s.f ++ wordBytes s.g ++ wordBytes s.h

/-- Finalise the digest; the object returned is in its initial state. -/
def finish (hasher : Sha256) : ByteString × Sha256 :=
  let bitLength := hasher.byteCount * 8
  let padded := padZeros kBlockBytes (hasher.update [0x80])
  let state := compress padded.state (padded.buffer ++ lengthBytes bitLength)
  (state.bytes, {})

end Sha256

/-- The SHA-256 digest of a byte string. -/
def Digest.ofBytes (data : ByteString) : Digest where
  bytes := ((({} : Sha256).update data).finish).1
  size_eq := rfl

namespace Crc32c

def kPolynomial : UInt32 := 0x82f63b78

def shiftBit (crc : UInt32) : UInt32 :=
  if crc &&& 1 ≠ 0 then (crc >>> 1) ^^^ kPolynomial else crc >>> 1

def tableEntry (index : UInt32) : UInt32 := shiftBit^[8] index

/-- `make_crc32c_table`. -/
def table : List UInt32 := (List.range 256).map (fun i => tableEntry (UInt32.ofNat i))

def step (crc : UInt32) (byte : UInt8) : UInt32 :=
  table.getD ((crc ^^^ byte.toUInt32) &&& 0xff).toNat 0 ^^^ (crc >>> 8)

end Crc32c

def crc32c (data : ByteString) : UInt32 := data.foldl Crc32c.step 0xffffffff ^^^ 0xffffffff

end PathObservatory
