import Mathlib.Data.List.Lex
import Mathlib.Order.Lattice
import Mathlib.Order.Compare

/-! # Strongly typed identities

Allocated identities are 64 bit values with a phantom tag, zero being the value
that names nothing. Content derived identities are the first sixteen bytes of a
digest and compare as byte strings.
-/
namespace PathObservatory

abbrev ByteString := List UInt8

/-- The bytes of a text literal. -/
def bytesOf (text : String) : ByteString := text.toUTF8.toList

inductive IdTag
  | source
  | sourceIncarnation
  | device
  | port
  | link
  | path
  | hop
  | pathGroup
  | routeGeneration
  | topologyGeneration
  | epoch
  | incarnation
  | revision
  | sourceSequence
  | storeIncarnation
deriving DecidableEq, Repr

@[ext] structure StrongId (tag : IdTag) where
  value : UInt64 := 0
deriving DecidableEq, Repr, Inhabited

abbrev SourceId := StrongId .source
abbrev SourceIncarnationId := StrongId .sourceIncarnation
abbrev DeviceId := StrongId .device
abbrev PortId := StrongId .port
abbrev LinkId := StrongId .link
abbrev PathId := StrongId .path
abbrev HopId := StrongId .hop
abbrev PathGroupId := StrongId .pathGroup
abbrev RouteGenerationId := StrongId .routeGeneration
abbrev TopologyGenerationId := StrongId .topologyGeneration
abbrev EpochId := StrongId .epoch
abbrev IncarnationId := StrongId .incarnation
abbrev RevisionId := StrongId .revision
abbrev SourceSequence := StrongId .sourceSequence
abbrev StoreIncarnationId := StrongId .storeIncarnation

namespace StrongId
variable {tag : IdTag}

def valid (id : StrongId tag) : Bool := id.value != 0

def str (id : StrongId tag) : String := toString id.value.toNat

theorem toNat_injective : Function.Injective (fun id : StrongId tag => id.value.toNat) := by
  intro a b h
  exact StrongId.ext (UInt64.toNat_inj.mp h)

instance : LinearOrder (StrongId tag) :=
  LinearOrder.lift' (fun id => id.value.toNat) toNat_injective

instance : Std.TransCmp (compare : StrongId tag → StrongId tag → Ordering) := inferInstance

theorem lt_iff {a b : StrongId tag} : a < b ↔ a.value.toNat < b.value.toNat := Iff.rfl

end StrongId

/-- A referenced identity that may be absent; the zero identity is absence. -/
structure MaybeId (tag : IdTag) where
  value : StrongId tag := {}
deriving DecidableEq, Repr, Inhabited

namespace MaybeId
variable {tag : IdTag}

def present (id : MaybeId tag) : Bool := id.value.valid

theorem eq_absent {id : MaybeId tag} (h : ¬ id.present = true) : id = {} := by
  obtain ⟨⟨value⟩⟩ := id
  simp only [present, StrongId.valid, bne_iff_ne, ne_eq, not_not] at h
  rw [h]

end MaybeId

def kDigestBytes : ℕ := 32
def kDigestIdBytes : ℕ := 16

theorem length_zeroBytes (n : ℕ) : (List.replicate n (0 : UInt8)).length = n :=
  List.length_replicate

/-- A 256 bit content digest. -/
@[ext] structure Digest where
  bytes : ByteString := List.replicate kDigestBytes 0
  size_eq : bytes.length = kDigestBytes := by exact length_zeroBytes kDigestBytes
deriving DecidableEq, Repr

instance : Inhabited Digest := ⟨{}⟩

inductive DigestTag
  | evidence
  | comparison
  | finding
deriving DecidableEq, Repr

/-- A fixed width identity taken from the front of a digest. -/
@[ext] structure DigestId (tag : DigestTag) where
  bytes : ByteString := List.replicate kDigestIdBytes 0
  size_eq : bytes.length = kDigestIdBytes := by exact length_zeroBytes kDigestIdBytes
deriving DecidableEq, Repr

abbrev EvidenceId := DigestId .evidence
abbrev ComparisonId := DigestId .comparison
abbrev FindingId := DigestId .finding

namespace DigestId
variable {tag : DigestTag}

instance : Inhabited (DigestId tag) := ⟨{}⟩

def fromDigest (digest : Digest) : DigestId tag where
  bytes := digest.bytes.take kDigestIdBytes
  size_eq := by simp [digest.size_eq, kDigestIdBytes, kDigestBytes]

def valid (id : DigestId tag) : Bool := id.bytes.any (· != 0)

def hexDigit (nibble : UInt8) : Char :=
  if nibble < 10 then Char.ofNat ('0'.toNat + nibble.toNat)
  else Char.ofNat ('a'.toNat + (nibble.toNat - 10))

def str (id : DigestId tag) : String :=
  String.ofList (id.bytes.flatMap
    (fun byte : UInt8 => [hexDigit (byte >>> 4), hexDigit (byte &&& 0x0f)]))

theorem toNats_injective :
    Function.Injective (fun id : DigestId tag => id.bytes.map UInt8.toNat) := by
  intro a b h
  exact DigestId.ext (List.map_injective_iff.mpr (fun _ _ => UInt8.toNat_inj.mp) h)

instance : LinearOrder (DigestId tag) :=
  LinearOrder.lift' (fun id => id.bytes.map UInt8.toNat) toNats_injective

instance : Std.TransCmp (compare : DigestId tag → DigestId tag → Ordering) := inferInstance

end DigestId

end PathObservatory
