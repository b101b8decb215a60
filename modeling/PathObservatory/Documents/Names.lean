import Mathlib.Data.Bool.AllAny
import PathObservatory.Domain.Topology
import PathObservatory.Domain.Observed
import PathObservatory.Json.Value

/-! # The spellings of documents

Enumerations are written by name and digests in hexadecimal. Every name that is
written is read back as the value that it names.
-/
namespace PathObservatory

section Texts

theorem toList_loop (bytes : ByteArray) (i : ℕ) (read : List UInt8) :
    ByteArray.toList.loop bytes i read = read.reverse ++ bytes.data.toList.drop i := by
  fun_induction ByteArray.toList.loop bytes i read with
  | case1 i read hlt ih =>
    have hlt : i < bytes.data.toList.length := by simpa using hlt
    have hget : bytes.get! i = bytes.data.toList[i] := by
      rw [ByteArray.get!, getElem!_pos bytes.data i (by simpa using hlt), Array.getElem_toList]
    rw [ih, List.reverse_cons, List.append_assoc, hget, List.singleton_append,
      ← List.drop_eq_getElem_cons hlt]
  | case2 i read hle =>
    rw [List.drop_eq_nil_of_le (by simpa using hle), List.append_nil]

/-- The bytes of a text are the encoding of its characters. -/
theorem bytesOf_eq (text : String) : bytesOf text = Utf8.encode text.toList := by
  rw [bytesOf, ByteArray.toList, toList_loop, String.toUTF8, ← String.utf8Encode_toList,
    List.utf8Encode, List.toList_data_toByteArray]
  rfl

theorem bytesOf_injective : Function.Injective bytesOf := by
  intro a b h
  simp only [bytesOf, ByteArray.toList, toList_loop] at h
  exact String.toByteArray_inj.mp (ByteArray.ext (Array.toList_inj.mp h))

theorem isValidUtf8_bytesOf (text : String) : Json.isValidUtf8 (bytesOf text) = true :=
  (Json.isValidUtf8_iff _).mpr ⟨text.toList,bytesOf_eq text⟩

theorem isValidUtf8_of_ascii {text : ByteString} (h : ∀ c ∈ text, c.toNat < 0x80) :
    Json.isValidUtf8 text = true := by
  induction text with
  | nil => rfl
  | cons c text ih =>
    obtain ⟨hc,htext⟩ := List.forall_mem_cons.mp h
    rw [Json.isValidUtf8_one hc, ih htext]

end Texts

namespace Documents
variable {α : Type}

/-- Look a text up among the names of an enumeration. -/
def parseName (names : List (String × α)) (message : String) (text : ByteString) : Result α :=
  match names.find? (fun entry => bytesOf entry.1 = text) with
  | some entry => .ok entry.2
  | none => .error { code := .invalidFormat, message := message, detail := Json.spell text }

theorem parseName_of_mem {names : List (String × α)} {message name : String} {a : α}
    (hdistinct : (names.map Prod.fst).Nodup) (h : (name,a) ∈ names) :
    parseName names message (bytesOf name) = .ok a := by
  have hfind : names.find? (fun entry => bytesOf entry.1 = bytesOf name) = some (name,a) := by
    induction names with
    | nil => cases h
    | cons entry names ih =>
      obtain ⟨hnew,hdistinct⟩ := List.nodup_cons.mp hdistinct
      rcases List.mem_cons.mp h with rfl | h
      · exact List.find?_cons_of_pos (decide_eq_true rfl)
      · have hne : entry.1 ≠ name := fun heq =>
          hnew (heq ▸ List.mem_map_of_mem (f := Prod.fst) h)
        rw [List.find?_cons_of_neg (by simpa using mt (@bytesOf_injective _ _) hne), ih hdistinct h]
  rw [parseName, hfind]

end Documents

namespace ProofSurface

def toString : ProofSurface → String
  | unknown => "unknown"
  | real => "real"
  | synthetic => "synthetic"
  | unsupported => "unsupported"

def names : List (String × ProofSurface) :=
  [("unknown",unknown),("real",real),("synthetic",synthetic),("unsupported",unsupported)]

end ProofSurface

namespace AuthorityClass

def toString : AuthorityClass → String
  | none => "none"
  | informational => "informational"
  | advisory => "advisory"
  | authoritative => "authoritative"

def names : List (String × AuthorityClass) :=
  [("none",none),("informational",informational),("advisory",advisory),
    ("authoritative",authoritative)]

end AuthorityClass

namespace HopLinkProvenance

def toString : HopLinkProvenance → String
  | absent => "absent"
  | observed => "observed"
  | correlated => "correlated"

def names : List (String × HopLinkProvenance) :=
  [("absent",absent),("observed",observed),("correlated",correlated)]

end HopLinkProvenance

namespace EvidenceCompleteness

def toString : EvidenceCompleteness → String
  | unknown => "unknown"
  | partial_ => "partial"
  | complete => "complete"

def names : List (String × EvidenceCompleteness) :=
  [("unknown",unknown),("partial",partial_),("complete",complete)]

end EvidenceCompleteness

namespace DeviceRole

def toString : DeviceRole → String
  | unknown => "unknown"
  | switch => "switch"
  | router => "router"
  | host => "host"
  | lineCard => "line_card"
  | appliance => "appliance"

def names : List (String × DeviceRole) :=
  [("unknown",unknown),("switch",switch),("router",router),("host",host),("line_card",lineCard),
    ("appliance",appliance)]

end DeviceRole

namespace LinkKind

def toString : LinkKind → String
  | unknown => "unknown"
  | physical => "physical"
  | logical => "logical"
  | tunnel => "tunnel"
  | lag => "lag"

def names : List (String × LinkKind) :=
  [("unknown",unknown),("physical",physical),("logical",logical),("tunnel",tunnel),("lag",lag)]

end LinkKind

namespace Documents

def parseProofSurface (text : ByteString) : Result ProofSurface :=
  parseName ProofSurface.names "unknown proof surface" text

def parseAuthorityClass (text : ByteString) : Result AuthorityClass :=
  parseName AuthorityClass.names "unknown authority class" text

def parseHopLinkProvenance (text : ByteString) : Result HopLinkProvenance :=
  parseName HopLinkProvenance.names "unknown hop link provenance" text

def parseEvidenceCompleteness (text : ByteString) : Result EvidenceCompleteness :=
  parseName EvidenceCompleteness.names "unknown evidence completeness" text

def parseDeviceRole (text : ByteString) : Result DeviceRole :=
  parseName DeviceRole.names "unknown device role" text

def parseLinkKind (text : ByteString) : Result LinkKind :=
  parseName LinkKind.names "unknown link kind" text

@[simp] theorem parseProofSurface_toString (surface : ProofSurface) :
    parseProofSurface (bytesOf surface.toString) = .ok surface :=
  parseName_of_mem (by decide) (by cases surface <;> decide)

@[simp] theorem parseAuthorityClass_toString (authority : AuthorityClass) :
    parseAuthorityClass (bytesOf authority.toString) = .ok authority :=
  parseName_of_mem (by decide) (by cases authority <;> decide)

@[simp] theorem parseHopLinkProvenance_toString (provenance : HopLinkProvenance) :
    parseHopLinkProvenance (bytesOf provenance.toString) = .ok provenance :=
  parseName_of_mem (by decide) (by cases provenance <;> decide)

@[simp] theorem parseEvidenceCompleteness_toString (completeness : EvidenceCompleteness) :
    parseEvidenceCompleteness (bytesOf completeness.toString) = .ok completeness :=
  parseName_of_mem (by decide) (by cases completeness <;> decide)

@[simp] theorem parseDeviceRole_toString (role : DeviceRole) :
    parseDeviceRole (bytesOf role.toString) = .ok role :=
  parseName_of_mem (by decide) (by cases role <;> decide)

@[simp] theorem parseLinkKind_toString (kind : LinkKind) :
    parseLinkKind (bytesOf kind.toString) = .ok kind :=
  parseName_of_mem (by decide) (by cases kind <;> decide)

end Documents

namespace Digest

/-- `parse_hex`'s `decode`. -/
def hexValue (c : UInt8) : Option UInt8 :=
  if 0x30 ≤ c ∧ c ≤ 0x39 then some (c - 0x30)
  else if 0x61 ≤ c ∧ c ≤ 0x66 then some (c - 0x61 + 10)
  else if 0x41 ≤ c ∧ c ≤ 0x46 then some (c - 0x41 + 10)
  else none

def hexPairs : ByteString → Option ByteString
  | high :: low :: rest => do
    let hi ← hexValue high
    let lo ← hexValue low
    let bytes ← hexPairs rest
    return ((hi <<< 4) ||| lo) :: bytes
  | _ => some []

theorem hexPairs_cons {high low : UInt8} {rest bytes : ByteString} :
    hexPairs (high :: low :: rest) = some bytes ↔ ∃ hi lo tail, hexValue high = some hi ∧
      hexValue low = some lo ∧ hexPairs rest = some tail ∧ ((hi <<< 4) ||| lo) :: tail = bytes := by
  simp [hexPairs, Option.bind_eq_some_iff]

theorem length_hexPairs {hex bytes : ByteString} (h : hexPairs hex = some bytes) :
    bytes.length = hex.length / 2 := by
  induction hex using hexPairs.induct generalizing bytes with
  | case1 high low rest ih =>
    obtain ⟨hi,lo,tail,-,-,htail,rfl⟩ := hexPairs_cons.mp h
    rw [List.length_cons, ih htail, List.length_cons, List.length_cons]
    omega
  | case2 hex hshort =>
    match hex, h with
    | [], h | [_], h => rw [← Option.some.inj h]; simp
    | high :: low :: rest, _ => exact absurd rfl (hshort high low rest)

def kDigestHexLength : ℕ := 64

def parseHex (hex : ByteString) : Result Digest :=
  if hlength : hex.length ≠ kDigestHexLength then
    .error { code := .invalidFormat, message := "digest must be 64 hexadecimal characters" }
  else match hbytes : hexPairs hex with
    | none =>
      .error { code := .invalidFormat, message := "digest contains a non-hexadecimal character" }
    | some bytes =>
      .ok ⟨bytes,by rw [length_hexPairs hbytes, not_not.mp hlength]; rfl⟩

def byteHex (byte : UInt8) : ByteString :=
  [JsonValue.hexDigit (byte >>> 4),JsonValue.hexDigit (byte &&& 0x0F)]

def hex (digest : Digest) : ByteString := digest.bytes.flatMap byteHex

theorem hexPairs_byteHex (byte : UInt8) (rest : ByteString) :
    hexPairs (byteHex byte ++ rest) = (hexPairs rest).map (byte :: ·) := by
  have hbyte : hexValue (JsonValue.hexDigit (byte >>> 4)) = some (byte >>> 4) ∧
      hexValue (JsonValue.hexDigit (byte &&& 0x0F)) = some (byte &&& 0x0F) ∧
      ((byte >>> 4) <<< 4) ||| (byte &&& 0x0F) = byte := by
    revert byte
    refine Json.forall_byte ?_
    decide +kernel
  obtain ⟨hhigh,hlow,heq⟩ := hbyte
  cases hrest : hexPairs rest <;> simp [byteHex, hexPairs, hhigh, hlow, heq, hrest]

theorem length_flatMap_byteHex (bytes : ByteString) :
    (bytes.flatMap byteHex).length = 2 * bytes.length := by
  induction bytes with
  | nil => rfl
  | cons byte bytes ih =>
    rw [List.flatMap_cons, List.length_append, ih, List.length_cons]
    show 2 + 2 * bytes.length = 2 * (bytes.length + 1)
    omega

theorem length_hex (digest : Digest) : digest.hex.length = kDigestHexLength := by
  rw [hex, length_flatMap_byteHex, digest.size_eq]
  rfl

/-- A digest is read back from its hexadecimal form. -/
@[simp] theorem parseHex_hex (digest : Digest) : parseHex digest.hex = .ok digest := by
  have hpairs : ∀ bytes : ByteString, hexPairs (bytes.flatMap byteHex) = some bytes := by
    intro bytes
    induction bytes with
    | nil => rfl
    | cons byte bytes ih => rw [List.flatMap_cons, hexPairs_byteHex, ih]; rfl
  rw [parseHex, dif_neg (not_not.mpr digest.length_hex)]
  split
  · next hnone => exact absurd ((hpairs digest.bytes).symm.trans hnone) (by simp)
  · next bytes hsome =>
    rw [hex, hpairs] at hsome
    obtain rfl := Option.some.inj hsome
    rfl

theorem byteHex_ascii (byte : UInt8) : ∀ c ∈ byteHex byte, c.toNat < 0x80 := by
  have hall : (byteHex byte).all (fun c => c.toNat < 0x80) = true := by
    revert byte
    refine Json.forall_byte ?_
    decide +kernel
  exact List.all_iff_forall_prop.mp hall

theorem isValidUtf8_hex (digest : Digest) : Json.isValidUtf8 digest.hex = true := by
  refine isValidUtf8_of_ascii (fun c hc => ?_)
  obtain ⟨byte,-,hbyte⟩ := List.mem_flatMap.mp hc
  exact byteHex_ascii byte c hbyte

end Digest

end PathObservatory
