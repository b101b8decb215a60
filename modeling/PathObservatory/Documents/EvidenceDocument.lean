import PathObservatory.Documents.Members

/-! # Evidence documents

One record as a document, and a stream of records as one document a line.
-/
namespace PathObservatory

namespace Documents

def kEvidenceKindTag : String := "pathobs.evidence"

def observedHopJson (hop : ObservedHop) : JsonValue :=
  let object := JsonValue.object []
  let object := setU64 object "index" hop.index.toUInt64
  let object := setU64 object "device" hop.device.value
  let object := setIf hop.ingress.valid object "ingress"
    (JsonValue.makeNumberUnsigned hop.ingress.value)
  let object := setIf hop.egress.valid object "egress"
    (JsonValue.makeNumberUnsigned hop.egress.value)
  let object := setIf hop.link.valid object "link" (JsonValue.makeNumberUnsigned hop.link.value)
  let object := setString object "link_provenance" (bytesOf hop.linkProvenance.toString)
  setIf hop.atTime.isSet object "at" (.string hop.atTime.toRfc3339)

/-- An identity that is written only when it is present. -/
@[simp] def setId {tag : IdTag} (object : JsonValue) (key : String) (id : MaybeId tag) : JsonValue :=
  setIf id.present object key (JsonValue.makeNumberUnsigned id.value.value)

def evidenceJson (value : ObservedPathEvidence) : JsonValue :=
  let object := JsonValue.object []
  let object := setString object "kind" (bytesOf kEvidenceKindTag)
  let object := setString object "id" (bytesOf value.id.str)
  let object := setU64 object "source" value.source.value
  let object := setU64 object "incarnation" value.incarnation.value
  let object := setU64 object "sequence" value.sequence.value
  let object := setString object "surface" (bytesOf value.surface.toString)
  let object := setString object "authority" (bytesOf value.authority.toString)
  let object := setU64 object "epoch" value.epoch.value
  let object := setU64 object "claimed_incarnation" value.claimedIncarnation.value
  let object := setU64 object "revision" value.revision.value
  let object := setId object "route_generation" value.routeGeneration
  let object := setId object "topology_generation" value.topologyGeneration
  let object := setId object "path" value.path
  let object := setId object "group" value.group
  let object := setId object "origin" value.origin
  let object := setId object "destination" value.destination
  let object := setTime object "observed_at" value.observedAt
  let object := setTime object "received_at" value.receivedAt
  let object := setBool object "truncated" value.sourceTruncated
  let object := setString object "completeness" (bytesOf value.declaredCompleteness.toString)
  let object := setString object "payload_digest" value.payloadDigest.hex
  let object := setString object "note" value.note
  setArray object "hops" (value.hops.map observedHopJson)

/-- `to_json`. -/
def evidenceToJson (value : ObservedPathEvidence) (pretty : Bool) : ByteString :=
  (evidenceJson value).dump pretty

/-- One hop; an index that is not stated follows the one before it. -/
def parseObservedHop (previous : Option UInt32) (item : JsonValue) : Result ObservedHop := do
  let index ← optionalU64 item "index" (previous.elim 0 (fun p => (p + 1).toUInt64))
  let device ← requireId item "device" "hop device"
  let ingress ← optionalU64 item "ingress" 0
  let egress ← optionalU64 item "egress" 0
  let link ← optionalU64 item "link" 0
  let provenance ← parseHopLinkProvenance
    (← optionalText item "link_provenance" (bytesOf "absent"))
  let atTime ← optionalTime item "at" {}
  return { index := index.toUInt32, device, ingress := ⟨ingress⟩, egress := ⟨egress⟩,
           link := ⟨link⟩, linkProvenance := provenance, atTime }

def parseObservedHops : Option UInt32 → List JsonValue → Result (List ObservedHop)
  | _, [] => return []
  | previous, item :: items => do
    let hop ← parseObservedHop previous item
    let hops ← parseObservedHops (some hop.index) items
    return hop :: hops

/-- A digest that is absent or empty is the zero digest. -/
def optionalDigest (object : JsonValue) (key : String) : Result Digest := do
  let hex ← optionalText object key []
  if hex.isEmpty then return {} else Digest.parseHex hex

/-- The record that a document states, before it is checked. -/
def readEvidence (document : JsonValue) (limits : Limits) : Result ObservedPathEvidence := do
  let source ← requireId document "source" "source"
  let incarnation ← requireId document "incarnation" "source incarnation"
  let sequence ← requireId document "sequence" "sequence"
  let surface ← parseProofSurface (← requireText document "surface")
  let authority ← parseAuthorityClass (← requireText document "authority")
  let epoch ← requireId document "epoch" "epoch"
  let claimedIncarnation ← requireId document "claimed_incarnation" "claimed incarnation"
  let revision ← requireId document "revision" "revision"
  let routeGeneration ← optionalId document "route_generation"
  let topologyGeneration ← optionalId document "topology_generation"
  let path ← optionalId document "path"
  let group ← optionalId document "group"
  let origin ← optionalDevice document "origin"
  let destination ← optionalDevice document "destination"
  let observedAt ← optionalTime document "observed_at" {}
  let receivedAt ← optionalTime document "received_at" observedAt
  let sourceTruncated ← optionalBoolean document "truncated" false
  let declaredCompleteness ← parseEvidenceCompleteness
    (← optionalText document "completeness" (bytesOf "unknown"))
  let payloadDigest ← optionalDigest document "payload_digest"
  let note ← optionalText document "note" []
  let items ← optionalItems document "hops" limits.maxHopsPerPath "hops must be an array"
    "hop list exceeds the configured bound"
  let hops ← parseObservedHops none items
  return { source, incarnation, sequence, surface, authority, path, group, origin, destination,
           epoch, claimedIncarnation, routeGeneration, topologyGeneration, revision, observedAt,
           receivedAt, hops, sourceTruncated, declaredCompleteness, payloadDigest, note }

def parseEvidence (text : ByteString) (limits : Limits) : Result ObservedPathEvidence := do
  let document ← JsonValue.parse text limits
  checkKind document kEvidenceKindTag
  let evidence ← readEvidence document limits
  evidence.validate limits
  return evidence.seal_

/-- A line without the white space around it; a return counts only at its end. -/
def trimLine (line : ByteString) : ByteString :=
  (line.rdropWhile (fun c => c = 0x0D || c = 0x20 || c = 0x09)).dropWhile
    (fun c => c = 0x20 || c = 0x09)

/-- The lines that are left, with the number of lines and the records before
them. Every line takes a byte of the text, which bounds the rounds. -/
def evidenceLines (limits : Limits) :
    ℕ → ℕ → List ObservedPathEvidence → ByteString → Result (List ObservedPathEvidence)
  | 0, _, out, _ => return out
  | fuel + 1, lineNumber, out, text =>
    if text.isEmpty then return out
    else
      let line := trimLine (text.takeWhile (· ≠ 0x0A))
      let rest := (text.dropWhile (· ≠ 0x0A)).drop 1
      if line.isEmpty || line.head? = some 0x23 then
        evidenceLines limits fuel (lineNumber + 1) out rest
      else match parseEvidence line limits with
        | .error error =>
          throw { error with message := "evidence line " ++ toString (lineNumber + 1) ++ ": " ++
                    error.message }
        | .ok evidence =>
          let out := out ++ [evidence]
          if limits.maxEvidencePerIngestBatch < out.length then
            throw { code := .capacityExceeded,
                    message := "evidence document exceeds the ingest bound" }
          else evidenceLines limits fuel (lineNumber + 1) out rest

def parseEvidenceLines (text : ByteString) (limits : Limits) :
    Result (List ObservedPathEvidence) :=
  evidenceLines limits text.length 0 [] text

end Documents

end PathObservatory
