import PathObservatory.Runtime.Finding

/-! # Canonical record encoding

One encoder and one decoder serve the store and the wire. Decoding recomputes
every content derived identity and refuses a record whose identity does not match
its bytes. Expected state is encoded but never read back from a store.
-/
namespace PathObservatory

/-- A judgement as its encoding carries it; the decoder takes any byte for a
class or a grade. -/
structure StoredJudgement where
  id : EvidenceId := {}
  accepted : Bool := false
  rejection : UInt8 := 0
  freshness : UInt8 := 0
  surface : UInt8 := 0
  authority : UInt8 := 0
  completeness : UInt8 := 0
  classes : List UInt8 := []
deriving DecidableEq, Repr

structure StoredDifference where
  index : UInt32 := 0
  detail : UInt8 := 0
  hasExpected : Bool := false
  hasObserved : Bool := false
deriving DecidableEq, Repr

/-- A comparison as its encoding carries it: what the identity covers, with the
unchecked enumerations as their underlying values. -/
structure StoredComparison where
  id : ComparisonId := {}
  generation : RouteGenerationId := {}
  topology : TopologyGenerationId := {}
  group : MaybeId .pathGroup := {}
  path : MaybeId .path := {}
  matchedPath : MaybeId .path := {}
  outcome : MatchOutcome := .noExpectedState
  primary : UInt8 := 0
  classes : List UInt8 := []
  freshness : UInt8 := 0
  completeness : UInt8 := 0
  consistency : UInt8 := 0
  surface : UInt8 := 0
  multipath : Bool := false
  multipathAmbiguous : Bool := false
  evidenceConsidered : UInt32 := 0
  evidenceRejected : UInt32 := 0
  judgements : List StoredJudgement := []
  differences : List StoredDifference := []
  evaluatedAt : TimePoint := {}
deriving DecidableEq, Repr

def EvidenceJudgement.stored (j : EvidenceJudgement) : StoredJudgement where
  id := j.id
  accepted := j.accepted
  rejection := j.rejection.toUInt8
  freshness := j.freshness.toUInt8
  surface := j.surface.toUInt8
  authority := j.authority.toUInt8
  completeness := j.completeness.toUInt8
  classes := j.classes.map (·.toUInt8)

def HopDifference.stored (d : HopDifference) : StoredDifference where
  index := d.index
  detail := d.detail.toUInt8
  hasExpected := d.hasExpected
  hasObserved := d.hasObserved

def ComparisonResult.stored (r : ComparisonResult) : StoredComparison where
  id := r.id
  generation := r.generation
  topology := r.topology
  group := r.group
  path := r.path
  matchedPath := r.matchedPath
  outcome := r.outcome
  primary := r.primary.toUInt8
  classes := r.classes.map (·.toUInt8)
  freshness := r.freshness.toUInt8
  completeness := r.completeness.toUInt8
  consistency := r.consistency.toUInt8
  surface := r.surface.toUInt8
  multipath := r.multipath
  multipathAmbiguous := r.multipathAmbiguous
  evidenceConsidered := UInt32.ofNat r.evidenceConsidered
  evidenceRejected := UInt32.ofNat r.evidenceRejected
  judgements := r.judgements.map (·.stored)
  differences := r.differences.map (·.stored)
  evaluatedAt := r.evaluatedAt

def maybeBytes {tag : IdTag} (value : MaybeId tag) : ByteString :=
  CanonicalWriter.boolean value.present ++ CanonicalWriter.id value.value

def StoredJudgement.bytes (j : StoredJudgement) : ByteString :=
  CanonicalWriter.digestId j.id ++
  CanonicalWriter.boolean j.accepted ++
  CanonicalWriter.u8 j.rejection ++
  CanonicalWriter.u8 j.freshness ++
  CanonicalWriter.u8 j.surface ++
  CanonicalWriter.u8 j.authority ++
  CanonicalWriter.u8 j.completeness ++
  CanonicalWriter.count j.classes.length ++
  j.classes.flatMap CanonicalWriter.u8

def StoredDifference.bytes (d : StoredDifference) : ByteString :=
  CanonicalWriter.u32 d.index ++
  CanonicalWriter.u8 d.detail ++
  CanonicalWriter.boolean d.hasExpected ++
  CanonicalWriter.boolean d.hasObserved

namespace StoredComparison

def writeCanonical (c : StoredComparison) : ByteString :=
  CanonicalWriter.text (bytesOf "pathobs.comparison") ++
  CanonicalWriter.id c.generation ++
  CanonicalWriter.id c.topology ++
  maybeBytes c.group ++
  maybeBytes c.path ++
  maybeBytes c.matchedPath ++
  CanonicalWriter.u8 c.outcome.toUInt8 ++
  CanonicalWriter.u8 c.primary ++
  CanonicalWriter.count c.classes.length ++
  c.classes.flatMap CanonicalWriter.u8 ++
  CanonicalWriter.u8 c.freshness ++
  CanonicalWriter.u8 c.completeness ++
  CanonicalWriter.u8 c.consistency ++
  CanonicalWriter.u8 c.surface ++
  CanonicalWriter.boolean c.multipath ++
  CanonicalWriter.boolean c.multipathAmbiguous ++
  CanonicalWriter.u32 c.evidenceConsidered ++
  CanonicalWriter.u32 c.evidenceRejected ++
  CanonicalWriter.count c.judgements.length ++
  c.judgements.flatMap StoredJudgement.bytes ++
  CanonicalWriter.count c.differences.length ++
  c.differences.flatMap StoredDifference.bytes ++
  CanonicalWriter.i64 c.evaluatedAt.unixNanos

def computeComparisonId (c : StoredComparison) : ComparisonId :=
  DigestId.fromDigest (Digest.ofBytes c.writeCanonical)

theorem flatMap_classBytes (classes : List DivergenceClass) :
    (classes.map (·.toUInt8)).flatMap CanonicalWriter.u8 =
      classes.flatMap ComparisonResult.classBytes := by
  rw [List.flatMap_map]
  rfl

theorem flatMap_differenceBytes (differences : List HopDifference) :
    (differences.map (·.stored)).flatMap StoredDifference.bytes =
      differences.flatMap ComparisonResult.differenceBytes := by
  rw [List.flatMap_map]
  rfl

theorem flatMap_judgementBytes (judgements : List EvidenceJudgement) :
    (judgements.map (·.stored)).flatMap StoredJudgement.bytes =
      judgements.flatMap ComparisonResult.judgementBytes := by
  rw [List.flatMap_map]
  refine List.flatMap_congr (fun j _ => ?_)
  simp only [StoredJudgement.bytes, EvidenceJudgement.stored, flatMap_classBytes, List.length_map,
    ComparisonResult.judgementBytes]

/-- The stored form keeps the canonical encoding. -/
theorem writeCanonical_stored (r : ComparisonResult) :
    r.stored.writeCanonical = r.writeCanonical := by
  unfold writeCanonical ComparisonResult.writeCanonical
  simp only [ComparisonResult.stored, flatMap_classBytes, flatMap_differenceBytes,
    flatMap_judgementBytes]
  simp only [List.length_map, maybeBytes, List.append_assoc]

end StoredComparison

namespace Codec

def encodeSource (value : SourceDescriptor) : ByteString :=
  CanonicalWriter.text (bytesOf "pathobs.record.source") ++ value.fields

def encodeTopology (value : TopologyGeneration) : ByteString :=
  CanonicalWriter.text (bytesOf "pathobs.record.topology") ++
  CanonicalWriter.id value.id ++
  CanonicalWriter.id value.epoch ++
  CanonicalWriter.id value.incarnation ++
  CanonicalWriter.id value.revision ++
  CanonicalWriter.id value.sequence ++
  CanonicalWriter.id value.source ++
  CanonicalWriter.i64 value.created.unixNanos ++
  CanonicalWriter.i64 value.received.unixNanos ++
  CanonicalWriter.count value.devices.length ++
  value.devices.flatMap TopologyGeneration.deviceBytes ++
  CanonicalWriter.count value.ports.length ++
  value.ports.flatMap TopologyGeneration.portBytes ++
  CanonicalWriter.count value.links.length ++
  value.links.flatMap TopologyGeneration.linkBytes

def pathBytes (path : ExpectedPath) : ByteString :=
  CanonicalWriter.id path.id ++
  CanonicalWriter.id path.group ++
  CanonicalWriter.id path.generation ++
  CanonicalWriter.count path.hops.length ++
  path.hops.flatMap ExpectedPath.hopBytes

def encodeRoutes (value : RouteGeneration) : ByteString :=
  CanonicalWriter.text (bytesOf "pathobs.record.routes") ++
  CanonicalWriter.id value.id ++
  CanonicalWriter.id value.epoch ++
  CanonicalWriter.id value.incarnation ++
  CanonicalWriter.id value.revision ++
  CanonicalWriter.id value.sequence ++
  CanonicalWriter.id value.source ++
  CanonicalWriter.id value.topology ++
  CanonicalWriter.i64 value.created.unixNanos ++
  CanonicalWriter.i64 value.received.unixNanos ++
  CanonicalWriter.count value.groups.length ++
  value.groups.flatMap RouteGeneration.groupBytes ++
  CanonicalWriter.count value.paths.length ++
  value.paths.flatMap pathBytes

def encodeEvidence (value : ObservedPathEvidence) : ByteString :=
  CanonicalWriter.text (bytesOf "pathobs.record.evidence") ++
  CanonicalWriter.digestId value.id ++
  CanonicalWriter.id value.source ++
  CanonicalWriter.id value.incarnation ++
  CanonicalWriter.id value.sequence ++
  CanonicalWriter.u8 value.surface.toUInt8 ++
  CanonicalWriter.u8 value.authority.toUInt8 ++
  maybeBytes value.path ++
  maybeBytes value.group ++
  maybeBytes value.origin ++
  maybeBytes value.destination ++
  CanonicalWriter.id value.epoch ++
  CanonicalWriter.id value.claimedIncarnation ++
  maybeBytes value.routeGeneration ++
  maybeBytes value.topologyGeneration ++
  CanonicalWriter.id value.revision ++
  CanonicalWriter.i64 value.observedAt.unixNanos ++
  CanonicalWriter.i64 value.receivedAt.unixNanos ++
  CanonicalWriter.boolean value.sourceTruncated ++
  CanonicalWriter.u8 value.declaredCompleteness.toUInt8 ++
  CanonicalWriter.digest value.payloadDigest ++
  CanonicalWriter.text value.note ++
  CanonicalWriter.count value.hops.length ++
  value.hops.flatMap ObservedPathEvidence.hopBytes

def encodeStoredComparison (value : StoredComparison) : ByteString :=
  CanonicalWriter.text (bytesOf "pathobs.record.comparison") ++
  CanonicalWriter.digestId value.id ++
  value.writeCanonical

def encodeComparison (value : ComparisonResult) : ByteString :=
  encodeStoredComparison value.stored

def encodeFinding (value : Finding) : ByteString :=
  CanonicalWriter.text (bytesOf "pathobs.record.finding") ++
  CanonicalWriter.digestId value.id ++
  CanonicalWriter.u8 value.cls ++
  maybeBytes value.group ++
  maybeBytes value.path ++
  CanonicalWriter.id value.generation ++
  CanonicalWriter.id value.topology ++
  CanonicalWriter.count value.evidence.length ++
  value.evidence.flatMap CanonicalWriter.digestId ++
  CanonicalWriter.count value.hopIndices.length ++
  value.hopIndices.flatMap CanonicalWriter.u32 ++
  CanonicalWriter.u8 value.status.toUInt8 ++
  CanonicalWriter.u64 value.occurrences ++
  CanonicalWriter.i64 value.firstSeen.unixNanos ++
  CanonicalWriter.i64 value.lastSeen.unixNanos ++
  CanonicalWriter.digestId value.lastComparison ++
  CanonicalWriter.text value.detail

/-- Read a tag and refuse another one with an error that may show it. -/
def readTag (tag : String) (refusal : ByteString → Error) : CanonicalReader Unit := do
  let stated ← CanonicalReader.text 64
  require (stated = bytesOf tag) (refusal stated)

def expectTag (tag message : String) : CanonicalReader Unit :=
  readTag tag fun _ => { code := .invalidFormat, message := message }

/-- The bytes of a text that need not be well formed, one character for each. -/
def shown (text : ByteString) : String := String.ofList (text.map fun byte => Char.ofNat byte.toNat)

/-- The tag in front of the body of a record; the error shows what stands there instead. -/
def expectBodyTag (tag message : String) : CanonicalReader Unit :=
  readTag tag fun stated => { code := .invalidFormat, message := message, detail := shown stated }

/-- Read an enumeration and refuse a value out of range. -/
def enumeration {α : Type} (parse : UInt8 → Option α) (message : String) : CanonicalReader α := do
  let raw ← CanonicalReader.u8
  match parse raw with
  | some value => return value
  | none => throw { code := .invalidFormat, message := message }

/-- An identity that is not present is dropped with whatever value it has. -/
def maybeStrong (tag : IdTag) : CanonicalReader (MaybeId tag) := do
  let present ← CanonicalReader.boolean
  let raw ← CanonicalReader.u64
  return if present then ⟨⟨raw⟩⟩ else {}

def sourceKind : UInt8 → Option SourceKind
  | 0 => some .unknown
  | 1 => some .routingAuthority
  | 2 => some .topologyAuthority
  | 3 => some .telemetryObserver
  | 4 => some .replayFile
  | 5 => some .testHarness
  | 6 => some .simulator
  | _ => none

def proofSurface : UInt8 → Option ProofSurface
  | 0 => some .unknown
  | 1 => some .real
  | 2 => some .synthetic
  | 3 => some .unsupported
  | _ => none

def authorityClass : UInt8 → Option AuthorityClass
  | 0 => some .none
  | 1 => some .informational
  | 2 => some .advisory
  | 3 => some .authoritative
  | _ => none

def evidenceCompleteness : UInt8 → Option EvidenceCompleteness
  | 0 => some .unknown
  | 1 => some .partial_
  | 2 => some .complete
  | _ => none

def hopLinkProvenance : UInt8 → Option HopLinkProvenance
  | 0 => some .absent
  | 1 => some .observed
  | 2 => some .correlated
  | _ => none

def matchOutcome : UInt8 → Option MatchOutcome
  | 0 => some .noExpectedState
  | 1 => some .match_
  | 2 => some .divergent
  | 3 => some .indeterminate
  | 4 => some .unsupported
  | _ => none

def findingStatus : UInt8 → Option FindingStatus
  | 0 => some .open_
  | 1 => some .acknowledged
  | 2 => some .resolved
  | _ => none

def decodeSourceDescriptor (limits : Limits) : CanonicalReader SourceDescriptor := do
  expectTag "pathobs.record.source" "record is not a source descriptor"
  let id ← CanonicalReader.id .source
  let name ← CanonicalReader.text limits.maxStringBytes
  let kind ← enumeration sourceKind "source kind is out of range"
  let surface ← enumeration proofSurface "proof surface is out of range"
  let authority ← enumeration authorityClass "authority class is out of range"
  let expectedState ← CanonicalReader.boolean
  let observedEvidence ← CanonicalReader.boolean
  let topology ← CanonicalReader.boolean
  let age ← CanonicalReader.i64
  let skew ← CanonicalReader.i64
  let value : SourceDescriptor :=
    { id := id, name := name, kind := kind, surface := surface, authority := authority,
      capabilities := { expectedState := expectedState, observedEvidence := observedEvidence,
                        topology := topology },
      maxObservationAge := age, clockSkewTolerance := skew }
  value.validate
  return value

def decodeHop : CanonicalReader ObservedHop := do
  let index ← CanonicalReader.u32
  let device ← CanonicalReader.id .device
  let ingress ← CanonicalReader.id .port
  let egress ← CanonicalReader.id .port
  let link ← CanonicalReader.id .link
  let provenance ← enumeration hopLinkProvenance "hop link provenance is out of range"
  let atTime ← CanonicalReader.i64
  return { index := index, device := device, ingress := ingress, egress := egress, link := link,
           linkProvenance := provenance, atTime := ⟨atTime⟩ }

/-- The identity is recomputed from the content; the stated one must be it. -/
def sealedEvidence (limits : Limits) (stated : EvidenceId) (value : ObservedPathEvidence) :
    Result ObservedPathEvidence := do
  value.validate limits
  require (value.computeEvidenceId = stated)
    { code := .integrityFailure, message := "evidence identity does not match its content",
      detail := "stored " ++ stated.str ++ " recomputed " ++ value.computeEvidenceId.str }
  return { value with id := stated }

def decodeEvidence (limits : Limits) : CanonicalReader ObservedPathEvidence := do
  expectTag "pathobs.record.evidence" "record is not an evidence record"
  let stored ← CanonicalReader.digestId .evidence
  let source ← CanonicalReader.id .source
  let incarnation ← CanonicalReader.id .sourceIncarnation
  let sequence ← CanonicalReader.id .sourceSequence
  let surface ← enumeration proofSurface "proof surface is out of range"
  let authority ← enumeration authorityClass "authority class is out of range"
  let path ← maybeStrong .path
  let group ← maybeStrong .pathGroup
  let origin ← maybeStrong .device
  let destination ← maybeStrong .device
  let epoch ← CanonicalReader.id .epoch
  let claimed ← CanonicalReader.id .incarnation
  let routeGeneration ← maybeStrong .routeGeneration
  let topologyGeneration ← maybeStrong .topologyGeneration
  let revision ← CanonicalReader.id .revision
  let observedAt ← CanonicalReader.i64
  let receivedAt ← CanonicalReader.i64
  let truncated ← CanonicalReader.boolean
  let completeness ← enumeration evidenceCompleteness "evidence completeness is out of range"
  let payloadDigest ← CanonicalReader.digest
  let note ← CanonicalReader.text 4096
  let hopCount ← CanonicalReader.count limits.maxHopsPerPath
  let hops ← ByteReader.many hopCount decodeHop
  sealedEvidence limits stored
    { source := source, incarnation := incarnation, sequence := sequence, surface := surface,
      authority := authority, path := path, group := group, origin := origin,
      destination := destination, epoch := epoch, claimedIncarnation := claimed,
      routeGeneration := routeGeneration, topologyGeneration := topologyGeneration,
      revision := revision, observedAt := ⟨observedAt⟩, receivedAt := ⟨receivedAt⟩, hops := hops,
      sourceTruncated := truncated, declaredCompleteness := completeness,
      payloadDigest := payloadDigest, note := note }

def decodeJudgement : CanonicalReader StoredJudgement := do
  let id ← CanonicalReader.digestId .evidence
  let accepted ← CanonicalReader.boolean
  let rejection ← CanonicalReader.u8
  let freshness ← CanonicalReader.u8
  let surface ← CanonicalReader.u8
  let authority ← CanonicalReader.u8
  let completeness ← CanonicalReader.u8
  let classCount ← CanonicalReader.count 64
  let classes ← ByteReader.many classCount CanonicalReader.u8
  return { id := id, accepted := accepted, rejection := rejection, freshness := freshness,
           surface := surface, authority := authority, completeness := completeness,
           classes := classes }

def decodeDifference : CanonicalReader StoredDifference := do
  let index ← CanonicalReader.u32
  let detail ← CanonicalReader.u8
  let hasExpected ← CanonicalReader.boolean
  let hasObserved ← CanonicalReader.boolean
  return { index := index, detail := detail, hasExpected := hasExpected,
           hasObserved := hasObserved }

def sealedComparison (stated : ComparisonId) (value : StoredComparison) :
    Result StoredComparison := do
  require (value.computeComparisonId = stated)
    { code := .integrityFailure, message := "comparison identity does not match its content",
      detail := "stored " ++ stated.str ++ " recomputed " ++ value.computeComparisonId.str }
  return { value with id := stated }

def decodeComparison (limits : Limits) : CanonicalReader StoredComparison := do
  expectTag "pathobs.record.comparison" "record is not a comparison"
  let stored ← CanonicalReader.digestId .comparison
  expectBodyTag "pathobs.comparison" "comparison body tag does not match"
  let generation ← CanonicalReader.id .routeGeneration
  let topology ← CanonicalReader.id .topologyGeneration
  let group ← maybeStrong .pathGroup
  let path ← maybeStrong .path
  let matchedPath ← maybeStrong .path
  let outcome ← enumeration matchOutcome "match outcome is out of range"
  let primary ← CanonicalReader.u8
  let classCount ← CanonicalReader.count 64
  let classes ← ByteReader.many classCount CanonicalReader.u8
  let freshness ← CanonicalReader.u8
  let completeness ← CanonicalReader.u8
  let consistency ← CanonicalReader.u8
  let surface ← CanonicalReader.u8
  let multipath ← CanonicalReader.boolean
  let multipathAmbiguous ← CanonicalReader.boolean
  let considered ← CanonicalReader.u32
  let rejected ← CanonicalReader.u32
  let judgementCount ← CanonicalReader.count limits.maxEvidencePerComparison
  let judgements ← ByteReader.many judgementCount decodeJudgement
  let differenceCount ← CanonicalReader.count limits.maxHopsPerPath
  let differences ← ByteReader.many differenceCount decodeDifference
  let evaluatedAt ← CanonicalReader.i64
  sealedComparison stored
    { generation := generation, topology := topology, group := group, path := path,
      matchedPath := matchedPath, outcome := outcome, primary := primary, classes := classes,
      freshness := freshness, completeness := completeness, consistency := consistency,
      surface := surface, multipath := multipath, multipathAmbiguous := multipathAmbiguous,
      evidenceConsidered := considered, evidenceRejected := rejected, judgements := judgements,
      differences := differences, evaluatedAt := ⟨evaluatedAt⟩ }

def sealedFinding (stated : FindingId) (value : Finding) : Result Finding := do
  require (value.computeFindingId = stated)
    { code := .integrityFailure, message := "finding identity does not match its content",
      detail := "stored " ++ stated.str ++ " recomputed " ++ value.computeFindingId.str }
  return { value with id := stated }

def decodeFinding (limits : Limits) : CanonicalReader Finding := do
  expectTag "pathobs.record.finding" "record is not a finding"
  let stored ← CanonicalReader.digestId .finding
  let cls ← CanonicalReader.u8
  let group ← maybeStrong .pathGroup
  let path ← maybeStrong .path
  let generation ← CanonicalReader.id .routeGeneration
  let topology ← CanonicalReader.id .topologyGeneration
  let evidenceCount ← CanonicalReader.count limits.maxFindingEvidence
  let evidence ← ByteReader.many evidenceCount (CanonicalReader.digestId .evidence)
  let hopCount ← CanonicalReader.count limits.maxHopsPerPath
  let hopIndices ← ByteReader.many hopCount CanonicalReader.u32
  let status ← enumeration findingStatus "finding status is out of range"
  let occurrences ← CanonicalReader.u64
  let firstSeen ← CanonicalReader.i64
  let lastSeen ← CanonicalReader.i64
  let lastComparison ← CanonicalReader.digestId .comparison
  let detail ← CanonicalReader.text limits.maxStringBytes
  sealedFinding stored
    { cls := cls, group := group, path := path, generation := generation, topology := topology,
      evidence := evidence, hopIndices := hopIndices, status := status,
      occurrences := occurrences, firstSeen := ⟨firstSeen⟩, lastSeen := ⟨lastSeen⟩,
      lastComparison := lastComparison, detail := detail }

/-- Decode a complete payload, refusing trailing bytes. -/
def decodeExact {α : Type} (reader : CanonicalReader α) (payload : ByteString) : Result α := do
  let (value,rest) ← reader.run payload
  let _ ← CanonicalReader.expectEnd.run rest
  return value

end Codec

end PathObservatory
