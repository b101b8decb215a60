import PathObservatory.Domain.Divergence
import PathObservatory.Domain.Expected
import PathObservatory.Domain.Freshness
import PathObservatory.Domain.Topology

/-! # Requests, contexts and results of a comparison

The canonical encoding of a result covers everything that defines the
classification; explanations and the counts that describe the submission are left
out of it.
-/
namespace PathObservatory

structure ComparisonPolicy where
  freshness : FreshnessPolicy := {}
  requireAdvisoryOrHigher : Bool := true
  requireRealSurfaceForMatch : Bool := false
  multipathAmbiguityIsDivergence : Bool := false
  requireTopologyForMatch : Bool := true
deriving DecidableEq, Repr

def ComparisonPolicy.validate (policy : ComparisonPolicy) : Status := policy.freshness.validate

structure AuthorityState where
  epoch : EpochId := {}
  incarnation : IncarnationId := {}
  routeSource : SourceId := {}
  routeRevision : RevisionId := {}
  topologySource : SourceId := {}
  topologyRevision : RevisionId := {}
deriving DecidableEq, Repr

structure ComparisonContext where
  routes : Option RouteGeneration := none
  topology : Option TopologyGeneration := none
  topologyIndex : Option TopologyIndex := none
  sources : Option SourceRegistry := none
  authority : AuthorityState := {}
  now : TimePoint := {}

structure ComparisonRequest where
  generation : RouteGenerationId := {}
  group : MaybeId .pathGroup := {}
  path : MaybeId .path := {}
  evidence : List ObservedPathEvidence := []
  /-- The ledger of a contributing source holds an unrepaired gap. -/
  sourceSequenceGap : Bool := false
deriving DecidableEq, Repr

structure EvidenceJudgement where
  id : EvidenceId := {}
  accepted : Bool := false
  rejection : DivergenceClass := .none
  freshness : Freshness := .unknown
  surface : ProofSurface := .unknown
  authority : AuthorityClass := .none
  completeness : EvidenceCompleteness := .unknown
  classes : List DivergenceClass := []
  reason : String := ""
deriving DecidableEq, Repr

structure HopDifference where
  index : UInt32 := 0
  detail : DivergenceClass := .none
  expected : ExpectedHop := {}
  observed : ObservedHop := {}
  hasExpected : Bool := false
  hasObserved : Bool := false
deriving DecidableEq, Repr

structure ComparisonResult where
  id : ComparisonId := {}
  generation : RouteGenerationId := {}
  topology : TopologyGenerationId := {}
  group : MaybeId .pathGroup := {}
  path : MaybeId .path := {}
  matchedPath : MaybeId .path := {}
  outcome : MatchOutcome := .noExpectedState
  primary : DivergenceClass := .none
  classes : List DivergenceClass := []
  freshness : Freshness := .unknown
  completeness : EvidenceCompleteness := .unknown
  consistency : ObservationConsistency := .unknown
  surface : ProofSurface := .unknown
  multipath : Bool := false
  multipathAmbiguous : Bool := false
  evidenceOffered : ℕ := 0
  evidenceConsidered : ℕ := 0
  evidenceRejected : ℕ := 0
  duplicateEvidence : ℕ := 0
  judgements : List EvidenceJudgement := []
  differences : List HopDifference := []
  rationale : List String := []
  evaluatedAt : TimePoint := {}
deriving DecidableEq, Repr

namespace ComparisonResult

def classBytes (value : DivergenceClass) : ByteString := CanonicalWriter.u8 value.toUInt8

def judgementBytes (judgement : EvidenceJudgement) : ByteString :=
  CanonicalWriter.digestId judgement.id ++
  CanonicalWriter.boolean judgement.accepted ++
  CanonicalWriter.u8 judgement.rejection.toUInt8 ++
  CanonicalWriter.u8 judgement.freshness.toUInt8 ++
  CanonicalWriter.u8 judgement.surface.toUInt8 ++
  CanonicalWriter.u8 judgement.authority.toUInt8 ++
  CanonicalWriter.u8 judgement.completeness.toUInt8 ++
  CanonicalWriter.count judgement.classes.length ++
  judgement.classes.flatMap classBytes

def differenceBytes (difference : HopDifference) : ByteString :=
  CanonicalWriter.u32 difference.index ++
  CanonicalWriter.u8 difference.detail.toUInt8 ++
  CanonicalWriter.boolean difference.hasExpected ++
  CanonicalWriter.boolean difference.hasObserved

def writeCanonical (r : ComparisonResult) : ByteString :=
  CanonicalWriter.text (bytesOf "pathobs.comparison") ++
  CanonicalWriter.id r.generation ++
  CanonicalWriter.id r.topology ++
  CanonicalWriter.boolean r.group.present ++
  CanonicalWriter.id r.group.value ++
  CanonicalWriter.boolean r.path.present ++
  CanonicalWriter.id r.path.value ++
  CanonicalWriter.boolean r.matchedPath.present ++
  CanonicalWriter.id r.matchedPath.value ++
  CanonicalWriter.u8 r.outcome.toUInt8 ++
  CanonicalWriter.u8 r.primary.toUInt8 ++
  CanonicalWriter.count r.classes.length ++
  r.classes.flatMap classBytes ++
  CanonicalWriter.u8 r.freshness.toUInt8 ++
  CanonicalWriter.u8 r.completeness.toUInt8 ++
  CanonicalWriter.u8 r.consistency.toUInt8 ++
  CanonicalWriter.u8 r.surface.toUInt8 ++
  CanonicalWriter.boolean r.multipath ++
  CanonicalWriter.boolean r.multipathAmbiguous ++
  CanonicalWriter.u32 (UInt32.ofNat r.evidenceConsidered) ++
  CanonicalWriter.u32 (UInt32.ofNat r.evidenceRejected) ++
  CanonicalWriter.count r.judgements.length ++
  r.judgements.flatMap judgementBytes ++
  CanonicalWriter.count r.differences.length ++
  r.differences.flatMap differenceBytes ++
  CanonicalWriter.i64 r.evaluatedAt.unixNanos

def canonicalDigest (r : ComparisonResult) : Digest := Digest.ofBytes r.writeCanonical

def seal_ (r : ComparisonResult) : ComparisonResult :=
  { r with id := DigestId.fromDigest r.canonicalDigest }

/-- The result without the counts that describe the submission. -/
def judged (r : ComparisonResult) : ComparisonResult :=
  { r with id := {}, evidenceOffered := 0, duplicateEvidence := 0 }

end ComparisonResult

end PathObservatory
