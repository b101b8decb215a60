import PathObservatory.Domain.Source
import PathObservatory.Foundation.Limits

/-! # Observed path evidence

An evidence record states what was observed, by whom, against which generation
and when. Its identity is derived from its content and excludes the receive time.
-/
namespace PathObservatory

/-- How the link identity attached to an observed hop was obtained. -/
inductive HopLinkProvenance
  | absent
  | observed
  | correlated
deriving DecidableEq, Repr, Inhabited

def HopLinkProvenance.toUInt8 : HopLinkProvenance → UInt8
  | absent => 0
  | observed => 1
  | correlated => 2

/-- How complete the observation claims to be. -/
inductive EvidenceCompleteness
  | unknown
  | partial_
  | complete
deriving DecidableEq, Repr, Inhabited

namespace EvidenceCompleteness

def toUInt8 : EvidenceCompleteness → UInt8
  | unknown => 0
  | partial_ => 1
  | complete => 2

theorem toNat_injective :
    Function.Injective (fun c : EvidenceCompleteness => c.toUInt8.toNat) := by
  intro a b h
  cases a <;> cases b <;> first | rfl | exact absurd h (by decide)

instance : LinearOrder EvidenceCompleteness :=
  LinearOrder.lift' (fun c => c.toUInt8.toNat) toNat_injective

end EvidenceCompleteness

structure ObservedHop where
  index : UInt32 := 0
  device : DeviceId := {}
  ingress : PortId := {}
  egress : PortId := {}
  link : LinkId := {}
  linkProvenance : HopLinkProvenance := .absent
  atTime : TimePoint := {}
deriving DecidableEq, Repr, Inhabited

@[ext] structure ObservedPathEvidence where
  id : EvidenceId := {}
  source : SourceId := {}
  incarnation : SourceIncarnationId := {}
  sequence : SourceSequence := {}
  surface : ProofSurface := .unknown
  authority : AuthorityClass := .none
  path : MaybeId .path := {}
  group : MaybeId .pathGroup := {}
  origin : MaybeId .device := {}
  destination : MaybeId .device := {}
  epoch : EpochId := {}
  claimedIncarnation : IncarnationId := {}
  routeGeneration : MaybeId .routeGeneration := {}
  topologyGeneration : MaybeId .topologyGeneration := {}
  revision : RevisionId := {}
  observedAt : TimePoint := {}
  receivedAt : TimePoint := {}
  hops : List ObservedHop := []
  sourceTruncated : Bool := false
  declaredCompleteness : EvidenceCompleteness := .unknown
  payloadDigest : Digest := {}
  note : ByteString := []
deriving DecidableEq, Repr, Inhabited

/-- The hop indices form a contiguous ascending run starting at zero. -/
def hopIndicesAreContiguous (hops : List ObservedHop) : Bool :=
  hops.zipIdx.all (fun entry => entry.1.index.toNat == entry.2)

namespace ObservedPathEvidence

def hopBytes (hop : ObservedHop) : ByteString :=
  CanonicalWriter.u32 hop.index ++
  CanonicalWriter.id hop.device ++
  CanonicalWriter.id hop.ingress ++
  CanonicalWriter.id hop.egress ++
  CanonicalWriter.id hop.link ++
  CanonicalWriter.u8 hop.linkProvenance.toUInt8 ++
  CanonicalWriter.i64 hop.atTime.unixNanos

/-- Canonical encoding, excluding receive time by design. -/
def writeCanonical (e : ObservedPathEvidence) : ByteString :=
  CanonicalWriter.text (bytesOf "pathobs.evidence") ++
  CanonicalWriter.id e.source ++
  CanonicalWriter.id e.incarnation ++
  CanonicalWriter.id e.sequence ++
  CanonicalWriter.u8 e.surface.toUInt8 ++
  CanonicalWriter.u8 e.authority.toUInt8 ++
  CanonicalWriter.boolean e.path.present ++
  CanonicalWriter.id e.path.value ++
  CanonicalWriter.boolean e.group.present ++
  CanonicalWriter.id e.group.value ++
  CanonicalWriter.boolean e.origin.present ++
  CanonicalWriter.id e.origin.value ++
  CanonicalWriter.boolean e.destination.present ++
  CanonicalWriter.id e.destination.value ++
  CanonicalWriter.id e.epoch ++
  CanonicalWriter.id e.claimedIncarnation ++
  CanonicalWriter.boolean e.routeGeneration.present ++
  CanonicalWriter.id e.routeGeneration.value ++
  CanonicalWriter.boolean e.topologyGeneration.present ++
  CanonicalWriter.id e.topologyGeneration.value ++
  CanonicalWriter.id e.revision ++
  CanonicalWriter.i64 e.observedAt.unixNanos ++
  CanonicalWriter.boolean e.sourceTruncated ++
  CanonicalWriter.u8 e.declaredCompleteness.toUInt8 ++
  CanonicalWriter.digest e.payloadDigest ++
  CanonicalWriter.text e.note ++
  CanonicalWriter.count e.hops.length ++
  e.hops.flatMap hopBytes

def canonicalDigest (e : ObservedPathEvidence) : Digest := Digest.ofBytes e.writeCanonical

/-- Evidence identity: a digest over the canonical encoding of the record. -/
def computeEvidenceId (e : ObservedPathEvidence) : EvidenceId :=
  DigestId.fromDigest (Digest.ofBytes e.writeCanonical)

/-- Recompute the identity from content. -/
def seal_ (e : ObservedPathEvidence) : ObservedPathEvidence := { e with id := e.computeEvidenceId }

/-- Checks on each hop, given the index of the hop before it. -/
def validateHops : Option UInt32 → List ObservedHop → Status
  | _, [] => .ok ()
  | previous, hop :: rest => do
    require hop.device.valid
      { code := .invalidIdentity, message := "observed hop has no device identity" }
    require (¬ (hop.link.valid ∧ hop.linkProvenance = .absent))
      { code := .invalidArgument,
        message := "observed hop states a link identity without saying how it was obtained" }
    require (¬ (¬ hop.link.valid ∧ hop.linkProvenance ≠ .absent))
      { code := .invalidArgument,
        message := "observed hop claims link provenance without a link identity" }
    require (previous.all (· < hop.index))
      { code := .invalidArgument, message := "observed hop indices are not strictly ascending" }
    validateHops (some hop.index) rest

def validate (e : ObservedPathEvidence) (limits : Limits) : Status := do
  require e.source.valid
    { code := .invalidIdentity, message := "evidence has no source identity" }
  require e.incarnation.valid
    { code := .invalidIdentity, message := "evidence has no source incarnation" }
  require e.sequence.valid
    { code := .invalidIdentity, message := "evidence has no source sequence" }
  require e.epoch.valid
    { code := .invalidIdentity, message := "evidence does not state an epoch" }
  require e.claimedIncarnation.valid
    { code := .invalidIdentity, message := "evidence does not state a component incarnation" }
  require e.revision.valid
    { code := .invalidIdentity, message := "evidence does not state a revision" }
  require (e.surface ≠ .unknown)
    { code := .invalidArgument, message := "evidence does not state a proof surface" }
  require (e.authority ≠ .none)
    { code := .invalidArgument, message := "evidence does not state an authority class" }
  require (e.hops.length ≤ limits.maxHopsPerPath)
    { code := .capacityExceeded, message := "evidence hop count exceeds the configured bound" }
  require (e.note.length ≤ 4096)
    { code := .outOfRange, message := "evidence note exceeds the configured bound" }
  -- A record that carries an identity must carry the one its content produces.
  require (¬ e.id.valid ∨ e.computeEvidenceId = e.id)
    { code := .integrityFailure, message := "evidence identity does not match its content",
      detail := "stated " ++ e.id.str ++ " recomputed " ++ e.computeEvidenceId.str }
  require (e.observedAt.isSet ∨ e.receivedAt.isSet)
    { code := .invalidArgument,
      message := "evidence carries neither an observation nor a receive timestamp" }
  validateHops none e.hops
  require (¬ (e.origin.present ∧ e.destination.present ∧
      e.origin.value = e.destination.value ∧ 1 < e.hops.length))
    { code := .invalidArgument,
      message := "evidence states identical origin and destination for a multi hop observation" }

theorem computeEvidenceId_seal (e : ObservedPathEvidence) :
    e.seal_.computeEvidenceId = e.seal_.id := rfl

/-- The identities computed for these records tell their contents apart, up to the
receive time. -/
def CollisionFree (records : List ObservedPathEvidence) : Prop :=
  ∀ e ∈ records, ∀ f ∈ records, e.computeEvidenceId = f.computeEvidenceId →
    { e with id := f.id, receivedAt := f.receivedAt } = f

/-- Sealed records of one identity and one receive time are one record. -/
theorem CollisionFree.eq_of_id {records : List ObservedPathEvidence} (h : CollisionFree records)
    (hs : ∀ e ∈ records, e.id = e.computeEvidenceId) {e f : ObservedPathEvidence}
    (he : e ∈ records) (hf : f ∈ records) (hid : e.id = f.id)
    (hreceived : e.receivedAt = f.receivedAt) : e = f := by
  have hcontent := h e he f hf (by rw [← hs e he, ← hs f hf, hid])
  rwa [← hid, ← hreceived] at hcontent

theorem CollisionFree.pair {e f : ObservedPathEvidence} (he : e.id = e.computeEvidenceId)
    (hf : f.id = f.computeEvidenceId) (h : e.id ≠ f.id) : CollisionFree [e,f] := by
  rw [he, hf] at h
  intro a ha b hb hid
  simp only [List.mem_cons, List.not_mem_nil, or_false] at ha hb
  rcases ha with rfl | rfl <;> rcases hb with rfl | rfl
  · rfl
  · exact absurd hid h
  · exact absurd hid.symm h
  · rfl

/-- Sealing an admissible record keeps it admissible. -/
theorem validate_seal {e : ObservedPathEvidence} {limits : Limits}
    (h : e.validate limits = .ok ()) : e.seal_.validate limits = .ok () := by
  unfold validate at h ⊢
  simp only [↓require_bind_eq_ok] at h ⊢
  obtain ⟨h1,h2,h3,h4,h5,h6,h7,h8,h9,h10,-,h12⟩ := h
  exact ⟨h1,h2,h3,h4,h5,h6,h7,h8,h9,h10,by simp [computeEvidenceId_seal],h12⟩

/-- A valid record stays valid without its identity. -/
theorem validate_clearId {e : ObservedPathEvidence} {limits : Limits}
    (h : e.validate limits = .ok ()) :
    ({ e with id := {} } : ObservedPathEvidence).validate limits = .ok () := by
  unfold validate at h ⊢
  simp only [↓require_bind_eq_ok] at h ⊢
  obtain ⟨h1,h2,h3,h4,h5,h6,h7,h8,h9,h10,-,h12⟩ := h
  exact ⟨h1,h2,h3,h4,h5,h6,h7,h8,h9,h10,by simp [DigestId.valid],h12⟩

theorem bounds_of_validate {e : ObservedPathEvidence} {limits : Limits}
    (h : e.validate limits = .ok ()) :
    e.hops.length ≤ limits.maxHopsPerPath ∧ e.note.length ≤ 4096 := by
  unfold validate at h
  simp only [↓require_bind_eq_ok, decide_eq_true_eq] at h
  exact ⟨h.2.2.2.2.2.2.2.2.1,h.2.2.2.2.2.2.2.2.2.1⟩

/-- The most complete statement this record makes about itself. -/
def claimedCompleteness (e : ObservedPathEvidence) : EvidenceCompleteness :=
  if e.sourceTruncated then .partial_ else e.declaredCompleteness

end ObservedPathEvidence

end PathObservatory
