import PathObservatory.Foundation.Canonical
import PathObservatory.Foundation.Time
import PathObservatory.Library.OrderedMap

/-! # Observation sources and their authority

Every record names the source that produced it, and a source never gets to claim
authority it was not registered with.
-/
namespace PathObservatory

inductive SourceKind
  | unknown
  | routingAuthority
  | topologyAuthority
  | telemetryObserver
  | replayFile
  | testHarness
  | simulator
deriving DecidableEq, Repr, Inhabited

def SourceKind.toUInt8 : SourceKind → UInt8
  | unknown => 0
  | routingAuthority => 1
  | topologyAuthority => 2
  | telemetryObserver => 3
  | replayFile => 4
  | testHarness => 5
  | simulator => 6

/-- Where evidence was produced; a labelling obligation. -/
inductive ProofSurface
  | unknown
  | real
  | synthetic
  | unsupported
deriving DecidableEq, Repr, Inhabited

def ProofSurface.toUInt8 : ProofSurface → UInt8
  | unknown => 0
  | real => 1
  | synthetic => 2
  | unsupported => 3

/-- How much weight a source's claim carries. -/
inductive AuthorityClass
  | none
  | informational
  | advisory
  | authoritative
deriving DecidableEq, Repr, Inhabited

namespace AuthorityClass

def toUInt8 : AuthorityClass → UInt8
  | none => 0
  | informational => 1
  | advisory => 2
  | authoritative => 3

theorem toNat_injective : Function.Injective (fun a : AuthorityClass => a.toUInt8.toNat) := by
  intro a b h
  cases a <;> cases b <;> first | rfl | exact absurd h (by decide)

instance : LinearOrder AuthorityClass :=
  LinearOrder.lift' (fun a => a.toUInt8.toNat) toNat_injective

end AuthorityClass

structure SourceCapabilities where
  expectedState : Bool := false
  observedEvidence : Bool := false
  topology : Bool := false
deriving DecidableEq, Repr, Inhabited

structure SourceDescriptor where
  id : SourceId := {}
  name : ByteString := []
  kind : SourceKind := .unknown
  surface : ProofSurface := .unknown
  authority : AuthorityClass := .none
  capabilities : SourceCapabilities := {}
  /-- Zero means the engine default. -/
  maxObservationAge : Duration := 0
  clockSkewTolerance : Duration := 0
deriving DecidableEq, Repr, Inhabited

namespace SourceDescriptor

def validate (d : SourceDescriptor) : Status := do
  require d.id.valid
    { code := .invalidIdentity, message := "source descriptor has no identity" }
  require (d.name ≠ [])
    { code := .invalidArgument, message := "source descriptor has no name" }
  require (d.name.length ≤ 256)
    { code := .outOfRange, message := "source name is too long" }
  require (d.kind ≠ .unknown)
    { code := .invalidArgument, message := "source kind must be stated" }
  require (d.surface ≠ .unknown)
    { code := .invalidArgument,
      message := "source proof surface must be stated as real, synthetic or unsupported" }
  require (d.authority ≠ .none)
    { code := .invalidArgument, message := "source authority class must be stated" }
  require (¬ ((d.capabilities.expectedState || d.capabilities.topology) ∧
      d.authority ≠ .authoritative))
    { code := .invalidArgument,
      message := "a source that publishes expected state must be authoritative" }
  require (d.capabilities.expectedState || d.capabilities.observedEvidence ||
      d.capabilities.topology)
    { code := .invalidArgument, message := "source declares no capability" }
  require (0 ≤ d.maxObservationAge)
    { code := .invalidArgument, message := "source max observation age must not be negative" }
  require (0 ≤ d.clockSkewTolerance)
    { code := .invalidArgument, message := "source clock skew tolerance must not be negative" }

/-- The fields shared by the identity digest and the stored record. -/
def fields (d : SourceDescriptor) : ByteString :=
  CanonicalWriter.id d.id ++
  CanonicalWriter.text d.name ++
  CanonicalWriter.u8 d.kind.toUInt8 ++
  CanonicalWriter.u8 d.surface.toUInt8 ++
  CanonicalWriter.u8 d.authority.toUInt8 ++
  CanonicalWriter.boolean d.capabilities.expectedState ++
  CanonicalWriter.boolean d.capabilities.observedEvidence ++
  CanonicalWriter.boolean d.capabilities.topology ++
  CanonicalWriter.i64 d.maxObservationAge ++
  CanonicalWriter.i64 d.clockSkewTolerance

def canonicalDigest (d : SourceDescriptor) : Digest :=
  Digest.ofBytes (CanonicalWriter.text (bytesOf "pathobs.source") ++ d.fields)

end SourceDescriptor

/-- Registry of the sources the runtime is allowed to trust. -/
structure SourceRegistry where
  sources : OrderedMap SourceId SourceDescriptor := ∅

namespace SourceRegistry

def contains (r : SourceRegistry) (id : SourceId) : Bool := r.sources.contains id

def find (r : SourceRegistry) (id : SourceId) : Result SourceDescriptor :=
  match r.sources[id]? with
  | some descriptor => .ok descriptor
  | none => .error { code := .unknownIdentity, message := "source is not registered",
                     detail := id.str }

/-- Registering the same descriptor again changes nothing; a different one under
a taken identity is refused. -/
def registerSource (r : SourceRegistry) (descriptor : SourceDescriptor) :
    Result SourceRegistry := do
  descriptor.validate
  match r.sources[descriptor.id]? with
  | some existing =>
    require (existing.canonicalDigest = descriptor.canonicalDigest)
      { code := .duplicateIdentity,
        message := "a different source is already registered with this identity" }
    return r
  | none => return { sources := r.sources.insert descriptor.id descriptor }

end SourceRegistry

end PathObservatory
