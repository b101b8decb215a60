import PathObservatory.Domain.Topology
import PathObservatory.Domain.Expected

/-! # The laboratory fabric

A path group over a fabric of its own, its plan, and evidence about its first member that
can be made to diverge, to be cut short, to be out of date or to be empty.
-/
namespace PathObservatory.Synthetic

def kFirstDevice : UInt64 := 10
def kLastDevice : UInt64 := 40
def kMiddleDeviceBase : UInt64 := 100
def kDivergentDevice : UInt64 := 9999
def kLinkBase : UInt64 := 1000
def kCreationNanos : Int64 := 1767225600000000000

def deviceFor (member position hopCount : ℕ) : DeviceId :=
  if position = 0 then ⟨kFirstDevice⟩
  else if position + 1 = hopCount then ⟨kLastDevice⟩
  else ⟨kMiddleDeviceBase + UInt64.ofNat member * 100 + UInt64.ofNat position⟩

/-- Members that share a device use different ports of it. -/
def portFor (device : DeviceId) (member : ℕ) (index : UInt64) : PortId :=
  ⟨device.value * 100 + UInt64.ofNat member * 10 + index⟩

def ingressFor (device : DeviceId) (member : ℕ) : PortId := portFor device member 1

def egressFor (device : DeviceId) (member : ℕ) : PortId := portFor device member 2

def linkFor (member position : ℕ) : LinkId :=
  ⟨kLinkBase + UInt64.ofNat member * 100 + UInt64.ofNat position⟩

def divergentDeviceId : DeviceId := ⟨kDivergentDevice⟩

structure LabOptions where
  hopCount : UInt32 := 4
  multipathMembers : UInt32 := 1
  surface : ProofSurface := .synthetic
  observerAuthority : AuthorityClass := .advisory
  observerKind : SourceKind := .simulator
  planningSourceId : UInt64 := 1
  observerSourceId : UInt64 := 2
  epoch : UInt64 := 1
  incarnation : UInt64 := 3
  routeGeneration : UInt64 := 7
  topologyGeneration : UInt64 := 5
  revision : UInt64 := 12
  evidenceCount : UInt32 := 1
  firstSequence : UInt64 := 1
  evidenceAgeNanos : Int64 := 0
  diverge : Bool := false
  partial_ : Bool := false
  omitLinks : Bool := false
  staleEpoch : Bool := false
  staleRevision : Bool := false
  unknownGeneration : Bool := false
  emptyTrace : Bool := false
deriving DecidableEq, Repr

structure LabFabric where
  topology : TopologyGeneration := {}
  routes : RouteGeneration := {}
  sources : List SourceDescriptor := []
  evidence : List ObservedPathEvidence := []
  divergentDevice : DeviceId := {}
  primaryPath : PathId := {}
  group : PathGroupId := {}

namespace LabOptions
variable (options : LabOptions)

def hops : ℕ := options.hopCount.toNat

def members : ℕ := options.multipathMembers.toNat

def created : TimePoint := ⟨kCreationNanos⟩

def observed : TimePoint := ⟨kCreationNanos + options.evidenceAgeNanos⟩

/-- Stale evidence is made by moving the plan one epoch ahead of it. -/
def planEpoch : UInt64 := if options.staleEpoch then options.epoch + 1 else options.epoch

def planRevision : UInt64 :=
  if options.staleRevision then options.revision + 1 else options.revision

def planning : SourceDescriptor where
  id := ⟨options.planningSourceId⟩
  name := bytesOf "laboratory-planning-authority"
  kind := .routingAuthority
  surface := .synthetic
  authority := .authoritative
  capabilities := { expectedState := true, topology := true }

def observer : SourceDescriptor where
  id := ⟨options.observerSourceId⟩
  name := bytesOf "laboratory-observer"
  kind := options.observerKind
  surface := options.surface
  authority := options.observerAuthority
  capabilities := { observedEvidence := true }

def deviceRecord (device : DeviceId) : DeviceRecord where
  id := device
  name := bytesOf ("lab-device-" ++ device.str)
  role := .switch

def portRecord (device : DeviceId) (member : ℕ) (index : UInt64) : PortRecord where
  id := portFor device member index
  device := device
  name := bytesOf ("lab-port-" ++ toString index.toNat)
  index := index.toUInt32

def linkRecord (member position : ℕ) : LinkRecord where
  id := linkFor member position
  localDevice := deviceFor member position options.hops
  localPort := egressFor (deviceFor member position options.hops) member
  remoteDevice := deviceFor member (position + 1) options.hops
  remotePort := ingressFor (deviceFor member (position + 1) options.hops) member
  kind := .physical

/-- A device that other members use too is declared once. -/
def layDevice (g : TopologyGeneration) (device : DeviceId) : TopologyGeneration :=
  if g.devices.any (·.id = device) then g
  else { g with devices := g.devices ++ [deviceRecord device] }

def layPort (device : DeviceId) (member : ℕ) (g : TopologyGeneration) (index : UInt64) :
    TopologyGeneration :=
  if g.ports.any (·.id = portFor device member index) then g
  else { g with ports := g.ports ++ [portRecord device member index] }

/-- Lay a device of a member, its two ports and the link to the next one. -/
def layHop (member : ℕ) (g : TopologyGeneration) (position : ℕ) : TopologyGeneration :=
  let device := deviceFor member position options.hops
  let g := [1,2].foldl (layPort device member) (layDevice g device)
  if position + 1 < options.hops then
    { g with links := g.links ++ [options.linkRecord member position] }
  else g

def layMember (g : TopologyGeneration) (member : ℕ) : TopologyGeneration :=
  (List.range options.hops).foldl (options.layHop member) g

/-- The topology before it is finalised. -/
def topologyPlan : TopologyGeneration :=
  (List.range options.members).foldl options.layMember
    { id := ⟨options.topologyGeneration⟩
      epoch := ⟨options.planEpoch⟩
      incarnation := ⟨options.incarnation⟩
      revision := ⟨2⟩
      sequence := ⟨9⟩
      source := options.planning.id
      created := created
      received := created }

def groupId : PathGroupId := ⟨1⟩

def pathId (member : ℕ) : PathId := ⟨100 + UInt64.ofNat member⟩

def expectedHop (member position : ℕ) : ExpectedHop where
  id := ⟨1000 + UInt64.ofNat member * 1000 + UInt64.ofNat position⟩
  index := UInt32.ofNat position
  device := deviceFor member position options.hops
  ingress := ingressFor (deviceFor member position options.hops) member
  egress := egressFor (deviceFor member position options.hops) member
  egressLink := if position + 1 < options.hops then linkFor member position else {}
  hasEgressLink := position + 1 < options.hops

def expectedPath (member : ℕ) : ExpectedPath where
  id := pathId member
  group := groupId
  generation := ⟨options.routeGeneration⟩
  hops := (List.range options.hops).map (options.expectedHop member)

def pathGroup : PathGroup where
  id := groupId
  origin := deviceFor 0 0 options.hops
  destination := deviceFor 0 (options.hops - 1) options.hops
  label := bytesOf "laboratory path group"
  members := (List.range options.members).map pathId

/-- The plan before it is finalised. -/
def routesPlan : RouteGeneration where
  id := ⟨options.routeGeneration⟩
  epoch := ⟨options.planEpoch⟩
  incarnation := ⟨options.incarnation⟩
  revision := ⟨options.planRevision⟩
  sequence := ⟨100⟩
  source := options.planning.id
  topology := ⟨options.topologyGeneration⟩
  created := created
  received := created
  groups := [options.pathGroup]
  paths := (List.range options.members).map options.expectedPath

def observedHop (position : ℕ) : ObservedHop :=
  let device :=
    if options.diverge ∧ position = 1 ∧ 2 < options.hops then divergentDeviceId
    else deviceFor 0 position options.hops
  let hop : ObservedHop :=
    { index := UInt32.ofNat position
      device := device
      ingress := ingressFor device 0
      egress := egressFor device 0 }
  if !options.omitLinks ∧ position + 1 < options.hops ∧ !options.diverge then
    { hop with link := linkFor 0 position, linkProvenance := .observed }
  else hop

def traceLength : ℕ :=
  if options.emptyTrace then 0
  else if options.partial_ then if 1 < options.hops then options.hops - 1 else 1
  else options.hops

/-- The evidence at an index, before it is sealed. -/
def observation (index : ℕ) : ObservedPathEvidence where
  source := options.observer.id
  incarnation := ⟨7⟩
  sequence := ⟨options.firstSequence + UInt64.ofNat index⟩
  surface := options.surface
  authority := options.observerAuthority
  path := ⟨pathId 0⟩
  group := ⟨groupId⟩
  origin := ⟨options.pathGroup.origin⟩
  destination := ⟨options.pathGroup.destination⟩
  epoch := ⟨options.epoch⟩
  claimedIncarnation := ⟨options.incarnation⟩
  routeGeneration :=
    if options.unknownGeneration then ⟨⟨options.routeGeneration + 100⟩⟩
    else ⟨⟨options.routeGeneration⟩⟩
  topologyGeneration := ⟨⟨options.topologyGeneration⟩⟩
  revision := ⟨options.revision⟩
  observedAt := options.observed
  receivedAt := options.observed
  hops := (List.range options.traceLength).map options.observedHop
  sourceTruncated := options.partial_
  declaredCompleteness :=
    if options.emptyTrace then .unknown else if options.partial_ then .partial_ else .complete
  note := bytesOf "laboratory observation"

end LabOptions

def buildLabFabric (options : LabOptions) (limits : Limits) : Result LabFabric := do
  require (2 ≤ options.hops)
    { code := .invalidArgument, message := "a laboratory path needs at least two devices" }
  require (options.hops ≤ limits.maxHopsPerPath)
    { code := .outOfRange, message := "the requested hop count exceeds the configured bound" }
  require (options.members ≠ 0)
    { code := .invalidArgument, message := "a path group needs at least one member" }
  require (options.members ≤ limits.maxMembersPerGroup)
    { code := .outOfRange, message := "the requested member count exceeds the configured bound" }
  require (options.evidenceCount.toNat ≤ limits.maxEvidencePerComparison)
    { code := .outOfRange, message := "the requested evidence count exceeds the configured bound" }
  options.planning.validate
  options.observer.validate
  let topology ← options.topologyPlan.finalize limits
  let routes ← options.routesPlan.finalize limits
  return {
    topology := topology
    routes := routes
    sources := [options.planning,options.observer]
    evidence := (List.range options.evidenceCount.toNat).map (options.observation · |>.seal_)
    divergentDevice := divergentDeviceId
    primaryPath := LabOptions.pathId 0
    group := LabOptions.groupId }

end PathObservatory.Synthetic
