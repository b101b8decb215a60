import PathObservatory.Domain.Observed
import PathObservatory.Library.Ranking

/-! # Expected path state

A route generation declares paths and the groups they belong to. It is sorted by
identity when it is finalised. An observed trace is compared with a declared path
position by position.
-/
namespace PathObservatory
open Ranking

structure ExpectedHop where
  id : HopId := {}
  index : UInt32 := 0
  device : DeviceId := {}
  ingress : PortId := {}
  egress : PortId := {}
  egressLink : LinkId := {}
  /-- The plan names the link used to reach the next hop. -/
  hasEgressLink : Bool := false
deriving DecidableEq, Repr, Inhabited

structure ExpectedPath where
  id : PathId := {}
  group : PathGroupId := {}
  generation : RouteGenerationId := {}
  hops : List ExpectedHop := []
  digest : Digest := {}
deriving DecidableEq, Repr, Inhabited

namespace ExpectedPath

def hopBytes (hop : ExpectedHop) : ByteString :=
  CanonicalWriter.id hop.id ++
  CanonicalWriter.u32 hop.index ++
  CanonicalWriter.id hop.device ++
  CanonicalWriter.id hop.ingress ++
  CanonicalWriter.id hop.egress ++
  CanonicalWriter.boolean hop.hasEgressLink ++
  CanonicalWriter.id hop.egressLink

def canonicalDigest (path : ExpectedPath) : Digest :=
  Digest.ofBytes (
    CanonicalWriter.text (bytesOf "pathobs.expected_path") ++
    CanonicalWriter.id path.id ++
    CanonicalWriter.id path.group ++
    CanonicalWriter.id path.generation ++
    CanonicalWriter.count path.hops.length ++
    path.hops.flatMap hopBytes)

end ExpectedPath

structure PathGroup where
  id : PathGroupId := {}
  origin : DeviceId := {}
  destination : DeviceId := {}
  label : ByteString := []
  members : List PathId := []
deriving DecidableEq, Repr, Inhabited

def PathGroup.multipath (group : PathGroup) : Bool := 1 < group.members.length

structure RouteGeneration where
  id : RouteGenerationId := {}
  epoch : EpochId := {}
  incarnation : IncarnationId := {}
  revision : RevisionId := {}
  sequence : SourceSequence := {}
  source : SourceId := {}
  topology : TopologyGenerationId := {}
  created : TimePoint := {}
  received : TimePoint := {}
  groups : List PathGroup := []
  paths : List ExpectedPath := []
  digest : Digest := {}
deriving DecidableEq, Repr, Inhabited

namespace RouteGeneration

def groupBytes (group : PathGroup) : ByteString :=
  CanonicalWriter.id group.id ++
  CanonicalWriter.id group.origin ++
  CanonicalWriter.id group.destination ++
  CanonicalWriter.text group.label ++
  CanonicalWriter.count group.members.length ++
  group.members.flatMap CanonicalWriter.id

def canonicalDigest (g : RouteGeneration) : Digest :=
  Digest.ofBytes (
    CanonicalWriter.text (bytesOf "pathobs.route_generation") ++
    CanonicalWriter.id g.id ++
    CanonicalWriter.id g.epoch ++
    CanonicalWriter.id g.incarnation ++
    CanonicalWriter.id g.revision ++
    CanonicalWriter.id g.sequence ++
    CanonicalWriter.id g.source ++
    CanonicalWriter.id g.topology ++
    CanonicalWriter.i64 g.created.unixNanos ++
    CanonicalWriter.count g.groups.length ++
    g.groups.flatMap groupBytes ++
    CanonicalWriter.count g.paths.length ++
    g.paths.flatMap (fun path => CanonicalWriter.digest path.canonicalDigest))

def findPath (g : RouteGeneration) (candidate : PathId) : Option ExpectedPath :=
  lookupSorted ExpectedPath.id candidate g.paths

def findGroup (g : RouteGeneration) (candidate : PathGroupId) : Option PathGroup :=
  lookupSorted PathGroup.id candidate g.groups

/-- The first group with these endpoints, and whether several have them. -/
def findGroupByEndpoints (g : RouteGeneration) (origin destination : DeviceId) :
    Option PathGroup × Bool :=
  let matching := g.groups.filter (fun group =>
    group.origin = origin ∧ group.destination = destination)
  (matching.head?,1 < matching.length)

def checkHops (path : ExpectedPath) : ℕ → List ExpectedHop → Status
  | _, [] => .ok ()
  | position, hop :: rest => do
    require (hop.id.valid && hop.device.valid && hop.ingress.valid && hop.egress.valid)
      { code := .invalidIdentity, message := "expected hop is missing an identity",
        detail := path.id.str }
    require (hop.index.toNat = position)
      { code := .invalidArgument, message := "expected hop index does not match its position",
        detail := path.id.str }
    checkHops path (position + 1) rest

/-- Check sorted paths and stamp each with its digest. -/
def checkPaths (generation : RouteGenerationId) (limits : Limits) :
    Option PathId → List ExpectedPath → Result (List ExpectedPath)
  | _, [] => .ok []
  | previous, path :: rest => do
    require (path.id.valid && path.group.valid && path.generation.valid)
      { code := .invalidIdentity, message := "expected path is missing an identity" }
    require (path.generation = generation)
      { code := .invalidArgument,
        message := "expected path names a different route generation than its container" }
    require (previous ≠ some path.id)
      { code := .duplicateIdentity, message := "route generation contains a duplicate path" }
    require (path.hops ≠ [])
      { code := .invalidArgument, message := "expected path has no hops", detail := path.id.str }
    require (path.hops.length ≤ limits.maxHopsPerPath)
      { code := .capacityExceeded, message := "expected path exceeds the hop bound",
        detail := path.id.str }
    checkHops path 0 path.hops
    let checked ← checkPaths generation limits (some path.id) rest
    return { path with digest := path.canonicalDigest } :: checked

def checkMembers (group : PathGroup) (paths : List ExpectedPath) : List PathId → Status
  | [] => .ok ()
  | member :: rest => do
    match lookupSorted ExpectedPath.id member paths with
    | none =>
      throw { code := .unknownIdentity,
              message := "path group references a path that is not in the generation",
              detail := member.str }
    | some path =>
      require (path.group = group.id)
        { code := .invalidArgument,
          message := "path group and path disagree about group membership",
          detail := member.str }
    checkMembers group paths rest

/-- Check sorted groups; members are sorted and made unique. -/
def checkGroups (paths : List ExpectedPath) (limits : Limits) :
    Option PathGroupId → List PathGroup → Result (List PathGroup)
  | _, [] => .ok []
  | previous, group :: rest => do
    require (group.id.valid && group.origin.valid && group.destination.valid)
      { code := .invalidIdentity, message := "path group is missing an identity" }
    require (previous ≠ some group.id)
      { code := .duplicateIdentity, message := "route generation contains a duplicate group" }
    require (group.members.length ≤ limits.maxMembersPerGroup)
      { code := .capacityExceeded, message := "path group exceeds the member bound",
        detail := group.id.str }
    let members := (group.members.insertionSort (· ≤ ·)).destutter (· ≠ ·)
    require (members ≠ [])
      { code := .invalidArgument, message := "path group has no members",
        detail := group.id.str }
    checkMembers group paths members
    let checked ← checkGroups paths limits (some group.id) rest
    return { group with members := members } :: checked

/-- Validate, sort by identity and compute the content digest. -/
def finalize (g : RouteGeneration) (limits : Limits) : Result RouteGeneration := do
  require (g.id.valid && g.epoch.valid && g.incarnation.valid && g.revision.valid &&
      g.source.valid && g.topology.valid)
    { code := .invalidIdentity,
      message := "route generation is missing one of generation, epoch, incarnation, revision, " ++
        "source or topology" }
  require (g.paths.length ≤ limits.maxPathsPerGeneration)
    { code := .capacityExceeded, message := "route generation path count exceeds the bound" }
  require (g.groups.length ≤ limits.maxGroupsPerGeneration)
    { code := .capacityExceeded, message := "route generation group count exceeds the bound" }
  let paths ← checkPaths g.id limits none (g.paths.insertionSort (fun a b => a.id ≤ b.id))
  let groups ← checkGroups paths limits none (g.groups.insertionSort (fun a b => a.id ≤ b.id))
  let checked := { g with paths := paths, groups := groups }
  return { checked with digest := checked.canonicalDigest }

/-- The generation is what `finalize` returned for some plan. -/
def Finalised (g : RouteGeneration) : Prop :=
  ∃ plan limits, RouteGeneration.finalize plan limits = .ok g

end RouteGeneration

inductive TraceMatch
  | exact_
  | prefix_
  | mismatch
  | incomparable
deriving DecidableEq, Repr, Inhabited

structure TraceComparison where
  traceMatch : TraceMatch := .incomparable
  firstDifference : UInt32 := 0
  hasDifference : Bool := false
deriving DecidableEq, Repr, Inhabited

/-- The hop carries a link identity and says how it was obtained. -/
def ObservedHop.statesLink (hop : ObservedHop) : Bool :=
  hop.link.valid && hop.linkProvenance != .absent

/-- A port the observation does not report is not a difference. -/
def hopsAgree (expected : ExpectedHop) (observed : ObservedHop) : Bool :=
  expected.device = observed.device &&
  (!observed.ingress.valid || expected.ingress = observed.ingress) &&
  (!observed.egress.valid || expected.egress = observed.egress) &&
  (!(expected.hasEgressLink && observed.statesLink) || expected.egressLink = observed.link)

def compareTrace (expected : ExpectedPath) (observed : List ObservedHop) : TraceComparison :=
  if expected.hops = [] ∨ observed = [] then {}
  else
    match (expected.hops.zip observed).find? (fun pair => !hopsAgree pair.1 pair.2) with
    | some pair =>
      { traceMatch := .mismatch, firstDifference := pair.1.index, hasDifference := true }
    | none =>
      if observed.length < expected.hops.length then { traceMatch := .prefix_ }
      else { traceMatch := .exact_ }

end PathObservatory
