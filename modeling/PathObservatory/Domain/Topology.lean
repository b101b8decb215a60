import Mathlib.Data.Prod.Lex
import PathObservatory.Domain.Source
import PathObservatory.Foundation.Limits
import PathObservatory.Library.Ranking

/-! # Topology generations and link correlation

A generation is sorted by identity when it is finalised, and the index built from
it resolves a device and port pair to the link attached there.
-/
namespace PathObservatory
open Ranking

inductive DeviceRole
  | unknown
  | switch
  | router
  | host
  | lineCard
  | appliance
deriving DecidableEq, Repr, Inhabited

def DeviceRole.toUInt8 : DeviceRole → UInt8
  | unknown => 0
  | switch => 1
  | router => 2
  | host => 3
  | lineCard => 4
  | appliance => 5

inductive LinkKind
  | unknown
  | physical
  | logical
  | tunnel
  | lag
deriving DecidableEq, Repr, Inhabited

def LinkKind.toUInt8 : LinkKind → UInt8
  | unknown => 0
  | physical => 1
  | logical => 2
  | tunnel => 3
  | lag => 4

structure DeviceRecord where
  id : DeviceId := {}
  name : ByteString := []
  role : DeviceRole := .unknown
deriving DecidableEq, Repr, Inhabited

structure PortRecord where
  id : PortId := {}
  device : DeviceId := {}
  name : ByteString := []
  index : UInt32 := 0
deriving DecidableEq, Repr, Inhabited

structure LinkRecord where
  id : LinkId := {}
  localDevice : DeviceId := {}
  localPort : PortId := {}
  remoteDevice : DeviceId := {}
  remotePort : PortId := {}
  kind : LinkKind := .unknown
deriving DecidableEq, Repr, Inhabited

structure TopologyGeneration where
  id : TopologyGenerationId := {}
  epoch : EpochId := {}
  incarnation : IncarnationId := {}
  revision : RevisionId := {}
  sequence : SourceSequence := {}
  source : SourceId := {}
  created : TimePoint := {}
  received : TimePoint := {}
  devices : List DeviceRecord := []
  ports : List PortRecord := []
  links : List LinkRecord := []
  digest : Digest := {}
deriving DecidableEq, Repr, Inhabited

namespace TopologyGeneration

def deviceBytes (device : DeviceRecord) : ByteString :=
  CanonicalWriter.id device.id ++ CanonicalWriter.text device.name ++
  CanonicalWriter.u8 device.role.toUInt8

def portBytes (port : PortRecord) : ByteString :=
  CanonicalWriter.id port.id ++ CanonicalWriter.id port.device ++
  CanonicalWriter.text port.name ++ CanonicalWriter.u32 port.index

def linkBytes (link : LinkRecord) : ByteString :=
  CanonicalWriter.id link.id ++ CanonicalWriter.id link.localDevice ++
  CanonicalWriter.id link.localPort ++ CanonicalWriter.id link.remoteDevice ++
  CanonicalWriter.id link.remotePort ++ CanonicalWriter.u8 link.kind.toUInt8

def canonicalDigest (g : TopologyGeneration) : Digest :=
  Digest.ofBytes (
    CanonicalWriter.text (bytesOf "pathobs.topology_generation") ++
    CanonicalWriter.id g.id ++
    CanonicalWriter.id g.epoch ++
    CanonicalWriter.id g.incarnation ++
    CanonicalWriter.id g.revision ++
    CanonicalWriter.id g.sequence ++
    CanonicalWriter.id g.source ++
    CanonicalWriter.i64 g.created.unixNanos ++
    CanonicalWriter.count g.devices.length ++
    g.devices.flatMap deviceBytes ++
    CanonicalWriter.count g.ports.length ++
    g.ports.flatMap portBytes ++
    CanonicalWriter.count g.links.length ++
    g.links.flatMap linkBytes)

def checkDevices : Option DeviceId → List DeviceRecord → Status
  | _, [] => .ok ()
  | previous, device :: rest => do
    require device.id.valid
      { code := .invalidIdentity, message := "topology contains a device without identity" }
    require (previous ≠ some device.id)
      { code := .duplicateIdentity, message := "topology contains a duplicate device identity" }
    checkDevices (some device.id) rest

def checkPorts (devices : List DeviceRecord) : Option PortId → List PortRecord → Status
  | _, [] => .ok ()
  | previous, port :: rest => do
    require (port.id.valid && port.device.valid)
      { code := .invalidIdentity, message := "topology contains a port without identity" }
    require (previous ≠ some port.id)
      { code := .duplicateIdentity, message := "topology contains a duplicate port identity" }
    require (devices.any (·.id = port.device))
      { code := .unknownIdentity,
        message := "topology port references a device that is not in the generation",
        detail := port.device.str }
    checkPorts devices (some port.id) rest

def portBelongs (ports : List PortRecord) (port : PortId) (device : DeviceId) : Bool :=
  match lookupSorted PortRecord.id port ports with
  | some record => record.device = device
  | none => false

def checkLinks (ports : List PortRecord) : Option LinkId → List LinkRecord → Status
  | _, [] => .ok ()
  | previous, link :: rest => do
    require (link.id.valid && link.localDevice.valid && link.localPort.valid &&
        link.remoteDevice.valid && link.remotePort.valid)
      { code := .invalidIdentity, message := "topology contains a link without identity" }
    require (previous ≠ some link.id)
      { code := .duplicateIdentity, message := "topology contains a duplicate link identity" }
    require (portBelongs ports link.localPort link.localDevice)
      { code := .unknownIdentity,
        message := "topology link local port does not belong to the local device",
        detail := link.id.str }
    require (portBelongs ports link.remotePort link.remoteDevice)
      { code := .unknownIdentity,
        message := "topology link remote port does not belong to the remote device",
        detail := link.id.str }
    checkLinks ports (some link.id) rest

/-- Validate, sort by identity and compute the content digest. -/
def finalize (g : TopologyGeneration) (limits : Limits) : Result TopologyGeneration := do
  require (g.id.valid && g.epoch.valid && g.incarnation.valid && g.revision.valid &&
      g.source.valid)
    { code := .invalidIdentity,
      message := "topology generation is missing one of generation, epoch, incarnation, " ++
        "revision or source" }
  require (g.devices.length ≤ limits.maxDevicesPerTopology)
    { code := .capacityExceeded, message := "topology device count exceeds the configured bound" }
  require (g.links.length ≤ limits.maxLinksPerTopology)
    { code := .capacityExceeded, message := "topology link count exceeds the configured bound" }
  require (g.ports.length ≤ limits.maxLinksPerTopology * 2)
    { code := .capacityExceeded, message := "topology port count exceeds the configured bound" }
  let devices := g.devices.insertionSort (fun a b => a.id ≤ b.id)
  let ports := g.ports.insertionSort (fun a b => a.id ≤ b.id)
  let links := g.links.insertionSort (fun a b => a.id ≤ b.id)
  checkDevices none devices
  checkPorts devices none ports
  checkLinks ports none links
  let sorted := { g with devices := devices, ports := ports, links := links }
  return { sorted with digest := sorted.canonicalDigest }

def findDevice (g : TopologyGeneration) (candidate : DeviceId) : Option DeviceRecord :=
  lookupSorted DeviceRecord.id candidate g.devices

def findPort (g : TopologyGeneration) (candidate : PortId) : Option PortRecord :=
  lookupSorted PortRecord.id candidate g.ports

def findLink (g : TopologyGeneration) (candidate : LinkId) : Option LinkRecord :=
  lookupSorted LinkRecord.id candidate g.links

end TopologyGeneration

@[ext] structure HopEndpoint where
  device : DeviceId := {}
  port : PortId := {}
deriving DecidableEq, Repr, Inhabited

namespace HopEndpoint

theorem toLex_injective :
    Function.Injective (fun e : HopEndpoint => toLex (e.device,e.port)) := by
  intro a b h
  have hpair : (a.device,a.port) = (b.device,b.port) := toLex.injective h
  exact HopEndpoint.ext (congrArg Prod.fst hpair) (congrArg Prod.snd hpair)

instance : LinearOrder HopEndpoint :=
  LinearOrder.lift' (fun e => toLex (e.device,e.port)) toLex_injective

end HopEndpoint

structure LinkResolution where
  link : LinkId := {}
  known : Bool := false
  ambiguous : Bool := false
  candidates : ℕ := 0
deriving DecidableEq, Repr, Inhabited

/-- The links of a generation by the endpoints they attach to. -/
structure TopologyIndex where
  generation : Option TopologyGeneration := none
  linksByEndpoint : OrderedMap HopEndpoint (List LinkId) := ∅

namespace TopologyIndex

def valid (index : TopologyIndex) : Bool := index.generation.isSome

def addLink (endpoints : OrderedMap HopEndpoint (List LinkId)) (endpoint : HopEndpoint)
    (link : LinkId) : OrderedMap HopEndpoint (List LinkId) :=
  endpoints.insert endpoint ((endpoints[endpoint]?).getD [] ++ [link])

/-- A link is usable from both of its ends. -/
def addLinkRecord (endpoints : OrderedMap HopEndpoint (List LinkId)) (link : LinkRecord) :
    OrderedMap HopEndpoint (List LinkId) :=
  addLink (addLink endpoints ⟨link.localDevice,link.localPort⟩ link.id)
    ⟨link.remoteDevice,link.remotePort⟩ link.id

def sortUnique (candidates : List LinkId) : List LinkId :=
  (candidates.insertionSort (· ≤ ·)).destutter (· ≠ ·)

def build (generation : TopologyGeneration) (limits : Limits) : Result TopologyIndex := do
  require (generation.devices.length ≤ limits.maxDevicesPerTopology &&
      generation.links.length ≤ limits.maxLinksPerTopology)
    { code := .capacityExceeded, message := "topology index would exceed the configured bound" }
  let endpoints := generation.links.foldl addLinkRecord ∅
  return { generation := some generation,
           linksByEndpoint := endpoints.map (fun _ candidates => sortUnique candidates) }

/-- A port that is unknown, or that appears in more than one link, resolves to
nothing known. -/
def resolveLink (index : TopologyIndex) (device : DeviceId) (port : PortId) :
    Result LinkResolution := do
  require index.valid
    { code := .invalidState, message := "link correlation requested without a topology index" }
  match index.linksByEndpoint[(⟨device,port⟩ : HopEndpoint)]? with
  | none => return {}
  | some [link] => return { link := link, known := true, candidates := 1 }
  | some candidates => return { ambiguous := true, candidates := candidates.length }

end TopologyIndex

end PathObservatory
