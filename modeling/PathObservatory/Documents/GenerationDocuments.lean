import PathObservatory.Documents.Members
import PathObservatory.Domain.Expected

/-! # Generation documents

A generation is exported with its digest; the importer does not look at the
digest and finalises what it reads.
-/
namespace PathObservatory

namespace Documents
variable {α : Type}

def kTopologyKindTag : String := "pathobs.topology_generation"
def kRoutesKindTag : String := "pathobs.route_generation"

def deviceJson (device : DeviceRecord) : JsonValue :=
  let item := JsonValue.object []
  let item := setU64 item "id" device.id.value
  let item := setString item "name" device.name
  setString item "role" (bytesOf device.role.toString)

def portJson (port : PortRecord) : JsonValue :=
  let item := JsonValue.object []
  let item := setU64 item "id" port.id.value
  let item := setU64 item "device" port.device.value
  let item := setString item "name" port.name
  setU64 item "index" port.index.toUInt64

def linkJson (link : LinkRecord) : JsonValue :=
  let item := JsonValue.object []
  let item := setU64 item "id" link.id.value
  let item := setU64 item "local_device" link.localDevice.value
  let item := setU64 item "local_port" link.localPort.value
  let item := setU64 item "remote_device" link.remoteDevice.value
  let item := setU64 item "remote_port" link.remotePort.value
  setString item "kind" (bytesOf link.kind.toString)

def topologyJson (value : TopologyGeneration) : JsonValue :=
  let object := JsonValue.object []
  let object := setString object "kind" (bytesOf kTopologyKindTag)
  let object := setU64 object "generation" value.id.value
  let object := setU64 object "epoch" value.epoch.value
  let object := setU64 object "incarnation" value.incarnation.value
  let object := setU64 object "revision" value.revision.value
  let object := setU64 object "sequence" value.sequence.value
  let object := setU64 object "source" value.source.value
  let object := setTime object "created" value.created
  let object := setTime object "received" value.received
  let object := setString object "digest" value.digest.hex
  let object := setArray object "devices" (value.devices.map deviceJson)
  let object := setArray object "ports" (value.ports.map portJson)
  setArray object "links" (value.links.map linkJson)

/-- `to_json`. -/
def topologyToJson (value : TopologyGeneration) (pretty : Bool) : ByteString :=
  (topologyJson value).dump pretty

def hopJson (hop : ExpectedHop) : JsonValue :=
  let object := JsonValue.object []
  let object := setU64 object "id" hop.id.value
  let object := setU64 object "index" hop.index.toUInt64
  let object := setU64 object "device" hop.device.value
  let object := setU64 object "ingress" hop.ingress.value
  let object := setU64 object "egress" hop.egress.value
  setIf hop.hasEgressLink object "link" (JsonValue.makeNumberUnsigned hop.egressLink.value)

def groupJson (group : PathGroup) : JsonValue :=
  let item := JsonValue.object []
  let item := setU64 item "id" group.id.value
  let item := setU64 item "origin" group.origin.value
  let item := setU64 item "destination" group.destination.value
  let item := setString item "label" group.label
  setArray item "members" (group.members.map (fun m => JsonValue.makeNumberUnsigned m.value))

def pathJson (path : ExpectedPath) : JsonValue :=
  let item := JsonValue.object []
  let item := setU64 item "id" path.id.value
  let item := setU64 item "group" path.group.value
  let item := setU64 item "generation" path.generation.value
  setArray item "hops" (path.hops.map hopJson)

def routesJson (value : RouteGeneration) : JsonValue :=
  let object := JsonValue.object []
  let object := setString object "kind" (bytesOf kRoutesKindTag)
  let object := setU64 object "generation" value.id.value
  let object := setU64 object "epoch" value.epoch.value
  let object := setU64 object "incarnation" value.incarnation.value
  let object := setU64 object "revision" value.revision.value
  let object := setU64 object "sequence" value.sequence.value
  let object := setU64 object "source" value.source.value
  let object := setU64 object "topology_generation" value.topology.value
  let object := setTime object "created" value.created
  let object := setTime object "received" value.received
  let object := setString object "digest" value.digest.hex
  let object := setArray object "groups" (value.groups.map groupJson)
  setArray object "paths" (value.paths.map pathJson)

def routesToJson (value : RouteGeneration) (pretty : Bool) : ByteString :=
  (routesJson value).dump pretty

def parseDevice (item : JsonValue) : Result DeviceRecord := do
  let id ← requireId item "id" "device"
  let name ← optionalText item "name" []
  let role ← parseDeviceRole (← optionalText item "role" (bytesOf "unknown"))
  return { id, name, role }

def parsePort (item : JsonValue) : Result PortRecord := do
  let id ← requireId item "id" "port"
  let device ← requireId item "device" "device"
  let name ← optionalText item "name" []
  let index ← optionalU64 item "index" 0
  return { id, device, name, index := index.toUInt32 }

def parseLink (item : JsonValue) : Result LinkRecord := do
  let id ← requireId item "id" "link"
  let localDevice ← requireId item "local_device" "local device"
  let localPort ← requireId item "local_port" "local port"
  let remoteDevice ← requireId item "remote_device" "remote device"
  let remotePort ← requireId item "remote_port" "remote port"
  let kind ← parseLinkKind (← optionalText item "kind" (bytesOf "unknown"))
  return { id, localDevice, localPort, remoteDevice, remotePort, kind }

/-- Read the items of an array in turn. -/
def parseItems (read : JsonValue → Result α) : List JsonValue → Result (List α)
  | [] => return []
  | item :: items => do
    let first ← read item
    let rest ← parseItems read items
    return first :: rest

/-- The generation that a document states, before it is finalised. -/
def readTopology (document : JsonValue) (limits : Limits) : Result TopologyGeneration := do
  let id ← requireId document "generation" "topology generation"
  let epoch ← requireId document "epoch" "epoch"
  let incarnation ← requireId document "incarnation" "incarnation"
  let revision ← requireId document "revision" "revision"
  let sequence ← requireId document "sequence" "sequence"
  let source ← requireId document "source" "source"
  let created ← requireTime document "created"
  let received ← optionalTime document "received" created
  let devices ← parseItems parseDevice (← optionalItems document "devices"
    limits.maxDevicesPerTopology "devices must be an array"
    "device list exceeds the configured bound")
  let ports ← parseItems parsePort (← optionalItems document "ports"
    (limits.maxLinksPerTopology * 2) "ports must be an array"
    "port list exceeds the configured bound")
  let links ← parseItems parseLink (← optionalItems document "links"
    limits.maxLinksPerTopology "links must be an array"
    "link list exceeds the configured bound")
  return { id, epoch, incarnation, revision, sequence, source, created, received, devices, ports,
           links }

def parseTopologyGeneration (text : ByteString) (limits : Limits) :
    Result TopologyGeneration := do
  let document ← JsonValue.parse text limits
  checkKind document kTopologyKindTag
  let generation ← readTopology document limits
  generation.finalize limits

def parseMember (member : JsonValue) : Result PathId := do
  require member.isNumber
    { code := .invalidFormat, message := "group member identities must be numbers" }
  toId (← member.asU64) "path"

def parseGroup (limits : Limits) (item : JsonValue) : Result PathGroup := do
  let id ← requireId item "id" "path group"
  let origin ← requireId item "origin" "origin device"
  let destination ← requireId item "destination" "destination device"
  let label ← optionalText item "label" []
  let members ← parseItems parseMember (← boundedItems (← requireMember item "members")
    limits.maxMembersPerGroup "group members must be an array"
    "group exceeds the configured member bound")
  return { id, origin, destination, label, members }

/-- One hop; an index that is not stated is its position. -/
def parseHop (expectedIndex : UInt32) (item : JsonValue) : Result ExpectedHop := do
  let id ← requireId item "id" "hop"
  let index ← optionalU64 item "index" expectedIndex.toUInt64
  let device ← requireId item "device" "hop device"
  let ingress ← requireId item "ingress" "hop ingress port"
  let egress ← requireId item "egress" "hop egress port"
  let link ← optionalU64 item "link" 0
  return { id, index := index.toUInt32, device, ingress, egress, egressLink := ⟨link⟩,
           hasEgressLink := link ≠ 0 }

def parseHops : UInt32 → List JsonValue → Result (List ExpectedHop)
  | _, [] => return []
  | expectedIndex, item :: items => do
    let hop ← parseHop expectedIndex item
    let hops ← parseHops (expectedIndex + 1) items
    return hop :: hops

def parsePath (generation : RouteGenerationId) (limits : Limits) (item : JsonValue) :
    Result ExpectedPath := do
  let id ← requireId item "id" "path"
  let group ← requireId item "group" "path group"
  let generationOfPath ← optionalU64 item "generation" generation.value
  let hops ← parseHops 0 (← boundedItems (← requireMember item "hops") limits.maxHopsPerPath
    "path hops must be an array" "path exceeds the configured hop bound")
  return { id, group, generation := ⟨generationOfPath⟩, hops }

def readRoutes (document : JsonValue) (limits : Limits) : Result RouteGeneration := do
  let id ← requireId document "generation" "route generation"
  let epoch ← requireId document "epoch" "epoch"
  let incarnation ← requireId document "incarnation" "incarnation"
  let revision ← requireId document "revision" "revision"
  let sequence ← requireId document "sequence" "sequence"
  let source ← requireId document "source" "source"
  let topology ← requireId document "topology_generation" "topology generation"
  let created ← requireTime document "created"
  let received ← optionalTime document "received" created
  let groups ← parseItems (parseGroup limits) (← boundedItems (← requireMember document "groups")
    limits.maxGroupsPerGeneration "groups must be an array"
    "group list exceeds the configured bound")
  let paths ← parseItems (parsePath id limits) (← boundedItems (← requireMember document "paths")
    limits.maxPathsPerGeneration "paths must be an array"
    "path list exceeds the configured bound")
  return { id, epoch, incarnation, revision, sequence, source, topology, created, received, groups,
           paths }

def parseRouteGeneration (text : ByteString) (limits : Limits) : Result RouteGeneration := do
  let document ← JsonValue.parse text limits
  checkKind document kRoutesKindTag
  let generation ← readRoutes document limits
  generation.finalize limits

end Documents

end PathObservatory
