import PathObservatory.Documents.GenerationDocuments
import PathObservatory.Domain.Bare
import PathObservatory.Domain.Plan

/-! # Generation documents are read back

What is read of an export is the generation without its digests, when its counts
are within the bounds of the importer, and finalising stamps the digests again.
-/
namespace PathObservatory

namespace Documents
variable {α : Type} {limits : Limits} {pretty : Bool}

/-- Items that are read one by one, each under its own condition. -/
theorem parseItems_eq_ok {read : JsonValue → Result α} {json : α → JsonValue} {accepts : α → Prop}
    {image : α → α} {items result : List α}
    (h : ∀ a ∈ items, ∀ b, read (json a) = .ok b ↔ accepts a ∧ image a = b) :
    parseItems read (items.map json) = .ok result ↔
      (∀ a ∈ items, accepts a) ∧ items.map image = result := by
  induction items generalizing result with
  | nil => exact (Except.ok.injEq _ _).to_iff.trans (and_iff_right (List.forall_mem_nil _)).symm
  | cons a items ih =>
    obtain ⟨ha,hitems⟩ := List.forall_mem_cons.mp h
    simp only [List.map_cons, parseItems, bind_eq_ok, ha, ih hitems, pure_eq_ok,
      List.forall_mem_cons]
    constructor
    · rintro ⟨_,⟨haccepts,rfl⟩,_,⟨hall,rfl⟩,rfl⟩
      exact ⟨⟨haccepts,hall⟩,rfl⟩
    · rintro ⟨⟨haccepts,hall⟩,rfl⟩
      exact ⟨_,⟨haccepts,rfl⟩,_,⟨hall,rfl⟩,rfl⟩

theorem parseItems_json {read : JsonValue → Result α} {json : α → JsonValue} {items : List α}
    (h : ∀ a ∈ items, read (json a) = .ok a) : parseItems read (items.map json) = .ok items := by
  refine (@parseItems_eq_ok α read json (fun _ => True) id items items ?_).mpr
    ⟨fun _ _ => trivial,List.map_id items⟩
  intro a ha b
  rw [h a ha, Except.ok.injEq]
  exact (and_iff_right trivial).symm

section Topology

theorem parseDevice_json {device : DeviceRecord} (h : device.id.valid = true) :
    parseDevice (deviceJson device) = .ok device := by
  have hid : requireId (deviceJson device) "id" "device" = .ok device.id :=
    requireId_of_find h (by simp [deviceJson])
  have hname : optionalText (deviceJson device) "name" [] = .ok device.name :=
    optionalText_of_find (by simp [deviceJson])
  have hrole : optionalText (deviceJson device) "role" (bytesOf "unknown") =
      .ok (bytesOf device.role.toString) := optionalText_of_find (by simp [deviceJson])
  simp only [parseDevice, bind_eq_ok, hid, hname, hrole, parseDeviceRole_toString,
    Except.ok.injEq, exists_eq_left', pure_eq_ok]

theorem parsePort_json {port : PortRecord} (h : port.id.valid = true)
    (hdevice : port.device.valid = true) : parsePort (portJson port) = .ok port := by
  have hid : requireId (portJson port) "id" "port" = .ok port.id :=
    requireId_of_find h (by simp [portJson])
  have hdevice : requireId (portJson port) "device" "device" = .ok port.device :=
    requireId_of_find hdevice (by simp [portJson])
  have hname : optionalText (portJson port) "name" [] = .ok port.name :=
    optionalText_of_find (by simp [portJson])
  have hindex : optionalU64 (portJson port) "index" 0 = .ok port.index.toUInt64 :=
    optionalU64_of_find (by simp [portJson])
  simp only [parsePort, bind_eq_ok, hid, hdevice, hname, hindex, Except.ok.injEq, exists_eq_left',
    pure_eq_ok, UInt32.toUInt32_toUInt64]

/-- All identities of a link are stated. -/
def LinkStated (link : LinkRecord) : Prop :=
  link.id.valid = true ∧ link.localDevice.valid = true ∧ link.localPort.valid = true ∧
    link.remoteDevice.valid = true ∧ link.remotePort.valid = true

theorem parseLink_json {link : LinkRecord} (h : LinkStated link) :
    parseLink (linkJson link) = .ok link := by
  obtain ⟨hid,hlocalDevice,hlocalPort,hremoteDevice,hremotePort⟩ := h
  have h1 : requireId (linkJson link) "id" "link" = .ok link.id :=
    requireId_of_find hid (by simp [linkJson])
  have h2 : requireId (linkJson link) "local_device" "local device" = .ok link.localDevice :=
    requireId_of_find hlocalDevice (by simp [linkJson])
  have h3 : requireId (linkJson link) "local_port" "local port" = .ok link.localPort :=
    requireId_of_find hlocalPort (by simp [linkJson])
  have h4 : requireId (linkJson link) "remote_device" "remote device" = .ok link.remoteDevice :=
    requireId_of_find hremoteDevice (by simp [linkJson])
  have h5 : requireId (linkJson link) "remote_port" "remote port" = .ok link.remotePort :=
    requireId_of_find hremotePort (by simp [linkJson])
  have h6 : optionalText (linkJson link) "kind" (bytesOf "unknown") =
      .ok (bytesOf link.kind.toString) := optionalText_of_find (by simp [linkJson])
  simp only [parseLink, bind_eq_ok, h1, h2, h3, h4, h5, h6, parseLinkKind_toString,
    Except.ok.injEq, exists_eq_left', pure_eq_ok]

/-- The generation is what `finalize` returned for some plan under some limits. -/
def TopologyFinalised (g : TopologyGeneration) : Prop :=
  ∃ plan bounds, TopologyGeneration.finalize plan bounds = .ok g

/-- The lists of a generation are within the bounds. -/
def TopologyFits (limits : Limits) (g : TopologyGeneration) : Prop :=
  g.devices.length ≤ limits.maxDevicesPerTopology ∧
    g.ports.length ≤ limits.maxLinksPerTopology * 2 ∧
    g.links.length ≤ limits.maxLinksPerTopology

variable {g : TopologyGeneration}

/-- A finalised generation has all its identities and is finalised again under
any bounds that it fits. -/
theorem TopologyFinalised.again (h : TopologyFinalised g) :
    (g.id.valid && g.epoch.valid && g.incarnation.valid && g.revision.valid &&
        g.source.valid) = true ∧
      (∀ device ∈ g.devices, device.id.valid = true) ∧
      (∀ port ∈ g.ports, port.id.valid = true ∧ port.device.valid = true) ∧
      (∀ link ∈ g.links, LinkStated link) ∧
      (TopologyFits limits g → g.bare.finalize limits = .ok g) := by
  obtain ⟨plan,bounds,h⟩ := h
  have hg := TopologyGeneration.finalize_accepted h
  refine ⟨hg.identified,hg.devices_valid,fun port hport => ?_,fun link hlink => ?_,fun hfits => ?_⟩
  · exact ⟨(hg.ports_pass port hport).id_valid,(hg.ports_pass port hport).device_valid⟩
  · have hpass := hg.links_pass link hlink
    exact ⟨hpass.id_valid,hpass.localDevice_valid,hpass.localPort_valid,hpass.remoteDevice_valid,
      hpass.remotePort_valid⟩
  · obtain ⟨hdevices,hports,hlinks⟩ := hfits
    have hwithin : TopologyGeneration.Accepted limits g :=
      { hg with devices_le := hdevices, ports_le := hports, links_le := hlinks }
    exact TopologyGeneration.finalize_again h hwithin {}

/-- A finalised generation with its times, its sequence and texts, and an export
within the bounds of the reader. -/
structure ExportableTopology (limits : Limits) (pretty : Bool) (g : TopologyGeneration) :
    Prop where
  finalised : TopologyFinalised g
  created : g.created.isSet = true
  received : g.received.isSet = true
  sequence : g.sequence.valid = true
  deviceNames : ∀ device ∈ g.devices, Json.isValidUtf8 device.name = true
  portNames : ∀ port ∈ g.ports, Json.isValidUtf8 port.name = true
  within : (topologyJson g).Within limits (topologyToJson g pretty)

theorem readTopology_eq_ok (h : ExportableTopology limits pretty g) {read : TopologyGeneration} :
    readTopology (topologyJson g) limits = .ok read ↔ TopologyFits limits g ∧ g.bare = read := by
  obtain ⟨hids,hdevices,hports,hlinks,-⟩ := @TopologyFinalised.again limits g h.finalised
  simp only [Bool.and_eq_true, and_assoc] at hids
  obtain ⟨hid,hepoch,hincarnation,hrevision,hsource⟩ := hids
  have h1 : requireId (topologyJson g) "generation" "topology generation" = .ok g.id :=
    requireId_of_find hid (by simp [topologyJson])
  have h2 : requireId (topologyJson g) "epoch" "epoch" = .ok g.epoch :=
    requireId_of_find hepoch (by simp [topologyJson])
  have h3 : requireId (topologyJson g) "incarnation" "incarnation" = .ok g.incarnation :=
    requireId_of_find hincarnation (by simp [topologyJson])
  have h4 : requireId (topologyJson g) "revision" "revision" = .ok g.revision :=
    requireId_of_find hrevision (by simp [topologyJson])
  have h5 : requireId (topologyJson g) "sequence" "sequence" = .ok g.sequence :=
    requireId_of_find h.sequence (by simp [topologyJson])
  have h6 : requireId (topologyJson g) "source" "source" = .ok g.source :=
    requireId_of_find hsource (by simp [topologyJson])
  have h7 : requireTime (topologyJson g) "created" = .ok g.created := by
    rw [requireTime_of_find (by simp [topologyJson]; rfl), TimePoint.parse_toRfc3339 h.created]
  have h8 (fallback : TimePoint) : optionalTime (topologyJson g) "received" fallback =
      .ok g.received := by
    rw [optionalTime_of_find (by simp [topologyJson]; rfl), TimePoint.parse_toRfc3339 h.received]
  have hdevicesFind : (topologyJson g).find (bytesOf "devices") =
      some (makeArray (g.devices.map deviceJson)) := by simp [topologyJson]
  have hportsFind : (topologyJson g).find (bytesOf "ports") =
      some (makeArray (g.ports.map portJson)) := by simp [topologyJson]
  have hlinksFind : (topologyJson g).find (bytesOf "links") =
      some (makeArray (g.links.map linkJson)) := by simp [topologyJson]
  have hreadDevices := parseItems_json (fun device hd => parseDevice_json (hdevices device hd))
  have hreadPorts := parseItems_json
    (fun port hp => parsePort_json (hports port hp).1 (hports port hp).2)
  have hreadLinks := parseItems_json (fun link hl => parseLink_json (hlinks link hl))
  simp only [readTopology, bind_eq_ok, h1, h2, h3, h4, h5, h6, h7, h8, Except.ok.injEq,
    exists_eq_left', optionalItems_eq_ok hdevicesFind, optionalItems_eq_ok hportsFind,
    optionalItems_eq_ok hlinksFind, and_assoc, exists_and_left, hreadDevices, hreadPorts,
    hreadLinks, List.length_map, pure_eq_ok]
  rw [TopologyFits, and_assoc, and_assoc]
  exact Iff.rfl

theorem built_topologyJson (h : ExportableTopology limits pretty g) : (topologyJson g).Built := by
  have htext (text : String) : (JsonValue.string (bytesOf text)).Built :=
    .string (isValidUtf8_bytesOf text)
  have htime (point : TimePoint) : (JsonValue.string point.toRfc3339).Built :=
    .string (isValidUtf8_toRfc3339 point)
  have hdevices : (makeArray (g.devices.map deviceJson)).Built := by
    refine built_makeArray (List.forall_mem_map.mpr (fun device hdevice => ?_))
    exact built_set (built_set (built_set built_makeObject (.uint64 _) _)
      (.string (h.deviceNames device hdevice)) _) (htext _) _
  have hports : (makeArray (g.ports.map portJson)).Built := by
    refine built_makeArray (List.forall_mem_map.mpr (fun port hport => ?_))
    exact built_set (built_set (built_set (built_set built_makeObject (.uint64 _) _) (.uint64 _) _)
      (.string (h.portNames port hport)) _) (.uint64 _) _
  have hlinks : (makeArray (g.links.map linkJson)).Built := by
    refine built_makeArray (List.forall_mem_map.mpr (fun link _ => ?_))
    exact built_set (built_set (built_set (built_set (built_set (built_set built_makeObject
      (.uint64 _) _) (.uint64 _) _) (.uint64 _) _) (.uint64 _) _) (.uint64 _) _) (htext _) _
  unfold topologyJson
  refine built_set (built_set (built_set (built_set (built_set (built_set ?_ (htime _) _)
    (htime _) _) (.string g.digest.isValidUtf8_hex) _) hdevices _) hports _) hlinks _
  exact built_set (built_set (built_set (built_set (built_set (built_set (built_set
    built_makeObject (htext _) _) (.uint64 _) _) (.uint64 _) _) (.uint64 _) _) (.uint64 _) _)
    (.uint64 _) _) (.uint64 _) _

/-- The export of a topology generation is read as that generation exactly when
its lists are within the bounds. -/
theorem parseTopology_eq_ok_iff (h : ExportableTopology limits pretty g) :
    parseTopologyGeneration (topologyToJson g pretty) limits = .ok g ↔ TopologyFits limits g := by
  obtain ⟨-,-,-,-,hagain⟩ := @TopologyFinalised.again limits g h.finalised
  have hparse := JsonValue.parse_dump _ pretty limits (built_topologyJson h) h.within
  have hkind : checkKind (topologyJson g) kTopologyKindTag = .ok () :=
    checkKind_of_find (by simp [topologyJson])
  simp only [parseTopologyGeneration, topologyToJson, hparse, bind_eq_ok, hkind, Except.ok.injEq,
    exists_eq_left', readTopology_eq_ok h]
  constructor
  · rintro ⟨_,-,_,⟨hfits,-⟩,-⟩
    exact hfits
  · intro hfits
    exact ⟨(),trivial,_,⟨hfits,rfl⟩,hagain hfits⟩

end Topology

section Routes

/-- The identities that every hop has are stated. -/
def HopStated (hop : ExpectedHop) : Prop :=
  hop.id.valid = true ∧ hop.device.valid = true ∧ hop.ingress.valid = true ∧
    hop.egress.valid = true

theorem parseHop_json {hop : ExpectedHop} (h : HopStated hop)
    (hlink : hop.hasEgressLink = hop.egressLink.valid) (expectedIndex : UInt32) :
    parseHop expectedIndex (hopJson hop) = .ok hop := by
  obtain ⟨hid,hdevice,hingress,hegress⟩ := h
  have h1 : requireId (hopJson hop) "id" "hop" = .ok hop.id :=
    requireId_of_find hid (by simp [hopJson])
  have h2 : optionalU64 (hopJson hop) "index" expectedIndex.toUInt64 =
      .ok hop.index.toUInt64 := optionalU64_of_find (by simp [hopJson])
  have h3 : requireId (hopJson hop) "device" "hop device" = .ok hop.device :=
    requireId_of_find hdevice (by simp [hopJson])
  have h4 : requireId (hopJson hop) "ingress" "hop ingress port" = .ok hop.ingress :=
    requireId_of_find hingress (by simp [hopJson])
  have h5 : requireId (hopJson hop) "egress" "hop egress port" = .ok hop.egress :=
    requireId_of_find hegress (by simp [hopJson])
  have h6 : optionalU64 (hopJson hop) "link" 0 = .ok hop.egressLink.value :=
    optionalU64_of_find_if (by simp [hopJson, hlink, StrongId.valid])
  have h7 : decide (hop.egressLink.value ≠ 0) = hop.hasEgressLink := by
    rw [hlink, StrongId.valid, Bool.eq_iff_iff, decide_eq_true_eq, bne_iff_ne]
  simp only [parseHop, bind_eq_ok, h1, h2, h3, h4, h5, h6, h7, Except.ok.injEq, exists_eq_left',
    pure_eq_ok, UInt32.toUInt32_toUInt64]

theorem parseHops_json {hops : List ExpectedHop}
    (h : ∀ hop ∈ hops, HopStated hop ∧ hop.hasEgressLink = hop.egressLink.valid)
    (expectedIndex : UInt32) : parseHops expectedIndex (hops.map hopJson) = .ok hops := by
  induction hops generalizing expectedIndex with
  | nil => rfl
  | cons hop hops ih =>
    obtain ⟨hhop,hhops⟩ := List.forall_mem_cons.mp h
    simp only [List.map_cons, parseHops, bind_eq_ok, parseHop_json hhop.1 hhop.2, ih hhops,
      Except.ok.injEq, exists_eq_left', pure_eq_ok]

/-- The identities of a path and its hops are stated. -/
def PathStated (path : ExpectedPath) : Prop :=
  path.id.valid = true ∧ path.group.valid = true ∧ ∀ hop ∈ path.hops, HopStated hop

theorem parsePath_eq_ok {path read : ExpectedPath} (h : PathStated path)
    (hlinks : ∀ hop ∈ path.hops, hop.hasEgressLink = hop.egressLink.valid)
    (generation : RouteGenerationId) :
    parsePath generation limits (pathJson path) = .ok read ↔
      path.hops.length ≤ limits.maxHopsPerPath ∧ path.bare = read := by
  have h1 : requireId (pathJson path) "id" "path" = .ok path.id :=
    requireId_of_find h.1 (by simp [pathJson])
  have h2 : requireId (pathJson path) "group" "path group" = .ok path.group :=
    requireId_of_find h.2.1 (by simp [pathJson])
  have h3 : optionalU64 (pathJson path) "generation" generation.value =
      .ok path.generation.value := optionalU64_of_find (by simp [pathJson])
  have h4 : requireMember (pathJson path) "hops" = .ok (makeArray (path.hops.map hopJson)) :=
    requireMember_of_find (by simp [pathJson])
  have hhops := parseHops_json (fun hop hhop => ⟨h.2.2 hop hhop,hlinks hop hhop⟩) 0
  simp only [parsePath, bind_eq_ok, h1, h2, h3, h4, Except.ok.injEq, exists_eq_left',
    boundedItems_eq_ok, and_assoc, exists_and_left, hhops, List.length_map, pure_eq_ok]
  exact Iff.rfl

theorem parseMember_json {member : PathId} (h : member.valid = true) :
    parseMember (JsonValue.makeNumberUnsigned member.value) = .ok member := by
  rw [parseMember, JsonValue.asU64_makeNumberUnsigned]
  exact toId_of_valid h "path"

/-- The identities of a group and its members are stated. -/
def GroupStated (group : PathGroup) : Prop :=
  group.id.valid = true ∧ group.origin.valid = true ∧ group.destination.valid = true ∧
    ∀ member ∈ group.members, member.valid = true

theorem parseGroup_eq_ok {group read : PathGroup} (h : GroupStated group) :
    parseGroup limits (groupJson group) = .ok read ↔
      group.members.length ≤ limits.maxMembersPerGroup ∧ group = read := by
  have h1 : requireId (groupJson group) "id" "path group" = .ok group.id :=
    requireId_of_find h.1 (by simp [groupJson])
  have h2 : requireId (groupJson group) "origin" "origin device" = .ok group.origin :=
    requireId_of_find h.2.1 (by simp [groupJson])
  have h3 : requireId (groupJson group) "destination" "destination device" =
      .ok group.destination := requireId_of_find h.2.2.1 (by simp [groupJson])
  have h4 : optionalText (groupJson group) "label" [] = .ok group.label :=
    optionalText_of_find (by simp [groupJson])
  have h5 : requireMember (groupJson group) "members" = .ok (makeArray
      (group.members.map (fun m => JsonValue.makeNumberUnsigned m.value))) :=
    requireMember_of_find (by simp [groupJson])
  have hmembers := parseItems_json (fun member hm => parseMember_json (h.2.2.2 member hm))
  simp only [parseGroup, bind_eq_ok, h1, h2, h3, h4, h5, Except.ok.injEq, exists_eq_left',
    boundedItems_eq_ok, and_assoc, exists_and_left, hmembers, List.length_map, pure_eq_ok]

/-- The lists of a generation are within the bounds. -/
structure RoutesFit (limits : Limits) (g : RouteGeneration) : Prop where
  groups : g.groups.length ≤ limits.maxGroupsPerGeneration
  paths : g.paths.length ≤ limits.maxPathsPerGeneration
  members : ∀ group ∈ g.groups, group.members.length ≤ limits.maxMembersPerGroup
  hops : ∀ path ∈ g.paths, path.hops.length ≤ limits.maxHopsPerPath

variable {g : RouteGeneration}

/-- A finalised generation has all its identities and is finalised again under
any bounds that it fits. -/
theorem finalised_again (h : g.Finalised) :
    (g.id.valid && g.epoch.valid && g.incarnation.valid && g.revision.valid && g.source.valid &&
        g.topology.valid) = true ∧
      (∀ path ∈ g.paths, PathStated path) ∧ (∀ group ∈ g.groups, GroupStated group) ∧
      (RoutesFit limits g → g.bare.finalize limits = .ok g) := by
  obtain ⟨plan,bounds,h⟩ := h
  have hg := RouteGeneration.finalize_accepted h
  refine ⟨hg.identified,fun path hpath => ?_,fun group hgroup => ?_,fun hfits => ?_⟩
  · have hpass := hg.paths_pass path hpath
    refine ⟨hpass.id_valid,hpass.group_valid,fun hop hhop => ?_⟩
    obtain ⟨i,hi⟩ := List.mem_iff_getElem?.mp hhop
    have hstated := hpass.hops_pass i hop hi
    exact ⟨hstated.id_valid,hstated.device_valid,hstated.ingress_valid,hstated.egress_valid⟩
  · have hpass := hg.groups_pass group hgroup
    refine ⟨hpass.id_valid,hpass.origin_valid,hpass.destination_valid,fun member hmember => ?_⟩
    obtain ⟨path,hpath,rfl,-⟩ := hpass.members_known member hmember
    exact (hg.paths_pass path hpath).id_valid
  · have hwithin : RouteGeneration.Accepted limits g :=
      { hg with
        paths_le := hfits.paths
        groups_le := hfits.groups
        paths_pass := fun path hpath =>
          { hg.paths_pass path hpath with hops_le := hfits.hops path hpath }
        groups_pass := fun group hgroup =>
          { hg.groups_pass group hgroup with members_le := hfits.members group hgroup } }
    exact RouteGeneration.finalize_again h hwithin (RouteGeneration.restates_bare g)

/-- As for a topology generation; a hop names its link exactly where it says so. -/
structure ExportableRoutes (limits : Limits) (pretty : Bool) (g : RouteGeneration) : Prop where
  finalised : g.Finalised
  created : g.created.isSet = true
  received : g.received.isSet = true
  sequence : g.sequence.valid = true
  labels : ∀ group ∈ g.groups, Json.isValidUtf8 group.label = true
  links : ∀ path ∈ g.paths, ∀ hop ∈ path.hops, hop.hasEgressLink = hop.egressLink.valid
  within : (routesJson g).Within limits (routesToJson g pretty)

theorem readRoutes_eq_ok (h : ExportableRoutes limits pretty g) {read : RouteGeneration} :
    readRoutes (routesJson g) limits = .ok read ↔ RoutesFit limits g ∧ g.bare = read := by
  obtain ⟨hids,hpaths,hgroups,-⟩ := @finalised_again limits g h.finalised
  simp only [Bool.and_eq_true, and_assoc] at hids
  obtain ⟨hid,hepoch,hincarnation,hrevision,hsource,htopology⟩ := hids
  have h1 : requireId (routesJson g) "generation" "route generation" = .ok g.id :=
    requireId_of_find hid (by simp [routesJson])
  have h2 : requireId (routesJson g) "epoch" "epoch" = .ok g.epoch :=
    requireId_of_find hepoch (by simp [routesJson])
  have h3 : requireId (routesJson g) "incarnation" "incarnation" = .ok g.incarnation :=
    requireId_of_find hincarnation (by simp [routesJson])
  have h4 : requireId (routesJson g) "revision" "revision" = .ok g.revision :=
    requireId_of_find hrevision (by simp [routesJson])
  have h5 : requireId (routesJson g) "sequence" "sequence" = .ok g.sequence :=
    requireId_of_find h.sequence (by simp [routesJson])
  have h6 : requireId (routesJson g) "source" "source" = .ok g.source :=
    requireId_of_find hsource (by simp [routesJson])
  have h7 : requireId (routesJson g) "topology_generation" "topology generation" =
      .ok g.topology := requireId_of_find htopology (by simp [routesJson])
  have h8 : requireTime (routesJson g) "created" = .ok g.created := by
    rw [requireTime_of_find (by simp [routesJson]; rfl), TimePoint.parse_toRfc3339 h.created]
  have h9 (fallback : TimePoint) : optionalTime (routesJson g) "received" fallback =
      .ok g.received := by
    rw [optionalTime_of_find (by simp [routesJson]; rfl), TimePoint.parse_toRfc3339 h.received]
  have h10 : requireMember (routesJson g) "groups" =
      .ok (makeArray (g.groups.map groupJson)) := requireMember_of_find (by simp [routesJson])
  have h11 : requireMember (routesJson g) "paths" =
      .ok (makeArray (g.paths.map pathJson)) := requireMember_of_find (by simp [routesJson])
  have hreadGroups (result : List PathGroup) := @parseItems_eq_ok PathGroup (parseGroup limits)
    groupJson (fun group => group.members.length ≤ limits.maxMembersPerGroup) id g.groups result
    (fun group hgroup _ => parseGroup_eq_ok (hgroups group hgroup))
  have hreadPaths (result : List ExpectedPath) := @parseItems_eq_ok ExpectedPath
    (parsePath g.id limits) pathJson (fun path => path.hops.length ≤ limits.maxHopsPerPath)
    ExpectedPath.bare g.paths result
    (fun path hpath _ => parsePath_eq_ok (hpaths path hpath) (h.links path hpath) g.id)
  simp only [readRoutes, bind_eq_ok, h1, h2, h3, h4, h5, h6, h7, h8, h9, h10, h11,
    Except.ok.injEq, exists_eq_left', boundedItems_eq_ok, and_assoc, exists_and_left, hreadGroups,
    hreadPaths, List.length_map, List.map_id, pure_eq_ok]
  constructor
  · rintro ⟨hgroupCount,hmembers,hpathCount,hhops,rfl⟩
    exact ⟨⟨hgroupCount,hpathCount,hmembers,hhops⟩,rfl⟩
  · rintro ⟨⟨hgroupCount,hpathCount,hmembers,hhops⟩,rfl⟩
    exact ⟨hgroupCount,hmembers,hpathCount,hhops,rfl⟩

theorem built_routesJson (h : ExportableRoutes limits pretty g) : (routesJson g).Built := by
  have htext (text : String) : (JsonValue.string (bytesOf text)).Built :=
    .string (isValidUtf8_bytesOf text)
  have htime (point : TimePoint) : (JsonValue.string point.toRfc3339).Built :=
    .string (isValidUtf8_toRfc3339 point)
  have hgroups : (makeArray (g.groups.map groupJson)).Built := by
    refine built_makeArray (List.forall_mem_map.mpr (fun group hgroup => ?_))
    exact built_set (built_set (built_set (built_set (built_set built_makeObject (.uint64 _) _)
      (.uint64 _) _) (.uint64 _) _) (.string (h.labels group hgroup)) _)
      (built_makeArray (List.forall_mem_map.mpr (fun _ _ => .uint64 _))) _
  have hhop (hop : ExpectedHop) : (hopJson hop).Built :=
    built_setIf (built_set (built_set (built_set (built_set (built_set built_makeObject
      (.uint64 _) _) (.uint64 _) _) (.uint64 _) _) (.uint64 _) _) (.uint64 _) _) (.uint64 _) _ _
  have hpaths : (makeArray (g.paths.map pathJson)).Built := by
    refine built_makeArray (List.forall_mem_map.mpr (fun path _ => ?_))
    exact built_set (built_set (built_set (built_set built_makeObject (.uint64 _) _) (.uint64 _) _)
      (.uint64 _) _) (built_makeArray (List.forall_mem_map.mpr (fun hop _ => hhop hop))) _
  unfold routesJson
  refine built_set (built_set (built_set (built_set (built_set ?_ (htime _) _) (htime _) _)
    (.string g.digest.isValidUtf8_hex) _) hgroups _) hpaths _
  exact built_set (built_set (built_set (built_set (built_set (built_set (built_set (built_set
    built_makeObject (htext _) _) (.uint64 _) _) (.uint64 _) _) (.uint64 _) _) (.uint64 _) _)
    (.uint64 _) _) (.uint64 _) _) (.uint64 _) _

/-- The export of a route generation is read as that generation exactly when its
lists are within the bounds. -/
theorem parseRoutes_eq_ok_iff (h : ExportableRoutes limits pretty g) :
    parseRouteGeneration (routesToJson g pretty) limits = .ok g ↔ RoutesFit limits g := by
  obtain ⟨-,-,-,hagain⟩ := @finalised_again limits g h.finalised
  have hparse := JsonValue.parse_dump _ pretty limits (built_routesJson h) h.within
  have hkind : checkKind (routesJson g) kRoutesKindTag = .ok () :=
    checkKind_of_find (by simp [routesJson])
  simp only [parseRouteGeneration, routesToJson, hparse, bind_eq_ok, hkind, Except.ok.injEq,
    exists_eq_left', readRoutes_eq_ok h]
  constructor
  · rintro ⟨_,-,_,⟨hfits,-⟩,-⟩
    exact hfits
  · intro hfits
    exact ⟨(),trivial,_,⟨hfits,rfl⟩,hagain hfits⟩

end Routes

theorem TopologyFits.of_finalize {plan g : TopologyGeneration}
    (h : plan.finalize limits = .ok g) : TopologyFits limits g := by
  have hg := TopologyGeneration.finalize_accepted h
  exact ⟨hg.devices_le,hg.ports_le,hg.links_le⟩

theorem RoutesFit.of_finalize {plan g : RouteGeneration} (h : plan.finalize limits = .ok g) :
    RoutesFit limits g := by
  have hg := RouteGeneration.finalize_accepted h
  exact ⟨hg.groups_le,hg.paths_le,fun group hgroup => (hg.groups_pass group hgroup).members_le,
    RouteGeneration.finalize_hops h⟩

/-- The export of a generation, in either form, is read as the generation in every
field exactly when its lists are within the bounds of the importer, as those of a
generation that was finalised under these bounds are. -/
theorem generation_documents_read_back_iff (limits : Limits) (pretty : Bool) :
    (∀ g, ExportableTopology limits pretty g →
      (parseTopologyGeneration (topologyToJson g pretty) limits = .ok g ↔ TopologyFits limits g) ∧
      ∀ plan, TopologyGeneration.finalize plan limits = .ok g →
        parseTopologyGeneration (topologyToJson g pretty) limits = .ok g) ∧
    ∀ g, ExportableRoutes limits pretty g →
      (parseRouteGeneration (routesToJson g pretty) limits = .ok g ↔ RoutesFit limits g) ∧
      ∀ plan, RouteGeneration.finalize plan limits = .ok g →
        parseRouteGeneration (routesToJson g pretty) limits = .ok g := by
  refine ⟨fun g h => ⟨parseTopology_eq_ok_iff h,fun plan hplan => ?_⟩,
    fun g h => ⟨parseRoutes_eq_ok_iff h,fun plan hplan => ?_⟩⟩
  · exact (parseTopology_eq_ok_iff h).mpr (TopologyFits.of_finalize hplan)
  · exact (parseRoutes_eq_ok_iff h).mpr (RoutesFit.of_finalize hplan)

def loopedTopology : TopologyGeneration :=
  { id := ⟨6⟩, epoch := ⟨1⟩, incarnation := ⟨1⟩, revision := ⟨1⟩, sequence := ⟨3⟩, source := ⟨2⟩,
    created := ⟨0⟩, received := ⟨1500⟩,
    devices := [{ id := ⟨1⟩, name := [0xC3,0xA9], role := .lineCard }],
    ports := [{ id := ⟨10⟩, device := ⟨1⟩ },{ id := ⟨11⟩, device := ⟨1⟩, index := 1 }],
    links := [{ id := ⟨20⟩, localDevice := ⟨1⟩, localPort := ⟨10⟩, remoteDevice := ⟨1⟩,
                remotePort := ⟨11⟩, kind := .lag }],
    digest := ⟨[233,175,128,136,52,19,187,161,172,122,94,108,88,166,147,210,51,162,195,147,66,137,
      62,37,118,127,108,204,86,74,70,52],rfl⟩ }

def linkedRoutes : RouteGeneration :=
  { id := ⟨5⟩, epoch := ⟨1⟩, incarnation := ⟨1⟩, revision := ⟨1⟩, sequence := ⟨4⟩, source := ⟨2⟩,
    topology := ⟨6⟩, created := ⟨0⟩, received := ⟨1500⟩,
    groups := [{ id := ⟨7⟩, origin := ⟨1⟩, destination := ⟨2⟩, members := [⟨9⟩] }],
    paths := [{ id := ⟨9⟩, group := ⟨7⟩, generation := ⟨5⟩,
                hops := [{ id := ⟨1⟩, device := ⟨1⟩, ingress := ⟨10⟩, egress := ⟨11⟩,
                           egressLink := ⟨20⟩, hasEgressLink := true }],
                digest := ⟨[48,115,223,248,181,191,110,5,149,136,154,242,123,131,141,38,247,187,
                  249,251,221,113,49,176,142,116,71,32,186,223,151,171],rfl⟩ }],
    digest := ⟨[192,227,232,177,54,30,252,65,27,69,29,26,42,92,81,183,141,117,238,111,225,102,183,
      184,183,143,0,63,212,186,198,57],rfl⟩ }

theorem loopedTopology_finalised : loopedTopology.bare.finalize {} = .ok loopedTopology := by
  decide +kernel

theorem linkedRoutes_finalised : linkedRoutes.bare.finalize {} = .ok linkedRoutes := by
  decide +kernel

/-- An importer that takes no devices. -/
def noDevices : Limits := { maxDevicesPerTopology := 0 }

theorem loopedTopology_within :
    (topologyJson loopedTopology).Within {} (topologyToJson loopedTopology true) :=
  ⟨by decide +kernel,by decide +kernel,by decide +kernel,by decide +kernel⟩

/-- The bound on devices is none of those on documents. -/
theorem loopedTopology_exportable (count : ℕ) :
    ExportableTopology { maxDevicesPerTopology := count } true loopedTopology :=
  ⟨⟨_,_,loopedTopology_finalised⟩,by decide,by decide,by decide,by decide,by decide,
    ⟨loopedTopology_within.bytes,loopedTopology_within.depth,loopedTopology_within.nodes,
      loopedTopology_within.strings⟩⟩

theorem linkedRoutes_exportable : ExportableRoutes {} true linkedRoutes :=
  ⟨⟨_,_,linkedRoutes_finalised⟩,by decide,by decide,by decide,by decide,by decide,
    ⟨by decide +kernel,by decide +kernel,by decide +kernel,by decide +kernel⟩⟩

theorem sample_generations_read_back :
    parseTopologyGeneration (topologyToJson loopedTopology true) {} = .ok loopedTopology ∧
      parseRouteGeneration (routesToJson linkedRoutes true) {} = .ok linkedRoutes := by
  obtain ⟨htopology,hroutes⟩ := generation_documents_read_back_iff {} true
  exact ⟨(htopology _ (loopedTopology_exportable _)).2 _ loopedTopology_finalised,
    (hroutes _ linkedRoutes_exportable).2 _ linkedRoutes_finalised⟩

/-- A finalised generation is not read back under bounds that it does not fit,
though its export is within the bounds on documents. -/
theorem device_bound_refuses_export :
    ExportableTopology noDevices true loopedTopology ∧
      parseTopologyGeneration (topologyToJson loopedTopology true) noDevices ≠
        .ok loopedTopology := by
  refine ⟨loopedTopology_exportable 0,fun hread => ?_⟩
  have hfits := (parseTopology_eq_ok_iff (loopedTopology_exportable 0)).mp hread
  exact absurd hfits.1 (by decide)

end Documents

end PathObservatory
