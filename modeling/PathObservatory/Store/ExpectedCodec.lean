import PathObservatory.Domain.Bare
import PathObservatory.Domain.Plan
import PathObservatory.Store.RecordRoundTrip

/-! # Decoding expected state

The decoder bounds the strings of a generation by the configured limit and its ports by a
constant, and finalises what it has read. Finalising bounds no strings, and the ports by
the links, so that a generation it accepts may be one that cannot be read back.
-/
namespace PathObservatory
namespace Codec
open ByteReader CanonicalReader

def kMaxSequenceElements : ℕ := 4000000

def deviceRole : UInt8 → Option DeviceRole
  | 0 => some .unknown
  | 1 => some .switch
  | 2 => some .router
  | 3 => some .host
  | 4 => some .lineCard
  | 5 => some .appliance
  | _ => none

def linkKind : UInt8 → Option LinkKind
  | 0 => some .unknown
  | 1 => some .physical
  | 2 => some .logical
  | 3 => some .tunnel
  | 4 => some .lag
  | _ => none

def decodeDevice (limits : Limits) : CanonicalReader DeviceRecord := do
  let id ← CanonicalReader.id .device
  let name ← CanonicalReader.text limits.maxStringBytes
  let role ← enumeration deviceRole "device role is out of range"
  return { id := id, name := name, role := role }

def decodePort (limits : Limits) : CanonicalReader PortRecord := do
  let id ← CanonicalReader.id .port
  let device ← CanonicalReader.id .device
  let name ← CanonicalReader.text limits.maxStringBytes
  let index ← CanonicalReader.u32
  return { id := id, device := device, name := name, index := index }

def decodeLink : CanonicalReader LinkRecord := do
  let id ← CanonicalReader.id .link
  let localDevice ← CanonicalReader.id .device
  let localPort ← CanonicalReader.id .port
  let remoteDevice ← CanonicalReader.id .device
  let remotePort ← CanonicalReader.id .port
  let kind ← enumeration linkKind "link kind is out of range"
  return { id := id, localDevice := localDevice, localPort := localPort,
           remoteDevice := remoteDevice, remotePort := remotePort, kind := kind }

def decodeTopologyGeneration (limits : Limits) : CanonicalReader TopologyGeneration := do
  expectTag "pathobs.record.topology" "record is not a topology generation"
  let id ← CanonicalReader.id .topologyGeneration
  let epoch ← CanonicalReader.id .epoch
  let incarnation ← CanonicalReader.id .incarnation
  let revision ← CanonicalReader.id .revision
  let sequence ← CanonicalReader.id .sourceSequence
  let source ← CanonicalReader.id .source
  let created ← CanonicalReader.i64
  let received ← CanonicalReader.i64
  let deviceCount ← CanonicalReader.count limits.maxDevicesPerTopology
  let devices ← ByteReader.many deviceCount (decodeDevice limits)
  let portCount ← CanonicalReader.count kMaxSequenceElements
  let ports ← ByteReader.many portCount (decodePort limits)
  let linkCount ← CanonicalReader.count limits.maxLinksPerTopology
  let links ← ByteReader.many linkCount decodeLink
  TopologyGeneration.finalize
    { id := id, epoch := epoch, incarnation := incarnation, revision := revision,
      sequence := sequence, source := source, created := ⟨created⟩, received := ⟨received⟩,
      devices := devices, ports := ports, links := links } limits

def decodeGroup (limits : Limits) : CanonicalReader PathGroup := do
  let id ← CanonicalReader.id .pathGroup
  let origin ← CanonicalReader.id .device
  let destination ← CanonicalReader.id .device
  let label ← CanonicalReader.text limits.maxStringBytes
  let memberCount ← CanonicalReader.count limits.maxMembersPerGroup
  let members ← ByteReader.many memberCount (CanonicalReader.id .path)
  return { id := id, origin := origin, destination := destination, label := label,
           members := members }

def decodeExpectedHop : CanonicalReader ExpectedHop := do
  let id ← CanonicalReader.id .hop
  let index ← CanonicalReader.u32
  let device ← CanonicalReader.id .device
  let ingress ← CanonicalReader.id .port
  let egress ← CanonicalReader.id .port
  let hasEgressLink ← CanonicalReader.boolean
  let egressLink ← CanonicalReader.id .link
  return { id := id, index := index, device := device, ingress := ingress, egress := egress,
           egressLink := egressLink, hasEgressLink := hasEgressLink }

def decodePath (limits : Limits) : CanonicalReader ExpectedPath := do
  let id ← CanonicalReader.id .path
  let group ← CanonicalReader.id .pathGroup
  let generation ← CanonicalReader.id .routeGeneration
  let hopCount ← CanonicalReader.count limits.maxHopsPerPath
  let hops ← ByteReader.many hopCount decodeExpectedHop
  return { id := id, group := group, generation := generation, hops := hops }

def decodeRouteGeneration (limits : Limits) : CanonicalReader RouteGeneration := do
  expectTag "pathobs.record.routes" "record is not a route generation"
  let id ← CanonicalReader.id .routeGeneration
  let epoch ← CanonicalReader.id .epoch
  let incarnation ← CanonicalReader.id .incarnation
  let revision ← CanonicalReader.id .revision
  let sequence ← CanonicalReader.id .sourceSequence
  let source ← CanonicalReader.id .source
  let topology ← CanonicalReader.id .topologyGeneration
  let created ← CanonicalReader.i64
  let received ← CanonicalReader.i64
  let groupCount ← CanonicalReader.count limits.maxGroupsPerGeneration
  let groups ← ByteReader.many groupCount (decodeGroup limits)
  let pathCount ← CanonicalReader.count limits.maxPathsPerGeneration
  let paths ← ByteReader.many pathCount (decodePath limits)
  RouteGeneration.finalize
    { id := id, epoch := epoch, incarnation := incarnation, revision := revision,
      sequence := sequence, source := source, topology := topology, created := ⟨created⟩,
      received := ⟨received⟩, groups := groups, paths := paths } limits

theorem deviceRole_toUInt8 (role : DeviceRole) : deviceRole role.toUInt8 = some role := by
  cases role <;> rfl

theorem linkKind_toUInt8 (kind : LinkKind) : linkKind kind.toUInt8 = some kind := by
  cases kind <;> rfl

/-! ## What fits is read back -/

section Reads
variable {limits : Limits}

theorem reads_decodeDevice {device : DeviceRecord} (hname : device.name.length ≤ limits.maxStringBytes)
    (hstrings : limits.maxStringBytes < 2 ^ 32) :
    Reads (decodeDevice limits) (TopologyGeneration.deviceBytes device) device := by
  unfold TopologyGeneration.deviceBytes
  simp only [List.append_assoc]
  refine (reads_id _).bind ?_
  refine (reads_text _ hname (by omega)).bind ?_
  exact Reads.map_pure (reads_enumeration (deviceRole_toUInt8 _))

theorem reads_decodePort {port : PortRecord} (hname : port.name.length ≤ limits.maxStringBytes)
    (hstrings : limits.maxStringBytes < 2 ^ 32) :
    Reads (decodePort limits) (TopologyGeneration.portBytes port) port := by
  unfold TopologyGeneration.portBytes
  simp only [List.append_assoc]
  refine (reads_id _).bind ?_
  refine (reads_id _).bind ?_
  refine (reads_text _ hname (by omega)).bind ?_
  exact Reads.map_pure (reads_u32 _)

theorem reads_decodeLink (link : LinkRecord) :
    Reads decodeLink (TopologyGeneration.linkBytes link) link := by
  unfold TopologyGeneration.linkBytes
  simp only [List.append_assoc]
  refine (reads_id _).bind ?_
  refine (reads_id _).bind ?_
  refine (reads_id _).bind ?_
  refine (reads_id _).bind ?_
  refine (reads_id _).bind ?_
  exact Reads.map_pure (reads_enumeration (linkKind_toUInt8 _))

theorem reads_decodeGroup {group : PathGroup} (hlabel : group.label.length ≤ limits.maxStringBytes)
    (hmembers : group.members.length ≤ limits.maxMembersPerGroup)
    (hstrings : limits.maxStringBytes < 2 ^ 32) (hmembersWord : limits.maxMembersPerGroup < 2 ^ 32) :
    Reads (decodeGroup limits) (RouteGeneration.groupBytes group) group := by
  unfold RouteGeneration.groupBytes
  simp only [List.append_assoc]
  refine (reads_id _).bind ?_
  refine (reads_id _).bind ?_
  refine (reads_id _).bind ?_
  refine (reads_text _ hlabel (by omega)).bind ?_
  refine (reads_count hmembers (by omega)).bind ?_
  exact Reads.map_pure (Reads.many group.members (fun member _ => reads_id member))

theorem reads_decodeExpectedHop (hop : ExpectedHop) :
    Reads decodeExpectedHop (ExpectedPath.hopBytes hop) hop := by
  unfold ExpectedPath.hopBytes
  simp only [List.append_assoc]
  refine (reads_id _).bind ?_
  refine (reads_u32 _).bind ?_
  refine (reads_id _).bind ?_
  refine (reads_id _).bind ?_
  refine (reads_id _).bind ?_
  refine (reads_boolean _).bind ?_
  exact Reads.map_pure (reads_id _)

theorem reads_decodePath {path : ExpectedPath} (hhops : path.hops.length ≤ limits.maxHopsPerPath)
    (hhopsWord : limits.maxHopsPerPath < 2 ^ 32) :
    Reads (decodePath limits) (pathBytes path.bare) path.bare := by
  unfold pathBytes
  simp only [List.append_assoc]
  refine (reads_id _).bind ?_
  refine (reads_id _).bind ?_
  refine (reads_id _).bind ?_
  refine (reads_count hhops (by omega)).bind ?_
  exact Reads.map_pure (Reads.many path.hops (fun hop _ => reads_decodeExpectedHop hop))

theorem words_of_validate (h : limits.validate = .ok ()) :
    limits.maxDevicesPerTopology < 2 ^ 32 ∧ limits.maxLinksPerTopology < 2 ^ 32 ∧
      limits.maxGroupsPerGeneration < 2 ^ 32 ∧ limits.maxMembersPerGroup < 2 ^ 32 ∧
      limits.maxPathsPerGeneration < 2 ^ 32 := by
  unfold Limits.validate at h
  simp only [↓Limits.within_bind_eq_ok, Limits.hardCeiling] at h
  omega

/-- The bounds of the decoder that finalising does not look at. -/
structure TopologyFits (limits : Limits) (g : TopologyGeneration) : Prop where
  deviceNames : ∀ device ∈ g.devices, device.name.length ≤ limits.maxStringBytes
  portNames : ∀ port ∈ g.ports, port.name.length ≤ limits.maxStringBytes
  ports : g.ports.length ≤ kMaxSequenceElements

def RoutesFit (limits : Limits) (g : RouteGeneration) : Prop :=
  ∀ group ∈ g.groups, group.label.length ≤ limits.maxStringBytes

theorem reads_decodeTopologyGeneration (hlimits : limits.validate = .ok ())
    {g : TopologyGeneration} (hfinal : g.bare.finalize limits = .ok g)
    (hfits : TopologyFits limits g) :
    Reads (decodeTopologyGeneration limits) (encodeTopology g) g := by
  obtain ⟨hdevicesWord,hlinksWord,-⟩ := words_of_validate hlimits
  obtain ⟨-,-,hstrings,-⟩ := Limits.lt_of_validate hlimits
  have hports := hfits.ports
  have hdevices := (TopologyGeneration.finalize_accepted hfinal).devices_le
  have hlinks := (TopologyGeneration.finalize_accepted hfinal).links_le
  unfold encodeTopology
  simp only [List.append_assoc]
  refine (reads_readTag (by decide +kernel)).bind ?_
  refine (reads_id _).bind ?_
  refine (reads_id _).bind ?_
  refine (reads_id _).bind ?_
  refine (reads_id _).bind ?_
  refine (reads_id _).bind ?_
  refine (reads_id _).bind ?_
  refine (reads_i64 _).bind ?_
  refine (reads_i64 _).bind ?_
  refine (reads_count hdevices (by omega)).bind ?_
  refine (Reads.many g.devices (fun device hdevice =>
    reads_decodeDevice (hfits.deviceNames device hdevice) hstrings)).bind ?_
  refine (reads_count hports (by unfold kMaxSequenceElements at hports; omega)).bind ?_
  refine (Reads.many g.ports (fun port hport =>
    reads_decodePort (hfits.portNames port hport) hstrings)).bind ?_
  refine (reads_count hlinks (by omega)).bind ?_
  rw [← List.append_nil (g.links.flatMap _)]
  exact (Reads.many g.links (fun link _ => reads_decodeLink link)).bind (reads_check hfinal)

theorem encodeRoutes_bare (g : RouteGeneration) : encodeRoutes g.bare = encodeRoutes g := by
  unfold encodeRoutes RouteGeneration.bare
  rw [List.length_map, List.flatMap_map]
  rfl

theorem reads_decodeRouteGeneration (hlimits : limits.validate = .ok ()) {plan g : RouteGeneration}
    (hfinal : plan.finalize limits = .ok g) (hfits : RoutesFit limits g) :
    Reads (decodeRouteGeneration limits) (encodeRoutes g) g := by
  obtain ⟨-,-,hgroupsWord,hmembersWord,hpathsWord⟩ := words_of_validate hlimits
  obtain ⟨hhopsWord,-,hstrings,-⟩ := Limits.lt_of_validate hlimits
  have hbare := RouteGeneration.finalize_bare hfinal
  obtain ⟨hmembers,-⟩ := RouteGeneration.finalize_groups hfinal
  obtain ⟨hbareAccepted,-⟩ := RouteGeneration.finalize_eq_ok.mp hbare
  have hpaths := hbareAccepted.paths_le
  have hgroups := hbareAccepted.groups_le
  rw [← encodeRoutes_bare]
  unfold encodeRoutes
  simp only [List.append_assoc]
  refine (reads_readTag (by decide +kernel)).bind ?_
  refine (reads_id _).bind ?_
  refine (reads_id _).bind ?_
  refine (reads_id _).bind ?_
  refine (reads_id _).bind ?_
  refine (reads_id _).bind ?_
  refine (reads_id _).bind ?_
  refine (reads_id _).bind ?_
  refine (reads_i64 _).bind ?_
  refine (reads_i64 _).bind ?_
  refine (reads_count hgroups (by omega)).bind ?_
  refine (Reads.many g.bare.groups (fun group hgroup => reads_decodeGroup (hfits group hgroup)
    (hmembers group hgroup) hstrings hmembersWord)).bind ?_
  refine (reads_count hpaths (by omega)).bind ?_
  rw [← List.append_nil (g.bare.paths.flatMap _)]
  refine (Reads.many g.bare.paths ?_).bind (reads_check hbare)
  intro bare hmem
  obtain ⟨path,hpath,rfl⟩ := List.mem_map.mp hmem
  exact reads_decodePath (RouteGeneration.finalize_hops hfinal path hpath) hhopsWord

end Reads

/-! ## What is read back fits -/

section Fits
variable {limits : Limits} {input rest : ByteString}

theorem name_of_decodeDevice {device : DeviceRecord}
    (h : (decodeDevice limits).run input = .ok (device,rest)) :
    device.name.length ≤ limits.maxStringBytes := by
  unfold decodeDevice at h
  simp only [run_bind_eq_ok, run_pure_eq_ok] at h
  obtain ⟨_,_,-,name,_,hname,_,_,-,rfl,-⟩ := h
  exact (text_eq_ok hname).1

theorem name_of_decodePort {port : PortRecord}
    (h : (decodePort limits).run input = .ok (port,rest)) :
    port.name.length ≤ limits.maxStringBytes := by
  unfold decodePort at h
  simp only [run_bind_eq_ok, run_pure_eq_ok] at h
  obtain ⟨_,_,-,_,_,-,name,_,hname,_,_,-,rfl,-⟩ := h
  exact (text_eq_ok hname).1

theorem label_of_decodeGroup {group : PathGroup}
    (h : (decodeGroup limits).run input = .ok (group,rest)) :
    group.label.length ≤ limits.maxStringBytes := by
  unfold decodeGroup at h
  simp only [run_bind_eq_ok, run_pure_eq_ok] at h
  obtain ⟨_,_,-,_,_,-,_,_,-,label,_,hlabel,_,_,-,_,_,-,rfl,-⟩ := h
  exact (text_eq_ok hlabel).1

theorem fits_of_decodeTopologyGeneration {g : TopologyGeneration}
    (h : (decodeTopologyGeneration limits).run input = .ok (g,rest)) : TopologyFits limits g := by
  unfold decodeTopologyGeneration at h
  simp only [run_bind_eq_ok, run_lift_eq_ok] at h
  obtain ⟨_,_,-,_,_,-,_,_,-,_,_,-,_,_,-,_,_,-,_,_,-,_,_,-,_,_,-,deviceCount,_,-,devices,_,hdevices,
    portCount,_,hportCount,ports,_,hports,_,_,-,links,_,-,hfinal,-⟩ := h
  have hnames := (forall_of_many (fun _ _ _ => name_of_decodeDevice) hdevices).2
  obtain ⟨hlength,hportNames⟩ := forall_of_many (fun _ _ _ => name_of_decodePort) hports
  obtain ⟨-,rfl⟩ := TopologyGeneration.finalize_eq_ok.mp hfinal
  refine ⟨?_,?_,?_⟩
  · intro device hdevice
    exact hnames device ((List.mem_insertionSort _).mp hdevice)
  · intro port hport
    exact hportNames port ((List.mem_insertionSort _).mp hport)
  · show (ports.insertionSort _).length ≤ kMaxSequenceElements
    rw [List.length_insertionSort, hlength]
    exact (count_eq_ok hportCount).1

theorem fits_of_decodeRouteGeneration {g : RouteGeneration}
    (h : (decodeRouteGeneration limits).run input = .ok (g,rest)) : RoutesFit limits g := by
  unfold decodeRouteGeneration at h
  simp only [run_bind_eq_ok, run_lift_eq_ok] at h
  obtain ⟨_,_,-,_,_,-,_,_,-,_,_,-,_,_,-,_,_,-,_,_,-,_,_,-,_,_,-,_,_,-,groupCount,_,-,groups,_,hgroups,
    pathCount,_,-,paths,_,-,hfinal,-⟩ := h
  have hlabels := (forall_of_many (fun _ _ _ => label_of_decodeGroup) hgroups).2
  intro group hgroup
  have hmem := (RouteGeneration.finalize_groups hfinal).2.mem_iff.mp
    (List.mem_map_of_mem (f := fun group : PathGroup => group.label) hgroup)
  obtain ⟨raw,hraw,hlabel⟩ := List.mem_map.mp hmem
  rw [← hlabel]
  exact hlabels raw hraw

end Fits

/-- An accepted generation is decodable exactly where its strings are within the string
bound of the same limits and its ports within the constant of the decoder. -/
theorem accepted_generation_decodes_iff {limits : Limits} (hlimits : limits.validate = .ok ()) :
    (∀ plan g : TopologyGeneration, plan.finalize limits = .ok g →
      (decodeExact (decodeTopologyGeneration limits) (encodeTopology g) = .ok g ↔
        TopologyFits limits g)) ∧
    ∀ plan g : RouteGeneration, plan.finalize limits = .ok g →
      (decodeExact (decodeRouteGeneration limits) (encodeRoutes g) = .ok g ↔
        RoutesFit limits g) := by
  constructor
  · intro plan g hfinal
    constructor
    · intro hdecoded
      exact fits_of_decodeTopologyGeneration (decodeExact_eq_ok.mp hdecoded)
    · intro hfits
      exact decodeExact_of_reads (reads_decodeTopologyGeneration hlimits
        (TopologyGeneration.finalize_bare hfinal) hfits)
  · intro plan g hfinal
    constructor
    · intro hdecoded
      exact fits_of_decodeRouteGeneration (decodeExact_eq_ok.mp hdecoded)
    · intro hfits
      exact decodeExact_of_reads (reads_decodeRouteGeneration hlimits hfinal hfits)

section Samples

/-- One device with a name of one byte. -/
def namedTopology : TopologyGeneration where
  id := ⟨1⟩
  epoch := ⟨1⟩
  incarnation := ⟨1⟩
  revision := ⟨1⟩
  source := ⟨1⟩
  devices := [{ id := ⟨1⟩, name := [0x61] }]

/-- One path of one hop in a group with a label of one byte. -/
def labelledPlan : RouteGeneration where
  id := ⟨1⟩
  epoch := ⟨1⟩
  incarnation := ⟨1⟩
  revision := ⟨1⟩
  source := ⟨1⟩
  topology := ⟨1⟩
  groups := [{ id := ⟨1⟩, origin := ⟨1⟩, destination := ⟨1⟩, label := [0x61], members := [⟨1⟩] }]
  paths := [{ id := ⟨1⟩, group := ⟨1⟩, generation := ⟨1⟩,
              hops := [{ id := ⟨1⟩, index := 0, device := ⟨1⟩, ingress := ⟨1⟩, egress := ⟨2⟩ }] }]

/-- Both fit a string bound of one byte. -/
theorem accepted_generation_decodes_sample : ∃ topology routes,
    namedTopology.finalize { maxStringBytes := 1 } = .ok topology ∧
      labelledPlan.finalize { maxStringBytes := 1 } = .ok routes ∧
      decodeExact (decodeTopologyGeneration { maxStringBytes := 1 }) (encodeTopology topology) =
        .ok topology ∧
      decodeExact (decodeRouteGeneration { maxStringBytes := 1 }) (encodeRoutes routes) =
        .ok routes := by
  obtain ⟨htopologies,hroutings⟩ :=
    @accepted_generation_decodes_iff { maxStringBytes := 1 } (by decide)
  have htopology : (namedTopology.finalize { maxStringBytes := 1 }).toOption.map (fun g =>
      (g.devices.all (·.name.length ≤ 1) && g.ports.isEmpty)) = some true := by decide +kernel
  have hroutes : (labelledPlan.finalize { maxStringBytes := 1 }).toOption.map (fun g =>
      g.groups.all (·.label.length ≤ 1)) = some true := by decide +kernel
  obtain ⟨topology,hfinal,hfits⟩ := Option.map_eq_some_iff.mp htopology
  obtain ⟨routes,hrouted,hfit⟩ := Option.map_eq_some_iff.mp hroutes
  rw [toOption_eq_some_iff] at hfinal hrouted
  rw [Bool.and_eq_true, List.all_eq_true, List.isEmpty_iff] at hfits
  rw [List.all_eq_true] at hfit
  refine ⟨topology,routes,hfinal,hrouted,(htopologies _ _ hfinal).mpr ⟨?_,?_,?_⟩,
    (hroutings _ _ hrouted).mpr ?_⟩
  · exact fun device hdevice => of_decide_eq_true (hfits.1 device hdevice)
  · intro port hport
    rw [hfits.2] at hport
    cases hport
  · rw [hfits.2]
    decide
  · exact fun group hgroup => of_decide_eq_true (hfit group hgroup)

/-- A string bound of zero bytes is a configuration that validates. Both are accepted
under it and neither is read back. -/
theorem accepted_generation_unreadable : ∃ (limits : Limits) (topology : TopologyGeneration)
    (routes : RouteGeneration), limits.validate = .ok () ∧
      namedTopology.finalize limits = .ok topology ∧ labelledPlan.finalize limits = .ok routes ∧
      decodeExact (decodeTopologyGeneration limits) (encodeTopology topology) ≠ .ok topology ∧
      decodeExact (decodeRouteGeneration limits) (encodeRoutes routes) ≠ .ok routes := by
  have hvalid : ({ maxStringBytes := 0 } : Limits).validate = .ok () := by decide
  have htopology : (namedTopology.finalize { maxStringBytes := 0 }).toOption.map (fun g =>
      decide (decodeExact (decodeTopologyGeneration { maxStringBytes := 0 }) (encodeTopology g) =
        .ok g)) = some false := by decide +kernel
  have hroutes : (labelledPlan.finalize { maxStringBytes := 0 }).toOption.map (fun g =>
      decide (decodeExact (decodeRouteGeneration { maxStringBytes := 0 }) (encodeRoutes g) =
        .ok g)) = some false := by decide +kernel
  obtain ⟨topology,hfinal,hlost⟩ := Option.map_eq_some_iff.mp htopology
  obtain ⟨routes,hrouted,hgone⟩ := Option.map_eq_some_iff.mp hroutes
  exact ⟨_,topology,routes,hvalid,toOption_eq_some_iff.mp hfinal,toOption_eq_some_iff.mp hrouted,
    of_decide_eq_false hlost,of_decide_eq_false hgone⟩

end Samples

end Codec

end PathObservatory
