import PathObservatory.Domain.Expected
import PathObservatory.Domain.Topology

/-! # What finalising accepts and what it makes

Whether a generation is accepted is a matter of its elements, not of their order: the
identities of a list are distinct and every reference names an element of the
generation. What is made of an accepted one is the same generation in the order of the
identities, with its digests.
-/
namespace PathObservatory
open Ranking

namespace TopologyGeneration

/-- The port exists and is on the device. -/
def Attached (ports : List PortRecord) (port : PortId) (device : DeviceId) : Prop :=
  ∃ record ∈ ports, record.id = port ∧ record.device = device

structure PortPasses (devices : List DeviceRecord) (port : PortRecord) : Prop where
  id_valid : port.id.valid = true
  device_valid : port.device.valid = true
  device_known : ∃ device ∈ devices, device.id = port.device

structure LinkPasses (ports : List PortRecord) (link : LinkRecord) : Prop where
  id_valid : link.id.valid = true
  localDevice_valid : link.localDevice.valid = true
  localPort_valid : link.localPort.valid = true
  remoteDevice_valid : link.remoteDevice.valid = true
  remotePort_valid : link.remotePort.valid = true
  local_attached : Attached ports link.localPort link.localDevice
  remote_attached : Attached ports link.remotePort link.remoteDevice

/-- The generation is one that `finalize` accepts. -/
structure Accepted (limits : Limits) (g : TopologyGeneration) : Prop where
  identified : (g.id.valid && g.epoch.valid && g.incarnation.valid && g.revision.valid &&
    g.source.valid) = true
  devices_le : g.devices.length ≤ limits.maxDevicesPerTopology
  links_le : g.links.length ≤ limits.maxLinksPerTopology
  ports_le : g.ports.length ≤ limits.maxLinksPerTopology * 2
  devices_valid : ∀ device ∈ g.devices, device.id.valid = true
  devices_distinct : (g.devices.map (·.id)).Nodup
  ports_pass : ∀ port ∈ g.ports, PortPasses g.devices port
  ports_distinct : (g.ports.map (·.id)).Nodup
  links_pass : ∀ link ∈ g.links, LinkPasses g.ports link
  links_distinct : (g.links.map (·.id)).Nodup

/-- The generation in the order of the identities. -/
def sorted (g : TopologyGeneration) : TopologyGeneration :=
  { g with devices := g.devices.insertionSort (fun a b => a.id ≤ b.id),
           ports := g.ports.insertionSort (fun a b => a.id ≤ b.id),
           links := g.links.insertionSort (fun a b => a.id ≤ b.id) }

def canonical (g : TopologyGeneration) : TopologyGeneration :=
  { g.sorted with digest := g.sorted.canonicalDigest }

theorem checkDevices_eq_ok {previous : Option DeviceId} {devices : List DeviceRecord} :
    checkDevices previous devices = .ok () ↔ (∀ device ∈ devices, device.id.valid = true) ∧
      (previous.toList ++ devices.map (·.id)).IsChain (· ≠ ·) := by
  refine checking_pass (fun previous devices => checkDevices previous devices = .ok ())
    (fun _ => rfl) fun previous device rest => ?_
  simp only [checkDevices, ↓require_bind_eq_ok, decide_eq_true_eq]

theorem checkPorts_eq_ok {devices : List DeviceRecord} {previous : Option PortId}
    {ports : List PortRecord} :
    checkPorts devices previous ports = .ok () ↔ (∀ port ∈ ports, PortPasses devices port) ∧
      (previous.toList ++ ports.map (·.id)).IsChain (· ≠ ·) := by
  refine checking_pass (fun previous ports => checkPorts devices previous ports = .ok ())
    (fun _ => rfl) fun previous port rest => ?_
  simp only [checkPorts, ↓require_bind_eq_ok, Bool.and_eq_true, decide_eq_true_eq, List.any_eq_true]
  constructor
  · rintro ⟨⟨hid,hdevice⟩,hnew,hknown,hrest⟩
    exact ⟨⟨hid,hdevice,hknown⟩,hnew,hrest⟩
  · rintro ⟨⟨hid,hdevice,hknown⟩,hnew,hrest⟩
    exact ⟨⟨hid,hdevice⟩,hnew,hknown,hrest⟩

theorem portBelongs_iff {ports : List PortRecord} (hs : ports.Pairwise (fun a b => a.id < b.id))
    {port : PortId} {device : DeviceId} :
    portBelongs ports port device = true ↔ Attached ports port device := by
  unfold portBelongs Attached
  constructor
  · intro h
    split at h
    · rename_i record hlookup
      obtain ⟨hmem,hid⟩ := mem_of_lookupSorted hlookup
      exact ⟨record,hmem,hid,of_decide_eq_true h⟩
    · cases h
  · rintro ⟨record,hmem,rfl,hdevice⟩
    simp [lookupSorted_of_mem hs hmem, hdevice]

theorem checkLinks_eq_ok {ports : List PortRecord} (hs : ports.Pairwise (fun a b => a.id < b.id))
    {previous : Option LinkId} {links : List LinkRecord} :
    checkLinks ports previous links = .ok () ↔ (∀ link ∈ links, LinkPasses ports link) ∧
      (previous.toList ++ links.map (·.id)).IsChain (· ≠ ·) := by
  refine checking_pass (fun previous links => checkLinks ports previous links = .ok ())
    (fun _ => rfl) fun previous link rest => ?_
  simp only [checkLinks, ↓require_bind_eq_ok, Bool.and_eq_true, and_assoc, decide_eq_true_eq,
    portBelongs_iff hs]
  constructor
  · rintro ⟨hid,hld,hlp,hrd,hrp,hnew,hlocal,hremote,hrest⟩
    exact ⟨⟨hid,hld,hlp,hrd,hrp,hlocal,hremote⟩,hnew,hrest⟩
  · rintro ⟨⟨hid,hld,hlp,hrd,hrp,hlocal,hremote⟩,hnew,hrest⟩
    exact ⟨hid,hld,hlp,hrd,hrp,hnew,hlocal,hremote,hrest⟩

/-- The same generation with its lists in another order. -/
structure Rearranges (g h : TopologyGeneration) : Prop where
  rest : h = { g with devices := h.devices, ports := h.ports, links := h.links }
  devices : g.devices.Perm h.devices
  ports : g.ports.Perm h.ports
  links : g.links.Perm h.links

theorem Rearranges.symm {g h : TopologyGeneration} (r : Rearranges g h) : Rearranges h g where
  rest := by rw [r.rest]
  devices := r.devices.symm
  ports := r.ports.symm
  links := r.links.symm

theorem rearranges_sorted (g : TopologyGeneration) : Rearranges g g.sorted where
  rest := rfl
  devices := (List.perm_insertionSort _ _).symm
  ports := (List.perm_insertionSort _ _).symm
  links := (List.perm_insertionSort _ _).symm

theorem PortPasses.of_perm {devices others : List DeviceRecord} (h : devices.Perm others)
    {port : PortRecord} (hport : PortPasses devices port) : PortPasses others port where
  __ := hport
  device_known := by simpa only [h.mem_iff] using hport.device_known

theorem LinkPasses.of_perm {ports others : List PortRecord} (h : ports.Perm others)
    {link : LinkRecord} (hlink : LinkPasses ports link) : LinkPasses others link where
  __ := hlink
  local_attached := by simpa only [Attached, h.mem_iff] using hlink.local_attached
  remote_attached := by simpa only [Attached, h.mem_iff] using hlink.remote_attached

theorem Accepted.of_rearranges {limits : Limits} {g h : TopologyGeneration} (r : Rearranges g h)
    (hg : Accepted limits g) : Accepted limits h where
  identified := by
    rw [r.rest]
    exact hg.identified
  devices_le := r.devices.length_eq ▸ hg.devices_le
  links_le := r.links.length_eq ▸ hg.links_le
  ports_le := r.ports.length_eq ▸ hg.ports_le
  devices_valid device hdevice := hg.devices_valid device (r.devices.mem_iff.mpr hdevice)
  devices_distinct := (r.devices.map _).nodup_iff.mp hg.devices_distinct
  ports_pass port hport := (hg.ports_pass port (r.ports.mem_iff.mpr hport)).of_perm r.devices
  ports_distinct := (r.ports.map _).nodup_iff.mp hg.ports_distinct
  links_pass link hlink := (hg.links_pass link (r.links.mem_iff.mpr hlink)).of_perm r.ports
  links_distinct := (r.links.map _).nodup_iff.mp hg.links_distinct

theorem Rearranges.sorted_eq {limits : Limits} {g h : TopologyGeneration} (r : Rearranges g h)
    (hg : Accepted limits g) : g.sorted = h.sorted := by
  unfold sorted
  rw [insertionSort_eq_of_perm r.devices hg.devices_distinct,
    insertionSort_eq_of_perm r.ports hg.ports_distinct,
    insertionSort_eq_of_perm r.links hg.links_distinct]
  rw [r.rest]

theorem finalize_eq_ok {g result : TopologyGeneration} {limits : Limits} :
    g.finalize limits = .ok result ↔ Accepted limits g ∧ g.canonical = result := by
  unfold finalize
  simp only [↓require_bind_eq_ok, bind_eq_ok, pure_eq_ok, decide_eq_true_eq, Unique.exists_iff,
    PUnit.default_eq_unit, checkDevices_eq_ok, checkPorts_eq_ok, Option.toList_none,
    List.nil_append, insertionSort_isChain_ne_iff]
  obtain ⟨-,hdevices,hports,hlinks⟩ := rearranges_sorted g
  constructor
  · rintro ⟨hids,hdevicesLe,hlinksLe,hportsLe,⟨hvalid,hdevicesNe⟩,⟨hpass,hportsNe⟩,hcheck,rfl⟩
    obtain ⟨hattached,hchain⟩ :=
      (checkLinks_eq_ok (insertionSort_pairwise_lt_iff.mpr hportsNe)).mp hcheck
    refine ⟨⟨hids,hdevicesLe,hlinksLe,hportsLe,fun device hdevice => ?_,hdevicesNe,
      fun port hport => ?_,hportsNe,fun link hlink => ?_,?_⟩,rfl⟩
    · exact hvalid device (hdevices.mem_iff.mp hdevice)
    · exact (hpass port (hports.mem_iff.mp hport)).of_perm hdevices.symm
    · exact (hattached link (hlinks.mem_iff.mp hlink)).of_perm hports.symm
    · exact insertionSort_isChain_ne_iff.mp hchain
  · rintro ⟨hg,rfl⟩
    refine ⟨hg.identified,hg.devices_le,hg.links_le,hg.ports_le,⟨?_,hg.devices_distinct⟩,
      ⟨?_,hg.ports_distinct⟩,?_,rfl⟩
    · exact fun device hdevice => hg.devices_valid device (hdevices.mem_iff.mpr hdevice)
    · exact fun port hport => (hg.ports_pass port (hports.mem_iff.mpr hport)).of_perm hdevices
    · refine (checkLinks_eq_ok (insertionSort_pairwise_lt_iff.mpr hg.ports_distinct)).mpr ⟨?_,?_⟩
      · exact fun link hlink => (hg.links_pass link (hlinks.mem_iff.mpr hlink)).of_perm hports
      · exact insertionSort_isChain_ne_iff.mpr hg.links_distinct

/-- Another order of the lists changes nothing. -/
theorem finalize_of_rearranges {limits : Limits} {g h result : TopologyGeneration}
    (r : Rearranges g h) (hg : g.finalize limits = .ok result) : h.finalize limits = .ok result := by
  obtain ⟨haccepted,hresult⟩ := finalize_eq_ok.mp hg
  refine finalize_eq_ok.mpr ⟨haccepted.of_rearranges r,?_⟩
  rw [← hresult, canonical, canonical, r.sorted_eq haccepted]

theorem Accepted.canonical {limits : Limits} {g : TopologyGeneration} (hg : Accepted limits g) :
    Accepted limits g.canonical := by
  obtain ⟨hids,hdevicesLe,hlinksLe,hportsLe,hvalid,hdevicesNe,hpass,hportsNe,hlinks,hlinksNe⟩ :=
    hg.of_rearranges (rearranges_sorted g)
  exact ⟨hids,hdevicesLe,hlinksLe,hportsLe,hvalid,hdevicesNe,hpass,hportsNe,hlinks,hlinksNe⟩

theorem canonical_canonical (g : TopologyGeneration) : g.canonical.canonical = g.canonical := by
  simp only [canonical, sorted, insertionSort_idem DeviceRecord.id, insertionSort_idem PortRecord.id,
    insertionSort_idem LinkRecord.id]
  rfl

theorem finalize_accepted {limits : Limits} {plan g : TopologyGeneration}
    (hplan : plan.finalize limits = .ok g) : Accepted limits g := by
  obtain ⟨haccepted,rfl⟩ := finalize_eq_ok.mp hplan
  exact haccepted.canonical

/-- A finalised generation is finalised again to itself, under any bounds that accept it
and also with another digest. -/
theorem finalize_again {bounds limits : Limits} {plan g : TopologyGeneration}
    (hplan : plan.finalize bounds = .ok g) (hg : Accepted limits g) (digest : Digest) :
    { g with digest := digest }.finalize limits = .ok g := by
  obtain ⟨hids,hdevicesLe,hlinksLe,hportsLe,hvalid,hdevicesNe,hpass,hportsNe,hlinks,hlinksNe⟩ := hg
  obtain ⟨-,rfl⟩ := finalize_eq_ok.mp hplan
  exact finalize_eq_ok.mpr ⟨⟨hids,hdevicesLe,hlinksLe,hportsLe,hvalid,hdevicesNe,hpass,hportsNe,
    hlinks,hlinksNe⟩,canonical_canonical plan⟩

/-- The lists of a finalised generation are in strict order of their identities. -/
theorem finalize_sorted {limits : Limits} {g result : TopologyGeneration}
    (hg : g.finalize limits = .ok result) :
    result.devices.Pairwise (fun a b => a.id < b.id) ∧
      result.ports.Pairwise (fun a b => a.id < b.id) ∧
      result.links.Pairwise (fun a b => a.id < b.id) := by
  obtain ⟨haccepted,rfl⟩ := finalize_eq_ok.mp hg
  exact ⟨insertionSort_pairwise_lt_iff.mpr haccepted.devices_distinct,
    insertionSort_pairwise_lt_iff.mpr haccepted.ports_distinct,
    insertionSort_pairwise_lt_iff.mpr haccepted.links_distinct⟩

end TopologyGeneration

/-- The path with its digest. -/
def ExpectedPath.stamped (path : ExpectedPath) : ExpectedPath :=
  { path with digest := path.canonicalDigest }

namespace PathGroup

/-- The group with its members sorted and unique. -/
def tidied (group : PathGroup) : PathGroup :=
  { group with members := (group.members.insertionSort (· ≤ ·)).destutter (· ≠ ·) }

theorem mem_tidied {group : PathGroup} {member : PathId} :
    member ∈ group.tidied.members ↔ member ∈ group.members := by
  have hsorted := List.pairwise_insertionSort (· ≤ ·) group.members
  rw [tidied, hsorted.destutter_eq_dedup, List.mem_dedup, List.mem_insertionSort]

theorem tidied_length_le (group : PathGroup) :
    group.tidied.members.length ≤ group.members.length := by
  refine (List.destutter_sublist _ _).length_le.trans ?_
  rw [List.length_insertionSort]

theorem tidied_tidied (group : PathGroup) : group.tidied.tidied = group.tidied := by
  have hsorted : group.tidied.members.Pairwise (· ≤ ·) :=
    (List.pairwise_insertionSort _ _).sublist (List.destutter_sublist _ _)
  have hidem : group.tidied.members.destutter (· ≠ ·) = group.tidied.members :=
    List.destutter_idem _ _
  rw [tidied, hsorted.insertionSort_eq, hidem]

/-- The same group with its members in another order. -/
structure Rearranges (a b : PathGroup) : Prop where
  rest : b = { a with members := b.members }
  members : a.members.Perm b.members

theorem Rearranges.symm {a b : PathGroup} (r : Rearranges a b) : Rearranges b a where
  rest := by rw [r.rest]
  members := r.members.symm

theorem Rearranges.tidied_eq {a b : PathGroup} (r : Rearranges a b) : a.tidied = b.tidied := by
  have hmembers := destutter_insertionSort_eq_iff (r := (· ≤ ·)).mpr
    fun member => r.members.mem_iff (a := member)
  rw [tidied, hmembers, r.rest, tidied]

end PathGroup

namespace RouteGeneration

structure HopPasses (position : ℕ) (hop : ExpectedHop) : Prop where
  id_valid : hop.id.valid = true
  device_valid : hop.device.valid = true
  ingress_valid : hop.ingress.valid = true
  egress_valid : hop.egress.valid = true
  index_eq : hop.index.toNat = position

structure PathPasses (generation : RouteGenerationId) (limits : Limits) (path : ExpectedPath) :
    Prop where
  id_valid : path.id.valid = true
  group_valid : path.group.valid = true
  generation_valid : path.generation.valid = true
  generation_eq : path.generation = generation
  hops_ne_nil : path.hops ≠ []
  hops_le : path.hops.length ≤ limits.maxHopsPerPath
  hops_pass : ∀ (i : ℕ) (hop : ExpectedHop), path.hops[i]? = some hop → HopPasses i hop

structure GroupPasses (paths : List ExpectedPath) (limits : Limits) (group : PathGroup) : Prop where
  id_valid : group.id.valid = true
  origin_valid : group.origin.valid = true
  destination_valid : group.destination.valid = true
  members_le : group.members.length ≤ limits.maxMembersPerGroup
  members_ne_nil : group.members ≠ []
  members_known : ∀ member ∈ group.members, ∃ path ∈ paths,
    path.id = member ∧ path.group = group.id

/-- The generation is one that `finalize` accepts. -/
structure Accepted (limits : Limits) (g : RouteGeneration) : Prop where
  identified : (g.id.valid && g.epoch.valid && g.incarnation.valid && g.revision.valid &&
    g.source.valid && g.topology.valid) = true
  paths_le : g.paths.length ≤ limits.maxPathsPerGeneration
  groups_le : g.groups.length ≤ limits.maxGroupsPerGeneration
  paths_pass : ∀ path ∈ g.paths, PathPasses g.id limits path
  paths_distinct : (g.paths.map (·.id)).Nodup
  groups_pass : ∀ group ∈ g.groups, GroupPasses g.paths limits group
  groups_distinct : (g.groups.map (·.id)).Nodup

/-- The generation in the order of the identities, its paths with their digests and its
groups with unique members. -/
def sorted (g : RouteGeneration) : RouteGeneration :=
  { g with
    paths := (g.paths.insertionSort (fun a b => a.id ≤ b.id)).map ExpectedPath.stamped
    groups := (g.groups.insertionSort (fun a b => a.id ≤ b.id)).map PathGroup.tidied }

def canonical (g : RouteGeneration) : RouteGeneration :=
  { g.sorted with digest := g.sorted.canonicalDigest }

theorem checkHops_eq_ok {path : ExpectedPath} {position : ℕ} {hops : List ExpectedHop} :
    checkHops path position hops = .ok () ↔
      ∀ (i : ℕ) (hop : ExpectedHop), hops[i]? = some hop → HopPasses (position + i) hop := by
  induction hops generalizing position with
  | nil => simp [checkHops]
  | cons first rest ih =>
    simp only [checkHops, ↓require_bind_eq_ok, Bool.and_eq_true, decide_eq_true_eq, ih]
    constructor
    · rintro ⟨⟨⟨⟨hid,hdevice⟩,hingress⟩,hegress⟩,hindex,hrest⟩ i hop hi
      cases i with
      | zero =>
        obtain rfl : first = hop := by simpa using hi
        exact ⟨hid,hdevice,hingress,hegress,hindex⟩
      | succ i =>
        rw [← Nat.add_assoc, Nat.add_right_comm]
        exact hrest i hop (by simpa using hi)
    · intro h
      obtain ⟨hid,hdevice,hingress,hegress,hindex⟩ := h 0 first rfl
      refine ⟨⟨⟨⟨hid,hdevice⟩,hingress⟩,hegress⟩,hindex,fun i hop hi => ?_⟩
      have hnext := h (i + 1) hop (by simpa using hi)
      rwa [← Nat.add_assoc, Nat.add_right_comm] at hnext

theorem checkPaths_eq_ok {generation : RouteGenerationId} {limits : Limits}
    {previous : Option PathId} {paths checked : List ExpectedPath} :
    checkPaths generation limits previous paths = .ok checked ↔
      (∀ path ∈ paths, PathPasses generation limits path) ∧
        (previous.toList ++ paths.map (·.id)).IsChain (· ≠ ·) ∧
        checked = paths.map ExpectedPath.stamped := by
  refine stamping_pass
    (fun previous paths checked => checkPaths generation limits previous paths = .ok checked)
    (fun previous checked => ?_) fun previous path rest checked => ?_
  · rw [checkPaths, Except.ok.injEq, eq_comm]
  · rw [checkPaths]
    simp only [↓require_bind_eq_ok, bind_eq_ok, pure_eq_ok, Bool.and_eq_true, decide_eq_true_eq,
      Unique.exists_iff, PUnit.default_eq_unit, checkHops_eq_ok, Nat.zero_add]
    constructor
    · rintro ⟨⟨⟨hid,hgroup⟩,hvalid⟩,heq,hnew,hne,hle,hhops,tail,htail,rfl⟩
      exact ⟨⟨hid,hgroup,hvalid,heq,hne,hle,hhops⟩,hnew,tail,htail,rfl⟩
    · rintro ⟨⟨hid,hgroup,hvalid,heq,hne,hle,hhops⟩,hnew,tail,htail,rfl⟩
      exact ⟨⟨⟨hid,hgroup⟩,hvalid⟩,heq,hnew,hne,hle,hhops,tail,htail,rfl⟩

theorem checkMembers_eq_ok {group : PathGroup} {paths : List ExpectedPath}
    (hs : paths.Pairwise (fun a b => a.id < b.id)) {members : List PathId} :
    checkMembers group paths members = .ok () ↔
      ∀ member ∈ members, ∃ path ∈ paths, path.id = member ∧ path.group = group.id := by
  induction members with
  | nil => simp [checkMembers]
  | cons member rest ih =>
    rw [List.forall_mem_cons, ← ih]
    cases hlookup : lookupSorted ExpectedPath.id member paths with
    | none =>
      simp only [checkMembers, hlookup]
      refine iff_of_false nofun fun h => ?_
      obtain ⟨path,hpath,rfl,-⟩ := h.1
      rw [lookupSorted_of_mem hs hpath] at hlookup
      cases hlookup
    | some path =>
      obtain ⟨hmem,hid⟩ := mem_of_lookupSorted hlookup
      simp only [checkMembers, hlookup, ↓require_bind_eq_ok, decide_eq_true_eq]
      refine and_congr_left fun _ => ⟨fun hgroup => ⟨path,hmem,hid,hgroup⟩,?_⟩
      rintro ⟨other,hother,rfl,hgroup⟩
      rw [lookupSorted_of_mem hs hother] at hlookup
      rwa [← Option.some.inj hlookup]

theorem GroupPasses.of_paths {paths others : List ExpectedPath} {limits : Limits}
    {group : PathGroup} (h : ∀ path ∈ paths, ∃ other ∈ others,
      other.id = path.id ∧ other.group = path.group) (hgroup : GroupPasses paths limits group) :
    GroupPasses others limits group where
  __ := hgroup
  members_known member hmember := by
    obtain ⟨path,hpath,hid,hsame⟩ := hgroup.members_known member hmember
    obtain ⟨other,hother,hotherId,hotherGroup⟩ := h path hpath
    exact ⟨other,hother,hotherId.trans hid,hotherGroup.trans hsame⟩

theorem GroupPasses.of_members {paths : List ExpectedPath} {limits : Limits} {a b : PathGroup}
    (hrest : b = { a with members := b.members })
    (hlength : b.members.length ≤ a.members.length)
    (hmem : ∀ member, member ∈ b.members ↔ member ∈ a.members) (ha : GroupPasses paths limits a) :
    GroupPasses paths limits b := by
  obtain ⟨member,hmember⟩ := List.exists_mem_of_ne_nil _ ha.members_ne_nil
  have hb := List.ne_nil_of_mem ((hmem member).mpr hmember)
  rw [hrest]
  exact ⟨ha.id_valid,ha.origin_valid,ha.destination_valid,hlength.trans ha.members_le,hb,
    fun member hmember => ha.members_known member ((hmem member).mp hmember)⟩

theorem checkGroups_eq_ok {paths : List ExpectedPath}
    (hs : paths.Pairwise (fun a b => a.id < b.id)) {limits : Limits}
    {previous : Option PathGroupId} {groups checked : List PathGroup} :
    checkGroups paths limits previous groups = .ok checked ↔
      (∀ group ∈ groups, GroupPasses paths limits group) ∧
        (previous.toList ++ groups.map (·.id)).IsChain (· ≠ ·) ∧
        checked = groups.map PathGroup.tidied := by
  refine stamping_pass
    (fun previous groups checked => checkGroups paths limits previous groups = .ok checked)
    (fun previous checked => ?_) fun previous group rest checked => ?_
  · rw [checkGroups, Except.ok.injEq, eq_comm]
  · have hmem : ∀ member, member ∈ (group.members.insertionSort (· ≤ ·)).destutter (· ≠ ·) ↔
        member ∈ group.members := fun member => PathGroup.mem_tidied
    have hnil : (group.members.insertionSort (· ≤ ·)).destutter (· ≠ ·) ≠ [] ↔
        group.members ≠ [] := by
      simp only [ne_eq, List.eq_nil_iff_forall_not_mem, hmem]
    rw [checkGroups]
    simp only [↓require_bind_eq_ok, bind_eq_ok, pure_eq_ok, Bool.and_eq_true, decide_eq_true_eq,
      Unique.exists_iff, checkMembers_eq_ok hs, hnil, hmem]
    constructor
    · rintro ⟨⟨⟨hid,horigin⟩,hdestination⟩,hnew,hle,hne,hknown,tail,htail,rfl⟩
      exact ⟨⟨hid,horigin,hdestination,hle,hne,hknown⟩,hnew,tail,htail,rfl⟩
    · rintro ⟨⟨hid,horigin,hdestination,hle,hne,hknown⟩,hnew,tail,htail,rfl⟩
      exact ⟨⟨⟨hid,horigin⟩,hdestination⟩,hnew,hle,hne,hknown,tail,htail,rfl⟩

theorem mem_sorted_paths {g : RouteGeneration} {path : ExpectedPath} :
    path ∈ g.sorted.paths ↔ ∃ declared ∈ g.paths, declared.stamped = path := by
  simp only [sorted, List.mem_map, List.mem_insertionSort]

/-- The paths of a plan and the stamped ones have the same identities and groups. -/
theorem groupPasses_sorted {g : RouteGeneration} {limits : Limits} {group : PathGroup} :
    GroupPasses g.sorted.paths limits group ↔ GroupPasses g.paths limits group := by
  constructor
  · refine GroupPasses.of_paths fun path hpath => ?_
    obtain ⟨declared,hdeclared,rfl⟩ := mem_sorted_paths.mp hpath
    exact ⟨declared,hdeclared,rfl,rfl⟩
  · exact GroupPasses.of_paths fun path hpath =>
      ⟨path.stamped,mem_sorted_paths.mpr ⟨path,hpath,rfl⟩,rfl,rfl⟩

theorem sorted_paths_pairwise {g : RouteGeneration} (h : (g.paths.map (·.id)).Nodup) :
    g.sorted.paths.Pairwise (fun a b => a.id < b.id) :=
  List.pairwise_map.mpr (insertionSort_pairwise_lt_iff.mpr h)

theorem sorted_groups_pairwise {g : RouteGeneration} (h : (g.groups.map (·.id)).Nodup) :
    g.sorted.groups.Pairwise (fun a b => a.id < b.id) :=
  List.pairwise_map.mpr (insertionSort_pairwise_lt_iff.mpr h)

theorem finalize_eq_ok {g result : RouteGeneration} {limits : Limits} :
    g.finalize limits = .ok result ↔ Accepted limits g ∧ g.canonical = result := by
  have hpaths := List.perm_insertionSort (fun a b : ExpectedPath => a.id ≤ b.id) g.paths
  have hgroups := List.perm_insertionSort (fun a b : PathGroup => a.id ≤ b.id) g.groups
  unfold finalize
  simp only [↓require_bind_eq_ok, bind_eq_ok, pure_eq_ok, decide_eq_true_eq, checkPaths_eq_ok,
    Option.toList_none, List.nil_append, insertionSort_isChain_ne_iff, hpaths.mem_iff]
  constructor
  · rintro ⟨hids,hpathsLe,hgroupsLe,paths,⟨hpass,hpathsNe,rfl⟩,groups,hcheck,rfl⟩
    obtain ⟨hgroupPass,hchain,rfl⟩ := (checkGroups_eq_ok (sorted_paths_pairwise hpathsNe)).mp hcheck
    refine ⟨⟨hids,hpathsLe,hgroupsLe,hpass,hpathsNe,fun group hgroup => ?_,?_⟩,rfl⟩
    · exact groupPasses_sorted.mp (hgroupPass group (hgroups.mem_iff.mpr hgroup))
    · exact insertionSort_isChain_ne_iff.mp hchain
  · rintro ⟨hg,rfl⟩
    refine ⟨hg.identified,hg.paths_le,hg.groups_le,g.sorted.paths,
      ⟨hg.paths_pass,hg.paths_distinct,rfl⟩,g.sorted.groups,?_,rfl⟩
    refine (checkGroups_eq_ok (sorted_paths_pairwise hg.paths_distinct)).mpr ⟨?_,?_,rfl⟩
    · exact fun group hgroup =>
        groupPasses_sorted.mpr (hg.groups_pass group (hgroups.mem_iff.mp hgroup))
    · exact insertionSort_isChain_ne_iff.mpr hg.groups_distinct

/-- The same generation with its lists, and the members of its groups, in another order. -/
structure Rearranges (g h : RouteGeneration) : Prop where
  rest : h = { g with paths := h.paths, groups := h.groups }
  paths : g.paths.Perm h.paths
  groups : ∃ groups, List.Forall₂ PathGroup.Rearranges g.groups groups ∧ groups.Perm h.groups

theorem Rearranges.symm {g h : RouteGeneration} (r : Rearranges g h) : Rearranges h g where
  rest := by rw [r.rest]
  paths := r.paths.symm
  groups := by
    have hcomp : Relation.Comp (List.Forall₂ PathGroup.Rearranges) List.Perm g.groups h.groups :=
      r.groups
    rw [List.forall₂_comp_perm_eq_perm_comp_forall₂] at hcomp
    obtain ⟨groups,hperm,hall⟩ := hcomp
    exact ⟨groups,(hall.imp fun _ _ r => r.symm).flip,hperm.symm⟩

theorem Rearranges.exists_group {g h : RouteGeneration} (r : Rearranges g h) {group : PathGroup}
    (hgroup : group ∈ h.groups) : ∃ before ∈ g.groups, before.Rearranges group := by
  obtain ⟨groups,hall,hperm⟩ := r.groups
  obtain ⟨i,hi,rfl⟩ := List.mem_iff_getElem.mp (hperm.mem_iff.mpr hgroup)
  have hig : i < g.groups.length := hall.length_eq ▸ hi
  exact ⟨g.groups[i],List.getElem_mem hig,(List.forall₂_iff_get.mp hall).2 i hig hi⟩

theorem Rearranges.tidied_perm {g h : RouteGeneration} (r : Rearranges g h) :
    (g.groups.map PathGroup.tidied).Perm (h.groups.map PathGroup.tidied) := by
  obtain ⟨groups,hall,hperm⟩ := r.groups
  have heq : g.groups.map PathGroup.tidied = groups.map PathGroup.tidied := by
    rw [← List.forall₂_eq_eq_eq, List.forall₂_map_left_iff, List.forall₂_map_right_iff]
    exact hall.imp fun _ _ r => r.tidied_eq
  rw [heq]
  exact hperm.map _

theorem tidied_ids (groups : List PathGroup) :
    (groups.map PathGroup.tidied).map (·.id) = groups.map (·.id) := List.map_map

theorem Accepted.of_rearranges {limits : Limits} {g h : RouteGeneration} (r : Rearranges g h)
    (hg : Accepted limits g) : Accepted limits h where
  identified := by
    rw [r.rest]
    exact hg.identified
  paths_le := r.paths.length_eq ▸ hg.paths_le
  groups_le := by
    have hlength := r.tidied_perm.length_eq
    rw [List.length_map, List.length_map] at hlength
    exact hlength ▸ hg.groups_le
  paths_pass path hpath := by
    rw [r.rest]
    exact hg.paths_pass path (r.paths.mem_iff.mpr hpath)
  paths_distinct := (r.paths.map _).nodup_iff.mp hg.paths_distinct
  groups_pass group hgroup := by
    obtain ⟨before,hbefore,rg⟩ := r.exists_group hgroup
    have hpaths : GroupPasses h.paths limits before := (hg.groups_pass before hbefore).of_paths
      fun path hpath => ⟨path,r.paths.mem_iff.mp hpath,rfl,rfl⟩
    exact hpaths.of_members rg.rest rg.members.length_eq.ge fun _ => rg.members.mem_iff.symm
  groups_distinct := by
    have hids := r.tidied_perm.map (·.id)
    rw [tidied_ids, tidied_ids] at hids
    exact hids.nodup_iff.mp hg.groups_distinct

/-- Stamping and tidying leave the identities, so it does not matter whether they come
before the sort. -/
theorem sorted_paths (g : RouteGeneration) :
    g.sorted.paths = (g.paths.map ExpectedPath.stamped).insertionSort (fun a b => a.id ≤ b.id) :=
  List.map_insertionSort _ _ ExpectedPath.stamped g.paths fun _ _ _ _ => Iff.rfl

theorem sorted_groups (g : RouteGeneration) :
    g.sorted.groups = (g.groups.map PathGroup.tidied).insertionSort (fun a b => a.id ≤ b.id) :=
  List.map_insertionSort _ _ PathGroup.tidied g.groups fun _ _ _ _ => Iff.rfl

theorem Rearranges.sorted_eq {limits : Limits} {g h : RouteGeneration} (r : Rearranges g h)
    (hg : Accepted limits g) : g.sorted = h.sorted := by
  have hgroups : g.sorted.groups = h.sorted.groups := by
    rw [sorted_groups, sorted_groups]
    exact insertionSort_eq_of_perm r.tidied_perm ((tidied_ids g.groups).symm ▸ hg.groups_distinct)
  have hpaths : g.sorted.paths = h.sorted.paths :=
    congrArg (List.map ExpectedPath.stamped) (insertionSort_eq_of_perm r.paths hg.paths_distinct)
  calc g.sorted = { g with paths := g.sorted.paths, groups := g.sorted.groups } := rfl
    _ = { g with paths := h.sorted.paths, groups := h.sorted.groups } := by rw [hgroups, hpaths]
    _ = h.sorted := by rw [r.rest]; rfl

/-- Another order of the lists changes nothing. -/
theorem finalize_of_rearranges {limits : Limits} {g h result : RouteGeneration}
    (r : Rearranges g h) (hg : g.finalize limits = .ok result) : h.finalize limits = .ok result := by
  obtain ⟨haccepted,hresult⟩ := finalize_eq_ok.mp hg
  refine finalize_eq_ok.mpr ⟨haccepted.of_rearranges r,?_⟩
  rw [← hresult, canonical, canonical, r.sorted_eq haccepted]

theorem PathPasses.of_stamped {generation : RouteGenerationId} {limits : Limits}
    {path : ExpectedPath} (h : PathPasses generation limits path.stamped) :
    PathPasses generation limits path :=
  ⟨h.id_valid,h.group_valid,h.generation_valid,h.generation_eq,h.hops_ne_nil,h.hops_le,h.hops_pass⟩

theorem PathPasses.stamped {generation : RouteGenerationId} {limits : Limits}
    {path : ExpectedPath} (h : PathPasses generation limits path) :
    PathPasses generation limits path.stamped :=
  ⟨h.id_valid,h.group_valid,h.generation_valid,h.generation_eq,h.hops_ne_nil,h.hops_le,h.hops_pass⟩

/-- What is made of an accepted generation is accepted too. -/
theorem Accepted.canonical {limits : Limits} {g : RouteGeneration} (hg : Accepted limits g) :
    Accepted limits g.canonical where
  identified := hg.identified
  paths_le := by
    refine Eq.trans_le ?_ hg.paths_le
    exact (List.length_map _).trans (List.length_insertionSort _ _)
  groups_le := by
    refine Eq.trans_le ?_ hg.groups_le
    exact (List.length_map _).trans (List.length_insertionSort _ _)
  paths_pass path hpath := by
    obtain ⟨declared,hdeclared,rfl⟩ := mem_sorted_paths.mp hpath
    exact (hg.paths_pass declared hdeclared).stamped
  paths_distinct := List.pairwise_map.mpr
    ((sorted_paths_pairwise hg.paths_distinct).imp fun hlt => ne_of_lt hlt)
  groups_pass group hgroup := by
    obtain ⟨declared,hdeclared,rfl⟩ := List.mem_map.mp hgroup
    have hpass := hg.groups_pass declared ((List.mem_insertionSort _).mp hdeclared)
    refine groupPasses_sorted.mpr (hpass.of_members rfl declared.tidied_length_le ?_)
    exact fun _ => PathGroup.mem_tidied
  groups_distinct := List.pairwise_map.mpr
    ((sorted_groups_pairwise hg.groups_distinct).imp fun hlt => ne_of_lt hlt)

/-- The two generations differ in their digest and those of their paths at most. -/
structure Restates (restated g : RouteGeneration) : Prop where
  rest : restated = { g with paths := restated.paths, digest := restated.digest }
  paths : restated.paths.map ExpectedPath.stamped = g.paths.map ExpectedPath.stamped

theorem Restates.exists_path {restated g : RouteGeneration} (r : Restates restated g)
    {path : ExpectedPath} (hpath : path ∈ restated.paths) :
    ∃ other ∈ g.paths, other.stamped = path.stamped :=
  List.mem_map.mp (r.paths ▸ List.mem_map_of_mem hpath)

theorem Accepted.of_restates {limits : Limits} {restated g : RouteGeneration}
    (r : Restates restated g) (hg : Accepted limits g) : Accepted limits restated where
  identified := by
    rw [r.rest]
    exact hg.identified
  paths_le := by
    have hlength := congrArg List.length r.paths
    rw [List.length_map, List.length_map] at hlength
    exact hlength ▸ hg.paths_le
  groups_le := by
    rw [r.rest]
    exact hg.groups_le
  paths_pass path hpath := by
    obtain ⟨other,hother,hsame⟩ := r.exists_path hpath
    have hpass := (hg.paths_pass other hother).stamped
    rw [hsame] at hpass
    rw [r.rest]
    exact hpass.of_stamped
  paths_distinct := by
    have hids := congrArg (List.map (·.id)) r.paths
    rw [List.map_map, List.map_map] at hids
    exact hids.symm ▸ hg.paths_distinct
  groups_pass group hgroup := by
    rw [r.rest] at hgroup
    refine (hg.groups_pass group hgroup).of_paths fun path hpath => ?_
    obtain ⟨other,hother,hsame⟩ := List.mem_map.mp (r.paths ▸ List.mem_map_of_mem hpath)
    have hid := congrArg ExpectedPath.id hsame
    have hgroup := congrArg ExpectedPath.group hsame
    exact ⟨other,hother,hid,hgroup⟩
  groups_distinct := by
    rw [r.rest]
    exact hg.groups_distinct

theorem Restates.canonical_eq {restated g : RouteGeneration} (r : Restates restated g) :
    restated.canonical = g.canonical := by
  have hpaths : restated.sorted.paths = g.sorted.paths := by
    rw [sorted_paths, sorted_paths, r.paths]
  have hsorted : restated.sorted = { g.sorted with digest := restated.digest } := by
    calc restated.sorted = { restated with
          paths := g.sorted.paths, groups := restated.sorted.groups } := by rw [← hpaths]; rfl
      _ = _ := by rw [r.rest]; rfl
  rw [canonical, hsorted]
  rfl

theorem canonical_canonical (g : RouteGeneration) : g.canonical.canonical = g.canonical := by
  have hpaths : g.canonical.sorted.paths = g.sorted.paths := by
    have hstamped : g.sorted.paths.map ExpectedPath.stamped = g.sorted.paths := List.map_map
    show (g.sorted.paths.insertionSort _).map _ = _
    rw [sorted_paths, insertionSort_idem ExpectedPath.id, ← sorted_paths, hstamped]
  have hgroups : g.canonical.sorted.groups = g.sorted.groups := by
    have htidied : g.sorted.groups.map PathGroup.tidied = g.sorted.groups := by
      rw [sorted, List.map_map]
      exact List.map_congr_left fun group _ => group.tidied_tidied
    show (g.sorted.groups.insertionSort _).map _ = _
    rw [sorted_groups, insertionSort_idem PathGroup.id, ← sorted_groups, htidied]
  have hsorted : g.canonical.sorted = g.canonical := by
    calc g.canonical.sorted = { g.canonical with
          paths := g.canonical.sorted.paths, groups := g.canonical.sorted.groups } := rfl
      _ = g.canonical := by rw [hpaths, hgroups]; rfl
  rw [canonical, hsorted]
  rfl

theorem finalize_accepted {limits : Limits} {plan g : RouteGeneration}
    (hplan : plan.finalize limits = .ok g) : Accepted limits g := by
  obtain ⟨haccepted,rfl⟩ := finalize_eq_ok.mp hplan
  exact haccepted.canonical

/-- A finalised generation is finalised again to itself, under any bounds that accept it
and also with other digests. -/
theorem finalize_again {bounds limits : Limits} {plan g restated : RouteGeneration}
    (hplan : plan.finalize bounds = .ok g) (hg : Accepted limits g) (r : Restates restated g) :
    restated.finalize limits = .ok g := by
  obtain ⟨-,rfl⟩ := finalize_eq_ok.mp hplan
  exact finalize_eq_ok.mpr ⟨hg.of_restates r,r.canonical_eq.trans (canonical_canonical plan)⟩

theorem Restates.refl (g : RouteGeneration) : Restates g g where
  rest := rfl
  paths := rfl

/-- The lists of a finalised generation are in strict order of their identities. -/
theorem finalize_sorted {limits : Limits} {g result : RouteGeneration}
    (hg : g.finalize limits = .ok result) :
    result.paths.Pairwise (fun a b => a.id < b.id) ∧
      result.groups.Pairwise (fun a b => a.id < b.id) := by
  obtain ⟨haccepted,rfl⟩ := finalize_eq_ok.mp hg
  exact ⟨sorted_paths_pairwise haccepted.paths_distinct,
    sorted_groups_pairwise haccepted.groups_distinct⟩

end RouteGeneration

/-- A function whose results it gives back is idempotent, refusals included. -/
theorem bind_again {α : Type} {f : α → Result α} (h : ∀ {a b}, f a = .ok b → f b = .ok b) (a : α) :
    (f a >>= f) = f a := by
  cases hfa : f a with
  | error e => rfl
  | ok b => exact h hfa

/-- Finalising a generation makes a canonical form of it: the outcome does not depend
on the order of the lists, a second time changes nothing, and each element is found
under its identity. -/
theorem finalize_canonicalises (limits : Limits) :
    (∀ g h : RouteGeneration, g.Rearranges h → ∀ result,
        g.finalize limits = .ok result ↔ h.finalize limits = .ok result) ∧
      (∀ g h : TopologyGeneration, g.Rearranges h → ∀ result,
        g.finalize limits = .ok result ↔ h.finalize limits = .ok result) ∧
      (∀ g : RouteGeneration, (g.finalize limits >>= (·.finalize limits)) = g.finalize limits) ∧
      (∀ g : TopologyGeneration,
        (g.finalize limits >>= (·.finalize limits)) = g.finalize limits) ∧
      (∀ plan g : RouteGeneration, plan.finalize limits = .ok g →
        (∀ id path, g.findPath id = some path ↔ path ∈ g.paths ∧ path.id = id) ∧
        ∀ id group, g.findGroup id = some group ↔ group ∈ g.groups ∧ group.id = id) ∧
      ∀ plan g : TopologyGeneration, plan.finalize limits = .ok g →
        (∀ id device, g.findDevice id = some device ↔ device ∈ g.devices ∧ device.id = id) ∧
        (∀ id port, g.findPort id = some port ↔ port ∈ g.ports ∧ port.id = id) ∧
        ∀ id link, g.findLink id = some link ↔ link ∈ g.links ∧ link.id = id := by
  refine ⟨fun g h r result => ?_,fun g h r result => ?_,?_,?_,fun plan g hg => ?_,
    fun plan g hg => ?_⟩
  · exact ⟨RouteGeneration.finalize_of_rearranges r,RouteGeneration.finalize_of_rearranges r.symm⟩
  · exact ⟨TopologyGeneration.finalize_of_rearranges r,
      TopologyGeneration.finalize_of_rearranges r.symm⟩
  · exact bind_again fun hg => RouteGeneration.finalize_again hg (RouteGeneration.finalize_accepted hg) (.refl _)
  · exact bind_again fun hg => TopologyGeneration.finalize_again hg (TopologyGeneration.finalize_accepted hg) _
  · obtain ⟨hpaths,hgroups⟩ := RouteGeneration.finalize_sorted hg
    exact ⟨fun _ _ => lookupSorted_eq_some_iff hpaths,fun _ _ => lookupSorted_eq_some_iff hgroups⟩
  · obtain ⟨hdevices,hports,hlinks⟩ := TopologyGeneration.finalize_sorted hg
    exact ⟨fun _ _ => lookupSorted_eq_some_iff hdevices,fun _ _ => lookupSorted_eq_some_iff hports,
      fun _ _ => lookupSorted_eq_some_iff hlinks⟩

def branchedPath (id : PathId) (group : PathGroupId) : ExpectedPath :=
  { id := id, group := group, generation := ⟨5⟩,
    hops := [{ id := ⟨1⟩, device := ⟨1⟩, ingress := ⟨10⟩, egress := ⟨11⟩ }] }

/-- A plan with two groups, the first of two paths. -/
def branchedRoutes : RouteGeneration :=
  { id := ⟨5⟩, epoch := ⟨1⟩, incarnation := ⟨1⟩, revision := ⟨1⟩, source := ⟨2⟩, topology := ⟨6⟩,
    groups := [{ id := ⟨7⟩, origin := ⟨1⟩, destination := ⟨2⟩, members := [⟨8⟩,⟨9⟩] },
               { id := ⟨4⟩, origin := ⟨1⟩, destination := ⟨3⟩, members := [⟨3⟩] }],
    paths := [branchedPath ⟨9⟩ ⟨7⟩,branchedPath ⟨8⟩ ⟨7⟩,branchedPath ⟨3⟩ ⟨4⟩] }

/-- The same plan with its groups, paths and members in another order. -/
def branchedRoutesTurned : RouteGeneration :=
  { branchedRoutes with
    groups := [{ id := ⟨4⟩, origin := ⟨1⟩, destination := ⟨3⟩, members := [⟨3⟩] },
               { id := ⟨7⟩, origin := ⟨1⟩, destination := ⟨2⟩, members := [⟨9⟩,⟨8⟩] }]
    paths := [branchedPath ⟨3⟩ ⟨4⟩,branchedPath ⟨9⟩ ⟨7⟩,branchedPath ⟨8⟩ ⟨7⟩] }

theorem branchedRoutes_rearranges : branchedRoutes.Rearranges branchedRoutesTurned where
  rest := rfl
  paths := by decide
  groups := by
    refine ⟨[{ id := ⟨7⟩, origin := ⟨1⟩, destination := ⟨2⟩, members := [⟨9⟩,⟨8⟩] },
      { id := ⟨4⟩, origin := ⟨1⟩, destination := ⟨3⟩, members := [⟨3⟩] }],?_,by decide⟩
    exact .cons ⟨rfl,by decide⟩ (.cons ⟨rfl,.refl _⟩ .nil)

theorem branchedRoutes_finalised : branchedRoutes.finalize {} = .ok branchedRoutes.canonical := by
  have haccepted : (branchedRoutes.finalize {}).isOk = true := by decide +kernel
  cases hresult : branchedRoutes.finalize {} with
  | error e =>
    rw [hresult] at haccepted
    cases haccepted
  | ok result => rw [(RouteGeneration.finalize_eq_ok.mp hresult).2]

def pairedTopology : TopologyGeneration :=
  { id := ⟨6⟩, epoch := ⟨1⟩, incarnation := ⟨1⟩, revision := ⟨1⟩, source := ⟨2⟩,
    devices := [{ id := ⟨1⟩ },{ id := ⟨2⟩ }],
    ports := [{ id := ⟨10⟩, device := ⟨1⟩ },{ id := ⟨11⟩, device := ⟨2⟩ }],
    links := [{ id := ⟨20⟩, localDevice := ⟨1⟩, localPort := ⟨10⟩, remoteDevice := ⟨2⟩,
                remotePort := ⟨11⟩ }] }

/-- The same topology with its devices and ports in another order. -/
def pairedTopologyTurned : TopologyGeneration :=
  { pairedTopology with
    devices := [{ id := ⟨2⟩ },{ id := ⟨1⟩ }]
    ports := [{ id := ⟨11⟩, device := ⟨2⟩ },{ id := ⟨10⟩, device := ⟨1⟩ }] }

theorem pairedTopology_rearranges : pairedTopology.Rearranges pairedTopologyTurned where
  rest := rfl
  devices := by decide
  ports := by decide
  links := .refl _

theorem pairedTopology_finalised : pairedTopology.finalize {} = .ok pairedTopology.canonical := by
  have haccepted : (pairedTopology.finalize {}).isOk = true := by decide +kernel
  cases hresult : pairedTopology.finalize {} with
  | error e =>
    rw [hresult] at haccepted
    cases haccepted
  | ok result => rw [(TopologyGeneration.finalize_eq_ok.mp hresult).2]

theorem finalize_canonicalises_turned :
    branchedRoutesTurned.finalize {} = .ok branchedRoutes.canonical ∧
      pairedTopologyTurned.finalize {} = .ok pairedTopology.canonical ∧
      (∃ group, branchedRoutes.canonical.findGroup ⟨7⟩ = some group ∧
        group.members = [⟨8⟩,⟨9⟩]) ∧
      pairedTopology.canonical.findDevice ⟨2⟩ = some { id := ⟨2⟩ } := by
  obtain ⟨hroutes,htopology,-,-,hgroup,hdevice⟩ := finalize_canonicalises {}
  refine ⟨(hroutes _ _ branchedRoutes_rearranges _).mp branchedRoutes_finalised,
    (htopology _ _ pairedTopology_rearranges _).mp pairedTopology_finalised,
    ⟨{ id := ⟨7⟩, origin := ⟨1⟩, destination := ⟨2⟩, members := [⟨8⟩,⟨9⟩] },?_,rfl⟩,?_⟩
  · exact ((hgroup _ _ branchedRoutes_finalised).2 _ _).mpr ⟨by decide +kernel,rfl⟩
  · exact ((hdevice _ _ pairedTopology_finalised).1 _ _).mpr ⟨by decide +kernel,rfl⟩

end PathObservatory
