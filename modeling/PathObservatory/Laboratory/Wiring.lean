import Mathlib.Data.List.ProdSigma
import PathObservatory.Domain.LinkResolution
import PathObservatory.Laboratory.Fabric
import PathObservatory.Library.Distinct

/-! # The wiring of the laboratory

The identities of devices, ports and links are computed from the member and the position.
As long as no member is so long that it runs into the links of the next one, every port
belongs to one device and is the end of one link.
-/
namespace PathObservatory.Synthetic
open Distinct

/-- The sizes under which the default bounds let a laboratory be built. -/
structure LabOptions.Sized (options : LabOptions) : Prop where
  hops_ge : 2 ≤ options.hops
  hops_le : options.hops ≤ 512
  members_pos : 0 < options.members
  members_le : options.members ≤ 64
  apart : options.members = 1 ∨ options.hops ≤ 101

def deviceCode (member position hopCount : ℕ) : ℕ :=
  if position = 0 then 10 else if position + 1 = hopCount then 40
  else 100 + member * 100 + position

theorem deviceFor_toNat {member position : ℕ} (hmember : member < 64) (hposition : position < 512)
    (hopCount : ℕ) :
    (deviceFor member position hopCount).value.toNat = deviceCode member position hopCount := by
  unfold deviceFor deviceCode
  split_ifs
  · rfl
  · rfl
  · simp [kMiddleDeviceBase]
    omega

theorem portFor_toNat {device : DeviceId} {member : ℕ} {index : UInt64}
    (hdevice : device.value.toNat < 10000) (hmember : member < 64) (hindex : index.toNat < 10) :
    (portFor device member index).value.toNat =
      device.value.toNat * 100 + member * 10 + index.toNat := by
  simp [portFor]
  omega

theorem linkFor_toNat {member position : ℕ} (hmember : member < 64) (hposition : position < 512) :
    (linkFor member position).value.toNat = 1000 + member * 100 + position := by
  simp [linkFor, kLinkBase]
  omega

theorem deviceCode_lt {member position : ℕ} (hmember : member < 64) (hposition : position < 512)
    (hopCount : ℕ) : deviceCode member position hopCount < 10000 := by
  unfold deviceCode
  split_ifs <;> omega

section Identities
variable {options : LabOptions} (h : options.Sized) {m n p q : ℕ}
include h

/-- A port says which member uses which of its two sides of which device. -/
theorem portFor_inj (hm : m < options.members) (hp : p < options.hops) (hn : n < options.members)
    (hq : q < options.hops) {i j : UInt64} (hi : i = 1 ∨ i = 2) (hj : j = 1 ∨ j = 2)
    (heq : portFor (deviceFor m p options.hops) m i = portFor (deviceFor n q options.hops) n j) :
    m = n ∧ deviceFor m p options.hops = deviceFor n q options.hops ∧ i = j := by
  obtain ⟨-,hops_le,-,members_le,apart⟩ := h
  have hm64 : m < 64 := by omega
  have hn64 : n < 64 := by omega
  have hside : ∀ {k : UInt64}, k = 1 ∨ k = 2 → k.toNat = 1 ∨ k.toNat = 2 := by
    rintro k (rfl | rfl)
    · exact Or.inl rfl
    · exact Or.inr rfl
  have hleft := deviceFor_toNat hm64 (by omega : p < 512) options.hops
  have hright := deviceFor_toNat hn64 (by omega : q < 512) options.hops
  have hleftLt := deviceCode_lt hm64 (by omega : p < 512) options.hops
  have hrightLt := deviceCode_lt hn64 (by omega : q < 512) options.hops
  have hi := hside hi
  have hj := hside hj
  have hcodes := congrArg (fun port : PortId => port.value.toNat) heq
  rw [portFor_toNat (by omega) hm64 (by omega), portFor_toNat (by omega) hn64 (by omega), hleft,
    hright] at hcodes
  have hsame : m = n ∧ deviceCode m p options.hops = deviceCode n q options.hops ∧
      i.toNat = j.toNat := by
    unfold deviceCode at hcodes ⊢
    split_ifs at hcodes ⊢ <;> omega
  obtain ⟨hmember,hdevice,hindex⟩ := hsame
  refine ⟨hmember,StrongId.toNat_injective ?_,UInt64.toNat_inj.mp hindex⟩
  exact hleft.trans (hdevice.trans hright.symm)

theorem deviceFor_inj (hm : m < options.members) (hp : p < options.hops) (hq : q < options.hops)
    (heq : deviceFor m p options.hops = deviceFor m q options.hops) : p = q := by
  obtain ⟨-,hops_le,-,members_le,-⟩ := h
  have hm64 : m < 64 := by omega
  have hcodes := congrArg (fun device : DeviceId => device.value.toNat) heq
  rw [deviceFor_toNat hm64 (by omega), deviceFor_toNat hm64 (by omega)] at hcodes
  unfold deviceCode at hcodes
  split_ifs at hcodes <;> omega

theorem linkFor_inj (hm : m < options.members) (hp : p + 1 < options.hops)
    (hn : n < options.members) (hq : q + 1 < options.hops) (heq : linkFor m p = linkFor n q) :
    m = n ∧ p = q := by
  obtain ⟨-,hops_le,-,members_le,apart⟩ := h
  have hcodes := congrArg (fun link : LinkId => link.value.toNat) heq
  rw [linkFor_toNat (by omega) (by omega), linkFor_toNat (by omega) (by omega)] at hcodes
  omega

end Identities

namespace LabOptions
variable (options : LabOptions)

/-- The cells of the laboratory: a member and a position on its path. -/
def cells : List (ℕ × ℕ) := List.range options.members ×ˢ List.range options.hops

theorem mem_cells {options : LabOptions} {cell : ℕ × ℕ} :
    cell ∈ options.cells ↔ cell.1 < options.members ∧ cell.2 < options.hops := by
  obtain ⟨m,p⟩ := cell
  simp [cells]

theorem cells_length : options.cells.length = options.members * options.hops := by
  simp [cells, List.length_product]

theorem cells_nodup : options.cells.Nodup := List.nodup_range.product List.nodup_range

def cellDevice (cell : ℕ × ℕ) : DeviceId := deviceFor cell.1 cell.2 options.hops

def cellPorts (cell : ℕ × ℕ) : List PortRecord :=
  [portRecord (options.cellDevice cell) cell.1 1,portRecord (options.cellDevice cell) cell.1 2]

def cellLinks (cell : ℕ × ℕ) : List LinkRecord :=
  if cell.2 + 1 < options.hops then [options.linkRecord cell.1 cell.2] else []

/-- The loops over members and positions go from cell to cell. -/
theorem topologyPlan_eq : options.topologyPlan =
    options.cells.foldl (fun g cell => options.layHop cell.1 g cell.2)
      { id := ⟨options.topologyGeneration⟩
        epoch := ⟨options.planEpoch⟩
        incarnation := ⟨options.incarnation⟩
        revision := ⟨2⟩
        sequence := ⟨9⟩
        source := options.planning.id
        created := created
        received := created } := by
  have hcells : options.cells = (List.range options.members).flatMap fun member =>
      (List.range options.hops).map (Prod.mk member) := rfl
  rw [hcells, List.foldl_flatMap]
  simp only [List.foldl_map]
  rfl

theorem layDevice_eq (g : TopologyGeneration) (device : DeviceId) :
    layDevice g device =
      { g with devices := addNew DeviceRecord.id g.devices (deviceRecord device) } := by
  unfold layDevice
  by_cases hknown : (g.devices.any fun known => known.id = device) = true
  · have hkept : addNew DeviceRecord.id g.devices (deviceRecord device) = g.devices :=
      if_pos hknown
    rw [if_pos hknown, hkept]
  · have hadded : addNew DeviceRecord.id g.devices (deviceRecord device) =
        g.devices ++ [deviceRecord device] := if_neg hknown
    rw [if_neg hknown, hadded]

theorem layPort_eq (device : DeviceId) (member : ℕ) (g : TopologyGeneration) (index : UInt64) :
    layPort device member g index =
      { g with ports := addNew PortRecord.id g.ports (portRecord device member index) } := by
  unfold layPort
  by_cases hknown : (g.ports.any fun known => known.id = portFor device member index) = true
  · have hkept : addNew PortRecord.id g.ports (portRecord device member index) = g.ports :=
      if_pos hknown
    rw [if_pos hknown, hkept]
  · have hadded : addNew PortRecord.id g.ports (portRecord device member index) =
        g.ports ++ [portRecord device member index] := if_neg hknown
    rw [if_neg hknown, hadded]

theorem layHop_eq (g : TopologyGeneration) (cell : ℕ × ℕ) :
    options.layHop cell.1 g cell.2 =
      { g with
        devices := addNew DeviceRecord.id g.devices (deviceRecord (options.cellDevice cell))
        ports := (options.cellPorts cell).foldl (addNew PortRecord.id) g.ports
        links := g.links ++ options.cellLinks cell } := by
  unfold layHop cellLinks cellPorts
  simp only [List.foldl_cons, List.foldl_nil, layDevice_eq, layPort_eq]
  split_ifs
  · rfl
  · rw [List.append_nil]
    rfl

/-- Each part of the topology is extended by what the cells add to it. -/
theorem topologyPlan_parts :
    options.topologyPlan.devices =
      (options.cells.map fun cell => deviceRecord (options.cellDevice cell)).foldl
        (addNew DeviceRecord.id) [] ∧
    options.topologyPlan.ports =
      (options.cells.flatMap options.cellPorts).foldl (addNew PortRecord.id) [] ∧
    options.topologyPlan.links = options.cells.flatMap options.cellLinks := by
  have hconcat : ∀ known more : List LinkRecord,
      more.foldl (fun links link => links ++ [link]) known = known ++ more := by
    intro known more
    rw [List.foldl_append_eq_append, ← List.flatMap_def, List.flatMap_singleton']
  rw [topologyPlan_eq]
  refine ⟨?_,?_,?_⟩
  · rw [foldl_part TopologyGeneration.devices (addNew DeviceRecord.id)
      fun cell => [deviceRecord (options.cellDevice cell)]]
    · rw [List.map_eq_flatMap]
    · intro g cell
      rw [layHop_eq]
      rfl
  · rw [foldl_part TopologyGeneration.ports (addNew PortRecord.id) options.cellPorts]
    intro g cell
    rw [layHop_eq]
  · rw [foldl_part TopologyGeneration.links (fun links link => links ++ [link]) options.cellLinks]
    · exact hconcat _ _
    · intro g cell
      rw [layHop_eq, hconcat]

theorem foldl_layHop_rest (cells : List (ℕ × ℕ)) (g : TopologyGeneration) :
    cells.foldl (fun g cell => options.layHop cell.1 g cell.2) g =
      { g with
        devices := (cells.foldl (fun g cell => options.layHop cell.1 g cell.2) g).devices
        ports := (cells.foldl (fun g cell => options.layHop cell.1 g cell.2) g).ports
        links := (cells.foldl (fun g cell => options.layHop cell.1 g cell.2) g).links } := by
  induction cells generalizing g with
  | nil => rfl
  | cons cell rest ih =>
    rw [List.foldl_cons, ih, layHop_eq]

/-- The rest of the topology is as it was before anything was laid. -/
theorem topologyPlan_rest : options.topologyPlan =
    { id := ⟨options.topologyGeneration⟩
      epoch := ⟨options.planEpoch⟩
      incarnation := ⟨options.incarnation⟩
      revision := ⟨2⟩
      sequence := ⟨9⟩
      source := options.planning.id
      created := created
      received := created
      devices := options.topologyPlan.devices
      ports := options.topologyPlan.ports
      links := options.topologyPlan.links } := by
  conv_lhs => rw [topologyPlan_eq, foldl_layHop_rest]
  rw [← topologyPlan_eq]

section Parts
variable {options : LabOptions}

theorem mem_devices {device : DeviceRecord} : device ∈ options.topologyPlan.devices ↔
    ∃ cell ∈ options.cells, deviceRecord (options.cellDevice cell) = device := by
  rw [(topologyPlan_parts options).1, mem_foldl_addNew]
  · simp
  · intro a ha b hb heq
    simp only [List.nil_append, List.mem_map] at ha hb
    obtain ⟨_,-,rfl⟩ := ha
    obtain ⟨_,-,rfl⟩ := hb
    exact congrArg deviceRecord heq

theorem mem_ports (h : options.Sized) {port : PortRecord} : port ∈ options.topologyPlan.ports ↔
    ∃ cell ∈ options.cells, port ∈ options.cellPorts cell := by
  rw [(topologyPlan_parts options).2.1, mem_foldl_addNew]
  · simp
  · intro a ha b hb heq
    simp only [List.nil_append, List.mem_flatMap, cellPorts, List.mem_cons, List.not_mem_nil,
      or_false] at ha hb
    obtain ⟨⟨m,p⟩,hcell,ha⟩ := ha
    obtain ⟨⟨n,q⟩,hother,hb⟩ := hb
    obtain ⟨hm,hp⟩ := mem_cells.mp hcell
    obtain ⟨hn,hq⟩ := mem_cells.mp hother
    obtain ⟨i,hi,rfl⟩ : ∃ i : UInt64, (i = 1 ∨ i = 2) ∧
        a = portRecord (options.cellDevice (m,p)) m i := by
      rcases ha with ha | ha
      · exact ⟨1,Or.inl rfl,ha⟩
      · exact ⟨2,Or.inr rfl,ha⟩
    obtain ⟨j,hj,rfl⟩ : ∃ j : UInt64, (j = 1 ∨ j = 2) ∧
        b = portRecord (options.cellDevice (n,q)) n j := by
      rcases hb with hb | hb
      · exact ⟨1,Or.inl rfl,hb⟩
      · exact ⟨2,Or.inr rfl,hb⟩
    obtain ⟨rfl,hdevice,rfl⟩ := portFor_inj h hm hp hn hq hi hj heq
    exact congrArg (portRecord · m i) hdevice

theorem mem_links {link : LinkRecord} : link ∈ options.topologyPlan.links ↔
    ∃ m p, m < options.members ∧ p + 1 < options.hops ∧ options.linkRecord m p = link := by
  rw [(topologyPlan_parts options).2.2, List.mem_flatMap]
  constructor
  · rintro ⟨⟨m,p⟩,hcell,hlink⟩
    unfold cellLinks at hlink
    split_ifs at hlink with hnext
    · exact ⟨m,p,(mem_cells.mp hcell).1,hnext,(List.mem_singleton.mp hlink).symm⟩
    · cases hlink
  · rintro ⟨m,p,hm,hp,rfl⟩
    refine ⟨(m,p),mem_cells.mpr ⟨hm,by simp only; omega⟩,?_⟩
    exact List.mem_of_mem_head? (by simp [cellLinks, hp])

theorem links_eq : options.topologyPlan.links =
    (options.cells.filter fun cell => cell.2 + 1 < options.hops).map fun cell =>
      options.linkRecord cell.1 cell.2 := by
  have hcells : ∀ cells : List (ℕ × ℕ), cells.flatMap options.cellLinks =
      (cells.filter fun cell => cell.2 + 1 < options.hops).map fun cell =>
        options.linkRecord cell.1 cell.2 := by
    intro cells
    induction cells with
    | nil => rfl
    | cons cell rest ih =>
      by_cases hnext : cell.2 + 1 < options.hops
      · simp [cellLinks, hnext, ih]
      · simp [cellLinks, hnext, ih]
  rw [(topologyPlan_parts options).2.2, hcells]

theorem links_distinct (h : options.Sized) : (options.topologyPlan.links.map (·.id)).Nodup := by
  rw [links_eq, List.map_map]
  refine List.Nodup.map_on ?_ (options.cells_nodup.filter _)
  rintro ⟨m,p⟩ ha ⟨n,q⟩ hb heq
  obtain ⟨hcell,hp⟩ := List.mem_filter.mp ha
  obtain ⟨hother,hq⟩ := List.mem_filter.mp hb
  obtain ⟨rfl,rfl⟩ := linkFor_inj h (mem_cells.mp hcell).1 (of_decide_eq_true hp)
    (mem_cells.mp hother).1 (of_decide_eq_true hq) heq
  rfl

/-- The parts are no longer than the cells make them. -/
theorem parts_length_le :
    options.topologyPlan.devices.length ≤ options.members * options.hops ∧
    options.topologyPlan.ports.length ≤ options.members * options.hops * 2 ∧
    options.topologyPlan.links.length ≤ options.members * options.hops := by
  obtain ⟨hdevices,hports,-⟩ := topologyPlan_parts options
  have hpairs : ∀ cells : List (ℕ × ℕ),
      (cells.flatMap options.cellPorts).length = cells.length * 2 := by
    intro cells
    induction cells with
    | nil => rfl
    | cons cell rest ih =>
      rw [List.flatMap_cons, List.length_append, ih, List.length_cons]
      simp only [cellPorts, List.length_cons, List.length_nil]
      omega
  refine ⟨?_,?_,?_⟩
  · rw [hdevices, ← cells_length]
    refine length_foldl_addNew_le.trans ?_
    simp
  · rw [hports, ← cells_length, ← hpairs]
    refine length_foldl_addNew_le.trans ?_
    simp
  · rw [links_eq, List.length_map, ← cells_length]
    exact List.length_filter_le _ _

end Parts

/-- The identities that the options give are stated. -/
structure Identified : Prop where
  planning : options.planningSourceId ≠ 0
  epoch : options.planEpoch ≠ 0
  incarnation : options.incarnation ≠ 0
  routeGeneration : options.routeGeneration ≠ 0
  topologyGeneration : options.topologyGeneration ≠ 0
  revision : options.planRevision ≠ 0

section Accepted
variable {options : LabOptions}

theorem device_valid (h : options.Sized) {m p : ℕ} (hm : m < options.members)
    (hp : p < options.hops) : (deviceFor m p options.hops).valid = true := by
  obtain ⟨-,hops_le,-,members_le,-⟩ := h
  have hcode := deviceFor_toNat (by omega : m < 64) (by omega : p < 512) options.hops
  have hpositive : 0 < deviceCode m p options.hops := by
    unfold deviceCode
    split_ifs <;> omega
  simp only [StrongId.valid, bne_iff_ne, ne_eq]
  intro hzero
  rw [hzero] at hcode
  exact absurd hcode.symm (Nat.ne_of_gt hpositive)

theorem port_valid (h : options.Sized) {m p : ℕ} (hm : m < options.members)
    (hp : p < options.hops) {i : UInt64} (hi : i = 1 ∨ i = 2) :
    (portFor (deviceFor m p options.hops) m i).valid = true := by
  obtain ⟨-,hops_le,-,members_le,-⟩ := h
  have hlt := deviceCode_lt (by omega : m < 64) (by omega : p < 512) options.hops
  rw [← deviceFor_toNat (by omega) (by omega)] at hlt
  have hside : i.toNat = 1 ∨ i.toNat = 2 := by
    rcases hi with rfl | rfl
    · exact Or.inl rfl
    · exact Or.inr rfl
  have hcode := portFor_toNat hlt (by omega : m < 64) (by omega : i.toNat < 10)
  simp only [StrongId.valid, bne_iff_ne, ne_eq]
  intro hzero
  rw [hzero] at hcode
  have hnone : (0 : UInt64).toNat = 0 := rfl
  omega

theorem link_valid (h : options.Sized) {m p : ℕ} (hm : m < options.members)
    (hp : p < options.hops) : (linkFor m p).valid = true := by
  obtain ⟨-,hops_le,-,members_le,-⟩ := h
  have hcode := linkFor_toNat (by omega : m < 64) (by omega : p < 512)
  simp only [StrongId.valid, bne_iff_ne, ne_eq]
  intro hzero
  rw [hzero] at hcode
  have hnone : (0 : UInt64).toNat = 0 := rfl
  omega

/-- Both ports of a cell are on its device. -/
theorem attached (h : options.Sized) {m p : ℕ} (hm : m < options.members)
    (hp : p < options.hops) {i : UInt64} (hi : i = 1 ∨ i = 2) :
    TopologyGeneration.Attached options.topologyPlan.ports
      (portFor (deviceFor m p options.hops) m i) (deviceFor m p options.hops) := by
  refine ⟨portRecord (deviceFor m p options.hops) m i,(mem_ports h).mpr
    ⟨(m,p),mem_cells.mpr ⟨hm,hp⟩,?_⟩,rfl,rfl⟩
  rcases hi with rfl | rfl
  · exact List.mem_cons_self
  · exact List.mem_cons_of_mem _ List.mem_cons_self

theorem topologyPlan_accepted (h : options.Sized) (hids : options.Identified) :
    TopologyGeneration.Accepted {} options.topologyPlan where
  identified := by
    rw [topologyPlan_rest]
    simp [StrongId.valid, hids.topologyGeneration, hids.epoch, hids.incarnation, hids.planning,
      planning]
  devices_le := by
    have hsize := Nat.mul_le_mul h.members_le h.hops_le
    exact (parts_length_le.1.trans hsize).trans (by decide)
  links_le := by
    have hsize := Nat.mul_le_mul h.members_le h.hops_le
    exact (parts_length_le.2.2.trans hsize).trans (by decide)
  ports_le := by
    have hsize := Nat.mul_le_mul h.members_le h.hops_le
    refine parts_length_le.2.1.trans ?_
    simp only
    omega
  devices_valid := by
    intro device hdevice
    obtain ⟨⟨m,p⟩,hcell,rfl⟩ := mem_devices.mp hdevice
    obtain ⟨hm,hp⟩ := mem_cells.mp hcell
    exact device_valid h hm hp
  devices_distinct := by
    rw [(topologyPlan_parts options).1]
    exact nodup_foldl_addNew List.nodup_nil
  ports_pass := by
    intro port hport
    obtain ⟨⟨m,p⟩,hcell,hport⟩ := (mem_ports h).mp hport
    obtain ⟨hm,hp⟩ := mem_cells.mp hcell
    have hknown : ∃ device ∈ options.topologyPlan.devices,
        device.id = deviceFor m p options.hops :=
      ⟨_,mem_devices.mpr ⟨(m,p),hcell,rfl⟩,rfl⟩
    simp only [cellPorts, List.mem_cons, List.not_mem_nil, or_false] at hport
    rcases hport with rfl | rfl
    · exact ⟨port_valid h hm hp (Or.inl rfl),device_valid h hm hp,hknown⟩
    · exact ⟨port_valid h hm hp (Or.inr rfl),device_valid h hm hp,hknown⟩
  ports_distinct := by
    rw [(topologyPlan_parts options).2.1]
    exact nodup_foldl_addNew List.nodup_nil
  links_pass := by
    intro link hlink
    obtain ⟨m,p,hm,hp,rfl⟩ := mem_links.mp hlink
    have hp' : p < options.hops := by omega
    exact {
      id_valid := link_valid h hm hp'
      localDevice_valid := device_valid h hm hp'
      localPort_valid := port_valid h hm hp' (Or.inr rfl)
      remoteDevice_valid := device_valid h hm hp
      remotePort_valid := port_valid h hm hp (Or.inl rfl)
      local_attached := attached h hm hp' (Or.inr rfl)
      remote_attached := attached h hm hp (Or.inl rfl) }
  links_distinct := links_distinct h

end Accepted

section Correlation
variable {options : LabOptions} {index : TopologyIndex} {m p : ℕ}

/-- The egress of a cell is the end of its own link and of no other. -/
theorem linksAt_egress (h : options.Sized) (hm : m < options.members) (hp : p < options.hops) :
    options.topologyPlan.canonical.linksAt
        ⟨deviceFor m p options.hops,egressFor (deviceFor m p options.hops) m⟩ =
      if p + 1 < options.hops then {options.linkRecord m p} else ∅ := by
  have hmem : ∀ link, link ∈ options.topologyPlan.canonical.linksAt
      ⟨deviceFor m p options.hops,egressFor (deviceFor m p options.hops) m⟩ ↔
        p + 1 < options.hops ∧ link = options.linkRecord m p := by
    intro link
    simp only [TopologyGeneration.linksAt, Finset.mem_filter, List.mem_toFinset,
      TopologyGeneration.canonical, TopologyGeneration.sorted, List.mem_insertionSort, mem_links]
    constructor
    · rintro ⟨⟨n,q,hn,hq,rfl⟩,htouches⟩
      have hq' : q < options.hops := by omega
      rcases htouches with hlocal | hremote
      · have hport := congrArg HopEndpoint.port hlocal
        obtain ⟨rfl,hdevice,-⟩ :=
          portFor_inj h hn hq' hm hp (Or.inr rfl) (Or.inr rfl) hport
        obtain rfl := deviceFor_inj h hn hq' hp hdevice
        exact ⟨hq,rfl⟩
      · have hport := congrArg HopEndpoint.port hremote
        obtain ⟨-,-,hside⟩ := portFor_inj h hn hq hm hp (Or.inl rfl) (Or.inr rfl) hport
        exact absurd hside (by decide)
    · rintro ⟨hnext,rfl⟩
      exact ⟨⟨m,p,hm,hnext,rfl⟩,Or.inl rfl⟩
  ext link
  rw [hmem]
  split_ifs with hnext
  · simp [hnext]
  · simp [hnext]

theorem resolveLink_egress (h : options.Sized)
    (hindex : TopologyIndex.build options.topologyPlan.canonical {} = .ok index)
    (hm : m < options.members) (hp : p < options.hops) :
    ∃ resolution, index.resolveLink (deviceFor m p options.hops)
        (egressFor (deviceFor m p options.hops) m) = .ok resolution ∧
      (resolution.known = true ↔ p + 1 < options.hops) ∧
      (resolution.known = true → resolution.link = linkFor m p) := by
  have hdistinct : (options.topologyPlan.canonical.links.map (·.id)).Nodup := by
    have hsorted := List.perm_insertionSort (fun a b : LinkRecord => a.id ≤ b.id)
      options.topologyPlan.links
    exact (hsorted.map _).nodup_iff.mpr (links_distinct h)
  have hresolves := TopologyIndex.resolution_resolves hdistinct
    ⟨deviceFor m p options.hops,egressFor (deviceFor m p options.hops) m⟩
  rw [linksAt_egress h hm hp] at hresolves
  refine ⟨_,TopologyIndex.resolveLink_eq hindex _ _,?_,fun hknown => ?_⟩
  · rw [hresolves.known]
    split_ifs with hnext <;> simp [hnext]
  · obtain ⟨link,hlink,hnamed⟩ := hresolves.named hknown
    split_ifs at hlink with hnext
    · rw [hnamed, Finset.mem_singleton.mp hlink]
      rfl
    · cases hlink

end Correlation

end LabOptions

end PathObservatory.Synthetic
