import PathObservatory.Domain.Finalize
import PathObservatory.Engine.Agreement
import PathObservatory.Engine.Classify
import PathObservatory.Engine.Correlation
import PathObservatory.Engine.FalseDivergence
import PathObservatory.Laboratory.Wiring

/-! # The plan of the laboratory

The plan has one group, whose members are all its paths. The laboratory is built exactly
when its sizes fit, its identities are stated and its links are told apart.
-/
namespace PathObservatory.Synthetic.LabOptions
open Ranking
variable {options : LabOptions} {m p : ℕ}

theorem pathId_toNat (hm : m < 64) : (pathId m).value.toNat = 100 + m := by
  simp [pathId]
  omega

theorem pathId_inj {n : ℕ} (hm : m < 64) (hn : n < 64) (heq : pathId m = pathId n) : m = n := by
  have hcodes := congrArg (fun id : PathId => id.value.toNat) heq
  simp only [pathId_toNat hm, pathId_toNat hn] at hcodes
  omega

theorem expectedPath_hops (options : LabOptions) (m i : ℕ) :
    (options.expectedPath m).hops[i]? =
      if i < options.hops then some (options.expectedHop m i) else none := by
  unfold expectedPath
  rw [List.getElem?_map]
  split_ifs with hi
  · rw [List.getElem?_range hi]
    rfl
  · rw [List.getElem?_eq_none (by simpa using hi)]
    rfl

theorem expectedHop_passes (h : options.Sized) (hm : m < options.members)
    (hp : p < options.hops) : RouteGeneration.HopPasses p (options.expectedHop m p) where
  id_valid := by
    have hm64 : m < 64 := lt_of_lt_of_le hm h.members_le
    have hp512 : p < 512 := lt_of_lt_of_le hp h.hops_le
    have hcode : (options.expectedHop m p).id.value.toNat = 1000 + m * 1000 + p := by
      simp [expectedHop]
      omega
    simp only [StrongId.valid, bne_iff_ne, ne_eq]
    intro hzero
    rw [hzero] at hcode
    have hnone : (0 : UInt64).toNat = 0 := rfl
    omega
  device_valid := device_valid h hm hp
  ingress_valid := port_valid h hm hp (Or.inl rfl)
  egress_valid := port_valid h hm hp (Or.inr rfl)
  index_eq := by
    have hp512 : p < 512 := lt_of_lt_of_le hp h.hops_le
    simp [expectedHop]
    omega

theorem pathId_valid (hm : m < 64) : (pathId m).valid = true := by
  have hcode := pathId_toNat hm
  simp only [StrongId.valid, bne_iff_ne, ne_eq]
  intro hzero
  rw [hzero] at hcode
  have hnone : (0 : UInt64).toNat = 0 := rfl
  omega

theorem expectedPath_passes (h : options.Sized) (hids : options.Identified)
    (hm : m < options.members) :
    RouteGeneration.PathPasses ⟨options.routeGeneration⟩ {} (options.expectedPath m) where
  id_valid := pathId_valid (lt_of_lt_of_le hm h.members_le)
  group_valid := rfl
  generation_valid := by simp [expectedPath, StrongId.valid, hids.routeGeneration]
  generation_eq := rfl
  hops_ne_nil := by
    intro hnil
    have hlength := congrArg List.length hnil
    simp [expectedPath] at hlength
    have hge := h.hops_ge
    omega
  hops_le := by simpa [expectedPath] using h.hops_le
  hops_pass := by
    intro i hop hhop
    rw [expectedPath_hops] at hhop
    split_ifs at hhop with hi
    obtain rfl := Option.some.inj hhop
    exact expectedHop_passes h hm hi

theorem routesPlan_accepted (h : options.Sized) (hids : options.Identified) :
    RouteGeneration.Accepted {} options.routesPlan where
  identified := by
    simp [routesPlan, StrongId.valid, planning, hids.planning, hids.epoch, hids.incarnation,
      hids.routeGeneration, hids.topologyGeneration, hids.revision]
  paths_le := by
    have hmembers := h.members_le
    simp [routesPlan]
    omega
  groups_le := by simp [routesPlan]
  paths_pass := by
    intro path hpath
    obtain ⟨m,hm,rfl⟩ := List.mem_map.mp hpath
    exact expectedPath_passes h hids (List.mem_range.mp hm)
  paths_distinct := by
    have hmembers := h.members_le
    simp only [routesPlan, List.map_map]
    refine List.Nodup.map_on ?_ List.nodup_range
    intro m hm n hn heq
    rw [List.mem_range] at hm hn
    exact pathId_inj (by omega) (by omega) heq
  groups_pass := by
    intro group hgroup
    obtain rfl : group = options.pathGroup := List.mem_singleton.mp hgroup
    have hge := h.hops_ge
    exact {
      id_valid := rfl
      origin_valid := device_valid h h.members_pos (by omega)
      destination_valid := device_valid h h.members_pos (by omega)
      members_le := by simpa [pathGroup] using h.members_le
      members_ne_nil := by
        have hpos := h.members_pos
        simp [pathGroup]
        omega
      members_known := by
        intro member hmember
        obtain ⟨m,hm,rfl⟩ := List.mem_map.mp hmember
        exact ⟨options.expectedPath m,List.mem_map_of_mem hm,rfl,rfl⟩ }
  groups_distinct := List.nodup_singleton _

theorem planning_validate : options.planning.validate = .ok () ↔ options.planningSourceId ≠ 0 := by
  unfold SourceDescriptor.validate
  simp only [↓require_bind_eq_ok, require_eq_ok]
  constructor
  · rintro ⟨hid,-⟩
    simpa [planning, StrongId.valid] using hid
  · intro hid
    have hname : decide (bytesOf "laboratory-planning-authority" ≠ []) = true ∧
        decide ((bytesOf "laboratory-planning-authority").length ≤ 256) = true := by
      decide +kernel
    exact ⟨by simpa [planning, StrongId.valid] using hid,hname.1,hname.2,rfl,rfl,rfl,rfl,rfl,rfl,rfl⟩

/-- The members are paths of the plan that are found under their identities. -/
theorem findPath_pathId (h : options.Sized) (hids : options.Identified)
    (hm : m < options.members) :
    options.routesPlan.canonical.findPath (pathId m) =
      some (options.expectedPath m).stamped := by
  have hsorted := RouteGeneration.sorted_paths_pairwise (routesPlan_accepted h hids).paths_distinct
  have hpath : (options.expectedPath m).stamped ∈ options.routesPlan.sorted.paths :=
    RouteGeneration.mem_sorted_paths.mpr
      ⟨options.expectedPath m,List.mem_map_of_mem (List.mem_range.mpr hm),rfl⟩
  exact lookupSorted_of_mem hsorted hpath

theorem findGroup_groupId (options : LabOptions) :
    options.routesPlan.canonical.findGroup groupId = some options.pathGroup.tidied := by
  have hgroups : options.routesPlan.canonical.groups = [options.pathGroup.tidied] := rfl
  unfold RouteGeneration.findGroup
  rw [hgroups]
  rfl

theorem mem_memberPaths (h : options.Sized) (hids : options.Identified) {path : ExpectedPath} :
    path ∈ memberPaths options.routesPlan.canonical options.pathGroup.tidied ↔
      ∃ m < options.members, (options.expectedPath m).stamped = path := by
  unfold memberPaths
  rw [List.mem_filterMap]
  constructor
  · rintro ⟨member,hmember,hfind⟩
    obtain ⟨m,hm,rfl⟩ := List.mem_map.mp (PathGroup.mem_tidied.mp hmember)
    rw [List.mem_range] at hm
    rw [findPath_pathId h hids hm] at hfind
    exact ⟨m,hm,Option.some.inj hfind⟩
  · rintro ⟨m,hm,rfl⟩
    refine ⟨pathId m,PathGroup.mem_tidied.mpr ?_,findPath_pathId h hids hm⟩
    exact List.mem_map_of_mem (List.mem_range.mpr hm)

/-- Two members so long that the links of the first run into those of the second are not
told apart. -/
theorem sized_of_accepted (hge : 2 ≤ options.hops) (hle : options.hops ≤ 512)
    (hpos : options.members ≠ 0) (hmembers : options.members ≤ 64)
    (h : TopologyGeneration.Accepted {} options.topologyPlan) : options.Sized := by
  refine ⟨hge,hle,Nat.pos_of_ne_zero hpos,hmembers,?_⟩
  by_contra hclash
  simp only [not_or, not_le] at hclash
  have hfirst : options.linkRecord 0 100 ∈ options.topologyPlan.links :=
    mem_links.mpr ⟨0,100,by omega,by omega,rfl⟩
  have hsecond : options.linkRecord 1 0 ∈ options.topologyPlan.links :=
    mem_links.mpr ⟨1,0,by omega,by omega,rfl⟩
  have hsame : (options.linkRecord 0 100).id = (options.linkRecord 1 0).id := rfl
  have heq := List.inj_on_of_nodup_map h.links_distinct hfirst hsecond hsame
  have hports := congrArg (fun link : LinkRecord => link.localDevice.value.toNat) heq
  simp only [linkRecord] at hports
  rw [deviceFor_toNat (by decide) (by decide), deviceFor_toNat (by decide) (by decide)] at hports
  unfold deviceCode at hports
  split_ifs at hports <;> omega

/-- What is needed to build the laboratory. -/
structure Buildable (options : LabOptions) : Prop extends options.Sized, options.Identified where
  evidence_le : options.evidenceCount.toNat ≤ 4096
  observer_valid : options.observer.validate = .ok ()

/-- What is built. -/
def fabric (options : LabOptions) : LabFabric where
  topology := options.topologyPlan.canonical
  routes := options.routesPlan.canonical
  sources := [options.planning,options.observer]
  evidence := (List.range options.evidenceCount.toNat).map (options.observation · |>.seal_)
  divergentDevice := divergentDeviceId
  primaryPath := pathId 0
  group := groupId

theorem buildLabFabric_eq_ok {built : LabFabric} :
    buildLabFabric options {} = .ok built ↔ options.Buildable ∧ options.fabric = built := by
  unfold buildLabFabric
  simp only [↓require_bind_eq_ok, bind_eq_ok, pure_eq_ok, decide_eq_true_eq, Unique.exists_iff,
    PUnit.default_eq_unit, planning_validate, TopologyGeneration.finalize_eq_ok,
    RouteGeneration.finalize_eq_ok]
  constructor
  · rintro ⟨hge,hle,hpos,hmembers,hevidence,hplanning,hobserver,
      topology,⟨htopology,rfl⟩,routes,⟨hroutes,rfl⟩,rfl⟩
    have hidentified := hroutes.identified
    simp only [routesPlan, Bool.and_eq_true, StrongId.valid, bne_iff_ne, ne_eq] at hidentified
    obtain ⟨⟨⟨⟨⟨hroute,hepoch⟩,hincarnation⟩,hrevision⟩,-⟩,htopologyId⟩ := hidentified
    have hsized := sized_of_accepted hge hle hpos hmembers htopology
    exact ⟨{ hsized with
      planning := hplanning
      epoch := hepoch
      incarnation := hincarnation
      routeGeneration := hroute
      topologyGeneration := htopologyId
      revision := hrevision
      evidence_le := hevidence
      observer_valid := hobserver },rfl⟩
  · rintro ⟨h,rfl⟩
    exact ⟨h.hops_ge,h.hops_le,h.members_pos.ne',h.members_le,h.evidence_le,h.planning,
      h.observer_valid,_,⟨topologyPlan_accepted h.toSized h.toIdentified,rfl⟩,_,
      ⟨routesPlan_accepted h.toSized h.toIdentified,rfl⟩,rfl⟩

end PathObservatory.Synthetic.LabOptions

/-! ## The trace of the laboratory

The trace follows the first member as far as it goes, with its links stated or found by
correlation, unless its second device was replaced. It follows no other member.
-/
namespace PathObservatory.Synthetic.LabOptions
variable {options : LabOptions} {index : TopologyIndex} {m p : ℕ}

def trace (options : LabOptions) : List ObservedHop :=
  (List.range options.traceLength).map options.observedHop

/-- The second device is replaced by one that the plan does not contain. -/
def Disturbed (options : LabOptions) : Prop := options.diverge = true ∧ 2 < options.hops

instance : Decidable options.Disturbed := inferInstanceAs (Decidable (_ ∧ _))

theorem traceLength_le (options : LabOptions) (h : 2 ≤ options.hops) :
    options.traceLength ≤ options.hops := by
  unfold traceLength
  split_ifs <;> omega

theorem trace_getElem? (options : LabOptions) (i : ℕ) : options.trace[i]? =
    if i < options.traceLength then some (options.observedHop i) else none := by
  unfold trace
  rw [List.getElem?_map]
  split_ifs with hi
  · rw [List.getElem?_range hi]
    rfl
  · rw [List.getElem?_eq_none (by simpa using hi)]
    rfl

/-- Away from the replaced device the hop is the planned one. -/
theorem observedHop_of_calm (h : ¬ (options.Disturbed ∧ p = 1)) :
    (options.observedHop p).device = deviceFor 0 p options.hops ∧
      (options.observedHop p).ingress = ingressFor (deviceFor 0 p options.hops) 0 ∧
      (options.observedHop p).egress = egressFor (deviceFor 0 p options.hops) 0 ∧
      ((options.observedHop p).statesLink = true →
        p + 1 < options.hops ∧ (options.observedHop p).link = linkFor 0 p) := by
  have hkept : ¬ (options.diverge = true ∧ p = 1 ∧ 2 < options.hops) :=
    fun hcase => h ⟨⟨hcase.1,hcase.2.2⟩,hcase.2.1⟩
  unfold observedHop
  simp only [if_neg hkept]
  split_ifs with hstated
  · exact ⟨rfl,rfl,rfl,fun _ => ⟨hstated.2.1,rfl⟩⟩
  · refine ⟨rfl,rfl,rfl,fun hnone => ?_⟩
    exact absurd hnone (by simp [ObservedHop.statesLink, StrongId.valid])

theorem observedHop_index (options : LabOptions) (hp : p < 512) :
    (options.observedHop p).index.toNat = p := by
  have hindex : (options.observedHop p).index = UInt32.ofNat p := by
    unfold observedHop
    simp only
    split_ifs <;> rfl
  rw [hindex]
  simp
  omega

section Correlated
variable (h : options.Sized)
  (hindex : TopologyIndex.build options.topologyPlan.canonical {} = .ok index)
include h hindex

/-- Correlation finds the link of the plan wherever the plan has one. -/
theorem correlateHop_link (hp : p < options.hops) (hcalm : ¬ (options.Disturbed ∧ p = 1)) :
    ((correlateHop (some index) (options.observedHop p)).statesLink = true ↔
        p + 1 < options.hops) ∧
      ((correlateHop (some index) (options.observedHop p)).statesLink = true →
        (correlateHop (some index) (options.observedHop p)).link = linkFor 0 p) := by
  obtain ⟨hdevice,-,hegress,hstated⟩ := observedHop_of_calm hcalm
  by_cases hstates : (options.observedHop p).statesLink = true
  · obtain ⟨hnext,hlink⟩ := hstated hstates
    rw [correlateHop_of_statesLink hstates]
    exact ⟨⟨fun _ => hnext,fun _ => hstates⟩,fun _ => hlink⟩
  · obtain ⟨resolution,hresolved,hknown,hlink⟩ := resolveLink_egress h hindex h.members_pos hp
    have hvalid : index.valid = true := by
      obtain ⟨-,-,rfl⟩ := TopologyIndex.build_eq_ok.mp hindex
      rfl
    have hlinkless : (options.observedHop p).link.valid = false := by
      have hprovenance : (options.observedHop p).link.valid = true →
          (options.observedHop p).linkProvenance ≠ .absent := by
        unfold observedHop
        simp only
        split_ifs <;> simp [StrongId.valid]
      by_contra hsome
      rw [Bool.not_eq_false] at hsome
      exact hstates (by simp [ObservedHop.statesLink, hsome, hprovenance hsome])
    have hfilled : correlateHop (some index) (options.observedHop p) =
        if resolution.known then
          { options.observedHop p with link := resolution.link, linkProvenance := .correlated }
        else options.observedHop p := by
      simp only [correlateHop, hvalid, hlinkless, hdevice, hegress, device_valid h h.members_pos hp,
        hresolved]
      rw [egressFor, port_valid h h.members_pos hp (Or.inr rfl)]
      simp
    rw [hfilled]
    by_cases hnext : p + 1 < options.hops
    · rw [if_pos (hknown.mpr hnext)]
      have hnamed := hlink (hknown.mpr hnext)
      refine ⟨⟨fun _ => hnext,fun _ => ?_⟩,fun _ => hnamed⟩
      simp [ObservedHop.statesLink, hnamed, link_valid h h.members_pos hp]
    · rw [if_neg (mt hknown.mp hnext)]
      exact ⟨⟨fun hsome => absurd hsome hstates,fun hsome => absurd hsome hnext⟩,
        fun hsome => absurd hsome hstates⟩

theorem follows (hp : p < options.hops) (hcalm : ¬ (options.Disturbed ∧ p = 1)) :
    HopFollows (options.expectedHop 0 p) (correlateHop (some index) (options.observedHop p)) := by
  obtain ⟨hdevice,hingress,hegress,-⟩ := observedHop_of_calm hcalm
  obtain ⟨hstates,hlink⟩ := correlateHop_link h hindex hp hcalm
  constructor
  · rw [correlateHop_device, hdevice]
    rfl
  · intro
    rw [correlateHop_ingress, hingress]
    rfl
  · intro
    rw [correlateHop_egress, hegress]
    rfl
  · intro hdeclared hsome
    have hnext : p + 1 < options.hops := of_decide_eq_true hdeclared
    rw [hlink hsome]
    exact if_pos hnext

/-- Undisturbed, the trace agrees with the first member. -/
theorem tracesAgree_first (hcalm : ¬ options.Disturbed) :
    TracesAgree (options.expectedPath 0) (correlateTrace (some index) options.trace) := by
  intro i e o he ho
  rw [expectedPath_hops] at he
  rw [correlateTrace, List.getElem?_map, trace_getElem?] at ho
  split_ifs at he with hi
  split_ifs at ho with hlength
  · obtain rfl := Option.some.inj he
    obtain rfl := Option.some.inj ho
    exact hopsAgree_iff.mpr (follows h hindex hi fun hcase => hcalm hcase.1)
  · cases ho

end Correlated

/-- A replaced device contradicts the first member. -/
theorem not_tracesAgree_first (index : Option TopologyIndex) (hdisturbed : options.Disturbed)
    (hseen : 2 ≤ options.traceLength) :
    ¬ TracesAgree (options.expectedPath 0) (correlateTrace index options.trace) := by
  obtain ⟨hdiverge,hlong⟩ := hdisturbed
  intro hagree
  have he : (options.expectedPath 0).hops[1]? = some (options.expectedHop 0 1) := by
    rw [expectedPath_hops, if_pos (by omega)]
  have ho : (correlateTrace index options.trace)[1]? =
      some (correlateHop index (options.observedHop 1)) := by
    rw [correlateTrace, List.getElem?_map, trace_getElem?, if_pos (by omega)]
    rfl
  have hdevice := (hopsAgree_iff.mp (hagree 1 _ _ he ho)).device
  have hreplaced : (options.observedHop 1).device = divergentDeviceId := by
    unfold observedHop
    simp only [hdiverge, hlong, and_self, if_true]
    split_ifs <;> rfl
  rw [correlateHop_device, hreplaced] at hdevice
  have hcodes : (deviceFor 0 1 options.hops).value.toNat = 9999 :=
    congrArg (fun device : DeviceId => device.value.toNat) hdevice
  rw [deviceFor_toNat (by decide) (by decide)] at hcodes
  unfold deviceCode at hcodes
  split_ifs at hcodes <;> omega

/-- Another member leaves the first device by other ports. -/
theorem not_tracesAgree_other (h : options.Sized) (index : Option TopologyIndex)
    (hm : m < options.members) (hother : m ≠ 0) (hseen : 1 ≤ options.traceLength) :
    ¬ TracesAgree (options.expectedPath m) (correlateTrace index options.trace) := by
  intro hagree
  have hfirst : 0 < options.hops := lt_of_lt_of_le (by decide) h.hops_ge
  have he : (options.expectedPath m).hops[0]? = some (options.expectedHop m 0) := by
    rw [expectedPath_hops, if_pos hfirst]
  have ho : (correlateTrace index options.trace)[0]? =
      some (correlateHop index (options.observedHop 0)) := by
    rw [correlateTrace, List.getElem?_map, trace_getElem?, if_pos (by omega)]
    rfl
  obtain ⟨-,hingress,-,-⟩ := @observedHop_of_calm options 0 (by simp)
  have hfollows := hopsAgree_iff.mp (hagree 0 _ _ he ho)
  have hports := hfollows.ingress (by
    rw [correlateHop_ingress, hingress]
    exact port_valid h h.members_pos hfirst (Or.inl rfl))
  rw [correlateHop_ingress, hingress] at hports
  exact hother (portFor_inj h hm hfirst h.members_pos hfirst (Or.inl rfl) (Or.inl rfl) hports).1

end PathObservatory.Synthetic.LabOptions
