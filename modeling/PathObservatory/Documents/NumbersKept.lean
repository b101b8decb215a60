import PathObservatory.Documents.StatedNumbers

/-! # Which documents keep their numbers

What is parsed of a document has its numbers with the indices reduced to their
fields. It has the numbers themselves when the indices fit.
-/
namespace PathObservatory

namespace Documents
variable {limits : Limits}

section Reading

theorem parsePort_numbers {item : JsonValue} {port : PortRecord} (h : parsePort item = .ok port) :
    (statedPort item).narrowed = portNumbers port := by
  simp only [parsePort, bind_eq_ok, pure_eq_ok] at h
  obtain ⟨id,hid,device,hdevice,-,-,index,hindex,rfl⟩ := h
  have hnarrow := narrowed_of_optionalU64 hindex 0 rfl
  simp only [HopNumbers.narrowed, statedPort, portNumbers, statedNumbers, List.map_cons,
    List.map_nil, stated_of_requireId hid, stated_of_requireId hdevice, hnarrow]

theorem parseDevice_numbers {item : JsonValue} {device : DeviceRecord}
    (h : parseDevice item = .ok device) : statedNumber item "id" 0 = device.id.value.toNat := by
  simp only [parseDevice, bind_eq_ok, pure_eq_ok] at h
  obtain ⟨id,hid,-,-,-,-,-,-,rfl⟩ := h
  exact stated_of_requireId hid

theorem parseLink_numbers {item : JsonValue} {link : LinkRecord} (h : parseLink item = .ok link) :
    statedNumbers item ["id","local_device","local_port","remote_device","remote_port"] =
      linkNumbers link := by
  simp only [parseLink, bind_eq_ok, pure_eq_ok] at h
  obtain ⟨id,hid,localDevice,hlocal,localPort,hlocalPort,remoteDevice,hremote,remotePort,
    hremotePort,-,-,-,-,rfl⟩ := h
  simp only [statedNumbers, linkNumbers, List.map_cons, List.map_nil, stated_of_requireId hid,
    stated_of_requireId hlocal, stated_of_requireId hlocalPort, stated_of_requireId hremote,
    stated_of_requireId hremotePort]

theorem readTopology_numbers {document : JsonValue} {g : TopologyGeneration}
    (h : readTopology document limits = .ok g) :
    (statedTopology document).narrowed = topologyNumbers g := by
  simp only [readTopology, bind_eq_ok, pure_eq_ok] at h
  obtain ⟨id,hid,epoch,hepoch,incarnation,hincarnation,revision,hrevision,sequence,hsequence,
    source,hsource,-,-,-,-,items,hitems,devices,hdevices,portItems,hportItems,ports,hports,
    linkItems,hlinkItems,links,hlinks,rfl⟩ := h
  have hheader : (statedTopology document).header =
      [id.value.toNat,epoch.value.toNat,incarnation.value.toNat,revision.value.toNat,
        sequence.value.toNat,source.value.toNat] := by
    simp only [statedTopology, statedNumbers, List.map_cons, List.map_nil, stated_of_requireId hid,
      stated_of_requireId hepoch, stated_of_requireId hincarnation, stated_of_requireId hrevision,
      stated_of_requireId hsequence, stated_of_requireId hsource]
  have hdevices := map_of_parseItems (fun _ _ => parseDevice_numbers) hdevices
  have hports := @map_of_parseItems _ _ _ (fun item => (statedPort item).narrowed) _
    (fun _ _ => parsePort_numbers) _ _ hports
  have hlinks := map_of_parseItems (fun _ _ => parseLink_numbers) hlinks
  rw [TopologyNumbers.narrowed, hheader]
  simp only [statedTopology, topologyNumbers, stated_of_optionalItems hitems,
    stated_of_optionalItems hportItems, stated_of_optionalItems hlinkItems, hdevices, hlinks,
    Multiset.map_coe, List.map_map, Function.comp_def, hports]

theorem parseMember_numbers {item : JsonValue} {member : PathId}
    (h : parseMember item = .ok member) : item.natural.getD 0 = member.value.toNat := by
  obtain ⟨-,h⟩ := require_bind_eq_ok.mp h
  obtain ⟨raw,hraw,h⟩ := bind_eq_ok.mp h
  obtain ⟨-,h⟩ := require_bind_eq_ok.mp h
  rw [natural_of_asU64 hraw, ← pure_eq_ok.mp h, Option.getD_some]

theorem parseGroup_numbers {item : JsonValue} {group : PathGroup}
    (h : parseGroup limits item = .ok group) : statedGroup item = groupNumbers group := by
  simp only [parseGroup, bind_eq_ok, pure_eq_ok] at h
  obtain ⟨id,hid,origin,horigin,destination,hdestination,-,-,value,hvalue,items,hitems,members,
    hmembers,rfl⟩ := h
  have hmembers := map_of_parseItems (fun _ _ => parseMember_numbers) hmembers
  simp only [statedGroup, groupNumbers, statedNumbers, List.map_cons, List.map_nil,
    stated_of_requireId hid, stated_of_requireId horigin, stated_of_requireId hdestination,
    stated_of_requireItems hvalue hitems, hmembers]

theorem parseHop_numbers {expectedIndex : UInt32} {position : ℕ} {item : JsonValue}
    {hop : ExpectedHop} (hposition : position % 2 ^ 32 = expectedIndex.toNat)
    (h : parseHop expectedIndex item = .ok hop) :
    HopNumbers.narrowed (statedNumber item "index" position,
      statedNumbers item ["id","device","ingress","egress","link"]) = hopNumbers hop := by
  simp only [parseHop, bind_eq_ok, pure_eq_ok] at h
  obtain ⟨id,hid,index,hindex,device,hdevice,ingress,hingress,egress,hegress,link,hlink,rfl⟩ := h
  have hlt := expectedIndex.toNat_lt
  have hnarrow := narrowed_of_optionalU64 hindex position
    (by rw [UInt32.toNat_toUInt64]; omega)
  simp only [HopNumbers.narrowed, hopNumbers, statedNumbers, List.map_cons, List.map_nil,
    stated_of_requireId hid, stated_of_requireId hdevice, stated_of_requireId hingress,
    stated_of_requireId hegress, stated_of_optionalU64_zero hlink, hnarrow]

theorem parseHops_numbers {expectedIndex : UInt32} {position : ℕ} {items : List JsonValue}
    {hops : List ExpectedHop} (hposition : position % 2 ^ 32 = expectedIndex.toNat)
    (h : parseHops expectedIndex items = .ok hops) :
    (statedHops position items).map HopNumbers.narrowed = hops.map hopNumbers := by
  induction items generalizing expectedIndex position hops with
  | nil => rw [← pure_eq_ok.mp h]; rfl
  | cons item items ih =>
    obtain ⟨hop,hhop,h⟩ := bind_eq_ok.mp h
    obtain ⟨rest,hrest,h⟩ := bind_eq_ok.mp h
    have hnext : (position + 1) % 2 ^ 32 = (expectedIndex + 1).toNat := by
      rw [UInt32.toNat_add, ← hposition]
      simp
    rw [← pure_eq_ok.mp h, statedHops, List.map_cons, List.map_cons, ih hnext hrest,
      parseHop_numbers hposition hhop]

theorem parsePath_numbers {generation : RouteGenerationId} {item : JsonValue}
    {path : ExpectedPath} (h : parsePath generation limits item = .ok path) :
    (statedPath generation.value.toNat item).narrowed = pathNumbers path := by
  simp only [parsePath, bind_eq_ok, pure_eq_ok] at h
  obtain ⟨id,hid,group,hgroup,own,hown,value,hvalue,items,hitems,hops,hhops,rfl⟩ := h
  have hgeneration : statedNumber item "generation" generation.value.toNat = own.toNat := by
    rcases stated_of_optionalU64 hown with hstated | ⟨rfl,hstated⟩
    · exact hstated _
    · exact hstated _
  simp only [PathNumbers.narrowed, statedPath, pathNumbers, stated_of_requireId hid, stated_of_requireId hgroup,
    hgeneration, stated_of_requireItems hvalue hitems, parseHops_numbers rfl hhops]

theorem readRoutes_numbers {document : JsonValue} {g : RouteGeneration}
    (h : readRoutes document limits = .ok g) :
    (statedRoutes document).narrowed = routeNumbers g := by
  simp only [readRoutes, bind_eq_ok, pure_eq_ok] at h
  obtain ⟨id,hid,epoch,hepoch,incarnation,hincarnation,revision,hrevision,sequence,hsequence,
    source,hsource,topology,htopology,-,-,-,-,groupsValue,hgroupsValue,groupItems,hgroupItems,
    groups,hgroups,pathsValue,hpathsValue,pathItems,hpathItems,paths,hpaths,rfl⟩ := h
  have hheader : (statedRoutes document).header =
      [id.value.toNat,epoch.value.toNat,incarnation.value.toNat,revision.value.toNat,
        sequence.value.toNat,source.value.toNat,topology.value.toNat] := by
    simp only [statedRoutes, statedNumbers, List.map_cons, List.map_nil, stated_of_requireId hid,
      stated_of_requireId hepoch, stated_of_requireId hincarnation, stated_of_requireId hrevision,
      stated_of_requireId hsequence, stated_of_requireId hsource, stated_of_requireId htopology]
  have hgroups := map_of_parseItems (fun _ _ => parseGroup_numbers) hgroups
  have hpaths := @map_of_parseItems _ _ _ (fun item => (statedPath id.value.toNat item).narrowed) _
    (fun _ _ => parsePath_numbers) _ _ hpaths
  rw [RouteNumbers.narrowed, hheader]
  simp only [statedRoutes, routeNumbers, stated_of_requireItems hgroupsValue hgroupItems,
    stated_of_requireItems hpathsValue hpathItems, stated_of_requireId hid, hgroups,
    Multiset.map_coe, List.map_map, Function.comp_def, hpaths]

theorem parseObservedHop_numbers {previous : Option UInt32} {stated : Option ℕ} {item : JsonValue}
    {hop : ObservedHop}
    (hprevious : stated.elim 0 (· + 1) % 2 ^ 32 = (previous.elim 0 (· + 1)).toNat)
    (h : parseObservedHop previous item = .ok hop) :
    HopNumbers.narrowed (statedNumber item "index" (stated.elim 0 (· + 1)),
      statedNumbers item ["device","ingress","egress","link"]) = observedHopNumbers hop := by
  simp only [parseObservedHop, bind_eq_ok, pure_eq_ok] at h
  obtain ⟨index,hindex,device,hdevice,ingress,hingress,egress,hegress,link,hlink,-,-,-,-,-,-,rfl⟩ := h
  have hfallback : (previous.elim 0 fun p => (p + 1).toUInt64).toNat =
      (previous.elim 0 (· + 1)).toNat := by
    cases previous with
    | none => rfl
    | some p => exact UInt32.toNat_toUInt64 _
  have hlt := (previous.elim 0 (· + 1)).toNat_lt
  have hnarrow := narrowed_of_optionalU64 hindex (stated.elim 0 (· + 1))
    (by rw [hfallback]; omega)
  simp only [HopNumbers.narrowed, observedHopNumbers, statedNumbers, List.map_cons, List.map_nil,
    stated_of_requireId hdevice, stated_of_optionalU64_zero hingress,
    stated_of_optionalU64_zero hegress, stated_of_optionalU64_zero hlink, hnarrow]

theorem parseObservedHops_numbers {previous : Option UInt32} {stated : Option ℕ}
    {items : List JsonValue} {hops : List ObservedHop}
    (hprevious : stated.elim 0 (· + 1) % 2 ^ 32 = (previous.elim 0 (· + 1)).toNat)
    (h : parseObservedHops previous items = .ok hops) :
    (statedObservedHops stated items).map HopNumbers.narrowed = hops.map observedHopNumbers := by
  induction items generalizing previous stated hops with
  | nil => rw [← pure_eq_ok.mp h]; rfl
  | cons item items ih =>
    obtain ⟨hop,hhop,h⟩ := bind_eq_ok.mp h
    obtain ⟨rest,hrest,h⟩ := bind_eq_ok.mp h
    have hfirst := parseObservedHop_numbers hprevious hhop
    have hindex : statedNumber item "index" (stated.elim 0 (· + 1)) % 2 ^ 32 =
        hop.index.toNat := congrArg Prod.fst hfirst
    have hnext : ((some (statedNumber item "index" (stated.elim 0 (· + 1)))).elim 0 (· + 1)) %
        2 ^ 32 = ((some hop.index).elim 0 (· + 1)).toNat := by
      simp only [Option.elim_some, UInt32.toNat_add, ← hindex]
      simp
    rw [← pure_eq_ok.mp h, statedObservedHops, List.map_cons, List.map_cons, ih hnext hrest,
      hfirst]

theorem readEvidence_numbers {document : JsonValue} {e : ObservedPathEvidence}
    (h : readEvidence document limits = .ok e) :
    (statedEvidence document).narrowed = evidenceNumbers e := by
  simp only [readEvidence, optionalDevice, bind_eq_ok, pure_eq_ok] at h
  obtain ⟨source,hsource,incarnation,hincarnation,sequence,hsequence,-,-,-,-,-,-,-,-,epoch,hepoch,
    claimed,hclaimed,revision,hrevision,routes,hroutes,topology,htopology,path,hpath,group,hgroup,
    origin,horigin,destination,hdestination,-,-,-,-,-,-,-,-,-,-,-,-,-,-,items,hitems,hops,hhops,
    rfl⟩ := h
  have hhops := @parseObservedHops_numbers none none _ _ rfl hhops
  simp only [EvidenceNumbers.narrowed, statedEvidence, evidenceNumbers, statedNumbers,
    List.map_cons, List.map_nil, stated_of_requireId hsource, stated_of_requireId hincarnation,
    stated_of_requireId hsequence, stated_of_requireId hepoch, stated_of_requireId hclaimed,
    stated_of_requireId hrevision, stated_of_optionalId hroutes, stated_of_optionalId htopology,
    stated_of_optionalId hpath, stated_of_optionalId hgroup, stated_of_optionalId horigin,
    stated_of_optionalId hdestination, stated_of_optionalItems hitems, hhops]

end Reading

section Narrowing

/-- A map that does nothing more a second time leaves a collection as it is when it
leaves its members. -/
theorem map_eq_self_iff {α : Type} {f : α → α} (hf : ∀ a, f (f a) = f a) {s : Multiset α} :
    s.map f = s ↔ ∀ a ∈ s, f a = a := by
  constructor
  · intro h a ha
    rw [← h] at ha
    obtain ⟨b,-,rfl⟩ := Multiset.mem_map.mp ha
    exact hf b
  · intro h
    rw [Multiset.map_congr rfl h, Multiset.map_id']

theorem list_map_eq_self_iff {α : Type} {f : α → α} (hf : ∀ a, f (f a) = f a) {l : List α} :
    l.map f = l ↔ ∀ a ∈ l, f a = a := by
  refine ⟨fun h => (@map_eq_self_iff α f hf l).mp (congrArg _ h),fun h => ?_⟩
  rw [List.map_congr_left h, List.map_id']

/-- The index fits into its field. -/
def HopNumbers.Fits (hop : HopNumbers) : Prop := hop.1 < 2 ^ 32

instance (hop : HopNumbers) : Decidable hop.Fits := inferInstanceAs (Decidable (_ < _))

theorem HopNumbers.narrowed_narrowed (hop : HopNumbers) : hop.narrowed.narrowed = hop.narrowed :=
  Prod.ext (Nat.mod_mod _ _) rfl

theorem HopNumbers.narrowed_eq_iff {hop : HopNumbers} : hop.narrowed = hop ↔ hop.Fits := by
  constructor
  · intro h
    have hindex : hop.1 % 2 ^ 32 = hop.1 := congrArg Prod.fst h
    rw [HopNumbers.Fits, ← hindex]
    exact Nat.mod_lt _ (by decide)
  · exact fun h => Prod.ext (Nat.mod_eq_of_lt h) rfl

def TopologyNumbers.Fits (n : TopologyNumbers) : Prop := ∀ port ∈ n.ports, HopNumbers.Fits port

def RouteNumbers.Fits (n : RouteNumbers) : Prop :=
  ∀ path ∈ n.paths, ∀ hop ∈ path.2, HopNumbers.Fits hop

def EvidenceNumbers.Fits (n : EvidenceNumbers) : Prop := ∀ hop ∈ n.hops, HopNumbers.Fits hop

theorem TopologyNumbers.narrowed_eq_iff {n : TopologyNumbers} : n.narrowed = n ↔ n.Fits := by
  have hports : n.narrowed = n ↔ n.ports.map HopNumbers.narrowed = n.ports := by
    cases n
    simp [TopologyNumbers.narrowed]
  rw [hports, map_eq_self_iff HopNumbers.narrowed_narrowed]
  exact forall₂_congr fun _ _ => HopNumbers.narrowed_eq_iff

theorem PathNumbers.narrowed_narrowed (path : PathNumbers) :
    path.narrowed.narrowed = path.narrowed := by
  refine Prod.ext rfl ?_
  simp only [PathNumbers.narrowed, List.map_map]
  exact List.map_congr_left fun hop _ => HopNumbers.narrowed_narrowed hop

theorem PathNumbers.narrowed_eq_iff {path : PathNumbers} :
    path.narrowed = path ↔ ∀ hop ∈ path.2, HopNumbers.Fits hop := by
  have hhops : path.narrowed = path ↔ path.2.map HopNumbers.narrowed = path.2 := by
    rw [Prod.ext_iff]
    exact and_iff_right rfl
  rw [hhops, list_map_eq_self_iff HopNumbers.narrowed_narrowed]
  exact forall₂_congr fun _ _ => HopNumbers.narrowed_eq_iff

theorem RouteNumbers.narrowed_eq_iff {n : RouteNumbers} : n.narrowed = n ↔ n.Fits := by
  have hpaths : n.narrowed = n ↔ n.paths.map PathNumbers.narrowed = n.paths := by
    cases n
    simp [RouteNumbers.narrowed]
  rw [hpaths, map_eq_self_iff PathNumbers.narrowed_narrowed]
  exact forall₂_congr fun _ _ => PathNumbers.narrowed_eq_iff

theorem EvidenceNumbers.narrowed_eq_iff {n : EvidenceNumbers} : n.narrowed = n ↔ n.Fits := by
  have hhops : n.narrowed = n ↔ n.hops.map HopNumbers.narrowed = n.hops := by
    cases n
    simp [EvidenceNumbers.narrowed]
  rw [hhops, list_map_eq_self_iff HopNumbers.narrowed_narrowed]
  exact forall₂_congr fun _ _ => HopNumbers.narrowed_eq_iff

end Narrowing

section Parsing

theorem topologyNumbers_finalize {plan g : TopologyGeneration} (h : plan.finalize limits = .ok g) :
    topologyNumbers g = topologyNumbers plan := by
  obtain ⟨-,rfl⟩ := TopologyGeneration.finalize_eq_ok.mp h
  simp only [topologyNumbers, TopologyGeneration.canonical, TopologyGeneration.sorted,
    TopologyNumbers.mk.injEq, Multiset.coe_eq_coe, true_and]
  exact ⟨(List.perm_insertionSort _ _).map _,(List.perm_insertionSort _ _).map _,
    (List.perm_insertionSort _ _).map _⟩

theorem memberNumber_injective : Function.Injective fun member : PathId => member.value.toNat := by
  rintro ⟨a⟩ ⟨b⟩ h
  exact congrArg StrongId.mk (UInt64.toNat_inj.mp h)

theorem groupNumbers_tidied (group : PathGroup) :
    groupNumbers group.tidied = ((groupNumbers group).1,(groupNumbers group).2.dedup) := by
  have hsorted := List.pairwise_insertionSort (· ≤ ·) group.members
  have hmembers : (group.tidied.members : Multiset PathId) =
      (group.members : Multiset PathId).dedup := by
    rw [PathGroup.tidied, hsorted.destutter_eq_dedup, Multiset.coe_dedup, Multiset.coe_eq_coe]
    exact (List.perm_insertionSort _ _).dedup
  refine Prod.ext rfl ?_
  simp only [groupNumbers, ← Multiset.map_coe, hmembers]
  exact (Multiset.dedup_map_of_injective memberNumber_injective _).symm

theorem routeNumbers_finalize {plan g : RouteGeneration} (h : plan.finalize limits = .ok g) :
    routeNumbers g = (routeNumbers plan).merged := by
  obtain ⟨-,rfl⟩ := RouteGeneration.finalize_eq_ok.mp h
  have hstamped : pathNumbers ∘ ExpectedPath.stamped = pathNumbers := rfl
  have htidied : groupNumbers ∘ PathGroup.tidied =
      fun group => ((groupNumbers group).1,(groupNumbers group).2.dedup) :=
    funext groupNumbers_tidied
  simp only [routeNumbers, RouteGeneration.canonical, RouteGeneration.sorted, RouteNumbers.merged,
    RouteNumbers.mk.injEq, Multiset.map_coe, List.map_map, hstamped, htidied, Multiset.coe_eq_coe,
    true_and]
  exact ⟨(List.perm_insertionSort _ _).map _,(List.perm_insertionSort _ _).map _⟩

theorem parseTopology_numbers {text : ByteString} {document : JsonValue} {g : TopologyGeneration}
    (hdocument : JsonValue.parse text limits = .ok document)
    (h : parseTopologyGeneration text limits = .ok g) :
    topologyNumbers g = (statedTopology document).narrowed := by
  simp only [parseTopologyGeneration, bind_eq_ok, hdocument, Except.ok.injEq, exists_eq_left'] at h
  obtain ⟨-,-,read,hread,hfinal⟩ := h
  rw [topologyNumbers_finalize hfinal, readTopology_numbers hread]

theorem parseRoutes_numbers {text : ByteString} {document : JsonValue} {g : RouteGeneration}
    (hdocument : JsonValue.parse text limits = .ok document)
    (h : parseRouteGeneration text limits = .ok g) :
    routeNumbers g = (statedRoutes document).merged.narrowed := by
  simp only [parseRouteGeneration, bind_eq_ok, hdocument, Except.ok.injEq, exists_eq_left'] at h
  obtain ⟨-,-,read,hread,hfinal⟩ := h
  rw [routeNumbers_finalize hfinal, ← readRoutes_numbers hread]
  rfl

theorem parseEvidence_numbers {text : ByteString} {document : JsonValue}
    {e : ObservedPathEvidence} (hdocument : JsonValue.parse text limits = .ok document)
    (h : parseEvidence text limits = .ok e) :
    evidenceNumbers e = (statedEvidence document).narrowed := by
  simp only [parseEvidence, bind_eq_ok, hdocument, Except.ok.injEq, exists_eq_left', pure_eq_ok]
    at h
  obtain ⟨-,-,read,hread,-,-,rfl⟩ := h
  rw [readEvidence_numbers hread]
  rfl

end Parsing

/-- A kind of document: how its text is parsed, the numbers that it states, those of
what is parsed, and which numbers have a place in it. -/
structure DocumentKind (Value Numbers : Type) where
  limits : Limits
  parse : ByteString → Result Value
  stated : JsonValue → Numbers
  numbers : Value → Numbers
  Fits : Numbers → Prop

def topologyKind (limits : Limits) : DocumentKind TopologyGeneration TopologyNumbers where
  limits := limits
  parse text := parseTopologyGeneration text limits
  stated := statedTopology
  numbers := topologyNumbers
  Fits := TopologyNumbers.Fits

/-- The members of a group are stated as a set. -/
def routesKind (limits : Limits) : DocumentKind RouteGeneration RouteNumbers where
  limits := limits
  parse text := parseRouteGeneration text limits
  stated document := (statedRoutes document).merged
  numbers := routeNumbers
  Fits := RouteNumbers.Fits

def evidenceKind (limits : Limits) : DocumentKind ObservedPathEvidence EvidenceNumbers where
  limits := limits
  parse text := parseEvidence text limits
  stated := statedEvidence
  numbers := evidenceNumbers
  Fits := EvidenceNumbers.Fits

namespace DocumentKind
variable {Value Numbers : Type} (kind : DocumentKind Value Numbers)

/-- The text is accepted as this document with this value. -/
def Reads (text : ByteString) (document : JsonValue) (value : Value) : Prop :=
  JsonValue.parse text kind.limits = .ok document ∧ kind.parse text = .ok value

/-- What is parsed of the text has its numbers, and none that does not fit is accepted. -/
structure KeepsNumbers (text : ByteString) : Prop where
  exact : ∀ document value, kind.Reads text document value →
    kind.stated document = kind.numbers value
  refused : ∀ document, JsonValue.parse text kind.limits = .ok document →
    ¬ kind.Fits (kind.stated document) → ∀ value, kind.parse text ≠ .ok value

/-- Texts with different numbers are not parsed to one value. -/
def TellsApart (first second : ByteString) : Prop :=
  ∀ document other value, kind.Reads first document value → kind.Reads second other value →
    kind.stated document = kind.stated other

/-- Where the text is accepted, the indices that it states fit into their fields. -/
def FitsFields (text : ByteString) : Prop :=
  ∀ document value, kind.Reads text document value → kind.Fits (kind.stated document)

variable {kind} {narrowed : Numbers → Numbers}

/-- Where a parser reduces the numbers to their fields, it keeps those that fit. -/
theorem keepsNumbers_iff (hfits : ∀ n, narrowed n = n ↔ kind.Fits n)
    (hparse : ∀ text document value, kind.Reads text document value →
      kind.numbers value = narrowed (kind.stated document)) (text : ByteString) :
    kind.KeepsNumbers text ↔ kind.FitsFields text := by
  constructor
  · intro h document value hread
    rw [← hfits, ← hparse text document value hread]
    exact (h.exact document value hread).symm
  · intro h
    refine ⟨fun document value hread => ?_,fun document hdocument hunfit value hvalue => ?_⟩
    · rw [hparse text document value hread]
      exact ((hfits _).mpr (h document value hread)).symm
    · exact hunfit (h document value ⟨hdocument,hvalue⟩)

/-- Texts whose numbers are kept are told apart by them. -/
theorem tellsApart_of_keepsNumbers {first second : ByteString} (hfirst : kind.KeepsNumbers first)
    (hsecond : kind.KeepsNumbers second) : kind.TellsApart first second := by
  intro document other value hread hother
  rw [hfirst.exact document value hread, hsecond.exact other value hother]

theorem pair_iff (hfits : ∀ n, narrowed n = n ↔ kind.Fits n)
    (hparse : ∀ text document value, kind.Reads text document value →
      kind.numbers value = narrowed (kind.stated document)) (first second : ByteString) :
    (kind.KeepsNumbers first ∧ kind.KeepsNumbers second ∧ kind.TellsApart first second) ↔
      kind.FitsFields first ∧ kind.FitsFields second := by
  rw [← keepsNumbers_iff hfits hparse first, ← keepsNumbers_iff hfits hparse second, ← and_assoc]
  exact and_iff_left_of_imp fun h => tellsApart_of_keepsNumbers h.1 h.2

end DocumentKind

/-- No group states a member twice. -/
def RouteNumbers.Unrepeated (n : RouteNumbers) : Prop := ∀ group ∈ n.groups, group.2.Nodup

theorem RouteNumbers.merged_of_unrepeated {n : RouteNumbers} (h : n.Unrepeated) :
    n.merged = n := by
  have hgroups : n.groups.map (fun group => (group.1,group.2.dedup)) = n.groups := by
    refine (Multiset.map_congr rfl fun group hgroup => ?_).trans (Multiset.map_id _)
    rw [(h group hgroup).dedup]
    rfl
  rw [RouteNumbers.merged, hgroups]

/-- The numbers of a document are kept, and tell it apart from another document, when
every index in both fits into its field; numbers of members that a group repeats are
told apart only as far as they make a difference to the set of the members. -/
theorem document_numbers_kept_iff (limits : Limits) (first second : ByteString) :
    (((topologyKind limits).KeepsNumbers first ∧ (topologyKind limits).KeepsNumbers second ∧
        (topologyKind limits).TellsApart first second) ↔
      (topologyKind limits).FitsFields first ∧ (topologyKind limits).FitsFields second) ∧
    (((routesKind limits).KeepsNumbers first ∧ (routesKind limits).KeepsNumbers second ∧
        (routesKind limits).TellsApart first second) ↔
      (routesKind limits).FitsFields first ∧ (routesKind limits).FitsFields second) ∧
    (((evidenceKind limits).KeepsNumbers first ∧ (evidenceKind limits).KeepsNumbers second ∧
        (evidenceKind limits).TellsApart first second) ↔
      (evidenceKind limits).FitsFields first ∧ (evidenceKind limits).FitsFields second) ∧
    ((routesKind limits).FitsFields first → (routesKind limits).FitsFields second →
      ∀ document other g, (routesKind limits).Reads first document g →
        (routesKind limits).Reads second other g → (statedRoutes document).Unrepeated →
          (statedRoutes other).Unrepeated → statedRoutes document = statedRoutes other) := by
  have hroutes := @DocumentKind.pair_iff _ _ (routesKind limits) _
    (fun _ => RouteNumbers.narrowed_eq_iff)
    (fun _ _ _ hread => parseRoutes_numbers hread.1 hread.2) first second
  refine ⟨DocumentKind.pair_iff (fun _ => TopologyNumbers.narrowed_eq_iff)
      (fun _ _ _ hread => parseTopology_numbers hread.1 hread.2) first second,hroutes,
    DocumentKind.pair_iff (fun _ => EvidenceNumbers.narrowed_eq_iff)
      (fun _ _ _ hread => parseEvidence_numbers hread.1 hread.2) first second,?_⟩
  intro hfirst hsecond document other g hread hother hunrepeated hotherUnrepeated
  have hsame := (hroutes.mpr ⟨hfirst,hsecond⟩).2.2 document other g hread hother
  calc statedRoutes document = (statedRoutes document).merged :=
        (RouteNumbers.merged_of_unrepeated hunrepeated).symm
    _ = (statedRoutes other).merged := hsame
    _ = statedRoutes other := RouteNumbers.merged_of_unrepeated hotherUnrepeated

/-- A topology whose only port has the given index. -/
def indexedDocument (index : UInt64) : ByteString :=
  let plan : TopologyGeneration :=
    { id := ⟨6⟩, epoch := ⟨1⟩, incarnation := ⟨1⟩, revision := ⟨1⟩, sequence := ⟨1⟩,
      source := ⟨2⟩, created := ⟨0⟩, received := ⟨0⟩, devices := [{ id := ⟨1⟩ }] }
  let port := setU64 (portJson { id := ⟨10⟩, device := ⟨1⟩ }) "index" index
  (setArray (topologyJson plan) "ports" [port]).dump false

/-- An index beyond its field is accepted. -/
theorem wide_port_index_is_accepted :
    ¬ ∀ (limits : Limits) (first second : ByteString),
      (topologyKind limits).KeepsNumbers first ∧ (topologyKind limits).KeepsNumbers second ∧
        (topologyKind limits).TellsApart first second := by
  intro h
  have haccepted : (parseTopologyGeneration (indexedDocument 4294967301) {}).isOk = true := by
    decide +kernel
  have hports : (JsonValue.parse (indexedDocument 4294967301) {}).map
      (fun document => (statedTopology document).ports) = .ok {(4294967301,[10,1])} := by
    decide +kernel
  cases hvalue : parseTopologyGeneration (indexedDocument 4294967301) {} with
  | error error =>
    rw [hvalue] at haccepted
    cases haccepted
  | ok g =>
    cases hdocument : JsonValue.parse (indexedDocument 4294967301) {} with
    | error error =>
      rw [hdocument] at hports
      cases hports
    | ok document =>
      rw [hdocument] at hports
      have hports : (statedTopology document).ports = {(4294967301,[10,1])} :=
        Except.ok.inj hports
      have hport : (4294967301,[10,1]) ∈ (statedTopology document).ports := by
        rw [hports]
        exact Multiset.mem_singleton_self _
      have hkeeps := (h {} (indexedDocument 4294967301) (indexedDocument 4294967301)).1
      exact hkeeps.refused document hdocument
        (fun hfits => absurd (hfits _ hport) (by decide)) g hvalue

end Documents

end PathObservatory
