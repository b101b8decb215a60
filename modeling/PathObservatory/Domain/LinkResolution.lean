import Mathlib.Data.Finset.Card
import PathObservatory.Domain.Finalize
import PathObservatory.Library.Multimap

/-! # Links found by their endpoints

The index lists every link under both of its endpoints. What a device and port
resolve to is read off the number of links that touch them.
-/
namespace PathObservatory
open OrderedMap

namespace LinkRecord

def localEnd (link : LinkRecord) : HopEndpoint := ⟨link.localDevice,link.localPort⟩

def remoteEnd (link : LinkRecord) : HopEndpoint := ⟨link.remoteDevice,link.remotePort⟩

/-- The endpoint is one of the two ends of the link. -/
def Touches (link : LinkRecord) (endpoint : HopEndpoint) : Prop :=
  link.localEnd = endpoint ∨ link.remoteEnd = endpoint

instance (link : LinkRecord) (endpoint : HopEndpoint) : Decidable (link.Touches endpoint) :=
  inferInstanceAs (Decidable (_ ∨ _))

/-- The entries a link adds to the index. -/
def entries (link : LinkRecord) : List (HopEndpoint × LinkId) :=
  [(link.localEnd,link.id),(link.remoteEnd,link.id)]

end LinkRecord

/-- The links of the generation that touch an endpoint. -/
def TopologyGeneration.linksAt (g : TopologyGeneration) (endpoint : HopEndpoint) :
    Finset LinkRecord :=
  g.links.toFinset.filter (·.Touches endpoint)

namespace TopologyIndex
variable {links : List LinkRecord} {g : TopologyGeneration} {limits : Limits}
  {index : TopologyIndex} {endpoint : HopEndpoint}

theorem addLinkRecord_eq (endpoints : OrderedMap HopEndpoint (List LinkId)) (link : LinkRecord) :
    addLinkRecord endpoints link = link.entries.foldl listUnder endpoints := rfl

theorem foldl_addLinkRecord (links : List LinkRecord)
    (endpoints : OrderedMap HopEndpoint (List LinkId)) :
    links.foldl addLinkRecord endpoints =
      (links.flatMap LinkRecord.entries).foldl listUnder endpoints := by
  induction links generalizing endpoints with
  | nil => rfl
  | cons link rest ih =>
    rw [List.foldl_cons, List.flatMap_cons, List.foldl_append, ← addLinkRecord_eq, ih]

/-- The identities listed under an endpoint, in the order of the links. -/
def listed (links : List LinkRecord) (endpoint : HopEndpoint) : List LinkId :=
  valuesUnder endpoint (links.flatMap LinkRecord.entries)

theorem mem_listed {id : LinkId} :
    id ∈ listed links endpoint ↔ ∃ link ∈ links, link.Touches endpoint ∧ link.id = id := by
  rw [listed, mem_valuesUnder, List.mem_flatMap]
  refine exists_congr fun link => and_congr_right fun _ => ?_
  simp only [LinkRecord.entries, List.mem_cons, List.not_mem_nil, or_false, Prod.mk.injEq,
    LinkRecord.Touches, ← or_and_right]
  exact and_congr (or_congr eq_comm eq_comm) eq_comm

theorem mem_sortUnique {candidates : List LinkId} {id : LinkId} :
    id ∈ sortUnique candidates ↔ id ∈ candidates := by
  have hsorted := List.pairwise_insertionSort (· ≤ ·) candidates
  rw [sortUnique, hsorted.destutter_eq_dedup, List.mem_dedup, List.mem_insertionSort]

theorem sortUnique_nodup (candidates : List LinkId) : (sortUnique candidates).Nodup := by
  have hsorted := List.pairwise_insertionSort (· ≤ ·) candidates
  rw [sortUnique, hsorted.destutter_eq_dedup]
  exact List.nodup_dedup _

/-- The identities under an endpoint are those of the links that touch it. -/
theorem sortUnique_listed (g : TopologyGeneration) (endpoint : HopEndpoint) :
    (sortUnique (listed g.links endpoint)).toFinset = (g.linksAt endpoint).image (·.id) := by
  ext id
  rw [List.mem_toFinset, mem_sortUnique, mem_listed, Finset.mem_image]
  simp only [TopologyGeneration.linksAt, Finset.mem_filter, List.mem_toFinset, and_assoc]

/-- Where the links have distinct identities, no two of them count as one. -/
theorem sortUnique_listed_length (h : (g.links.map (·.id)).Nodup) :
    (sortUnique (listed g.links endpoint)).length = (g.linksAt endpoint).card := by
  have hinjective : Set.InjOn (·.id) (g.linksAt endpoint : Set LinkRecord) := by
    intro a ha b hb hab
    have ha := (Finset.mem_filter.mp ha).1
    have hb := (Finset.mem_filter.mp hb).1
    exact List.inj_on_of_nodup_map h (List.mem_toFinset.mp ha) (List.mem_toFinset.mp hb) hab
  rw [← List.toFinset_card_of_nodup (sortUnique_nodup _), sortUnique_listed]
  exact Finset.card_image_of_injOn hinjective

theorem build_eq_ok : build g limits = .ok index ↔
    g.devices.length ≤ limits.maxDevicesPerTopology ∧
      g.links.length ≤ limits.maxLinksPerTopology ∧
      index = { generation := some g,
                linksByEndpoint := (g.links.foldl addLinkRecord ∅).map
                  (fun _ candidates => sortUnique candidates) } := by
  unfold build
  simp only [require_bind_eq_ok, pure_eq_ok, Bool.and_eq_true, decide_eq_true_eq, and_assoc]
  exact and_congr_right fun _ => and_congr_right fun _ => eq_comm

/-- What the index holds under an endpoint. -/
theorem build_getElem? (hindex : build g limits = .ok index) (endpoint : HopEndpoint) :
    index.linksByEndpoint[endpoint]? =
      if listed g.links endpoint = [] then none
      else some (sortUnique (listed g.links endpoint)) := by
  obtain ⟨-,-,rfl⟩ := build_eq_ok.mp hindex
  have hlisted := getElem?_foldl_listUnder_empty (g.links.flatMap LinkRecord.entries) endpoint
  rw [Std.ExtTreeMap.getElem?_map, foldl_addLinkRecord, hlisted, listed]
  split_ifs <;> rfl

/-- What a number of links resolves to. -/
structure Resolves (links : Finset LinkRecord) (resolution : LinkResolution) : Prop where
  candidates : resolution.candidates = links.card
  known : resolution.known = true ↔ links.card = 1
  ambiguous : resolution.ambiguous = true ↔ 2 ≤ links.card
  named : resolution.known = true → ∃ link ∈ links, resolution.link = link.id
  unnamed : resolution.known = false → resolution.link = {}

/-- The resolution that goes with the candidates. -/
def resolution : List LinkId → LinkResolution
  | [] => {}
  | [link] => { link := link, known := true, candidates := 1 }
  | candidates => { ambiguous := true, candidates := candidates.length }

theorem resolveLink_eq (hindex : build g limits = .ok index) (device : DeviceId) (port : PortId) :
    index.resolveLink device port =
      .ok (resolution (sortUnique (listed g.links ⟨device,port⟩))) := by
  have hvalid : index.valid = true := by
    obtain ⟨-,-,rfl⟩ := build_eq_ok.mp hindex
    rfl
  have hheld := build_getElem? hindex ⟨device,port⟩
  unfold resolveLink
  rw [require_eq_ok.mpr hvalid, hheld]
  by_cases hlisted : listed g.links ⟨device,port⟩ = []
  · rw [if_pos hlisted, hlisted]
    rfl
  · rw [if_neg hlisted]
    -- a candidate that was listed is still there when the list is sorted and unique
    obtain ⟨id,hid⟩ := List.exists_mem_of_ne_nil _ hlisted
    have hid := mem_sortUnique.mpr hid
    match sortUnique (listed g.links ⟨device,port⟩), hid with
    | [link], _ => rfl
    | first :: second :: rest, _ => rfl

/-- The resolution reports how many links touch the endpoint, and names the one
link where there is only one. -/
theorem resolution_resolves (h : (g.links.map (·.id)).Nodup) (endpoint : HopEndpoint) :
    Resolves (g.linksAt endpoint) (resolution (sortUnique (listed g.links endpoint))) := by
  have hcard : (sortUnique (listed g.links endpoint)).length = (g.linksAt endpoint).card :=
    sortUnique_listed_length h
  have hids := sortUnique_listed g endpoint
  match hcandidates : sortUnique (listed g.links endpoint) with
  | [] =>
    rw [hcandidates, List.length_nil] at hcard
    constructor <;> simp [resolution, ← hcard]
  | [link] =>
    rw [hcandidates, List.length_singleton] at hcard
    have hlink : link ∈ (g.linksAt endpoint).image (·.id) := by
      rw [← hids, hcandidates]
      exact List.mem_toFinset.mpr (List.mem_singleton_self link)
    obtain ⟨named,hnamed,hid⟩ := Finset.mem_image.mp hlink
    constructor
    case named => exact fun _ => ⟨named,hnamed,hid.symm⟩
    all_goals simp [resolution, ← hcard]
  | first :: second :: rest =>
    rw [hcandidates] at hcard
    constructor <;> simp [resolution, ← hcard]

/-- A finalised topology is indexed under the bounds it was finalised with. -/
theorem exists_build {plan : TopologyGeneration} (hg : plan.finalize limits = .ok g) :
    ∃ index, build g limits = .ok index := by
  have haccepted := TopologyGeneration.finalize_accepted hg
  exact ⟨_,build_eq_ok.mpr ⟨haccepted.devices_le,haccepted.links_le,rfl⟩⟩

/-- Correlation counts the links that touch the endpoint, and names a link only
where it is the only one. -/
theorem resolveLink_counts_links {plan : TopologyGeneration} {bounds : Limits}
    (hg : plan.finalize bounds = .ok g) (hindex : build g limits = .ok index)
    (device : DeviceId) (port : PortId) :
    ∃ resolution, index.resolveLink device port = .ok resolution ∧
      Resolves (g.linksAt ⟨device,port⟩) resolution := by
  have haccepted := TopologyGeneration.finalize_accepted hg
  exact ⟨_,resolveLink_eq hindex device port,resolution_resolves haccepted.links_distinct _⟩

/-- Two links from one port, one of which comes back to it. -/
def forkedTopology : TopologyGeneration :=
  { id := ⟨6⟩, epoch := ⟨1⟩, incarnation := ⟨1⟩, revision := ⟨1⟩, source := ⟨2⟩,
    devices := [{ id := ⟨1⟩ },{ id := ⟨2⟩ }],
    ports := [{ id := ⟨10⟩, device := ⟨1⟩ },{ id := ⟨11⟩, device := ⟨2⟩ }],
    links := [{ id := ⟨20⟩, localDevice := ⟨1⟩, localPort := ⟨10⟩, remoteDevice := ⟨2⟩,
                remotePort := ⟨11⟩ },
              { id := ⟨21⟩, localDevice := ⟨1⟩, localPort := ⟨10⟩, remoteDevice := ⟨1⟩,
                remotePort := ⟨10⟩ }] }

theorem forkedTopology_finalised : forkedTopology.finalize {} = .ok forkedTopology.canonical := by
  have haccepted : (forkedTopology.finalize {}).isOk = true := by decide +kernel
  cases hresult : forkedTopology.finalize {} with
  | error e =>
    rw [hresult] at haccepted
    cases haccepted
  | ok result => rw [(TopologyGeneration.finalize_eq_ok.mp hresult).2]

theorem forkedTopology_resolves :
    ∃ index near far, build forkedTopology.canonical {} = .ok index ∧
      index.resolveLink ⟨1⟩ ⟨10⟩ = .ok near ∧ near.ambiguous = true ∧ near.candidates = 2 ∧
      index.resolveLink ⟨2⟩ ⟨11⟩ = .ok far ∧ far.known = true ∧ far.link = ⟨20⟩ := by
  obtain ⟨index,hindex⟩ := exists_build forkedTopology_finalised
  obtain ⟨near,hnear,hfork⟩ :=
    resolveLink_counts_links forkedTopology_finalised hindex ⟨1⟩ ⟨10⟩
  obtain ⟨far,hfar,hsingle⟩ :=
    resolveLink_counts_links forkedTopology_finalised hindex ⟨2⟩ ⟨11⟩
  have htwo : (forkedTopology.canonical.linksAt ⟨⟨1⟩,⟨10⟩⟩).card = 2 := by decide +kernel
  have hone : (forkedTopology.canonical.linksAt ⟨⟨2⟩,⟨11⟩⟩).card = 1 := by decide +kernel
  have hknown := hsingle.known.mpr hone
  obtain ⟨link,hlink,hnamed⟩ := hsingle.named hknown
  have hid : ∀ link ∈ forkedTopology.canonical.linksAt ⟨⟨2⟩,⟨11⟩⟩, link.id = ⟨20⟩ := by
    decide +kernel
  exact ⟨index,near,far,hindex,hnear,hfork.ambiguous.mpr htwo.ge,by rw [hfork.candidates, htwo],
    hfar,hknown,by rw [hnamed, hid link hlink]⟩

end TopologyIndex

end PathObservatory
