import Mathlib.Data.Multiset.Dedup
import PathObservatory.Documents.EvidenceDocument
import PathObservatory.Documents.GenerationDocuments
import PathObservatory.Domain.Finalize

/-! # The numbers that documents state

A number of a document is a natural number, of any size. The numbers of a document
stand beside those of what is parsed from it: what is parsed has every number, but
reduced to the width of an index where it is one.
-/
namespace PathObservatory

/-- The natural number that a value is. -/
def JsonValue.natural : JsonValue → Option ℕ
  | .number text => if text ≠ [] ∧ text.all Json.isDigit then some (Json.valueOfDigits text) else none
  | _ => none

namespace Documents
variable {α β : Type}

/-- The number stated under a key; where none is stated or a null, the fallback. -/
def statedNumber (object : JsonValue) (key : String) (fallback : ℕ) : ℕ :=
  match object.find (bytesOf key) with
  | none => fallback
  | some value => if value.isNull then fallback else value.natural.getD fallback

def statedNumbers (object : JsonValue) (keys : List String) : List ℕ :=
  keys.map (fun key => statedNumber object key 0)

/-- The items of the array under a key. -/
def statedItems (object : JsonValue) (key : String) : List JsonValue :=
  ((object.find (bytesOf key)).map JsonValue.items).getD []

/-- A hop: its index, and the identities in it. -/
abbrev HopNumbers := ℕ × List ℕ

/-- The index as it fits into its field. -/
def HopNumbers.narrowed (hop : HopNumbers) : HopNumbers := (hop.1 % 2 ^ 32,hop.2)

/-- A path: its identities and its hops. -/
abbrev PathNumbers := List ℕ × List HopNumbers

def PathNumbers.narrowed (path : PathNumbers) : PathNumbers :=
  (path.1,path.2.map HopNumbers.narrowed)

/-- The numbers of a topology. A port has its identities and its index. -/
structure TopologyNumbers where
  header : List ℕ
  devices : Multiset ℕ
  ports : Multiset HopNumbers
  links : Multiset (List ℕ)
deriving DecidableEq

/-- The numbers of a route generation: groups with their members, paths with their
hops. -/
structure RouteNumbers where
  header : List ℕ
  groups : Multiset (List ℕ × Multiset ℕ)
  paths : Multiset PathNumbers
deriving DecidableEq

structure EvidenceNumbers where
  header : List ℕ
  hops : List HopNumbers
deriving DecidableEq

def TopologyNumbers.narrowed (n : TopologyNumbers) : TopologyNumbers :=
  { n with ports := n.ports.map HopNumbers.narrowed }

def RouteNumbers.narrowed (n : RouteNumbers) : RouteNumbers :=
  { n with paths := n.paths.map PathNumbers.narrowed }

/-- The members of a group are a set. -/
def RouteNumbers.merged (n : RouteNumbers) : RouteNumbers :=
  { n with groups := n.groups.map (fun group => (group.1,group.2.dedup)) }

def EvidenceNumbers.narrowed (n : EvidenceNumbers) : EvidenceNumbers :=
  { n with hops := n.hops.map HopNumbers.narrowed }

section Stated

def statedPort (item : JsonValue) : HopNumbers :=
  (statedNumber item "index" 0,statedNumbers item ["id","device"])

def statedTopology (document : JsonValue) : TopologyNumbers where
  header := statedNumbers document
    ["generation","epoch","incarnation","revision","sequence","source"]
  devices := (statedItems document "devices").map (fun item => statedNumber item "id" 0)
  ports := (statedItems document "ports").map statedPort
  links := (statedItems document "links").map (fun item =>
    statedNumbers item ["id","local_device","local_port","remote_device","remote_port"])

def statedGroup (item : JsonValue) : List ℕ × Multiset ℕ :=
  (statedNumbers item ["id","origin","destination"],
    (statedItems item "members").map (fun member => member.natural.getD 0))

/-- The hops from a position on, which is the index of a hop that states none. -/
def statedHops : ℕ → List JsonValue → List HopNumbers
  | _, [] => []
  | position, item :: items =>
    (statedNumber item "index" position,
      statedNumbers item ["id","device","ingress","egress","link"]) ::
        statedHops (position + 1) items

def statedPath (generation : ℕ) (item : JsonValue) : PathNumbers :=
  ([statedNumber item "id" 0,statedNumber item "group" 0,statedNumber item "generation" generation],
    statedHops 0 (statedItems item "hops"))

def statedRoutes (document : JsonValue) : RouteNumbers where
  header := statedNumbers document
    ["generation","epoch","incarnation","revision","sequence","source","topology_generation"]
  groups := (statedItems document "groups").map statedGroup
  paths := (statedItems document "paths").map
    (statedPath (statedNumber document "generation" 0))

/-- The hops behind one with the given index, which a hop that states none follows. -/
def statedObservedHops : Option ℕ → List JsonValue → List HopNumbers
  | _, [] => []
  | previous, item :: items =>
    let index := statedNumber item "index" (previous.elim 0 (· + 1))
    (index,statedNumbers item ["device","ingress","egress","link"]) ::
      statedObservedHops (some index) items

def statedEvidence (document : JsonValue) : EvidenceNumbers where
  header := statedNumbers document
    ["source","incarnation","sequence","epoch","claimed_incarnation","revision",
      "route_generation","topology_generation","path","group","origin","destination"]
  hops := statedObservedHops none (statedItems document "hops")

end Stated

section Values

def portNumbers (port : PortRecord) : HopNumbers :=
  (port.index.toNat,[port.id.value.toNat,port.device.value.toNat])

def linkNumbers (link : LinkRecord) : List ℕ :=
  [link.id.value.toNat,link.localDevice.value.toNat,link.localPort.value.toNat,
    link.remoteDevice.value.toNat,link.remotePort.value.toNat]

def topologyNumbers (g : TopologyGeneration) : TopologyNumbers where
  header := [g.id.value.toNat,g.epoch.value.toNat,g.incarnation.value.toNat,
    g.revision.value.toNat,g.sequence.value.toNat,g.source.value.toNat]
  devices := g.devices.map (·.id.value.toNat)
  ports := g.ports.map portNumbers
  links := g.links.map linkNumbers

def groupNumbers (group : PathGroup) : List ℕ × Multiset ℕ :=
  ([group.id.value.toNat,group.origin.value.toNat,group.destination.value.toNat],
    group.members.map (·.value.toNat))

def hopNumbers (hop : ExpectedHop) : HopNumbers :=
  (hop.index.toNat,[hop.id.value.toNat,hop.device.value.toNat,hop.ingress.value.toNat,
    hop.egress.value.toNat,hop.egressLink.value.toNat])

def pathNumbers (path : ExpectedPath) : PathNumbers :=
  ([path.id.value.toNat,path.group.value.toNat,path.generation.value.toNat],
    path.hops.map hopNumbers)

def routeNumbers (g : RouteGeneration) : RouteNumbers where
  header := [g.id.value.toNat,g.epoch.value.toNat,g.incarnation.value.toNat,
    g.revision.value.toNat,g.sequence.value.toNat,g.source.value.toNat,g.topology.value.toNat]
  groups := g.groups.map groupNumbers
  paths := g.paths.map pathNumbers

def observedHopNumbers (hop : ObservedHop) : HopNumbers :=
  (hop.index.toNat,[hop.device.value.toNat,hop.ingress.value.toNat,hop.egress.value.toNat,
    hop.link.value.toNat])

/-- An absent identity is zero. -/
def evidenceNumbers (e : ObservedPathEvidence) : EvidenceNumbers where
  header := [e.source.value.toNat,e.incarnation.value.toNat,e.sequence.value.toNat,
    e.epoch.value.toNat,e.claimedIncarnation.value.toNat,e.revision.value.toNat,
    e.routeGeneration.value.value.toNat,e.topologyGeneration.value.value.toNat,
    e.path.value.value.toNat,e.group.value.value.toNat,e.origin.value.value.toNat,
    e.destination.value.value.toNat]
  hops := e.hops.map observedHopNumbers

end Values

section Reading
variable {object item value : JsonValue} {key what : String} {tag : IdTag} {raw fallback : UInt64}

/-- A number that is read is the natural number of the text. -/
theorem natural_of_asU64 (h : value.asU64 = .ok raw) : value.natural = some raw.toNat := by
  cases value with
  | number text =>
    simp only [JsonValue.asU64] at h
    split_ifs at h with hsign hrange
    simp only [Bool.or_eq_true, Bool.not_eq_true', decide_eq_true_eq, not_or, Bool.not_eq_false,
      Nat.not_le, List.isEmpty_iff] at hrange
    obtain ⟨⟨hne,hdigits⟩,hlt⟩ := hrange
    rw [JsonValue.natural, if_pos ⟨hne,hdigits⟩, ← Except.ok.inj h, UInt64.toNat_ofNat_of_lt' hlt]
  | null | boolean _ | string _ | array _ | object _ => cases h

theorem readU64_eq_ok (h : readU64 key value = .ok raw) :
    value.isNull = false ∧ value.natural = some raw.toNat := by
  obtain ⟨-,hread⟩ := require_bind_eq_ok.mp h
  refine ⟨?_,natural_of_asU64 hread⟩
  cases value with
  | null => cases hread
  | number _ | boolean _ | string _ | array _ | object _ => rfl

theorem requireMember_eq_ok (h : requireMember object key = .ok value) :
    object.find (bytesOf key) = some value := by
  obtain ⟨-,h⟩ := require_bind_eq_ok.mp h
  cases hfind : object.find (bytesOf key) with
  | none =>
    rw [hfind] at h
    cases h
  | some found =>
    rw [hfind] at h
    rw [Except.ok.inj h]

/-- A required number is the one stated. -/
theorem stated_of_requireU64 (h : requireU64 object key = .ok raw) (default : ℕ) :
    statedNumber object key default = raw.toNat := by
  obtain ⟨value,hmember,hread⟩ := bind_eq_ok.mp h
  obtain ⟨hnull,hnatural⟩ := readU64_eq_ok hread
  simp [statedNumber, requireMember_eq_ok hmember, hnull, hnatural]

/-- An optional number is the one stated, up to what is implied where none is. -/
theorem stated_of_optionalU64 (h : optionalU64 object key fallback = .ok raw) :
    (∀ default, statedNumber object key default = raw.toNat) ∨
      raw = fallback ∧ ∀ default, statedNumber object key default = default := by
  rw [optionalU64, optionally, optionalMember_eq] at h
  cases hfind : object.find (bytesOf key) with
  | none =>
    rw [hfind] at h
    refine .inr ⟨(Except.ok.inj h).symm,fun default => ?_⟩
    simp [statedNumber, hfind]
  | some value =>
    rw [hfind] at h
    dsimp only at h
    split_ifs at h with hnull
    · refine .inr ⟨(Except.ok.inj h).symm,fun default => ?_⟩
      simp [statedNumber, hfind, hnull]
    · obtain ⟨-,hnatural⟩ := readU64_eq_ok h
      refine .inl fun default => ?_
      simp [statedNumber, hfind, hnull, hnatural]

theorem stated_of_optionalU64_zero (h : optionalU64 object key 0 = .ok raw) :
    statedNumber object key 0 = raw.toNat := by
  rcases stated_of_optionalU64 h with hstated | ⟨rfl,hstated⟩
  · exact hstated 0
  · exact hstated 0

/-- An index is the one stated, reduced to its field. -/
theorem narrowed_of_optionalU64 (h : optionalU64 object key fallback = .ok raw) (default : ℕ)
    (hdefault : default % 2 ^ 32 = fallback.toNat % 2 ^ 32) :
    statedNumber object key default % 2 ^ 32 = raw.toUInt32.toNat := by
  rw [UInt64.toNat_toUInt32]
  rcases stated_of_optionalU64 h with hstated | ⟨rfl,hstated⟩
  · rw [hstated]
  · rw [hstated, hdefault]

theorem stated_of_requireId {id : StrongId tag} (h : requireId object key what = .ok id) :
    statedNumber object key 0 = id.value.toNat := by
  obtain ⟨raw,hraw,hid⟩ := bind_eq_ok.mp h
  obtain ⟨-,hid⟩ := require_bind_eq_ok.mp hid
  rw [stated_of_requireU64 hraw, ← pure_eq_ok.mp hid]

theorem stated_of_optionalId {id : MaybeId tag} (h : optionalId object key = .ok id) :
    statedNumber object key 0 = id.value.value.toNat := by
  obtain ⟨raw,hraw,hid⟩ := bind_eq_ok.mp h
  rw [stated_of_optionalU64_zero hraw, ← pure_eq_ok.mp hid]
  split_ifs with hzero
  · rfl
  · rw [not_not.mp hzero]

variable {bound : ℕ} {notArray exceeded : String} {items : List JsonValue}

theorem boundedItems_of_ok (h : boundedItems value bound notArray exceeded = .ok items) :
    items = value.items := by
  obtain ⟨-,h⟩ := require_bind_eq_ok.mp h
  obtain ⟨-,h⟩ := require_bind_eq_ok.mp h
  exact (pure_eq_ok.mp h).symm

theorem stated_of_optionalItems
    (h : optionalItems object key bound notArray exceeded = .ok items) :
    statedItems object key = items := by
  rw [optionalItems, optionalMember_eq] at h
  cases hfind : object.find (bytesOf key) with
  | none =>
    rw [hfind] at h
    simp [statedItems, hfind, ← Except.ok.inj h]
  | some value =>
    rw [hfind] at h
    simp [statedItems, hfind, boundedItems_of_ok h]

theorem stated_of_requireItems (hmember : requireMember object key = .ok value)
    (h : boundedItems value bound notArray exceeded = .ok items) :
    statedItems object key = items := by
  simp [statedItems, requireMember_eq_ok hmember, boundedItems_of_ok h]

/-- What holds of each item that is read holds of all of them. -/
theorem map_of_parseItems {read : JsonValue → Result α} {stated : JsonValue → β} {numbers : α → β}
    (hread : ∀ item a, read item = .ok a → stated item = numbers a) {items : List JsonValue}
    {values : List α} (h : parseItems read items = .ok values) :
    items.map stated = values.map numbers := by
  induction items generalizing values with
  | nil => rw [← pure_eq_ok.mp h]; rfl
  | cons item items ih =>
    obtain ⟨first,hfirst,h⟩ := bind_eq_ok.mp h
    obtain ⟨rest,hrest,h⟩ := bind_eq_ok.mp h
    rw [← pure_eq_ok.mp h, List.map_cons, List.map_cons, hread item first hfirst, ih hrest]

end Reading

end Documents

end PathObservatory
