import PathObservatory.Domain.Finalize
import PathObservatory.Engine.Rank
import PathObservatory.Runtime.Frames

/-! # Publication of expected state

A publication that passes the fences takes effect, unless the generation in force
already carries its identity and its revision number: the runtime then takes it
for a republication, without looking at epoch, incarnation or content.
-/
namespace PathObservatory

theorem TopologyGeneration.finalize_identity {g finalised : TopologyGeneration} {limits : Limits}
    (h : g.finalize limits = .ok finalised) :
    finalised.id = g.id ∧ finalised.epoch = g.epoch ∧ finalised.incarnation = g.incarnation ∧
      finalised.revision = g.revision := by
  obtain ⟨-,rfl⟩ := TopologyGeneration.finalize_eq_ok.mp h
  exact ⟨rfl,rfl,rfl,rfl⟩

theorem RouteGeneration.finalize_identity {g finalised : RouteGeneration} {limits : Limits}
    (h : g.finalize limits = .ok finalised) :
    finalised.id = g.id ∧ finalised.epoch = g.epoch ∧ finalised.incarnation = g.incarnation ∧
      finalised.revision = g.revision := by
  obtain ⟨-,rfl⟩ := RouteGeneration.finalize_eq_ok.mp h
  exact ⟨rfl,rfl,rfl,rfl⟩

namespace ObservatoryRuntime

theorem admitTopology_finalize {r : ObservatoryRuntime} {g admitted : TopologyGeneration}
    (h : r.admitTopology g = .ok admitted) : g.finalize r.config.limits = .ok admitted := by
  unfold admitTopology at h
  obtain ⟨finalised,hfinal,h⟩ := bind_eq_ok.mp h
  simp only [↓require_bind_eq_ok] at h
  obtain ⟨-,-,-,h⟩ := h
  rw [← Except.ok.inj h]
  exact hfinal

theorem admitRoutes_finalize {r : ObservatoryRuntime} {g admitted : RouteGeneration}
    (h : r.admitRoutes g = .ok admitted) : g.finalize r.config.limits = .ok admitted := by
  unfold admitRoutes at h
  obtain ⟨finalised,hfinal,h⟩ := bind_eq_ok.mp h
  simp only [↓require_bind_eq_ok] at h
  obtain ⟨-,-,-,-,-,h⟩ := h
  rw [← Except.ok.inj h]
  exact hfinal

/-- The state after a topology generation took effect, before it is persisted. -/
def adoptTopology (r : ObservatoryRuntime) (g : TopologyGeneration) (index : TopologyIndex) :
    ObservatoryRuntime :=
  { r with
    epoch := g.epoch, incarnation := g.incarnation, topologyRevision := g.revision,
    topologyIndex := some index, topology := some g }

def adoptRoutes (r : ObservatoryRuntime) (g : RouteGeneration) : ObservatoryRuntime :=
  { r with
    epoch := g.epoch, incarnation := g.incarnation, routeRevision := g.revision,
    routes := some g }

/-- Everything a publication can do: be refused without effect, be taken for a
republication, or take effect and be persisted. -/
theorem publishTopology_cases (r : ObservatoryRuntime) (g : TopologyGeneration) :
    (∃ e, r.publishTopology g = (.error e,r)) ∨
    (∃ admitted, r.admitTopology g = .ok admitted ∧ r.topologyIsCurrent admitted = true ∧
      r.publishTopology g = (.ok (),r)) ∨
    (∃ admitted index, r.admitTopology g = .ok admitted ∧
      r.topologyIsCurrent admitted = false ∧
      TopologyIndex.build admitted r.config.limits = .ok index ∧
      r.publishTopology g = (r.adoptTopology admitted index).persistRecord .topologyGeneration
        (Codec.encodeTopology admitted)) := by
  unfold publishTopology
  cases hadmitted : r.admitTopology g with
  | error e => exact Or.inl ⟨e,rfl⟩
  | ok admitted =>
    cases hcurrent : r.topologyIsCurrent admitted with
    | true => exact Or.inr (Or.inl ⟨admitted,rfl,hcurrent,if_pos hcurrent⟩)
    | false =>
      cases hbuild : TopologyIndex.build admitted r.config.limits with
      | error e => exact Or.inl ⟨e,by simp only [hcurrent, hbuild, Bool.false_eq_true, if_false]⟩
      | ok index =>
        refine Or.inr (Or.inr ⟨admitted,index,rfl,hcurrent,hbuild,?_⟩)
        simp only [hcurrent, hbuild, Bool.false_eq_true, if_false]
        rfl

theorem publishRoutes_cases (r : ObservatoryRuntime) (g : RouteGeneration) :
    (∃ e, r.publishRoutes g = (.error e,r)) ∨
    (∃ admitted, r.admitRoutes g = .ok admitted ∧ r.routesAreCurrent admitted = true ∧
      r.publishRoutes g = (.ok (),r)) ∨
    (∃ admitted, r.admitRoutes g = .ok admitted ∧ r.routesAreCurrent admitted = false ∧
      r.publishRoutes g = (r.adoptRoutes admitted).persistRecord .routeGeneration
        (Codec.encodeRoutes admitted)) := by
  unfold publishRoutes
  cases hadmitted : r.admitRoutes g with
  | error e => exact Or.inl ⟨e,rfl⟩
  | ok admitted =>
    cases hcurrent : r.routesAreCurrent admitted with
    | true => exact Or.inr (Or.inl ⟨admitted,rfl,hcurrent,if_pos hcurrent⟩)
    | false =>
      refine Or.inr (Or.inr ⟨admitted,rfl,hcurrent,?_⟩)
      simp only [hcurrent, Bool.false_eq_true, if_false]
      rfl

/-- A publication leaves the runtime as it was, or adopts what is news and may write it. -/
theorem publishTopology_frame (r : ObservatoryRuntime) (g : TopologyGeneration) :
    (r.publishTopology g).2 = r ∨
    ∃ admitted index store, r.admitTopology g = .ok admitted ∧
      r.topologyIsCurrent admitted = false ∧
      TopologyIndex.build admitted r.config.limits = .ok index ∧
      (r.publishTopology g).2 = { r.adoptTopology admitted index with store := store } := by
  rcases r.publishTopology_cases g with
    ⟨_,hresult⟩ | ⟨_,-,-,hresult⟩ | ⟨admitted,index,hadmitted,hnews,hbuild,hresult⟩
  · exact Or.inl (congrArg Prod.snd hresult)
  · exact Or.inl (congrArg Prod.snd hresult)
  · obtain ⟨store,hstore⟩ := persistRecord_frame (r.adoptTopology admitted index)
      .topologyGeneration (Codec.encodeTopology admitted)
    exact Or.inr ⟨admitted,index,store,hadmitted,hnews,hbuild,hresult ▸ hstore⟩

theorem publishRoutes_frame (r : ObservatoryRuntime) (g : RouteGeneration) :
    (r.publishRoutes g).2 = r ∨
    ∃ admitted store, r.admitRoutes g = .ok admitted ∧ r.routesAreCurrent admitted = false ∧
      (r.publishRoutes g).2 = { r.adoptRoutes admitted with store := store } := by
  rcases r.publishRoutes_cases g with
    ⟨_,hresult⟩ | ⟨_,-,-,hresult⟩ | ⟨admitted,hadmitted,hnews,hresult⟩
  · exact Or.inl (congrArg Prod.snd hresult)
  · exact Or.inl (congrArg Prod.snd hresult)
  · obtain ⟨store,hstore⟩ := persistRecord_frame (r.adoptRoutes admitted) .routeGeneration
      (Codec.encodeRoutes admitted)
    exact Or.inr ⟨admitted,store,hadmitted,hnews,hresult ▸ hstore⟩

/-- A topology that is news takes effect, whatever the store does with its record. -/
theorem publishTopology_of_news {r : ObservatoryRuntime} {g admitted : TopologyGeneration}
    {index : TopologyIndex} (hadmitted : r.admitTopology g = .ok admitted)
    (hnews : r.topologyIsCurrent admitted = false)
    (hbuild : TopologyIndex.build admitted r.config.limits = .ok index) :
    (r.publishTopology g).2.topology = some admitted ∧
      (r.publishTopology g).1 = ((r.adoptTopology admitted index).persistRecord
        .topologyGeneration (Codec.encodeTopology admitted)).1 := by
  obtain ⟨store,hstore⟩ := persistRecord_frame (r.adoptTopology admitted index)
    .topologyGeneration (Codec.encodeTopology admitted)
  have hpublished : r.publishTopology g = (r.adoptTopology admitted index).persistRecord
      .topologyGeneration (Codec.encodeTopology admitted) := by
    unfold publishTopology
    simp only [hadmitted, hnews, hbuild, Bool.false_eq_true, if_false]
    rfl
  rw [hpublished, hstore]
  exact ⟨rfl,rfl⟩

theorem publishRoutes_of_news {r : ObservatoryRuntime} {g admitted : RouteGeneration}
    (hadmitted : r.admitRoutes g = .ok admitted) (hnews : r.routesAreCurrent admitted = false) :
    (r.publishRoutes g).2.routes = some admitted ∧
      (r.publishRoutes g).1 = ((r.adoptRoutes admitted).persistRecord
        .routeGeneration (Codec.encodeRoutes admitted)).1 := by
  obtain ⟨store,hstore⟩ := persistRecord_frame (r.adoptRoutes admitted)
    .routeGeneration (Codec.encodeRoutes admitted)
  have hpublished : r.publishRoutes g = (r.adoptRoutes admitted).persistRecord
      .routeGeneration (Codec.encodeRoutes admitted) := by
    unfold publishRoutes
    simp only [hadmitted, hnews, Bool.false_eq_true, if_false]
    rfl
  rw [hpublished, hstore]
  exact ⟨rfl,rfl⟩

/-- The topology in force is the finalised generation, up to the time it was
received, and the runtime is in its epoch and incarnation. -/
def TopologyInForce (r : ObservatoryRuntime) (g : TopologyGeneration) : Prop :=
  ∃ finalised current, g.finalize r.config.limits = .ok finalised ∧ r.topology = some current ∧
    current.id = g.id ∧ current.epoch = g.epoch ∧ current.incarnation = g.incarnation ∧
    current.revision = g.revision ∧ current.digest = finalised.digest ∧
    r.epoch = g.epoch ∧ r.incarnation = g.incarnation

def RoutesInForce (r : ObservatoryRuntime) (g : RouteGeneration) : Prop :=
  ∃ finalised current, g.finalize r.config.limits = .ok finalised ∧ r.routes = some current ∧
    current.id = g.id ∧ current.epoch = g.epoch ∧ current.incarnation = g.incarnation ∧
    current.revision = g.revision ∧ current.digest = finalised.digest ∧
    r.routeRevision = g.revision ∧ r.epoch = g.epoch ∧ r.incarnation = g.incarnation

/-- The generation passes the fences and reuses the identity and the revision
number of the one in force, but is from another epoch or incarnation than that one
or than the runtime, or has other content. -/
def SwallowsTopology (r : ObservatoryRuntime) (g : TopologyGeneration) : Prop :=
  ∃ admitted current, r.admitTopology g = .ok admitted ∧ r.topology = some current ∧
    current.id = g.id ∧ current.revision = g.revision ∧
    (current.epoch ≠ g.epoch ∨ current.incarnation ≠ g.incarnation ∨
      current.digest ≠ admitted.digest ∨ r.epoch ≠ g.epoch ∨ r.incarnation ≠ g.incarnation)

def SwallowsRoutes (r : ObservatoryRuntime) (g : RouteGeneration) : Prop :=
  ∃ admitted current, r.admitRoutes g = .ok admitted ∧ r.routes = some current ∧
    current.id = g.id ∧ current.revision = g.revision ∧
    (current.epoch ≠ g.epoch ∨ current.incarnation ≠ g.incarnation ∨
      current.digest ≠ admitted.digest ∨ r.routeRevision ≠ g.revision ∨
      r.epoch ≠ g.epoch ∨ r.incarnation ≠ g.incarnation)

theorem topologyIsCurrent_iff {r : ObservatoryRuntime} {g : TopologyGeneration} :
    r.topologyIsCurrent g = true ↔
      ∃ current, r.topology = some current ∧ current.id = g.id ∧ current.revision = g.revision := by
  unfold topologyIsCurrent
  cases r.topology <;> simp

theorem routesAreCurrent_iff {r : ObservatoryRuntime} {g : RouteGeneration} :
    r.routesAreCurrent g = true ↔
      ∃ current, r.routes = some current ∧ current.id = g.id ∧ current.revision = g.revision := by
  unfold routesAreCurrent
  cases r.routes <;> simp

/-- A swallowed generation is admitted and answered as a republication. -/
theorem publishTopology_of_swallowed {r : ObservatoryRuntime} {g : TopologyGeneration}
    (h : r.SwallowsTopology g) : r.publishTopology g = (.ok (),r) := by
  obtain ⟨admitted,current,hadmitted,hcurrent,hid,hrevision,-⟩ := h
  obtain ⟨hi,-,-,hr⟩ := TopologyGeneration.finalize_identity (admitTopology_finalize hadmitted)
  have his : r.topologyIsCurrent admitted = true :=
    topologyIsCurrent_iff.mpr ⟨current,hcurrent,hid.trans hi.symm,hrevision.trans hr.symm⟩
  unfold publishTopology
  rw [hadmitted]
  exact if_pos his

theorem publishRoutes_of_swallowed {r : ObservatoryRuntime} {g : RouteGeneration}
    (h : r.SwallowsRoutes g) : r.publishRoutes g = (.ok (),r) := by
  obtain ⟨admitted,current,hadmitted,hcurrent,hid,hrevision,-⟩ := h
  obtain ⟨hi,-,-,hr⟩ := RouteGeneration.finalize_identity (admitRoutes_finalize hadmitted)
  have his : r.routesAreCurrent admitted = true :=
    routesAreCurrent_iff.mpr ⟨current,hcurrent,hid.trans hi.symm,hrevision.trans hr.symm⟩
  unfold publishRoutes
  rw [hadmitted]
  exact if_pos his

theorem not_inForce_of_swallowsTopology {r : ObservatoryRuntime} {g : TopologyGeneration}
    (h : r.SwallowsTopology g) : ¬ r.TopologyInForce g := by
  obtain ⟨admitted,current,hadmitted,hcurrent,-,-,hdiffers⟩ := h
  rintro ⟨finalised,held,hfinal,hheld,-,hepoch,hincarnation,-,hdigest,hr,hi⟩
  obtain rfl : current = held := Option.some.inj (hcurrent.symm.trans hheld)
  have hsame : admitted = finalised :=
    Except.ok.inj ((admitTopology_finalize hadmitted).symm.trans hfinal)
  rw [hsame] at hdiffers
  rcases hdiffers with h | h | h | h | h
  · exact h hepoch
  · exact h hincarnation
  · exact h hdigest
  · exact h hr
  · exact h hi

theorem not_inForce_of_swallowsRoutes {r : ObservatoryRuntime} {g : RouteGeneration}
    (h : r.SwallowsRoutes g) : ¬ r.RoutesInForce g := by
  obtain ⟨admitted,current,hadmitted,hcurrent,-,-,hdiffers⟩ := h
  rintro ⟨finalised,held,hfinal,hheld,-,hepoch,hincarnation,-,hdigest,hv,hr,hi⟩
  obtain rfl : current = held := Option.some.inj (hcurrent.symm.trans hheld)
  have hsame : admitted = finalised :=
    Except.ok.inj ((admitRoutes_finalize hadmitted).symm.trans hfinal)
  rw [hsame] at hdiffers
  rcases hdiffers with h | h | h | h | h | h
  · exact h hepoch
  · exact h hincarnation
  · exact h hdigest
  · exact h hv
  · exact h hr
  · exact h hi

/-- An adopted topology is in force, whatever becomes of its record. -/
theorem adoptTopology_inForce {r : ObservatoryRuntime} {g admitted : TopologyGeneration}
    (hadmitted : r.admitTopology g = .ok admitted) (index : TopologyIndex) (type : RecordType)
    (payload : ByteString) :
    ((r.adoptTopology admitted index).persistRecord type payload).2.TopologyInForce g := by
  obtain ⟨store,hstore⟩ := persistRecord_frame (r.adoptTopology admitted index) type payload
  have hfinal := admitTopology_finalize hadmitted
  obtain ⟨hid,hepoch,hincarnation,hrevision⟩ := TopologyGeneration.finalize_identity hfinal
  rw [hstore]
  exact ⟨admitted,admitted,hfinal,rfl,hid,hepoch,hincarnation,hrevision,rfl,hepoch,hincarnation⟩

theorem adoptRoutes_inForce {r : ObservatoryRuntime} {g admitted : RouteGeneration}
    (hadmitted : r.admitRoutes g = .ok admitted) (type : RecordType) (payload : ByteString) :
    ((r.adoptRoutes admitted).persistRecord type payload).2.RoutesInForce g := by
  obtain ⟨store,hstore⟩ := persistRecord_frame (r.adoptRoutes admitted) type payload
  have hfinal := admitRoutes_finalize hadmitted
  obtain ⟨hid,hepoch,hincarnation,hrevision⟩ := RouteGeneration.finalize_identity hfinal
  rw [hstore]
  exact ⟨admitted,admitted,hfinal,rfl,hid,hepoch,hincarnation,hrevision,rfl,hrevision,hepoch,
    hincarnation⟩

theorem topology_inForce_iff (r : ObservatoryRuntime) (g : TopologyGeneration) :
    ((r.publishTopology g).1 = .ok () → (r.publishTopology g).2.TopologyInForce g) ↔
      ¬ r.SwallowsTopology g := by
  constructor
  · intro h hswallows
    rw [publishTopology_of_swallowed hswallows] at h
    exact not_inForce_of_swallowsTopology hswallows (h rfl)
  · intro hkeeps hok
    rcases r.publishTopology_cases g with
      ⟨e,hresult⟩ | ⟨admitted,hadmitted,hcurrent,hresult⟩ | ⟨admitted,index,hadmitted,-,-,hresult⟩
    · rw [hresult] at hok
      exact absurd hok (by simp)
    · obtain ⟨current,hheld,hid,hrevision⟩ := topologyIsCurrent_iff.mp hcurrent
      have hfinal := admitTopology_finalize hadmitted
      obtain ⟨hi,-,-,hr⟩ := TopologyGeneration.finalize_identity hfinal
      rw [hresult]
      by_contra hnot
      refine hkeeps ⟨admitted,current,hadmitted,hheld,hid.trans hi,hrevision.trans hr,?_⟩
      by_contra hagrees
      simp only [not_or, not_not] at hagrees
      obtain ⟨h1,h2,h3,h4,h5⟩ := hagrees
      exact hnot ⟨admitted,current,hfinal,hheld,hid.trans hi,h1,h2,hrevision.trans hr,h3,h4,h5⟩
    · rw [hresult]
      exact adoptTopology_inForce hadmitted index _ _

theorem routes_inForce_iff (r : ObservatoryRuntime) (g : RouteGeneration) :
    ((r.publishRoutes g).1 = .ok () → (r.publishRoutes g).2.RoutesInForce g) ↔
      ¬ r.SwallowsRoutes g := by
  constructor
  · intro h hswallows
    rw [publishRoutes_of_swallowed hswallows] at h
    exact not_inForce_of_swallowsRoutes hswallows (h rfl)
  · intro hkeeps hok
    rcases r.publishRoutes_cases g with
      ⟨e,hresult⟩ | ⟨admitted,hadmitted,hcurrent,hresult⟩ | ⟨admitted,hadmitted,-,hresult⟩
    · rw [hresult] at hok
      exact absurd hok (by simp)
    · obtain ⟨current,hheld,hid,hrevision⟩ := routesAreCurrent_iff.mp hcurrent
      have hfinal := admitRoutes_finalize hadmitted
      obtain ⟨hi,-,-,hr⟩ := RouteGeneration.finalize_identity hfinal
      rw [hresult]
      by_contra hnot
      refine hkeeps ⟨admitted,current,hadmitted,hheld,hid.trans hi,hrevision.trans hr,?_⟩
      by_contra hagrees
      simp only [not_or, not_not] at hagrees
      obtain ⟨h1,h2,h3,h4,h5,h6⟩ := hagrees
      exact hnot
        ⟨admitted,current,hfinal,hheld,hid.trans hi,h1,h2,hrevision.trans hr,h3,h4,h5,h6⟩
    · rw [hresult]
      exact adoptRoutes_inForce hadmitted _ _

/-- A publication answered with success is in force exactly when it was not taken
for a republication of another generation. -/
theorem publication_in_force_iff (r : ObservatoryRuntime) (g : TopologyGeneration)
    (p : RouteGeneration) :
    (((r.publishTopology g).1 = .ok () → (r.publishTopology g).2.TopologyInForce g) ↔
      ¬ r.SwallowsTopology g) ∧
    (((r.publishRoutes p).1 = .ok () → (r.publishRoutes p).2.RoutesInForce p) ↔
      ¬ r.SwallowsRoutes p) :=
  ⟨r.topology_inForce_iff g,r.routes_inForce_iff p⟩

def authoritySource : SourceDescriptor where
  id := ⟨1⟩
  name := [0x61]
  kind := .topologyAuthority
  surface := .synthetic
  authority := .authoritative
  capabilities := { topology := true }

/-- A topology without devices; only the epoch varies. -/
def emptyTopology (epoch : UInt64) : TopologyGeneration where
  id := ⟨1⟩
  epoch := ⟨epoch⟩
  incarnation := ⟨1⟩
  revision := ⟨1⟩
  source := ⟨1⟩

theorem create_default (clock : ℕ → TimePoint) (sorter : Ranking.Sorter ranksBefore) :
    create {} (some clock) sorter = .ok (fresh {} clock sorter) := rfl

/-- A runtime in which the first epoch published its topology. -/
def publishedOnce : ObservatoryRuntime :=
  ((fresh {} (fun _ => ⟨0⟩) (Ranking.Sorter.insertion ranksBefore_ranksBy)).perform
    (.registerSource authoritySource)).perform (.publishTopology (emptyTopology 1))

theorem publishedOnce_reachable : Reachable publishedOnce :=
  .call (.call (.create (create_default _ _)) _) _

/-- The first publication of the second epoch is answered with success and leaves
the runtime in the first epoch. -/
theorem new_epoch_swallowed :
    Reachable publishedOnce ∧ (publishedOnce.publishTopology (emptyTopology 2)).1 = .ok () ∧
      ¬ (publishedOnce.publishTopology (emptyTopology 2)).2.TopologyInForce (emptyTopology 2) := by
  refine ⟨publishedOnce_reachable,rfl,?_⟩
  rintro ⟨-,-,-,-,-,-,-,-,-,hepoch,-⟩
  exact absurd hepoch (by decide)

theorem perform_config (r : ObservatoryRuntime) (request : Call) :
    (r.perform request).config = r.config := by
  cases request with
  | publishTopology g =>
    rcases r.publishTopology_frame g with hsame | ⟨admitted,index,store,-,-,-,hframe⟩
    · rw [perform, hsame]
    · rw [perform, hframe]
      rfl
  | publishRoutes g =>
    rcases r.publishRoutes_frame g with hsame | ⟨admitted,store,-,-,hframe⟩
    · rw [perform, hsame]
    · rw [perform, hframe]
      rfl
  | _ => exact (r.perform_sameExpected (by simp) (by simp)).1

end ObservatoryRuntime

end PathObservatory
