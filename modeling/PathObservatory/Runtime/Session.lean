import PathObservatory.Library.Streams
import PathObservatory.Runtime.Publication

/-! # Expected state between two starts

A session follows a runtime from a start and notes every generation that became
current. The fence of a publication looks at the generation in force only, so a
session rolls back exactly where it returns to an incarnation below what was
current in it before.
-/
namespace PathObservatory
open Streams

/-- A runtime with the generations that became current since it was started,
oldest first. -/
structure Session where
  runtime : ObservatoryRuntime
  topologies : List TopologyGeneration
  routes : List RouteGeneration

namespace ObservatoryRuntime

/-- The generation would take effect. -/
def AdoptsTopology (r : ObservatoryRuntime) (g admitted : TopologyGeneration) : Prop :=
  r.admitTopology g = .ok admitted ∧ r.topologyIsCurrent admitted = false ∧
    ∃ index, TopologyIndex.build admitted r.config.limits = .ok index

def AdoptsRoutes (r : ObservatoryRuntime) (g admitted : RouteGeneration) : Prop :=
  r.admitRoutes g = .ok admitted ∧ r.routesAreCurrent admitted = false

/-- What a request can do to the topology in force. -/
theorem perform_topology (r : ObservatoryRuntime) (call : Call) :
    (r.perform call).topology = r.topology ∧
        (∀ g admitted, call = .publishTopology g → ¬ r.AdoptsTopology g admitted) ∨
      ∃ g admitted, call = .publishTopology g ∧ r.AdoptsTopology g admitted ∧
        (r.perform call).topology = some admitted := by
  by_cases hcall : ∃ g admitted, call = .publishTopology g ∧ r.AdoptsTopology g admitted
  · obtain ⟨g,admitted,rfl,hadmitted,hnews,index,hbuild⟩ := hcall
    exact Or.inr ⟨g,admitted,rfl,⟨hadmitted,hnews,index,hbuild⟩,
      (publishTopology_of_news hadmitted hnews hbuild).1⟩
  · have hnone : ∀ g admitted, call = .publishTopology g → ¬ r.AdoptsTopology g admitted :=
      fun g admitted heq hadopts => hcall ⟨g,admitted,heq,hadopts⟩
    refine Or.inl ⟨?_,hnone⟩
    cases call with
    | publishTopology g =>
      rcases r.publishTopology_frame g with hsame | ⟨admitted,index,_,hadmitted,hnews,hbuild,-⟩
      · rw [perform, hsame]
      · exact absurd ⟨hadmitted,hnews,index,hbuild⟩ (hnone g admitted rfl)
    | publishRoutes g =>
      rcases r.publishRoutes_frame g with hsame | ⟨admitted,store,-,-,hframe⟩
      · rw [perform, hsame]
      · rw [perform, hframe]
        rfl
    | _ => exact (r.perform_sameExpected (by simp) (by simp)).2.topology

theorem perform_routes (r : ObservatoryRuntime) (call : Call) :
    (r.perform call).routes = r.routes ∧
        (∀ g admitted, call = .publishRoutes g → ¬ r.AdoptsRoutes g admitted) ∨
      ∃ g admitted, call = .publishRoutes g ∧ r.AdoptsRoutes g admitted ∧
        (r.perform call).routes = some admitted := by
  by_cases hcall : ∃ g admitted, call = .publishRoutes g ∧ r.AdoptsRoutes g admitted
  · obtain ⟨g,admitted,rfl,hadmitted,hnews⟩ := hcall
    exact Or.inr ⟨g,admitted,rfl,⟨hadmitted,hnews⟩,(publishRoutes_of_news hadmitted hnews).1⟩
  · have hnone : ∀ g admitted, call = .publishRoutes g → ¬ r.AdoptsRoutes g admitted :=
      fun g admitted heq hadopts => hcall ⟨g,admitted,heq,hadopts⟩
    refine Or.inl ⟨?_,hnone⟩
    cases call with
    | publishTopology g =>
      rcases r.publishTopology_frame g with hsame | ⟨admitted,index,store,-,-,-,hframe⟩
      · rw [perform, hsame]
      · rw [perform, hframe]
        rfl
    | publishRoutes g =>
      rcases r.publishRoutes_frame g with hsame | ⟨admitted,_,hadmitted,hnews,-⟩
      · rw [perform, hsame]
      · exact absurd ⟨hadmitted,hnews⟩ (hnone g admitted rfl)
    | _ => exact (r.perform_sameExpected (by simp) (by simp)).2.routes

end ObservatoryRuntime

/-- The epoch and the incarnation a revision is comparable in. -/
def TopologyGeneration.space (g : TopologyGeneration) : EpochId × IncarnationId :=
  (g.epoch,g.incarnation)

def RouteGeneration.space (g : RouteGeneration) : EpochId × IncarnationId :=
  (g.epoch,g.incarnation)

namespace Session
open ObservatoryRuntime

/-- A session that begins with what is in force. -/
def begin_ (r : ObservatoryRuntime) : Session where
  runtime := r
  topologies := r.topology.toList
  routes := r.routes.toList

def call (s : Session) (request : Call) : Session where
  runtime := s.runtime.perform request
  topologies := s.topologies ++ news s.runtime.topology (s.runtime.perform request).topology
  routes := s.routes ++ news s.runtime.routes (s.runtime.perform request).routes

def calls (s : Session) (requests : List Call) : Session := requests.foldl call s

/-- The notes end with what is in force. -/
structure Follows (s : Session) : Prop where
  topology : s.topologies.getLast? = s.runtime.topology
  routes : s.routes.getLast? = s.runtime.routes

/-- Revisions never roll back: those that became current in one epoch and
incarnation ascend. -/
structure NeverRollsBack (s : Session) : Prop where
  topologies : Ascending TopologyGeneration.space (·.revision) s.topologies
  routes : Ascending RouteGeneration.space (·.revision) s.routes

/-- A publication that leaves the epoch and incarnation in force is not below what
was current in its own before. -/
def ReturnsAbove (s : Session) : Call → Prop
  | .publishTopology g => ∀ admitted, s.runtime.AdoptsTopology g admitted →
      (∀ current, s.runtime.topology = some current → current.space ≠ admitted.space) →
        Tops TopologyGeneration.space (·.revision) s.topologies admitted
  | .publishRoutes g => ∀ admitted, s.runtime.AdoptsRoutes g admitted →
      (∀ current, s.runtime.routes = some current → current.space ≠ admitted.space) →
        Tops RouteGeneration.space (·.revision) s.routes admitted
  | _ => True

/-- Every request of a run is such a one when its turn comes. -/
def AllReturnAbove (s : Session) : List Call → Prop
  | [] => True
  | request :: rest => s.ReturnsAbove request ∧ (s.call request).AllReturnAbove rest

theorem begin_follows (r : ObservatoryRuntime) : (begin_ r).Follows := by
  constructor
  · cases htopology : r.topology <;> simp [begin_, htopology]
  · cases hroutes : r.routes <;> simp [begin_, hroutes]

theorem begin_neverRollsBack (r : ObservatoryRuntime) : (begin_ r).NeverRollsBack := by
  constructor
  · cases htopology : r.topology <;> simp [begin_, htopology, Ascending]
  · cases hroutes : r.routes <;> simp [begin_, hroutes, Ascending]

/-- What takes effect is not what was in force. -/
theorem topology_ne_of_adopts {r : ObservatoryRuntime} {g admitted : TopologyGeneration}
    (h : r.AdoptsTopology g admitted) : some admitted ≠ r.topology := by
  intro heq
  have hcurrent := topologyIsCurrent_iff.mpr ⟨admitted,heq.symm,rfl,rfl⟩
  rw [h.2.1] at hcurrent
  cases hcurrent

theorem routes_ne_of_adopts {r : ObservatoryRuntime} {g admitted : RouteGeneration}
    (h : r.AdoptsRoutes g admitted) : some admitted ≠ r.routes := by
  intro heq
  have hcurrent := routesAreCurrent_iff.mpr ⟨admitted,heq.symm,rfl,rfl⟩
  rw [h.2] at hcurrent
  cases hcurrent

theorem Follows.call {s : Session} (h : s.Follows) (request : Call) :
    (s.call request).Follows := by
  constructor
  · rcases s.runtime.perform_topology request with ⟨hsame,-⟩ | ⟨g,admitted,-,hadopts,hnew⟩
    · simp only [Session.call, hsame, news_self, List.append_nil, h.topology]
    · simp only [Session.call, hnew, news_of_ne (topology_ne_of_adopts hadopts),
        List.getLast?_append, List.getLast?_singleton, Option.some_or]
  · rcases s.runtime.perform_routes request with ⟨hsame,-⟩ | ⟨g,admitted,-,hadopts,hnew⟩
    · simp only [Session.call, hsame, news_self, List.append_nil, h.routes]
    · simp only [Session.call, hnew, news_of_ne (routes_ne_of_adopts hadopts),
        List.getLast?_append, List.getLast?_singleton, Option.some_or]

/-- The fence: a topology that stays in the epoch and incarnation in force is not
below the one in force. -/
theorem revision_le_of_adoptsTopology {r : ObservatoryRuntime}
    {g admitted current : TopologyGeneration} (h : r.AdoptsTopology g admitted)
    (hcurrent : r.topology = some current) (hspace : current.space = admitted.space) :
    current.revision ≤ admitted.revision := by
  obtain ⟨hadmitted,-⟩ := h
  unfold admitTopology at hadmitted
  obtain ⟨finalised,-,hadmitted⟩ := bind_eq_ok.mp hadmitted
  simp only [↓require_bind_eq_ok, decide_eq_true_eq] at hadmitted
  obtain ⟨-,-,hfence,heq⟩ := hadmitted
  obtain rfl : finalised = admitted := Except.ok.inj heq
  obtain ⟨hepoch,hincarnation⟩ := Prod.mk.inj hspace
  by_contra hlt
  exact hfence ⟨current,hcurrent,hepoch,hincarnation,not_le.mp hlt⟩

theorem revision_le_of_adoptsRoutes {r : ObservatoryRuntime}
    {g admitted current : RouteGeneration} (h : r.AdoptsRoutes g admitted)
    (hcurrent : r.routes = some current) (hspace : current.space = admitted.space) :
    current.revision ≤ admitted.revision := by
  obtain ⟨hadmitted,-⟩ := h
  unfold admitRoutes at hadmitted
  obtain ⟨finalised,-,hadmitted⟩ := bind_eq_ok.mp hadmitted
  simp only [↓require_bind_eq_ok, decide_eq_true_eq] at hadmitted
  obtain ⟨-,-,-,-,hfence,heq⟩ := hadmitted
  obtain rfl : finalised = admitted := Except.ok.inj heq
  obtain ⟨hepoch,hincarnation⟩ := Prod.mk.inj hspace
  by_contra hlt
  exact hfence ⟨current,hcurrent,hepoch,hincarnation,not_le.mp hlt⟩

/-- One request keeps the topologies ascending exactly when it returns above. -/
theorem Follows.ascending_topologies {s : Session} (h : s.Follows) (request : Call) :
    Ascending TopologyGeneration.space (·.revision) (s.call request).topologies ↔
      Ascending TopologyGeneration.space (·.revision) s.topologies ∧
        ∀ g, request = .publishTopology g → ∀ admitted, s.runtime.AdoptsTopology g admitted →
          (∀ current, s.runtime.topology = some current → current.space ≠ admitted.space) →
            Tops TopologyGeneration.space (·.revision) s.topologies admitted := by
  rcases s.runtime.perform_topology request with ⟨hsame,hnone⟩ | ⟨g,admitted,rfl,hadopts,hnew⟩
  · simp only [Session.call, hsame, news_self, List.append_nil]
    exact ⟨fun hascends => ⟨hascends,fun g heq admitted hadopts =>
      absurd hadopts (hnone g admitted heq)⟩,And.left⟩
  · simp only [Session.call, hnew, news_of_ne (topology_ne_of_adopts hadopts), ascending_concat]
    refine and_congr_right (fun hascends => ⟨fun htops => ?_,fun hreturns => ?_⟩)
    · rintro other heq admitted' hadopts' -
      obtain rfl := Call.publishTopology.inj heq
      obtain rfl : admitted = admitted' := Except.ok.inj (hadopts.1.symm.trans hadopts'.1)
      exact htops
    · by_cases hspace : ∃ current, s.runtime.topology = some current ∧
          current.space = admitted.space
      · obtain ⟨current,hcurrent,hspace⟩ := hspace
        exact hascends.tops (h.topology.trans hcurrent) hspace
          (revision_le_of_adoptsTopology hadopts hcurrent hspace)
      · exact hreturns g rfl admitted hadopts
          (fun current hcurrent heq => hspace ⟨current,hcurrent,heq⟩)

theorem Follows.ascending_routes {s : Session} (h : s.Follows) (request : Call) :
    Ascending RouteGeneration.space (·.revision) (s.call request).routes ↔
      Ascending RouteGeneration.space (·.revision) s.routes ∧
        ∀ g, request = .publishRoutes g → ∀ admitted, s.runtime.AdoptsRoutes g admitted →
          (∀ current, s.runtime.routes = some current → current.space ≠ admitted.space) →
            Tops RouteGeneration.space (·.revision) s.routes admitted := by
  rcases s.runtime.perform_routes request with ⟨hsame,hnone⟩ | ⟨g,admitted,rfl,hadopts,hnew⟩
  · simp only [Session.call, hsame, news_self, List.append_nil]
    exact ⟨fun hascends => ⟨hascends,fun g heq admitted hadopts =>
      absurd hadopts (hnone g admitted heq)⟩,And.left⟩
  · simp only [Session.call, hnew, news_of_ne (routes_ne_of_adopts hadopts), ascending_concat]
    refine and_congr_right (fun hascends => ⟨fun htops => ?_,fun hreturns => ?_⟩)
    · rintro other heq admitted' hadopts' -
      obtain rfl := Call.publishRoutes.inj heq
      obtain rfl : admitted = admitted' := Except.ok.inj (hadopts.1.symm.trans hadopts'.1)
      exact htops
    · by_cases hspace : ∃ current, s.runtime.routes = some current ∧
          current.space = admitted.space
      · obtain ⟨current,hcurrent,hspace⟩ := hspace
        exact hascends.tops (h.routes.trans hcurrent) hspace
          (revision_le_of_adoptsRoutes hadopts hcurrent hspace)
      · exact hreturns g rfl admitted hadopts
          (fun current hcurrent heq => hspace ⟨current,hcurrent,heq⟩)

theorem Follows.neverRollsBack_call {s : Session} (h : s.Follows) (request : Call) :
    (s.call request).NeverRollsBack ↔ s.NeverRollsBack ∧ s.ReturnsAbove request := by
  have hparts : ∀ t : Session, t.NeverRollsBack ↔
      Ascending TopologyGeneration.space (·.revision) t.topologies ∧
        Ascending RouteGeneration.space (·.revision) t.routes :=
    fun t => ⟨fun ⟨ht,hr⟩ => ⟨ht,hr⟩,fun ⟨ht,hr⟩ => ⟨ht,hr⟩⟩
  rw [hparts, hparts, h.ascending_topologies, h.ascending_routes, and_and_and_comm]
  refine and_congr_right (fun _ => ?_)
  cases request with
  | publishTopology g => simp [ReturnsAbove]
  | publishRoutes g => simp [ReturnsAbove]
  | _ => simp [ReturnsAbove]

theorem Follows.neverRollsBack_calls {s : Session} (h : s.Follows) (requests : List Call) :
    (s.calls requests).NeverRollsBack ↔ s.NeverRollsBack ∧ s.AllReturnAbove requests := by
  induction requests generalizing s with
  | nil => simp [calls, AllReturnAbove]
  | cons request rest ih =>
    have hrest : ((s.call request).calls rest).NeverRollsBack ↔
        (s.call request).NeverRollsBack ∧ (s.call request).AllReturnAbove rest :=
      ih (h.call request)
    rw [AllReturnAbove, ← and_assoc, ← h.neverRollsBack_call]
    exact hrest

/-- A run of requests between two starts never rolls back exactly when every
publication that changes the epoch or the incarnation returns above. -/
theorem revisions_never_roll_back_iff (r : ObservatoryRuntime) (requests : List Call) :
    ((begin_ r).calls requests).NeverRollsBack ↔ (begin_ r).AllReturnAbove requests := by
  rw [(begin_follows r).neverRollsBack_calls]
  exact ⟨And.right,fun h => ⟨begin_neverRollsBack r,h⟩⟩

/-- A topology without devices at the given place of the first epoch. -/
def topologyAt (id incarnation revision : UInt64) : TopologyGeneration where
  id := ⟨id⟩
  epoch := ⟨1⟩
  incarnation := ⟨incarnation⟩
  revision := ⟨revision⟩
  source := ⟨1⟩

/-- Revision 5 of the first incarnation, then the second incarnation, then revision
3 of the first. -/
def returningRun : List Call :=
  [.registerSource authoritySource,.publishTopology (topologyAt 1 1 5),
    .publishTopology (topologyAt 2 2 1),.publishTopology (topologyAt 3 1 3)]

/-- A runtime nothing was published to yet. -/
def startedDefault : ObservatoryRuntime :=
  ((fresh {} (fun _ => ⟨0⟩) (Ranking.Sorter.insertion ranksBefore_ranksBy)).start none).2.1

theorem startedDefault_reachable : Reachable startedDefault :=
  .start (.create (create_default _ _)) none

/-- The older revision is current again. -/
theorem returning_incarnation_rolls_back :
    Reachable startedDefault ∧
      ¬ ((begin_ startedDefault).calls returningRun).NeverRollsBack := by
  have hnoted : ((begin_ startedDefault).calls returningRun).topologies.map
      (fun g => (g.space,g.revision)) =
        [((⟨1⟩,⟨1⟩),⟨5⟩),((⟨1⟩,⟨2⟩),⟨1⟩),((⟨1⟩,⟨1⟩),⟨3⟩)] := by decide
  refine ⟨startedDefault_reachable,fun h => ?_⟩
  have hpairs : (((begin_ startedDefault).calls returningRun).topologies.map
      (fun g => (g.space,g.revision))).Pairwise (fun a b => a.1 = b.1 → a.2 ≤ b.2) :=
    List.pairwise_map.mpr h.topologies
  rw [hnoted] at hpairs
  exact absurd hpairs (by decide)

end Session

end PathObservatory
