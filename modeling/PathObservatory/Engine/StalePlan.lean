import PathObservatory.Domain.Ages
import PathObservatory.Engine.Support

/-! # The age of the plan

Evidence is judged by its age; the generations it is compared with are not. The
gates fence a plan by its identity and its authority alone, so a plan that was
never superseded validates behaviour at any age. A plan that outlasts a record is
kept fresh by the gate of that record.
-/
namespace PathObservatory.ComparisonEngine
variable {engine : ComparisonEngine} {request : ComparisonRequest} {context : ComparisonContext}
  {routes : RouteGeneration} {group : PathGroup} {representative : Working}

def RoutesFresh (engine : ComparisonEngine) (context : ComparisonContext)
    (routes : RouteGeneration) : Prop :=
  (assessGeneration routes.created routes.received context.now engine.policy.freshness).state =
    .fresh

def TopologyFresh (engine : ComparisonEngine) (context : ComparisonContext)
    (topology : TopologyGeneration) : Prop :=
  (assessGeneration topology.created topology.received context.now
    engine.policy.freshness).state = .fresh

instance : Decidable (engine.RoutesFresh context routes) :=
  inferInstanceAs (Decidable (_ = _))

/-- The generations a match rests on are fresh. -/
def GenerationsFresh (engine : ComparisonEngine) (context : ComparisonContext) : Prop :=
  (∃ routes, context.routes = some routes ∧ engine.RoutesFresh context routes) ∧
  (engine.policy.requireTopologyForMatch = true →
    ∃ topology, context.topology = some topology ∧ engine.TopologyFresh context topology)

/-- A generation of the given anchor has as long to go until its horizon as the
record has, and does not lie ahead of the clock beyond the tolerance. -/
def OutlastsRecord (engine : ComparisonEngine) (context : ComparisonContext) (anchor : TimePoint)
    (e : ObservedPathEvidence) : Prop :=
  anchor.isSet = true ∧
  -(context.now.unixNanos - anchor.unixNanos) ≤ engine.policy.freshness.clockSkewTolerance ∧
  (sourcePolicy engine.policy context e).evidenceMaxAge.toInt -
      (context.now.unixNanos - e.receivedAt.unixNanos).toInt ≤
    engine.policy.freshness.generationMaxAge.toInt -
      (context.now.unixNanos - anchor.unixNanos).toInt

/-- The plan, and the topology where the policy asks for one, outlast an accepted
record. -/
def OutlastsEvidence (engine : ComparisonEngine) (request : ComparisonRequest)
    (context : ComparisonContext) : Prop :=
  ∀ routes, context.routes = some routes →
    (∃ w ∈ engine.acceptedRecords request context routes,
      engine.OutlastsRecord context (generationAnchor routes.created routes.received) w.evidence) ∧
    (engine.policy.requireTopologyForMatch = true →
      ∀ topology, context.topology = some topology →
        ∃ w ∈ engine.acceptedRecords request context routes,
          engine.OutlastsRecord context (generationAnchor topology.created topology.received)
            w.evidence)

theorem exists_of_topologyMatches (h : topologyMatches routes context = true) :
    ∃ topology, context.topology = some topology := by
  unfold topologyMatches at h
  cases htopology : context.topology with
  | none => simp [htopology] at h
  | some topology => exact ⟨topology,rfl⟩

/-- No source overrides the horizon with a negative one. -/
theorem effectivePolicy_maxAge {policy : FreshnessPolicy} (source : SourceDescriptor)
    (h : 0 ≤ policy.evidenceMaxAge.toInt) :
    0 ≤ (effectivePolicy policy source).evidenceMaxAge.toInt := by
  have hzero : (0 : Int64).toInt = 0 := rfl
  unfold effectivePolicy
  by_cases hage : 0 < source.maxObservationAge
  · have hpositive := Int64.lt_iff_toInt_lt.mp hage
    simp only [hage, if_true]
    split_ifs <;> exact (hzero ▸ hpositive).le
  · simp only [hage, if_false]
    split_ifs <;> exact h

theorem sourcePolicy_maxAge {policy : ComparisonPolicy} (hpolicy : policy.validate = .ok ())
    (e : ObservedPathEvidence) : 0 ≤ (sourcePolicy policy context e).evidenceMaxAge.toInt := by
  have hmax := (FreshnessPolicy.ordered_of_validate hpolicy).maxAge
  unfold sourcePolicy
  split
  · exact hmax
  · split
    · exact effectivePolicy_maxAge _ hmax
    · exact hmax

/-- Fresh evidence has not passed its horizon. -/
theorem age_le_of_fresh {e : ObservedPathEvidence} (hpolicy : engine.policy.validate = .ok ())
    (h : (assessEvidence e context.now (sourcePolicy engine.policy context e)).state = .fresh) :
    context.now.isSet = true ∧ (context.now.unixNanos - e.receivedAt.unixNanos).toInt ≤
      (sourcePolicy engine.policy context e).evidenceMaxAge.toInt := by
  by_cases hset : context.now.isSet = true ∧ e.receivedAt.isSet = true
  · rw [assessEvidence_state hset.1 hset.2] at h
    exact ⟨hset.1,FreshnessPolicy.age_le_of_verdict_fresh h (sourcePolicy_maxAge hpolicy e)⟩
  · rw [assessEvidence_state_unset hset] at h
    cases h

/-- What outlasts fresh evidence is fresh. -/
theorem OutlastsRecord.fresh {created received : TimePoint} {e : ObservedPathEvidence}
    (hpolicy : engine.policy.validate = .ok ())
    (h : engine.OutlastsRecord context (generationAnchor created received) e)
    (hfresh : (assessEvidence e context.now (sourcePolicy engine.policy context e)).state =
      .fresh) :
    (assessGeneration created received context.now engine.policy.freshness).state = .fresh := by
  obtain ⟨hnow,hage⟩ := age_le_of_fresh hpolicy hfresh
  obtain ⟨hset,hahead,houtlasts⟩ := h
  rw [assessGeneration_eq_fresh]
  refine ⟨hnow,hset,?_⟩
  split_ifs
  · exact hahead
  · rw [Int64.le_iff_toInt_le]
    omega

/-- The sample plan, received one second into the run. -/
def agedPlan : RouteGeneration := { samplePlan with created := ⟨seconds 1⟩, received := ⟨seconds 1⟩ }

def agedRoutes : RouteGeneration := finalisedPlan agedPlan

/-- The plan judged at the given instant, with a topology of that instant. -/
def agedContext (now : Duration) : ComparisonContext :=
  { sampleContextFor agedRoutes with
    topology := some { id := ⟨1⟩, epoch := ⟨1⟩, incarnation := ⟨1⟩, received := ⟨now⟩ }
    now := ⟨now⟩ }

theorem agedContext_finalised (now : Duration) (routes : RouteGeneration)
    (h : (agedContext now).routes = some routes) : routes.Finalised := by
  obtain rfl : agedRoutes = routes := Option.some.inj h
  exact finalisedPlan_finalised (by decide)

/-- The covering record, observed and received at the given instant. -/
def coveringContent (now : Duration) : ObservedPathEvidence :=
  { sampleContent 1 1 (sampleTrace 7 [1,2,3]) with observedAt := ⟨now⟩, receivedAt := ⟨now⟩ }

def coveringAt (now : Duration) : ObservedPathEvidence := (coveringContent now).seal_

theorem coveringAt_admits {now : Duration} (h : (coveringContent now).validate {} = .ok ()) :
    sampleEngine.Admits (sampleRequest [coveringAt now]) (agedContext now) agedRoutes
      (coveringAt now) where
  epoch := rfl
  incarnation := rfl
  revision := rfl
  routeGeneration := by
    intro hpresent
    cases hpresent
  topologyGeneration := by
    intro hpresent
    cases hpresent
  surface := Or.inl rfl
  authority := fun _ => by
    show AuthorityClass.advisory ≤ AuthorityClass.authoritative
    decide
  valid := ObservedPathEvidence.validate_seal h
  registered := by
    intro registry hregistry
    cases hregistry

theorem coveringAt_accepted {now : Duration} (h : (coveringContent now).validate {} = .ok ()) :
    sampleEngine.acceptedRecords (sampleRequest [coveringAt now]) (agedContext now) agedRoutes =
      [sampleEngine.policy.acceptedWorking (agedContext now) (coveringAt now)] := by
  rw [acceptedRecords, workingOf_of_admits]
  · rfl
  · intro e he
    obtain rfl : e = coveringAt now := List.mem_singleton.mp he
    exact coveringAt_admits h

theorem coveringAt_compare : ∀ now ∈ [seconds 61,seconds 3601],
    (sampleEngine.compare (sampleRequest [coveringAt now]) (agedContext now)).toOption.map
      (·.outcome) = some .match_ := by
  refine List.forall_mem_cons.mpr ⟨?_,List.forall_mem_singleton.mpr ?_⟩ <;> decide +kernel

theorem coveringAt_match {now : Duration} (h : now ∈ [seconds 61,seconds 3601]) :
    ∃ result, sampleEngine.compare (sampleRequest [coveringAt now]) (agedContext now) =
      .ok result ∧ result.outcome = .match_ := by
  have houtcome := coveringAt_compare now h
  cases hresult : sampleEngine.compare (sampleRequest [coveringAt now]) (agedContext now) with
  | error e =>
    rw [hresult] at houtcome
    cases houtcome
  | ok result =>
    rw [hresult] at houtcome
    exact ⟨result,rfl,Option.some.inj houtcome⟩

theorem agedRoutes_stale : ¬ sampleEngine.RoutesFresh (agedContext (seconds 3601)) agedRoutes := by
  unfold RoutesFresh
  rw [assessGeneration_eq_fresh]
  decide

end PathObservatory.ComparisonEngine
