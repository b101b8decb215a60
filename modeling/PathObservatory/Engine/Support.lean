import PathObservatory.Engine.Compliance
import PathObservatory.Engine.Rank

/-! # What a match says about every accepted record

A match is reported for the requested generation only, and the gates bind each
accepted record to the current authority.
-/
namespace PathObservatory.ComparisonEngine
variable {engine : ComparisonEngine} {request : ComparisonRequest} {context : ComparisonContext}
  {routes : RouteGeneration} {group : PathGroup} {representative : Working}

/-- A match is exactly a comparison that reaches the gates and passes them. -/
theorem match_iff_complies (hf : ∀ routes, context.routes = some routes → routes.Finalised) :
    (∃ result, engine.compare request context = .ok result ∧ result.outcome = .match_) ↔
      ∃ routes group representative,
        engine.Reaches request context routes group representative ∧
        engine.Complies request context routes group representative := by
  rw [match_iff]
  constructor
  · rintro ⟨routes,group,representative,hreach,hcompliant⟩
    exact ⟨routes,group,representative,hreach,
      (compliant_iff_complies (hf routes hreach.routes_eq) hreach).mp hcompliant⟩
  · rintro ⟨routes,group,representative,hreach,hcomplies⟩
    exact ⟨routes,group,representative,hreach,
      (compliant_iff_complies (hf routes hreach.routes_eq) hreach).mpr hcomplies⟩

/-- The judgements of a result list the accepted records in their order. -/
theorem judgements_of_reaches {result : ComparisonResult}
    (hresult : engine.compare request context = .ok result)
    (h : engine.Reaches request context routes group representative) :
    result.judgements.filter (·.accepted) =
      (engine.acceptedRecords request context routes).map judgementOf := by
  obtain ⟨-,-,-,rfl⟩ := compare_eq_ok.mp hresult
  obtain ⟨rest,hrest⟩ := List.head?_eq_some_iff.mp h.representative_eq
  have haccepted : acceptedOf (engine.workingOf request context routes) =
      representative :: rest := hrest
  have hjudgements : (engine.evaluate request context).seal_.judgements =
      (engine.workingOf request context routes).map judgementOf := by
    rw [evaluate_of_resolved h.routes_eq h.generation h.group_eq]
    simp only [ComparisonResult.seal_, compareWorking, haccepted, withAccepted]
  rw [hjudgements, List.filter_map]
  rfl

/-- What a compliance statement guarantees of one accepted record. -/
structure Supports (engine : ComparisonEngine) (request : ComparisonRequest)
    (context : ComparisonContext) (routes : RouteGeneration) (w : Working) : Prop where
  offered : w.evidence ∈ request.evidence
  admitted : engine.Admits request context routes w.evidence
  real : engine.policy.requireRealSurfaceForMatch = true → w.evidence.surface = .real
  fresh : (assessEvidence w.evidence context.now
    (sourcePolicy engine.policy context w.evidence)).state = .fresh
  untruncated : w.evidence.sourceTruncated = false
  notPartial : w.evidence.declaredCompleteness ≠ .partial_
  contiguous : hopIndicesAreContiguous w.hops = true

theorem Complies.supports (hc : engine.Complies request context routes group representative)
    {w : Working} (hw : w ∈ engine.acceptedRecords request context routes) :
    engine.Supports request context routes w := by
  obtain ⟨e,he,hadmits,hworking⟩ := exists_of_mem_acceptedRecords hw
  have hevidence : w.evidence = e := by rw [hworking]; rfl
  have hcomplete := hc.complete w hw
  simp only [Working.isIncomplete, Bool.or_eq_false_iff, decide_eq_false_iff_not,
    Bool.not_eq_false'] at hcomplete
  obtain ⟨⟨⟨⟨htruncated,hdeclared⟩,hcontiguous⟩,-⟩,-⟩ := hcomplete
  have hfresh := hc.fresh w hw
  refine ⟨hevidence ▸ he,hevidence ▸ hadmits,fun hp => hc.real hp w hw,?_,htruncated,hdeclared,
    hcontiguous⟩
  rw [hworking] at hfresh
  rw [hevidence]
  exact hfresh

/-! Plans, records and requests small enough to compare by evaluation. -/
section Sample

def finalisedPlan (plan : RouteGeneration) : RouteGeneration :=
  match plan.finalize {} with
  | .ok routes => routes
  | .error _ => {}

theorem finalize_finalisedPlan {plan : RouteGeneration} (h : (plan.finalize {}).toBool = true) :
    plan.finalize {} = .ok (finalisedPlan plan) := by
  unfold finalisedPlan
  cases hplan : plan.finalize {} with
  | ok routes => rfl
  | error e =>
    rw [hplan] at h
    cases h

theorem finalisedPlan_finalised {plan : RouteGeneration}
    (h : (plan.finalize {}).toBool = true) : (finalisedPlan plan).Finalised :=
  ⟨plan,{},finalize_finalisedPlan h⟩

/-- One path over three devices, whose first hop declares a link. -/
def samplePlan : RouteGeneration where
  id := ⟨1⟩
  epoch := ⟨1⟩
  incarnation := ⟨1⟩
  revision := ⟨1⟩
  source := ⟨1⟩
  topology := ⟨1⟩
  groups := [{ id := ⟨1⟩, origin := ⟨1⟩, destination := ⟨3⟩, members := [⟨1⟩] }]
  paths :=
    [{ id := ⟨1⟩, group := ⟨1⟩, generation := ⟨1⟩,
       hops :=
        [{ id := ⟨1⟩, index := 0, device := ⟨1⟩, ingress := ⟨11⟩, egress := ⟨12⟩,
           egressLink := ⟨7⟩, hasEgressLink := true },
         { id := ⟨2⟩, index := 1, device := ⟨2⟩, ingress := ⟨21⟩, egress := ⟨22⟩ },
         { id := ⟨3⟩, index := 2, device := ⟨3⟩, ingress := ⟨31⟩, egress := ⟨32⟩ }] }]

def sampleRoutes : RouteGeneration := finalisedPlan samplePlan

theorem sampleRoutes_finalised : sampleRoutes.Finalised :=
  finalisedPlan_finalised (by decide)

/-- The given plan at the authority all samples share. -/
def sampleContextFor (routes : RouteGeneration) : ComparisonContext where
  routes := some routes
  topology := some { id := ⟨1⟩, epoch := ⟨1⟩, incarnation := ⟨1⟩ }
  authority := { epoch := ⟨1⟩, incarnation := ⟨1⟩, routeRevision := ⟨1⟩ }
  now := ⟨1000⟩

def sampleContext : ComparisonContext := sampleContextFor sampleRoutes

theorem sampleContext_finalised (routes : RouteGeneration)
    (h : sampleContext.routes = some routes) : routes.Finalised := by
  obtain rfl : sampleRoutes = routes := Option.some.inj h
  exact sampleRoutes_finalised

def sampleEngine : ComparisonEngine where
  sorter := Ranking.Sorter.insertion ranksBefore_ranksBy

/-- A fresh authoritative record with the given sequence, claim and trace. -/
def sampleContent (sequence path : UInt64) (hops : List ObservedHop) : ObservedPathEvidence where
  source := ⟨2⟩
  incarnation := ⟨1⟩
  sequence := ⟨sequence⟩
  surface := .real
  authority := .authoritative
  path := ⟨⟨path⟩⟩
  epoch := ⟨1⟩
  claimedIncarnation := ⟨1⟩
  revision := ⟨1⟩
  observedAt := ⟨1000⟩
  receivedAt := ⟨1000⟩
  hops := hops
  declaredCompleteness := .complete

def sampleEvidence (sequence path : UInt64) (hops : List ObservedHop) : ObservedPathEvidence :=
  (sampleContent sequence path hops).seal_

theorem sampleEvidence_sealed (sequence path : UInt64) (hops : List ObservedHop) :
    (sampleEvidence sequence path hops).id =
      (sampleEvidence sequence path hops).computeEvidenceId :=
  (ObservedPathEvidence.computeEvidenceId_seal _).symm

theorem samplePair_sealed {request : ComparisonRequest} {sequence later path other : UInt64}
    {hops trace : List ObservedHop} (hevidence : request.evidence =
      [sampleEvidence later path hops,sampleEvidence sequence other trace]) :
    ∀ e ∈ request.evidence, e.id = e.computeEvidenceId := by
  simp only [hevidence, List.mem_cons, List.not_mem_nil, or_false, forall_eq_or_imp, forall_eq]
  exact ⟨sampleEvidence_sealed _ _ _,sampleEvidence_sealed _ _ _⟩

/-- A trace over the given devices that states a link at its first hop when one
is given. -/
def sampleTrace (link : UInt64) (devices : List UInt64) : List ObservedHop :=
  devices.zipIdx.map (fun entry =>
    { index := UInt32.ofNat entry.2, device := ⟨entry.1⟩,
      link := if entry.2 = 0 then ⟨link⟩ else {},
      linkProvenance := if entry.2 = 0 ∧ link ≠ 0 then .observed else .absent })

def sampleRequest (evidence : List ObservedPathEvidence) : ComparisonRequest where
  generation := ⟨1⟩
  group := ⟨⟨1⟩⟩
  evidence := evidence

def sampleGroup : PathGroup where
  id := ⟨1⟩
  origin := ⟨1⟩
  destination := ⟨3⟩
  members := [⟨1⟩]

theorem sample_resolveGroup (evidence : List ObservedPathEvidence) :
    resolveGroup sampleRoutes (sampleRequest evidence) = some sampleGroup := by
  have hgroup : sampleRoutes.findGroup ⟨1⟩ = some sampleGroup := by decide
  exact hgroup

theorem sample_admits {routes : RouteGeneration} {request : ComparisonRequest}
    {sequence path : UInt64} {hops : List ObservedHop}
    (h : (sampleContent sequence path hops).validate {} = .ok ()) :
    sampleEngine.Admits request (sampleContextFor routes) routes
      (sampleEvidence sequence path hops) where
  epoch := rfl
  incarnation := rfl
  revision := rfl
  routeGeneration := nofun
  topologyGeneration := nofun
  surface := Or.inl rfl
  authority := fun _ => by
    show AuthorityClass.advisory ≤ AuthorityClass.authoritative
    decide
  valid := ObservedPathEvidence.validate_seal h
  registered := by
    intro registry hregistry
    cases hregistry

def sampleWorking (sequence path : UInt64) (hops : List ObservedHop) : Working :=
  sampleEngine.policy.acceptedWorking sampleContext (sampleEvidence sequence path hops)

theorem sample_single {routes : RouteGeneration} {sequence path : UInt64}
    {hops : List ObservedHop}
    (h : (sampleContent sequence path hops).validate {} = .ok ()) :
    sampleEngine.workingOf (sampleRequest [sampleEvidence sequence path hops])
      (sampleContextFor routes) routes = [sampleWorking sequence path hops] := by
  refine workingOf_of_admits (fun e he => ?_)
  obtain rfl : e = sampleEvidence sequence path hops := List.mem_singleton.mp he
  exact sample_admits h

/-- The working records of two sample records with different identities are the
two, the better first. -/
theorem sample_pair {routes : RouteGeneration} {request : ComparisonRequest}
    {sequence later path other : UInt64} {hops trace : List ObservedHop}
    (hevidence : request.evidence =
      [sampleEvidence later path hops,sampleEvidence sequence other trace])
    (hfirst : (sampleContent later path hops).validate {} = .ok ())
    (hsecond : (sampleContent sequence other trace).validate {} = .ok ())
    (hrank : ranksBefore (sampleWorking sequence other trace) (sampleWorking later path hops) =
      false)
    (hne : (sampleEvidence later path hops).id ≠ (sampleEvidence sequence other trace).id) :
    sampleEngine.workingOf request (sampleContextFor routes) routes =
      [sampleWorking later path hops,sampleWorking sequence other trace] := by
  have hadmits : ∀ e ∈ request.evidence,
      sampleEngine.Admits request (sampleContextFor routes) routes e := by
    simp only [hevidence, List.mem_cons, List.not_mem_nil, or_false, forall_eq_or_imp, forall_eq]
    exact ⟨sample_admits hfirst,sample_admits hsecond⟩
  rw [workingOf_of_admits hadmits, hevidence]
  refine (congrArg removeDuplicates
    (Ranking.Sorter.insertion_pair ranksBefore_ranksBy hrank)).trans ?_
  exact (List.destutter_pair _).trans (if_pos hne)

/-- The comparison of sample records succeeds, with the outcome that the working
records give. -/
theorem sample_compare {plan : RouteGeneration} {group : PathGroup}
    {evidence : List ObservedPathEvidence} (h : evidence.length ≤ 4096)
    (hplan : generationMatches plan (sampleRequest []) (sampleContextFor plan) = true)
    (hgroup : resolveGroup plan (sampleRequest evidence) = some group) {working : List Working}
    (hworking : sampleEngine.workingOf (sampleRequest evidence) (sampleContextFor plan) plan =
      working) :
    ∃ result, sampleEngine.compare (sampleRequest evidence) (sampleContextFor plan) = .ok result ∧
      result.outcome = (sampleEngine.compareWorking {} plan group
        (sampleRequest evidence) (sampleContextFor plan)
        (referencePath plan group (sampleRequest evidence)) working).outcome := by
  have hgeneration : generationMatches plan (sampleRequest evidence) (sampleContextFor plan) =
      true := hplan
  refine ⟨_,compare_eq_ok.mpr ⟨rfl,rfl,h,rfl⟩,?_⟩
  have hevaluate := congrArg ComparisonResult.outcome
    (sampleEngine.evaluate_of_resolved rfl hgeneration hgroup)
  rw [hworking] at hevaluate
  exact hevaluate.trans compareWorking_outcome

theorem sample_generation :
    generationMatches sampleRoutes (sampleRequest []) sampleContext = true := by decide

end Sample

/-- A match is reported only for the requested generation at the current
authority, from at least one accepted record, and every accepted record supports
it. -/
theorem match_supported (engine : ComparisonEngine) (request : ComparisonRequest)
    (context : ComparisonContext) (result : ComparisonResult)
    (hf : ∀ routes, context.routes = some routes → routes.Finalised)
    (hresult : engine.compare request context = .ok result)
    (hmatch : result.outcome = .match_) :
    ∃ routes, context.routes = some routes ∧ routes.id = request.generation ∧
      routes.epoch = context.authority.epoch ∧
      routes.incarnation = context.authority.incarnation ∧
      result.judgements.filter (·.accepted) =
        (engine.acceptedRecords request context routes).map judgementOf ∧
      engine.acceptedRecords request context routes ≠ [] ∧
      request.sourceSequenceGap = false ∧
      ∀ w ∈ engine.acceptedRecords request context routes,
        engine.Supports request context routes w := by
  obtain ⟨routes,group,representative,hreach,hcomplies⟩ :=
    (match_iff_complies hf).mp ⟨result,hresult,hmatch⟩
  have hgeneration := hreach.generation
  simp only [generationMatches, Bool.and_eq_true, decide_eq_true_eq] at hgeneration
  exact ⟨routes,hreach.routes_eq,hgeneration.1.1,hgeneration.1.2,hgeneration.2,
    judgements_of_reaches hresult hreach,List.ne_nil_of_mem hreach.mem,hcomplies.gapless,
    fun w hw => hcomplies.supports hw⟩

def coveringEvidence : List ObservedPathEvidence := [sampleEvidence 1 1 (sampleTrace 7 [1,2,3])]

theorem coveringEvidence_working :
    sampleEngine.workingOf (sampleRequest coveringEvidence) sampleContext sampleRoutes =
      [sampleWorking 1 1 (sampleTrace 7 [1,2,3])] := sample_single (by decide)

/-- One record that covers the path and carries its link makes a match. -/
theorem match_supported_sample :
    ∃ routes, sampleContext.routes = some routes ∧
      sampleEngine.acceptedRecords (sampleRequest coveringEvidence) sampleContext routes ≠ [] := by
  obtain ⟨result,hresult,hmatch⟩ := sample_compare (by decide) sample_generation
    (sample_resolveGroup _) coveringEvidence_working
  obtain ⟨routes,hroutes,-,-,-,-,hne,-⟩ := match_supported sampleEngine _ sampleContext result
    sampleContext_finalised hresult (hmatch.trans (by decide))
  exact ⟨routes,hroutes,hne⟩

/-- The only record of the covering sample is its covering record. -/
theorem mem_coveringEvidence_accepted {routes : RouteGeneration} {group : PathGroup} {w : Working}
    (hroutes : sampleContext.routes = some routes)
    (hgroup : resolveGroup routes (sampleRequest coveringEvidence) = some group)
    (hw : w ∈ sampleEngine.acceptedRecords (sampleRequest coveringEvidence) sampleContext routes) :
    routes = sampleRoutes ∧ group = sampleGroup ∧ w = sampleWorking 1 1 (sampleTrace 7 [1,2,3]) := by
  obtain rfl : sampleRoutes = routes := Option.some.inj hroutes
  rw [acceptedRecords, coveringEvidence_working] at hw
  refine ⟨rfl,Option.some.inj (hgroup.symm.trans (sample_resolveGroup _)),?_⟩
  exact List.mem_singleton.mp hw

end PathObservatory.ComparisonEngine
