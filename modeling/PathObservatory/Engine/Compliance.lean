import PathObservatory.Engine.Gates
import PathObservatory.Engine.Traces

/-! # The compliance statement

A comparison that reaches the classification reports a match exactly when the
accepted records pass every gate. The gates are stated on the records themselves:
what each one says, what they say together, and what the representative says
about the plan.
-/
namespace PathObservatory

namespace ComparisonEngine

/-- The comparison is well posed, its subject is in the plan and at least one
record was accepted. -/
structure Reaches (engine : ComparisonEngine) (request : ComparisonRequest)
    (context : ComparisonContext) (routes : RouteGeneration) (group : PathGroup)
    (representative : Working) : Prop where
  policy_valid : engine.policy.validate = .ok ()
  generation_valid : request.generation.valid = true
  bounded : request.evidence.length ≤ engine.limits.maxEvidencePerComparison
  routes_eq : context.routes = some routes
  generation : generationMatches routes request context = true
  group_eq : resolveGroup routes request = some group
  representative_eq :
    (engine.acceptedRecords request context routes).head? = some representative

section Inversion
variable (engine : ComparisonEngine) (request : ComparisonRequest) (context : ComparisonContext)

/-- What the accepted records of the comparison say about its subject. -/
def classification (routes : RouteGeneration) (group : PathGroup) (representative : Working) :
    Classification :=
  classify routes group request (referencePath routes group request) representative
    (engine.acceptedRecords request context routes)

def outcomeFacts (routes : RouteGeneration) (group : PathGroup) (representative : Working) :
    OutcomeFacts :=
  (engine.classification request context routes group representative).facts
    (topologyMatches routes context) representative group (memberPaths routes group)

variable {engine request context}

theorem checkRequest_eq_ok :
    engine.checkRequest request = .ok () ↔
      engine.policy.validate = .ok () ∧ request.generation.valid = true ∧
      request.evidence.length ≤ engine.limits.maxEvidencePerComparison := by
  unfold checkRequest
  rw [bind_eq_ok]
  simp only [↓require_bind_eq_ok, require_eq_ok, decide_eq_true_eq]
  constructor
  · rintro ⟨_,hvalid,h⟩
    exact ⟨hvalid,h⟩
  · rintro ⟨hvalid,h⟩
    exact ⟨(),hvalid,h⟩

theorem compare_eq_ok {result : ComparisonResult} :
    engine.compare request context = .ok result ↔
      engine.policy.validate = .ok () ∧ request.generation.valid = true ∧
      request.evidence.length ≤ engine.limits.maxEvidencePerComparison ∧
      (engine.evaluate request context).seal_ = result := by
  unfold compare
  rw [bind_eq_ok]
  simp only [pure_eq_ok]
  constructor
  · rintro ⟨_,hcheck,h⟩
    obtain ⟨hvalid,hgeneration,hbound⟩ := checkRequest_eq_ok.mp hcheck
    exact ⟨hvalid,hgeneration,hbound,h⟩
  · rintro ⟨hvalid,hgeneration,hbound,h⟩
    exact ⟨(),checkRequest_eq_ok.mpr ⟨hvalid,hgeneration,hbound⟩,h⟩

/-- What a result concludes when the gates decided on a classification. -/
structure Concludes (result : ComparisonResult) (c : Classification) (final : Verdict) : Prop where
  outcome : result.outcome = final.outcome
  classes : result.classes = final.classes
  primary : result.primary = selectPrimary final.classes
  differences : result.differences = c.differences
  matchedPath : result.matchedPath = c.matchedPath

/-- Past the fences the gates decide on the classification. -/
theorem evaluate_of_reaches {routes : RouteGeneration} {group : PathGroup}
    {representative : Working}
    (h : engine.Reaches request context routes group representative) :
    ∃ verdict : Verdict, verdict.outcome = .match_ ∧
      verdict.classes = (engine.classification request context routes group
        representative).classes (openingClasses (topologyMatches routes context)
          request.sourceSequenceGap (engine.workingOf request context routes)) ∧
      Concludes (engine.evaluate request context)
        (engine.classification request context routes group representative)
        ((engine.outcomeFacts request context routes group representative).decideOutcome
          engine.policy verdict) := by
  obtain ⟨rest,hrest⟩ := List.head?_eq_some_iff.mp h.representative_eq
  have haccepted : acceptedOf (engine.workingOf request context routes) =
      representative :: rest := hrest
  have hclassification : classify routes group request (referencePath routes group request)
      representative (representative :: rest) =
        engine.classification request context routes group representative := by
    rw [classification, hrest]
  let c := engine.classification request context routes group representative
  refine ⟨{ classes := c.classes (openingClasses (topologyMatches routes context)
      request.sourceSequenceGap (engine.workingOf request context routes))
            rationale := gapRationale request.sourceSequenceGap ++ c.rationale },rfl,rfl,?_⟩
  rw [evaluate_of_resolved h.routes_eq h.generation h.group_eq]
  constructor <;>
    simp only [compareWorking, haccepted, withAccepted, hclassification, outcomeFacts, c]

theorem evaluate_outcome_of_reaches {routes : RouteGeneration} {group : PathGroup}
    {representative : Working}
    (h : engine.Reaches request context routes group representative) :
    ∃ verdict : Verdict, verdict.outcome = .match_ ∧
      (engine.evaluate request context).outcome =
        ((engine.outcomeFacts request context routes group representative).decideOutcome
          engine.policy verdict).outcome := by
  obtain ⟨verdict,hverdict,-,hconcludes⟩ := evaluate_of_reaches h
  exact ⟨verdict,hverdict,hconcludes.outcome⟩

/-- Only a comparison that reaches the classification reports a match or a
divergence. -/
theorem reaches_of_outcome {result : ComparisonResult}
    (h : engine.compare request context = .ok result)
    (hout : result.outcome = .match_ ∨ result.outcome = .divergent) :
    ∃ routes group representative, engine.Reaches request context routes group representative := by
  obtain ⟨hpolicy,hgeneration,hbounded,rfl⟩ := compare_eq_ok.mp h
  have hout : (engine.evaluate request context).outcome = .match_ ∨
      (engine.evaluate request context).outcome = .divergent := hout
  cases hroutes : context.routes.filter (generationMatches · request context) with
  | none => simp [evaluate_of_mismatch hroutes, mismatchResult] at hout
  | some routes =>
    obtain ⟨hsome,hmatches⟩ := Option.filter_eq_some_iff.mp hroutes
    cases hgroup : resolveGroup routes request with
    | none => simp [evaluate_of_unresolved hsome hmatches hgroup, unresolvedResult] at hout
    | some group =>
      cases haccepted : engine.acceptedRecords request context routes with
      | nil =>
        have hnil : acceptedOf (engine.workingOf request context routes) = [] := haccepted
        rw [evaluate_of_resolved hsome hmatches hgroup] at hout
        simp only [compareWorking, hnil, withoutAccepted] at hout
        split_ifs at hout <;> simp at hout
      | cons representative rest =>
        exact ⟨routes,group,representative,hpolicy,hgeneration,hbounded,hsome,hmatches,hgroup,
          by simp [haccepted]⟩

/-- A comparison has one subject. -/
theorem Reaches.unique {routes routes' : RouteGeneration} {group group' : PathGroup}
    {representative representative' : Working}
    (h : engine.Reaches request context routes group representative)
    (h' : engine.Reaches request context routes' group' representative') :
    routes' = routes ∧ group' = group ∧ representative' = representative := by
  obtain rfl : routes' = routes := Option.some.inj (h'.routes_eq.symm.trans h.routes_eq)
  exact ⟨rfl,Option.some.inj (h'.group_eq.symm.trans h.group_eq),
    Option.some.inj (h'.representative_eq.symm.trans h.representative_eq)⟩

theorem match_iff :
    (∃ result, engine.compare request context = .ok result ∧ result.outcome = .match_) ↔
      ∃ routes group representative,
        engine.Reaches request context routes group representative ∧
        (engine.outcomeFacts request context routes group representative).Compliant
          engine.policy := by
  constructor
  · rintro ⟨result,hresult,hout⟩
    obtain ⟨routes,group,representative,hreach⟩ := reaches_of_outcome hresult (Or.inl hout)
    obtain ⟨-,-,-,rfl⟩ := compare_eq_ok.mp hresult
    obtain ⟨verdict,hverdict,heq⟩ := evaluate_outcome_of_reaches hreach
    exact ⟨routes,group,representative,hreach,
      (OutcomeFacts.decideOutcome_eq_match hverdict).mp (heq.symm.trans hout)⟩
  · rintro ⟨routes,group,representative,hreach,hcompliant⟩
    obtain ⟨verdict,hverdict,heq⟩ := evaluate_outcome_of_reaches hreach
    refine ⟨_,compare_eq_ok.mpr ⟨hreach.policy_valid,hreach.generation_valid,hreach.bounded,rfl⟩,?_⟩
    exact heq.trans ((OutcomeFacts.decideOutcome_eq_match hverdict).mpr hcompliant)

theorem divergent_iff :
    (∃ result, engine.compare request context = .ok result ∧ result.outcome = .divergent) ↔
      ∃ routes group representative,
        engine.Reaches request context routes group representative ∧
        ((engine.outcomeFacts request context routes group representative).surface ≠ .unsupported ∧
          (engine.outcomeFacts request context routes group representative).surface ≠ .unknown) ∧
        (engine.outcomeFacts request context routes group representative).conflicting = false ∧
        (engine.outcomeFacts request context routes group representative).freshness = .fresh ∧
        (engine.outcomeFacts request context routes group representative).structural = true := by
  constructor
  · rintro ⟨result,hresult,hout⟩
    obtain ⟨routes,group,representative,hreach⟩ := reaches_of_outcome hresult (Or.inr hout)
    obtain ⟨-,-,-,rfl⟩ := compare_eq_ok.mp hresult
    obtain ⟨verdict,hverdict,heq⟩ := evaluate_outcome_of_reaches hreach
    exact ⟨routes,group,representative,hreach,
      (OutcomeFacts.decideOutcome_eq_divergent hverdict).mp (heq.symm.trans hout)⟩
  · rintro ⟨routes,group,representative,hreach,hdivergent⟩
    obtain ⟨verdict,hverdict,heq⟩ := evaluate_outcome_of_reaches hreach
    refine ⟨_,compare_eq_ok.mpr ⟨hreach.policy_valid,hreach.generation_valid,hreach.bounded,rfl⟩,?_⟩
    exact heq.trans ((OutcomeFacts.decideOutcome_eq_divergent hverdict).mpr hdivergent)

end Inversion

/-- The gates of a compliance statement, on the accepted records. -/
structure Complies (engine : ComparisonEngine) (request : ComparisonRequest)
    (context : ComparisonContext) (routes : RouteGeneration) (group : PathGroup)
    (representative : Working) : Prop where
  agreeing : (engine.acceptedRecords request context routes).Pairwise
    (fun left right => left.conflictsWith right = false)
  fresh : ∀ w ∈ engine.acceptedRecords request context routes, w.freshness = .fresh
  unambiguous : engine.policy.multipathAmbiguityIsDivergence = true →
    distinctMembers (memberPaths routes group) (engine.acceptedRecords request context routes) ≤ 1
  complete : ∀ w ∈ engine.acceptedRecords request context routes,
    w.isIncomplete (memberPaths routes group) = false
  gapless : request.sourceSequenceGap = false
  linked : ∀ reference, referencePath routes group request = some reference →
    linkIsUnresolved reference representative.hops [] = false
  topology : engine.policy.requireTopologyForMatch = true → topologyMatches routes context = true
  authority : AuthorityClass.advisory ≤ representative.evidence.authority
  real : engine.policy.requireRealSurfaceForMatch = true →
    ∀ w ∈ engine.acceptedRecords request context routes, w.evidence.surface = .real
  matched : representative.traceIsExact (memberPaths routes group) = true

section Gates
variable {engine : ComparisonEngine} {request : ComparisonRequest} {context : ComparisonContext}
  {routes : RouteGeneration} {group : PathGroup} {representative : Working}

theorem Reaches.mem (h : engine.Reaches request context routes group representative) :
    representative ∈ engine.acceptedRecords request context routes :=
  List.mem_of_head? h.representative_eq

theorem surface_of_mem_acceptedRecords {w : Working}
    (h : w ∈ engine.acceptedRecords request context routes) :
    w.evidence.surface = .real ∨ w.evidence.surface = .synthetic := by
  obtain ⟨e,-,hadmits,rfl⟩ := exists_of_mem_acceptedRecords h
  exact hadmits.surface

theorem mem_groups_of_groupOfPath {path : PathId} (h : groupOfPath routes path = some group) :
    group ∈ routes.groups := by
  obtain ⟨p,-,hfind⟩ := Option.bind_eq_some_iff.mp h
  exact (Ranking.mem_of_lookupSorted hfind).1

theorem mem_groups_of_groupOfEvidence {e : ObservedPathEvidence}
    (h : groupOfEvidence routes e = some group) : group ∈ routes.groups := by
  unfold groupOfEvidence at h
  split_ifs at h
  · exact (Ranking.mem_of_lookupSorted h).1
  · exact mem_groups_of_groupOfPath h
  · exact (List.mem_filter.mp (List.mem_of_head? h)).1

/-- The subject of a comparison is a group of the plan. -/
theorem mem_groups_of_resolveGroup (h : resolveGroup routes request = some group) :
    group ∈ routes.groups := by
  unfold resolveGroup at h
  split_ifs at h
  · exact (Ranking.mem_of_lookupSorted h).1
  · exact mem_groups_of_groupOfPath h
  · obtain ⟨e,-,hgroup⟩ := List.exists_of_findSome?_eq_some h
    exact mem_groups_of_groupOfEvidence hgroup

theorem wellFormed_of_mem_memberPaths (hf : routes.Finalised) {member : ExpectedPath}
    (h : member ∈ memberPaths routes group) : RouteGeneration.PathWellFormed member := by
  obtain ⟨id,-,hfind⟩ := List.mem_filterMap.mp h
  exact (hf.findPath hfind).1

/-- In a finalised plan the subject has members, and all of them are paths. -/
theorem memberPaths_ne_nil (hf : routes.Finalised)
    (h : resolveGroup routes request = some group) : memberPaths routes group ≠ [] := by
  have hgroup := hf.wellFormed.2 group (mem_groups_of_resolveGroup h)
  obtain ⟨member,hmember⟩ := List.exists_mem_of_ne_nil _ hgroup.members_ne_nil
  obtain ⟨path,hpath,-⟩ := hgroup.members_known member hmember
  exact List.ne_nil_of_mem (List.mem_filterMap.mpr ⟨member,hmember,hpath⟩)

/-- A matched path is named: identities in the plan are valid. -/
theorem matchedPath_present_iff (hf : routes.Finalised) :
    (engine.classification request context routes group representative).matchedPath.present =
      true ↔ representative.matchesAMember (memberPaths routes group) = true := by
  rw [← Working.matchedMembers_ne_nil]
  simp only [classification, classify]
  cases hmatched : representative.matchedMembers (memberPaths routes group) with
  | nil => simp [MaybeId.present, StrongId.valid]
  | cons first rest =>
    obtain ⟨member,hmem,-,hid⟩ := Working.mem_matchedMembers.mp (hmatched ▸ List.mem_cons_self)
    have hvalid := (wellFormed_of_mem_memberPaths hf hmem).id_valid
    simpa [MaybeId.present, hid] using hvalid

theorem anyMatchesMember_of_mem {w : Working}
    (hw : w ∈ engine.acceptedRecords request context routes)
    (h : w.matchesAMember (memberPaths routes group) = true) :
    (engine.classification request context routes group representative).anyMatchesMember =
      true := List.any_eq_true.mpr ⟨w,hw,h⟩

/-- Once a record agrees with a member nothing is reported as a difference, and
the link check covers every hop of the reference path. -/
theorem classification_of_anyMatchesMember
    (h : (engine.classification request context routes group representative).anyMatchesMember =
      true) :
    (engine.classification request context routes group representative).structural = false ∧
    (engine.classification request context routes group representative).linkUnresolved =
      (referencePath routes group request).any (linkIsUnresolved · representative.hops []) := by
  have hany : (engine.acceptedRecords request context routes).any
      (Working.matchesAMember (memberPaths routes group)) = true := h
  simp [classification, classify, isStructural, compareReference, hany]

theorem classification_completeness :
    (engine.classification request context routes group representative).completeness = .complete ↔
      (engine.classification request context routes group representative).linkUnresolved = false ∧
      (∀ w ∈ engine.acceptedRecords request context routes,
        w.isIncomplete (memberPaths routes group) = false) ∧ request.sourceSequenceGap = false := by
  rw [← tracesCompleteness_eq_complete]
  have heq : (engine.classification request context routes group representative).completeness =
      if (engine.classification request context routes group representative).linkUnresolved then
        .partial_
      else tracesCompleteness (memberPaths routes group)
        (engine.acceptedRecords request context routes) request.sourceSequenceGap := rfl
  rw [heq]
  cases (engine.classification request context routes group representative).linkUnresolved with
  | true => simp
  | false => simp

theorem linkResolved_iff {reference : Option ExpectedPath} {hops : List ObservedHop} :
    reference.any (linkIsUnresolved · hops []) = false ↔
      ∀ path, reference = some path → linkIsUnresolved path hops [] = false := by
  cases reference <;> simp

theorem multipathAmbiguous_eq_false {c : Classification} (hc : c.conflicting = false)
    (hs : c.surface ≠ .unsupported) : c.multipathAmbiguous = false ↔ c.distinct ≤ 1 := by
  simp [Classification.multipathAmbiguous, hc, hs]

theorem classification_conflicting :
    (engine.classification request context routes group representative).conflicting = false ↔
      (engine.acceptedRecords request context routes).Pairwise
        (fun left right => left.conflictsWith right = false) := by
  rw [← findConflict_eq_none]
  exact Option.isSome_eq_false_iff.trans Option.isNone_iff_eq_none

theorem classification_surface :
    (engine.classification request context routes group representative).surface ≠ .unsupported ∧
      (engine.classification request context routes group representative).surface ≠ .unknown ∧
      ((engine.classification request context routes group representative).surface = .real ↔
        ∀ w ∈ engine.acceptedRecords request context routes, w.evidence.surface = .real) := by
  have heq : (engine.classification request context routes group representative).surface =
      worstSurface (engine.acceptedRecords request context routes) := rfl
  rw [heq]
  rcases worstSurface_cases (fun w (hw : w ∈ engine.acceptedRecords request context routes) =>
    surface_of_mem_acceptedRecords hw) with ⟨hworst,hall⟩ | ⟨hworst,w,hw,hsynthetic⟩
  · rw [hworst]
    exact ⟨by decide,by decide,fun _ => hall,fun _ => rfl⟩
  · rw [hworst]
    refine ⟨by decide,by decide,fun h => absurd h (by decide),fun hall => ?_⟩
    exact absurd (hsynthetic.symm.trans (hall w hw)) (by decide)

/-- On a finalised plan the gates are what `Complies` says of the records. -/
theorem compliant_iff_complies (hf : routes.Finalised)
    (h : engine.Reaches request context routes group representative) :
    (engine.outcomeFacts request context routes group representative).Compliant engine.policy ↔
      engine.Complies request context routes group representative := by
  let c := engine.classification request context routes group representative
  have hne := memberPaths_ne_nil hf h.group_eq
  obtain ⟨hsupported,hknown,hreal⟩ : c.surface ≠ .unsupported ∧ c.surface ≠ .unknown ∧
    (c.surface = .real ↔ ∀ w ∈ engine.acceptedRecords request context routes,
      w.evidence.surface = .real) := classification_surface
  have hnamed : c.matchedPath.present = true ↔
      representative.matchesAMember (memberPaths routes group) = true := matchedPath_present_iff hf
  have hcomplete : c.completeness = .complete ↔ c.linkUnresolved = false ∧
      (∀ w ∈ engine.acceptedRecords request context routes,
        w.isIncomplete (memberPaths routes group) = false) ∧ request.sourceSequenceGap = false :=
    classification_completeness
  constructor
  · intro hc
    have hagree : c.conflicting = false := hc.agreeing
    have hmatches := hnamed.mp (hc.named (decide_eq_true hne))
    have hany : c.anyMatchesMember = true := anyMatchesMember_of_mem h.mem hmatches
    obtain ⟨hresolved,hrecords,hgap⟩ := hcomplete.mp hc.complete
    have hlinks := (classification_of_anyMatchesMember hany).2.symm.trans hresolved
    exact {
      agreeing := classification_conflicting.mp hagree
      fresh := worstFreshness_eq_fresh.mp hc.fresh
      unambiguous := fun hp => (multipathAmbiguous_eq_false hagree hsupported).mp (hc.unambiguous hp)
      complete := hrecords
      gapless := hgap
      linked := linkResolved_iff.mp hlinks
      topology := hc.topology
      authority := hc.authority
      real := fun hp => hreal.mp (hc.real hp)
      matched := Working.traceIsExact_of_matches (hrecords _ h.mem) hmatches }
  · intro hc
    have hagree : c.conflicting = false := classification_conflicting.mpr hc.agreeing
    have hmatches := Working.matchesAMember_iff.mpr (Or.inl hc.matched)
    have hany : c.anyMatchesMember = true := anyMatchesMember_of_mem h.mem hmatches
    obtain ⟨hstructural,hlinks⟩ := classification_of_anyMatchesMember hany
    have hresolved : c.linkUnresolved = false := hlinks.trans (linkResolved_iff.mpr hc.linked)
    exact {
      judgeable := ⟨hsupported,hknown⟩
      agreeing := hagree
      fresh := worstFreshness_eq_fresh.mpr hc.fresh
      undiverged := hstructural
      unambiguous := fun hp =>
        (multipathAmbiguous_eq_false hagree hsupported).mpr (hc.unambiguous hp)
      complete := hcomplete.mpr ⟨hresolved,hc.complete,hc.gapless⟩
      topology := hc.topology
      authority := hc.authority
      real := fun hp => hreal.mpr (hc.real hp)
      member := fun _ => Or.inr hany
      named := fun _ => hnamed.mpr hmatches }

end Gates

end ComparisonEngine

end PathObservatory
