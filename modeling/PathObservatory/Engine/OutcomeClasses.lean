import PathObservatory.Engine.ClassSet
import PathObservatory.Engine.Differences
import PathObservatory.Engine.Support

/-! # The outcome and the class set

The primary class of every classified result is the one of least precedence. The
structural classes follow the outcome except in two cases: a compliant trace whose
record claims an identity the plan does not know, and a divergence from the members
whose reference path is a path of the group that the group does not list.
-/
namespace PathObservatory

theorem precedenceOf_injective : Function.Injective DivergenceClass.precedenceOf := by
  intro a b h
  cases a <;> cases b <;> first | rfl | exact absurd h (by decide)

theorem betterPrimary_le {best candidate : DivergenceClass} (hc : candidate ≠ .none) :
    (betterPrimary best candidate).precedenceOf ≤ candidate.precedenceOf ∧
      (best ≠ .none → (betterPrimary best candidate).precedenceOf ≤ best.precedenceOf) := by
  unfold betterPrimary
  split_ifs with hnone hbest hbetter
  · exact absurd hnone hc
  · exact ⟨le_rfl,fun h => absurd hbest h⟩
  · exact ⟨le_rfl,fun _ => hbetter.elim le_of_lt (fun h => h.1.le)⟩
  · push Not at hbetter
    exact ⟨hbetter.1,fun _ => le_rfl⟩

theorem foldl_betterPrimary_le {classes : List DivergenceClass}
    (h : DivergenceClass.none ∉ classes) (best : DivergenceClass) :
    (best ≠ .none → (classes.foldl betterPrimary best).precedenceOf ≤ best.precedenceOf) ∧
      ∀ c ∈ classes, (classes.foldl betterPrimary best).precedenceOf ≤ c.precedenceOf := by
  induction classes generalizing best with
  | nil => exact ⟨fun _ => le_rfl,nofun⟩
  | cons first rest ih =>
    have hfirst : first ≠ .none := fun heq => h (heq ▸ List.mem_cons_self)
    obtain ⟨hkept,hrest⟩ := ih (fun hmem => h (List.mem_cons_of_mem _ hmem))
      (betterPrimary best first)
    have hnamed : betterPrimary best first ≠ .none := by
      unfold betterPrimary
      split_ifs with hnone hbest
      · exact absurd hnone hfirst
      · exact hfirst
      · exact hfirst
      · exact hbest
    obtain ⟨hle,hbest⟩ := @betterPrimary_le best first hfirst
    refine ⟨fun hb => (hkept hnamed).trans (hbest hb),fun c hc => ?_⟩
    rcases List.mem_cons.mp hc with rfl | hc
    · exact (hkept hnamed).trans hle
    · exact hrest c hc

/-- The primary class is the class of the set that comes first in the fixed
precedence, and there is none exactly when the set is empty. -/
structure IsPrimary (primary : DivergenceClass) (classes : List DivergenceClass) : Prop where
  none_iff : primary = .none ↔ classes = []
  mem : primary ≠ .none → primary ∈ classes
  least : ∀ c ∈ classes, c ≠ primary → primary.precedenceOf < c.precedenceOf

theorem selectPrimary_isPrimary {classes : List DivergenceClass}
    (h : DivergenceClass.none ∉ classes) : IsPrimary (selectPrimary classes) classes where
  none_iff := selectPrimary_eq_none_iff_nil h
  mem := selectPrimary_mem
  least := by
    intro c hc hne
    have hle := (foldl_betterPrimary_le h .none).2 c hc
    exact lt_of_le_of_ne hle (fun heq => hne (precedenceOf_injective heq).symm)

namespace ComparisonEngine
variable {engine : ComparisonEngine} {request : ComparisonRequest} {context : ComparisonContext}
  {routes : RouteGeneration} {group : PathGroup} {representative : Working}

theorem Reaches.isPrimary (h : engine.Reaches request context routes group representative) :
    IsPrimary (engine.evaluate request context).primary
      (engine.evaluate request context).classes := by
  obtain ⟨verdict,-,hclasses,hconcludes⟩ := evaluate_of_reaches h
  rw [hconcludes.primary, hconcludes.classes]
  refine selectPrimary_isPrimary ?_
  rw [OutcomeFacts.mem_decideOutcome (by decide), hclasses]
  exact none_not_mem_classes

/-- Every result but the early one without expected state has its primary class
selected from its classes. -/
theorem isPrimary_of_compare {result : ComparisonResult}
    (hresult : engine.compare request context = .ok result)
    (hout : result.outcome ≠ .noExpectedState) : IsPrimary result.primary result.classes := by
  obtain ⟨hpolicy,hgeneration,hbounded,rfl⟩ := compare_eq_ok.mp hresult
  have hout : (engine.evaluate request context).outcome ≠ .noExpectedState := hout
  show IsPrimary (engine.evaluate request context).primary (engine.evaluate request context).classes
  cases hroutes : context.routes.filter (generationMatches · request context) with
  | none =>
    rw [evaluate_of_mismatch hroutes]
    exact @selectPrimary_isPrimary (addClass [] .routeGenerationMismatch) (by decide)
  | some routes =>
    obtain ⟨hsome,hmatches⟩ := Option.filter_eq_some_iff.mp hroutes
    cases hgroup : resolveGroup routes request with
    | none =>
      rw [evaluate_of_unresolved hsome hmatches hgroup] at hout
      exact absurd rfl hout
    | some group =>
      cases haccepted : engine.acceptedRecords request context routes with
      | nil =>
        have hnil : acceptedOf (engine.workingOf request context routes) = [] := haccepted
        rw [evaluate_of_resolved hsome hmatches hgroup]
        simp only [compareWorking, hnil, withoutAccepted]
        refine selectPrimary_isPrimary ?_
        rw [mem_addClass]
        rintro (hmem | ⟨heq,hne⟩)
        · exact none_not_mem_openingClasses hmem
        · exact hne heq.symm
      | cons representative rest =>
        have hreach : engine.Reaches request context routes group representative :=
          ⟨hpolicy,hgeneration,hbounded,hsome,hmatches,hgroup,by simp [haccepted]⟩
        exact hreach.isPrimary

/-- What a reader of the class set relies on. -/
structure ClassesFollowOutcome (result : ComparisonResult) : Prop where
  compliant : result.outcome = .match_ → ∀ c ∈ result.classes, c.categoryOf ≠ .structural
  divergent : result.outcome = .divergent → ∃ c ∈ result.classes, c.categoryOf = .structural
  primary : result.outcome ≠ .noExpectedState → IsPrimary result.primary result.classes

/-- The gates of a match pass although the plan knows none of the identities that the
accepted records claim, or not the path the request names. -/
def MatchesUnknownPath (engine : ComparisonEngine) (request : ComparisonRequest)
    (context : ComparisonContext) : Prop :=
  ∃ routes group representative, engine.Reaches request context routes group representative ∧
    engine.Complies request context routes group representative ∧
    pathIsUnknownToPlan routes request (engine.acceptedRecords request context routes) = true

/-- The gates of a divergence pass although the representative follows the reference
path from its first hop to its last, and every claimed identity is known. -/
def FollowsUnlistedPath (engine : ComparisonEngine) (request : ComparisonRequest)
    (context : ComparisonContext) : Prop :=
  ∃ routes group representative reference,
    engine.Reaches request context routes group representative ∧
    engine.Diverges request context routes group representative ∧
    pathIsUnknownToPlan routes request (engine.acceptedRecords request context routes) = false ∧
    referencePath routes group request = some reference ∧
    representative.hops.length = reference.hops.length ∧ TracesAgree reference representative.hops

/-- A compliant result has a structural class exactly when the claims are unknown. -/
theorem structural_mem_of_match (hreach : engine.Reaches request context routes group representative)
    (hcomplies : engine.Complies request context routes group representative) :
    (∃ c ∈ (engine.evaluate request context).classes, c.categoryOf = .structural) ↔
      pathIsUnknownToPlan routes request (engine.acceptedRecords request context routes) =
        true := by
  have hany : (engine.classification request context routes group
      representative).anyMatchesMember = true :=
    anyMatchesMember_of_mem hreach.mem (Working.matchesAMember_iff.mpr (Or.inl hcomplies.matched))
  have hnil : (engine.classification request context routes group representative).differences =
      [] := differences_of_anyMatchesMember hany
  constructor
  · rintro ⟨c,hmem,hc⟩
    rw [structural_mem_classes_iff hreach hc, hnil] at hmem
    exact (hmem.resolve_left List.not_mem_nil).1
  · intro hunknown
    exact ⟨.pathUnknownToPlan,(structural_mem_classes_iff hreach rfl).mpr
      (Or.inr ⟨hunknown,rfl⟩),rfl⟩

/-- A divergent result has a structural class exactly when a claim is unknown or the
representative departs from the reference path. -/
theorem structural_mem_of_divergent
    (hreach : engine.Reaches request context routes group representative)
    (hdiverges : engine.Diverges request context routes group representative)
    {reference : ExpectedPath} (href : referencePath routes group request = some reference) :
    (∃ c ∈ (engine.evaluate request context).classes, c.categoryOf = .structural) ↔
      pathIsUnknownToPlan routes request (engine.acceptedRecords request context routes) = true ∨
        ¬ (representative.hops.length = reference.hops.length ∧
          TracesAgree reference representative.hops) := by
  have hdifferences := differences_of_structural
    (classification_structural.mpr ⟨hdiverges.unmatched,hdiverges.observed⟩) href
  rw [← hopDifferences_eq_nil_iff]
  constructor
  · rintro ⟨c,hmem,hc⟩
    rw [structural_mem_classes_iff hreach hc, hdifferences] at hmem
    refine hmem.symm.imp And.left (fun hdetail hnil => ?_)
    rw [hnil] at hdetail
    exact List.not_mem_nil hdetail
  · rintro (hunknown | hne)
    · exact ⟨.pathUnknownToPlan,(structural_mem_classes_iff hreach rfl).mpr
        (Or.inr ⟨hunknown,rfl⟩),rfl⟩
    · obtain ⟨d,hd⟩ := List.exists_mem_of_ne_nil _ hne
      have hreported := hdifferences ▸ hd
      have hclass := structural_iff.mpr (Or.inr (compareReference_detail_mem hreported))
      exact ⟨d.detail,(structural_mem_classes_iff hreach hclass).mpr
        (Or.inl (List.mem_map.mpr ⟨d,hreported,rfl⟩)),hclass⟩

theorem exists_referencePath (hf : routes.Finalised)
    (hgroup : resolveGroup routes request = some group) :
    ∃ reference, referencePath routes group request = some reference := by
  obtain ⟨first,rest,hmembers⟩ := List.exists_cons_of_ne_nil (memberPaths_ne_nil hf hgroup)
  simp only [referencePath, hmembers]
  cases claimedPath routes group request.path with
  | some path => exact ⟨path,rfl⟩
  | none =>
    cases request.evidence.findSome? (fun e => claimedPath routes group e.path) with
    | some path => exact ⟨path,rfl⟩
    | none => exact ⟨_,rfl⟩

/-- The class set follows the outcome unless compliance is stated for an unknown path
or a divergence is measured against a path the trace follows. -/
theorem classes_follow_outcome_iff (engine : ComparisonEngine) (request : ComparisonRequest)
    (context : ComparisonContext)
    (hf : ∀ routes, context.routes = some routes → routes.Finalised) :
    (∀ result, engine.compare request context = .ok result → ClassesFollowOutcome result) ↔
      ¬ engine.MatchesUnknownPath request context ∧
        ¬ engine.FollowsUnlistedPath request context := by
  constructor
  · intro hproperty
    constructor
    · rintro ⟨routes,group,representative,hreach,hcomplies,hunknown⟩
      obtain ⟨result,hresult,hmatch⟩ :=
        (match_iff_complies hf).mpr ⟨routes,group,representative,hreach,hcomplies⟩
      obtain ⟨c,hmem,hc⟩ := (structural_mem_of_match hreach hcomplies).mpr hunknown
      obtain ⟨-,-,-,rfl⟩ := compare_eq_ok.mp hresult
      exact (hproperty _ hresult).compliant hmatch c hmem hc
    · rintro ⟨routes,group,representative,reference,hreach,hdiverges,hknown,href,hfollows⟩
      obtain ⟨result,hresult,hout⟩ :=
        divergent_iff_diverges.mpr ⟨routes,group,representative,hreach,hdiverges⟩
      obtain ⟨-,-,-,rfl⟩ := compare_eq_ok.mp hresult
      rcases (structural_mem_of_divergent hreach hdiverges href).mp
        ((hproperty _ hresult).divergent hout) with hunknown | hdeparts
      · exact absurd (hunknown.symm.trans hknown) (by decide)
      · exact hdeparts hfollows
  · rintro ⟨hunknown,hunlisted⟩ result hresult
    have hprimary := isPrimary_of_compare hresult
    refine ⟨fun hmatch c hmem hc => ?_,fun hout => ?_,hprimary⟩
    · obtain ⟨routes,group,representative,hreach,hcomplies⟩ :=
        (match_iff_complies hf).mp ⟨result,hresult,hmatch⟩
      obtain ⟨-,-,-,rfl⟩ := compare_eq_ok.mp hresult
      exact hunknown ⟨routes,group,representative,hreach,hcomplies,
        (structural_mem_of_match hreach hcomplies).mp ⟨c,hmem,hc⟩⟩
    · obtain ⟨routes,group,representative,hreach,hdiverges⟩ :=
        divergent_iff_diverges.mp ⟨result,hresult,hout⟩
      obtain ⟨reference,href⟩ := exists_referencePath (hf routes hreach.routes_eq) hreach.group_eq
      obtain ⟨-,-,-,rfl⟩ := compare_eq_ok.mp hresult
      refine (structural_mem_of_divergent hreach hdiverges href).mpr ?_
      by_contra hneither
      push Not at hneither
      exact hunlisted ⟨routes,group,representative,reference,hreach,hdiverges,
        by simpa using hneither.1,href,hneither.2⟩

/-- One covering record that claims its path: the class set follows the outcome. -/
theorem classes_follow_outcome_sample :
    ∃ result, sampleEngine.compare (sampleRequest coveringEvidence) sampleContext = .ok result ∧
      ClassesFollowOutcome result := by
  obtain ⟨result,hresult,-⟩ := sample_compare (by decide) sample_generation
    (sample_resolveGroup _) coveringEvidence_working
  have haccepted : sampleEngine.acceptedRecords (sampleRequest coveringEvidence) sampleContext
      sampleRoutes = [sampleWorking 1 1 (sampleTrace 7 [1,2,3])] := by
    rw [acceptedRecords, coveringEvidence_working]
    rfl
  refine ⟨result,hresult,(classes_follow_outcome_iff sampleEngine (sampleRequest coveringEvidence)
    sampleContext sampleContext_finalised).mpr ⟨?_,?_⟩ result hresult⟩
  · rintro ⟨routes,group,representative,hreach,-,hunknown⟩
    obtain rfl : sampleRoutes = routes := Option.some.inj hreach.routes_eq
    rw [haccepted] at hunknown
    exact absurd hunknown (by decide)
  · rintro ⟨routes,group,representative,reference,hreach,hdiverges,-⟩
    obtain ⟨rfl,rfl,rfl⟩ :=
      mem_coveringEvidence_accepted hreach.routes_eq hreach.group_eq hreach.mem
    exact absurd (hdiverges.unmatched _ hreach.mem) (by decide)

/-- A record that covers the path and claims an identity the plan does not have. -/
def strangerEvidence : List ObservedPathEvidence := [sampleEvidence 1 9 (sampleTrace 7 [1,2,3])]

theorem strangerEvidence_working :
    sampleEngine.workingOf (sampleRequest strangerEvidence) sampleContext sampleRoutes =
      [sampleWorking 1 9 (sampleTrace 7 [1,2,3])] := sample_single (by decide)

theorem unknown_path_is_match :
    ∃ result, sampleEngine.compare (sampleRequest strangerEvidence) sampleContext = .ok result ∧
      ¬ ClassesFollowOutcome result := by
  obtain ⟨result,hresult,hout⟩ := sample_compare (by decide) sample_generation
    (sample_resolveGroup _) strangerEvidence_working
  have hmatch : result.outcome = .match_ := hout.trans (by decide)
  obtain ⟨routes,group,representative,hreach,hcomplies⟩ :=
    (match_iff_complies sampleContext_finalised).mp ⟨result,hresult,hmatch⟩
  obtain rfl : sampleRoutes = routes := Option.some.inj hreach.routes_eq
  have hunknown : pathIsUnknownToPlan sampleRoutes (sampleRequest strangerEvidence)
      (sampleEngine.acceptedRecords (sampleRequest strangerEvidence) sampleContext sampleRoutes) =
        true := by
    rw [acceptedRecords, strangerEvidence_working]
    decide
  obtain ⟨c,hmem,hc⟩ := (structural_mem_of_match hreach hcomplies).mpr hunknown
  refine ⟨result,hresult,fun hfollows => ?_⟩
  obtain ⟨-,-,-,rfl⟩ := compare_eq_ok.mp hresult
  exact hfollows.compliant hmatch c hmem hc

/-- Two paths name the group, which lists only the first of them. -/
def unlistedRoutes : RouteGeneration := finalisedPlan { forkedPlan with groups := samplePlan.groups }

theorem unlisted_resolveGroup (evidence : List ObservedPathEvidence) :
    resolveGroup unlistedRoutes (sampleRequest evidence) = some sampleGroup := by
  have hgroup : unlistedRoutes.findGroup ⟨1⟩ = some sampleGroup := by decide
  exact hgroup

/-- A record that claims the unlisted path and follows it. -/
def unlistedEvidence : List ObservedPathEvidence := [sampleEvidence 1 2 (sampleTrace 0 [1,4,3])]

theorem unlistedEvidence_working :
    sampleEngine.workingOf (sampleRequest unlistedEvidence) (sampleContextFor unlistedRoutes)
      unlistedRoutes = [sampleWorking 1 2 (sampleTrace 0 [1,4,3])] := sample_single (by decide)

theorem unlisted_path_is_divergent :
    ∃ result, sampleEngine.compare (sampleRequest unlistedEvidence)
        (sampleContextFor unlistedRoutes) = .ok result ∧ ¬ ClassesFollowOutcome result := by
  obtain ⟨result,hresult,hout⟩ := sample_compare (by decide) (by decide)
    (unlisted_resolveGroup _) unlistedEvidence_working
  have hdivergent : result.outcome = .divergent := hout.trans (by decide)
  obtain ⟨routes,group,representative,hreach,hdiverges⟩ :=
    divergent_iff_diverges.mp ⟨result,hresult,hdivergent⟩
  obtain rfl : unlistedRoutes = routes := Option.some.inj hreach.routes_eq
  obtain rfl : sampleGroup = group :=
    Option.some.inj ((unlisted_resolveGroup _).symm.trans hreach.group_eq)
  have haccepted : sampleEngine.acceptedRecords (sampleRequest unlistedEvidence)
      (sampleContextFor unlistedRoutes) unlistedRoutes =
        [sampleWorking 1 2 (sampleTrace 0 [1,4,3])] := by
    rw [acceptedRecords, unlistedEvidence_working]
    rfl
  obtain rfl : sampleWorking 1 2 (sampleTrace 0 [1,4,3]) = representative :=
    (List.mem_singleton.mp (haccepted ▸ hreach.mem)).symm
  have hreference : (referencePath unlistedRoutes sampleGroup (sampleRequest unlistedEvidence)).any
      (fun path => (hopDifferences path (sampleTrace 0 [1,4,3])).isEmpty) = true := by decide
  obtain ⟨reference,href,hempty⟩ := (Option.any_eq_true _ _).mp hreference
  refine ⟨result,hresult,fun hfollows => ?_⟩
  obtain ⟨-,-,-,rfl⟩ := compare_eq_ok.mp hresult
  rcases (structural_mem_of_divergent hreach hdiverges href).mp (hfollows.divergent hdivergent) with
    hunknown | hdeparts
  · rw [haccepted] at hunknown
    exact absurd hunknown (by decide)
  · exact hdeparts (hopDifferences_eq_nil_iff.mp (List.isEmpty_iff.mp hempty))

/-- A compliant result names a structural class, and a divergent one names none. -/
theorem outcome_parts_from_classes :
    (¬ ∀ result, sampleEngine.compare (sampleRequest strangerEvidence) sampleContext = .ok result →
      ClassesFollowOutcome result) ∧
    ¬ ∀ result, sampleEngine.compare (sampleRequest unlistedEvidence)
        (sampleContextFor unlistedRoutes) = .ok result → ClassesFollowOutcome result := by
  constructor
  · intro h
    obtain ⟨result,hresult,hnot⟩ := unknown_path_is_match
    exact hnot (h result hresult)
  · intro h
    obtain ⟨result,hresult,hnot⟩ := unlisted_path_is_divergent
    exact hnot (h result hresult)

end ComparisonEngine

end PathObservatory
