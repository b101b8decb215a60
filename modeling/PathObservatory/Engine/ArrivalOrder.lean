import PathObservatory.Engine.ClassSources
import PathObservatory.Engine.Determinism

/-! # Arrival order and the reference path

A group comparison without a path takes its reference path from the first record
of the request that claims a path of the group. The order of arrival is therefore
harmless exactly when all claimed paths of the group compare alike with the
representative.
-/
namespace PathObservatory
open Ranking ObservedPathEvidence

/-- The fields of a result that name what was observed and concluded. -/
def ComparisonResult.reported (r : ComparisonResult) :
    MatchOutcome × MaybeId .path × EvidenceCompleteness × List DivergenceClass ×
      List HopDifference × Digest :=
  (r.outcome,r.matchedPath,r.completeness,r.classes,r.differences,r.canonicalDigest)

namespace ComparisonEngine
variable {engine : ComparisonEngine} {request : ComparisonRequest} {context : ComparisonContext}
  {routes : RouteGeneration} {group : PathGroup} {representative : Working}

/-- The result of a comparison that reaches the classification shows how the
representative compares with the reference path. -/
theorem evaluate_shows_reference (h : engine.Reaches request context routes group representative) :
    (engine.evaluate request context).differences =
      (engine.classification request context routes group representative).differences ∧
    (DivergenceClass.linkUnresolved ∈ (engine.evaluate request context).classes ↔
      (engine.classification request context routes group representative).linkUnresolved =
        true) := by
  have hopening : DivergenceClass.linkUnresolved ∉ openingClasses (topologyMatches routes context)
      request.sourceSequenceGap (engine.workingOf request context routes) := by
    intro hmem
    rcases mem_openingClasses_workingOf (by decide) hmem with heq | hexcluded
    · cases heq
    · exact absurd hexcluded (by decide)
  have hdetail : DivergenceClass.linkUnresolved ∉ (engine.classification request context routes
      group representative).differences.map (·.detail) := by
    intro hmem
    obtain ⟨d,hd,heq⟩ := List.mem_map.mp hmem
    exact absurd (heq ▸ compareReference_detail_mem hd) (by decide)
  obtain ⟨verdict,-,hclasses,hconcludes⟩ := evaluate_of_reaches h
  refine ⟨hconcludes.differences,?_⟩
  rw [hconcludes.classes, OutcomeFacts.mem_decideOutcome (by decide), hclasses]
  simp only [Classification.classes, mem_addClassIf, mem_foldl_addClass, hopening, hdetail]
  simp

/-- How the representative compares with a reference path. -/
def referenceEffect (engine : ComparisonEngine) (request : ComparisonRequest)
    (context : ComparisonContext) (routes : RouteGeneration) (group : PathGroup)
    (representative : Working) (reference : Option ExpectedPath) : List HopDifference × Bool :=
  compareReference (isStructural (memberPaths routes group) representative
    (engine.acceptedRecords request context routes)) reference representative.hops

/-- What is reported does not depend on the order of the records or of the ties in
the sort. -/
def OrderIrrelevant (engine : ComparisonEngine) (request : ComparisonRequest)
    (context : ComparisonContext) : Prop :=
  ∀ (sorter : Sorter ranksBefore) (evidence : List ObservedPathEvidence),
    evidence.Perm request.evidence →
    ((engine.withSorter sorter).compare (request.withEvidence evidence) context).map
        ComparisonResult.reported =
      (engine.compare request context).map ComparisonResult.reported

/-- The paths of the group that the offered records claim compare alike with the
representative. -/
def ClaimsCompareAlike (engine : ComparisonEngine) (request : ComparisonRequest)
    (context : ComparisonContext) : Prop :=
  ∀ routes group representative, engine.Reaches request context routes group representative →
    ∀ e ∈ request.evidence, ∀ f ∈ request.evidence, ∀ p q,
      claimedPath routes group e.path = some p → claimedPath routes group f.path = some q →
      engine.referenceEffect request context routes group representative (some p) =
        engine.referenceEffect request context routes group representative (some q)

section Reordering
variable {evidence : List ObservedPathEvidence}

theorem acceptedRecords_congr (sorter : Sorter ranksBefore)
    (hset : ∀ e, e ∈ request.evidence ↔ e ∈ evidence)
    (hsealed : ∀ e ∈ request.evidence, e.id = e.computeEvidenceId)
    (hcollision : CollisionFree request.evidence) :
    (engine.withSorter sorter).acceptedRecords (request.withEvidence evidence) context routes =
      engine.acceptedRecords request context routes := by
  rw [acceptedRecords, workingOf_congr sorter hset hsealed hcollision]
  rfl

/-- Reordering the records of a group comparison keeps its subject and its
representative. -/
theorem Reaches.perm (h : engine.Reaches request context routes group representative)
    (hgroup : request.group.present = true) (hperm : evidence.Perm request.evidence)
    (hsealed : ∀ e ∈ request.evidence, e.id = e.computeEvidenceId)
    (hcollision : CollisionFree request.evidence) :
    engine.Reaches (request.withEvidence evidence) context routes group representative where
  policy_valid := h.policy_valid
  generation_valid := h.generation_valid
  bounded := hperm.length_eq.trans_le h.bounded
  routes_eq := h.routes_eq
  generation := h.generation
  group_eq := by
    have hresolve := h.group_eq
    unfold resolveGroup at hresolve ⊢
    rw [if_pos hgroup] at hresolve
    exact (if_pos hgroup).trans hresolve
  representative_eq := by
    rw [← h.representative_eq]
    exact congrArg List.head?
      (acceptedRecords_congr engine.sorter (fun e => hperm.mem_iff.symm) hsealed hcollision)

/-- Runs that report alike compare the representative alike with their reference
paths. -/
theorem referenceEffect_of_reported
    (h : engine.Reaches request context routes group representative)
    (hgroup : request.group.present = true) (hperm : evidence.Perm request.evidence)
    (hsealed : ∀ e ∈ request.evidence, e.id = e.computeEvidenceId)
    (hcollision : CollisionFree request.evidence)
    (hreported : (engine.compare (request.withEvidence evidence) context).map
        ComparisonResult.reported =
      (engine.compare request context).map ComparisonResult.reported) :
    engine.referenceEffect request context routes group representative
        (referencePath routes group (request.withEvidence evidence)) =
      engine.referenceEffect request context routes group representative
        (referencePath routes group request) := by
  have h' := h.perm hgroup hperm hsealed hcollision
  have haccepted : engine.acceptedRecords (request.withEvidence evidence) context routes =
      engine.acceptedRecords request context routes :=
    acceptedRecords_congr engine.sorter (fun e => hperm.mem_iff.symm) hsealed hcollision
  obtain ⟨hdifferences,hlink⟩ := evaluate_shows_reference h
  obtain ⟨hdifferences',hlink'⟩ := evaluate_shows_reference h'
  rw [compare_eq_ok.mpr ⟨h.policy_valid,h.generation_valid,h.bounded,rfl⟩,
    compare_eq_ok.mpr ⟨h'.policy_valid,h'.generation_valid,h'.bounded,rfl⟩] at hreported
  have hfields := Except.ok.inj hreported
  have hclasses : (engine.evaluate (request.withEvidence evidence) context).classes =
      (engine.evaluate request context).classes := congrArg (fun r => r.2.2.2.1) hfields
  have hsame : (engine.evaluate (request.withEvidence evidence) context).differences =
      (engine.evaluate request context).differences := congrArg (fun r => r.2.2.2.2.1) hfields
  rw [hdifferences, hdifferences'] at hsame
  rw [hclasses, hlink] at hlink'
  have hflags := Bool.eq_iff_iff.mpr hlink'.symm
  simp only [classification, classify, haccepted] at hsame hflags
  exact Prod.ext hsame hflags

theorem referencePath_perm (hpath : request.path.present = false)
    (hperm : evidence.Perm request.evidence) :
    referencePath routes group (request.withEvidence evidence) =
        referencePath routes group request ∨
      ∃ e ∈ request.evidence, ∃ f ∈ request.evidence, ∃ p q,
        claimedPath routes group e.path = some p ∧ claimedPath routes group f.path = some q ∧
        referencePath routes group (request.withEvidence evidence) = some p ∧
        referencePath routes group request = some q := by
  have hnone : claimedPath routes group request.path = none := by simp [claimedPath, hpath]
  have hnone' : claimedPath routes group (request.withEvidence evidence).path = none := hnone
  simp only [referencePath, hnone, hnone', Option.none_or]
  have hevidence : (request.withEvidence evidence).evidence = evidence := rfl
  rw [hevidence]
  cases hfirst : evidence.findSome? (fun e => claimedPath routes group e.path) with
  | none =>
    have hsecond : request.evidence.findSome? (fun e => claimedPath routes group e.path) = none := by
      rw [List.findSome?_eq_none_iff] at hfirst ⊢
      exact fun e he => hfirst e (hperm.mem_iff.mpr he)
    rw [hsecond]
    exact Or.inl rfl
  | some p =>
    obtain ⟨e,he,hp⟩ := List.exists_of_findSome?_eq_some hfirst
    have hsecond : (request.evidence.findSome? (fun e => claimedPath routes group e.path)).isSome :=
      List.findSome?_isSome_iff.mpr ⟨e,hperm.mem_iff.mp he,by simp [hp]⟩
    obtain ⟨q,hq⟩ := Option.isSome_iff_exists.mp hsecond
    obtain ⟨f,hf,hclaim⟩ := List.exists_of_findSome?_eq_some hq
    rw [hq]
    exact Or.inr ⟨e,hperm.mem_iff.mp he,f,hf,p,q,hp,hclaim,rfl,rfl⟩

/-- The order of arrival is irrelevant to a group comparison exactly when the
claimed paths compare alike. -/
theorem order_irrelevant_iff_claims_compare_alike (engine : ComparisonEngine)
    (request : ComparisonRequest) (context : ComparisonContext)
    (hgroup : request.group.present = true) (hpath : request.path.present = false)
    (hsealed : ∀ e ∈ request.evidence, e.id = e.computeEvidenceId)
    (hcollision : CollisionFree request.evidence) :
    engine.OrderIrrelevant request context ↔ engine.ClaimsCompareAlike request context := by
  constructor
  · intro h routes group representative hreach e he f hf p q hp hq
    have hfront : ∀ e ∈ request.evidence, ∀ p, claimedPath routes group e.path = some p →
        engine.referenceEffect request context routes group representative (some p) =
          engine.referenceEffect request context routes group representative
            (referencePath routes group request) := by
      intro e he p hp
      have hperm := (List.perm_cons_erase he).symm
      rw [← referencePath_of_claim hpath hp]
      exact referenceEffect_of_reported hreach hgroup hperm hsealed hcollision
        (h engine.sorter _ hperm)
    rw [hfront e he p hp, hfront f hf q hq]
  · intro h sorter evidence hperm
    have hset : ∀ e, e ∈ request.evidence ↔ e ∈ evidence := fun e => hperm.mem_iff.symm
    refine compare_map_congr (fun _ => rfl) sorter (by rw [hperm.length_eq]) (fun hcheck =>
      evaluate_judged_congr sorter hset hsealed hcollision (fun routes _ => ?_)
        (fun routes group hroutes hgeneration hresolve => ?_))
    · unfold resolveGroup
      rw [if_pos hgroup]
      exact if_pos hgroup
    · refine compareWorking_congr (fun representative hrepresentative => ?_)
      obtain ⟨hpolicy,hvalid,hbound⟩ := checkRequest_eq_ok.mp hcheck
      have hreach : engine.Reaches request context routes group representative :=
        ⟨hpolicy,hvalid,hbound,hroutes,hgeneration,hresolve,hrepresentative⟩
      rcases referencePath_perm hpath hperm with hsame | ⟨e,he,f,hf,p,q,hp,hq,hfirst,hsecond⟩
      · rw [hsame]
      · rw [hfirst, hsecond]
        exact h routes group representative hreach e he f hf p q hp hq

end Reordering

/-- Records that claim one path compare alike. -/
theorem order_irrelevant_iff_claims_compare_alike_sample :
    sampleEngine.OrderIrrelevant (sampleRequest unlinkedEvidence) sampleContext := by
  refine (order_irrelevant_iff_claims_compare_alike sampleEngine (sampleRequest unlinkedEvidence)
    sampleContext rfl rfl (samplePair_sealed rfl) (CollisionFree.pair (sampleEvidence_sealed _ _ _)
      (sampleEvidence_sealed _ _ _) unlinkedEvidence_id_ne)).mpr ?_
  intro routes group representative _ e he f hf p q hp hq
  have hclaims : ∀ e ∈ unlinkedEvidence, e.path = ⟨⟨1⟩⟩ := by
    simp only [unlinkedEvidence, List.mem_cons, List.not_mem_nil, or_false, forall_eq_or_imp,
      forall_eq]
    exact ⟨rfl,rfl⟩
  rw [hclaims e he] at hp
  rw [hclaims f hf] at hq
  rw [← hp, ← hq]

/-- Two paths over three devices, of which the first declares a link. -/
def forkedPlan : RouteGeneration :=
  { samplePlan with
    groups := [{ id := ⟨1⟩, origin := ⟨1⟩, destination := ⟨3⟩, members := [⟨1⟩,⟨2⟩] }]
    paths := samplePlan.paths ++
      [{ id := ⟨2⟩, group := ⟨1⟩, generation := ⟨1⟩,
         hops :=
          [{ id := ⟨4⟩, index := 0, device := ⟨1⟩, ingress := ⟨11⟩, egress := ⟨13⟩ },
           { id := ⟨5⟩, index := 1, device := ⟨4⟩, ingress := ⟨41⟩, egress := ⟨42⟩ },
           { id := ⟨6⟩, index := 2, device := ⟨3⟩, ingress := ⟨33⟩, egress := ⟨34⟩ }] }] }

def forkedRoutes : RouteGeneration := finalisedPlan forkedPlan

def forkedGroup : PathGroup := { sampleGroup with members := [⟨1⟩,⟨2⟩] }

theorem forked_resolveGroup (evidence : List ObservedPathEvidence) :
    resolveGroup forkedRoutes (sampleRequest evidence) = some forkedGroup := by
  have hgroup : forkedRoutes.findGroup ⟨1⟩ = some forkedGroup := by decide
  exact hgroup

/-- One record for each path, none of which states a link. -/
def forkedEvidence : List ObservedPathEvidence :=
  [sampleEvidence 2 1 (sampleTrace 0 [1,2,3]),sampleEvidence 1 2 (sampleTrace 0 [1,4,3])]

theorem forkedEvidence_id_ne : (sampleEvidence 2 1 (sampleTrace 0 [1,2,3])).id ≠
    (sampleEvidence 1 2 (sampleTrace 0 [1,4,3])).id := by decide +kernel

theorem forkedEvidence_working :
    sampleEngine.workingOf (sampleRequest forkedEvidence) (sampleContextFor forkedRoutes)
        forkedRoutes =
      [sampleWorking 2 1 (sampleTrace 0 [1,2,3]),sampleWorking 1 2 (sampleTrace 0 [1,4,3])] :=
  sample_pair rfl (by decide) (by decide) (by decide)
    forkedEvidence_id_ne

/-- When the record of the path without links arrives first the comparison is a
match, otherwise it is indeterminate. -/
theorem arrival_order_decides_match :
    ¬ sampleEngine.OrderIrrelevant (sampleRequest forkedEvidence)
      (sampleContextFor forkedRoutes) := by
  intro h
  have hcollision : CollisionFree (sampleRequest forkedEvidence).evidence :=
    CollisionFree.pair (sampleEvidence_sealed _ _ _) (sampleEvidence_sealed _ _ _)
      forkedEvidence_id_ne
  have hcongr : (sampleEngine.withSorter sampleEngine.sorter).workingOf
      ((sampleRequest forkedEvidence).withEvidence forkedEvidence.reverse)
      (sampleContextFor forkedRoutes) forkedRoutes =
        sampleEngine.workingOf (sampleRequest forkedEvidence) (sampleContextFor forkedRoutes)
          forkedRoutes :=
    workingOf_congr sampleEngine.sorter (fun e => List.mem_reverse.symm) (samplePair_sealed rfl)
      hcollision
  have hswapped : sampleEngine.workingOf (sampleRequest forkedEvidence.reverse)
      (sampleContextFor forkedRoutes) forkedRoutes =
        [sampleWorking 2 1 (sampleTrace 0 [1,2,3]),sampleWorking 1 2 (sampleTrace 0 [1,4,3])] :=
    hcongr.trans forkedEvidence_working
  have hplan : generationMatches forkedRoutes (sampleRequest []) (sampleContextFor forkedRoutes) =
      true := by decide
  obtain ⟨result,hresult,houtcome⟩ :=
    sample_compare (by decide) hplan (forked_resolveGroup _) forkedEvidence_working
  obtain ⟨other,hother,hmatch⟩ :=
    sample_compare (by decide) hplan (forked_resolveGroup _) hswapped
  have hreported : (sampleEngine.compare (sampleRequest forkedEvidence.reverse)
      (sampleContextFor forkedRoutes)).map ComparisonResult.reported = _ :=
    h sampleEngine.sorter _ (List.reverse_perm _)
  rw [hresult, hother] at hreported
  have hsame : other.outcome = result.outcome :=
    congrArg (fun r => r.1) (Except.ok.inj hreported)
  rw [houtcome, hmatch] at hsame
  revert hsame
  decide

end ComparisonEngine

end PathObservatory
