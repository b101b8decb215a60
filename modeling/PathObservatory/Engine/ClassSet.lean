import PathObservatory.Engine.Compliance

/-! # The class set of a compliant result

A gate that replaces the outcome never leaves compliance behind, so a compliant
result carries exactly the classes that were known before the gates: exclusions,
ambiguity and claims the plan does not know.
-/
namespace PathObservatory

namespace OutcomeFacts
variable {f : OutcomeFacts} {policy : ComparisonPolicy} {v : Verdict}

/-! What passes a gate as compliance passes it unchanged. -/

theorem surfaceGate_of_match (h : (f.surfaceGate v).outcome = .match_) : f.surfaceGate v = v := by
  unfold surfaceGate Verdict.settle at h ⊢
  split_ifs at h ⊢
  rfl

theorem conflictGate_of_match (h : (f.conflictGate v).outcome = .match_) :
    f.conflictGate v = v := by
  unfold conflictGate at h ⊢
  split_ifs at h ⊢
  rfl

theorem freshnessGate_of_match (h : (f.freshnessGate v).outcome = .match_) :
    f.freshnessGate v = v := by
  unfold freshnessGate Verdict.settle at h ⊢
  split_ifs at h ⊢
  rfl

theorem divergenceGate_of_match (h : (f.divergenceGate v).outcome = .match_) :
    f.divergenceGate v = v := by
  unfold divergenceGate at h ⊢
  split_ifs at h ⊢
  rfl

theorem ambiguityGate_of_match (h : (f.ambiguityGate policy v).outcome = .match_) :
    f.ambiguityGate policy v = v := by
  unfold ambiguityGate Verdict.settle at h ⊢
  split_ifs at h ⊢
  rfl

theorem completenessGate_of_match (h : (f.completenessGate v).outcome = .match_) :
    f.completenessGate v = v := by
  unfold completenessGate Verdict.settle at h ⊢
  split_ifs at h ⊢
  rfl

theorem authorityGate_of_match (h : (f.authorityGate policy v).outcome = .match_) :
    f.authorityGate policy v = v := by
  unfold authorityGate Verdict.settle at h ⊢
  split_ifs at h ⊢
  · rfl
  · rfl

theorem memberGate_of_match (h : (f.memberGate v).outcome = .match_) : f.memberGate v = v := by
  unfold memberGate Verdict.settle at h ⊢
  split_ifs at h ⊢
  rfl

theorem matchedPathGate_of_match (h : (f.matchedPathGate v).outcome = .match_) :
    f.matchedPathGate v = v := by
  unfold matchedPathGate Verdict.settle at h ⊢
  split_ifs at h ⊢
  rfl

theorem decideOutcome_of_match (h : (f.decideOutcome policy v).outcome = .match_) :
    f.decideOutcome policy v = v := by
  unfold decideOutcome at h ⊢
  have hpath := matchedPathGate_of_match h
  rw [hpath] at h ⊢
  have hmember := memberGate_of_match h
  rw [hmember] at h ⊢
  have hauthority := authorityGate_of_match h
  rw [hauthority] at h ⊢
  have hcomplete := completenessGate_of_match h
  rw [hcomplete] at h ⊢
  have hambiguity := ambiguityGate_of_match h
  rw [hambiguity] at h ⊢
  have hdivergence := divergenceGate_of_match h
  rw [hdivergence] at h ⊢
  have hfreshness := freshnessGate_of_match h
  rw [hfreshness] at h ⊢
  have hconflict := conflictGate_of_match h
  rw [hconflict] at h ⊢
  exact surfaceGate_of_match h

end OutcomeFacts

theorem none_not_mem_foldl_addClass {values classes : List DivergenceClass}
    (h : DivergenceClass.none ∉ classes) :
    DivergenceClass.none ∉ values.foldl addClass classes := by
  induction values generalizing classes with
  | nil => exact h
  | cons value rest ih =>
    refine ih ?_
    rw [mem_addClass]
    rintro (hmem | ⟨heq,hne⟩)
    · exact h hmem
    · exact hne heq.symm

/-- The classes of the exclusions. -/
def rejectionClasses (working : List Working) (classes : List DivergenceClass) :
    List DivergenceClass :=
  working.foldl (fun classes item => addClassIf (!item.accepted) item.rejection classes) classes

theorem none_not_mem_rejectionClasses {working : List Working} {classes : List DivergenceClass}
    (h : DivergenceClass.none ∉ classes) :
    DivergenceClass.none ∉ rejectionClasses working classes := by
  induction working generalizing classes with
  | nil => exact h
  | cons item rest ih => exact ih (none_not_mem_addClassIf h)

theorem rejectionClasses_eq_nil {working : List Working} {classes : List DivergenceClass}
    (hnamed : ∀ w ∈ working, w.accepted = false → w.rejection ≠ .none) :
    rejectionClasses working classes = [] ↔
      classes = [] ∧ ∀ w ∈ working, w.accepted = true := by
  induction working generalizing classes with
  | nil => simp [rejectionClasses]
  | cons item rest ih =>
    have hrest := @ih (addClassIf (!item.accepted) item.rejection classes)
      (fun w hw => hnamed w (List.mem_cons_of_mem _ hw))
    have hstep : rejectionClasses (item :: rest) classes =
      rejectionClasses rest (addClassIf (!item.accepted) item.rejection classes) := rfl
    rw [hstep, hrest]
    cases haccepted : item.accepted with
    | true => simp [addClassIf, haccepted]
    | false =>
      rw [addClassIf_eq_nil (hnamed item List.mem_cons_self haccepted)]
      simp [haccepted]

/-- Every exclusion has a class. -/
theorem ComparisonPolicy.rejection_ne_none {policy : ComparisonPolicy} {limits : Limits}
    {generation : RouteGenerationId} {context : ComparisonContext} {routes : RouteGeneration}
    {e : ObservedPathEvidence}
    (h : (policy.judgeEvidence limits generation context routes e).accepted = false) :
    (policy.judgeEvidence limits generation context routes e).rejection ≠ .none := by
  have hfence : ∀ effective, (policy.fence generation context routes effective e).accepted =
      false → (policy.fence generation context routes effective e).rejection ≠ .none := by
    intro effective
    unfold fence
    simp only
    split_ifs with hrejected
    · exact fun _ => hrejected
    · exact fun haccepted => by cases haccepted
  unfold judgeEvidence at h ⊢
  split at h
  · simp [Working.excluded]
  · split at h
    · exact hfence _ h
    · split at h
      · simp [Working.excluded]
      · split_ifs at h ⊢
        · simp [Working.excluded]
        · exact hfence _ h

namespace ComparisonEngine
variable {engine : ComparisonEngine} {request : ComparisonRequest} {context : ComparisonContext}
  {routes : RouteGeneration} {group : PathGroup} {representative : Working}

/-- Records with distinct identities are all ranked and none is dropped. -/
theorem workingOf_of_nodup (h : (request.evidence.map (·.id)).Nodup) :
    engine.workingOf request context routes = engine.ranked request context routes := by
  have hids : ((request.evidence.map (engine.policy.judgeEvidence engine.limits
      request.generation context routes)).map (·.evidence.id)).Nodup := by
    rw [List.map_map]
    have heq : (fun w : Working => w.evidence.id) ∘ engine.policy.judgeEvidence engine.limits
        request.generation context routes = fun e => e.id := by
      funext e
      simp only [Function.comp_apply, ComparisonPolicy.judgeEvidence_evidence]
    rw [heq]
    exact h
  have hranked : ((engine.ranked request context routes).map (·.evidence.id)).Nodup :=
    ((engine.sorter.perm _).map _).nodup_iff.mpr hids
  exact List.destutter_of_isChain _ _ (List.pairwise_map.mp hranked).isChain

theorem all_accepted_iff (h : (request.evidence.map (·.id)).Nodup) :
    (∀ w ∈ engine.workingOf request context routes, w.accepted = true) ↔
      ∀ e ∈ request.evidence, engine.Admits request context routes e := by
  rw [workingOf_of_nodup h]
  constructor
  · intro hall e he
    have haccepted := hall _ (mem_ranked.mpr ⟨e,he,rfl⟩)
    rcases ComparisonPolicy.judgeEvidence_cases engine.policy engine.limits request.generation
      context routes e with ⟨hadmits,-⟩ | ⟨-,hrejected⟩
    · exact hadmits
    · exact absurd (haccepted.symm.trans hrejected) (by decide)
  · intro hall w hw
    obtain ⟨e,he,rfl⟩ := mem_ranked.mp hw
    rcases ComparisonPolicy.judgeEvidence_cases engine.policy engine.limits request.generation
      context routes e with ⟨-,heq⟩ | ⟨hnot,-⟩
    · rw [judge, heq]
      rfl
    · exact absurd (hall e he) hnot

/-- There is nothing to report beside agreement with the plan: the topology is the
one of the plan, no record is excluded, the records follow one member, and the plan
knows what they claim to follow. -/
structure Untroubled (engine : ComparisonEngine) (request : ComparisonRequest)
    (context : ComparisonContext) (routes : RouteGeneration) (group : PathGroup) : Prop where
  topology : topologyMatches routes context = true
  admitted : ∀ e ∈ request.evidence, engine.Admits request context routes e
  unambiguous : distinctMembers (memberPaths routes group)
    (engine.acceptedRecords request context routes) ≤ 1
  known : pathIsUnknownToPlan routes request
    (engine.acceptedRecords request context routes) = false

/-- A compliant result is classified as it was before the gates. -/
theorem primary_of_match (h : engine.Reaches request context routes group representative)
    (hmatch : (engine.evaluate request context).outcome = .match_) :
    (engine.evaluate request context).primary =
      selectPrimary ((engine.classification request context routes group representative).classes
        (openingClasses (topologyMatches routes context) request.sourceSequenceGap
          (engine.workingOf request context routes))) := by
  obtain ⟨verdict,-,hclasses,hconcludes⟩ := evaluate_of_reaches h
  rw [hconcludes.outcome] at hmatch
  rw [hconcludes.primary, OutcomeFacts.decideOutcome_of_match hmatch, hclasses]

theorem none_not_mem_openingClasses {topologyMatches sourceSequenceGap : Bool}
    {working : List Working} :
    DivergenceClass.none ∉ openingClasses topologyMatches sourceSequenceGap working :=
  none_not_mem_addClassIf (none_not_mem_rejectionClasses
    (none_not_mem_addClassIf List.not_mem_nil))

theorem none_not_mem_classes {c : Classification} {topologyMatches sourceSequenceGap : Bool}
    {working : List Working} : DivergenceClass.none ∉
      c.classes (openingClasses topologyMatches sourceSequenceGap working) := by
  unfold Classification.classes
  exact none_not_mem_addClassIf (none_not_mem_addClassIf (none_not_mem_foldl_addClass
    (none_not_mem_addClassIf (none_not_mem_addClassIf none_not_mem_openingClasses))))

/-- The classes that are left where the gates let compliance through. -/
theorem classes_eq_nil_iff
    (hcompliant : (engine.outcomeFacts request context routes group representative).Compliant
      engine.policy) :
    (engine.classification request context routes group representative).classes
        (openingClasses (topologyMatches routes context) request.sourceSequenceGap
          (engine.workingOf request context routes)) = [] ↔
      topologyMatches routes context = true ∧
        (∀ w ∈ engine.workingOf request context routes, w.accepted = true) ∧
        distinctMembers (memberPaths routes group)
          (engine.acceptedRecords request context routes) ≤ 1 ∧
        pathIsUnknownToPlan routes request
          (engine.acceptedRecords request context routes) = false := by
  let c := engine.classification request context routes group representative
  have hagree : c.conflicting = false := hcompliant.agreeing
  have hstructural : c.structural = false := hcompliant.undiverged
  obtain ⟨hresolved,-,hgap⟩ := classification_completeness.mp hcompliant.complete
  have hdifferences : c.differences = [] := by
    have heq : c.differences = (compareReference c.structural (referencePath routes group request)
      representative.hops).1 := rfl
    rw [heq, hstructural]
    rfl
  have hnamed : ∀ w ∈ engine.workingOf request context routes, w.accepted = false →
      w.rejection ≠ .none := by
    intro w hw hrejected
    obtain ⟨e,-,rfl⟩ := mem_ranked.mp ((List.destutter_sublist _ _).subset hw)
    exact ComparisonPolicy.rejection_ne_none hrejected
  have hdistinct : c.multipathAmbiguous = false ↔ c.distinct ≤ 1 :=
    multipathAmbiguous_eq_false hagree hcompliant.judgeable.1
  have hopening : openingClasses (topologyMatches routes context) request.sourceSequenceGap
      (engine.workingOf request context routes) = [] ↔ topologyMatches routes context = true ∧
        ∀ w ∈ engine.workingOf request context routes, w.accepted = true := by
    have heq : openingClasses (topologyMatches routes context) request.sourceSequenceGap
        (engine.workingOf request context routes) =
          rejectionClasses (engine.workingOf request context routes)
            (addClassIf (!topologyMatches routes context) .topologyGenerationMismatch []) := by
      rw [hgap]
      rfl
    rw [heq, rejectionClasses_eq_nil hnamed, addClassIf_eq_nil (by decide)]
    simp
  have hclasses : ∀ opening, c.classes opening = [] ↔
      opening = [] ∧ c.distinct ≤ 1 ∧ c.pathUnknown = false := by
    intro opening
    unfold Classification.classes
    rw [hagree, hdifferences, show c.linkUnresolved = false from hresolved]
    rw [addClassIf_eq_nil (by decide)]
    show (addClassIf c.multipathAmbiguous .evidenceAmbiguous opening = [] ∧ _) ↔ _
    rw [addClassIf_eq_nil (by decide), hdistinct, and_assoc]
  rw [hclasses, hopening, and_assoc]
  rfl

/-- A compliant result has no class exactly when the records are untroubled. -/
theorem primary_eq_none_iff {result : ComparisonResult}
    (hresult : engine.compare request context = .ok result) (hmatch : result.outcome = .match_)
    (hreach : engine.Reaches request context routes group representative)
    (hdistinct : (request.evidence.map (·.id)).Nodup) :
    result.primary = .none ↔ engine.Untroubled request context routes group := by
  obtain ⟨-,-,-,rfl⟩ := compare_eq_ok.mp hresult
  obtain ⟨verdict,hverdict,heq⟩ := evaluate_outcome_of_reaches hreach
  have hcompliant := (OutcomeFacts.decideOutcome_eq_match hverdict).mp (heq.symm.trans hmatch)
  have hprimary : (engine.evaluate request context).seal_.primary =
      (engine.evaluate request context).primary := rfl
  rw [hprimary, primary_of_match hreach hmatch,
    selectPrimary_eq_none_iff_nil none_not_mem_classes, classes_eq_nil_iff hcompliant,
    all_accepted_iff hdistinct]
  exact ⟨fun ⟨ht,ha,hu,hk⟩ => ⟨ht,ha,hu,hk⟩,fun h => ⟨h.topology,h.admitted,h.unambiguous,h.known⟩⟩

end ComparisonEngine

end PathObservatory
