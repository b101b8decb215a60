import Mathlib.Data.List.Perm.Subperm
import PathObservatory.Engine.Acceptance

/-! # The size of a result

Classes are listed once each, judgements are no more than the records offered, and
differences no more than the longer of the two compared traces.
-/
namespace PathObservatory

def DivergenceClass.all : List DivergenceClass :=
  [.none,.epochFenced,.epochAhead,.incarnationFenced,.sourceSequenceReplay,.revisionFenced,
    .revisionAhead,.routeGenerationMismatch,.topologyGenerationMismatch,.authorityInsufficient,
    .evidenceUnsupported,.evidenceExpired,.evidenceStale,.evidenceConflicting,
    .evidenceIncomplete,.evidenceAmbiguous,.evidenceUnknown,.observationGap,.linkUnresolved,
    .pathUnknownToPlan,.hopMissing,.hopUnexpected,.hopOrderViolation,.deviceMismatch,
    .portMismatch,.linkMismatch]

theorem DivergenceClass.mem_all (c : DivergenceClass) : c ∈ DivergenceClass.all := by
  cases c <;> decide

/-- There are no more classes than a stored list may have. -/
theorem length_classes_le {classes : List DivergenceClass} (h : classes.Nodup) :
    classes.length ≤ 64 := by
  have hsub : classes ⊆ DivergenceClass.all := fun c _ => c.mem_all
  exact (h.subperm hsub).length_le.trans (by decide)

theorem addClass_nodup {classes : List DivergenceClass} {value : DivergenceClass}
    (h : classes.Nodup) : (addClass classes value).Nodup := by
  unfold addClass
  split_ifs with hnone hmem
  · exact h
  · exact h
  · simpa using h.concat hmem

theorem addClassIf_nodup {condition : Bool} {classes : List DivergenceClass}
    {value : DivergenceClass} (h : classes.Nodup) : (addClassIf condition value classes).Nodup := by
  unfold addClassIf
  split_ifs
  · exact addClass_nodup h
  · exact h

theorem foldl_addClass_nodup {values classes : List DivergenceClass} (h : classes.Nodup) :
    (values.foldl addClass classes).Nodup := by
  induction values generalizing classes with
  | nil => exact h
  | cons value values ih => exact ih (addClass_nodup h)

theorem openingClasses_nodup (topologyMatches sourceSequenceGap : Bool) (working : List Working) :
    (openingClasses topologyMatches sourceSequenceGap working).Nodup := by
  unfold openingClasses
  refine addClassIf_nodup ?_
  have hbase : (addClassIf (!topologyMatches) .topologyGenerationMismatch []).Nodup :=
    addClassIf_nodup List.nodup_nil
  generalize addClassIf (!topologyMatches) .topologyGenerationMismatch [] = classes at hbase ⊢
  induction working generalizing classes with
  | nil => exact hbase
  | cons item working ih => exact ih _ (addClassIf_nodup hbase)

theorem Classification.classes_nodup (c : Classification) {opening : List DivergenceClass}
    (h : opening.Nodup) : (c.classes opening).Nodup :=
  addClassIf_nodup (addClassIf_nodup (foldl_addClass_nodup
    (addClassIf_nodup (addClassIf_nodup h))))

namespace OutcomeFacts
variable (f : OutcomeFacts) (policy : ComparisonPolicy) {v : Verdict}

theorem settle_nodup (h : v.classes.Nodup) (outcome : MatchOutcome) (value : DivergenceClass)
    (rationale : List String) : (v.settle outcome value rationale).classes.Nodup :=
  addClass_nodup h

theorem surfaceGate_nodup (h : v.classes.Nodup) : (f.surfaceGate v).classes.Nodup := by
  unfold surfaceGate
  split_ifs <;> first | exact settle_nodup h _ _ _ | exact h

theorem conflictGate_nodup (h : v.classes.Nodup) : (f.conflictGate v).classes.Nodup := by
  unfold conflictGate
  split_ifs <;> exact h

theorem freshnessGate_nodup (h : v.classes.Nodup) : (f.freshnessGate v).classes.Nodup := by
  unfold freshnessGate
  split_ifs <;> first | exact settle_nodup h _ _ _ | exact h

theorem divergenceGate_nodup (h : v.classes.Nodup) : (f.divergenceGate v).classes.Nodup := by
  unfold divergenceGate
  split_ifs <;> exact h

theorem ambiguityGate_nodup (h : v.classes.Nodup) : (f.ambiguityGate policy v).classes.Nodup := by
  unfold ambiguityGate
  split_ifs <;> first | exact settle_nodup h _ _ _ | exact h

theorem completenessGate_nodup (h : v.classes.Nodup) : (f.completenessGate v).classes.Nodup := by
  unfold completenessGate
  split_ifs <;> first | exact settle_nodup h _ _ _ | exact h

theorem authorityGate_nodup (h : v.classes.Nodup) : (f.authorityGate policy v).classes.Nodup := by
  unfold authorityGate
  split_ifs <;> first | exact settle_nodup h _ _ _ | exact h

theorem memberGate_nodup (h : v.classes.Nodup) : (f.memberGate v).classes.Nodup := by
  unfold memberGate
  split_ifs <;> first | exact settle_nodup h _ _ _ | exact h

theorem matchedPathGate_nodup (h : v.classes.Nodup) : (f.matchedPathGate v).classes.Nodup := by
  unfold matchedPathGate
  split_ifs <;> first | exact settle_nodup h _ _ _ | exact h

theorem decideOutcome_nodup (h : v.classes.Nodup) : (f.decideOutcome policy v).classes.Nodup :=
  f.matchedPathGate_nodup (f.memberGate_nodup (f.authorityGate_nodup policy
    (f.completenessGate_nodup (f.ambiguityGate_nodup policy (f.divergenceGate_nodup
      (f.freshnessGate_nodup (f.conflictGate_nodup (f.surfaceGate_nodup h))))))))

end OutcomeFacts

/-- A judged record lists its classes once each. -/
theorem ComparisonPolicy.judgeEvidence_nodup (policy : ComparisonPolicy) (limits : Limits)
    (generation : RouteGenerationId) (context : ComparisonContext) (routes : RouteGeneration)
    (e : ObservedPathEvidence) :
    (policy.judgeEvidence limits generation context routes e).classes.Nodup := by
  have hexcluded : ∀ rejection reason, (Working.excluded e rejection reason).classes.Nodup :=
    fun _ _ => addClass_nodup List.nodup_nil
  have hfenced : ∀ effective, (policy.fence generation context routes effective e).classes.Nodup := by
    intro effective
    have hclasses : (policy.fencingClasses context.authority generation routes.topology e).Nodup := by
      unfold fencingClasses
      repeat' apply addClassIf_nodup
      exact List.nodup_nil
    simp only [fence]
    split_ifs <;> exact hclasses
  unfold judgeEvidence
  split
  · exact hexcluded _ _
  · split
    · exact hfenced _
    · split
      · exact hexcluded _ _
      · split_ifs
        · exact hexcluded _ _
        · exact hfenced _

theorem length_hopDifferences_le (reference : ExpectedPath) (observed : List ObservedHop) :
    (hopDifferences reference observed).length ≤ max reference.hops.length observed.length := by
  unfold hopDifferences
  refine (List.length_filter_le _ _).trans ?_
  rw [List.length_map, List.length_range]

theorem length_compareReference_le {structural : Bool} {reference : Option ExpectedPath}
    {observed : List ObservedHop} {bound : ℕ} (hobserved : observed.length ≤ bound)
    (hreference : ∀ path, reference = some path → path.hops.length ≤ bound) :
    (compareReference structural reference observed).1.length ≤ bound := by
  cases structural with
  | false => exact Nat.zero_le _
  | true =>
    cases reference with
    | none => exact Nat.zero_le _
    | some path =>
      exact (length_hopDifferences_le path observed).trans
        (max_le (hreference path rfl) hobserved)

theorem findPath_self {routes : RouteGeneration} {id : PathId} {path : ExpectedPath}
    (h : routes.findPath id = some path) : routes.findPath path.id = some path := by
  obtain rfl := (Ranking.mem_of_lookupSorted h).2
  exact h

theorem claimedPath_found {routes : RouteGeneration} {group : PathGroup} {path : MaybeId .path}
    {claimed : ExpectedPath} (h : claimedPath routes group path = some claimed) :
    routes.findPath claimed.id = some claimed := by
  unfold claimedPath at h
  split_ifs at h
  exact findPath_self (Option.filter_eq_some_iff.mp h).1

theorem foldl_smallerPath_mem (first : ExpectedPath) (rest : List ExpectedPath) :
    rest.foldl smallerPath first ∈ first :: rest := by
  induction rest generalizing first with
  | nil => exact List.mem_cons_self
  | cons next rest ih =>
    rw [List.foldl_cons]
    have hstep : smallerPath first next = first ∨ smallerPath first next = next := by
      unfold smallerPath
      split_ifs
      · exact Or.inr rfl
      · exact Or.inl rfl
    rcases List.mem_cons.mp (ih (smallerPath first next)) with h | h
    · rw [h]
      rcases hstep with h | h <;> simp [h]
    · exact List.mem_cons_of_mem first (List.mem_cons_of_mem next h)

/-- The reference path is claimed, or it is a member of the group. -/
theorem referencePath_cases {routes : RouteGeneration} {group : PathGroup}
    {request : ComparisonRequest} {reference : ExpectedPath}
    (h : referencePath routes group request = some reference) :
    (∃ path, claimedPath routes group path = some reference) ∨
      reference ∈ memberPaths routes group := by
  unfold referencePath at h
  rcases Option.or_eq_some_iff.mp h with h | ⟨-,h⟩
  · exact Or.inl ⟨_,h⟩
  · rcases Option.or_eq_some_iff.mp h with h | ⟨-,h⟩
    · obtain ⟨e,-,he⟩ := List.exists_of_findSome?_eq_some h
      exact Or.inl ⟨_,he⟩
    · cases hmembers : memberPaths routes group with
      | nil => simp [hmembers] at h
      | cons first rest =>
        rw [hmembers] at h
        rw [← Option.some.inj h]
        exact Or.inr (foldl_smallerPath_mem first rest)

/-- The reference path is the path that the plan has under its identity. -/
theorem referencePath_found {routes : RouteGeneration} {group : PathGroup}
    {request : ComparisonRequest} {reference : ExpectedPath}
    (h : referencePath routes group request = some reference) :
    routes.findPath reference.id = some reference := by
  rcases referencePath_cases h with ⟨path,hclaimed⟩ | hmem
  · exact claimedPath_found hclaimed
  · obtain ⟨id,-,hid⟩ := List.mem_filterMap.mp hmem
    exact findPath_self hid

theorem referencePath_mem {routes : RouteGeneration} {group : PathGroup}
    {request : ComparisonRequest} {reference : ExpectedPath}
    (h : referencePath routes group request = some reference) : reference ∈ routes.paths :=
  (Ranking.mem_of_lookupSorted (referencePath_found h)).1

/-- A result as large as its request and the hop bound allow. -/
structure ComparisonResult.Bounded (result : ComparisonResult) (records hops : ℕ) : Prop where
  classes : result.classes.Nodup
  judgements : result.judgements.length ≤ records
  judgementClasses : ∀ judgement ∈ result.judgements, judgement.classes.Nodup
  differences : result.differences.length ≤ hops

namespace ComparisonEngine
variable {engine : ComparisonEngine} {request : ComparisonRequest} {context : ComparisonContext}

theorem length_workingOf_le (routes : RouteGeneration) :
    (engine.workingOf request context routes).length ≤ request.evidence.length := by
  unfold workingOf removeDuplicates ranked
  refine (List.destutter_sublist _ _).length_le.trans ?_
  rw [(engine.sorter.perm _).length_eq, List.length_map]

theorem workingOf_nodup {routes : RouteGeneration} {w : Working}
    (h : w ∈ engine.workingOf request context routes) : w.classes.Nodup := by
  obtain ⟨e,-,rfl⟩ := mem_ranked.mp ((List.destutter_sublist _ _).subset h)
  exact ComparisonPolicy.judgeEvidence_nodup _ _ _ _ _ _

/-- An accepted trace is as long as the valid record it comes from. -/
theorem length_hops_le {routes : RouteGeneration} {w : Working}
    (h : w ∈ engine.acceptedRecords request context routes) :
    w.hops.length ≤ engine.limits.maxHopsPerPath := by
  obtain ⟨e,-,hadmits,rfl⟩ := exists_of_mem_acceptedRecords h
  rw [ComparisonPolicy.acceptedWorking, List.length_map]
  exact (ObservedPathEvidence.bounds_of_validate hadmits.valid).1

section
variable {base : ComparisonResult} {opening : List DivergenceClass} {rationale : List String}
  {records hops : ℕ}

theorem withoutAccepted_bounded {working : List Working} (hbase : base.Bounded records hops)
    (hopening : opening.Nodup) :
    (withoutAccepted base opening rationale working).Bounded records hops where
  classes := addClass_nodup hopening
  judgements := hbase.judgements
  judgementClasses := hbase.judgementClasses
  differences := hbase.differences

theorem withAccepted_bounded {routes : RouteGeneration} {group : PathGroup}
    {reference : Option ExpectedPath} {representative : Working} {accepted : List Working}
    (hbase : base.Bounded records hops) (hopening : opening.Nodup)
    (hreference : ∀ path, reference = some path → path.hops.length ≤ hops)
    (hhops : representative.hops.length ≤ hops) :
    (engine.withAccepted base opening rationale routes group request context reference
      representative accepted).Bounded records hops where
  classes := by
    simp only [withAccepted]
    exact OutcomeFacts.decideOutcome_nodup _ _ (Classification.classes_nodup _ hopening)
  judgements := hbase.judgements
  judgementClasses := hbase.judgementClasses
  differences := by
    simp only [withAccepted, classify]
    exact length_compareReference_le hhops hreference

end

theorem compareWorking_bounded {base : ComparisonResult} {routes : RouteGeneration}
    {group : PathGroup} {reference : Option ExpectedPath} {hops : ℕ}
    (hreference : ∀ path, reference = some path → path.hops.length ≤ hops)
    (hhops : ∀ w ∈ engine.acceptedRecords request context routes, w.hops.length ≤ hops)
    (hclasses : base.classes = []) (hdifferences : base.differences = []) :
    (engine.compareWorking base routes group request context reference
      (engine.workingOf request context routes)).Bounded request.evidence.length hops := by
  have hopening := openingClasses_nodup (topologyMatches routes context) request.sourceSequenceGap
    (engine.workingOf request context routes)
  have hbase : ∀ considered rejected, ({ base with
      topology := routes.topology
      group := ⟨group.id⟩
      multipath := group.multipath
      evidenceConsidered := considered
      evidenceRejected := rejected
      judgements := (engine.workingOf request context routes).map judgementOf } :
        ComparisonResult).Bounded request.evidence.length hops := by
    intro considered rejected
    refine ⟨by simp [hclasses],?_,?_,by simp [hdifferences]⟩
    · rw [List.length_map]
      exact length_workingOf_le routes
    · intro judgement hjudgement
      obtain ⟨w,hw,rfl⟩ := List.mem_map.mp hjudgement
      exact workingOf_nodup hw
  unfold acceptedRecords at hhops
  simp only [compareWorking]
  split
  · exact withoutAccepted_bounded (hbase _ _) hopening
  · rename_i representative rest haccepted
    exact withAccepted_bounded (hbase _ _) hopening hreference
      (hhops representative (haccepted ▸ List.mem_cons_self))

/-- A comparison against a plan within the hop bound is within the bounds. -/
theorem evaluate_bounded (hplan : ∀ routes, context.routes = some routes →
      ∀ path ∈ routes.paths, path.hops.length ≤ engine.limits.maxHopsPerPath) :
    (engine.evaluate request context).Bounded request.evidence.length
      engine.limits.maxHopsPerPath := by
  unfold evaluate
  split
  · refine ⟨?_,Nat.zero_le _,by simp [mismatchResult, baseResult],Nat.zero_le _⟩
    simp only [mismatchResult]
    exact addClass_nodup List.nodup_nil
  · rename_i routes hroutes
    have hcurrent : context.routes = some routes := (Option.filter_eq_some_iff.mp hroutes).1
    split
    · refine ⟨?_,Nat.zero_le _,by simp [unresolvedResult, baseResult],Nat.zero_le _⟩
      simp only [unresolvedResult]
      exact addClassIf_nodup List.nodup_nil
    · exact compareWorking_bounded
        (fun path hpath => hplan routes hcurrent path (referencePath_mem hpath))
        (fun w hw => length_hops_le hw) rfl rfl

/-- What `compare` returns is sealed and within the bounds. -/
theorem compare_bounded {result : ComparisonResult}
    (hplan : ∀ routes, context.routes = some routes →
      ∀ path ∈ routes.paths, path.hops.length ≤ engine.limits.maxHopsPerPath)
    (h : engine.compare request context = .ok result) :
    result.Bounded request.evidence.length engine.limits.maxHopsPerPath ∧
      request.evidence.length ≤ engine.limits.maxEvidencePerComparison ∧
      result.id = DigestId.fromDigest result.canonicalDigest := by
  obtain ⟨_,hcheck,h⟩ := bind_eq_ok.mp h
  have hcount : request.evidence.length ≤ engine.limits.maxEvidencePerComparison := by
    obtain ⟨_,-,hcheck⟩ := bind_eq_ok.mp hcheck
    exact of_decide_eq_true (require_eq_ok.mp (require_bind_eq_ok.mp hcheck).2)
  have hbounded := @evaluate_bounded engine request context hplan
  rw [← Except.ok.inj h]
  exact ⟨⟨hbounded.classes,hbounded.judgements,hbounded.judgementClasses,hbounded.differences⟩,
    hcount,rfl⟩

end ComparisonEngine

end PathObservatory
