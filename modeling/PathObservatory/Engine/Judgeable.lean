import PathObservatory.Engine.ClassSources
import PathObservatory.Engine.Compliance

/-! # Comparisons of records that can be judged

`unsupported` is said of no records but those of a surface that cannot be judged, and that
there is nothing to compare with only where the plan does not contain the subject.
-/
namespace PathObservatory
open Ranking

/-- Only records of a surface that cannot be judged make a verdict say so. -/
theorem OutcomeFacts.decideOutcome_ne_unsupported {f : OutcomeFacts} {policy : ComparisonPolicy}
    {v : Verdict} (hs : f.surface ≠ .unsupported) (hv : v.outcome ≠ .unsupported) :
    (f.decideOutcome policy v).outcome ≠ .unsupported := by
  have hearly : ∀ {w : Verdict}, w.outcome ≠ .unsupported →
      (f.surfaceGate w).outcome ≠ .unsupported ∧ (f.conflictGate w).outcome ≠ .unsupported ∧
      (f.freshnessGate w).outcome ≠ .unsupported ∧
      (f.divergenceGate w).outcome ≠ .unsupported := by
    intro w hw
    unfold surfaceGate conflictGate freshnessGate divergenceGate Verdict.settle
    refine ⟨?_,?_,?_,?_⟩ <;> split_ifs <;> simp_all
  have hlate : ∀ {w : Verdict}, w.outcome ≠ .unsupported →
      (f.ambiguityGate policy w).outcome ≠ .unsupported ∧
      (f.completenessGate w).outcome ≠ .unsupported ∧
      (f.authorityGate policy w).outcome ≠ .unsupported ∧
      (f.memberGate w).outcome ≠ .unsupported ∧
      (f.matchedPathGate w).outcome ≠ .unsupported := by
    intro w hw
    unfold ambiguityGate completenessGate authorityGate memberGate matchedPathGate Verdict.settle
    refine ⟨?_,?_,?_,?_,?_⟩ <;> split_ifs <;> simp [hw]
  have hdivergence := (hearly (hearly (hearly (hearly hv).1).2.1).2.2.1).2.2.2
  exact (hlate (hlate (hlate (hlate (hlate hdivergence).1).2.1).2.2.1).2.2.2.1).2.2.2.2

theorem leadingRejection_cases (working : List Working) :
    leadingRejection working = .evidenceUnknown ∨
      ∃ w ∈ working, w.rejection = leadingRejection working := by
  have hfold : ∀ rejection : DivergenceClass,
      let leading := working.foldl (fun rejection item =>
        if item.rejection = .none then rejection
        else if rejection = .evidenceUnknown ∨
            item.rejection.precedenceOf < rejection.precedenceOf then item.rejection
        else rejection) rejection
      leading = rejection ∨ ∃ w ∈ working, w.rejection = leading := by
    induction working with
    | nil => exact fun _ => Or.inl rfl
    | cons first rest ih =>
      intro rejection
      simp only [List.foldl_cons]
      rcases ih _ with hkept | ⟨w,hw,heq⟩
      · rw [hkept]
        split_ifs
        · exact Or.inl rfl
        · exact Or.inr ⟨first,List.mem_cons_self,rfl⟩
        · exact Or.inl rfl
      · exact Or.inr ⟨w,List.mem_cons_of_mem _ hw,heq⟩
  exact hfold .evidenceUnknown

namespace ComparisonPolicy
variable {policy : ComparisonPolicy} {limits : Limits} {generation : RouteGenerationId}
  {context : ComparisonContext} {routes : RouteGeneration} {e : ObservedPathEvidence}

theorem fence_rejection_ne_unsupported (h : e.surface ≠ .unsupported)
    (effective : FreshnessPolicy) :
    (policy.fence generation context routes effective e).rejection ≠ .evidenceUnsupported := by
  simp only [fence]
  split_ifs with hrejected
  · have hmem := selectPrimary_mem hrejected
    intro (heq : selectPrimary _ = _)
    rw [heq] at hmem
    unfold fencingClasses at hmem
    simp only [mem_addClassIf, List.not_mem_nil, false_or, h, decide_false, Bool.false_eq_true,
      false_and, or_false, reduceCtorEq, and_false] at hmem
    obtain ⟨-,hfenced,-⟩ := hmem
    split_ifs at hfenced
  · intro hsame
    cases hsame

/-- A record of another surface is not excluded for its surface. -/
theorem judgeEvidence_rejection_ne_unsupported (h : e.surface ≠ .unsupported) :
    (policy.judgeEvidence limits generation context routes e).rejection ≠
      .evidenceUnsupported := by
  unfold judgeEvidence
  split
  · exact nofun
  · split
    · exact fence_rejection_ne_unsupported h _
    · split
      · exact nofun
      · split_ifs
        · exact nofun
        · exact fence_rejection_ne_unsupported h _

end ComparisonPolicy

namespace ComparisonEngine
variable {engine : ComparisonEngine} {request : ComparisonRequest} {context : ComparisonContext}

/-- A comparison of records that can be judged, about a subject of the plan, is a match, a
divergence or indeterminate. -/
theorem outcome_of_compare {result : ComparisonResult}
    (hresult : engine.compare request context = .ok result)
    (hsurface : ∀ e ∈ request.evidence, e.surface ≠ .unsupported)
    (hsubject : ∀ routes, context.routes = some routes →
      generationMatches routes request context = true → (resolveGroup routes request).isSome) :
    result.outcome = .match_ ∨ result.outcome = .divergent ∨ result.outcome = .indeterminate := by
  suffices hout : result.outcome ≠ .unsupported ∧ result.outcome ≠ .noExpectedState by
    cases hcase : result.outcome <;> simp_all
  obtain ⟨hpolicy,hgeneration,hbounded,rfl⟩ := compare_eq_ok.mp hresult
  show (engine.evaluate request context).outcome ≠ .unsupported ∧
    (engine.evaluate request context).outcome ≠ .noExpectedState
  cases hroutes : context.routes.filter (generationMatches · request context) with
  | none =>
    rw [evaluate_of_mismatch hroutes]
    refine ⟨fun hsame => ?_,fun hsame => ?_⟩
    · cases hsame
    · cases hsame
  | some routes =>
    obtain ⟨hsome,hmatches⟩ := Option.filter_eq_some_iff.mp hroutes
    obtain ⟨group,hgroup⟩ := Option.isSome_iff_exists.mp (hsubject routes hsome hmatches)
    cases haccepted : engine.acceptedRecords request context routes with
    | nil =>
      have hnil : acceptedOf (engine.workingOf request context routes) = [] := haccepted
      have hleading : leadingRejection (engine.workingOf request context routes) ≠
          .evidenceUnsupported := by
        rcases leadingRejection_cases (engine.workingOf request context routes) with
          heq | ⟨w,hw,heq⟩
        · rw [heq]
          decide
        · obtain ⟨e,he,rfl⟩ := mem_ranked.mp ((List.destutter_sublist _ _).subset hw)
          rw [← heq]
          exact ComparisonPolicy.judgeEvidence_rejection_ne_unsupported (hsurface e he)
      rw [evaluate_of_resolved hsome hmatches hgroup]
      simp only [compareWorking, hnil, withoutAccepted, if_neg hleading]
      refine ⟨fun hsame => ?_,fun hsame => ?_⟩
      · cases hsame
      · cases hsame
    | cons representative rest =>
      have hreach : engine.Reaches request context routes group representative :=
        ⟨hpolicy,hgeneration,hbounded,hsome,hmatches,hgroup,by simp [haccepted]⟩
      obtain ⟨verdict,hverdict,heq⟩ := evaluate_outcome_of_reaches hreach
      obtain ⟨hsupported,-,-⟩ :=
        @classification_surface engine request context routes group representative
      rw [heq]
      exact ⟨OutcomeFacts.decideOutcome_ne_unsupported hsupported (by simp [hverdict]),
        OutcomeFacts.decideOutcome_ne_noExpectedState (by simp [hverdict])⟩

end ComparisonEngine

end PathObservatory
