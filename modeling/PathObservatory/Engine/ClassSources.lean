import PathObservatory.Engine.Acceptance

/-! # Where the classes of a result come from

Exclusions, gates and hop differences each draw from a fixed list of classes. Only
the hop differences and the claims on the plan name structural ones.
-/
namespace PathObservatory

/-- The classes for which a record is excluded. -/
def exclusionClasses : List DivergenceClass :=
  [.epochFenced,.epochAhead,.incarnationFenced,.routeGenerationMismatch,
   .topologyGenerationMismatch,.revisionFenced,.revisionAhead,.evidenceUnsupported,
   .evidenceUnknown,.authorityInsufficient]

/-- The classes that a gate adds when it replaces the outcome. -/
def gateClasses : List DivergenceClass :=
  [.evidenceUnsupported,.evidenceUnknown,.evidenceStale,.evidenceExpired,.evidenceAmbiguous,
   .evidenceIncomplete,.topologyGenerationMismatch,.authorityInsufficient]

/-- The classes of the hop differences. -/
def differenceClasses : List DivergenceClass :=
  [.hopMissing,.hopUnexpected,.hopOrderViolation,.deviceMismatch,.portMismatch,.linkMismatch]

theorem structural_iff {c : DivergenceClass} :
    c.categoryOf = .structural ↔ c = .pathUnknownToPlan ∨ c ∈ differenceClasses := by
  cases c <;> decide

theorem not_mem_gateClasses {c : DivergenceClass} (h : c.categoryOf = .structural) :
    c ∉ gateClasses := by
  cases c <;> first | decide | cases h

theorem not_mem_exclusionClasses {c : DivergenceClass} (h : c.categoryOf = .structural) :
    c ∉ exclusionClasses := by
  cases c <;> first | decide | cases h

theorem betterPrimary_cases (best candidate : DivergenceClass) :
    betterPrimary best candidate = best ∨ betterPrimary best candidate = candidate := by
  unfold betterPrimary
  split_ifs
  · exact Or.inl rfl
  · exact Or.inr rfl
  · exact Or.inr rfl
  · exact Or.inl rfl

theorem foldl_betterPrimary_cases (classes : List DivergenceClass) (best : DivergenceClass) :
    classes.foldl betterPrimary best = best ∨ classes.foldl betterPrimary best ∈ classes := by
  induction classes generalizing best with
  | nil => exact Or.inl rfl
  | cons c classes ih =>
    rw [List.foldl_cons]
    rcases ih (betterPrimary best c) with hbest | hmem
    · rcases betterPrimary_cases best c with hkept | hreplaced
      · exact Or.inl (hbest.trans hkept)
      · refine Or.inr (List.mem_cons.mpr (Or.inl (hbest.trans hreplaced)))
    · exact Or.inr (List.mem_cons_of_mem _ hmem)

/-- The primary class of a set that is not `none` is one of the set. -/
theorem selectPrimary_mem {classes : List DivergenceClass} (h : selectPrimary classes ≠ .none) :
    selectPrimary classes ∈ classes :=
  (foldl_betterPrimary_cases classes .none).resolve_left h

theorem mem_foldl_addClass {c : DivergenceClass} {values classes : List DivergenceClass} :
    c ∈ values.foldl addClass classes ↔ c ∈ classes ∨ (c ∈ values ∧ c ≠ .none) := by
  induction values generalizing classes with
  | nil => simp
  | cons value values ih =>
    rw [List.foldl_cons, ih, mem_addClass]
    aesop

namespace ComparisonPolicy
variable {policy : ComparisonPolicy} {limits : Limits} {generation : RouteGenerationId}
  {context : ComparisonContext} {routes : RouteGeneration} {e : ObservedPathEvidence}

theorem fencingClasses_subset {authority : AuthorityState} {topology : TopologyGenerationId}
    {c : DivergenceClass} (h : c ∈ policy.fencingClasses authority generation topology e) :
    c ∈ exclusionClasses := by
  have hfenced : (if e.epoch < authority.epoch then DivergenceClass.epochFenced else .epochAhead) ∈
      exclusionClasses := by split_ifs <;> decide
  unfold fencingClasses at h
  simp only [mem_addClassIf, List.not_mem_nil, false_or] at h
  rcases h with ((((((((⟨-,rfl,-⟩ | ⟨-,rfl,-⟩) | ⟨-,rfl,-⟩) | ⟨-,rfl,-⟩) | ⟨-,rfl,-⟩) |
    ⟨-,rfl,-⟩) | ⟨-,rfl,-⟩) | ⟨-,rfl,-⟩) | ⟨-,rfl,-⟩)
  · exact hfenced
  all_goals decide

theorem fence_rejection_mem {effective : FreshnessPolicy} :
    (policy.fence generation context routes effective e).rejection ∈
      DivergenceClass.none :: exclusionClasses := by
  simp only [fence]
  split_ifs with hrejected
  · exact List.mem_cons_of_mem _ (fencingClasses_subset (selectPrimary_mem hrejected))
  · exact List.mem_cons_self

theorem judgeEvidence_rejection_mem :
    (policy.judgeEvidence limits generation context routes e).rejection ∈
      DivergenceClass.none :: exclusionClasses := by
  unfold judgeEvidence
  split
  · show DivergenceClass.evidenceUnknown ∈ _
    decide
  · split
    · exact fence_rejection_mem
    · split
      · show DivergenceClass.authorityInsufficient ∈ _
        decide
      · split_ifs
        · show DivergenceClass.authorityInsufficient ∈ _
          decide
        · exact fence_rejection_mem

end ComparisonPolicy

/-- No gate adds a class of another kind, and none takes one away. -/
theorem OutcomeFacts.mem_decideOutcome {f : OutcomeFacts} {policy : ComparisonPolicy} {v : Verdict}
    {c : DivergenceClass} (hc : c ∉ gateClasses) :
    c ∈ (f.decideOutcome policy v).classes ↔ c ∈ v.classes := by
  have hsettle : ∀ {v : Verdict} {outcome : MatchOutcome} {value : DivergenceClass}
      {rationale : List String}, value ∈ gateClasses →
      (c ∈ (v.settle outcome value rationale).classes ↔ c ∈ v.classes) := by
    intro v outcome value rationale hvalue
    have hne : c ≠ value := fun h => hc (h ▸ hvalue)
    simp [Verdict.settle, mem_addClass, hne]
  have hstale : ∀ freshness, stalenessClass freshness ∈ gateClasses := by
    intro freshness
    cases freshness <;> decide
  have hearly : ∀ v : Verdict, (c ∈ (f.surfaceGate v).classes ↔ c ∈ v.classes) ∧
      (c ∈ (f.conflictGate v).classes ↔ c ∈ v.classes) ∧
      (c ∈ (f.freshnessGate v).classes ↔ c ∈ v.classes) ∧
      (c ∈ (f.divergenceGate v).classes ↔ c ∈ v.classes) := by
    intro v
    unfold surfaceGate conflictGate freshnessGate divergenceGate
    refine ⟨?_,?_,?_,?_⟩ <;> split_ifs <;>
      first | rfl | exact hsettle (by decide) | exact hsettle (hstale _)
  have hlate : ∀ v : Verdict, (c ∈ (f.ambiguityGate policy v).classes ↔ c ∈ v.classes) ∧
      (c ∈ (f.completenessGate v).classes ↔ c ∈ v.classes) ∧
      (c ∈ (f.authorityGate policy v).classes ↔ c ∈ v.classes) ∧
      (c ∈ (f.memberGate v).classes ↔ c ∈ v.classes) ∧
      (c ∈ (f.matchedPathGate v).classes ↔ c ∈ v.classes) := by
    intro v
    unfold ambiguityGate completenessGate authorityGate memberGate matchedPathGate
    refine ⟨?_,?_,?_,?_,?_⟩ <;> split_ifs <;> first | rfl | exact hsettle (by decide)
  unfold decideOutcome
  rw [(hlate _).2.2.2.2, (hlate _).2.2.2.1, (hlate _).2.2.1, (hlate _).2.1, (hlate _).1,
    (hearly _).2.2.2, (hearly _).2.2.1, (hearly _).2.1, (hearly _).1]

theorem perHopClass_mem (e : ExpectedHop) (o : ObservedHop) :
    perHopClass e o ∈ DivergenceClass.none :: differenceClasses := by
  unfold perHopClass
  split_ifs <;> decide

theorem hopDifference_detail_mem (orderViolation : Bool) (expected : List ExpectedHop)
    (observed : List ObservedHop) (i : ℕ) :
    (hopDifference orderViolation expected observed i).detail ∈
      DivergenceClass.none :: differenceClasses := by
  unfold hopDifference
  split
  · show (if _ then DivergenceClass.hopOrderViolation else _) ∈ _
    split_ifs
    · decide
    · exact perHopClass_mem _ _
  · show DivergenceClass.hopUnexpected ∈ _
    decide
  · show DivergenceClass.hopMissing ∈ _
    decide
  · show DivergenceClass.hopMissing ∈ _
    decide

/-- Every reported difference names one of the hop classes. -/
theorem compareReference_detail_mem {structural : Bool} {reference : Option ExpectedPath}
    {observed : List ObservedHop} {d : HopDifference}
    (h : d ∈ (compareReference structural reference observed).1) :
    d.detail ∈ differenceClasses := by
  simp only [compareReference] at h
  split_ifs at h with hs
  · cases reference with
    | none => cases h
    | some path =>
      obtain ⟨hmem,hnamed⟩ := List.mem_filter.mp h
      obtain ⟨i,-,rfl⟩ := List.mem_map.mp hmem
      exact (List.mem_cons.mp (hopDifference_detail_mem _ _ _ i)).resolve_left (by simpa using hnamed)
  · cases h

/-- What is known before any trace is matched comes from the topology, a sequence
gap or an exclusion. -/
theorem mem_openingClasses {topologyMatches gap : Bool} {working : List Working}
    {c : DivergenceClass} (h : c ∈ openingClasses topologyMatches gap working) :
    c = .topologyGenerationMismatch ∨ c = .observationGap ∨ ∃ w ∈ working, c = w.rejection := by
  have hfold : ∀ classes : List DivergenceClass, c ∈ working.foldl
      (fun classes item => addClassIf (!item.accepted) item.rejection classes) classes →
      c ∈ classes ∨ ∃ w ∈ working, c = w.rejection := by
    clear h
    induction working with
    | nil => exact fun _ hmem => Or.inl hmem
    | cons w working ih =>
      intro classes hmem
      rcases ih _ hmem with hbefore | ⟨v,hv,heq⟩
      · rcases mem_addClassIf.mp hbefore with hclasses | ⟨-,heq,-⟩
        · exact Or.inl hclasses
        · exact Or.inr ⟨w,List.mem_cons_self,heq⟩
      · exact Or.inr ⟨v,List.mem_cons_of_mem _ hv,heq⟩
  unfold openingClasses at h
  rcases mem_addClassIf.mp h with hmem | ⟨-,heq,-⟩
  · rcases hfold _ hmem with hmem | hrejected
    · rcases mem_addClassIf.mp hmem with hnil | ⟨-,heq,-⟩
      · exact absurd hnil List.not_mem_nil
      · exact Or.inl heq
    · exact Or.inr (Or.inr hrejected)
  · exact Or.inr (Or.inl heq)

namespace ComparisonEngine
variable {engine : ComparisonEngine} {request : ComparisonRequest} {context : ComparisonContext}
  {routes : RouteGeneration}

/-- The classes a comparison starts from: the topology, a gap, exclusions. -/
theorem mem_openingClasses_workingOf {topologyMatches gap : Bool} {c : DivergenceClass}
    (hc : c ≠ .none) (h : c ∈ openingClasses topologyMatches gap
      (engine.workingOf request context routes)) :
    c = .observationGap ∨ c ∈ exclusionClasses := by
  rcases mem_openingClasses h with rfl | rfl | ⟨w,hw,rfl⟩
  · exact Or.inr (by decide)
  · exact Or.inl rfl
  · obtain ⟨e,-,rfl⟩ := mem_ranked.mp ((List.destutter_sublist _ _).subset hw)
    exact Or.inr ((List.mem_cons.mp ComparisonPolicy.judgeEvidence_rejection_mem).resolve_left hc)

end ComparisonEngine

end PathObservatory
