import PathObservatory.Engine.Compare

/-! # Which records a comparison accepts

A record is accepted exactly when it passes the checks made on it alone, and an
accepted record enters the classification with its correlated trace and the
freshness its source's policy gives it.
-/
namespace PathObservatory
open Ranking

/-- The freshness policy a comparison applies to a record. -/
def sourcePolicy (policy : ComparisonPolicy) (context : ComparisonContext)
    (e : ObservedPathEvidence) : FreshnessPolicy :=
  match context.sources with
  | none => policy.freshness
  | some registry =>
    match registry.find e.source with
    | .ok source => effectivePolicy policy.freshness source
    | .error _ => policy.freshness

/-- The record names the current authority on every field, and its surface and
its authority can be judged. -/
structure Unfenced (policy : ComparisonPolicy) (authority : AuthorityState)
    (generation : RouteGenerationId) (topology : TopologyGenerationId)
    (e : ObservedPathEvidence) : Prop where
  epoch : e.epoch = authority.epoch
  incarnation : e.claimedIncarnation = authority.incarnation
  revision : e.revision = authority.routeRevision
  routeGeneration : e.routeGeneration.present = true → e.routeGeneration.value = generation
  topologyGeneration : e.topologyGeneration.present = true → e.topologyGeneration.value = topology
  surface : e.surface = .real ∨ e.surface = .synthetic
  authority : policy.requireAdvisoryOrHigher = true → AuthorityClass.advisory ≤ e.authority

/-- The checks an evidence record passes on its own. -/
structure Admissible (policy : ComparisonPolicy) (limits : Limits)
    (generation : RouteGenerationId) (context : ComparisonContext) (routes : RouteGeneration)
    (e : ObservedPathEvidence) : Prop
    extends Unfenced policy context.authority generation routes.topology e where
  valid : e.validate limits = .ok ()
  registered : ∀ registry, context.sources = some registry →
    ∃ source, registry.find e.source = .ok source ∧ e.authority ≤ source.authority

theorem mem_addClassIf {condition : Bool} {value c : DivergenceClass}
    {classes : List DivergenceClass} :
    c ∈ addClassIf condition value classes ↔
      c ∈ classes ∨ (condition = true ∧ c = value ∧ value ≠ .none) := by
  unfold addClassIf
  cases condition with
  | true => simp [mem_addClass]
  | false => simp

/-- A class list grown from nothing names `none` nowhere, so it has no primary
class exactly when it is empty. -/
theorem selectPrimary_eq_none_iff_nil {classes : List DivergenceClass}
    (h : DivergenceClass.none ∉ classes) : selectPrimary classes = .none ↔ classes = [] := by
  rw [selectPrimary_eq_none_iff]
  constructor
  · intro hall
    refine List.eq_nil_iff_forall_not_mem.mpr (fun c hc => h ?_)
    rw [← hall c hc]
    exact hc
  · rintro rfl
    simp

theorem none_not_mem_addClassIf {condition : Bool} {value : DivergenceClass}
    {classes : List DivergenceClass} (h : DivergenceClass.none ∉ classes) :
    DivergenceClass.none ∉ addClassIf condition value classes := by
  rw [mem_addClassIf]
  rintro (hmem | ⟨-,heq,hne⟩)
  · exact h hmem
  · exact hne heq.symm

theorem addClassIf_eq_nil {condition : Bool} {value : DivergenceClass}
    {classes : List DivergenceClass} (hv : value ≠ .none) :
    addClassIf condition value classes = [] ↔ classes = [] ∧ condition = false := by
  constructor
  · intro h
    have hempty : ∀ c, c ∉ addClassIf condition value classes := by simp [h]
    refine ⟨List.eq_nil_iff_forall_not_mem.mpr (fun c hc => ?_),?_⟩
    · exact hempty c (mem_addClassIf.mpr (Or.inl hc))
    · cases hc : condition with
      | false => rfl
      | true => exact absurd (mem_addClassIf.mpr (Or.inr ⟨hc,rfl,hv⟩)) (hempty value)
  · rintro ⟨rfl,rfl⟩
    rfl

namespace ComparisonPolicy
variable {policy : ComparisonPolicy} {limits : Limits} {generation : RouteGenerationId}
  {context : ComparisonContext} {routes : RouteGeneration} {e : ObservedPathEvidence}

theorem none_not_mem_fencingClasses {authority : AuthorityState} {topology : TopologyGenerationId} :
    DivergenceClass.none ∉ policy.fencingClasses authority generation topology e := by
  unfold fencingClasses
  iterate 9 apply none_not_mem_addClassIf
  exact List.not_mem_nil

theorem fencingClasses_eq_nil {authority : AuthorityState} {topology : TopologyGenerationId} :
    policy.fencingClasses authority generation topology e = [] ↔
      Unfenced policy authority generation topology e := by
  have hfenced : (if e.epoch < authority.epoch then DivergenceClass.epochFenced
      else .epochAhead) ≠ .none := by split_ifs <;> decide
  have hsurface : (e.surface ≠ .unsupported ∧ e.surface ≠ .unknown) ↔
      (e.surface = .real ∨ e.surface = .synthetic) := by cases e.surface <;> decide
  have hrevision : (¬ e.revision < authority.routeRevision ∧
      ¬ authority.routeRevision < e.revision) ↔ e.revision = authority.routeRevision := by
    rw [not_lt, not_lt, and_comm]
    exact le_antisymm_iff.symm
  unfold fencingClasses
  simp only [addClassIf_eq_nil hfenced, ne_eq, reduceCtorEq, not_false_eq_true, addClassIf_eq_nil,
    decide_eq_false_iff_not, not_not, not_and, true_and, not_lt (a := e.authority)]
  constructor
  · rintro ⟨⟨⟨⟨⟨⟨⟨⟨hepoch,hinc⟩,hroute⟩,htopo⟩,hlt⟩,hgt⟩,hunsupported⟩,hunknown⟩,hauth⟩
    exact ⟨hepoch,hinc,hrevision.mp ⟨hlt,hgt⟩,hroute,htopo,
      hsurface.mp ⟨hunsupported,hunknown⟩,hauth⟩
  · intro h
    obtain ⟨hlt,hgt⟩ := hrevision.mpr h.revision
    obtain ⟨hunsupported,hunknown⟩ := hsurface.mpr h.surface
    exact ⟨⟨⟨⟨⟨⟨⟨⟨h.epoch,h.incarnation⟩,h.routeGeneration⟩,h.topologyGeneration⟩,hlt⟩,hgt⟩,
      hunsupported⟩,hunknown⟩,h.authority⟩

theorem fence_evidence (effective : FreshnessPolicy) :
    (policy.fence generation context routes effective e).evidence = e := by
  simp only [fence]
  split <;> rfl

/-- An unfenced record is accepted with its correlated trace; a fenced one is
not. -/
theorem fence_cases (policy : ComparisonPolicy) (generation : RouteGenerationId)
    (context : ComparisonContext) (routes : RouteGeneration) (effective : FreshnessPolicy)
    (e : ObservedPathEvidence) :
    (Unfenced policy context.authority generation routes.topology e ∧
      policy.fence generation context routes effective e =
        { evidence := e, freshness := (assessEvidence e context.now effective).state,
          accepted := true, hops := e.hops.map (correlateHop context.topologyIndex),
          reason := (assessEvidence e context.now effective).reason }) ∨
    (¬ Unfenced policy context.authority generation routes.topology e ∧
      (policy.fence generation context routes effective e).accepted = false) := by
  have hprimary : selectPrimary (policy.fencingClasses context.authority generation
      routes.topology e) = .none ↔ Unfenced policy context.authority generation routes.topology e :=
    (selectPrimary_eq_none_iff_nil none_not_mem_fencingClasses).trans fencingClasses_eq_nil
  by_cases h : Unfenced policy context.authority generation routes.topology e
  · refine Or.inl ⟨h,?_⟩
    have hnil := fencingClasses_eq_nil.mpr h
    simp only [fence, if_neg (not_not.mpr (hprimary.mpr h))]
    rw [hnil]
  · refine Or.inr ⟨h,?_⟩
    simp only [fence, if_pos (mt hprimary.mp h)]

/-- An accepted record as the classification sees it. -/
def acceptedWorking (policy : ComparisonPolicy) (context : ComparisonContext)
    (e : ObservedPathEvidence) : Working where
  evidence := e
  hops := e.hops.map (correlateHop context.topologyIndex)
  freshness := (assessEvidence e context.now (sourcePolicy policy context e)).state
  accepted := true
  reason := (assessEvidence e context.now (sourcePolicy policy context e)).reason

theorem judgeEvidence_evidence (policy : ComparisonPolicy) (limits : Limits)
    (generation : RouteGenerationId) (context : ComparisonContext) (routes : RouteGeneration)
    (e : ObservedPathEvidence) :
    (policy.judgeEvidence limits generation context routes e).evidence = e := by
  unfold judgeEvidence
  split
  · rfl
  · split
    · exact fence_evidence _
    · split
      · rfl
      · split
        · rfl
        · exact fence_evidence _

/-- Judging accepts the admissible records and no others. -/
theorem judgeEvidence_cases (policy : ComparisonPolicy) (limits : Limits)
    (generation : RouteGenerationId) (context : ComparisonContext) (routes : RouteGeneration)
    (e : ObservedPathEvidence) :
    (Admissible policy limits generation context routes e ∧
      policy.judgeEvidence limits generation context routes e =
        acceptedWorking policy context e) ∨
    (¬ Admissible policy limits generation context routes e ∧
      (policy.judgeEvidence limits generation context routes e).accepted = false) := by
  unfold judgeEvidence
  split
  · rename_i error hvalid
    exact Or.inr ⟨fun h => by simp [h.valid] at hvalid,rfl⟩
  · rename_i hvalid
    split
    · rename_i hsources
      rcases fence_cases policy generation context routes policy.freshness e with
        ⟨hopen,heq⟩ | ⟨hfenced,hrejected⟩
      · refine Or.inl ⟨⟨hopen,hvalid,by simp [hsources]⟩,?_⟩
        simp only [heq, acceptedWorking, sourcePolicy, hsources]
      · exact Or.inr ⟨fun h => hfenced h.toUnfenced,hrejected⟩
    · rename_i registry hsources
      split
      · rename_i hfind
        refine Or.inr ⟨fun h => ?_,rfl⟩
        obtain ⟨source,hs,-⟩ := h.registered registry hsources
        simp [hs] at hfind
      · rename_i source hfind
        split_ifs with hauth
        · refine Or.inr ⟨fun h => ?_,rfl⟩
          obtain ⟨other,hs,hle⟩ := h.registered registry hsources
          obtain rfl : source = other := by simpa [hfind] using hs
          exact absurd hauth (not_lt.mpr hle)
        · rcases fence_cases policy generation context routes
            (effectivePolicy policy.freshness source) e with ⟨hopen,heq⟩ | ⟨hfenced,hrejected⟩
          · refine Or.inl ⟨⟨hopen,hvalid,?_⟩,?_⟩
            · intro other hother
              obtain rfl : registry = other := by simpa [hsources] using hother
              exact ⟨source,hfind,not_lt.mp hauth⟩
            · simp only [heq, acceptedWorking, sourcePolicy, hsources, hfind]
          · exact Or.inr ⟨fun h => hfenced h.toUnfenced,hrejected⟩

end ComparisonPolicy

namespace ComparisonEngine
variable (engine : ComparisonEngine) (request : ComparisonRequest) (context : ComparisonContext)
  (routes : RouteGeneration)

/-- The judgement this engine makes of a record. -/
def judge (e : ObservedPathEvidence) : Working :=
  engine.policy.judgeEvidence engine.limits request.generation context routes e

/-- The engine admits the record on its own. -/
def Admits (e : ObservedPathEvidence) : Prop :=
  Admissible engine.policy engine.limits request.generation context routes e

/-- The records that decide the comparison, best first. -/
def acceptedRecords : List Working := acceptedOf (engine.workingOf request context routes)

variable {engine request context routes}

/-- A resolved subject is classified from its working records. -/
theorem evaluate_of_resolved {group : PathGroup} (hroutes : context.routes = some routes)
    (hgeneration : generationMatches routes request context = true)
    (hgroup : resolveGroup routes request = some group) :
    engine.evaluate request context = engine.compareWorking
      { baseResult request context with
        duplicateEvidence := (engine.ranked request context routes).length -
          (engine.workingOf request context routes).length }
      routes group request context (referencePath routes group request)
      (engine.workingOf request context routes) := by
  have hfilter : context.routes.filter (generationMatches · request context) = some routes := by
    simp [hroutes, hgeneration]
  simp only [evaluate, hfilter, hgroup]

theorem evaluate_of_unresolved (hroutes : context.routes = some routes)
    (hgeneration : generationMatches routes request context = true)
    (hgroup : resolveGroup routes request = none) :
    engine.evaluate request context = unresolvedResult request context routes := by
  have hfilter : context.routes.filter (generationMatches · request context) = some routes := by
    simp [hroutes, hgeneration]
  simp only [evaluate, hfilter, hgroup]

theorem evaluate_of_mismatch
    (hroutes : context.routes.filter (generationMatches · request context) = none) :
    engine.evaluate request context = mismatchResult request context := by
  simp only [evaluate, hroutes]

/-- The outcome does not read what the result was started with. -/
theorem compareWorking_outcome {base other : ComparisonResult} {group : PathGroup}
    {reference : Option ExpectedPath} {working : List Working} :
    (engine.compareWorking base routes group request context reference working).outcome =
      (engine.compareWorking other routes group request context reference working).outcome := by
  unfold compareWorking
  cases acceptedOf working with
  | nil => rfl
  | cons representative rest => rfl

theorem mem_ranked {w : Working} :
    w ∈ engine.ranked request context routes ↔
      ∃ e ∈ request.evidence, engine.judge request context routes e = w := by
  unfold ranked
  rw [engine.sorter.mem_sort, List.mem_map]
  rfl

/-- When the engine admits every record, ranking starts from the records
themselves. -/
theorem workingOf_of_admits
    (h : ∀ e ∈ request.evidence, engine.Admits request context routes e) :
    engine.workingOf request context routes = removeDuplicates
      (engine.sorter.sort (request.evidence.map (engine.policy.acceptedWorking context))) := by
  have hjudge : request.evidence.map (engine.policy.judgeEvidence engine.limits
      request.generation context routes) =
        request.evidence.map (engine.policy.acceptedWorking context) := by
    refine List.map_congr_left (fun e he => ?_)
    rcases ComparisonPolicy.judgeEvidence_cases engine.policy engine.limits request.generation
      context routes e with ⟨-,heq⟩ | ⟨hnot,-⟩
    · exact heq
    · exact absurd (h e he) hnot
  rw [workingOf, ranked, hjudge]

/-- Every accepted record is an admissible record of the request. -/
theorem exists_of_mem_acceptedRecords {w : Working}
    (h : w ∈ engine.acceptedRecords request context routes) :
    ∃ e ∈ request.evidence, engine.Admits request context routes e ∧
      w = engine.policy.acceptedWorking context e := by
  obtain ⟨hworking,haccepted⟩ := List.mem_filter.mp h
  obtain ⟨e,he,rfl⟩ := mem_ranked.mp ((List.destutter_sublist _ _).subset hworking)
  rcases ComparisonPolicy.judgeEvidence_cases engine.policy engine.limits request.generation
    context routes e with ⟨hadmits,heq⟩ | ⟨-,hrejected⟩
  · exact ⟨e,he,hadmits,heq⟩
  · exact absurd (haccepted.symm.trans hrejected) (by decide)

end ComparisonEngine

end PathObservatory
