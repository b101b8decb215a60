import PathObservatory.Library.Survivors
import PathObservatory.Engine.Determinism

/-! # The influence of excluded evidence

Excluded records keep no trace, but they are ranked with the others and their
claims are read for the reference path. They are harmless exactly when they take
no part in the removal of repeats and leave the effect of the reference path as
it is.
-/
namespace PathObservatory
open Ranking ObservedPathEvidence

/-- The fields of a result that the accepted records decide. -/
def ComparisonResult.concluded (r : ComparisonResult) :
    MaybeId .path × Freshness × EvidenceCompleteness × ObservationConsistency × ProofSurface ×
      List HopDifference × Bool × MatchOutcome :=
  (r.matchedPath,r.freshness,r.completeness,r.consistency,r.surface,r.differences,
    r.multipathAmbiguous,r.outcome)

/-- The gates read the outcome of the verdict they are given and nothing else of it: what
two verdicts have in common they keep, when it includes the outcome. -/
theorem OutcomeFacts.decideOutcome_related (f : OutcomeFacts) (policy : ComparisonPolicy)
    {R : Verdict → Verdict → Prop} (houtcome : ∀ {v w}, R v w → v.outcome = w.outcome)
    (hset : ∀ {v w} (outcome : MatchOutcome), R v w →
      R { v with outcome := outcome } { w with outcome := outcome })
    (hsettle : ∀ {v w} (outcome : MatchOutcome) (value : DivergenceClass)
      (rationale : List String), R v w →
        R (v.settle outcome value rationale) (w.settle outcome value rationale))
    {v w : Verdict} (h : R v w) : R (f.decideOutcome policy v) (f.decideOutcome policy w) := by
  have hsurface : ∀ {v w : Verdict}, R v w → R (f.surfaceGate v) (f.surfaceGate w) := by
    intro v w h
    unfold surfaceGate
    split_ifs
    · exact hsettle _ _ _ h
    · exact hsettle _ _ _ h
    · exact h
  have hconflict : ∀ {v w : Verdict}, R v w → R (f.conflictGate v) (f.conflictGate w) := by
    intro v w h
    unfold conflictGate
    rw [houtcome h]
    split_ifs
    · exact hset _ h
    · exact h
  have hfreshness : ∀ {v w : Verdict}, R v w → R (f.freshnessGate v) (f.freshnessGate w) := by
    intro v w h
    unfold freshnessGate
    rw [houtcome h]
    split_ifs
    · exact hsettle _ _ _ h
    · exact h
  have hdivergence : ∀ {v w : Verdict}, R v w → R (f.divergenceGate v) (f.divergenceGate w) := by
    intro v w h
    unfold divergenceGate
    rw [houtcome h]
    split_ifs
    · exact hset _ h
    · exact h
  have hambiguity : ∀ {v w : Verdict}, R v w →
      R (f.ambiguityGate policy v) (f.ambiguityGate policy w) := by
    intro v w h
    unfold ambiguityGate
    rw [houtcome h]
    split_ifs
    · exact hsettle _ _ _ h
    · exact h
  have hcompleteness : ∀ {v w : Verdict}, R v w →
      R (f.completenessGate v) (f.completenessGate w) := by
    intro v w h
    unfold completenessGate
    rw [houtcome h]
    split_ifs
    · exact hsettle _ _ _ h
    · exact h
  have hauthority : ∀ {v w : Verdict}, R v w →
      R (f.authorityGate policy v) (f.authorityGate policy w) := by
    intro v w h
    unfold authorityGate
    rw [houtcome h]
    split_ifs
    · exact h
    · exact hsettle _ _ _ h
    · exact hsettle _ _ _ h
    · exact hsettle _ _ _ h
    · exact h
  have hmember : ∀ {v w : Verdict}, R v w → R (f.memberGate v) (f.memberGate w) := by
    intro v w h
    unfold memberGate
    rw [houtcome h]
    split_ifs
    · exact hsettle _ _ _ h
    · exact h
  have hmatched : ∀ {v w : Verdict}, R v w →
      R (f.matchedPathGate v) (f.matchedPathGate w) := by
    intro v w h
    unfold matchedPathGate
    rw [houtcome h]
    split_ifs
    · exact hsettle _ _ _ h
    · exact h
  exact hmatched (hmember (hauthority (hcompleteness (hambiguity (hdivergence (hfreshness
    (hconflict (hsurface h))))))))

theorem OutcomeFacts.decideOutcome_outcome_congr (f : OutcomeFacts) (policy : ComparisonPolicy)
    {v w : Verdict} (h : v.outcome = w.outcome) :
    (f.decideOutcome policy v).outcome = (f.decideOutcome policy w).outcome :=
  @decideOutcome_related f policy (fun v w => v.outcome = w.outcome) id (fun _ _ => rfl)
    (fun _ _ _ _ => rfl) v w h

/-- The explanations decide nothing. -/
theorem OutcomeFacts.decideOutcome_congr (f : OutcomeFacts) (policy : ComparisonPolicy)
    {v w : Verdict} (houtcome : v.outcome = w.outcome) (hclasses : v.classes = w.classes) :
    (f.decideOutcome policy v).outcome = (f.decideOutcome policy w).outcome ∧
      (f.decideOutcome policy v).classes = (f.decideOutcome policy w).classes :=
  @decideOutcome_related f policy (fun v w => v.outcome = w.outcome ∧ v.classes = w.classes)
    And.left (fun _ h => ⟨rfl,h.2⟩)
    (fun _ value _ h => ⟨rfl,congrArg (addClass · value) h.2⟩) v w ⟨houtcome,hclasses⟩

/-- Two reference paths lead to the same differences and the same completeness. -/
def EffectsAgree (routes : RouteGeneration) (group : PathGroup) (sourceSequenceGap : Bool)
    (representative : Working) (accepted : List Working) (p q : Option ExpectedPath) : Prop :=
  let structural := isStructural (memberPaths routes group) representative accepted
  (compareReference structural p representative.hops).1 =
    (compareReference structural q representative.hops).1 ∧
  ((compareReference structural p representative.hops).2 =
      (compareReference structural q representative.hops).2 ∨
    tracesCompleteness (memberPaths routes group) accepted sourceSequenceGap = .partial_)

theorem tracesCompleteness_cases (members : List ExpectedPath) (accepted : List Working)
    (sourceSequenceGap : Bool) :
    tracesCompleteness members accepted sourceSequenceGap = .partial_ ∨
      tracesCompleteness members accepted sourceSequenceGap = .complete := by
  unfold tracesCompleteness
  split_ifs
  · exact Or.inl rfl
  · exact Or.inr rfl

namespace ComparisonEngine
variable {engine : ComparisonEngine} {request : ComparisonRequest} {context : ComparisonContext}
  {routes : RouteGeneration} {group : PathGroup} {representative : Working}
  {accepted : List Working}

/-- Requests that differ in the offered records conclude alike from the same
accepted records exactly when their reference paths agree in effect. -/
theorem concluded_eq_iff {base base' : ComparisonResult} {opening opening' : List DivergenceClass}
    {rationale rationale' : List String} {evidence : List ObservedPathEvidence}
    {p q : Option ExpectedPath} :
    (engine.withAccepted base opening rationale routes group (request.withEvidence evidence)
        context p representative accepted).concluded =
      (engine.withAccepted base' opening' rationale' routes group request context q
        representative accepted).concluded ↔
      EffectsAgree routes group request.sourceSequenceGap representative accepted p q := by
  have hcompleteness : ∀ flag flag' : Bool,
      ((if flag then EvidenceCompleteness.partial_ else tracesCompleteness
          (memberPaths routes group) accepted request.sourceSequenceGap) =
        (if flag' then .partial_ else tracesCompleteness (memberPaths routes group) accepted
          request.sourceSequenceGap)) ↔
      (flag = flag' ∨ tracesCompleteness (memberPaths routes group) accepted
        request.sourceSequenceGap = .partial_) := by
    intro flag flag'
    rcases tracesCompleteness_cases (memberPaths routes group) accepted request.sourceSequenceGap
      with htraces | htraces <;> cases flag <;> cases flag' <;> simp [htraces]
  constructor
  · intro h
    have hdifferences := congrArg (fun r => r.2.2.2.2.2.1) h
    have hcomplete := congrArg (fun r => r.2.2.1) h
    exact ⟨hdifferences,(hcompleteness _ _).mp hcomplete⟩
  · rintro ⟨hdifferences,hflags⟩
    have hcomplete := (hcompleteness _ _).mpr hflags
    have hfacts : (classify routes group (request.withEvidence evidence) p representative
          accepted).facts (topologyMatches routes context) representative group
            (memberPaths routes group) =
        (classify routes group request q representative accepted).facts
          (topologyMatches routes context) representative group (memberPaths routes group) := by
      simp only [Classification.facts, classify, Classification.conflicting,
        Classification.multipathAmbiguous, OutcomeFacts.mk.injEq, true_and, and_true]
      exact ⟨rfl,hcomplete⟩
    simp only [ComparisonResult.concluded, withAccepted, hfacts, Prod.mk.injEq]
    refine ⟨rfl,rfl,hcomplete,rfl,rfl,hdifferences,rfl,?_⟩
    exact OutcomeFacts.decideOutcome_outcome_congr _ _ rfl

/-- The checks pass and the request names a subject of the current plan. -/
structure Resolves (engine : ComparisonEngine) (request : ComparisonRequest)
    (context : ComparisonContext) (routes : RouteGeneration) (group : PathGroup) : Prop where
  checked : engine.checkRequest request = .ok ()
  explicit : subjectIsExplicit request = true
  routes_eq : context.routes = some routes
  generation : generationMatches routes request context = true
  group_eq : resolveGroup routes request = some group

/-- Every record of the request as the engine judges it. -/
def judgedRecords (engine : ComparisonEngine) (request : ComparisonRequest)
    (context : ComparisonContext) (routes : RouteGeneration) : List Working :=
  request.evidence.map (engine.judge request context routes)

/-- The request without the records that the engine does not accept. -/
def withoutExcluded (engine : ComparisonEngine) (request : ComparisonRequest)
    (context : ComparisonContext) (routes : RouteGeneration) : ComparisonRequest :=
  request.withEvidence
    (request.evidence.filter (fun e => (engine.judge request context routes e).accepted))

/-- Whatever the sort does with ties, leaving the excluded records out keeps the
accepted records and what is concluded from them. -/
def ExclusionHarmless (engine : ComparisonEngine) (request : ComparisonRequest)
    (context : ComparisonContext) (routes : RouteGeneration) : Prop :=
  ∀ sorter : Sorter ranksBefore,
    (engine.withSorter sorter).acceptedRecords (engine.withoutExcluded request context routes)
        context routes = (engine.withSorter sorter).acceptedRecords request context routes ∧
    ((engine.withSorter sorter).compare (engine.withoutExcluded request context routes)
        context).map ComparisonResult.concluded =
      ((engine.withSorter sorter).compare request context).map ComparisonResult.concluded

/-- The claims of the excluded records leave the effect of the reference path on
the representative as it is. -/
def ReferenceUnmoved (engine : ComparisonEngine) (request : ComparisonRequest)
    (context : ComparisonContext) (routes : RouteGeneration) (group : PathGroup) : Prop :=
  let reduced := engine.withoutExcluded request context routes
  ∀ representative, (engine.acceptedRecords reduced context routes).head? = some representative →
    EffectsAgree routes group request.sourceSequenceGap representative
      (engine.acceptedRecords reduced context routes) (referencePath routes group reduced)
      (referencePath routes group request)

theorem judge_accepted_iff {e : ObservedPathEvidence} :
    (engine.judge request context routes e).accepted = true ↔
      engine.Admits request context routes e := by
  rcases ComparisonPolicy.judgeEvidence_cases engine.policy engine.limits request.generation
    context routes e with ⟨hadmits,heq⟩ | ⟨hnot,hrejected⟩
  · exact iff_of_true (congrArg Working.accepted heq) hadmits
  · exact iff_of_false (fun h => absurd (h.symm.trans hrejected) (by decide)) hnot

theorem acceptedRecords_eq (sorter : Sorter ranksBefore) :
    (engine.withSorter sorter).acceptedRecords request context routes =
      (removeDuplicates (sorter.sort (engine.judgedRecords request context routes))).filter
        (·.accepted) := rfl

/-- Of the reduced request every record that survives is accepted. -/
theorem acceptedRecords_withoutExcluded (sorter : Sorter ranksBefore) :
    (engine.withSorter sorter).acceptedRecords (engine.withoutExcluded request context routes)
        context routes =
      removeDuplicates (sorter.sort
        ((engine.judgedRecords request context routes).filter (·.accepted))) := by
  have hjudged : engine.judgedRecords (engine.withoutExcluded request context routes) context
      routes = (engine.judgedRecords request context routes).filter (·.accepted) := by
    unfold judgedRecords
    rw [List.filter_map]
    rfl
  rw [acceptedRecords_eq, hjudged, List.filter_eq_self]
  intro w hw
  have hmem := sorter.mem_sort.mp ((List.destutter_sublist _ _).subset hw)
  exact (List.mem_filter.mp hmem).2

/-- Whether a request resolves does not depend on how records are sorted. -/
theorem Resolves.withSorter (h : engine.Resolves request context routes group)
    (sorter : Sorter ranksBefore) :
    (engine.withSorter sorter).Resolves request context routes group :=
  ⟨h.checked,h.explicit,h.routes_eq,h.generation,h.group_eq⟩

theorem Resolves.withoutExcluded (h : engine.Resolves request context routes group) :
    engine.Resolves (engine.withoutExcluded request context routes) context routes group where
  checked := by
    obtain ⟨hpolicy,hvalid,hbound⟩ := checkRequest_eq_ok.mp h.checked
    exact checkRequest_eq_ok.mpr ⟨hpolicy,hvalid,(List.length_filter_le _ _).trans hbound⟩
  explicit := h.explicit
  routes_eq := h.routes_eq
  generation := h.generation
  group_eq := by
    have hexplicit := h.explicit
    rw [← h.group_eq]
    unfold resolveGroup
    simp only [subjectIsExplicit, Bool.or_eq_true] at hexplicit
    by_cases hgroup : request.group.present = true
    · rw [if_pos hgroup]
      exact if_pos hgroup
    · have hpath := hexplicit.resolve_left hgroup
      rw [if_neg hgroup, if_pos hpath]
      exact (if_neg hgroup).trans (if_pos hpath)

/-- A resolved comparison with accepted records concludes from them. -/
theorem Resolves.compare_concluded (h : engine.Resolves request context routes group)
    (haccepted : (engine.acceptedRecords request context routes).head? = some representative) :
    ∃ base opening rationale, (engine.compare request context).map ComparisonResult.concluded =
      .ok (engine.withAccepted base opening rationale routes group request context
        (referencePath routes group request) representative
        (engine.acceptedRecords request context routes)).concluded := by
  have hcompare : (engine.compare request context).map ComparisonResult.concluded =
      .ok (engine.evaluate request context).concluded := by
    obtain ⟨hpolicy,hvalid,hbound⟩ := checkRequest_eq_ok.mp h.checked
    rw [compare_eq_ok.mpr ⟨hpolicy,hvalid,hbound,rfl⟩]
    rfl
  obtain ⟨rest,hrest⟩ := List.head?_eq_some_iff.mp haccepted
  have hworking : acceptedOf (engine.workingOf request context routes) =
      representative :: rest := hrest
  rw [hcompare, hrest, evaluate_of_resolved h.routes_eq h.generation h.group_eq]
  simp only [compareWorking, hworking]
  exact ⟨_,_,_,rfl⟩

theorem acceptedRecords_withoutExcluded_ne_nil
    (h : ∃ e ∈ request.evidence, engine.Admits request context routes e) :
    engine.acceptedRecords (engine.withoutExcluded request context routes) context routes ≠ [] := by
  obtain ⟨e,he,hadmits⟩ := h
  have hmem : engine.judge request context routes e ∈
      (engine.judgedRecords request context routes).filter (·.accepted) :=
    List.mem_filter.mpr ⟨List.mem_map_of_mem he,judge_accepted_iff.mpr hadmits⟩
  intro hnil
  rw [show engine.acceptedRecords _ context routes = _ from
    acceptedRecords_withoutExcluded engine.sorter] at hnil
  cases hsort : engine.sorter.sort
      ((engine.judgedRecords request context routes).filter (·.accepted)) with
  | nil =>
    rw [← engine.sorter.mem_sort, hsort] at hmem
    cases hmem
  | cons first rest =>
    rw [hsort] at hnil
    exact List.destutter'_ne_nil rest _ hnil

/-- Excluded evidence has no influence exactly when there is none, or when it
disturbs neither the ranking nor the reference path. -/
theorem exclusion_harmless_iff (engine : ComparisonEngine) (request : ComparisonRequest)
    (context : ComparisonContext) (routes : RouteGeneration) (group : PathGroup)
    (hresolves : engine.Resolves request context routes group)
    (hsome : ∃ e ∈ request.evidence, engine.Admits request context routes e) :
    engine.ExclusionHarmless request context routes ↔
      (∀ e ∈ request.evidence, engine.Admits request context routes e) ∨
      (Undisturbed rankKey (fun w : Working => w.evidence.id) (·.accepted)
          (engine.judgedRecords request context routes) ∧
        engine.ReferenceUnmoved request context routes group) := by
  have hreduced := hresolves.withoutExcluded
  obtain ⟨representative,hrepresentative⟩ := Option.isSome_iff_exists.mp
    (List.isSome_head?.mpr (acceptedRecords_withoutExcluded_ne_nil hsome))
  constructor
  · intro hharmless
    by_cases hall : ∀ e ∈ request.evidence, engine.Admits request context routes e
    · exact Or.inl hall
    refine Or.inr ⟨?_,fun first hfirst => ?_⟩
    · have hne : (engine.judgedRecords request context routes).filter (·.accepted) ≠
          engine.judgedRecords request context routes := by
        intro hself
        refine hall (fun e he => judge_accepted_iff.mp ?_)
        exact List.filter_eq_self.mp hself _ (List.mem_map_of_mem he)
      refine (undisturbed_iff ranksBefore_ranksBy namedByRank hne).mp (fun sorter => ?_)
      have haccepted := (hharmless sorter).1
      rw [acceptedRecords_withoutExcluded] at haccepted
      exact haccepted.symm
    · obtain ⟨haccepted,hconcluded⟩ := hharmless engine.sorter
      have hsame : engine.acceptedRecords (engine.withoutExcluded request context routes) context
          routes = engine.acceptedRecords request context routes := haccepted
      have hfull := hfirst
      rw [hsame] at hfull
      obtain ⟨base,opening,rationale,hleft⟩ := hreduced.compare_concluded hfirst
      obtain ⟨base',opening',rationale',hright⟩ := hresolves.compare_concluded hfull
      have hequal := Except.ok.inj (hleft.symm.trans (hconcluded.trans hright))
      rw [← hsame] at hequal
      exact concluded_eq_iff.mp hequal
  · rintro (hall | ⟨hranking,hreference⟩) sorter
    · have hself : engine.withoutExcluded request context routes = request := by
        unfold withoutExcluded
        rw [List.filter_eq_self.mpr (fun e he => judge_accepted_iff.mpr (hall e he))]
        rfl
      rw [hself]
      exact ⟨rfl,rfl⟩
    · have hstable : ∀ s t : Sorter ranksBefore,
          (engine.withSorter s).acceptedRecords request context routes =
            (engine.withSorter t).acceptedRecords
              (engine.withoutExcluded request context routes) context routes := by
        intro s t
        rw [acceptedRecords_withoutExcluded, acceptedRecords_eq]
        exact hranking.survivors_eq ranksBefore_ranksBy namedByRank s t
      have hfirst : (engine.withSorter sorter).acceptedRecords
          (engine.withoutExcluded request context routes) context routes =
            engine.acceptedRecords (engine.withoutExcluded request context routes) context
              routes := (hstable sorter sorter).symm.trans (hstable sorter engine.sorter)
      have hfull : (engine.withSorter sorter).acceptedRecords request context routes =
          engine.acceptedRecords (engine.withoutExcluded request context routes) context routes :=
        hstable sorter engine.sorter
      refine ⟨hfirst.trans hfull.symm,?_⟩
      obtain ⟨base,opening,rationale,hleft⟩ :=
        (hreduced.withSorter sorter).compare_concluded (hfirst.symm ▸ hrepresentative)
      obtain ⟨base',opening',rationale',hright⟩ :=
        (hresolves.withSorter sorter).compare_concluded (hfull.symm ▸ hrepresentative)
      rw [hleft, hright, hfirst, hfull]
      exact congrArg Except.ok (concluded_eq_iff.mpr (hreference representative hrepresentative))

theorem sample_resolves {evidence : List ObservedPathEvidence} (h : evidence.length ≤ 4096) :
    sampleEngine.Resolves (sampleRequest evidence) sampleContext sampleRoutes sampleGroup where
  checked := checkRequest_eq_ok.mpr ⟨rfl,rfl,h⟩
  explicit := rfl
  routes_eq := rfl
  generation := sample_generation
  group_eq := sample_resolveGroup evidence

/-- A record of a later revision than the current one. -/
def aheadEvidence : ObservedPathEvidence :=
  { sampleContent 2 1 (sampleTrace 7 [1,2,3]) with revision := ⟨2⟩ }.seal_

def fencedEvidence : List ObservedPathEvidence :=
  [sampleEvidence 1 1 (sampleTrace 7 [1,2,3]),aheadEvidence]

/-- A fenced record with an identity of its own is harmless. -/
theorem exclusion_harmless_iff_sample :
    sampleEngine.ExclusionHarmless (sampleRequest fencedEvidence) sampleContext sampleRoutes := by
  have hadmits : sampleEngine.Admits (sampleRequest fencedEvidence) sampleContext sampleRoutes
      (sampleEvidence 1 1 (sampleTrace 7 [1,2,3])) := sample_admits (by decide)
  have hne : (sampleEvidence 1 1 (sampleTrace 7 [1,2,3])).id ≠ aheadEvidence.id := by
    decide +kernel
  refine (exclusion_harmless_iff sampleEngine (sampleRequest fencedEvidence) sampleContext
    sampleRoutes sampleGroup (sample_resolves (by decide))
    ⟨_,List.mem_cons_self,hadmits⟩).mpr (Or.inr ⟨Undisturbed.of_names_inj ?_ namedByRank,?_⟩)
  · simp only [judgedRecords, sampleRequest, fencedEvidence, List.map_cons, List.map_nil,
      List.mem_cons, List.not_mem_nil, or_false, forall_eq_or_imp, forall_eq, judge,
      ComparisonPolicy.judgeEvidence_evidence]
    exact ⟨⟨fun _ => trivial,fun h => absurd h hne⟩,fun h => absurd h.symm hne,fun _ => trivial⟩
  · intro representative _
    have hclaimed : (claimedPath sampleRoutes sampleGroup ⟨⟨1⟩⟩).isSome = true := by decide
    obtain ⟨path,hpath⟩ := Option.isSome_iff_exists.mp hclaimed
    have hfilter : fencedEvidence.filter (fun e => (sampleEngine.judge
        (sampleRequest fencedEvidence) sampleContext sampleRoutes e).accepted) =
          sampleEvidence 1 1 (sampleTrace 7 [1,2,3]) :: [aheadEvidence].filter (fun e =>
            (sampleEngine.judge (sampleRequest fencedEvidence) sampleContext sampleRoutes
              e).accepted) := List.filter_cons_of_pos (judge_accepted_iff.mpr hadmits)
    have hreduced : referencePath sampleRoutes sampleGroup (sampleEngine.withoutExcluded
        (sampleRequest fencedEvidence) sampleContext sampleRoutes) = some path :=
      (congrArg (fun evidence => referencePath sampleRoutes sampleGroup
        ((sampleRequest []).withEvidence evidence)) hfilter).trans
          (referencePath_of_claim rfl hpath)
    have hfull : referencePath sampleRoutes sampleGroup
        ((sampleRequest []).withEvidence fencedEvidence) = some path :=
      referencePath_of_claim rfl hpath
    rw [hreduced, show referencePath sampleRoutes sampleGroup (sampleRequest fencedEvidence) =
      some path from hfull]
    exact ⟨rfl,Or.inl rfl⟩

/-- A record that claims full authority under the identity of the genuine one. -/
def genuineEvidence : ObservedPathEvidence :=
  { sampleContent 1 1 (sampleTrace 7 [1,2,3]) with authority := .advisory }.seal_

def forgedEvidence : ObservedPathEvidence :=
  { sampleContent 2 1 (sampleTrace 7 [1,2,3]) with id := genuineEvidence.id }

theorem genuineEvidence_admitted {request : ComparisonRequest} :
    sampleEngine.Admits request sampleContext sampleRoutes genuineEvidence where
  epoch := rfl
  incarnation := rfl
  revision := rfl
  routeGeneration := nofun
  topologyGeneration := nofun
  surface := Or.inl rfl
  authority := fun _ => le_refl AuthorityClass.advisory
  valid := ObservedPathEvidence.validate_seal (by decide)
  registered := by
    intro registry hregistry
    cases hregistry

theorem forgedEvidence_excluded {request : ComparisonRequest} :
    ¬ sampleEngine.Admits request sampleContext sampleRoutes forgedEvidence := by
  intro h
  have hstated : ¬ (¬ forgedEvidence.id.valid ∨
      forgedEvidence.computeEvidenceId = forgedEvidence.id) := by decide +kernel
  have hvalid := h.valid
  unfold validate at hvalid
  simp only [↓require_bind_eq_ok] at hvalid
  obtain ⟨-,-,-,-,-,-,-,-,-,-,hid,-⟩ := hvalid
  exact hstated (of_decide_eq_true hid)

/-- A rejected record displaces the one of its identity that ranks after it. -/
theorem sample_displaced {e f : ObservedPathEvidence} (hid : e.id = f.id)
    (hevidence : request.evidence = [e,f])
    (hrejected : (sampleEngine.judge request context routes e).accepted = false)
    (hrank : ranksBefore (sampleEngine.judge request context routes f)
      (sampleEngine.judge request context routes e) = false) :
    sampleEngine.acceptedRecords request context routes = [] := by
  have hjudged : sampleEngine.judgedRecords request context routes =
      [sampleEngine.judge request context routes e,sampleEngine.judge request context routes f] := by
    simp [judgedRecords, hevidence]
  have hsort : sampleEngine.sorter.sort (sampleEngine.judgedRecords request context routes) =
      [sampleEngine.judge request context routes e,sampleEngine.judge request context routes f] := by
    rw [hjudged]
    exact Sorter.insertion_pair ranksBefore_ranksBy hrank
  have hsame : ¬ ((sampleEngine.judge request context routes e).evidence.id ≠
      (sampleEngine.judge request context routes f).evidence.id) := by
    simpa only [judge, ComparisonPolicy.judgeEvidence_evidence, not_not] using hid
  have hrecords : sampleEngine.acceptedRecords request context routes = (removeDuplicates
      (sampleEngine.sorter.sort (sampleEngine.judgedRecords request context routes))).filter
        (·.accepted) := rfl
  rw [hrecords, hsort]
  have hone : removeDuplicates [sampleEngine.judge request context routes e,
      sampleEngine.judge request context routes f] = [sampleEngine.judge request context routes e] :=
    (List.destutter_pair _).trans (if_neg hsame)
  rw [hone, List.filter_singleton, hrejected]
  rfl

/-- An invalid record that copies the identity of the genuine one displaces it. -/
theorem forged_identity_displaces_genuine :
    ¬ sampleEngine.ExclusionHarmless (sampleRequest [forgedEvidence,genuineEvidence])
      sampleContext sampleRoutes := by
  intro h
  have hfull : sampleEngine.acceptedRecords (sampleRequest [forgedEvidence,genuineEvidence])
      sampleContext sampleRoutes = [] := by
    refine sample_displaced (e := forgedEvidence) (f := genuineEvidence) rfl rfl ?_ ?_
    · rw [← Bool.not_eq_true, judge_accepted_iff]
      exact forgedEvidence_excluded
    · simp only [ranksBefore, judge, ComparisonPolicy.judgeEvidence_evidence]
      rfl
  exact acceptedRecords_withoutExcluded_ne_nil
    ⟨genuineEvidence,List.mem_cons_of_mem _ List.mem_cons_self,genuineEvidence_admitted⟩
    ((h sampleEngine.sorter).1.trans hfull)

end ComparisonEngine

end PathObservatory
