import Mathlib.Data.Finset.Dedup
import PathObservatory.Engine.Correlation
import PathObservatory.Engine.Exclusion

/-! # Comparing against the index of another topology

Whether the topology is the one of the plan is noted and gates a match. The links of
its index are filled in all the same, so it decides whatever the traces then say
otherwise.
-/
namespace PathObservatory
open Ranking

namespace OutcomeFacts
variable {f : OutcomeFacts} {policy : ComparisonPolicy} {v : Verdict}

/-- The facts with other findings about the members. -/
def rematched (f : OutcomeFacts) (structural representativeMatches anyMatchesMember : Bool) :
    OutcomeFacts :=
  { f with structural := structural, representativeMatches := representativeMatches,
           anyMatchesMember := anyMatchesMember }

/-- In a plan with members the last two gates ask for a named path and no more. -/
theorem memberGate_matchedPathGate (hmembers : f.groupHasMembers = f.planHasMembers)
    (hnamed : f.matchedPath.present = true → f.representativeMatches = true) :
    f.matchedPathGate (f.memberGate v) =
      if v.outcome = .match_ ∧ f.matchedPath.present = false ∧ f.planHasMembers = true then
        v.settle .indeterminate .evidenceUnknown []
      else v := by
  unfold matchedPathGate memberGate
  rw [hmembers]
  cases hpresent : f.matchedPath.present with
  | true => simp [hnamed hpresent]
  | false =>
    by_cases hmember : v.outcome = .match_ ∧ f.planHasMembers = true ∧
        ¬ f.representativeMatches = true ∧ ¬ f.anyMatchesMember = true
    · rw [if_pos hmember]
      simp [Verdict.settle, hmember.1, hmember.2.1]
    · rw [if_neg hmember]
      simp

/-- Divergence is asked for only when the gates before have let the verdict through. -/
theorem decideOutcome_rematched {structural representativeMatches anyMatchesMember : Bool}
    (hmembers : f.groupHasMembers = f.planHasMembers)
    (hnamed : f.matchedPath.present = true → f.representativeMatches = true ∧
      representativeMatches = true)
    (hsame : f.conflicting = false → f.freshness = .fresh → structural = f.structural) :
    (f.rematched structural representativeMatches anyMatchesMember).decideOutcome policy v =
      f.decideOutcome policy v := by
  have hdivergence : (f.rematched structural representativeMatches anyMatchesMember).divergenceGate
      (f.freshnessGate (f.conflictGate (f.surfaceGate v))) =
        f.divergenceGate (f.freshnessGate (f.conflictGate (f.surfaceGate v))) := by
    unfold divergenceGate
    by_cases hmatch : (f.freshnessGate (f.conflictGate (f.surfaceGate v))).outcome = .match_
    · obtain ⟨hconflict,hfresh⟩ := freshnessGate_eq_match.mp hmatch
      obtain ⟨-,hagreeing⟩ := conflictGate_eq_match.mp hconflict
      have hstructural := hsame hagreeing (hfresh.resolve_left (by simp [hagreeing]))
      rw [show (f.rematched structural representativeMatches anyMatchesMember).structural =
        f.structural from hstructural]
    · rw [if_neg (fun h => hmatch h.1), if_neg (fun h => hmatch h.1)]
  unfold decideOutcome
  rw [memberGate_matchedPathGate hmembers (fun h => (hnamed h).1),
    @memberGate_matchedPathGate (f.rematched structural representativeMatches anyMatchesMember) _
      hmembers (fun h => (hnamed h).2)]
  exact congrArg (fun w => if (f.authorityGate policy (f.completenessGate
      (f.ambiguityGate policy w))).outcome = .match_ ∧ f.matchedPath.present = false ∧
        f.planHasMembers = true then
      (f.authorityGate policy (f.completenessGate (f.ambiguityGate policy w))).settle
        .indeterminate .evidenceUnknown []
    else f.authorityGate policy (f.completenessGate (f.ambiguityGate policy w))) hdivergence

end OutcomeFacts

section Alike
variable {index : Option TopologyIndex} {routes : RouteGeneration} {group : PathGroup}
  {request : ComparisonRequest} {reference : Option ExpectedPath} {hops : List ObservedHop}
  {structural structural' : Bool} {representative : Working} {accepted : List Working}

theorem compareReference_correlated_iff (hmono : structural = true → structural' = true)
    (hbound : ∀ path, reference = some path → max path.hops.length hops.length ≤ 2 ^ 32) :
    (compareReference structural' reference (correlateTrace index hops)).1 =
        (compareReference structural reference hops).1 ↔
      (structural' = true → ∀ path, reference = some path →
        ∀ i, DiffersAt path (correlateTrace index hops) i →
          structural = true ∧ (correlateTrace index hops)[i]? = hops[i]?) := by
  cases reference with
  | none => simp [compareReference]
  | some path =>
    cases structural with
    | true =>
      have hiff := @hopDifferences_correlated_iff index path hops (hbound path rfl)
      simpa [compareReference, hmono rfl] using hiff
    | false =>
      cases structural' with
      | false => simp [compareReference]
      | true =>
        simp only [compareReference, Option.map_some, Option.getD_some, if_true,
          Option.some.injEq, forall_eq', forall_const, Bool.false_eq_true, false_and, if_false]
        rw [List.eq_nil_iff_forall_not_mem]
        constructor
        · intro hnone i hi
          exact hnone _ (mem_hopDifferences.mpr ⟨i,hi,rfl⟩)
        · intro hnone d hd
          obtain ⟨i,hi,-⟩ := mem_hopDifferences.mp hd
          exact hnone i hi

theorem compareReference_open_of_correlated
    (hsame : (compareReference structural' reference (correlateTrace index hops)).1 =
      (compareReference structural reference hops).1)
    (h : (compareReference structural' reference (correlateTrace index hops)).2 = true) :
    (compareReference structural reference hops).2 = true := by
  obtain ⟨path,hpath,hopen⟩ := (Option.any_eq_true _ _).mp h
  refine (Option.any_eq_true _ _).mpr ⟨path,hpath,?_⟩
  show linkIsUnresolved path hops (compareReference structural reference hops).1 = true
  rw [← hsame]
  exact linkIsUnresolved_of_correlated hopen

/-- A representative that contradicts the plan as stated still does. -/
theorem isStructural_correlated {members : List ExpectedPath}
    (h : isStructural members representative accepted = true) :
    isStructural members (representative.correlated index)
      (accepted.map (Working.correlated index)) = true := by
  unfold isStructural at h ⊢
  obtain ⟨hnone,hobserved⟩ := Bool.and_eq_true_iff.mp h
  refine Bool.and_eq_true_iff.mpr ⟨?_,?_⟩
  · rw [Bool.not_eq_true', List.any_map, List.any_eq_false] at *
    exact fun w hw hmatches => hnone w hw (Working.matchesAMember_of_correlated hmatches)
  · simpa [Working.correlated] using hobserved

/-- The matched path is that of the first member the representative agrees with. -/
theorem classify_matchedPath : (classify routes group request reference representative
      accepted).matchedPath =
    ((memberPaths routes group).find? representative.agreesWith).elim {} (⟨·.id⟩) := by
  have hhead := Working.head?_matchedMembers (memberPaths routes group) representative
  unfold classify
  dsimp only
  cases hfind : (memberPaths routes group).find? representative.agreesWith with
  | none =>
    rw [hfind] at hhead
    rw [List.head?_eq_none_iff.mp hhead]
    rfl
  | some member =>
    rw [hfind] at hhead
    obtain ⟨rest,hrest⟩ := List.head?_eq_some_iff.mp hhead
    rw [hrest]
    rfl

/-- The path that is named does not change exactly when the correlated trace agrees with
the first member that the stated one agrees with. -/
theorem matchedPath_correlated_iff (hf : routes.Finalised) {records : List Working} :
    (classify routes group request reference (representative.correlated index)
        records).matchedPath =
      (classify routes group request reference representative accepted).matchedPath ↔
    ∀ member, (memberPaths routes group).find? representative.agreesWith = some member →
      (representative.correlated index).agreesWith member = true := by
  rw [classify_matchedPath, classify_matchedPath]
  constructor
  · intro hsame member hmember
    have hfound : ∀ {member}, member ∈ memberPaths routes group →
        member.id.valid = true ∧ routes.findPath member.id = some member := by
      intro member hmem
      obtain ⟨id,-,hid⟩ := List.mem_filterMap.mp hmem
      exact ⟨(ComparisonEngine.wellFormed_of_mem_memberPaths hf hmem).id_valid,findPath_self hid⟩
    obtain ⟨hvalid,hstated⟩ := hfound (List.mem_of_find?_eq_some hmember)
    rw [hmember] at hsame
    cases hfilled : (memberPaths routes group).find?
        (representative.correlated index).agreesWith with
    | none =>
      rw [hfilled] at hsame
      have hid := congrArg MaybeId.value hsame
      rw [← show ({} : PathId) = member.id from hid] at hvalid
      cases hvalid
    | some other =>
      rw [hfilled] at hsame
      obtain ⟨-,hother⟩ := hfound (List.mem_of_find?_eq_some hfilled)
      have hid : other.id = member.id := congrArg MaybeId.value hsame
      rw [hid, hstated] at hother
      rw [Option.some.inj hother]
      exact List.find?_some hfilled
  · intro hnamed
    rw [Working.find?_correlated hnamed]

end Alike

/-- The fields of a result that the traces decide. -/
def ComparisonResult.decision (r : ComparisonResult) :
    MatchOutcome × MaybeId .path × List HopDifference × ObservationConsistency ×
      EvidenceCompleteness × Finset DivergenceClass :=
  (r.outcome,r.matchedPath,r.differences,r.consistency,r.completeness,r.classes.toFinset)

/-- The context without the index that links are correlated against. -/
def ComparisonContext.withoutIndex (context : ComparisonContext) : ComparisonContext :=
  { context with topologyIndex := none }

/-- The links that the index fills in leave standing what the accepted records say without
them: whether those of one path agree, whether they follow several members, which member
the representative follows first, whether and where it contradicts the plan, whether it
leaves a declared link open and whether some record is incomplete. -/
structure LinksImmaterial (index : Option TopologyIndex) (routes : RouteGeneration)
    (group : PathGroup) (request : ComparisonRequest) (representative : Working)
    (accepted : List Working) : Prop where
  agreeing : Agreeing accepted → Agreeing (accepted.map (Working.correlated index))
  multipath : Agreeing accepted → 1 < distinctMembers (memberPaths routes group) accepted →
    1 < distinctMembers (memberPaths routes group) (accepted.map (Working.correlated index))
  named : ∀ member, (memberPaths routes group).find? representative.agreesWith = some member →
    (representative.correlated index).agreesWith member = true
  undiverged : Agreeing accepted → (∀ w ∈ accepted, w.freshness = .fresh) →
    isStructural (memberPaths routes group) (representative.correlated index)
      (accepted.map (Working.correlated index)) = true →
    isStructural (memberPaths routes group) representative accepted = true
  -- every hop that a contradiction reports is as the source stated it
  reported : isStructural (memberPaths routes group) (representative.correlated index)
      (accepted.map (Working.correlated index)) = true →
    ∀ path, referencePath routes group request = some path →
      ∀ i, DiffersAt path (correlateTrace index representative.hops) i →
        isStructural (memberPaths routes group) representative accepted = true ∧
          (correlateTrace index representative.hops)[i]? = representative.hops[i]?
  unresolved : (compareReference (isStructural (memberPaths routes group) representative accepted)
      (referencePath routes group request) representative.hops).2 = true →
    (compareReference (isStructural (memberPaths routes group) (representative.correlated index)
      (accepted.map (Working.correlated index))) (referencePath routes group request)
      (correlateTrace index representative.hops)).2 = true
  -- an open link or a gap makes the observation incomplete anyway
  complete : (compareReference (isStructural (memberPaths routes group) representative accepted)
      (referencePath routes group request) representative.hops).2 = false →
    request.sourceSequenceGap = false →
    ((∃ w ∈ accepted, (w.correlated index).isIncomplete (memberPaths routes group) = true) ↔
      ∃ w ∈ accepted, w.isIncomplete (memberPaths routes group) = true)

namespace Classification
variable {c d : Classification}

/-- Two classifications of records with the same surfaces, freshness and claims lead to
the same decision. -/
structure Agrees (c d : Classification) : Prop where
  consistency : c.consistency = d.consistency
  matchedPath : c.matchedPath = d.matchedPath
  structural : d.conflicting = false → d.freshness = .fresh → c.structural = d.structural
  differences : c.differences = d.differences
  linkUnresolved : c.linkUnresolved = d.linkUnresolved
  completeness : c.completeness = d.completeness

theorem consistency_eq_iff (hc : c.surface ≠ .unsupported) (hd : d.surface ≠ .unsupported) :
    c.consistency = d.consistency ↔ c.conflicting = d.conflicting ∧
      (d.conflicting = false → (1 < c.distinct ↔ 1 < d.distinct)) := by
  unfold consistency
  cases hleft : c.conflicting with
  | true =>
    cases hright : d.conflicting with
    | true => simp
    | false =>
      simp only [if_true, Bool.false_eq_true, if_false, hd, reduceCtorEq, false_and, iff_false]
      split_ifs <;> decide
  | false =>
    cases hright : d.conflicting with
    | true =>
      simp only [if_true, Bool.false_eq_true, if_false, hc, reduceCtorEq, false_and, iff_false]
      split_ifs <;> decide
    | false =>
      simp only [Bool.false_eq_true, if_false, hc, hd, true_and, forall_const]
      by_cases hmany : 1 < c.distinct <;> by_cases hmore : 1 < d.distinct <;> simp [hmany, hmore]

end Classification

theorem classify_conflicting {routes : RouteGeneration} {group : PathGroup}
    {request : ComparisonRequest} {reference : Option ExpectedPath} {representative : Working}
    {accepted : List Working} :
    (classify routes group request reference representative accepted).conflicting = false ↔
      Agreeing accepted := by
  unfold Agreeing
  rw [← findConflict_eq_none]
  exact Option.isSome_eq_false_iff.trans Option.isNone_iff_eq_none

/-- An open link or a gap makes the observation incomplete, otherwise the records do. -/
theorem completeness_eq_iff {members : List ExpectedPath} {left right : List Working}
    {gap linkUnresolved : Bool} :
    ((if linkUnresolved then .partial_ else tracesCompleteness members left gap) =
        (if linkUnresolved then EvidenceCompleteness.partial_
          else tracesCompleteness members right gap)) ↔
      (linkUnresolved = false → gap = false →
        (left.any (Working.isIncomplete members) = true ↔
          right.any (Working.isIncomplete members) = true)) := by
  unfold tracesCompleteness
  cases linkUnresolved <;> cases gap <;> cases left.any (Working.isIncomplete members) <;>
    cases right.any (Working.isIncomplete members) <;> simp

section Immaterial
variable {index : Option TopologyIndex} {routes : RouteGeneration} {group : PathGroup}
  {request : ComparisonRequest} {representative : Working} {accepted : List Working}

theorem worstSurface_correlated :
    worstSurface (accepted.map (Working.correlated index)) = worstSurface accepted := by
  unfold worstSurface
  rw [List.foldl_map]
  rfl

theorem worstFreshness_correlated :
    worstFreshness (accepted.map (Working.correlated index)) = worstFreshness accepted := by
  unfold worstFreshness
  rw [List.foldl_map]
  rfl

theorem agrees_iff_immaterial (hf : routes.Finalised)
    (hsurface : worstSurface accepted ≠ .unsupported)
    (hbound : ∀ path, referencePath routes group request = some path →
      max path.hops.length representative.hops.length ≤ 2 ^ 32) :
    (classify routes group request (referencePath routes group request)
        (representative.correlated index) (accepted.map (Working.correlated index))).Agrees
      (classify routes group request (referencePath routes group request) representative
        accepted) ↔
    LinksImmaterial index routes group request representative accepted := by
  have hconsistency := @Classification.consistency_eq_iff
    (classify routes group request (referencePath routes group request)
      (representative.correlated index) (accepted.map (Working.correlated index)))
    (classify routes group request (referencePath routes group request) representative accepted)
    (by rw [← @worstSurface_correlated index] at hsurface; exact hsurface) hsurface
  have hcompleteness := @completeness_eq_iff (memberPaths routes group)
    (accepted.map (Working.correlated index)) accepted request.sourceSequenceGap
  have hincomplete : ((accepted.map (Working.correlated index)).any
      (Working.isIncomplete (memberPaths routes group)) = true ↔
        accepted.any (Working.isIncomplete (memberPaths routes group)) = true) ↔
      ((∃ w ∈ accepted, (w.correlated index).isIncomplete (memberPaths routes group) = true) ↔
        ∃ w ∈ accepted, w.isIncomplete (memberPaths routes group) = true) := by
    rw [List.any_map, List.any_eq_true, List.any_eq_true]
    rfl
  have hmono := @isStructural_correlated index representative accepted (memberPaths routes group)
  have hreported := @compareReference_correlated_iff index (referencePath routes group request)
    representative.hops _ _ hmono hbound
  constructor
  · intro h
    obtain ⟨hconflicting,hdistinct⟩ := hconsistency.mp h.consistency
    refine ⟨?_,?_,?_,?_,?_,?_,?_⟩
    · intro hagreeing
      exact classify_conflicting.mp (hconflicting.trans (classify_conflicting.mpr hagreeing))
    · intro hagreeing
      exact (hdistinct (classify_conflicting.mpr hagreeing)).mpr
    · exact (matchedPath_correlated_iff hf).mp h.matchedPath
    · intro hagreeing hfresh hcontradicts
      have hstructural := h.structural (classify_conflicting.mpr hagreeing)
        (worstFreshness_eq_fresh.mpr hfresh)
      exact hstructural.symm.trans hcontradicts
    · exact hreported.mp h.differences
    · intro hopen
      exact h.linkUnresolved.trans hopen
    · intro hclosed hgap
      have hsame := h.completeness
      unfold classify at hsame
      dsimp only at hsame
      rw [show (compareReference _ _ (representative.correlated index).hops).2 = _ from
        h.linkUnresolved] at hsame
      exact hincomplete.mp (hcompleteness.mp hsame hclosed hgap)
  · intro h
    have hdifferences := hreported.mpr h.reported
    have hlink : (classify routes group request (referencePath routes group request)
        (representative.correlated index)
        (accepted.map (Working.correlated index))).linkUnresolved = (classify routes group request
          (referencePath routes group request) representative accepted).linkUnresolved :=
      Bool.eq_iff_iff.mpr ⟨compareReference_open_of_correlated hdifferences,h.unresolved⟩
    refine ⟨hconsistency.mpr ⟨?_,fun hnone => ?_⟩,(matchedPath_correlated_iff hf).mpr h.named,
      fun hnone hfresh => ?_,hdifferences,hlink,?_⟩
    · refine Bool.eq_iff_iff.mpr (not_iff_not.mp ?_)
      rw [Bool.not_eq_true, Bool.not_eq_true, classify_conflicting, classify_conflicting]
      exact ⟨Agreeing.of_correlated,h.agreeing⟩
    · refine ⟨fun hmany => hmany.trans_le Working.distinctMembers_correlated_le,?_⟩
      exact h.multipath (classify_conflicting.mp hnone)
    · refine Bool.eq_iff_iff.mpr ⟨?_,hmono⟩
      exact h.undiverged (classify_conflicting.mp hnone) (worstFreshness_eq_fresh.mp hfresh)
    · unfold classify
      dsimp only
      rw [show (compareReference _ _ (representative.correlated index).hops).2 = _ from hlink]
      exact hcompleteness.mpr fun hclosed hgap => hincomplete.mpr (h.complete hclosed hgap)

/-- Links are immaterial where none is filled in. -/
theorem linksImmaterial_of_stated (hmem : representative ∈ accepted)
    (h : ∀ w ∈ accepted, correlateTrace index w.hops = w.hops) :
    LinksImmaterial index routes group request representative accepted := by
  have hsame : ∀ w ∈ accepted, w.correlated index = w := by
    intro w hw
    rw [Working.correlated, h w hw]
  have hrecords : accepted.map (Working.correlated index) = accepted :=
    (List.map_congr_left hsame).trans (List.map_id accepted)
  constructor
  · rw [hrecords]
    exact id
  · rw [hrecords]
    exact fun _ => id
  · intro member hmember
    rw [hsame _ hmem]
    exact List.find?_some hmember
  · rw [hrecords, hsame _ hmem]
    exact fun _ _ => id
  · rw [hrecords, hsame _ hmem, h _ hmem]
    exact fun hcontradicts _ _ _ _ => ⟨hcontradicts,rfl⟩
  · rw [hrecords, hsame _ hmem, h _ hmem]
    exact id
  · intro _ _
    exact exists_congr fun w => and_congr_right fun hw => by rw [hsame w hw]

end Immaterial

namespace ComparisonEngine
variable {engine : ComparisonEngine} {request : ComparisonRequest} {context : ComparisonContext}
  {routes : RouteGeneration} {group : PathGroup} {representative : Working}

/-- The index is read for the traces of accepted records and for nothing else. -/
theorem judge_eq_correlated (e : ObservedPathEvidence) :
    engine.judge request context routes e =
      (engine.judge request context.withoutIndex routes e).correlated context.topologyIndex := by
  have hfence : ∀ effective, engine.policy.fence request.generation context routes effective e =
      (engine.policy.fence request.generation context.withoutIndex routes effective e).correlated
        context.topologyIndex := by
    intro effective
    unfold ComparisonPolicy.fence
    dsimp only
    split
    · rename_i hfenced
      split
      · rfl
      · rename_i hopen
        exact absurd hfenced hopen
    · rename_i hopen
      split
      · rename_i hfenced
        exact absurd hfenced hopen
      · simp only [Working.correlated, correlateTrace, List.map_map]
        rfl
  unfold judge ComparisonPolicy.judgeEvidence
  simp only [ComparisonContext.withoutIndex] at hfence ⊢
  split
  · rfl
  · split
    · exact hfence _
    · split
      · rfl
      · split_ifs
        · rfl
        · exact hfence _

/-- The sort looks at the records through the comparator, which does not see the traces, so
the same records come out in the same order. -/
theorem workingOf_eq_correlated (hsorter : engine.sorter.Oblivious) :
    engine.workingOf request context routes =
      (engine.workingOf request context.withoutIndex routes).map
        (Working.correlated context.topologyIndex) := by
  have hjudged : request.evidence.map (engine.judge request context routes) =
      (request.evidence.map (engine.judge request context.withoutIndex routes)).map
        (Working.correlated context.topologyIndex) := by
    rw [List.map_map]
    exact List.map_congr_left fun e _ => judge_eq_correlated e
  have hranked : engine.ranked request context routes =
      (engine.ranked request context.withoutIndex routes).map
        (Working.correlated context.topologyIndex) :=
    (congrArg engine.sorter.sort hjudged).trans (hsorter _ _ fun _ _ _ _ => rfl)
  unfold workingOf
  rw [hranked]
  unfold removeDuplicates
  symm
  exact List.map_destutter fun _ _ _ _ => Iff.rfl

theorem acceptedRecords_eq_correlated (hsorter : engine.sorter.Oblivious) :
    engine.acceptedRecords request context routes =
      (engine.acceptedRecords request context.withoutIndex routes).map
        (Working.correlated context.topologyIndex) := by
  unfold acceptedRecords acceptedOf
  rw [workingOf_eq_correlated hsorter, List.filter_map]
  rfl

theorem Reaches.correlated (hsorter : engine.sorter.Oblivious)
    (h : engine.Reaches request context.withoutIndex routes group representative) :
    engine.Reaches request context routes group
      (representative.correlated context.topologyIndex) where
  policy_valid := h.policy_valid
  generation_valid := h.generation_valid
  bounded := h.bounded
  routes_eq := h.routes_eq
  generation := h.generation
  group_eq := h.group_eq
  representative_eq := by
    rw [acceptedRecords_eq_correlated hsorter, List.head?_map, h.representative_eq]
    rfl

/-- The consistency and the completeness of a result are those of the classification. -/
theorem Reaches.evaluate_observed
    (h : engine.Reaches request context routes group representative) :
    (engine.evaluate request context).consistency =
        (engine.classification request context routes group representative).consistency ∧
      (engine.evaluate request context).completeness =
        (engine.classification request context routes group representative).completeness := by
  obtain ⟨rest,hrest⟩ := List.head?_eq_some_iff.mp h.representative_eq
  have haccepted : acceptedOf (engine.workingOf request context routes) =
      representative :: rest := hrest
  have hclassification : classify routes group request (referencePath routes group request)
      representative (representative :: rest) =
        engine.classification request context routes group representative := by
    rw [classification, hrest]
  rw [evaluate_of_resolved h.routes_eq h.generation h.group_eq]
  constructor <;> simp only [compareWorking, haccepted, withAccepted, hclassification]

theorem openingClasses_correlated {topologyMatches gap : Bool} {index : Option TopologyIndex}
    {working : List Working} :
    openingClasses topologyMatches gap (working.map (Working.correlated index)) =
      openingClasses topologyMatches gap working := by
  unfold openingClasses
  rw [List.foldl_map]
  rfl

theorem pathIsUnknownToPlan_correlated {index : Option TopologyIndex} {accepted : List Working} :
    pathIsUnknownToPlan routes request (accepted.map (Working.correlated index)) =
      pathIsUnknownToPlan routes request accepted := by
  unfold pathIsUnknownToPlan
  simp only [List.any_map]
  rfl

/-- What correlation never changes of a classification. -/
theorem classification_correlated (hsorter : engine.sorter.Oblivious) :
    (engine.classification request context routes group
        (representative.correlated context.topologyIndex)).surface =
      (engine.classification request context.withoutIndex routes group representative).surface ∧
    (engine.classification request context routes group
        (representative.correlated context.topologyIndex)).freshness =
      (engine.classification request context.withoutIndex routes group representative).freshness ∧
    (engine.classification request context routes group
        (representative.correlated context.topologyIndex)).pathUnknown =
      (engine.classification request context.withoutIndex routes group
        representative).pathUnknown := by
  unfold classification
  rw [acceptedRecords_eq_correlated hsorter]
  exact ⟨worstSurface_correlated,worstFreshness_correlated,pathIsUnknownToPlan_correlated⟩

/-- The classes before the gates are those of classifications that agree. -/
theorem classes_of_agrees {c d : Classification} (h : c.Agrees d)
    (hsurface : d.surface ≠ .unsupported) (hsame : c.surface = d.surface)
    (hunknown : c.pathUnknown = d.pathUnknown) (opening : List DivergenceClass) :
    c.classes opening = d.classes opening ∧ c.multipathAmbiguous = d.multipathAmbiguous := by
  obtain ⟨hconflicting,hdistinct⟩ :=
    (Classification.consistency_eq_iff (hsame ▸ hsurface) hsurface).mp h.consistency
  have hambiguous : c.multipathAmbiguous = d.multipathAmbiguous := by
    unfold Classification.multipathAmbiguous
    rw [hconflicting, hsame]
    cases hd : d.conflicting with
    | true => rfl
    | false => rw [decide_eq_decide.mpr (hdistinct hd)]
  unfold Classification.classes
  rw [hconflicting, hambiguous, h.differences, h.linkUnresolved, hunknown]
  exact ⟨rfl,rfl⟩

/-- Results that decide alike come from classifications that agree. -/
theorem Reaches.agrees_of_decision (hsorter : engine.sorter.Oblivious)
    (h : engine.Reaches request context.withoutIndex routes group representative)
    (hsame : (engine.evaluate request context).decision =
      (engine.evaluate request context.withoutIndex).decision) :
    (engine.classification request context routes group
        (representative.correlated context.topologyIndex)).Agrees
      (engine.classification request context.withoutIndex routes group representative) := by
  have hreaches := h.correlated hsorter
  obtain ⟨v,hv,-,hfilled⟩ := evaluate_of_reaches hreaches
  obtain ⟨w,hw,-,hstated⟩ := evaluate_of_reaches h
  obtain ⟨hfilledConsistency,hfilledComplete⟩ := hreaches.evaluate_observed
  obtain ⟨hstatedConsistency,hstatedComplete⟩ := h.evaluate_observed
  obtain ⟨hjudgeable,hknown,-⟩ :=
    @classification_surface engine request context.withoutIndex routes group representative
  obtain ⟨hjudgeable',hknown',-⟩ := @classification_surface engine request context routes group
    (representative.correlated context.topologyIndex)
  obtain ⟨-,hfreshness,-⟩ :=
    @classification_correlated engine request context routes group representative hsorter
  simp only [ComparisonResult.decision, Prod.mk.injEq] at hsame
  obtain ⟨houtcome,hmatched,hdifferences,hconsistency,hcompleteness,hclasses⟩ := hsame
  rw [hfilledConsistency, hstatedConsistency] at hconsistency
  obtain ⟨hconflicting,-⟩ :=
    (Classification.consistency_eq_iff hjudgeable' hjudgeable).mp hconsistency
  refine ⟨hconsistency,?_,fun hagreeing hfresh => ?_,?_,?_,?_⟩
  · exact hfilled.matchedPath.symm.trans (hmatched.trans hstated.matchedPath)
  · have hleft := @OutcomeFacts.decideOutcome_eq_divergent (engine.outcomeFacts request context
      routes group (representative.correlated context.topologyIndex)) engine.policy v hv
    have hright := @OutcomeFacts.decideOutcome_eq_divergent (engine.outcomeFacts request
      context.withoutIndex routes group representative) engine.policy w hw
    rw [← hfilled.outcome, houtcome] at hleft
    rw [← hstated.outcome] at hright
    refine Bool.eq_iff_iff.mpr ⟨fun hstructural => ?_,fun hstructural => ?_⟩
    · exact (hright.mp (hleft.mpr ⟨⟨hjudgeable',hknown'⟩,hconflicting.trans hagreeing,
        hfreshness.trans hfresh,hstructural⟩)).2.2.2
    · exact (hleft.mp (hright.mpr ⟨⟨hjudgeable,hknown⟩,hagreeing,hfresh,hstructural⟩)).2.2.2
  · exact hfilled.differences.symm.trans (hdifferences.trans hstated.differences)
  · refine Bool.eq_iff_iff.mpr ?_
    rw [← (evaluate_shows_reference hreaches).2, ← (evaluate_shows_reference h).2,
      ← List.mem_toFinset, hclasses, List.mem_toFinset]
  · exact hfilledComplete.symm.trans (hcompleteness.trans hstatedComplete)

/-- The gates read the same facts of classifications that agree, but for what the records
say about the members. -/
theorem outcomeFacts_of_agrees (hsorter : engine.sorter.Oblivious)
    (h : (engine.classification request context routes group
        (representative.correlated context.topologyIndex)).Agrees
      (engine.classification request context.withoutIndex routes group representative)) :
    engine.outcomeFacts request context routes group
        (representative.correlated context.topologyIndex) =
      (engine.outcomeFacts request context.withoutIndex routes group representative).rematched
        (engine.classification request context routes group
          (representative.correlated context.topologyIndex)).structural
        ((representative.correlated context.topologyIndex).matchedMembers
          (memberPaths routes group) ≠ [])
        (engine.classification request context routes group
          (representative.correlated context.topologyIndex)).anyMatchesMember := by
  obtain ⟨hjudgeable,-,-⟩ :=
    @classification_surface engine request context.withoutIndex routes group representative
  obtain ⟨hsurface,hfreshness,hunknown⟩ :=
    @classification_correlated engine request context routes group representative hsorter
  obtain ⟨-,hambiguous⟩ := classes_of_agrees h hjudgeable hsurface hunknown []
  obtain ⟨hconflicting,-⟩ := (Classification.consistency_eq_iff (hsurface ▸ hjudgeable)
    hjudgeable).mp h.consistency
  unfold outcomeFacts Classification.facts OutcomeFacts.rematched
  rw [hsurface, hconflicting, hfreshness, hambiguous, h.completeness, h.matchedPath]
  rfl

/-- Classifications that agree lead to the same decision. -/
theorem Reaches.decision_of_agrees (hsorter : engine.sorter.Oblivious) (hf : routes.Finalised)
    (h : engine.Reaches request context.withoutIndex routes group representative)
    (hagrees : (engine.classification request context routes group
        (representative.correlated context.topologyIndex)).Agrees
      (engine.classification request context.withoutIndex routes group representative)) :
    (engine.evaluate request context).decision =
      (engine.evaluate request context.withoutIndex).decision := by
  have hreaches := h.correlated hsorter
  obtain ⟨v,hv,hvclasses,hfilled⟩ := evaluate_of_reaches hreaches
  obtain ⟨w,hw,hwclasses,hstated⟩ := evaluate_of_reaches h
  obtain ⟨hfilledConsistency,hfilledComplete⟩ := hreaches.evaluate_observed
  obtain ⟨hstatedConsistency,hstatedComplete⟩ := h.evaluate_observed
  obtain ⟨hjudgeable,-,-⟩ :=
    @classification_surface engine request context.withoutIndex routes group representative
  obtain ⟨hsurface,-,hunknown⟩ :=
    @classification_correlated engine request context routes group representative hsorter
  have hopening : openingClasses (topologyMatches routes context) request.sourceSequenceGap
      (engine.workingOf request context routes) =
        openingClasses (topologyMatches routes context.withoutIndex) request.sourceSequenceGap
          (engine.workingOf request context.withoutIndex routes) := by
    rw [workingOf_eq_correlated hsorter, openingClasses_correlated]
    rfl
  have hclasses : v.classes = w.classes := by
    rw [hvclasses, hwclasses, hopening]
    exact (classes_of_agrees hagrees hjudgeable hsurface hunknown _).1
  have hplan := memberPaths_ne_nil hf h.group_eq
  have hmembers : (engine.outcomeFacts request context.withoutIndex routes group
      representative).groupHasMembers = (engine.outcomeFacts request context.withoutIndex routes
        group representative).planHasMembers := by
    have hgroup : group.members ≠ [] := by
      intro hnil
      exact hplan (by rw [memberPaths, hnil, List.filterMap_nil])
    exact (decide_eq_true hgroup).trans (decide_eq_true hplan).symm
  have hnamed : (engine.outcomeFacts request context.withoutIndex routes group
      representative).matchedPath.present = true →
        (engine.outcomeFacts request context.withoutIndex routes group
          representative).representativeMatches = true ∧
        decide ((representative.correlated context.topologyIndex).matchedMembers
          (memberPaths routes group) ≠ []) = true := by
    intro hpresent
    have hstatedPresent : (engine.classification request context.withoutIndex routes group
      representative).matchedPath.present = true := hpresent
    have hfilledPresent := hstatedPresent
    rw [← hagrees.matchedPath] at hfilledPresent
    refine ⟨decide_eq_true ?_,decide_eq_true ?_⟩
    · exact Working.matchedMembers_ne_nil.mpr ((matchedPath_present_iff hf).mp hstatedPresent)
    · exact Working.matchedMembers_ne_nil.mpr ((matchedPath_present_iff hf).mp hfilledPresent)
  have hdecide := @OutcomeFacts.decideOutcome_rematched _ engine.policy v _ _
    (engine.classification request context routes group
      (representative.correlated context.topologyIndex)).anyMatchesMember
    hmembers hnamed hagrees.structural
  rw [← outcomeFacts_of_agrees hsorter hagrees] at hdecide
  obtain ⟨houtcome,hverdict⟩ := OutcomeFacts.decideOutcome_congr (engine.outcomeFacts request
    context.withoutIndex routes group representative) engine.policy (hv.trans hw.symm) hclasses
  simp only [ComparisonResult.decision, Prod.mk.injEq]
  refine ⟨?_,?_,?_,?_,?_,?_⟩
  · rw [hfilled.outcome, hstated.outcome, hdecide, houtcome]
  · rw [hfilled.matchedPath, hstated.matchedPath, hagrees.matchedPath]
  · rw [hfilled.differences, hstated.differences, hagrees.differences]
  · rw [hfilledConsistency, hstatedConsistency, hagrees.consistency]
  · rw [hfilledComplete, hstatedComplete, hagrees.completeness]
  · rw [hfilled.classes, hstated.classes, hdecide, hverdict]

/-- Without accepted records the index is not read. -/
theorem decision_of_none_accepted (hsorter : engine.sorter.Oblivious)
    (hroutes : context.routes = some routes)
    (hgeneration : generationMatches routes request context = true)
    (hgroup : resolveGroup routes request = some group)
    (hnone : engine.acceptedRecords request context.withoutIndex routes = []) :
    (engine.evaluate request context).decision =
      (engine.evaluate request context.withoutIndex).decision := by
  have hnil : acceptedOf (engine.workingOf request context routes) = [] := by
    have hfilled := @acceptedRecords_eq_correlated engine request context routes hsorter
    rw [hnone] at hfilled
    exact hfilled
  have hstated : acceptedOf (engine.workingOf request context.withoutIndex routes) = [] := hnone
  have hleading : ∀ working : List Working,
      leadingRejection (working.map (Working.correlated context.topologyIndex)) =
        leadingRejection working := by
    intro working
    unfold leadingRejection
    rw [List.foldl_map]
    rfl
  rw [evaluate_of_resolved hroutes hgeneration hgroup,
    @evaluate_of_resolved engine request context.withoutIndex routes group hroutes hgeneration
      hgroup]
  simp only [compareWorking, hnil, hstated]
  rw [workingOf_eq_correlated hsorter, openingClasses_correlated]
  unfold withoutAccepted ComparisonResult.decision
  dsimp only
  rw [hleading]
  rfl

/-- Comparisons of a request decide alike when they do so past the checks of the request. -/
theorem compare_decision_eq_iff {other : ComparisonContext} :
    (engine.compare request context).map ComparisonResult.decision =
        (engine.compare request other).map ComparisonResult.decision ↔
      (engine.checkRequest request = .ok () →
        (engine.evaluate request context).decision = (engine.evaluate request other).decision) := by
  have hcompare : ∀ context, (engine.compare request context).map ComparisonResult.decision =
      (engine.checkRequest request).map
        (fun _ => (engine.evaluate request context).decision) := by
    intro context
    unfold compare
    cases engine.checkRequest request <;> rfl
  rw [hcompare, hcompare]
  cases engine.checkRequest request with
  | error e => exact iff_of_true rfl fun h => by cases h
  | ok _ => exact ⟨fun h _ => Except.ok.inj h,fun h => congrArg Except.ok (h rfl)⟩

/-- A comparison that accepts nothing, or finds no plan or no subject, does not read the
index. -/
theorem decision_of_not_reaches (hsorter : engine.sorter.Oblivious)
    (hcheck : engine.checkRequest request = .ok ()) (hroutes : context.routes = some routes)
    (hnone : ∀ group representative,
      ¬ engine.Reaches request context.withoutIndex routes group representative) :
    (engine.evaluate request context).decision =
      (engine.evaluate request context.withoutIndex).decision := by
  cases hgeneration : generationMatches routes request context with
  | false =>
    have hmismatch : ∀ {other : ComparisonContext}, other.routes = some routes →
        generationMatches routes request other = false →
        other.routes.filter (generationMatches · request other) = none := by
      intro other hother hstale
      simp [hother, hstale]
    rw [evaluate_of_mismatch (hmismatch hroutes hgeneration),
      @evaluate_of_mismatch engine request context.withoutIndex (hmismatch hroutes hgeneration)]
    rfl
  | true =>
    cases hgroup : resolveGroup routes request with
    | none =>
      rw [evaluate_of_unresolved hroutes hgeneration hgroup,
        @evaluate_of_unresolved engine request context.withoutIndex routes hroutes hgeneration
          hgroup]
      rfl
    | some group =>
      cases haccepted : engine.acceptedRecords request context.withoutIndex routes with
      | nil => exact decision_of_none_accepted hsorter hroutes hgeneration hgroup haccepted
      | cons representative rest =>
        obtain ⟨hpolicy,hvalid,hlimit⟩ := checkRequest_eq_ok.mp hcheck
        refine absurd ?_ (hnone group representative)
        exact ⟨hpolicy,hvalid,hlimit,hroutes,hgeneration,hgroup,by rw [haccepted]; rfl⟩

/-- A comparison that reaches the classification decides alike without the index exactly
when the links it fills in are immaterial. -/
theorem Reaches.decision_iff (hsorter : engine.sorter.Oblivious) (hf : routes.Finalised)
    (h : engine.Reaches request context.withoutIndex routes group representative) :
    (engine.evaluate request context).decision =
        (engine.evaluate request context.withoutIndex).decision ↔
      LinksImmaterial context.topologyIndex routes group request representative
        (engine.acceptedRecords request context.withoutIndex routes) := by
  have himmaterial := @agrees_iff_immaterial context.topologyIndex routes group request
    representative (engine.acceptedRecords request context.withoutIndex routes) hf
    (@classification_surface engine request context.withoutIndex routes group representative).1
    fun path hpath => max_le (hf.findPath (referencePath_found hpath)).1.length_le
      (length_hops_le_of_mem h.mem)
  rw [← himmaterial, ← acceptedRecords_eq_correlated hsorter]
  exact ⟨h.agrees_of_decision hsorter,h.decision_of_agrees hsorter hf⟩

/-- An index that is not of the topology of the plan decides nothing. -/
def StaleTopologyUndecisive (engine : ComparisonEngine) (request : ComparisonRequest)
    (context : ComparisonContext) (routes : RouteGeneration) : Prop :=
  topologyMatches routes context = false →
    (engine.compare request context).map ComparisonResult.decision =
      (engine.compare request context.withoutIndex).map ComparisonResult.decision

/-- Replacing the index of a topology that is not of the plan by none keeps the decision
exactly when the links it fills in are immaterial. -/
theorem stale_topology_undecisive_iff (engine : ComparisonEngine) (request : ComparisonRequest)
    (context : ComparisonContext) (routes : RouteGeneration) (hsorter : engine.sorter.Oblivious)
    (hroutes : context.routes = some routes) (hf : routes.Finalised) :
    engine.StaleTopologyUndecisive request context routes ↔
      (topologyMatches routes context = false → ∀ group representative,
        engine.Reaches request context.withoutIndex routes group representative →
          LinksImmaterial context.topologyIndex routes group request representative
            (engine.acceptedRecords request context.withoutIndex routes)) := by
  refine imp_congr_right fun _ => ?_
  rw [compare_decision_eq_iff]
  constructor
  · intro hsame group representative h
    have hcheck := checkRequest_eq_ok.mpr ⟨h.policy_valid,h.generation_valid,h.bounded⟩
    exact (h.decision_iff hsorter hf).mp (hsame hcheck)
  · intro himmaterial hcheck
    by_cases hreaches : ∃ group representative,
        engine.Reaches request context.withoutIndex routes group representative
    · obtain ⟨group,representative,h⟩ := hreaches
      exact (h.decision_iff hsorter hf).mpr (himmaterial group representative h)
    · exact decision_of_not_reaches hsorter hcheck hroutes fun group representative h =>
        hreaches ⟨group,representative,h⟩

/-- The first link of the plan under another identity. -/
def laterLink : LinkRecord where
  id := ⟨8⟩
  localDevice := ⟨1⟩
  localPort := ⟨12⟩
  remoteDevice := ⟨2⟩
  remotePort := ⟨21⟩

/-- A generation that is not the one of the plan. -/
def laterTopology : TopologyGeneration where
  id := ⟨2⟩
  epoch := ⟨1⟩
  incarnation := ⟨1⟩
  links := [laterLink]

def laterIndex : TopologyIndex := (TopologyIndex.build laterTopology {}).toOption.getD {}

def laterContext : ComparisonContext :=
  { sampleContext with topology := some laterTopology, topologyIndex := some laterIndex }

/-- The trace of the plan with the egress port of its first hop. -/
def portTrace (link : UInt64) : List ObservedHop :=
  [{ index := 0, device := ⟨1⟩, egress := ⟨12⟩, link := ⟨link⟩,
     linkProvenance := if link = 0 then .absent else .observed },
   { index := 1, device := ⟨2⟩ },{ index := 2, device := ⟨3⟩ }]

theorem later_working {link : UInt64}
    (h : (sampleContent 1 1 (portTrace link)).validate {} = .ok ()) :
    sampleEngine.workingOf (sampleRequest [sampleEvidence 1 1 (portTrace link)])
      laterContext.withoutIndex sampleRoutes = [sampleWorking 1 1 (portTrace link)] :=
  sample_single h

theorem later_reaches {link : UInt64}
    (h : (sampleContent 1 1 (portTrace link)).validate {} = .ok ()) :
    sampleEngine.Reaches (sampleRequest [sampleEvidence 1 1 (portTrace link)])
      laterContext.withoutIndex sampleRoutes sampleGroup (sampleWorking 1 1 (portTrace link)) where
  policy_valid := rfl
  generation_valid := rfl
  bounded := Nat.le_of_ble_eq_true rfl
  routes_eq := rfl
  generation := sample_generation
  group_eq := sample_resolveGroup _
  representative_eq := by
    rw [acceptedRecords, later_working h]
    rfl

/-- A trace that states its link is compared as it is. -/
theorem stated_link_undecided : topologyMatches sampleRoutes laterContext = false ∧
    sampleEngine.StaleTopologyUndecisive (sampleRequest [sampleEvidence 1 1 (portTrace 7)])
      laterContext sampleRoutes := by
  refine ⟨by decide,(stale_topology_undecisive_iff sampleEngine _ laterContext sampleRoutes
    (Sorter.insertion_oblivious ranksBefore_ranksBy) rfl sampleRoutes_finalised).mpr ?_⟩
  intro _ group representative h
  refine linksImmaterial_of_stated h.mem fun w hw => ?_
  rw [acceptedRecords, later_working (by decide)] at hw
  obtain rfl : w = sampleWorking 1 1 (portTrace 7) := List.mem_singleton.mp hw
  decide +kernel

/-- The link of the later generation turns the trace of the plan into a divergence. -/
theorem later_topology_decides :
    ¬ sampleEngine.StaleTopologyUndecisive (sampleRequest [sampleEvidence 1 1 (portTrace 0)])
      laterContext sampleRoutes := by
  intro h
  have hsame := h (by decide)
  have hsorter : sampleEngine.sorter.Oblivious := Sorter.insertion_oblivious ranksBefore_ranksBy
  have hstated := @later_reaches 0 (by decide)
  have hrecords : sampleEngine.acceptedRecords (sampleRequest [sampleEvidence 1 1 (portTrace 0)])
      laterContext.withoutIndex sampleRoutes = [sampleWorking 1 1 (portTrace 0)] := by
    rw [acceptedRecords, later_working (by decide)]
    rfl
  have hfilled : sampleEngine.acceptedRecords (sampleRequest [sampleEvidence 1 1 (portTrace 0)])
      laterContext sampleRoutes =
        [(sampleWorking 1 1 (portTrace 0)).correlated laterContext.topologyIndex] := by
    rw [acceptedRecords_eq_correlated hsorter, hrecords]
    rfl
  have hdiverges : sampleEngine.Diverges (sampleRequest [sampleEvidence 1 1 (portTrace 0)])
      laterContext sampleRoutes sampleGroup
        ((sampleWorking 1 1 (portTrace 0)).correlated laterContext.topologyIndex) := by
    refine ⟨?_,?_,?_,by decide⟩ <;> rw [hfilled]
    · exact List.pairwise_singleton _ _
    · decide
    · decide +kernel
  obtain ⟨result,hresult,hout⟩ := divergent_iff_diverges.mpr
    ⟨sampleRoutes,sampleGroup,_,hstated.correlated hsorter,hdiverges⟩
  rw [hresult] at hsame
  cases hother : sampleEngine.compare (sampleRequest [sampleEvidence 1 1 (portTrace 0)])
      laterContext.withoutIndex with
  | error e =>
    rw [hother] at hsame
    cases hsame
  | ok other =>
    rw [hother] at hsame
    have houtcome : result.outcome = other.outcome := congrArg Prod.fst (Except.ok.inj hsame)
    obtain ⟨routes,group,representative,hreaches,hcontradicts⟩ :=
      divergent_iff_diverges.mp ⟨other,hother,houtcome.symm.trans hout⟩
    obtain ⟨rfl,rfl,rfl⟩ := hstated.unique hreaches
    have hunmatched := hcontradicts.unmatched _ hstated.mem
    exact absurd hunmatched (by decide)

end ComparisonEngine

end PathObservatory
