import PathObservatory.Engine.Agreement

/-! # What a comparison may depend on

Two runs over the same records rank them alike, whatever the sort does with
elements the comparator cannot tell apart: sealed records that tie are equal.
What is left of the order of the request is the reference path, which is read from
the records in the order they were offered.
-/
namespace PathObservatory
open Ranking ObservedPathEvidence

def ComparisonRequest.withEvidence (request : ComparisonRequest)
    (evidence : List ObservedPathEvidence) : ComparisonRequest :=
  { request with evidence := evidence }

def ComparisonEngine.withSorter (engine : ComparisonEngine) (sorter : Sorter ranksBefore) :
    ComparisonEngine :=
  { engine with sorter := sorter }

namespace ComparisonEngine
variable {engine : ComparisonEngine} {request : ComparisonRequest} {context : ComparisonContext}
  {routes : RouteGeneration} {group : PathGroup}

/-- Judged records that tie are equal when the offered records are sealed. -/
theorem judge_eq_of_rankKey (hsealed : ∀ e ∈ request.evidence, e.id = e.computeEvidenceId)
    (hcollision : CollisionFree request.evidence) {v w : Working}
    (hv : v ∈ engine.ranked request context routes) (hw : w ∈ engine.ranked request context routes)
    (h : rankKey v = rankKey w) : v = w := by
  obtain ⟨e,he,rfl⟩ := mem_ranked.mp hv
  obtain ⟨f,hf,rfl⟩ := mem_ranked.mp hw
  have hid := namedByRank _ _ h
  have hreceived := receivedAt_eq_of_rankKey h
  simp only [judge, ComparisonPolicy.judgeEvidence_evidence] at hid hreceived
  rw [hcollision.eq_of_id hsealed he hf hid hreceived]

/-- The working records are a function of the set of offered records. -/
theorem workingOf_congr (sorter : Sorter ranksBefore) {evidence : List ObservedPathEvidence}
    (hset : ∀ e, e ∈ request.evidence ↔ e ∈ evidence)
    (hsealed : ∀ e ∈ request.evidence, e.id = e.computeEvidenceId)
    (hcollision : CollisionFree request.evidence) :
    (engine.withSorter sorter).workingOf (request.withEvidence evidence) context routes =
      engine.workingOf request context routes := by
  have hmem : ∀ w, w ∈ engine.ranked request context routes ↔
      w ∈ (engine.withSorter sorter).ranked (request.withEvidence evidence) context routes := by
    intro w
    rw [mem_ranked, mem_ranked]
    exact exists_congr (fun e => and_congr (hset e) Iff.rfl)
  exact (destutter_eq_of_mem_iff namedByRank
    (Sorter.sort_pairwise ranksBefore_ranksBy engine.sorter _)
    (Sorter.sort_pairwise ranksBefore_ranksBy sorter _) hmem
    (fun v hv w hw => judge_eq_of_rankKey hsealed hcollision hv hw)).symm

theorem compareWorking_judged {base : ComparisonResult} {reference : Option ExpectedPath}
    {working : List Working} :
    (engine.compareWorking base routes group request context reference working).judged =
      engine.compareWorking base.judged routes group request context reference working := by
  cases haccepted : acceptedOf working with
  | nil => simp only [compareWorking, haccepted, withoutAccepted, ComparisonResult.judged]
  | cons representative rest =>
    simp only [compareWorking, haccepted, withAccepted, ComparisonResult.judged]

/-- The result of a resolved comparison, without the counts of the submission. -/
theorem evaluate_judged (hroutes : context.routes = some routes)
    (hgeneration : generationMatches routes request context = true)
    (hgroup : resolveGroup routes request = some group) :
    (engine.evaluate request context).judged =
      engine.compareWorking (baseResult request context).judged routes group request context
        (referencePath routes group request) (engine.workingOf request context routes) := by
  rw [evaluate_of_resolved hroutes hgeneration hgroup, compareWorking_judged]
  rfl

/-- Two runs over one set of sealed records classify alike when they resolve the
same subject and their reference paths have the same effect. -/
theorem evaluate_judged_congr (sorter : Sorter ranksBefore) {evidence : List ObservedPathEvidence}
    (hset : ∀ e, e ∈ request.evidence ↔ e ∈ evidence)
    (hsealed : ∀ e ∈ request.evidence, e.id = e.computeEvidenceId)
    (hcollision : CollisionFree request.evidence)
    (hgroup : ∀ routes, context.routes = some routes →
      resolveGroup routes (request.withEvidence evidence) = resolveGroup routes request)
    (hreference : ∀ routes group, context.routes = some routes →
      generationMatches routes request context = true → resolveGroup routes request = some group →
      engine.compareWorking (baseResult request context).judged routes group request context
        (referencePath routes group (request.withEvidence evidence))
        (engine.workingOf request context routes) =
      engine.compareWorking (baseResult request context).judged routes group request context
        (referencePath routes group request) (engine.workingOf request context routes)) :
    ((engine.withSorter sorter).evaluate (request.withEvidence evidence) context).judged =
      (engine.evaluate request context).judged := by
  cases hroutes : context.routes.filter (generationMatches · request context) with
  | none =>
    have hother : context.routes.filter
        (generationMatches · (request.withEvidence evidence) context) = none := hroutes
    rw [evaluate_of_mismatch hroutes, evaluate_of_mismatch hother]
    rfl
  | some routes =>
    obtain ⟨hsome,hmatches⟩ := Option.filter_eq_some_iff.mp hroutes
    have hmatches' : generationMatches routes (request.withEvidence evidence) context = true :=
      hmatches
    have hresolve := hgroup routes hsome
    cases hsubject : resolveGroup routes request with
    | none =>
      rw [hsubject] at hresolve
      rw [evaluate_of_unresolved hsome hmatches hsubject,
        evaluate_of_unresolved hsome hmatches' hresolve]
      rfl
    | some group =>
      rw [hsubject] at hresolve
      rw [evaluate_judged hsome hmatches hsubject, evaluate_judged hsome hmatches' hresolve,
        workingOf_congr sorter hset hsealed hcollision]
      exact hreference routes group hsome hmatches hsubject

/-- Runs that pass the same checks and classify alike report alike. -/
theorem compare_map_congr {γ : Type} {view : ComparisonResult → γ}
    (hview : ∀ r : ComparisonResult, view r.seal_ = view r.judged) (sorter : Sorter ranksBefore)
    {evidence : List ObservedPathEvidence}
    (hbound : evidence.length ≤ engine.limits.maxEvidencePerComparison ↔
      request.evidence.length ≤ engine.limits.maxEvidencePerComparison)
    (heval : engine.checkRequest request = .ok () →
      ((engine.withSorter sorter).evaluate (request.withEvidence evidence) context).judged =
        (engine.evaluate request context).judged) :
    ((engine.withSorter sorter).compare (request.withEvidence evidence) context).map view =
      (engine.compare request context).map view := by
  have hcheck : (engine.withSorter sorter).checkRequest (request.withEvidence evidence) =
      engine.checkRequest request := by
    have hlimit : decide (evidence.length ≤ engine.limits.maxEvidencePerComparison) =
        decide (request.evidence.length ≤ engine.limits.maxEvidencePerComparison) :=
      decide_eq_decide.mpr hbound
    unfold checkRequest
    rw [← hlimit]
    rfl
  unfold compare
  rw [hcheck]
  cases hrequest : engine.checkRequest request with
  | error e => simp only [bind, Except.bind, Except.map]
  | ok _ => simp only [bind, Except.bind, pure, Except.pure, Except.map, hview, heval hrequest]

/-- The request names a path of the plan whose group is the subject. -/
def NamesPathOfSubject (request : ComparisonRequest) (context : ComparisonContext) : Prop :=
  ∀ routes, context.routes = some routes → ∃ path group, request.path.present = true ∧
    routes.findPath request.path.value = some path ∧
    resolveGroup routes request = some group ∧ path.group = group.id

/-- A path comparison is a function of the set of offered records: order,
repetition and the order of ties in the sort change neither the digest nor the
outcome. -/
theorem path_comparison_of_set (engine : ComparisonEngine) (sorter : Sorter ranksBefore)
    (request : ComparisonRequest) (context : ComparisonContext)
    (evidence : List ObservedPathEvidence) (hpath : NamesPathOfSubject request context)
    (hfirst : request.evidence.length ≤ engine.limits.maxEvidencePerComparison)
    (hsecond : evidence.length ≤ engine.limits.maxEvidencePerComparison)
    (hset : ∀ e, e ∈ request.evidence ↔ e ∈ evidence)
    (hsealed : ∀ e ∈ request.evidence, e.id = e.computeEvidenceId)
    (hcollision : CollisionFree request.evidence) :
    ((engine.withSorter sorter).compare (request.withEvidence evidence) context).map
        (fun result => (result.canonicalDigest,result.outcome)) =
      (engine.compare request context).map
        (fun result => (result.canonicalDigest,result.outcome)) := by
  refine compare_map_congr (fun _ => rfl) sorter (iff_of_true hsecond hfirst)
    (fun _ => evaluate_judged_congr sorter hset hsealed hcollision (fun routes hroutes => ?_)
      (fun routes group hroutes _ hgroup => ?_))
  · obtain ⟨path,group,hpresent,-,-,-⟩ := hpath routes hroutes
    have hpresent' : (request.withEvidence evidence).path.present = true := hpresent
    unfold resolveGroup
    rw [if_pos hpresent, if_pos hpresent']
    rfl
  · obtain ⟨path,other,hpresent,hfind,hother,hmember⟩ := hpath routes hroutes
    obtain rfl : other = group := Option.some.inj (hother.symm.trans hgroup)
    have hclaimed : claimedPath routes other request.path = some path := by
      simp [claimedPath, hpresent, hfind, hmember]
    have hclaimed' : claimedPath routes other (request.withEvidence evidence).path = some path :=
      hclaimed
    simp only [referencePath, hclaimed, hclaimed', Option.some_or]

def samplePathRequest (evidence : List ObservedPathEvidence) : ComparisonRequest :=
  { sampleRequest evidence with path := ⟨⟨1⟩⟩ }

theorem samplePathRequest_names (evidence : List ObservedPathEvidence) :
    NamesPathOfSubject (samplePathRequest evidence) sampleContext := by
  intro routes hroutes
  obtain rfl : sampleRoutes = routes := Option.some.inj hroutes
  have hpath : (sampleRoutes.findPath ⟨1⟩).any (·.group = sampleGroup.id) = true := by
    decide
  obtain ⟨path,hfind,hmember⟩ := (Option.any_eq_true _ _).mp hpath
  exact ⟨path,sampleGroup,rfl,hfind,sample_resolveGroup evidence,by simpa using hmember⟩

/-- Offering two records the other way round and one of them twice changes
nothing. -/
theorem path_comparison_of_set_sample :
    (sampleEngine.compare (samplePathRequest (outvotedEvidence.reverse ++ outvotedEvidence))
        sampleContext).map (fun result => (result.canonicalDigest,result.outcome)) =
      (sampleEngine.compare (samplePathRequest outvotedEvidence) sampleContext).map
        (fun result => (result.canonicalDigest,result.outcome)) := by
  refine path_comparison_of_set sampleEngine sampleEngine.sorter
    (samplePathRequest outvotedEvidence) sampleContext (outvotedEvidence.reverse ++ outvotedEvidence)
    (samplePathRequest_names _) (by decide) (by decide) (fun e => ?_) (samplePair_sealed rfl)
    (CollisionFree.pair (sampleEvidence_sealed _ _ _) (sampleEvidence_sealed _ _ _)
      outvotedEvidence_id_ne)
  simp [samplePathRequest, sampleRequest]

/-- The reference path of a group comparison is the first claim. -/
theorem referencePath_of_claim (hpath : request.path.present = false) {e : ObservedPathEvidence}
    {p : ExpectedPath} {rest : List ObservedPathEvidence}
    (hclaim : claimedPath routes group e.path = some p) :
    referencePath routes group (request.withEvidence (e :: rest)) = some p := by
  have hnone : claimedPath routes group (request.withEvidence (e :: rest)).path = none := by
    simp [claimedPath, ComparisonRequest.withEvidence, hpath]
  simp only [referencePath, hnone, Option.none_or]
  simp [ComparisonRequest.withEvidence, hclaim]

/-- Reference paths that compare alike with the representative classify alike. -/
theorem classify_congr {p q : Option ExpectedPath} {representative : Working}
    {accepted : List Working}
    (h : compareReference (isStructural (memberPaths routes group) representative accepted) p
        representative.hops =
      compareReference (isStructural (memberPaths routes group) representative accepted) q
        representative.hops) :
    classify routes group request p representative accepted =
      classify routes group request q representative accepted := by
  simp only [classify, h]

theorem compareWorking_congr {base : ComparisonResult} {p q : Option ExpectedPath}
    {working : List Working}
    (h : ∀ representative, (acceptedOf working).head? = some representative →
      compareReference (isStructural (memberPaths routes group) representative
        (acceptedOf working)) p representative.hops =
      compareReference (isStructural (memberPaths routes group) representative
        (acceptedOf working)) q representative.hops) :
    engine.compareWorking base routes group request context p working =
      engine.compareWorking base routes group request context q working := by
  unfold compareWorking
  cases haccepted : acceptedOf working with
  | nil => rfl
  | cons representative rest =>
    have hsame := h representative (by simp [haccepted])
    rw [haccepted] at hsame
    simp only [withAccepted, classify_congr hsame]

end ComparisonEngine

end PathObservatory
