import PathObservatory.Domain.Lookup
import PathObservatory.Engine.Agreement

/-! # One observation, several deliveries

The identity of a record leaves its receive time out, and the ranking reads the
receive time before the identity. Copies of one observation are therefore one
judgement only while no other record is ranked between them.
-/
namespace PathObservatory.ComparisonEngine
open Ranking
variable {engine : ComparisonEngine} {request : ComparisonRequest} {context : ComparisonContext}
  {routes : RouteGeneration} {group : PathGroup}

/-- The counts of a classified result, whether or not a record was accepted. -/
theorem compareWorking_counts {base : ComparisonResult} {reference : Option ExpectedPath}
    {working : List Working} :
    let result := engine.compareWorking base routes group request context reference working
    result.judgements = working.map judgementOf ∧
      result.evidenceConsidered = (acceptedOf working).length ∧
      result.evidenceRejected = working.length - (acceptedOf working).length ∧
      result.duplicateEvidence = base.duplicateEvidence ∧
      result.evidenceOffered = base.evidenceOffered := by
  unfold compareWorking
  cases acceptedOf working with
  | nil => exact ⟨rfl,rfl,rfl,rfl,rfl⟩
  | cons representative rest => exact ⟨rfl,rfl,rfl,rfl,rfl⟩

/-- Each offered identity is judged once, and the counts say so. -/
structure JudgedOnce (request : ComparisonRequest) (result : ComparisonResult) : Prop where
  distinct : (result.judgements.map (·.id)).Nodup
  offered : ∀ id, id ∈ result.judgements.map (·.id) ↔ ∃ e ∈ request.evidence, e.id = id
  counted : result.evidenceConsidered + result.evidenceRejected = result.judgements.length
  duplicates : result.duplicateEvidence + result.judgements.length = result.evidenceOffered

/-- Between two copies of one observation a record of another identity is ranked. -/
def CopiesSeparated (engine : ComparisonEngine) (request : ComparisonRequest)
    (context : ComparisonContext) (routes : RouteGeneration) : Prop :=
  ∃ e ∈ request.evidence, ∃ f ∈ request.evidence, ∃ g ∈ request.evidence,
    e.id = f.id ∧ g.id ≠ e.id ∧
    ranksBefore (engine.judge request context routes e) (engine.judge request context routes g) =
      true ∧
    ranksBefore (engine.judge request context routes g) (engine.judge request context routes f) =
      true

theorem judge_evidence (e : ObservedPathEvidence) :
    (engine.judge request context routes e).evidence = e :=
  ComparisonPolicy.judgeEvidence_evidence _ _ _ _ _ _

theorem copiesSeparated_iff : engine.CopiesSeparated request context routes ↔
    Separated rankKey (fun w : Working => w.evidence.id) (engine.ranked request context routes) := by
  constructor
  · rintro ⟨e,he,f,hf,g,hg,hid,hne,hbefore,hafter⟩
    refine ⟨_,mem_ranked.mpr ⟨e,he,rfl⟩,_,mem_ranked.mpr ⟨f,hf,rfl⟩,_,mem_ranked.mpr ⟨g,hg,rfl⟩,
      ?_,?_,(ranksBefore_ranksBy _ _).mp hbefore,(ranksBefore_ranksBy _ _).mp hafter⟩
    · simpa only [judge_evidence] using hid
    · simpa only [judge_evidence] using hne
  · rintro ⟨x,hx,y,hy,z,hz,hid,hne,hbefore,hafter⟩
    obtain ⟨e,he,rfl⟩ := mem_ranked.mp hx
    obtain ⟨f,hf,rfl⟩ := mem_ranked.mp hy
    obtain ⟨g,hg,rfl⟩ := mem_ranked.mp hz
    simp only [judge_evidence] at hid hne
    exact ⟨e,he,f,hf,g,hg,hid,hne,(ranksBefore_ranksBy _ _).mpr hbefore,
      (ranksBefore_ranksBy _ _).mpr hafter⟩

theorem ranked_pairwise : (engine.ranked request context routes).Pairwise
    (fun a b => rankKey a ≤ rankKey b) :=
  engine.sorter.sort_pairwise ranksBefore_ranksBy _

/-- Every offered identity survives the removal of repeats, and no other appears. -/
theorem mem_workingOf_id {id : EvidenceId} :
    id ∈ (engine.workingOf request context routes).map (·.evidence.id) ↔
      ∃ e ∈ request.evidence, e.id = id := by
  rw [List.mem_map]
  constructor
  · rintro ⟨w,hw,rfl⟩
    obtain ⟨e,he,rfl⟩ := mem_ranked.mp ((List.destutter_sublist _ _).subset hw)
    exact ⟨e,he,by rw [judge_evidence]⟩
  · rintro ⟨e,he,rfl⟩
    obtain ⟨w,hw,hid⟩ := exists_survivor namedByRank ranked_pairwise
      (mem_ranked.mpr ⟨e,he,rfl⟩ : engine.judge request context routes e ∈
        engine.ranked request context routes)
    refine ⟨w,hw,hid.trans ?_⟩
    rw [judge_evidence]

theorem workingOf_ids_nodup_iff :
    ((engine.workingOf request context routes).map (·.evidence.id)).Nodup ↔
      ¬ engine.CopiesSeparated request context routes := by
  rw [copiesSeparated_iff]
  exact destutter_names_nodup_iff namedByRank ranked_pairwise

theorem length_ranked : (engine.ranked request context routes).length = request.evidence.length := by
  rw [ranked, (engine.sorter.perm _).length_eq, List.length_map]

/-- The result of a comparison of a group of the plan, past the fences. -/
theorem compare_of_group (hpolicy : engine.policy.validate = .ok ()) (hf : routes.Finalised)
    (hroutes : context.routes = some routes)
    (hgeneration : generationMatches routes request context = true)
    (hgroup : group ∈ routes.groups) (hnamed : request.group = ⟨group.id⟩)
    (hbound : request.evidence.length ≤ engine.limits.maxEvidencePerComparison) :
    engine.compare request context = .ok (engine.compareWorking
      { baseResult request context with
        duplicateEvidence := (engine.ranked request context routes).length -
          (engine.workingOf request context routes).length }
      routes group request context (referencePath routes group request)
      (engine.workingOf request context routes)).seal_ := by
  have hvalid : request.generation.valid = true := by
    have hmatches := hgeneration
    simp only [generationMatches, Bool.and_eq_true, decide_eq_true_eq] at hmatches
    rw [← hmatches.1.1]
    exact hf.id_valid
  have hresolve : resolveGroup routes request = some group := by
    have hpresent : request.group.present = true := by
      rw [hnamed]
      exact hf.groups_sorted.2 group hgroup
    rw [resolveGroup, if_pos hpresent, hnamed]
    exact hf.findGroup_of_mem hgroup
  refine compare_eq_ok.mpr ⟨hpolicy,hvalid,hbound,?_⟩
  rw [evaluate_of_resolved hroutes hgeneration hresolve]

/-- A comparison of a group of the plan judges every observation once exactly when
the identities of its working records are distinct. -/
theorem judgedOnce_iff_nodup (hpolicy : engine.policy.validate = .ok ()) (hf : routes.Finalised)
    (hroutes : context.routes = some routes)
    (hgeneration : generationMatches routes request context = true)
    (hgroup : group ∈ routes.groups) (hnamed : request.group = ⟨group.id⟩)
    (hbound : request.evidence.length ≤ engine.limits.maxEvidencePerComparison) :
    (∃ result, engine.compare request context = .ok result ∧ JudgedOnce request result) ↔
      ((engine.workingOf request context routes).map (·.evidence.id)).Nodup := by
  have hcompare := compare_of_group hpolicy hf hroutes hgeneration hgroup hnamed hbound
  obtain ⟨hjudgements,hconsidered,hrejected,hduplicates,hoffered⟩ := @compareWorking_counts engine
    request context routes group { baseResult request context with
      duplicateEvidence := (engine.ranked request context routes).length -
        (engine.workingOf request context routes).length }
    (referencePath routes group request) (engine.workingOf request context routes)
  have hids : ∀ working : List Working, (working.map judgementOf).map (·.id) =
      working.map (·.evidence.id) := fun working => List.map_map
  constructor
  · rintro ⟨result,hresult,honce⟩
    obtain rfl := Except.ok.inj (hcompare.symm.trans hresult)
    have hdistinct := honce.distinct
    rwa [ComparisonResult.seal_, hjudgements, hids] at hdistinct
  · intro hdistinct
    refine ⟨_,hcompare,?_,?_,?_,?_⟩
    · rwa [ComparisonResult.seal_, hjudgements, hids]
    · intro id
      rw [ComparisonResult.seal_, hjudgements, hids]
      exact mem_workingOf_id
    · have hle := List.length_filter_le (·.accepted) (engine.workingOf request context routes)
      rw [ComparisonResult.seal_, hjudgements, hconsidered, hrejected, List.length_map]
      exact Nat.add_sub_cancel' hle
    · have hle := (List.destutter_sublist (fun a b : Working => a.evidence.id ≠ b.evidence.id)
        (engine.ranked request context routes)).length_le
      rw [ComparisonResult.seal_, hjudgements, hduplicates, hoffered, List.length_map, baseResult,
        ← @length_ranked engine request context routes]
      exact Nat.sub_add_cancel hle

/-- Every observation is judged once unless other records are ranked between its
copies. -/
theorem judged_once_iff (engine : ComparisonEngine) (request : ComparisonRequest)
    (context : ComparisonContext) (routes : RouteGeneration) (group : PathGroup)
    (hpolicy : engine.policy.validate = .ok ()) (hf : routes.Finalised)
    (hroutes : context.routes = some routes)
    (hgeneration : generationMatches routes request context = true)
    (hgroup : group ∈ routes.groups) (hnamed : request.group = ⟨group.id⟩)
    (hbound : request.evidence.length ≤ engine.limits.maxEvidencePerComparison) :
    (∃ result, engine.compare request context = .ok result ∧ JudgedOnce request result) ↔
      ¬ engine.CopiesSeparated request context routes := by
  rw [judgedOnce_iff_nodup hpolicy hf hroutes hgeneration hgroup hnamed hbound,
    workingOf_ids_nodup_iff]

/-- A single record is judged once. -/
theorem judged_once_sample :
    ∃ result, sampleEngine.compare (sampleRequest coveringEvidence) sampleContext = .ok result ∧
      JudgedOnce (sampleRequest coveringEvidence) result := by
  refine (judged_once_iff sampleEngine (sampleRequest coveringEvidence) sampleContext sampleRoutes
    sampleGroup rfl sampleRoutes_finalised rfl sample_generation (by decide) rfl (by decide)).mpr ?_
  rintro ⟨e,he,f,hf,g,hg,-,hne,-⟩
  rw [List.mem_singleton.mp he, List.mem_singleton.mp hg] at hne
  exact hne rfl

/-- A record as it was delivered at the given instant. -/
def deliveredAt (e : ObservedPathEvidence) (instant : TimePoint) : ObservedPathEvidence :=
  { e with receivedAt := instant }

theorem delivered_judge {request : ComparisonRequest} {sequence path : UInt64}
    {hops : List ObservedHop} {instant : TimePoint}
    (h : (deliveredAt (sampleContent sequence path hops) instant).validate {} = .ok ()) :
    sampleEngine.judge request sampleContext sampleRoutes
        (deliveredAt (sampleEvidence sequence path hops) instant) =
      sampleEngine.policy.acceptedWorking sampleContext
        (deliveredAt (sampleEvidence sequence path hops) instant) := by
  have hadmits : sampleEngine.Admits request sampleContext sampleRoutes
      (deliveredAt (sampleEvidence sequence path hops) instant) := {
    epoch := rfl
    incarnation := rfl
    revision := rfl
    routeGeneration := nofun
    topologyGeneration := nofun
    surface := Or.inl rfl
    authority := fun _ => by
      show AuthorityClass.advisory ≤ AuthorityClass.authoritative
      decide
    valid := by
      have hsealed := ObservedPathEvidence.validate_seal h
      exact hsealed
    registered := by
      intro registry hregistry
      cases hregistry }
  rcases ComparisonPolicy.judgeEvidence_cases sampleEngine.policy sampleEngine.limits
    request.generation sampleContext sampleRoutes
    (deliveredAt (sampleEvidence sequence path hops) instant) with ⟨-,heq⟩ | ⟨hnot,-⟩
  · exact heq
  · exact absurd hadmits hnot

/-- One observation delivered twice, another one in between. -/
def redeliveredEvidence : List ObservedPathEvidence :=
  [deliveredAt (sampleEvidence 2 1 (sampleTrace 7 [1,2,3])) ⟨900⟩,
   deliveredAt (sampleEvidence 1 0 (sampleTrace 0 [7,8,9])) ⟨950⟩,
   deliveredAt (sampleEvidence 2 1 (sampleTrace 7 [1,2,3])) ⟨1000⟩]

theorem redeliveredEvidence_separated :
    sampleEngine.CopiesSeparated (sampleRequest redeliveredEvidence) sampleContext sampleRoutes := by
  refine ⟨deliveredAt (sampleEvidence 2 1 (sampleTrace 7 [1,2,3])) ⟨1000⟩,
    by simp [sampleRequest, redeliveredEvidence],
    deliveredAt (sampleEvidence 2 1 (sampleTrace 7 [1,2,3])) ⟨900⟩,
    by simp [sampleRequest, redeliveredEvidence],
    deliveredAt (sampleEvidence 1 0 (sampleTrace 0 [7,8,9])) ⟨950⟩,
    by simp [sampleRequest, redeliveredEvidence],rfl,outvotedEvidence_id_ne.symm,?_,?_⟩
  · rw [delivered_judge (by decide), delivered_judge (by decide)]
    decide
  · rw [delivered_judge (by decide), delivered_judge (by decide)]
    decide

/-- The records are sealed, and the second delivery counts as a second observation. -/
theorem redelivery_is_judged_twice :
    (∀ e ∈ (sampleRequest redeliveredEvidence).evidence, e.id = e.computeEvidenceId) ∧
      ¬ ∃ result, sampleEngine.compare (sampleRequest redeliveredEvidence) sampleContext =
        .ok result ∧ JudgedOnce (sampleRequest redeliveredEvidence) result := by
  constructor
  · simp only [sampleRequest, redeliveredEvidence, List.mem_cons, List.not_mem_nil, or_false,
      forall_eq_or_imp, forall_eq]
    exact ⟨rfl,rfl,rfl⟩
  · have hjudged := @judgedOnce_iff_nodup sampleEngine (sampleRequest redeliveredEvidence)
      sampleContext sampleRoutes sampleGroup rfl sampleRoutes_finalised rfl sample_generation
      (by decide) rfl (by decide)
    rw [hjudged, workingOf_ids_nodup_iff, not_not]
    exact redeliveredEvidence_separated

end PathObservatory.ComparisonEngine
