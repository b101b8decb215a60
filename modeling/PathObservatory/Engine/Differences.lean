import PathObservatory.Engine.ArrivalOrder
import PathObservatory.Engine.Bounds
import PathObservatory.Engine.FalseDivergence
import PathObservatory.Engine.Overrun

/-! # Where a trace departs from the reference path

The report is built hop by hop by `per_hop_class`, the verdict by `hops_agree`. The
two relations agree on every pair of hops, so a divergence from a member is never
reported without a position, and every reported position is one.
-/
namespace PathObservatory

/-- One side has no hop at this position or the hops of the two sides differ. -/
def DiffersAt (reference : ExpectedPath) (observed : List ObservedHop) (i : ℕ) : Prop :=
  i < max reference.hops.length observed.length ∧
    ¬ ∃ e o, reference.hops[i]? = some e ∧ observed[i]? = some o ∧ HopFollows e o

/-- The class of a pair of hops and the verdict on it are one relation. -/
theorem perHopClass_eq_none_iff {e : ExpectedHop} {o : ObservedHop} :
    perHopClass e o = .none ↔ HopFollows e o := by
  unfold perHopClass
  constructor
  · intro h
    split_ifs at h with hdevice hingress hegress hlink
    push Not at hdevice hingress hegress hlink
    exact ⟨hdevice,hingress,hegress,hlink⟩
  · intro h
    rw [if_neg (not_not.mpr h.device), if_neg (by simpa using h.ingress),
      if_neg (by simpa using h.egress), if_neg (by simpa using h.link)]

theorem hopDifference_index (orderViolation : Bool) (expected : List ExpectedHop)
    (observed : List ObservedHop) (i : ℕ) :
    (hopDifference orderViolation expected observed i).index = UInt32.ofNat i := by
  unfold hopDifference
  split <;> rfl

theorem hopDifference_detail_eq_none_iff {orderViolation : Bool} {reference : ExpectedPath}
    {observed : List ObservedHop} {i : ℕ} (hi : i < max reference.hops.length observed.length) :
    (hopDifference orderViolation reference.hops observed i).detail = .none ↔
      ¬ DiffersAt reference observed i := by
  have hdiffers : ¬ DiffersAt reference observed i ↔
      ∃ e o, reference.hops[i]? = some e ∧ observed[i]? = some o ∧ HopFollows e o := by
    simp [DiffersAt, hi]
  rw [hdiffers]
  unfold hopDifference
  cases he : reference.hops[i]? with
  | none => cases observed[i]? <;> simp
  | some e =>
    cases ho : observed[i]? with
    | none => simp
    | some o =>
      simp only [Option.some.injEq, exists_and_left, exists_eq_left']
      rw [← perHopClass_eq_none_iff]
      split_ifs with horder
      · simp [horder.2]
      · rfl

/-- The reported differences are the positions at which the two sides differ. -/
theorem mem_hopDifferences {reference : ExpectedPath} {observed : List ObservedHop}
    {d : HopDifference} : d ∈ hopDifferences reference observed ↔
      ∃ i, DiffersAt reference observed i ∧
        d = hopDifference (sameDevicesDifferentOrder reference.hops observed) reference.hops
          observed i := by
  unfold hopDifferences
  simp only [List.mem_filter, List.mem_map, List.mem_range, decide_eq_true_eq]
  constructor
  · rintro ⟨⟨i,hi,rfl⟩,hnamed⟩
    exact ⟨i,not_not.mp (mt (hopDifference_detail_eq_none_iff hi).mpr hnamed),rfl⟩
  · rintro ⟨i,hdiffers,rfl⟩
    refine ⟨⟨i,hdiffers.1,rfl⟩,fun hnone => ?_⟩
    exact (hopDifference_detail_eq_none_iff hdiffers.1).mp hnone hdiffers

/-- Nothing is reported of a trace that follows the reference path to its end. -/
theorem hopDifferences_eq_nil_iff {reference : ExpectedPath} {observed : List ObservedHop} :
    hopDifferences reference observed = [] ↔
      observed.length = reference.hops.length ∧ TracesAgree reference observed := by
  rw [List.eq_nil_iff_forall_not_mem]
  constructor
  · intro h
    have hsame : ∀ i, i < max reference.hops.length observed.length →
        ∃ e o, reference.hops[i]? = some e ∧ observed[i]? = some o ∧ HopFollows e o := by
      intro i hi
      by_contra hdiffers
      exact h _ (mem_hopDifferences.mpr ⟨i,⟨hi,hdiffers⟩,rfl⟩)
    refine ⟨?_,fun i e o he ho => ?_⟩
    · rcases lt_trichotomy observed.length reference.hops.length with hlt | heq | hlt
      · obtain ⟨e,o,-,ho,-⟩ := hsame _ (lt_max_of_lt_left hlt)
        simp at ho
      · exact heq
      · obtain ⟨e,o,he,-,-⟩ := hsame _ (lt_max_of_lt_right hlt)
        simp at he
    · obtain ⟨e',o',he',ho',hfollows⟩ :=
        hsame i (lt_max_of_lt_left (List.getElem?_eq_some_iff.mp he).1)
      rw [he] at he'
      rw [ho] at ho'
      rw [Option.some.inj he', Option.some.inj ho']
      exact hopsAgree_iff.mpr hfollows
  · rintro ⟨hlength,hagree⟩ d hd
    obtain ⟨i,⟨hi,hdiffers⟩,-⟩ := mem_hopDifferences.mp hd
    rw [hlength, max_self] at hi
    have he := List.getElem?_eq_getElem hi
    have ho := List.getElem?_eq_getElem (hi.trans_eq hlength.symm)
    exact hdiffers ⟨_,_,he,ho,hopsAgree_iff.mp (hagree i _ _ he ho)⟩

/-- Below 2^32 hops the reported indices are the positions, in order. -/
theorem hopDifferences_index {reference : ExpectedPath} {observed : List ObservedHop}
    (h : max reference.hops.length observed.length ≤ 2 ^ 32) :
    ((hopDifferences reference observed).map (·.index)).Pairwise (· < ·) := by
  unfold hopDifferences
  refine List.Pairwise.sublist (List.filter_sublist.map _) ?_
  rw [List.map_map, List.pairwise_map]
  refine (List.pairwise_lt_range (n := max reference.hops.length observed.length)).imp_of_mem ?_
  intro i j hi hj hlt
  simp only [Function.comp_apply, hopDifference_index]
  rw [UInt32.lt_iff_toNat_lt, UInt32.toNat_ofNat_of_lt' ((List.mem_range.mp hi).trans_le h),
    UInt32.toNat_ofNat_of_lt' ((List.mem_range.mp hj).trans_le h)]
  exact hlt

/-- A path of the plan has at most 2^32 hops: each carries its position. -/
theorem RouteGeneration.PathWellFormed.length_le {path : ExpectedPath}
    (h : RouteGeneration.PathWellFormed path) : path.hops.length ≤ 2 ^ 32 := by
  by_contra hlong
  obtain ⟨hop,hhop⟩ : ∃ hop, path.hops[2 ^ 32]? = some hop :=
    ⟨_,List.getElem?_eq_getElem (not_le.mp hlong)⟩
  have hindex := h.index_eq (2 ^ 32) hop hhop
  have hbound := hop.index.toNat_lt
  omega

namespace ObservedPathEvidence

/-- The indices of a valid trace ascend, so there are at most 2^32. -/
theorem length_le_of_validateHops {previous : Option UInt32} {hops : List ObservedHop}
    (h : validateHops previous hops = .ok ()) :
    (previous.elim 0 (fun index => index.toNat + 1)) + hops.length ≤ 2 ^ 32 := by
  induction hops generalizing previous with
  | nil =>
    cases previous with
    | none => decide
    | some index =>
      have hbound := index.toNat_lt
      simp only [Option.elim_some, List.length_nil]
      omega
  | cons hop rest ih =>
    rw [validateHops] at h
    simp only [require_bind_eq_ok, decide_eq_true_eq] at h
    obtain ⟨-,-,-,hascends,hrest⟩ := h
    have htail := ih hrest
    simp only [Option.elim_some, List.length_cons] at htail ⊢
    cases previous with
    | none =>
      simp only [Option.elim_none]
      omega
    | some index =>
      have hlt : index.toNat < hop.index.toNat := UInt32.lt_iff_toNat_lt.mp (by simpa using hascends)
      simp only [Option.elim_some]
      omega

theorem length_le_of_validate {e : ObservedPathEvidence} {limits : Limits}
    (h : e.validate limits = .ok ()) : e.hops.length ≤ 2 ^ 32 := by
  unfold validate at h
  simp only [↓require_bind_eq_ok, bind_eq_ok] at h
  obtain ⟨-,-,-,-,-,-,-,-,-,-,-,-,_,hhops,-⟩ := h
  simpa using length_le_of_validateHops hhops

end ObservedPathEvidence

namespace ComparisonEngine
variable {engine : ComparisonEngine} {request : ComparisonRequest} {context : ComparisonContext}
  {routes : RouteGeneration} {group : PathGroup} {representative : Working}

/-- The result reports where the observed trace departs from the reference path. -/
structure ReportsWhere (result : ComparisonResult) (reference : ExpectedPath)
    (observed : List ObservedHop) : Prop where
  ne_nil : result.differences ≠ []
  increasing : (result.differences.map (·.index)).Pairwise (· < ·)
  within : ∀ d ∈ result.differences,
    d.index.toNat < max reference.hops.length observed.length
  structural : ∀ d ∈ result.differences,
    d.detail.categoryOf = .structural ∧ d.detail ∈ result.classes
  complete : ∀ i, DiffersAt reference observed i → ∃ d ∈ result.differences, d.index.toNat = i

/-- The trace of a divergence differs from every member somewhere. -/
theorem exists_differsAt {member : ExpectedPath} {hops : List ObservedHop}
    (h : ¬ TracesAgree member hops) : ∃ i, DiffersAt member hops i := by
  obtain ⟨i,e,⟨⟨o,ho,hdisagrees⟩,-⟩,he,-⟩ := firstDifference_of_disagreement h
  have hlt : i < member.hops.length := (List.getElem?_eq_some_iff.mp he).1
  refine ⟨i,lt_max_of_lt_left hlt,?_⟩
  rintro ⟨e',o',he',ho',hfollows⟩
  rw [ho] at ho'
  obtain rfl := Option.some.inj ho'
  exact hdisagrees e' he' hfollows

/-- The differences of a divergence are those of the representative's trace against
the reference path. -/
theorem differences_of_structural {reference : ExpectedPath}
    (hstructural : (engine.classification request context routes group representative).structural =
      true) (href : referencePath routes group request = some reference) :
    (engine.classification request context routes group representative).differences =
      hopDifferences reference representative.hops := by
  have heq : (engine.classification request context routes group representative).differences =
      (compareReference (engine.classification request context routes group
        representative).structural (referencePath routes group request)
        representative.hops).1 := rfl
  rw [heq, hstructural, href]
  rfl

/-- Once an accepted record agrees with a member nothing is reported. -/
theorem differences_of_anyMatchesMember
    (hany : (engine.classification request context routes group representative).anyMatchesMember =
      true) :
    (engine.classification request context routes group representative).differences = [] := by
  have heq : (engine.classification request context routes group representative).differences =
      (compareReference (engine.classification request context routes group
        representative).structural (referencePath routes group request)
        representative.hops).1 := rfl
  rw [heq, (classification_of_anyMatchesMember hany).1]
  rfl

theorem length_hops_le_of_mem {w : Working}
    (h : w ∈ engine.acceptedRecords request context routes) : w.hops.length ≤ 2 ^ 32 := by
  obtain ⟨e,-,hadmits,rfl⟩ := exists_of_mem_acceptedRecords h
  rw [ComparisonPolicy.acceptedWorking, List.length_map]
  exact ObservedPathEvidence.length_le_of_validate hadmits.valid

/-- The structural classes of a result come from its differences and from claims the
plan does not know. -/
theorem structural_mem_classes_iff
    (hreach : engine.Reaches request context routes group representative) {c : DivergenceClass}
    (hc : c.categoryOf = .structural) :
    c ∈ (engine.evaluate request context).classes ↔
      c ∈ (engine.classification request context routes group representative).differences.map
          (·.detail) ∨
        (pathIsUnknownToPlan routes request (engine.acceptedRecords request context routes) =
          true ∧ c = .pathUnknownToPlan) := by
  obtain ⟨verdict,-,hclasses,hconcludes⟩ := evaluate_of_reaches hreach
  have hnamed : c ≠ .none := by
    rintro rfl
    cases hc
  have hopening : c ∉ openingClasses (topologyMatches routes context) request.sourceSequenceGap
      (engine.workingOf request context routes) := by
    intro hmem
    rcases mem_openingClasses_workingOf hnamed hmem with rfl | hexcluded
    · cases hc
    · exact not_mem_exclusionClasses hc hexcluded
  have hquality : c ≠ .evidenceConflicting ∧ c ≠ .evidenceAmbiguous ∧ c ≠ .linkUnresolved := by
    refine ⟨?_,?_,?_⟩ <;> rintro rfl <;> cases hc
  have hunknown : (engine.classification request context routes group
      representative).pathUnknown = pathIsUnknownToPlan routes request
        (engine.acceptedRecords request context routes) := rfl
  rw [hconcludes.classes, OutcomeFacts.mem_decideOutcome (not_mem_gateClasses hc), hclasses]
  simp only [Classification.classes, mem_addClassIf, mem_foldl_addClass, hopening, hquality,
    hunknown]
  simp [hnamed]

/-- A divergence whose reference path is a member of the group reports every
position at which the representative departs from it, and a comparison in which some
accepted record agrees with a member reports none. -/
theorem divergent_says_where (engine : ComparisonEngine) (request : ComparisonRequest)
    (context : ComparisonContext) (result : ComparisonResult)
    (hf : ∀ routes, context.routes = some routes → routes.Finalised)
    (hresult : engine.compare request context = .ok result) :
    (result.outcome = .divergent → ∃ routes group representative,
      engine.Reaches request context routes group representative ∧
      ∀ reference, referencePath routes group request = some reference →
        reference.id ∈ group.members →
        ReportsWhere result reference representative.hops) ∧
    ∀ routes group, context.routes = some routes → resolveGroup routes request = some group →
      (∃ w ∈ engine.acceptedRecords request context routes, ∃ member ∈ memberPaths routes group,
        (compareTrace member w.hops).traceMatch = .exact_ ∨
          (compareTrace member w.hops).traceMatch = .prefix_) →
      result.differences = [] := by
  constructor
  · intro hout
    obtain ⟨routes,group,representative,hreach,hdiverges⟩ :=
      divergent_iff_diverges.mp ⟨result,hresult,hout⟩
    refine ⟨routes,group,representative,hreach,fun reference href hmember => ?_⟩
    obtain ⟨-,-,-,rfl⟩ := compare_eq_ok.mp hresult
    obtain ⟨verdict,-,hclasses,hconcludes⟩ := evaluate_of_reaches hreach
    have hstructural := classification_structural.mpr ⟨hdiverges.unmatched,hdiverges.observed⟩
    have hdifferences : (engine.evaluate request context).seal_.differences =
        hopDifferences reference representative.hops :=
      hconcludes.differences.trans (differences_of_structural hstructural href)
    have hfound := referencePath_found href
    have hpath := ((hf routes hreach.routes_eq).findPath hfound).1
    have hbound : max reference.hops.length representative.hops.length ≤ 2 ^ 32 :=
      max_le hpath.length_le (length_hops_le_of_mem hreach.mem)
    have hposition : ∀ i, DiffersAt reference representative.hops i →
        (UInt32.ofNat i).toNat = i := fun i hi => UInt32.toNat_ofNat_of_lt' (hi.1.trans_le hbound)
    refine ⟨?_,?_,?_,?_,?_⟩
    · rw [hdifferences]
      obtain ⟨i,hi⟩ := exists_differsAt (Working.not_tracesAgree
        (List.mem_filterMap.mpr ⟨_,hmember,hfound⟩) hpath.hops_ne_nil hdiverges.observed
        (hdiverges.unmatched _ hreach.mem))
      exact List.ne_nil_of_mem (mem_hopDifferences.mpr ⟨i,hi,rfl⟩)
    · rw [hdifferences]
      exact hopDifferences_index hbound
    · intro d hd
      obtain ⟨i,hi,rfl⟩ := mem_hopDifferences.mp (hdifferences ▸ hd)
      rw [hopDifference_index, hposition i hi]
      exact hi.1
    · intro d hd
      have hreported : d ∈ (engine.classification request context routes group
          representative).differences := hconcludes.differences ▸ hd
      have hclass := structural_iff.mpr (Or.inr (compareReference_detail_mem hreported))
      exact ⟨hclass,(structural_mem_classes_iff hreach hclass).mpr
        (Or.inl (List.mem_map.mpr ⟨d,hreported,rfl⟩))⟩
    · intro i hi
      refine ⟨_,hdifferences ▸ mem_hopDifferences.mpr ⟨i,hi,rfl⟩,?_⟩
      rw [hopDifference_index, hposition i hi]
  · rintro routes group hroutes hgroup ⟨w,hw,member,hmember,hmatch⟩
    obtain ⟨-,-,-,rfl⟩ := compare_eq_ok.mp hresult
    show (engine.evaluate request context).differences = []
    cases hgeneration : generationMatches routes request context with
    | false =>
      rw [evaluate_of_mismatch (by simp [hroutes, hgeneration])]
      rfl
    | true =>
      obtain ⟨representative,rest,hrest⟩ := List.exists_cons_of_ne_nil (List.ne_nil_of_mem hw)
      obtain ⟨hpolicy,hvalid,hlimit,-⟩ := compare_eq_ok.mp hresult
      have hreach : engine.Reaches request context routes group representative :=
        ⟨hpolicy,hvalid,hlimit,hroutes,hgeneration,hgroup,by rw [hrest, List.head?_cons]⟩
      obtain ⟨verdict,-,-,hconcludes⟩ := evaluate_of_reaches hreach
      have hmatches : w.matchesAMember (memberPaths routes group) = true :=
        List.any_eq_true.mpr ⟨member,hmember,by simpa [Working.traceIs] using hmatch⟩
      have hany : (engine.classification request context routes group
          representative).anyMatchesMember = true := anyMatchesMember_of_mem hw hmatches
      rw [hconcludes.differences, differences_of_anyMatchesMember hany]

/-- A trace that leaves out the second device is reported with its position. -/
theorem divergent_says_where_sample :
    ∃ result, sampleEngine.compare (sampleRequest gappedEvidence) sampleContext = .ok result ∧
      result.differences ≠ [] := by
  obtain ⟨result,hresult,hout⟩ := sample_compare (by decide) sample_generation
    (sample_resolveGroup _) gappedEvidence_working
  obtain ⟨routes,group,representative,hreach,hreports⟩ :=
    (divergent_says_where sampleEngine _ sampleContext result sampleContext_finalised hresult).1
      (hout.trans (by decide))
  obtain rfl : sampleRoutes = routes := Option.some.inj hreach.routes_eq
  obtain rfl : sampleGroup = group :=
    Option.some.inj ((sample_resolveGroup _).symm.trans hreach.group_eq)
  have hreference : (referencePath sampleRoutes sampleGroup (sampleRequest gappedEvidence)).any
      (fun path => path.id ∈ sampleGroup.members) = true := by decide
  obtain ⟨reference,href,hmember⟩ := (Option.any_eq_true _ _).mp hreference
  exact ⟨result,hresult,(hreports reference href (by simpa using hmember)).ne_nil⟩

end ComparisonEngine

end PathObservatory
