import PathObservatory.Engine.FalseDivergence
import PathObservatory.Engine.Judgeable
import PathObservatory.Engine.MatchedPath
import PathObservatory.Laboratory.Plan

/-! # The judgement of the laboratory

What a comparison of the evidence with the plan in force concludes follows from the options
and the time alone: the evidence conforms, diverges, or determines nothing.
-/
namespace PathObservatory

theorem tracesCompatible_self (hops : List ObservedHop) : tracesCompatible hops hops = true := by
  unfold tracesCompatible
  rw [List.all_eq_true]
  rintro ⟨a,b⟩ hmem
  obtain ⟨i,ha,hb⟩ := mem_zip_iff.mp hmem
  obtain rfl : a = b := Option.some.inj (ha.symm.trans hb)
  simp [hopsCompatible]

theorem removeDuplicates_ne_nil {working : List Working} (h : working ≠ []) :
    removeDuplicates working ≠ [] := by
  obtain ⟨first,rest,rfl⟩ := List.exists_cons_of_ne_nil h
  unfold removeDuplicates
  rw [List.destutter_cons']
  exact List.ne_nil_of_mem (List.mem_destutter' _ _ first)

namespace Synthetic.LabOptions

section Verdict
variable (options : LabOptions)

/-- The evidence names a generation, and not the one of the plan. -/
def Misnamed : Prop := options.unknownGeneration = true ∧ options.routeGeneration + 100 ≠ 0

instance : Decidable options.Misnamed := inferInstanceAs (Decidable (_ ∧ _))

/-- The generation that the evidence is about. -/
def named : RouteGenerationId :=
  if options.Misnamed then ⟨options.routeGeneration + 100⟩ else ⟨options.routeGeneration⟩

/-- The evidence is about the plan in force. -/
def UpToDate : Prop :=
  ¬ options.Misnamed ∧ options.staleEpoch = false ∧ options.staleRevision = false

instance : Decidable options.UpToDate := inferInstanceAs (Decidable (_ ∧ _))

def freshnessAt (now : TimePoint) : Freshness := (assessEvidence (options.observation 0) now {}).state

/-- The evidence covers the plan at a time. -/
def Conforms (now : TimePoint) : Prop :=
  options.UpToDate ∧ options.freshnessAt now = .fresh ∧ ¬ options.Disturbed ∧
    options.partial_ = false ∧ options.emptyTrace = false

/-- The evidence contradicts the plan at a time. -/
def Diverges (now : TimePoint) : Prop :=
  options.UpToDate ∧ options.freshnessAt now = .fresh ∧ options.Disturbed ∧
    options.emptyTrace = false

instance (now : TimePoint) : Decidable (options.Conforms now) :=
  inferInstanceAs (Decidable (_ ∧ _))

instance (now : TimePoint) : Decidable (options.Diverges now) :=
  inferInstanceAs (Decidable (_ ∧ _))

def verdict (now : TimePoint) : MatchOutcome :=
  if options.Conforms now then .match_
  else if options.Diverges now then .divergent
  else .indeterminate

end Verdict

/-- The source of the evidence is one that can be judged, and not the authority. -/
structure Observing (options : LabOptions) : Prop where
  surface : options.surface = .real ∨ options.surface = .synthetic
  authority : AuthorityClass.advisory ≤ options.observerAuthority
  apart : options.planningSourceId ≠ options.observerSourceId

/-- A record of the evidence as it is offered. -/
def offer (options : LabOptions) (index : ℕ) : ObservedPathEvidence :=
  (options.observation index).seal_

/-- The engine is asked about the evidence under the plan of the laboratory. -/
structure Judging (options : LabOptions) (engine : ComparisonEngine) (request : ComparisonRequest)
    (context : ComparisonContext) : Prop where
  policy : engine.policy = {}
  limits : engine.limits = {}
  routes : context.routes = some options.routesPlan.canonical
  topology : context.topology = some options.topologyPlan.canonical
  index : ∃ index, context.topologyIndex = some index ∧
    TopologyIndex.build options.topologyPlan.canonical {} = .ok index
  sources : ∃ registry, context.sources = some registry ∧
    registry.find options.observer.id = .ok options.observer
  epoch : context.authority.epoch = ⟨options.planEpoch⟩
  incarnation : context.authority.incarnation = ⟨options.incarnation⟩
  revision : context.authority.routeRevision = ⟨options.planRevision⟩
  generation : request.generation = options.named
  group : request.group = ⟨groupId⟩
  path : request.path = {}
  gapless : request.sourceSequenceGap = false
  offered : request.evidence ≠ []
  bounded : request.evidence.length ≤ 4096
  evidence : ∀ e ∈ request.evidence, (∃ i, options.offer i = e) ∧ e.validate {} = .ok ()

variable {options : LabOptions} {engine : ComparisonEngine} {request : ComparisonRequest}
  {context : ComparisonContext} {index : TopologyIndex} {m : ℕ}

theorem traceLength_eq_zero (h : 2 ≤ options.hops) :
    options.traceLength = 0 ↔ options.emptyTrace = true := by
  cases hempty : options.emptyTrace with
  | true => simp [traceLength, hempty]
  | false =>
    have hpos : options.traceLength ≠ 0 := by
      simp only [traceLength, hempty, Bool.false_eq_true, if_false]
      split_ifs <;> omega
    simp [hpos]

theorem trace_eq_nil (h : 2 ≤ options.hops) :
    options.trace = [] ↔ options.emptyTrace = true := by
  rw [← traceLength_eq_zero h, trace, List.map_eq_nil_iff, List.range_eq_nil]

theorem expectedPath_hops_ne_nil (h : 2 ≤ options.hops) (m : ℕ) :
    (options.expectedPath m).hops ≠ [] := by
  apply List.ne_nil_of_length_pos
  simp [expectedPath]
  omega

section Traces
variable {w : Working} (h : options.Sized)
  (hindex : TopologyIndex.build options.topologyPlan.canonical {} = .ok index)
  (hw : w.hops = correlateTrace (some index) options.trace)
include h hindex hw

/-- The trace agrees with the first member or with none. -/
theorem agreesWith_iff_first (hm : m < options.members) :
    w.agreesWith (options.expectedPath m).stamped = true ↔
      m = 0 ∧ ¬ options.Disturbed ∧ options.emptyTrace = false := by
  have hnil : w.hops ≠ [] ↔ options.emptyTrace = false := by
    rw [hw, Ne, correlateTrace_eq_nil, trace_eq_nil h.hops_ge, Bool.not_eq_true]
  have hstamped : TracesAgree (options.expectedPath m).stamped w.hops ↔
      TracesAgree (options.expectedPath m) w.hops := Iff.rfl
  rw [Working.agreesWith_iff, hnil, hstamped, hw]
  constructor
  · rintro ⟨-,hseen,hagree⟩
    have hpos : options.traceLength ≠ 0 := by
      rw [Ne, traceLength_eq_zero h.hops_ge, hseen]
      decide
    have hfirst : m = 0 := by
      by_contra hother
      exact not_tracesAgree_other h _ hm hother (Nat.pos_of_ne_zero hpos) hagree
    subst hfirst
    refine ⟨rfl,fun hdisturbed => ?_,hseen⟩
    refine not_tracesAgree_first _ hdisturbed ?_ hagree
    have hlong := hdisturbed.2
    simp only [traceLength, hseen, Bool.false_eq_true, if_false]
    split_ifs <;> omega
  · rintro ⟨rfl,hcalm,hseen⟩
    exact ⟨expectedPath_hops_ne_nil h.hops_ge 0,hseen,tracesAgree_first h hindex hcalm⟩

theorem traceIs_exact_first (hcalm : ¬ options.Disturbed) (hwhole : options.partial_ = false)
    (hseen : options.emptyTrace = false) :
    w.traceIs .exact_ (options.expectedPath 0).stamped = true := by
  have hagrees := (agreesWith_iff_first h hindex hw h.members_pos).mpr ⟨rfl,hcalm,hseen⟩
  obtain ⟨hhops,hne,hagree⟩ := Working.agreesWith_iff.mp hagrees
  have hlength : (options.expectedPath 0).stamped.hops.length ≤ w.hops.length := by
    have hexpected : (options.expectedPath 0).stamped.hops.length = options.hops := by
      show (options.expectedPath 0).hops.length = options.hops
      simp [expectedPath]
    rw [hexpected, hw]
    simp [trace, traceLength, hseen, hwhole]
  rcases compareTrace_cases w.hops hhops with ⟨hnil,-⟩ | ⟨-,hnot,-⟩ | ⟨-,-,hlt,-⟩ | ⟨-,-,-,ht⟩
  · exact absurd hnil hne
  · exact absurd hagree hnot
  · exact absurd hlength (not_le.mpr hlt)
  · simp [Working.traceIs, ht]

end Traces

theorem contiguous_trace (h : options.Sized) (index : Option TopologyIndex) :
    hopIndicesAreContiguous (correlateTrace index options.trace) = true := by
  rw [hopIndicesAreContiguous_iff]
  intro i hop hhop
  rw [getElem?_correlateTrace, trace_getElem?] at hhop
  split_ifs at hhop with hi
  · obtain rfl := Option.some.inj hhop
    have hlength := traceLength_le options h.hops_ge
    have hle := h.hops_le
    rw [correlateHop_index]
    exact observedHop_index options (by omega)
  · cases hhop

/-- Every link that the first member declares is found. -/
theorem links_resolved (h : options.Sized)
    (hindex : TopologyIndex.build options.topologyPlan.canonical {} = .ok index)
    (hcalm : ¬ options.Disturbed) :
    linkIsUnresolved (options.expectedPath 0).stamped
      (correlateTrace (some index) options.trace) [] = false := by
  rw [← Bool.not_eq_true, ComparisonEngine.linkIsUnresolved_nil]
  rintro ⟨i,e,o,he,ho,hdeclared,habsent⟩
  have he : (options.expectedPath 0).hops[i]? = some e := he
  rw [expectedPath_hops] at he
  rw [getElem?_correlateTrace, trace_getElem?] at ho
  split_ifs at he with hi
  split_ifs at ho with hlength
  · obtain rfl := Option.some.inj he
    obtain rfl := Option.some.inj ho
    have hnext : i + 1 < options.hops := of_decide_eq_true hdeclared
    have hstates := (correlateHop_link h hindex hi fun hcase => hcalm hcase.1).1.mpr hnext
    exact absurd (hstates.symm.trans habsent) (by decide)
  · cases ho

namespace Judging
open ComparisonEngine
variable (h : options.Judging engine request context)
include h

theorem generationMatches_iff : generationMatches options.routesPlan.canonical request context = true ↔
    ¬ options.Misnamed := by
  have hid : options.routesPlan.canonical.id = ⟨options.routeGeneration⟩ := rfl
  have hepoch : options.routesPlan.canonical.epoch = ⟨options.planEpoch⟩ := rfl
  have hincarnation : options.routesPlan.canonical.incarnation = ⟨options.incarnation⟩ := rfl
  simp only [generationMatches, hid, hepoch, hincarnation, h.epoch, h.incarnation, h.generation,
    decide_true, Bool.and_true, decide_eq_true_eq]
  unfold named
  split_ifs with hmisnamed
  · simp only [hmisnamed, not_true_eq_false, iff_false, StrongId.mk.injEq]
    exact fun heq => absurd (UInt64.left_eq_add.mp heq) (by decide)
  · simp [hmisnamed]

theorem resolved : resolveGroup options.routesPlan.canonical request =
    some options.pathGroup.tidied := by
  have hpresent : request.group.present = true := by
    rw [h.group]
    rfl
  unfold resolveGroup
  rw [if_pos hpresent, h.group]
  exact findGroup_groupId options

theorem topologyMatches_eq : topologyMatches options.routesPlan.canonical context = true := by
  have hrest := topologyPlan_rest options
  have hid : options.topologyPlan.canonical.id = ⟨options.topologyGeneration⟩ :=
    congrArg TopologyGeneration.id hrest
  have hepoch : options.topologyPlan.canonical.epoch = ⟨options.planEpoch⟩ :=
    congrArg TopologyGeneration.epoch hrest
  have hincarnation : options.topologyPlan.canonical.incarnation = ⟨options.incarnation⟩ :=
    congrArg TopologyGeneration.incarnation hrest
  have hplan : options.routesPlan.canonical.topology = ⟨options.topologyGeneration⟩ := rfl
  simp [topologyMatches, h.topology, h.epoch, h.incarnation, hid, hepoch, hincarnation, hplan]

theorem sourcePolicy_eq (i : ℕ) : sourcePolicy engine.policy context (options.offer i) = {} := by
  obtain ⟨registry,hsources,hfind⟩ := h.sources
  have hsource : (options.offer i).source = options.observer.id := rfl
  unfold sourcePolicy
  simp only [hsources, hsource, hfind, h.policy]
  rfl

/-- Whether a record is admitted does not depend on the record. -/
theorem admits_iff (hobserving : options.Observing) {e : ObservedPathEvidence}
    (he : e ∈ request.evidence) :
    engine.Admits request context options.routesPlan.canonical e ↔
      options.staleEpoch = false ∧ options.staleRevision = false := by
  obtain ⟨⟨i,rfl⟩,hvalid⟩ := h.evidence e he
  constructor
  · intro hadmits
    have hepoch := hadmits.epoch
    have hrevision := hadmits.revision
    rw [h.epoch] at hepoch
    rw [h.revision] at hrevision
    simp only [offer, ObservedPathEvidence.seal_, observation, planEpoch, planRevision,
      StrongId.mk.injEq] at hepoch hrevision
    constructor
    · by_contra hstale
      rw [Bool.not_eq_false] at hstale
      rw [if_pos hstale] at hepoch
      exact absurd (UInt64.left_eq_add.mp hepoch) (by decide)
    · by_contra hstale
      rw [Bool.not_eq_false] at hstale
      rw [if_pos hstale] at hrevision
      exact absurd (UInt64.left_eq_add.mp hrevision) (by decide)
  · rintro ⟨hepoch,hrevision⟩
    exact {
      epoch := by
        rw [h.epoch, planEpoch, hepoch]
        rfl
      incarnation := by
        rw [h.incarnation]
        rfl
      revision := by
        rw [h.revision, planRevision, hrevision]
        rfl
      routeGeneration := by
        intro hpresent
        have hnamed : (options.offer i).routeGeneration =
            if options.unknownGeneration then ⟨⟨options.routeGeneration + 100⟩⟩
            else ⟨⟨options.routeGeneration⟩⟩ := rfl
        rw [hnamed] at hpresent ⊢
        rw [h.generation, named]
        by_cases hunknown : options.unknownGeneration = true
        · rw [if_pos hunknown] at hpresent ⊢
          have hmisnamed : options.Misnamed :=
            ⟨hunknown,by simpa [MaybeId.present, StrongId.valid] using hpresent⟩
          rw [if_pos hmisnamed]
        · rw [if_neg hunknown, if_neg fun hmisnamed => hunknown hmisnamed.1]
      topologyGeneration := fun _ => rfl
      surface := hobserving.surface
      authority := fun _ => hobserving.authority
      valid := by rwa [h.limits]
      registered := by
        intro registry hregistry
        obtain ⟨known,hsources,hfind⟩ := h.sources
        obtain rfl : known = registry := Option.some.inj (hsources.symm.trans hregistry)
        exact ⟨options.observer,hfind,le_refl _⟩ }

/-- The accepted records carry the correlated trace of the laboratory. -/
theorem of_mem_acceptedRecords {w : Working}
    (hw : w ∈ engine.acceptedRecords request context options.routesPlan.canonical) :
    (∃ i, w.evidence = options.offer i) ∧
      w.hops = correlateTrace context.topologyIndex options.trace ∧
      w.freshness = options.freshnessAt context.now := by
  obtain ⟨e,he,-,rfl⟩ := exists_of_mem_acceptedRecords hw
  obtain ⟨⟨i,rfl⟩,-⟩ := h.evidence e he
  refine ⟨⟨i,rfl⟩,rfl,?_⟩
  simp only [ComparisonPolicy.acceptedWorking, h.sourcePolicy_eq i]
  rfl

/-- Evidence that is up to date reaches the gates. -/
theorem reaches (hbuild : options.Buildable) (hobserving : options.Observing)
    (hcurrent : options.UpToDate) : ∃ representative,
      engine.Reaches request context options.routesPlan.canonical options.pathGroup.tidied
        representative := by
  have hadmits : ∀ e ∈ request.evidence,
      engine.Admits request context options.routesPlan.canonical e :=
    fun e he => (h.admits_iff hobserving he).mpr hcurrent.2
  have hworking := workingOf_of_admits hadmits
  have hne : engine.workingOf request context options.routesPlan.canonical ≠ [] := by
    rw [hworking]
    apply removeDuplicates_ne_nil
    obtain ⟨e,he⟩ := List.exists_mem_of_ne_nil _ h.offered
    exact List.ne_nil_of_mem ((engine.sorter.mem_sort).mpr (List.mem_map_of_mem he))
  have hall : engine.acceptedRecords request context options.routesPlan.canonical =
      engine.workingOf request context options.routesPlan.canonical := by
    apply List.filter_eq_self.mpr
    intro w hw
    rw [hworking] at hw
    obtain ⟨e,-,rfl⟩ :=
      List.mem_map.mp ((engine.sorter.mem_sort).mp ((List.destutter_sublist _ _).subset hw))
    rfl
  obtain ⟨representative,rest,hcons⟩ := List.exists_cons_of_ne_nil hne
  exact ⟨representative,{
    policy_valid := by
      rw [h.policy]
      rfl
    generation_valid := by
      rw [h.generation, named, if_neg hcurrent.1]
      simpa [StrongId.valid] using hbuild.routeGeneration
    bounded := by
      rw [h.limits]
      exact h.bounded
    routes_eq := h.routes
    generation := h.generationMatches_iff.mpr hcurrent.1
    group_eq := h.resolved
    representative_eq := by rw [hall, hcons]; rfl }⟩

/-- Nothing else reaches them. -/
theorem upToDate_of_reaches (hobserving : options.Observing) {routes : RouteGeneration}
    {group : PathGroup} {representative : Working}
    (hreach : engine.Reaches request context routes group representative) :
    options.UpToDate ∧ routes = options.routesPlan.canonical ∧ group = options.pathGroup.tidied := by
  obtain rfl : options.routesPlan.canonical = routes :=
    Option.some.inj (h.routes.symm.trans hreach.routes_eq)
  obtain rfl : options.pathGroup.tidied = group :=
    Option.some.inj (h.resolved.symm.trans hreach.group_eq)
  obtain ⟨e,he,hadmits,-⟩ := exists_of_mem_acceptedRecords hreach.mem
  have hgeneration := h.generationMatches_iff.mp hreach.generation
  exact ⟨⟨hgeneration,(h.admits_iff hobserving he).mp hadmits⟩,rfl,rfl⟩

/-- The path that every record claims is the one it is compared with. -/
theorem referencePath_eq (hbuild : options.Buildable) :
    referencePath options.routesPlan.canonical options.pathGroup.tidied request =
      some (options.expectedPath 0).stamped := by
  have hclaimed : ∀ e ∈ request.evidence,
      claimedPath options.routesPlan.canonical options.pathGroup.tidied e.path =
        some (options.expectedPath 0).stamped := by
    intro e he
    obtain ⟨⟨i,rfl⟩,-⟩ := h.evidence e he
    have hpath : (options.offer i).path = ⟨pathId 0⟩ := rfl
    have hpresent : (⟨pathId 0⟩ : MaybeId .path).present = true := rfl
    unfold claimedPath
    rw [hpath, if_pos hpresent, findPath_pathId hbuild.toSized hbuild.toIdentified
      hbuild.members_pos]
    rfl
  obtain ⟨first,rest,hcons⟩ := List.exists_cons_of_ne_nil h.offered
  have hfirst := hclaimed first (hcons ▸ List.mem_cons_self)
  unfold referencePath
  rw [h.path, hcons, List.findSome?_cons, hfirst]
  rfl

section Accepted
variable (hbuild : options.Buildable) {w : Working}
  (hw : w ∈ engine.acceptedRecords request context options.routesPlan.canonical)
include hbuild hw

theorem hops_eq_nil : w.hops = [] ↔ options.emptyTrace = true := by
  rw [(h.of_mem_acceptedRecords hw).2.1, correlateTrace_eq_nil, trace_eq_nil hbuild.hops_ge]

theorem matchesAMember_iff :
    w.matchesAMember (memberPaths options.routesPlan.canonical options.pathGroup.tidied) = true ↔
      ¬ options.Disturbed ∧ options.emptyTrace = false := by
  obtain ⟨index,hsome,hindex⟩ := h.index
  have hhops := (h.of_mem_acceptedRecords hw).2.1
  rw [hsome] at hhops
  have hany : w.matchesAMember
      (memberPaths options.routesPlan.canonical options.pathGroup.tidied) =
        (memberPaths options.routesPlan.canonical options.pathGroup.tidied).any w.agreesWith := rfl
  rw [hany, List.any_eq_true]
  constructor
  · rintro ⟨member,hmember,hagrees⟩
    obtain ⟨m,hm,rfl⟩ := (mem_memberPaths hbuild.toSized hbuild.toIdentified).mp hmember
    exact ((agreesWith_iff_first hbuild.toSized hindex hhops hm).mp hagrees).2
  · intro hcalm
    exact ⟨_,(mem_memberPaths hbuild.toSized hbuild.toIdentified).mpr ⟨0,hbuild.members_pos,rfl⟩,
      (agreesWith_iff_first hbuild.toSized hindex hhops hbuild.members_pos).mpr ⟨rfl,hcalm⟩⟩

theorem traceIsExact (hcalm : ¬ options.Disturbed) (hwhole : options.partial_ = false)
    (hseen : options.emptyTrace = false) :
    w.traceIsExact (memberPaths options.routesPlan.canonical options.pathGroup.tidied) = true := by
  obtain ⟨index,hsome,hindex⟩ := h.index
  have hhops := (h.of_mem_acceptedRecords hw).2.1
  rw [hsome] at hhops
  apply List.any_eq_true.mpr
  exact ⟨_,(mem_memberPaths hbuild.toSized hbuild.toIdentified).mpr ⟨0,hbuild.members_pos,rfl⟩,
    traceIs_exact_first hbuild.toSized hindex hhops hcalm hwhole hseen⟩

theorem isIncomplete_eq_false (hcalm : ¬ options.Disturbed) (hwhole : options.partial_ = false)
    (hseen : options.emptyTrace = false) :
    w.isIncomplete (memberPaths options.routesPlan.canonical options.pathGroup.tidied) =
      false := by
  obtain ⟨⟨i,hevidence⟩,hhops,-⟩ := h.of_mem_acceptedRecords hw
  have htruncated : w.evidence.sourceTruncated = false := by
    rw [hevidence]
    exact hwhole
  have hdeclared : w.evidence.declaredCompleteness = .complete := by
    rw [hevidence]
    show (if options.emptyTrace then EvidenceCompleteness.unknown
      else if options.partial_ then .partial_ else .complete) = .complete
    rw [hseen, hwhole]
    rfl
  have hcontiguous : hopIndicesAreContiguous w.hops = true := by
    rw [hhops]
    exact contiguous_trace hbuild.toSized _
  simp [Working.isIncomplete, htruncated, hdeclared, hcontiguous,
    h.traceIsExact hbuild hw hcalm hwhole hseen,
    (h.matchesAMember_iff hbuild hw).mpr ⟨hcalm,hseen⟩]

end Accepted

/-- All records have one trace, so that they do not conflict. -/
theorem agreeing : (engine.acceptedRecords request context options.routesPlan.canonical).Pairwise
    (fun left right => left.conflictsWith right = false) := by
  apply List.pairwise_of_forall_mem_list
  intro left hleft right hright
  simp [Working.conflictsWith, (h.of_mem_acceptedRecords hleft).2.1,
    (h.of_mem_acceptedRecords hright).2.1, tracesCompatible_self]

section Gates
variable (hbuild : options.Buildable) {representative : Working}
  (hreach : engine.Reaches request context options.routesPlan.canonical
    options.pathGroup.tidied representative)
include hbuild hreach

theorem complies_iff :
    engine.Complies request context options.routesPlan.canonical options.pathGroup.tidied
        representative ↔
      options.freshnessAt context.now = .fresh ∧ ¬ options.Disturbed ∧
        options.partial_ = false ∧ options.emptyTrace = false := by
  obtain ⟨⟨i,hevidence⟩,hhops,hfreshness⟩ := h.of_mem_acceptedRecords hreach.mem
  constructor
  · intro hcomplies
    have hmatches := Working.matchesAMember_iff.mpr (Or.inl hcomplies.matched)
    obtain ⟨hcalm,hseen⟩ := (h.matchesAMember_iff hbuild hreach.mem).mp hmatches
    have hcomplete := hcomplies.complete representative hreach.mem
    simp only [Working.isIncomplete, Bool.or_eq_false_iff, hevidence] at hcomplete
    exact ⟨hfreshness ▸ hcomplies.fresh representative hreach.mem,hcalm,
      hcomplete.1.1.1.1,hseen⟩
  · rintro ⟨hfresh,hcalm,hwhole,hseen⟩
    exact {
      agreeing := h.agreeing
      fresh := fun w hw => (h.of_mem_acceptedRecords hw).2.2.trans hfresh
      unambiguous := by
        intro hambiguity
        rw [h.policy] at hambiguity
        cases hambiguity
      complete := fun w hw => h.isIncomplete_eq_false hbuild hw hcalm hwhole hseen
      gapless := h.gapless
      linked := by
        intro reference hreference
        obtain ⟨index,hsome,hindex⟩ := h.index
        rw [h.referencePath_eq hbuild] at hreference
        obtain rfl := Option.some.inj hreference
        rw [hhops, hsome]
        exact links_resolved hbuild.toSized hindex hcalm
      topology := fun _ => h.topologyMatches_eq
      authority := by
        obtain ⟨e,-,hadmits,rfl⟩ := exists_of_mem_acceptedRecords hreach.mem
        exact hadmits.authority (by rw [h.policy])
      real := by
        intro hreal
        rw [h.policy] at hreal
        cases hreal
      matched := h.traceIsExact hbuild hreach.mem hcalm hwhole hseen }

theorem diverges_iff :
    engine.Diverges request context options.routesPlan.canonical options.pathGroup.tidied
        representative ↔
      options.freshnessAt context.now = .fresh ∧ options.Disturbed ∧
        options.emptyTrace = false := by
  obtain ⟨-,-,hfreshness⟩ := h.of_mem_acceptedRecords hreach.mem
  constructor
  · intro hdiverges
    have hseen : options.emptyTrace = false := by
      rw [← Bool.not_eq_true, ← h.hops_eq_nil hbuild hreach.mem]
      exact hdiverges.observed
    refine ⟨hfreshness ▸ hdiverges.fresh representative hreach.mem,?_,hseen⟩
    by_contra hcalm
    have hmatches := (h.matchesAMember_iff hbuild hreach.mem).mpr ⟨hcalm,hseen⟩
    exact absurd (hmatches.symm.trans (hdiverges.unmatched representative hreach.mem)) (by decide)
  · rintro ⟨hfresh,hdisturbed,hseen⟩
    exact {
      agreeing := h.agreeing
      fresh := fun w hw => (h.of_mem_acceptedRecords hw).2.2.trans hfresh
      unmatched := by
        intro w hw
        rw [← Bool.not_eq_true, h.matchesAMember_iff hbuild hw]
        exact fun hcalm => hcalm.1 hdisturbed
      observed := by
        rw [Ne, h.hops_eq_nil hbuild hreach.mem, hseen]
        decide }

/-- A match names the first member. -/
theorem matchedPath_eq (hcalm : ¬ options.Disturbed) (hseen : options.emptyTrace = false) :
    (engine.classification request context options.routesPlan.canonical options.pathGroup.tidied
      representative).matchedPath = ⟨pathId 0⟩ := by
  obtain ⟨index,hsome,hindex⟩ := h.index
  have hhops := (h.of_mem_acceptedRecords hreach.mem).2.1
  rw [hsome] at hhops
  have hmatches := (h.matchesAMember_iff hbuild hreach.mem).mpr ⟨hcalm,hseen⟩
  obtain ⟨member,hfind⟩ := Option.isSome_iff_exists.mp
    (List.find?_isSome.mpr (List.any_eq_true.mp hmatches))
  obtain ⟨m,hm,rfl⟩ :=
    (mem_memberPaths hbuild.toSized hbuild.toIdentified).mp (List.mem_of_find?_eq_some hfind)
  obtain ⟨rfl,-⟩ :=
    (agreesWith_iff_first hbuild.toSized hindex hhops hm).mp (List.find?_some hfind)
  exact classification_matchedPath hfind

end Gates

/-- The engine does not refuse the comparison. -/
theorem compare_ok (hbuild : options.Buildable) :
    ∃ result, engine.compare request context = .ok result := by
  refine ⟨_,compare_eq_ok.mpr ⟨?_,?_,?_,rfl⟩⟩
  · rw [h.policy]
    rfl
  · rw [h.generation, named]
    split_ifs with hmisnamed
    · simpa [StrongId.valid] using hmisnamed.2
    · simpa [StrongId.valid] using hbuild.routeGeneration
  · rw [h.limits]
    exact h.bounded

theorem finalised (hbuild : options.Buildable) {routes : RouteGeneration}
    (hroutes : context.routes = some routes) : routes.Finalised := by
  obtain rfl := Option.some.inj (h.routes.symm.trans hroutes)
  exact ⟨options.routesPlan,{},RouteGeneration.finalize_eq_ok.mpr
    ⟨routesPlan_accepted hbuild.toSized hbuild.toIdentified,rfl⟩⟩

section Answer
variable (hbuild : options.Buildable) (hobserving : options.Observing)
include hbuild hobserving

theorem match_iff_conforms {result : ComparisonResult}
    (hresult : engine.compare request context = .ok result) :
    result.outcome = .match_ ↔ options.Conforms context.now := by
  constructor
  · intro hmatch
    obtain ⟨routes,group,representative,hreach,hcomplies⟩ :=
      (match_iff_complies fun _ => h.finalised hbuild).mp ⟨result,hresult,hmatch⟩
    obtain ⟨hcurrent,rfl,rfl⟩ := h.upToDate_of_reaches hobserving hreach
    exact ⟨hcurrent,(h.complies_iff hbuild hreach).mp hcomplies⟩
  · rintro ⟨hcurrent,hcovers⟩
    obtain ⟨representative,hreach⟩ := h.reaches hbuild hobserving hcurrent
    obtain ⟨other,hother,hmatch⟩ :=
      (match_iff_complies fun _ => h.finalised hbuild).mpr
        ⟨_,_,_,hreach,(h.complies_iff hbuild hreach).mpr hcovers⟩
    obtain rfl := Except.ok.inj (hother.symm.trans hresult)
    exact hmatch

theorem divergent_iff_contradicts {result : ComparisonResult}
    (hresult : engine.compare request context = .ok result) :
    result.outcome = .divergent ↔ options.Diverges context.now := by
  constructor
  · intro hdivergent
    obtain ⟨routes,group,representative,hreach,hdiverges⟩ :=
      divergent_iff_diverges.mp ⟨result,hresult,hdivergent⟩
    obtain ⟨hcurrent,rfl,rfl⟩ := h.upToDate_of_reaches hobserving hreach
    exact ⟨hcurrent,(h.diverges_iff hbuild hreach).mp hdiverges⟩
  · rintro ⟨hcurrent,hcontradicts⟩
    obtain ⟨representative,hreach⟩ := h.reaches hbuild hobserving hcurrent
    obtain ⟨other,hother,hdivergent⟩ := divergent_iff_diverges.mpr
      ⟨_,_,_,hreach,(h.diverges_iff hbuild hreach).mpr hcontradicts⟩
    obtain rfl := Except.ok.inj (hother.symm.trans hresult)
    exact hdivergent

/-- The comparison concludes what follows from the options. -/
theorem outcome_eq_verdict {result : ComparisonResult}
    (hresult : engine.compare request context = .ok result) :
    result.outcome = options.verdict context.now := by
  have hmatch := h.match_iff_conforms hbuild hobserving hresult
  have hdivergent := h.divergent_iff_contradicts hbuild hobserving hresult
  have hsurface : ∀ e ∈ request.evidence, e.surface ≠ .unsupported := by
    intro e he
    obtain ⟨⟨i,rfl⟩,-⟩ := h.evidence e he
    rcases hobserving.surface with hreal | hsynthetic
    · exact fun heq => nomatch hreal.symm.trans heq
    · exact fun heq => nomatch hsynthetic.symm.trans heq
  have hsubject : ∀ routes, context.routes = some routes →
      generationMatches routes request context = true → (resolveGroup routes request).isSome := by
    intro routes hroutes _
    obtain rfl := Option.some.inj (h.routes.symm.trans hroutes)
    rw [h.resolved]
    rfl
  unfold verdict
  split_ifs with hconforms hdiverges
  · exact hmatch.mpr hconforms
  · exact hdivergent.mpr hdiverges
  · rcases outcome_of_compare hresult hsurface hsubject with hout | hout | hout
    · exact absurd (hmatch.mp hout) hconforms
    · exact absurd (hdivergent.mp hout) hdiverges
    · exact hout

theorem matchedPath_of_match {result : ComparisonResult}
    (hresult : engine.compare request context = .ok result) (hmatch : result.outcome = .match_) :
    result.matchedPath = ⟨pathId 0⟩ := by
  obtain ⟨hcurrent,-,hcalm,-,hseen⟩ := (h.match_iff_conforms hbuild hobserving hresult).mp hmatch
  obtain ⟨representative,hreach⟩ := h.reaches hbuild hobserving hcurrent
  obtain ⟨-,-,-,rfl⟩ := compare_eq_ok.mp hresult
  obtain ⟨verdict,-,-,hconcludes⟩ := evaluate_of_reaches hreach
  exact hconcludes.matchedPath.trans (h.matchedPath_eq hbuild hreach hcalm hseen)

end Answer

end Judging

end Synthetic.LabOptions

end PathObservatory
