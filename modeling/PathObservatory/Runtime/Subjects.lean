import PathObservatory.Engine.Redelivery
import PathObservatory.Runtime.Pipeline

/-! # The subject of a record in the engine and in the runtime

Both resolve the subject through the claimed group, the claimed path and the
endpoints. The runtime goes on to the endpoints when the plan does not know the
path and takes no side between groups of the same endpoints; the engine stops at the
path and takes the first group.
-/
namespace PathObservatory
open ObservatoryRuntime ComparisonEngine

/-- The groups of the plan between the endpoints the record states. -/
def groupsBetween (routes : RouteGeneration) (e : ObservedPathEvidence) : List PathGroup :=
  routes.groups.filter (fun group =>
    group.origin = e.origin.value ∧ group.destination = e.destination.value)

theorem findGroupByEndpoints_eq (routes : RouteGeneration) (e : ObservedPathEvidence) :
    routes.findGroupByEndpoints e.origin.value e.destination.value =
      ((groupsBetween routes e).head?,decide (1 < (groupsBetween routes e).length)) := rfl

/-- The group of the plan that a subject key names. -/
def groupOfKey (routes : RouteGeneration) (key : SubjectKey) : Option PathGroup :=
  if key.group.present then routes.findGroup key.group.value else none

section Plan
variable {routes : RouteGeneration} {e : ObservedPathEvidence}

/-- An absent identity names no group of a finalised plan. -/
theorem groupOfKey_eq_findGroup (hf : routes.Finalised) (key : SubjectKey) :
    groupOfKey routes key = routes.findGroup key.group.value := by
  unfold groupOfKey
  split_ifs with hpresent
  · rfl
  · cases hfind : routes.findGroup key.group.value with
    | none => rfl
    | some group =>
      obtain ⟨hmem,hid⟩ := Ranking.mem_of_lookupSorted hfind
      refine absurd ?_ hpresent
      rw [MaybeId.present, ← hid]
      exact hf.groups_sorted.2 group hmem

/-- The runtime goes on to the endpoints of a record whose path the plan does not
know and finds the only group between them, or a record names nothing but endpoints
that several groups share. -/
def ResolvedApart (routes : RouteGeneration) (e : ObservedPathEvidence) : Prop :=
  e.group.present = false ∧ e.origin.present = true ∧ e.destination.present = true ∧
    ((e.path.present = true ∧ routes.findPath e.path.value = none ∧
        (groupsBetween routes e).length = 1) ∨
      (e.path.present = false ∧ 1 < (groupsBetween routes e).length))

/-- The subject key of a record that names the generation of the current plan. -/
def currentKey (routes : RouteGeneration) (e : ObservedPathEvidence) : SubjectKey where
  generation := routes.id
  group := if e.group.present then e.group else planGroup routes e

theorem resolveSubject_of_current {r : ObservatoryRuntime} (hroutes : r.routes = some routes)
    (hf : routes.Finalised) (hnamed : e.routeGeneration = ⟨routes.id⟩) :
    r.resolveSubject e = .ok (currentKey routes e) := by
  have hpresent : e.routeGeneration.present = true := by
    rw [hnamed]
    exact hf.id_valid
  have hgeneration : r.subjectGeneration e = .ok routes.id := by
    rw [subjectGeneration, if_pos hpresent, hnamed]
  unfold resolveSubject currentKey
  rw [hgeneration]
  by_cases hgroup : e.group.present = true
  · simp only [hgroup, if_true]
    rfl
  · simp only [hgroup, hroutes, Bool.false_eq_true, if_false]
    exact if_neg (not_not.mpr rfl)

theorem findGroup_of_head (hf : routes.Finalised) {group : PathGroup} {rest : List PathGroup}
    (h : groupsBetween routes e = group :: rest) : routes.findGroup group.id = some group := by
  have hmem : group ∈ groupsBetween routes e := h ▸ List.mem_cons_self
  exact hf.findGroup_of_mem (List.mem_filter.mp hmem).1

theorem findGroup_absent (hf : routes.Finalised) : routes.findGroup {} = none := by
  have hnone := groupOfKey_eq_findGroup hf {}
  exact hnone.symm

/-- The group between the endpoints as the runtime files it. -/
def endpointGroup (routes : RouteGeneration) (e : ObservedPathEvidence) : Option PathGroup :=
  match groupsBetween routes e with
  | [group] => some group
  | _ => none

theorem findGroup_planGroup (hf : routes.Finalised) :
    routes.findGroup (planGroup routes e).value =
      match if e.path.present then routes.findPath e.path.value else none with
      | some path => routes.findGroup path.group
      | none => if e.origin.present ∧ e.destination.present then endpointGroup routes e else none := by
  unfold planGroup endpointGroup
  cases (if e.path.present then routes.findPath e.path.value else none) with
  | some path => rfl
  | none =>
    dsimp only
    split_ifs with hends
    · rw [findGroupByEndpoints_eq]
      cases hbetween : groupsBetween routes e with
      | nil => exact findGroup_absent hf
      | cons group rest =>
        cases rest with
        | nil => exact findGroup_of_head hf hbetween
        | cons second rest => exact findGroup_absent hf
    · exact findGroup_absent hf

theorem endpointGroup_eq_none_iff :
    endpointGroup routes e = none ↔ (groupsBetween routes e).length ≠ 1 := by
  unfold endpointGroup
  split
  · rename_i heq
    simp [heq]
  · rename_i hnot
    simp only [true_iff]
    intro hone
    obtain ⟨group,hgroup⟩ := List.length_eq_one_iff.mp hone
    exact hnot group hgroup

theorem head?_eq_endpointGroup_iff :
    (groupsBetween routes e).head? = endpointGroup routes e ↔
      ¬ 1 < (groupsBetween routes e).length := by
  unfold endpointGroup
  cases groupsBetween routes e with
  | nil => simp
  | cons group rest => cases rest <;> simp

/-- Engine and runtime resolve a record alike exactly outside the two cases. -/
theorem groupOfEvidence_eq_iff (hf : routes.Finalised) :
    groupOfEvidence routes e = groupOfKey routes (currentKey routes e) ↔
      ¬ ResolvedApart routes e := by
  rw [groupOfKey_eq_findGroup hf, currentKey]
  unfold ResolvedApart
  by_cases hgroup : e.group.present = true
  · simp [groupOfEvidence, hgroup]
  rw [if_neg hgroup, findGroup_planGroup hf]
  simp only [groupOfEvidence, hgroup, findGroupByEndpoints_eq, Bool.false_eq_true, if_false]
  by_cases hends : e.origin.present = true ∧ e.destination.present = true
  · by_cases hpath : e.path.present = true
    · cases hfind : routes.findPath e.path.value with
      | some path => simp [groupOfPath, hpath, hfind]
      | none =>
        simp only [groupOfPath, hpath, hfind, hends, and_self, if_true, Option.bind_none]
        rw [eq_comm, endpointGroup_eq_none_iff]
        simp
    · simp only [hpath, hends, and_self, if_true, Bool.and_self, Bool.false_eq_true, if_false]
      rw [head?_eq_endpointGroup_iff]
      simp
  · have hneither : ¬ (e.origin.present && e.destination.present) = true := by simpa using hends
    by_cases hpath : e.path.present = true
    · cases hfind : routes.findPath e.path.value with
      | some path => simp [groupOfPath, hpath, hfind]
      | none => simpa [groupOfPath, hpath, hfind, hends] using fun ho hd => absurd ⟨ho,hd⟩ hends
    · simpa [hpath, hends, hneither] using fun ho hd => absurd ⟨ho,hd⟩ hends

end Plan

namespace ComparisonEngine
variable {engine : ComparisonEngine} {request : ComparisonRequest} {context : ComparisonContext}
  {routes : RouteGeneration} {group : PathGroup}

/-- A comparison with a subject names it and never says there is none. -/
theorem compareWorking_subject {base : ComparisonResult} {reference : Option ExpectedPath}
    {working : List Working} :
    let result := engine.compareWorking base routes group request context reference working
    result.group = ⟨group.id⟩ ∧ result.outcome ≠ .noExpectedState := by
  unfold compareWorking
  cases acceptedOf working with
  | nil =>
    refine ⟨rfl,?_⟩
    simp only [withoutAccepted]
    split_ifs <;> decide
  | cons representative rest =>
    refine ⟨rfl,?_⟩
    simp only [withAccepted]
    apply OutcomeFacts.decideOutcome_ne_noExpectedState
    intro h
    cases h

theorem compare_subject {result : ComparisonResult}
    (hresult : engine.compare request context = .ok result) (hroutes : context.routes = some routes)
    (hgeneration : generationMatches routes request context = true)
    (hgroup : resolveGroup routes request = some group) :
    result.group = ⟨group.id⟩ ∧ result.outcome ≠ .noExpectedState := by
  obtain ⟨-,-,-,rfl⟩ := compare_eq_ok.mp hresult
  show (engine.evaluate request context).group = ⟨group.id⟩ ∧
    (engine.evaluate request context).outcome ≠ .noExpectedState
  rw [evaluate_of_resolved hroutes hgeneration hgroup]
  exact compareWorking_subject

/-- The comparison selects the group of the subject key, and says that there is no
expected state when the key names none of the plan. -/
def SelectsGroupOfKey (engine : ComparisonEngine) (request : ComparisonRequest)
    (context : ComparisonContext) (r : ObservatoryRuntime) (routes : RouteGeneration)
    (e : ObservedPathEvidence) : Prop :=
  ∃ result key, engine.compare request context = .ok result ∧ r.resolveSubject e = .ok key ∧
    ((groupOfKey routes key = none ∧ result.outcome = .noExpectedState) ∨
      ∃ group, groupOfKey routes key = some group ∧ result.group = ⟨group.id⟩ ∧
        result.outcome ≠ .noExpectedState)

/-- Engine and runtime resolve a record of the current plan alike unless they fall
back differently. -/
theorem subjects_resolved_alike_iff (engine : ComparisonEngine) (request : ComparisonRequest)
    (context : ComparisonContext) (r : ObservatoryRuntime) (routes : RouteGeneration)
    (e : ObservedPathEvidence) (hpolicy : engine.policy.validate = .ok ()) (hf : routes.Finalised)
    (hcurrent : r.routes = some routes) (hroutes : context.routes = some routes)
    (hgeneration : generationMatches routes request context = true)
    (hgroup : request.group.present = false) (hpath : request.path.present = false)
    (hevidence : request.evidence = [e])
    (hbound : 1 ≤ engine.limits.maxEvidencePerComparison)
    (hnamed : e.routeGeneration = ⟨routes.id⟩) :
    engine.SelectsGroupOfKey request context r routes e ↔ ¬ ResolvedApart routes e := by
  have hkey := resolveSubject_of_current hcurrent hf hnamed
  have hvalid : request.generation.valid = true := by
    have hmatches := hgeneration
    simp only [generationMatches, Bool.and_eq_true, decide_eq_true_eq] at hmatches
    rw [← hmatches.1.1]
    exact hf.id_valid
  have hcompare : engine.compare request context = .ok (engine.evaluate request context).seal_ :=
    compare_eq_ok.mpr ⟨hpolicy,hvalid,by rw [hevidence]; exact hbound,rfl⟩
  have hresolve : resolveGroup routes request = groupOfEvidence routes e := by
    simp [resolveGroup, hgroup, hpath, hevidence]
  rw [← groupOfEvidence_eq_iff hf]
  constructor
  · rintro ⟨result,key,hresult,hresolved,hselects⟩
    obtain rfl := Except.ok.inj (hcompare.symm.trans hresult)
    obtain rfl := Except.ok.inj (hkey.symm.trans hresolved)
    cases hengine : groupOfEvidence routes e with
    | none =>
      have hout : (engine.evaluate request context).seal_.outcome = .noExpectedState := by
        rw [evaluate_of_unresolved hroutes hgeneration (hresolve.trans hengine)]
        rfl
      rcases hselects with ⟨hnone,-⟩ | ⟨group,-,-,hne⟩
      · exact hnone.symm
      · exact absurd hout hne
    | some selected =>
      obtain ⟨hnames,hne⟩ := compare_subject hcompare hroutes hgeneration (hresolve.trans hengine)
      rcases hselects with ⟨-,hout⟩ | ⟨group,hgroupOf,hnames',-⟩
      · exact absurd hout hne
      · have hid : selected.id = group.id := by
          rw [hnames] at hnames'
          exact congrArg MaybeId.value hnames'
        have hselected := hf.findGroup_of_mem (mem_groups_of_groupOfEvidence hengine)
        rw [groupOfKey_eq_findGroup hf] at hgroupOf
        have hfound := hf.findGroup_of_mem (Ranking.mem_of_lookupSorted hgroupOf).1
        rw [groupOfKey_eq_findGroup hf, hgroupOf, ← hfound, ← hid, hselected]
  · intro halike
    refine ⟨_,_,hcompare,hkey,?_⟩
    cases hengine : groupOfEvidence routes e with
    | none =>
      refine Or.inl ⟨halike.symm.trans hengine,?_⟩
      rw [evaluate_of_unresolved hroutes hgeneration (hresolve.trans hengine)]
      rfl
    | some selected =>
      exact Or.inr ⟨selected,halike.symm.trans hengine,
        compare_subject hcompare hroutes hgeneration (hresolve.trans hengine)⟩

/-- A runtime with the given plan in force. -/
def holding (routes : RouteGeneration) : ObservatoryRuntime :=
  { fresh {} (fun _ => ⟨1000⟩) (Ranking.Sorter.insertion ranksBefore_ranksBy) with
    routes := some routes, epoch := ⟨1⟩, incarnation := ⟨1⟩, routeRevision := ⟨1⟩ }

/-- A record about the current plan between two devices. -/
def betweenDevices (path origin destination : UInt64) : ObservedPathEvidence :=
  { sampleContent 1 path (sampleTrace 7 [1,2,3]) with
    routeGeneration := ⟨⟨1⟩⟩, origin := ⟨⟨origin⟩⟩, destination := ⟨⟨destination⟩⟩ }

def openRequest (e : ObservedPathEvidence) : ComparisonRequest where
  generation := ⟨1⟩
  evidence := [e]

/-- The endpoints of one group resolve alike. -/
theorem subjects_resolved_alike_sample :
    sampleEngine.SelectsGroupOfKey (openRequest (betweenDevices 0 1 3)) sampleContext
      (holding sampleRoutes) sampleRoutes (betweenDevices 0 1 3) := by
  refine (subjects_resolved_alike_iff sampleEngine _ sampleContext (holding sampleRoutes)
    sampleRoutes _ rfl sampleRoutes_finalised rfl rfl (by decide) rfl rfl rfl (by decide)
    rfl).mpr ?_
  rintro ⟨-,-,-,⟨hpath,-⟩ | ⟨-,hseveral⟩⟩
  · exact absurd hpath (by decide)
  · exact absurd hseveral (by decide)

/-- Two groups between the same devices. -/
def twinRoutes : RouteGeneration :=
  finalisedPlan { samplePlan with
    groups :=
      [{ id := ⟨1⟩, origin := ⟨1⟩, destination := ⟨3⟩, members := [⟨1⟩] },
       { id := ⟨2⟩, origin := ⟨1⟩, destination := ⟨3⟩, members := [⟨2⟩] }]
    paths := samplePlan.paths ++
      [{ id := ⟨2⟩, group := ⟨2⟩, generation := ⟨1⟩,
         hops := [{ id := ⟨4⟩, index := 0, device := ⟨1⟩, ingress := ⟨11⟩, egress := ⟨13⟩ }] }] }

/-- The runtime leaves a record between the devices without a group, and the engine
compares it with the first of the two. -/
theorem ambiguous_endpoints_resolved_apart :
    (betweenDevices 0 1 3).validate {} = .ok () ∧
      ¬ sampleEngine.SelectsGroupOfKey (openRequest (betweenDevices 0 1 3))
        (sampleContextFor twinRoutes) (holding twinRoutes) twinRoutes (betweenDevices 0 1 3) := by
  have hf : twinRoutes.Finalised := finalisedPlan_finalised (by decide)
  refine ⟨by decide,?_⟩
  rintro ⟨result,key,hresult,hresolved,hselects⟩
  have hkey : (holding twinRoutes).resolveSubject (betweenDevices 0 1 3) =
      .ok (currentKey twinRoutes (betweenDevices 0 1 3)) := resolveSubject_of_current rfl hf rfl
  obtain rfl := Except.ok.inj (hkey.symm.trans hresolved)
  have hnone : groupOfKey twinRoutes (currentKey twinRoutes (betweenDevices 0 1 3)) = none := by
    decide
  have hfirst : (resolveGroup twinRoutes (openRequest (betweenDevices 0 1 3))).isSome = true := by
    decide
  obtain ⟨group,hgroup⟩ := Option.isSome_iff_exists.mp hfirst
  rcases hselects with ⟨-,hout⟩ | ⟨group,hsome,-⟩
  · exact (compare_subject hresult rfl (by decide) hgroup).2 hout
  · rw [hnone] at hsome
    cases hsome

end ComparisonEngine

end PathObservatory
