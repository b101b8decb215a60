import PathObservatory.Engine.OutcomeClasses

/-! # The path a match names

Exact and prefix hits are collected into one list in member order and the first is
reported. The reported path is the one the representative covers unless a longer
member, of which the trace is only the front, comes before every covered one.
-/
namespace PathObservatory

namespace Working

/-- The trace covers the member or is the front of it. -/
def agreesWith (w : Working) (member : ExpectedPath) : Bool :=
  w.traceIs .exact_ member || w.traceIs .prefix_ member

/-- The first matched identity is that of the first member the trace agrees with. -/
theorem head?_matchedMembers (members : List ExpectedPath) (w : Working) :
    (w.matchedMembers members).head? = (members.find? w.agreesWith).map (·.id) := by
  have hfold : ∀ matched : List PathId, (members.foldl (fun matched member =>
      if w.agreesWith member && member.id ∉ matched then matched ++ [member.id]
      else matched) matched).head? =
        matched.head?.or ((members.find? w.agreesWith).map (·.id)) := by
    induction members with
    | nil => simp
    | cons first rest ih =>
      intro matched
      rw [List.foldl_cons, ih]
      cases hagrees : w.agreesWith first with
      | true =>
        rw [List.find?_cons_of_pos hagrees]
        cases matched with
        | nil => simp
        | cons id ids => split_ifs <;> simp
      | false => simp [hagrees]
  exact hfold []

end Working

namespace ComparisonEngine
variable {engine : ComparisonEngine} {request : ComparisonRequest} {context : ComparisonContext}
  {routes : RouteGeneration} {group : PathGroup} {representative : Working}

theorem classification_matchedPath {member : ExpectedPath}
    (h : (memberPaths routes group).find? representative.agreesWith = some member) :
    (engine.classification request context routes group representative).matchedPath =
      ⟨member.id⟩ := by
  have hhead := Working.head?_matchedMembers (memberPaths routes group) representative
  rw [h] at hhead
  simp only [classification, classify]
  obtain ⟨rest,hrest⟩ := List.head?_eq_some_iff.mp hhead
  rw [hrest]

/-- The result names a member of the group that the representative's trace covers. -/
def NamesCoveredMember (engine : ComparisonEngine) (request : ComparisonRequest)
    (context : ComparisonContext) (result : ComparisonResult) : Prop :=
  ∃ routes group representative, engine.Reaches request context routes group representative ∧
    result.matchedPath.present = true ∧ result.matchedPath.value ∈ group.members ∧
    ∃ path, routes.findPath result.matchedPath.value = some path ∧
      (compareTrace path representative.hops).traceMatch = .exact_

/-- The gates of a match pass although the first member that the representative agrees
with is longer than its trace. -/
def NamesLongerMember (engine : ComparisonEngine) (request : ComparisonRequest)
    (context : ComparisonContext) : Prop :=
  ∃ routes group representative member,
    engine.Reaches request context routes group representative ∧
    engine.Complies request context routes group representative ∧
    (memberPaths routes group).find? representative.agreesWith = some member ∧
    representative.traceIs .prefix_ member = true

theorem mem_members_of_find (hf : routes.Finalised) {member : ExpectedPath}
    (h : (memberPaths routes group).find? representative.agreesWith = some member) :
    member.id.valid = true ∧ member.id ∈ group.members ∧
      routes.findPath member.id = some member := by
  have hmem := List.mem_of_find?_eq_some h
  obtain ⟨id,hid,hfind⟩ := List.mem_filterMap.mp hmem
  obtain rfl := (hf.findPath hfind).2
  exact ⟨(wellFormed_of_mem_memberPaths hf hmem).id_valid,hid,hfind⟩

/-- A match names a path the representative covers unless a longer member comes
first. -/
theorem matched_path_covered_iff (engine : ComparisonEngine) (request : ComparisonRequest)
    (context : ComparisonContext)
    (hf : ∀ routes, context.routes = some routes → routes.Finalised) :
    (∀ result, engine.compare request context = .ok result → result.outcome = .match_ →
      engine.NamesCoveredMember request context result) ↔
      ¬ engine.NamesLongerMember request context := by
  have hnamed : ∀ {routes group representative member} {result : ComparisonResult},
      engine.Reaches request context routes group representative →
      engine.compare request context = .ok result →
      (memberPaths routes group).find? representative.agreesWith = some member →
      result.matchedPath = ⟨member.id⟩ := by
    intro routes group representative member result hreach hresult hfind
    obtain ⟨-,-,-,rfl⟩ := compare_eq_ok.mp hresult
    obtain ⟨verdict,-,-,hconcludes⟩ := evaluate_of_reaches hreach
    exact hconcludes.matchedPath.trans (classification_matchedPath hfind)
  constructor
  · rintro hproperty ⟨routes,group,representative,member,hreach,hcomplies,hfind,hfront⟩
    obtain ⟨result,hresult,hmatch⟩ :=
      (match_iff_complies hf).mpr ⟨routes,group,representative,hreach,hcomplies⟩
    obtain ⟨routes',group',representative',hreach',-,-,path,hpath,hexact⟩ :=
      hproperty result hresult hmatch
    obtain ⟨rfl,rfl,rfl⟩ := hreach'.unique hreach
    rw [hnamed hreach' hresult hfind,
      (mem_members_of_find (hf _ hreach'.routes_eq) hfind).2.2] at hpath
    obtain rfl := Option.some.inj hpath
    simp only [Working.traceIs, hexact, decide_eq_true_eq] at hfront
    cases hfront
  · intro hshorter result hresult hmatch
    obtain ⟨routes,group,representative,hreach,hcomplies⟩ :=
      (match_iff_complies hf).mp ⟨result,hresult,hmatch⟩
    obtain ⟨covered,hcovered,hexact⟩ := List.any_eq_true.mp hcomplies.matched
    have hsome : ((memberPaths routes group).find? representative.agreesWith).isSome = true :=
      List.find?_isSome.mpr ⟨covered,hcovered,by simp [Working.agreesWith, hexact]⟩
    obtain ⟨member,hfind⟩ := Option.isSome_iff_exists.mp hsome
    obtain ⟨hvalid,hmember,hpath⟩ := mem_members_of_find (hf routes hreach.routes_eq) hfind
    have hagrees := List.find?_some hfind
    simp only [Working.agreesWith, Bool.or_eq_true] at hagrees
    have hcovers := hagrees.resolve_right
      (fun hfront => hshorter ⟨routes,group,representative,member,hreach,hcomplies,hfind,hfront⟩)
    refine ⟨routes,group,representative,hreach,?_⟩
    rw [hnamed hreach hresult hfind]
    exact ⟨hvalid,hmember,member,hpath,by simpa [Working.traceIs] using hcovers⟩

/-- The covering record names the path it covers. -/
theorem matched_path_covered_sample :
    ∃ result, sampleEngine.compare (sampleRequest coveringEvidence) sampleContext = .ok result ∧
      sampleEngine.NamesCoveredMember (sampleRequest coveringEvidence) sampleContext result := by
  obtain ⟨result,hresult,hout⟩ := sample_compare (by decide) sample_generation
    (sample_resolveGroup _) coveringEvidence_working
  refine ⟨result,hresult,(matched_path_covered_iff sampleEngine _ sampleContext
    sampleContext_finalised).mpr ?_ result hresult (hout.trans (by decide))⟩
  rintro ⟨routes,group,representative,member,hreach,-,hfind,hfront⟩
  obtain ⟨rfl,rfl,rfl⟩ :=
    mem_coveringEvidence_accepted hreach.routes_eq hreach.group_eq hreach.mem
  have hnone : ∀ member ∈ memberPaths sampleRoutes sampleGroup,
      (sampleWorking 1 1 (sampleTrace 7 [1,2,3])).traceIs .prefix_ member = false := by decide
  exact absurd (hfront.symm.trans (hnone member (List.mem_of_find?_eq_some hfind))) (by decide)

/-- The first path goes on from the last device of the second. -/
def extendedPlan : RouteGeneration :=
  { samplePlan with
    groups := [{ id := ⟨1⟩, origin := ⟨1⟩, destination := ⟨3⟩, members := [⟨1⟩,⟨2⟩] }]
    paths :=
      [{ id := ⟨1⟩, group := ⟨1⟩, generation := ⟨1⟩,
         hops :=
          [{ id := ⟨1⟩, index := 0, device := ⟨1⟩, ingress := ⟨11⟩, egress := ⟨12⟩ },
           { id := ⟨2⟩, index := 1, device := ⟨3⟩, ingress := ⟨31⟩, egress := ⟨32⟩ },
           { id := ⟨3⟩, index := 2, device := ⟨4⟩, ingress := ⟨41⟩, egress := ⟨42⟩ }] },
       { id := ⟨2⟩, group := ⟨1⟩, generation := ⟨1⟩,
         hops :=
          [{ id := ⟨4⟩, index := 0, device := ⟨1⟩, ingress := ⟨11⟩, egress := ⟨12⟩ },
           { id := ⟨5⟩, index := 1, device := ⟨3⟩, ingress := ⟨31⟩, egress := ⟨32⟩ }] }] }

def extendedRoutes : RouteGeneration := finalisedPlan extendedPlan

theorem extended_resolveGroup (evidence : List ObservedPathEvidence) :
    resolveGroup extendedRoutes (sampleRequest evidence) = some forkedGroup := by
  have hgroup : extendedRoutes.findGroup ⟨1⟩ = some forkedGroup := by decide
  exact hgroup

/-- A record that covers the second path. -/
def shortEvidence : List ObservedPathEvidence := [sampleEvidence 1 2 (sampleTrace 0 [1,3])]

theorem shortEvidence_working :
    sampleEngine.workingOf (sampleRequest shortEvidence) (sampleContextFor extendedRoutes)
      extendedRoutes = [sampleWorking 1 2 (sampleTrace 0 [1,3])] := sample_single (by decide)

/-- The match names the first path, of which the trace is only the front. -/
theorem longer_path_is_named :
    ¬ ∀ result, sampleEngine.compare (sampleRequest shortEvidence)
        (sampleContextFor extendedRoutes) = .ok result → result.outcome = .match_ →
      sampleEngine.NamesCoveredMember (sampleRequest shortEvidence)
        (sampleContextFor extendedRoutes) result := by
  intro h
  obtain ⟨result,hresult,hout⟩ := sample_compare (by decide) (by decide)
    (extended_resolveGroup _) shortEvidence_working
  have hmatch : result.outcome = .match_ := hout.trans (by decide)
  obtain ⟨routes,group,representative,hreach,hpresent,hmember,path,hpath,hexact⟩ :=
    h result hresult hmatch
  obtain rfl : extendedRoutes = routes := Option.some.inj hreach.routes_eq
  obtain rfl : forkedGroup = group :=
    Option.some.inj ((extended_resolveGroup _).symm.trans hreach.group_eq)
  have haccepted : sampleEngine.acceptedRecords (sampleRequest shortEvidence)
      (sampleContextFor extendedRoutes) extendedRoutes =
        [sampleWorking 1 2 (sampleTrace 0 [1,3])] := by
    rw [acceptedRecords, shortEvidence_working]
    rfl
  obtain rfl : sampleWorking 1 2 (sampleTrace 0 [1,3]) = representative :=
    (List.mem_singleton.mp (haccepted ▸ hreach.mem)).symm
  have hfirst : ((memberPaths extendedRoutes forkedGroup).find?
      (sampleWorking 1 2 (sampleTrace 0 [1,3])).agreesWith).any (fun member => member.id = ⟨1⟩) =
        true := by decide
  obtain ⟨member,hfind,hid⟩ := (Option.any_eq_true _ _).mp hfirst
  obtain ⟨-,-,-,rfl⟩ := compare_eq_ok.mp hresult
  obtain ⟨verdict,-,-,hconcludes⟩ := evaluate_of_reaches hreach
  have hnamed : (sampleEngine.evaluate (sampleRequest shortEvidence)
      (sampleContextFor extendedRoutes)).seal_.matchedPath = ⟨⟨1⟩⟩ := by
    rw [← of_decide_eq_true hid]
    exact hconcludes.matchedPath.trans (classification_matchedPath hfind)
  rw [hnamed] at hpath
  have hfront : (extendedRoutes.findPath ⟨1⟩).all (fun path =>
      (compareTrace path (sampleTrace 0 [1,3])).traceMatch ≠ .exact_) = true := by decide
  rw [hpath] at hfront
  exact absurd hexact (of_decide_eq_true hfront)

end ComparisonEngine

end PathObservatory
