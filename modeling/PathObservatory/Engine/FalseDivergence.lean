import PathObservatory.Engine.Agreement

/-! # When a reported divergence is one

Traces are compared with the members position by position, whatever index a hop
states. A divergence is therefore a contradiction at the stated indices for every
contiguous trace, and can be none for a trace with a gap.
-/
namespace PathObservatory

/-- The hop lies past the end of the path or differs from the hop the path has at
the stated index. -/
def ContradictsAt (member : ExpectedPath) (hop : ObservedHop) : Prop :=
  ∀ e, member.hops[hop.index.toNat]? = some e → hopsAgree e hop = false

theorem hopIndicesAreContiguous_iff {hops : List ObservedHop} :
    hopIndicesAreContiguous hops = true ↔
      ∀ (i : ℕ) (hop : ObservedHop), hops[i]? = some hop → hop.index.toNat = i := by
  unfold hopIndicesAreContiguous
  rw [List.all_eq_true]
  constructor
  · intro h i hop hi
    simpa using h (hop,i) (List.mk_mem_zipIdx_iff_getElem?.mpr hi)
  · rintro h ⟨hop,i⟩ hmem
    simpa using h i hop (List.mk_mem_zipIdx_iff_getElem?.mp hmem)

/-- A contiguous trace that agrees with no member contradicts each of them at an
index it states. -/
theorem Working.exists_contradictsAt {w : Working} {members : List ExpectedPath}
    {member : ExpectedPath} (hmember : member ∈ members) (hne : member.hops ≠ [])
    (hw : w.hops ≠ []) (hnone : w.matchesAMember members = false)
    (hcontiguous : hopIndicesAreContiguous w.hops = true) :
    ∃ hop ∈ w.hops, ContradictsAt member hop := by
  have hdisagree := not_tracesAgree hmember hne hw hnone
  by_contra hall
  refine hdisagree (fun i e o he ho => ?_)
  by_contra hdiffer
  refine hall ⟨o,List.mem_of_getElem? ho,fun e' he' => ?_⟩
  rw [hopIndicesAreContiguous_iff.mp hcontiguous i o ho, he] at he'
  obtain rfl : e = e' := Option.some.inj he'
  simpa using hdiffer

/-- Some hop states an index at or past the end of every member. -/
def Working.RunsPast (w : Working) (members : List ExpectedPath) : Prop :=
  ∃ hop ∈ w.hops, ∀ member ∈ members, member.hops.length ≤ hop.index.toNat

theorem Working.RunsPast.exists_contradictsAt {w : Working} {members : List ExpectedPath}
    {member : ExpectedPath} (h : w.RunsPast members) (hmember : member ∈ members) :
    ∃ hop ∈ w.hops, ContradictsAt member hop := by
  obtain ⟨hop,hhop,hpast⟩ := h
  refine ⟨hop,hhop,fun e he => ?_⟩
  rw [List.getElem?_eq_none (hpast member hmember)] at he
  cases he

namespace ComparisonEngine
variable {engine : ComparisonEngine} {request : ComparisonRequest} {context : ComparisonContext}
  {routes : RouteGeneration} {group : PathGroup} {representative : Working}

/-- The gates of a divergence, on the accepted records. -/
structure Diverges (engine : ComparisonEngine) (request : ComparisonRequest)
    (context : ComparisonContext) (routes : RouteGeneration) (group : PathGroup)
    (representative : Working) : Prop where
  agreeing : (engine.acceptedRecords request context routes).Pairwise
    (fun left right => left.conflictsWith right = false)
  fresh : ∀ w ∈ engine.acceptedRecords request context routes, w.freshness = .fresh
  unmatched : ∀ w ∈ engine.acceptedRecords request context routes,
    w.matchesAMember (memberPaths routes group) = false
  observed : representative.hops ≠ []

theorem classification_structural :
    (engine.classification request context routes group representative).structural = true ↔
      (∀ w ∈ engine.acceptedRecords request context routes,
        w.matchesAMember (memberPaths routes group) = false) ∧ representative.hops ≠ [] := by
  have heq : (engine.classification request context routes group representative).structural =
      (!(engine.acceptedRecords request context routes).any
        (Working.matchesAMember (memberPaths routes group)) && representative.hops ≠ []) := rfl
  rw [heq, Bool.and_eq_true, Bool.not_eq_true', List.any_eq_false, decide_eq_true_eq]
  simp only [Bool.not_eq_true]

/-- A divergence is exactly a comparison that reaches the gates and contradicts
every member with fresh records that agree among themselves. -/
theorem divergent_iff_diverges :
    (∃ result, engine.compare request context = .ok result ∧ result.outcome = .divergent) ↔
      ∃ routes group representative,
        engine.Reaches request context routes group representative ∧
        engine.Diverges request context routes group representative := by
  rw [divergent_iff]
  constructor
  · rintro ⟨routes,group,representative,hreach,-,hagree,hfresh,hstructural⟩
    obtain ⟨hunmatched,hobserved⟩ := classification_structural.mp hstructural
    exact ⟨routes,group,representative,hreach,classification_conflicting.mp hagree,
      worstFreshness_eq_fresh.mp hfresh,hunmatched,hobserved⟩
  · rintro ⟨routes,group,representative,hreach,hdiverges⟩
    have hsurface : (engine.classification request context routes group
          representative).surface ≠ .unsupported ∧
        (engine.classification request context routes group representative).surface ≠ .unknown :=
      ⟨classification_surface.1,classification_surface.2.1⟩
    exact ⟨routes,group,representative,hreach,hsurface,
      classification_conflicting.mpr hdiverges.agreeing,
      worstFreshness_eq_fresh.mpr hdiverges.fresh,
      classification_structural.mpr ⟨hdiverges.unmatched,hdiverges.observed⟩⟩

/-- Every accepted trace contradicts every member at an index it states. -/
def ContradictsThePlan (engine : ComparisonEngine) (request : ComparisonRequest)
    (context : ComparisonContext) : Prop :=
  ∀ routes group, context.routes = some routes → resolveGroup routes request = some group →
    ∀ w ∈ engine.acceptedRecords request context routes, w.hops ≠ [] →
      ∀ member ∈ memberPaths routes group, ∃ hop ∈ w.hops, ContradictsAt member hop

/-- Every accepted trace has no gap, or states an index no member has a hop at. -/
def StatesPositions (engine : ComparisonEngine) (request : ComparisonRequest)
    (context : ComparisonContext) : Prop :=
  ∀ routes group, context.routes = some routes → resolveGroup routes request = some group →
    ∀ w ∈ engine.acceptedRecords request context routes,
      hopIndicesAreContiguous w.hops = true ∨ w.RunsPast (memberPaths routes group)

/-- One record over three foreign devices. -/
def foreignEvidence : List ObservedPathEvidence := [sampleEvidence 1 1 (sampleTrace 0 [7,8,9])]

theorem foreignEvidence_working :
    sampleEngine.workingOf (sampleRequest foreignEvidence) sampleContext sampleRoutes =
      [sampleWorking 1 1 (sampleTrace 0 [7,8,9])] := sample_single (by decide)

/-- The first and the last device of the path, at the indices the plan has them. -/
def gappedTrace : List ObservedHop :=
  [{ index := 0, device := ⟨1⟩ },{ index := 2, device := ⟨3⟩ }]

def gappedEvidence : List ObservedPathEvidence := [sampleEvidence 1 1 gappedTrace]

theorem gappedEvidence_working :
    sampleEngine.workingOf (sampleRequest gappedEvidence) sampleContext sampleRoutes =
      [sampleWorking 1 1 gappedTrace] := sample_single (by decide)

end ComparisonEngine

end PathObservatory
