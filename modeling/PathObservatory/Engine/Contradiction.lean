import PathObservatory.Engine.FalseDivergence
import PathObservatory.Engine.Support

/-! # When a contradiction is reported

Whether the accepted traces contradict the plan is read off the first of the ranked
records alone. A record without a trace that ranks before the contradicting ones
keeps the divergence from being reported.
-/
namespace PathObservatory.ComparisonEngine
open Ranking
variable {engine : ComparisonEngine} {request : ComparisonRequest} {context : ComparisonContext}
  {routes : RouteGeneration} {group : PathGroup} {representative : Working}

/-- Accepted records are in strict rank order. -/
theorem acceptedRecords_pairwise :
    (engine.acceptedRecords request context routes).Pairwise
      (fun a b => rankKey a < rankKey b) := by
  unfold acceptedRecords acceptedOf workingOf removeDuplicates
  exact (destutter_pairwise_lt namedByRank
    (engine.sorter.sort_pairwise ranksBefore_ranksBy _)).filter _

/-- The representative ranks before every other accepted record. -/
theorem Reaches.leads (h : engine.Reaches request context routes group representative) {w : Working}
    (hw : w ∈ engine.acceptedRecords request context routes) :
    w = representative ∨ ranksBefore representative w = true := by
  obtain ⟨rest,hrest⟩ := List.head?_eq_some_iff.mp h.representative_eq
  rw [hrest] at hw
  rcases List.mem_cons.mp hw with rfl | hw
  · exact Or.inl rfl
  · have hsorted : (engine.acceptedRecords request context routes).Pairwise
        (fun a b => rankKey a < rankKey b) := acceptedRecords_pairwise
    rw [hrest] at hsorted
    exact Or.inr ((ranksBefore_ranksBy _ _).mpr (List.rel_of_pairwise_cons hsorted hw))

/-- The accepted records are fresh, agree where they claim one path, and contradict
every member: some of them observed hops and none matches. -/
structure Contradicts (engine : ComparisonEngine) (request : ComparisonRequest)
    (context : ComparisonContext) (routes : RouteGeneration) (group : PathGroup) : Prop where
  fresh : ∀ w ∈ engine.acceptedRecords request context routes, w.freshness = .fresh
  agreeing : (engine.acceptedRecords request context routes).Pairwise
    (fun left right => left.conflictsWith right = false)
  observed : ∃ w ∈ engine.acceptedRecords request context routes, w.hops ≠ []
  unmatched : ∀ w ∈ engine.acceptedRecords request context routes,
    ∀ member ∈ memberPaths routes group,
      (compareTrace member w.hops).traceMatch ≠ .exact_ ∧
        (compareTrace member w.hops).traceMatch ≠ .prefix_

/-- Each accepted record without hops ranks behind one with hops. -/
def TraceLeads (engine : ComparisonEngine) (request : ComparisonRequest)
    (context : ComparisonContext) (routes : RouteGeneration) : Prop :=
  ∀ w ∈ engine.acceptedRecords request context routes, w.hops = [] →
    ∃ v ∈ engine.acceptedRecords request context routes, v.hops ≠ [] ∧ ranksBefore v w = true

theorem Reaches.traceLeads_iff
    (h : engine.Reaches request context routes group representative) :
    engine.TraceLeads request context routes ↔ representative.hops ≠ [] := by
  constructor
  · intro hleads hnil
    obtain ⟨v,hv,hne,hbefore⟩ := hleads representative h.mem hnil
    rcases h.leads hv with rfl | hafter
    · exact hne hnil
    · exact absurd ((ranksBefore_ranksBy _ _).mp hbefore)
        (lt_asymm ((ranksBefore_ranksBy _ _).mp hafter))
  · intro hne w hw hnil
    rcases h.leads hw with rfl | hafter
    · exact absurd hnil hne
    · exact ⟨representative,h.mem,hne,hafter⟩

/-- A contradiction is reported as a divergence exactly when no record without a
trace ranks before all that have one. -/
theorem contradiction_reported_iff (engine : ComparisonEngine) (request : ComparisonRequest)
    (context : ComparisonContext) (routes : RouteGeneration) (group : PathGroup)
    (representative : Working)
    (hreach : engine.Reaches request context routes group representative)
    (hcontradicts : engine.Contradicts request context routes group) :
    (∃ result, engine.compare request context = .ok result ∧ result.outcome = .divergent) ↔
      engine.TraceLeads request context routes := by
  rw [hreach.traceLeads_iff, divergent_iff_diverges]
  constructor
  · rintro ⟨routes',group',representative',hreach',hdiverges⟩
    obtain ⟨rfl,rfl,rfl⟩ := hreach.unique hreach'
    exact hdiverges.observed
  · intro hne
    refine ⟨routes,group,representative,hreach,hcontradicts.agreeing,hcontradicts.fresh,?_,hne⟩
    intro w hw
    refine List.any_eq_false.mpr (fun member hmember => ?_)
    obtain ⟨hexact,hfront⟩ := hcontradicts.unmatched w hw member hmember
    simp [Working.traceIs, hexact, hfront]

/-- A comparison of the given working records in the sample plan reaches the
classification. -/
theorem sample_reaches {evidence : List ObservedPathEvidence} {first : Working}
    {rest : List Working} (h : evidence.length ≤ 4096) (haccepted : first.accepted = true)
    (hworking : sampleEngine.workingOf (sampleRequest evidence) sampleContext sampleRoutes =
      first :: rest) :
    sampleEngine.Reaches (sampleRequest evidence) sampleContext sampleRoutes sampleGroup first where
  policy_valid := rfl
  generation_valid := rfl
  bounded := h
  routes_eq := rfl
  generation := sample_generation
  group_eq := sample_resolveGroup evidence
  representative_eq := by
    rw [acceptedRecords, hworking, acceptedOf, List.filter_cons_of_pos haccepted]
    rfl

theorem foreign_contradicts :
    sampleEngine.Contradicts (sampleRequest foreignEvidence) sampleContext sampleRoutes
      sampleGroup := by
  have haccepted : sampleEngine.acceptedRecords (sampleRequest foreignEvidence) sampleContext
      sampleRoutes = [sampleWorking 1 1 (sampleTrace 0 [7,8,9])] := by
    rw [acceptedRecords, foreignEvidence_working]
    rfl
  constructor <;> rw [haccepted] <;> decide

/-- The contradiction of a single trace is reported. -/
theorem contradiction_reported_sample :
    ∃ result, sampleEngine.compare (sampleRequest foreignEvidence) sampleContext = .ok result ∧
      result.outcome = .divergent := by
  have hreach := sample_reaches (by decide) rfl foreignEvidence_working
  refine (contradiction_reported_iff sampleEngine _ _ _ _ _ hreach foreign_contradicts).mpr ?_
  exact hreach.traceLeads_iff.mpr (by decide)

/-- A later record of the same path without any hops. -/
def silencedEvidence : List ObservedPathEvidence :=
  [sampleEvidence 2 1 [],sampleEvidence 1 1 (sampleTrace 0 [7,8,9])]

theorem silencedEvidence_working :
    sampleEngine.workingOf (sampleRequest silencedEvidence) sampleContext sampleRoutes =
      [sampleWorking 2 1 [],sampleWorking 1 1 (sampleTrace 0 [7,8,9])] :=
  sample_pair rfl (by decide) (by decide) (by decide) (by decide +kernel)

/-- The contradicting trace is accepted and not reported. -/
theorem silenced_contradiction_is_not_divergent :
    sampleEngine.Reaches (sampleRequest silencedEvidence) sampleContext sampleRoutes sampleGroup
        (sampleWorking 2 1 []) ∧
      sampleEngine.Contradicts (sampleRequest silencedEvidence) sampleContext sampleRoutes
        sampleGroup ∧
      ¬ ∃ result, sampleEngine.compare (sampleRequest silencedEvidence) sampleContext =
        .ok result ∧ result.outcome = .divergent := by
  have haccepted : sampleEngine.acceptedRecords (sampleRequest silencedEvidence) sampleContext
      sampleRoutes = [sampleWorking 2 1 [],sampleWorking 1 1 (sampleTrace 0 [7,8,9])] := by
    rw [acceptedRecords, silencedEvidence_working]
    rfl
  refine ⟨sample_reaches (by decide) rfl silencedEvidence_working,?_,?_⟩
  · constructor <;> rw [haccepted] <;> decide
  · rintro ⟨result,hresult,hout⟩
    obtain ⟨other,hother,hindeterminate⟩ := sample_compare (by decide) sample_generation
      (sample_resolveGroup _) silencedEvidence_working
    obtain rfl : result = other := Except.ok.inj (hresult.symm.trans hother)
    exact absurd (hout.symm.trans hindeterminate) (by decide)

end PathObservatory.ComparisonEngine
