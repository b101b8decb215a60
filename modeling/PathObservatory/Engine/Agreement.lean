import PathObservatory.Engine.Support

/-! # Agreement of the accepted traces

The gates bind the traces less tightly than the records: one agreeing record is
enough for the member match, and the declared links are checked for the
representative alone. What they say of the representative holds of every record
that claims its path and speaks about the same things.
-/
namespace PathObservatory

/-- Whatever the hop reports, the other hop reports too. -/
def ObservedHop.speaksWithin (hop other : ObservedHop) : Bool :=
  (!hop.ingress.valid || other.ingress.valid) && (!hop.egress.valid || other.egress.valid) &&
  (!hop.statesLink || other.statesLink)

/-- A hop that is compatible with an agreeing one and says no more agrees too. -/
theorem hopsAgree_of_speaksWithin {e : ExpectedHop} {hop other : ObservedHop}
    (hagree : hopsAgree e other = true) (hcompatible : hopsCompatible other hop = true)
    (hwithin : hop.speaksWithin other = true) : hopsAgree e hop = true := by
  simp only [hopsAgree, hopsCompatible, ObservedHop.speaksWithin, Bool.and_eq_true,
    Bool.or_eq_true, Bool.not_eq_true', Bool.and_eq_false_iff, decide_eq_true_eq,
    decide_eq_false_iff_not, not_not] at hagree hcompatible hwithin ⊢
  obtain ⟨⟨⟨hdevice,hingress⟩,hegress⟩,hlink⟩ := hagree
  obtain ⟨⟨⟨hdevice',hingress'⟩,hegress'⟩,hlink'⟩ := hcompatible
  obtain ⟨⟨hsaysIngress,hsaysEgress⟩,hsaysLink⟩ := hwithin
  refine ⟨⟨⟨hdevice.trans hdevice',?_⟩,?_⟩,?_⟩
  · grind
  · grind
  · grind

namespace Working
variable {w representative : Working} {member : ExpectedPath}

/-- Both records claim one path, and the first reports nothing at a hop that the
second does not report there. -/
structure Repeats (w representative : Working) : Prop where
  claims : w.evidence.path.present = true ∧ representative.evidence.path.present = true
  path_eq : representative.evidence.path.value = w.evidence.path.value
  within : ∀ (i : ℕ) (hop other : ObservedHop), w.hops[i]? = some hop →
    representative.hops[i]? = some other → hop.speaksWithin other = true

theorem tracesAgree_of_traceIs (hm : member.hops ≠ []) (h : w.traceIs .exact_ member = true) :
    TracesAgree member w.hops ∧ member.hops.length ≤ w.hops.length := by
  simp only [traceIs, decide_eq_true_eq] at h
  rcases compareTrace_cases w.hops hm with ⟨-,ht⟩ | ⟨-,-,ht⟩ | ⟨-,-,-,ht⟩ | ⟨-,hagree,hlen,-⟩
  · exact absurd (h.symm.trans ht) (by decide)
  · exact absurd (h.symm.trans ht) (by decide)
  · exact absurd (h.symm.trans ht) (by decide)
  · exact ⟨hagree,hlen⟩

theorem traceIs_of_tracesAgree (hm : member.hops ≠ []) (hagree : TracesAgree member w.hops)
    (hlength : member.hops.length ≤ w.hops.length) : w.traceIs .exact_ member = true := by
  simp only [traceIs, decide_eq_true_eq]
  rcases compareTrace_cases w.hops hm with ⟨hnil,-⟩ | ⟨-,hnot,-⟩ | ⟨-,-,hlt,-⟩ | ⟨-,-,-,ht⟩
  · exact absurd (hnil ▸ hlength) (by simpa using hm)
  · exact absurd hagree hnot
  · exact absurd hlength (not_le.mpr hlt)
  · exact ht

theorem not_tracesAgree_of_mismatch (hm : member.hops ≠ [])
    (h : w.traceIs .mismatch member = true) : ¬ TracesAgree member w.hops := by
  simp only [traceIs, decide_eq_true_eq] at h
  rcases compareTrace_cases w.hops hm with ⟨-,ht⟩ | ⟨-,hnot,-⟩ | ⟨-,-,-,ht⟩ | ⟨-,-,-,ht⟩
  · exact absurd (h.symm.trans ht) (by decide)
  · exact hnot
  · exact absurd (h.symm.trans ht) (by decide)
  · exact absurd (h.symm.trans ht) (by decide)

/-- A record that repeats one without conflict is compatible with it hop by hop. -/
theorem Repeats.compatible (h : w.Repeats representative)
    (hagreeing : representative.conflictsWith w = false) {i : ℕ} {hop other : ObservedHop}
    (hhop : w.hops[i]? = some hop) (hother : representative.hops[i]? = some other) :
    hopsCompatible other hop = true := by
  simp only [conflictsWith, h.claims.1, h.claims.2, h.path_eq, decide_true, Bool.and_true,
    Bool.true_and, Bool.not_eq_false', tracesCompatible, List.all_eq_true] at hagreeing
  exact hagreeing (other,hop) (mem_zip_iff.mpr ⟨i,hother,hhop⟩)

/-- What repeats a record that covers a member agrees with the member. -/
theorem Repeats.tracesAgree (h : w.Repeats representative)
    (hagreeing : representative.conflictsWith w = false) (hm : member.hops ≠ [])
    (hcovers : representative.traceIs .exact_ member = true) : TracesAgree member w.hops := by
  obtain ⟨hagree,hlength⟩ := tracesAgree_of_traceIs hm hcovers
  intro i e hop he hhop
  have hi : i < representative.hops.length :=
    (List.getElem?_eq_some_iff.mp he).1.trans_le hlength
  obtain ⟨other,hother⟩ : ∃ other, representative.hops[i]? = some other :=
    ⟨_,List.getElem?_eq_getElem hi⟩
  exact hopsAgree_of_speaksWithin (hagree i e other he hother)
    (h.compatible hagreeing hhop hother) (h.within i hop other hhop hother)

end Working

namespace ComparisonEngine
variable {engine : ComparisonEngine} {request : ComparisonRequest} {context : ComparisonContext}
  {routes : RouteGeneration} {group : PathGroup} {representative : Working}

/-- Every accepted record covers a member of the group. -/
def Unanimous (engine : ComparisonEngine) (request : ComparisonRequest)
    (context : ComparisonContext) : Prop :=
  ∀ routes group, context.routes = some routes → resolveGroup routes request = some group →
    ∀ w ∈ engine.acceptedRecords request context routes,
      ∃ member ∈ memberPaths routes group, w.traceIs .exact_ member = true

/-- Every accepted record has the trace of the first of them, or repeats it. -/
def RepeatsTheFirst (engine : ComparisonEngine) (request : ComparisonRequest)
    (context : ComparisonContext) : Prop :=
  ∀ routes first, context.routes = some routes →
    (engine.acceptedRecords request context routes).head? = some first →
      ∀ w ∈ engine.acceptedRecords request context routes,
        w.hops = first.hops ∨ w.Repeats first

/-- No accepted record conflicts with the representative of a match. -/
theorem Complies.not_conflictsWith
    (hreach : engine.Reaches request context routes group representative)
    (hc : engine.Complies request context routes group representative) {w : Working}
    (hw : w ∈ engine.acceptedRecords request context routes) (hne : w ≠ representative) :
    representative.conflictsWith w = false := by
  obtain ⟨rest,hrest⟩ := List.head?_eq_some_iff.mp hreach.representative_eq
  have hagreeing := hc.agreeing
  rw [hrest] at hagreeing hw
  exact List.rel_of_pairwise_cons hagreeing ((List.mem_cons.mp hw).resolve_left hne)

def outvotedEvidence : List ObservedPathEvidence :=
  [sampleEvidence 2 1 (sampleTrace 7 [1,2,3]),sampleEvidence 1 0 (sampleTrace 0 [7,8,9])]

theorem outvotedEvidence_id_ne : (sampleEvidence 2 1 (sampleTrace 7 [1,2,3])).id ≠
    (sampleEvidence 1 0 (sampleTrace 0 [7,8,9])).id := by decide +kernel

theorem outvotedEvidence_working :
    sampleEngine.workingOf (sampleRequest outvotedEvidence) sampleContext sampleRoutes =
      [sampleWorking 2 1 (sampleTrace 7 [1,2,3]),sampleWorking 1 0 (sampleTrace 0 [7,8,9])] :=
  sample_pair rfl (by decide) (by decide) (by decide)
    outvotedEvidence_id_ne

/-- The trace carries every link the path declares. -/
def LinksSupported (member : ExpectedPath) (hops : List ObservedHop) : Prop :=
  ∀ (i : ℕ) (e : ExpectedHop), member.hops[i]? = some e → e.hasEgressLink = true →
    ∃ o, hops[i]? = some o ∧ o.statesLink = true ∧ o.link = e.egressLink

theorem linkIsUnresolved_nil {reference : ExpectedPath} {hops : List ObservedHop} :
    linkIsUnresolved reference hops [] = true ↔
      ∃ (i : ℕ) (e : ExpectedHop) (o : ObservedHop), reference.hops[i]? = some e ∧
        hops[i]? = some o ∧ e.hasEgressLink = true ∧ o.statesLink = false := by
  unfold linkIsUnresolved
  rw [List.any_eq_true]
  constructor
  · rintro ⟨⟨⟨e,o⟩,i⟩,hmem,hentry⟩
    obtain ⟨he,ho⟩ := List.getElem?_zip_eq_some.mp (List.mk_mem_zipIdx_iff_getElem?.mp hmem)
    simp only [List.any_nil, Bool.not_false, Bool.true_and, Bool.and_eq_true,
      Bool.not_eq_true'] at hentry
    exact ⟨i,e,o,he,ho,hentry⟩
  · rintro ⟨i,e,o,he,ho,hdeclared,habsent⟩
    refine ⟨((e,o),i),?_,by simp [hdeclared, habsent]⟩
    exact List.mk_mem_zipIdx_iff_getElem?.mpr (List.getElem?_zip_eq_some.mpr ⟨he,ho⟩)

/-- A covered path is supported in all its links exactly when none is left
unresolved: a stated link that differs is a disagreement. -/
theorem linksSupported_iff {w : Working} {member : ExpectedPath} (hm : member.hops ≠ [])
    (h : w.traceIs .exact_ member = true) :
    LinksSupported member w.hops ↔ linkIsUnresolved member w.hops [] = false := by
  obtain ⟨hagree,hlength⟩ := Working.tracesAgree_of_traceIs hm h
  rw [← Bool.not_eq_true, linkIsUnresolved_nil]
  constructor
  · rintro hsupported ⟨i,e,o,he,ho,hdeclared,habsent⟩
    obtain ⟨o',ho',hstates,-⟩ := hsupported i e he hdeclared
    obtain rfl : o = o' := Option.some.inj (ho.symm.trans ho')
    exact absurd (hstates.symm.trans habsent) (by decide)
  · intro hresolved i e he hdeclared
    have hi : i < w.hops.length :=
      (List.getElem?_eq_some_iff.mp he).1.trans_le hlength
    obtain ⟨o,ho⟩ : ∃ o, w.hops[i]? = some o := ⟨_,List.getElem?_eq_getElem hi⟩
    have hstates : o.statesLink = true := by
      by_contra habsent
      exact hresolved ⟨i,e,o,he,ho,hdeclared,by simpa using habsent⟩
    have hsame := hagree i e o he ho
    simp only [hopsAgree, hdeclared, hstates, Bool.and_self, Bool.not_true, Bool.false_or,
      Bool.and_eq_true, decide_eq_true_eq] at hsame
    exact ⟨o,ho,hstates,hsame.2.symm⟩

/-- Every accepted record covers a member all of whose declared links it
carries. -/
def LinkedThroughout (engine : ComparisonEngine) (request : ComparisonRequest)
    (context : ComparisonContext) : Prop :=
  ∀ routes group, context.routes = some routes → resolveGroup routes request = some group →
    ∀ w ∈ engine.acceptedRecords request context routes,
      ∃ member ∈ memberPaths routes group, w.traceIs .exact_ member = true ∧
        LinksSupported member w.hops

/-- The record has the trace of the representative, or repeats it over all its hops
and states a link wherever the representative does. -/
def Mirrors (w representative : Working) : Prop :=
  w.hops = representative.hops ∨
    (w.Repeats representative ∧ representative.hops.length ≤ w.hops.length ∧
      ∀ (i : ℕ) (hop other : ObservedHop), w.hops[i]? = some hop →
        representative.hops[i]? = some other → other.statesLink = true → hop.statesLink = true)

/-- What mirrors a record carries the links that record carries. -/
theorem Mirrors.covers {w : Working} {member : ExpectedPath} (h : Mirrors w representative)
    (hagreeing : w ≠ representative → representative.conflictsWith w = false)
    (hm : member.hops ≠ []) (hcovers : representative.traceIs .exact_ member = true)
    (hsupported : LinksSupported member representative.hops) :
    w.traceIs .exact_ member = true ∧ LinksSupported member w.hops := by
  rcases h with hsame | ⟨hrepeats,hlength,hlinks⟩
  · rw [Working.traceIs, hsame]
    exact ⟨hcovers,hsupported⟩
  by_cases heq : w = representative
  · rw [heq]
    exact ⟨hcovers,hsupported⟩
  have hcompatible := hagreeing heq
  have hlong := (Working.tracesAgree_of_traceIs hm hcovers).2.trans hlength
  refine ⟨Working.traceIs_of_tracesAgree hm (hrepeats.tracesAgree hcompatible hm hcovers) hlong,?_⟩
  intro i e he hdeclared
  obtain ⟨other,hother,hstates,hlink⟩ := hsupported i e he hdeclared
  have hi : i < w.hops.length := (List.getElem?_eq_some_iff.mp he).1.trans_le hlong
  obtain ⟨hop,hhop⟩ : ∃ hop, w.hops[i]? = some hop := ⟨_,List.getElem?_eq_getElem hi⟩
  have hstated := hlinks i hop other hhop hother hstates
  refine ⟨hop,hhop,hstated,?_⟩
  have hsame := hrepeats.compatible hcompatible hhop hother
  simp only [hopsCompatible, hstates, hstated, Bool.and_self, Bool.true_and, Bool.and_eq_true,
    Bool.not_eq_true', decide_eq_false_iff_not, not_not] at hsame
  exact hsame.2.symm.trans hlink

/-- The first accepted record covers the reference path, a member of the group, and
every accepted record mirrors it. -/
def MirrorsTheReference (engine : ComparisonEngine) (request : ComparisonRequest)
    (context : ComparisonContext) : Prop :=
  ∀ routes group first, context.routes = some routes →
    resolveGroup routes request = some group →
    (engine.acceptedRecords request context routes).head? = some first →
      (∃ reference ∈ memberPaths routes group,
        referencePath routes group request = some reference ∧
        first.traceIs .exact_ reference = true) ∧
      ∀ w ∈ engine.acceptedRecords request context routes, Mirrors w first

def unlinkedEvidence : List ObservedPathEvidence :=
  [sampleEvidence 2 1 (sampleTrace 7 [1,2,3]),sampleEvidence 1 1 (sampleTrace 0 [1,2,3])]

theorem unlinkedEvidence_id_ne : (sampleEvidence 2 1 (sampleTrace 7 [1,2,3])).id ≠
    (sampleEvidence 1 1 (sampleTrace 0 [1,2,3])).id := by decide +kernel

theorem unlinkedEvidence_working :
    sampleEngine.workingOf (sampleRequest unlinkedEvidence) sampleContext sampleRoutes =
      [sampleWorking 2 1 (sampleTrace 7 [1,2,3]),sampleWorking 1 1 (sampleTrace 0 [1,2,3])] :=
  sample_pair rfl (by decide) (by decide) (by decide)
    unlinkedEvidence_id_ne

end ComparisonEngine

end PathObservatory
