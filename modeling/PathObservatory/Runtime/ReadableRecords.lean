import PathObservatory.Domain.Plan
import PathObservatory.Engine.Support
import PathObservatory.Runtime.Publication
import PathObservatory.Runtime.Replay

/-! # Records a restore can read

What the producers emit under some limits, the decoders of the same limits read back.
The registry of findings bounds the evidence of a finding and leaves its hops to the
results it is given, so that it is readable as long as these keep to the hop bound.
-/
namespace PathObservatory

/-- Forget all findings. -/
def FindingRegistry.clear (r : FindingRegistry) : FindingRegistry := { r with findings := ∅ }

namespace FindingRegistry

/-- The registries that come of results and restored findings within the bounds of the
decoder, whatever the texts. -/
inductive Built (limits : Limits) : FindingRegistry → Prop
  | empty : Built limits { limits := limits }
  | record {r s : FindingRegistry} {result : ComparisonResult} {now : TimePoint} {id : FindingId}
      (h : Built limits r) (hresult : result.differences.length ≤ limits.maxHopsPerPath)
      (hrecord : r.record result now = .ok (id,s)) : Built limits s
  | acknowledge {r s : FindingRegistry} {id : FindingId} {now : TimePoint} (h : Built limits r)
      (hacknowledge : r.acknowledge id now = .ok s) : Built limits s
  | resolve {r : FindingRegistry} (h : Built limits r) (result : ComparisonResult)
      (now : TimePoint) : Built limits (r.resolveFromMatch result now).2
  | restore {r s : FindingRegistry} {finding : Finding} (h : Built limits r)
      (hevidence : finding.evidence.length ≤ limits.maxFindingEvidence)
      (hhops : finding.hopIndices.length ≤ limits.maxHopsPerPath)
      (hrestore : r.restore finding = .ok s) : Built limits s
  | clear {r : FindingRegistry} (h : Built limits r) : Built limits r.clear

/-- A finding filed under the identity its content produces, whose counts the decoder
accepts. -/
structure Countable (limits : Limits) (id : FindingId) (finding : Finding) : Prop where
  id_eq : finding.id = id
  sealed : finding.computeFindingId = id
  evidence : finding.evidence.length ≤ limits.maxFindingEvidence
  hopIndices : finding.hopIndices.length ≤ limits.maxHopsPerPath

/-- Every finding is such a one. -/
structure AllCountable (limits : Limits) (r : FindingRegistry) : Prop where
  limits_eq : r.limits = limits
  countable : ∀ id finding, r.findings[id]? = some finding → Countable limits id finding

theorem enduring_countable (limits : Limits) : Enduring (Countable limits) :=
  fun _ _ h _ _ _ _ _ => ⟨h.id_eq,h.sealed,h.evidence,h.hopIndices⟩

theorem countable_findingCandidate {limits : Limits} {result : ComparisonResult}
    (hresult : result.differences.length ≤ limits.maxHopsPerPath) :
    Countable limits (findingCandidate limits result).id (findingCandidate limits result) := by
  refine ⟨rfl,rfl,List.length_take_le _ _,?_⟩
  simp only [findingCandidate, Finding.seal_, List.length_map]
  exact hresult

/-- What every operation on the registry preserves. -/
theorem Built.holds {limits : Limits} {r : FindingRegistry} (h : Built limits r) :
    Holds limits (Countable limits) r := by
  have hgood := enduring_countable limits
  induction h with
  | empty => exact .empty limits _
  | record _ hresult hrecord ih =>
    exact ih.record hgood (countable_findingCandidate hresult) hrecord
  | acknowledge _ hacknowledge ih => exact ih.acknowledge hgood hacknowledge
  | resolve _ result now ih => exact ih.resolveFromMatch hgood result now
  | restore _ hevidence hhops hrestore ih =>
    exact ih.restore (fun hsealed => ⟨rfl,hsealed,hevidence,hhops⟩) hrestore
  | clear _ ih =>
    exact ⟨ih.limits_eq,by simp [FindingRegistry.clear],
      fun id finding h => by simp [FindingRegistry.clear] at h⟩

theorem Built.allCountable {limits : Limits} {r : FindingRegistry} (h : Built limits r) :
    AllCountable limits r := ⟨h.holds.limits_eq,h.holds.all⟩

theorem Built.reads {limits : Limits} (hwords : limits.Words) {r : FindingRegistry}
    (h : Built limits r) {finding : Finding} (hmem : finding ∈ r.all)
    (hdetail : finding.detail.length ≤ limits.maxStringBytes) :
    ByteReader.Reads (Codec.decodeFinding limits) (Codec.encodeFinding finding) finding := by
  obtain ⟨⟨id,listed⟩,hentry,rfl⟩ := List.mem_map.mp hmem
  have hfound := Std.ExtTreeMap.mem_toList_iff_getElem?_eq_some.mp hentry
  obtain ⟨hid,hsealed,hevidence,hhops⟩ := h.allCountable.countable id listed hfound
  exact Codec.reads_decodeFinding ⟨hevidence,hhops,hdetail⟩ (hid.trans hsealed.symm)
    hwords.findingEvidence hwords.hops hwords.strings

end FindingRegistry

namespace ComparisonEngine
variable {engine : ComparisonEngine} {request : ComparisonRequest} {context : ComparisonContext}

/-- The counts of a result are within the number of records offered. -/
theorem evaluate_counts (engine : ComparisonEngine) (request : ComparisonRequest)
    (context : ComparisonContext) :
    (engine.evaluate request context).evidenceConsidered ≤ request.evidence.length ∧
      (engine.evaluate request context).evidenceRejected ≤ request.evidence.length := by
  unfold evaluate
  split
  · exact ⟨Nat.zero_le _,Nat.zero_le _⟩
  · rename_i routes _
    split
    · exact ⟨Nat.zero_le _,Nat.zero_le _⟩
    · have hworking := @length_workingOf_le engine request context routes
      have haccepted : (acceptedOf (engine.workingOf request context routes)).length ≤
          (engine.workingOf request context routes).length := List.length_filter_le _ _
      unfold compareWorking
      simp only
      split <;> exact ⟨haccepted.trans hworking,(Nat.sub_le _ _).trans hworking⟩

/-- What `compare` returns is read back with everything its identity covers. -/
theorem compare_reads (hwords : engine.limits.Words) {result : ComparisonResult}
    (hplan : ∀ routes, context.routes = some routes →
      ∃ plan : RouteGeneration, plan.finalize engine.limits = .ok routes)
    (h : engine.compare request context = .ok result) :
    ByteReader.Reads (Codec.decodeComparison engine.limits) (Codec.encodeComparison result)
        result.stored ∧
      result.stored.evidenceConsidered.toNat = result.evidenceConsidered ∧
      result.stored.evidenceRejected.toNat = result.evidenceRejected ∧
      result.differences.length ≤ engine.limits.maxHopsPerPath := by
  have hhops : ∀ routes, context.routes = some routes →
      ∀ path ∈ routes.paths, path.hops.length ≤ engine.limits.maxHopsPerPath := by
    intro routes hroutes
    obtain ⟨plan,hfinalize⟩ := hplan routes hroutes
    exact RouteGeneration.finalize_hops hfinalize
  obtain ⟨hbounded,hrecords,hsealed⟩ := compare_bounded hhops h
  have hstored : result.stored.id = result.stored.computeComparisonId := by
    rw [StoredComparison.computeComparisonId, StoredComparison.writeCanonical_stored]
    exact hsealed
  obtain ⟨hconsidered,hrejected⟩ := engine.evaluate_counts request context
  obtain ⟨_,-,hresult⟩ := bind_eq_ok.mp h
  have hword : ∀ n ≤ request.evidence.length, (UInt32.ofNat n).toNat = n := by
    intro n hn
    have hlt : n < 2 ^ 32 := (hn.trans hrecords).trans_lt hwords.evidence
    simpa using Nat.mod_eq_of_lt hlt
  refine ⟨Codec.reads_decodeComparison (comparisonFits_stored hbounded hrecords) hstored
    hwords.evidence hwords.hops,?_,?_,hbounded.differences⟩
  · rw [← Except.ok.inj hresult]
    exact hword _ hconsidered
  · rw [← Except.ok.inj hresult]
    exact hword _ hrejected

end ComparisonEngine

/-- What a restore must read, it can read. Sources, sealed evidence and the findings of
registries that were given results and findings within the bounds come back with every
field, comparisons with everything their identity covers. -/
theorem produced_records_decode (limits : Limits) (hwords : limits.Words) :
    (∀ descriptor : SourceDescriptor, descriptor.validate = .ok () →
      descriptor.name.length ≤ limits.maxStringBytes →
      Codec.decodeExact (Codec.decodeSourceDescriptor limits) (Codec.encodeSource descriptor) =
        .ok descriptor) ∧
    (∀ e : ObservedPathEvidence, e.validate limits = .ok () → e.id = e.computeEvidenceId →
      Codec.decodeExact (Codec.decodeEvidence limits) (Codec.encodeEvidence e) = .ok e) ∧
    (∀ registry, FindingRegistry.Built limits registry → ∀ finding ∈ registry.all,
      finding.detail.length ≤ limits.maxStringBytes →
      Codec.decodeExact (Codec.decodeFinding limits) (Codec.encodeFinding finding) =
        .ok finding) ∧
    ∀ (engine : ComparisonEngine) (request : ComparisonRequest) (context : ComparisonContext)
      (result : ComparisonResult), engine.limits = limits →
      (∀ routes, context.routes = some routes →
        ∃ plan : RouteGeneration, plan.finalize limits = .ok routes) →
      engine.compare request context = .ok result →
      Codec.decodeExact (Codec.decodeComparison limits) (Codec.encodeComparison result) =
          .ok result.stored ∧
        result.stored.evidenceConsidered.toNat = result.evidenceConsidered ∧
        result.stored.evidenceRejected.toNat = result.evidenceRejected ∧
        result.stored.computeComparisonId = DigestId.fromDigest result.canonicalDigest ∧
        result.differences.length ≤ limits.maxHopsPerPath := by
  refine ⟨?_,?_,?_,?_⟩
  · intro descriptor hvalid hname
    exact Codec.decodeExact_of_reads (Codec.reads_decodeSourceDescriptor hvalid hname)
  · intro e hvalid hsealed
    exact Codec.decodeExact_of_reads (Codec.reads_decodeEvidence hvalid hsealed hwords.hops)
  · intro registry hbuilt finding hmem hdetail
    exact Codec.decodeExact_of_reads (hbuilt.reads hwords hmem hdetail)
  · intro engine request context result hlimits hplan hcompare
    subst hlimits
    obtain ⟨hreads,hconsidered,hrejected,hdifferences⟩ :=
      ComparisonEngine.compare_reads hwords hplan hcompare
    refine ⟨Codec.decodeExact_of_reads hreads,hconsidered,hrejected,?_,hdifferences⟩
    rw [StoredComparison.computeComparisonId, StoredComparison.writeCanonical_stored]
    rfl

section Samples
open ComparisonEngine

/-- A result that was not made by an engine. -/
def missingHop : ComparisonResult where
  primary := .hopMissing
  differences := [{ index := 1, detail := .hopMissing, hasExpected := true }]

/-- The registry with the finding of this result only. -/
def missingHopRegistry (limits : Limits) : Result (FindingId × FindingRegistry) :=
  ({ limits := limits } : FindingRegistry).record missingHop ⟨1⟩

/-- A source, a sealed record, the finding and the comparison of a conforming trace. -/
theorem sample_records_decode :
    Codec.decodeExact (Codec.decodeSourceDescriptor {})
          (Codec.encodeSource ObservatoryRuntime.authoritySource) =
        .ok ObservatoryRuntime.authoritySource ∧
      Codec.decodeExact (Codec.decodeEvidence {})
          (Codec.encodeEvidence (sampleEvidence 1 1 (sampleTrace 7 [1,2,3]))) =
        .ok (sampleEvidence 1 1 (sampleTrace 7 [1,2,3])) ∧
      (∃ id registry finding, missingHopRegistry {} = .ok (id,registry) ∧
        finding ∈ registry.all ∧
        Codec.decodeExact (Codec.decodeFinding {}) (Codec.encodeFinding finding) =
          .ok finding) ∧
      ∃ result, sampleEngine.compare
          (sampleRequest [sampleEvidence 1 1 (sampleTrace 7 [1,2,3])]) sampleContext = .ok result ∧
        Codec.decodeExact (Codec.decodeComparison {}) (Codec.encodeComparison result) =
          .ok result.stored := by
  obtain ⟨hsource,hevidence,hfinding,hcomparison⟩ :=
    produced_records_decode {} ⟨by decide,by decide,by decide,by decide⟩
  have hplan : samplePlan.finalize {} = .ok sampleRoutes := by
    have hok : (samplePlan.finalize {}).toBool = true := by decide
    unfold sampleRoutes finalisedPlan
    cases h : samplePlan.finalize {} with
    | ok routes => rfl
    | error e =>
      rw [h] at hok
      cases hok
  have hheld : (missingHopRegistry {}).toOption.map (fun entry =>
      (entry.2.all.head?.map (fun finding => decide (finding.detail.length ≤ 1024)))) =
        some (some true) := by decide +kernel
  have hcompared : (sampleEngine.compare (sampleRequest [sampleEvidence 1 1
      (sampleTrace 7 [1,2,3])]) sampleContext).toOption.isSome = true := by decide +kernel
  obtain ⟨⟨id,registry⟩,hregistry,hhead⟩ := Option.map_eq_some_iff.mp hheld
  obtain ⟨found,hfound,hdetail⟩ := Option.map_eq_some_iff.mp hhead
  obtain ⟨result,hresult⟩ := Option.isSome_iff_exists.mp hcompared
  have hrecord := toOption_eq_some_iff.mp hregistry
  have hcompare := toOption_eq_some_iff.mp hresult
  have hmem : found ∈ registry.all := List.mem_of_head? hfound
  have hbuilt : FindingRegistry.Built {} registry := .record .empty (by decide) hrecord
  have hroutes : ∀ routes, sampleContext.routes = some routes →
      ∃ plan : RouteGeneration, plan.finalize {} = .ok routes := by
    intro routes hroutes
    obtain rfl : sampleRoutes = routes := Option.some.inj hroutes
    exact ⟨samplePlan,hplan⟩
  refine ⟨hsource _ (by decide) (by decide),hevidence _ ?_ (sampleEvidence_sealed _ _ _),
    ⟨id,registry,found,hrecord,hmem,?_⟩,result,hcompare,?_⟩
  · exact ObservedPathEvidence.validate_seal (by decide)
  · exact hfinding registry hbuilt found hmem ((of_decide_eq_true hdetail).trans (by decide))
  · exact (hcomparison sampleEngine _ sampleContext result rfl hroutes hcompare).1

/-- A registry bounds the evidence of a finding and not its hops: under a configuration
that validates it holds a finding that cannot be read back. -/
theorem unreadable_finding_held : ∃ (limits : Limits) (id : FindingId) (registry : FindingRegistry)
    (finding : Finding), limits.validate = .ok () ∧
      missingHopRegistry limits = .ok (id,registry) ∧ finding ∈ registry.all ∧
      finding.detail.length ≤ limits.maxStringBytes ∧
      Codec.decodeExact (Codec.decodeFinding limits) (Codec.encodeFinding finding) ≠
        .ok finding := by
  have hvalid : ({ maxHopsPerPath := 0 } : Limits).validate = .ok () := by decide
  have hheld : (missingHopRegistry { maxHopsPerPath := 0 }).toOption.map (fun entry =>
      entry.2.all.head?.map (fun finding => (decide (finding.detail.length ≤ 1024),
        decide (Codec.decodeExact (Codec.decodeFinding { maxHopsPerPath := 0 })
          (Codec.encodeFinding finding) = .ok finding)))) = some (some (true,false)) := by
    decide +kernel
  obtain ⟨⟨id,registry⟩,hregistry,hhead⟩ := Option.map_eq_some_iff.mp hheld
  obtain ⟨finding,hfinding,hfacts⟩ := Option.map_eq_some_iff.mp hhead
  obtain ⟨hdetail,hdecoded⟩ := Prod.mk.inj hfacts
  refine ⟨_,id,registry,finding,hvalid,toOption_eq_some_iff.mp hregistry,
    List.mem_of_head? hfinding,?_,of_decide_eq_false hdecoded⟩
  exact (of_decide_eq_true hdetail).trans (by decide)

end Samples

end PathObservatory
