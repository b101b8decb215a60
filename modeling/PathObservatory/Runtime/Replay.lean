import PathObservatory.Runtime.FindingInvariant
import PathObservatory.Runtime.Frames

/-! # Replaying a store

Whether a restart succeeds depends on the sources and the findings the records
rebuild; evidence and comparisons only have to decode. The replay of these two
registries is what the restart of a whole runtime refines.
-/
namespace PathObservatory
open ObservatoryRuntime

/-- The part of a runtime that a stored record can contradict. -/
structure Durable where
  sources : SourceRegistry := {}
  findings : FindingRegistry

namespace Durable

def empty (limits : Limits) : Durable where
  findings := { limits := limits }

def replayRecord (limits : Limits) (d : Durable) (record : StoredRecord) : Result Durable :=
  match record.type with
  | .evidence => do
    let _ ← decodeStored (Codec.decodeEvidence limits) record
    return d
  | .comparison => do
    let _ ← decodeStored (Codec.decodeComparison limits) record
    return d
  | .finding => do
    let finding ← decodeStored (Codec.decodeFinding limits) record
    let findings ← d.findings.restore finding
    return { d with findings := findings }
  | .source => do
    let descriptor ← decodeStored (Codec.decodeSourceDescriptor limits) record
    let sources ← d.sources.registerSource descriptor
    return { d with sources := sources }
  | .topologyGeneration | .routeGeneration | .marker => return d

def replay (limits : Limits) (d : Durable) (records : List StoredRecord) : Result Durable :=
  records.foldlM (replayRecord limits) d

theorem replay_concat {limits : Limits} {d e f : Durable} {records : List StoredRecord}
    {record : StoredRecord} (h : replay limits d records = .ok e)
    (hrecord : replayRecord limits e record = .ok f) :
    replay limits d (records ++ [record]) = .ok f := by
  unfold replay at h ⊢
  rw [List.foldlM_append, h]
  exact bind_eq_ok.mpr ⟨e,rfl,bind_eq_ok.mpr ⟨f,hrecord,rfl⟩⟩

end Durable

theorem decodeStored_of_reads {α : Type} {reader : CanonicalReader α} {record : StoredRecord}
    {value : α} (h : ByteReader.Reads reader record.payload value) :
    decodeStored reader record = .ok value := by
  simp only [decodeStored, Codec.decodeExact_of_reads h]

/-- A result within the bounds is within those of the decoder. -/
theorem comparisonFits_stored {limits : Limits} {result : ComparisonResult} {records : ℕ}
    (h : result.Bounded records limits.maxHopsPerPath)
    (hrecords : records ≤ limits.maxEvidencePerComparison) :
    Codec.ComparisonFits limits result.stored where
  classes := by
    simp only [ComparisonResult.stored, List.length_map]
    exact length_classes_le h.classes
  judgements := by
    simp only [ComparisonResult.stored, List.length_map]
    exact h.judgements.trans hrecords
  judgementClasses := by
    intro stored hstored
    obtain ⟨judgement,hjudgement,rfl⟩ := List.mem_map.mp hstored
    simp only [EvidenceJudgement.stored, List.length_map]
    exact length_classes_le (h.judgementClasses judgement hjudgement)
  differences := by
    simp only [ComparisonResult.stored, List.length_map]
    exact h.differences

theorem SourceRegistry.validate_of_registerSource {r s : SourceRegistry}
    {descriptor : SourceDescriptor} (h : r.registerSource descriptor = .ok s) :
    descriptor.validate = .ok () := by
  obtain ⟨_,hvalid,-⟩ := bind_eq_ok.mp h
  exact hvalid

namespace Durable
variable {limits : Limits} (hlimits : limits.validate = .ok ()) (d : Durable) (sequence : UInt64)
include hlimits

theorem replayRecord_evidence {e : ObservedPathEvidence} (hvalid : e.validate limits = .ok ())
    (hsealed : e.id = e.computeEvidenceId) :
    replayRecord limits d
      { type := .evidence, sequence := sequence, payload := Codec.encodeEvidence e } = .ok d := by
  have hreads := Codec.reads_decodeEvidence hvalid hsealed (Limits.lt_of_validate hlimits).1
  exact bind_eq_ok.mpr ⟨e,decodeStored_of_reads hreads,rfl⟩

theorem replayRecord_comparison {result : ComparisonResult} {records : ℕ}
    (h : result.Bounded records limits.maxHopsPerPath)
    (hrecords : records ≤ limits.maxEvidencePerComparison)
    (hsealed : result.id = DigestId.fromDigest result.canonicalDigest) :
    replayRecord limits d
      { type := .comparison, sequence := sequence, payload := Codec.encodeComparison result } =
        .ok d := by
  obtain ⟨hhops,hevidence,-⟩ := Limits.lt_of_validate hlimits
  have hstored : result.stored.id = result.stored.computeComparisonId := by
    rw [StoredComparison.computeComparisonId, StoredComparison.writeCanonical_stored]
    exact hsealed
  have hreads := Codec.reads_decodeComparison (comparisonFits_stored h hrecords) hstored hevidence
    hhops
  exact bind_eq_ok.mpr ⟨result.stored,decodeStored_of_reads hreads,rfl⟩

theorem replayRecord_finding {findings : FindingRegistry} (hd : d.findings.Sound limits)
    (hr : findings.Sound limits) (hsub : d.findings.SubsetOf findings) {finding : Finding}
    (hfiled : FindingRegistry.Filed limits finding.id finding)
    (hmem : finding.id ∈ findings.findings) :
    ∃ restored, replayRecord limits d
        { type := .finding, sequence := sequence, payload := Codec.encodeFinding finding } =
          .ok { d with findings := restored } ∧
      restored.Sound limits ∧ restored.SubsetOf findings := by
  obtain ⟨hhops,-,hstrings,hevidence,-⟩ := Limits.lt_of_validate hlimits
  obtain ⟨restored,hrestore,hsound,hsubset⟩ :=
    FindingRegistry.restore_of_subset hd hr hsub hfiled hmem
  have hreads := Codec.reads_decodeFinding hfiled.fits hfiled.sealed.symm hevidence hhops hstrings
  exact ⟨restored,bind_eq_ok.mpr ⟨finding,decodeStored_of_reads hreads,
    bind_eq_ok.mpr ⟨restored,hrestore,rfl⟩⟩,hsound,hsubset⟩

omit hlimits in
theorem replayRecord_source {descriptor : SourceDescriptor} {sources : SourceRegistry}
    (h : d.sources.registerSource descriptor = .ok sources)
    (hname : descriptor.name.length ≤ limits.maxStringBytes) :
    replayRecord limits d
      { type := .source, sequence := sequence, payload := Codec.encodeSource descriptor } =
        .ok { d with sources := sources } := by
  have hreads := Codec.reads_decodeSourceDescriptor
    (SourceRegistry.validate_of_registerSource h) hname
  exact bind_eq_ok.mpr ⟨descriptor,decodeStored_of_reads hreads,
    bind_eq_ok.mpr ⟨sources,h,rfl⟩⟩

end Durable

namespace ObservatoryRuntime

def durable (r : ObservatoryRuntime) : Durable where
  sources := r.sources
  findings := r.findings

/-- What restoring leaves alone: everything but the observations and what the
registries rebuild. -/
structure SameFrame (r s : ObservatoryRuntime) : Prop where
  config : s.config = r.config
  store : s.store = r.store

theorem SameFrame.trans {r s t : ObservatoryRuntime} (h : SameFrame r s) (k : SameFrame s t) :
    SameFrame r t := ⟨k.config.trans h.config,k.store.trans h.store⟩

/-- A runtime restores a record exactly when its registries replay it. -/
theorem restoreRecord_of_replay {r : ObservatoryRuntime} {record : StoredRecord} {d : Durable}
    (h : Durable.replayRecord r.config.limits r.durable record = .ok d) :
    ∃ s, r.restoreRecord record = .ok s ∧ SameFrame r s ∧ s.durable = d := by
  unfold Durable.replayRecord at h
  unfold restoreRecord
  cases htype : record.type with
  | evidence =>
    rw [htype] at h
    obtain ⟨evidence,hdecode,h⟩ := bind_eq_ok.mp h
    obtain ⟨buckets,hframe⟩ := r.restoreEvidence_frame evidence
    refine ⟨r.restoreEvidence evidence,bind_eq_ok.mpr ⟨evidence,hdecode,rfl⟩,?_⟩
    rw [hframe]
    exact ⟨⟨rfl,rfl⟩,Except.ok.inj h⟩
  | comparison =>
    rw [htype] at h
    obtain ⟨comparison,hdecode,h⟩ := bind_eq_ok.mp h
    exact ⟨_,bind_eq_ok.mpr ⟨comparison,hdecode,rfl⟩,⟨rfl,rfl⟩,Except.ok.inj h⟩
  | finding =>
    rw [htype] at h
    obtain ⟨finding,hdecode,h⟩ := bind_eq_ok.mp h
    obtain ⟨findings,hrestore,h⟩ := bind_eq_ok.mp h
    exact ⟨_,bind_eq_ok.mpr ⟨finding,hdecode,bind_eq_ok.mpr ⟨findings,hrestore,rfl⟩⟩,⟨rfl,rfl⟩,
      Except.ok.inj h⟩
  | source =>
    rw [htype] at h
    obtain ⟨descriptor,hdecode,h⟩ := bind_eq_ok.mp h
    obtain ⟨sources,hregister,h⟩ := bind_eq_ok.mp h
    exact ⟨_,bind_eq_ok.mpr ⟨descriptor,hdecode,bind_eq_ok.mpr ⟨sources,hregister,rfl⟩⟩,
      ⟨rfl,rfl⟩,Except.ok.inj h⟩
  | topologyGeneration =>
    rw [htype] at h
    exact ⟨r,rfl,⟨rfl,rfl⟩,Except.ok.inj h⟩
  | routeGeneration =>
    rw [htype] at h
    exact ⟨r,rfl,⟨rfl,rfl⟩,Except.ok.inj h⟩
  | marker =>
    rw [htype] at h
    exact ⟨r,rfl,⟨rfl,rfl⟩,Except.ok.inj h⟩

/-- A replay that goes through is a restart that goes through. -/
theorem restoreRecords_of_replay {r : ObservatoryRuntime} {records : List StoredRecord}
    {d : Durable} (h : Durable.replay r.config.limits r.durable records = .ok d) :
    ∃ s, r.restoreRecords records = (.ok (),s) ∧ SameFrame r s ∧ s.durable = d := by
  induction records generalizing r with
  | nil => exact ⟨r,rfl,⟨rfl,rfl⟩,Except.ok.inj h⟩
  | cons record records ih =>
    obtain ⟨next,hrecord,h⟩ := bind_eq_ok.mp h
    obtain ⟨s,hs,hframe,hdurable⟩ := restoreRecord_of_replay hrecord
    have hrest : Durable.replay s.config.limits s.durable records = .ok d := by
      rw [hframe.config, hdurable]
      exact h
    obtain ⟨t,ht,hframe',hdurable'⟩ := ih hrest
    refine ⟨t,?_,hframe.trans hframe',hdurable'⟩
    rw [restoreRecords, hs]
    exact ht

end ObservatoryRuntime

end PathObservatory
