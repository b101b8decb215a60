import PathObservatory.Foundation.ReadBack
import PathObservatory.Store.Codec

/-! # Round trips of stored records

What the decoder reads back is what was encoded, as soon as the record passes the
decoder's own checks: the bounds on texts and counts, validation and the
recomputed identity.
-/
namespace PathObservatory.Codec
open ByteReader CanonicalReader

theorem reads_readTag {tag : String} {refusal : ByteString → Error}
    (h : (bytesOf tag).length ≤ 64) :
    Reads (readTag tag refusal) (CanonicalWriter.text (bytesOf tag)) () := by
  rw [← List.append_nil (CanonicalWriter.text (bytesOf tag))]
  refine (reads_text _ h (by omega)).bind ?_
  intro rest
  simp [StateT.run, require]
  rfl

theorem reads_enumeration {α : Type} {parse : UInt8 → Option α} {message : String} {raw : UInt8}
    {value : α} (h : parse raw = some value) :
    Reads (enumeration parse message) (CanonicalWriter.u8 raw) value := by
  rw [← List.append_nil (CanonicalWriter.u8 raw)]
  refine (reads_u8 raw).bind ?_
  rw [h]
  exact Reads.pure value

theorem reads_maybeStrong {tag : IdTag} (value : MaybeId tag) :
    Reads (maybeStrong tag) (maybeBytes value) value := by
  have hvalue : (if value.present then (⟨⟨value.value.value⟩⟩ : MaybeId tag) else {}) = value := by
    split_ifs with hpresent
    · rfl
    · have hzero : value.value.value = 0 := by
        simpa [MaybeId.present, StrongId.valid] using hpresent
      cases value with
      | mk inner =>
        cases inner with
        | mk raw =>
          simp only at hzero
          rw [hzero]
  unfold maybeBytes
  refine (reads_boolean value.present).bind ?_
  have hread := Reads.map_pure (reads_u64 value.value.value)
    (f := fun raw => (if value.present then ⟨⟨raw⟩⟩ else {} : MaybeId tag))
  rw [hvalue] at hread
  exact hread

theorem sourceKind_toUInt8 (kind : SourceKind) : sourceKind kind.toUInt8 = some kind := by
  cases kind <;> rfl

theorem proofSurface_toUInt8 (surface : ProofSurface) :
    proofSurface surface.toUInt8 = some surface := by
  cases surface <;> rfl

theorem authorityClass_toUInt8 (authority : AuthorityClass) :
    authorityClass authority.toUInt8 = some authority := by
  cases authority <;> rfl

theorem evidenceCompleteness_toUInt8 (completeness : EvidenceCompleteness) :
    evidenceCompleteness completeness.toUInt8 = some completeness := by
  cases completeness <;> rfl

theorem hopLinkProvenance_toUInt8 (provenance : HopLinkProvenance) :
    hopLinkProvenance provenance.toUInt8 = some provenance := by
  cases provenance <;> rfl

theorem matchOutcome_toUInt8 (outcome : MatchOutcome) :
    matchOutcome outcome.toUInt8 = some outcome := by
  cases outcome <;> rfl

theorem findingStatus_toUInt8 (status : FindingStatus) :
    findingStatus status.toUInt8 = some status := by
  cases status <;> rfl

/-- A reader that consumes the whole payload decodes it. -/
theorem decodeExact_of_reads {α : Type} {reader : CanonicalReader α} {payload : ByteString}
    {value : α} (h : Reads reader payload value) : decodeExact reader payload = .ok value := by
  have hrun := h []
  rw [List.append_nil] at hrun
  simp only [decodeExact, hrun]
  rfl

theorem decodeExact_eq_ok {α : Type} {reader : CanonicalReader α} {payload : ByteString}
    {value : α} : decodeExact reader payload = .ok value ↔
      reader.run payload = .ok (value,[]) := by
  unfold decodeExact
  simp only [bind_eq_ok, pure_eq_ok]
  constructor
  · rintro ⟨⟨read,rest⟩,hrun,⟨_,left⟩,hend,rfl⟩
    obtain ⟨hrest,-⟩ := expectEnd_eq_ok.mp hend
    rw [hrun, ← hrest]
  · intro hrun
    exact ⟨_,hrun,((),[]),rfl,rfl⟩

theorem reads_decodeSourceDescriptor {limits : Limits} {d : SourceDescriptor}
    (hvalid : d.validate = .ok ()) (hname : d.name.length ≤ limits.maxStringBytes) :
    Reads (decodeSourceDescriptor limits) (encodeSource d) d := by
  have hlength : d.name.length < 2 ^ 32 := by
    have hbound : d.name.length ≤ 256 := by
      unfold SourceDescriptor.validate at hvalid
      simp only [↓require_bind_eq_ok, decide_eq_true_eq] at hvalid
      exact hvalid.2.2.1
    omega
  unfold encodeSource SourceDescriptor.fields
  simp only [List.append_assoc]
  refine (reads_readTag (by decide +kernel)).bind ?_
  refine (reads_id _).bind ?_
  refine (reads_text _ hname hlength).bind ?_
  refine (reads_enumeration (sourceKind_toUInt8 _)).bind ?_
  refine (reads_enumeration (proofSurface_toUInt8 _)).bind ?_
  refine (reads_enumeration (authorityClass_toUInt8 _)).bind ?_
  refine (reads_boolean _).bind ?_
  refine (reads_boolean _).bind ?_
  refine (reads_boolean _).bind ?_
  refine (reads_i64 _).bind ?_
  rw [← List.append_nil (CanonicalWriter.i64 _)]
  refine (reads_i64 _).bind ?_
  exact Reads.check_bind hvalid (Reads.pure d)

theorem reads_decodeHop (hop : ObservedHop) :
    Reads decodeHop (ObservedPathEvidence.hopBytes hop) hop := by
  unfold ObservedPathEvidence.hopBytes
  simp only [List.append_assoc]
  refine (reads_u32 _).bind ?_
  refine (reads_id _).bind ?_
  refine (reads_id _).bind ?_
  refine (reads_id _).bind ?_
  refine (reads_id _).bind ?_
  refine (reads_enumeration (hopLinkProvenance_toUInt8 _)).bind ?_
  exact Reads.map_pure (reads_i64 _)

/-- A check after which nothing is read. -/
theorem reads_check {α : Type} {check : Result α} {value : α} (h : check = .ok value) :
    Reads (liftM check : CanonicalReader α) [] value := by
  subst h
  intro rest
  rfl

theorem sealedEvidence_clearId {limits : Limits} {e : ObservedPathEvidence}
    (hvalid : e.validate limits = .ok ()) (hsealed : e.id = e.computeEvidenceId) :
    sealedEvidence limits e.id { e with id := {} } = .ok e :=
  bind_eq_ok.mpr ⟨(),ObservedPathEvidence.validate_clearId hvalid,
    require_bind_eq_ok.mpr ⟨decide_eq_true hsealed.symm,rfl⟩⟩

theorem sealedComparison_clearId {c : StoredComparison} (hsealed : c.id = c.computeComparisonId) :
    sealedComparison c.id { c with id := {} } = .ok c :=
  require_bind_eq_ok.mpr ⟨decide_eq_true hsealed.symm,rfl⟩

theorem sealedFinding_clearId {f : Finding} (hsealed : f.id = f.computeFindingId) :
    sealedFinding f.id { f with id := {} } = .ok f :=
  require_bind_eq_ok.mpr ⟨decide_eq_true hsealed.symm,rfl⟩

/-- A valid sealed record within the bounds is read back with all its fields. -/
theorem reads_decodeEvidence {limits : Limits} {e : ObservedPathEvidence}
    (hvalid : e.validate limits = .ok ()) (hsealed : e.id = e.computeEvidenceId)
    (hlimits : limits.maxHopsPerPath < 2 ^ 32) :
    Reads (decodeEvidence limits) (encodeEvidence e) e := by
  obtain ⟨hhops,hnote⟩ := ObservedPathEvidence.bounds_of_validate hvalid
  unfold encodeEvidence
  simp only [List.append_assoc]
  refine (reads_readTag (by decide +kernel)).bind ?_
  refine (reads_digestId _).bind ?_
  refine (reads_id _).bind ?_
  refine (reads_id _).bind ?_
  refine (reads_id _).bind ?_
  refine (reads_enumeration (proofSurface_toUInt8 _)).bind ?_
  refine (reads_enumeration (authorityClass_toUInt8 _)).bind ?_
  refine (reads_maybeStrong _).bind ?_
  refine (reads_maybeStrong _).bind ?_
  refine (reads_maybeStrong _).bind ?_
  refine (reads_maybeStrong _).bind ?_
  refine (reads_id _).bind ?_
  refine (reads_id _).bind ?_
  refine (reads_maybeStrong _).bind ?_
  refine (reads_maybeStrong _).bind ?_
  refine (reads_id _).bind ?_
  refine (reads_i64 _).bind ?_
  refine (reads_i64 _).bind ?_
  refine (reads_boolean _).bind ?_
  refine (reads_enumeration (evidenceCompleteness_toUInt8 _)).bind ?_
  refine (reads_digest _).bind ?_
  refine (reads_text _ hnote (by omega)).bind ?_
  refine (reads_count hhops (by omega)).bind ?_
  rw [← List.append_nil (e.hops.flatMap _)]
  refine (Reads.many e.hops (fun hop _ => reads_decodeHop hop)).bind (reads_check ?_)
  exact sealedEvidence_clearId hvalid hsealed

theorem reads_decodeJudgement {j : StoredJudgement} (h : j.classes.length ≤ 64) :
    Reads decodeJudgement j.bytes j := by
  unfold StoredJudgement.bytes
  simp only [List.append_assoc]
  refine (reads_digestId _).bind ?_
  refine (reads_boolean _).bind ?_
  refine (reads_u8 _).bind ?_
  refine (reads_u8 _).bind ?_
  refine (reads_u8 _).bind ?_
  refine (reads_u8 _).bind ?_
  refine (reads_u8 _).bind ?_
  refine (reads_count h (by omega)).bind ?_
  exact Reads.map_pure (Reads.many j.classes (fun value _ => reads_u8 value))

theorem reads_decodeDifference (d : StoredDifference) :
    Reads decodeDifference d.bytes d := by
  unfold StoredDifference.bytes
  simp only [List.append_assoc]
  refine (reads_u32 _).bind ?_
  refine (reads_u8 _).bind ?_
  refine (reads_boolean _).bind ?_
  exact Reads.map_pure (reads_boolean _)

/-- The bounds the decoder puts on a comparison. -/
structure ComparisonFits (limits : Limits) (c : StoredComparison) : Prop where
  classes : c.classes.length ≤ 64
  judgements : c.judgements.length ≤ limits.maxEvidencePerComparison
  judgementClasses : ∀ j ∈ c.judgements, j.classes.length ≤ 64
  differences : c.differences.length ≤ limits.maxHopsPerPath

theorem reads_decodeComparison {limits : Limits} {c : StoredComparison}
    (hfits : ComparisonFits limits c) (hsealed : c.id = c.computeComparisonId)
    (hevidence : limits.maxEvidencePerComparison < 2 ^ 32)
    (hhops : limits.maxHopsPerPath < 2 ^ 32) :
    Reads (decodeComparison limits) (encodeStoredComparison c) c := by
  have hjudgements := hfits.judgements
  have hdifferences := hfits.differences
  unfold encodeStoredComparison StoredComparison.writeCanonical
  simp only [List.append_assoc]
  refine (reads_readTag (by decide +kernel)).bind ?_
  refine (reads_digestId _).bind ?_
  refine (reads_readTag (by decide +kernel)).bind ?_
  refine (reads_id _).bind ?_
  refine (reads_id _).bind ?_
  refine (reads_maybeStrong _).bind ?_
  refine (reads_maybeStrong _).bind ?_
  refine (reads_maybeStrong _).bind ?_
  refine (reads_enumeration (matchOutcome_toUInt8 _)).bind ?_
  refine (reads_u8 _).bind ?_
  refine (reads_count hfits.classes (by have := hfits.classes; omega)).bind ?_
  refine (Reads.many c.classes (fun value _ => reads_u8 value)).bind ?_
  refine (reads_u8 _).bind ?_
  refine (reads_u8 _).bind ?_
  refine (reads_u8 _).bind ?_
  refine (reads_u8 _).bind ?_
  refine (reads_boolean _).bind ?_
  refine (reads_boolean _).bind ?_
  refine (reads_u32 _).bind ?_
  refine (reads_u32 _).bind ?_
  refine (reads_count hjudgements (by omega)).bind ?_
  refine (Reads.many c.judgements
    (fun j hj => reads_decodeJudgement (hfits.judgementClasses j hj))).bind ?_
  refine (reads_count hdifferences (by omega)).bind ?_
  refine (Reads.many c.differences (fun d _ => reads_decodeDifference d)).bind ?_
  rw [← List.append_nil (CanonicalWriter.i64 _)]
  refine (reads_i64 _).bind (reads_check ?_)
  exact sealedComparison_clearId hsealed

/-- The bounds the decoder puts on a finding. -/
structure FindingFits (limits : Limits) (f : Finding) : Prop where
  evidence : f.evidence.length ≤ limits.maxFindingEvidence
  hopIndices : f.hopIndices.length ≤ limits.maxHopsPerPath
  detail : f.detail.length ≤ limits.maxStringBytes

theorem reads_decodeFinding {limits : Limits} {f : Finding} (hfits : FindingFits limits f)
    (hsealed : f.id = f.computeFindingId) (hevidence : limits.maxFindingEvidence < 2 ^ 32)
    (hhops : limits.maxHopsPerPath < 2 ^ 32) (hstrings : limits.maxStringBytes < 2 ^ 32) :
    Reads (decodeFinding limits) (encodeFinding f) f := by
  have hids := hfits.evidence
  have hindices := hfits.hopIndices
  have hdetail := hfits.detail
  unfold encodeFinding
  simp only [List.append_assoc]
  refine (reads_readTag (by decide +kernel)).bind ?_
  refine (reads_digestId _).bind ?_
  refine (reads_u8 _).bind ?_
  refine (reads_maybeStrong _).bind ?_
  refine (reads_maybeStrong _).bind ?_
  refine (reads_id _).bind ?_
  refine (reads_id _).bind ?_
  refine (reads_count hids (by omega)).bind ?_
  refine (Reads.many f.evidence (fun id _ => reads_digestId id)).bind ?_
  refine (reads_count hindices (by omega)).bind ?_
  refine (Reads.many f.hopIndices (fun index _ => reads_u32 index)).bind ?_
  refine (reads_enumeration (findingStatus_toUInt8 _)).bind ?_
  refine (reads_u64 _).bind ?_
  refine (reads_i64 _).bind ?_
  refine (reads_i64 _).bind ?_
  refine (reads_digestId _).bind ?_
  rw [← List.append_nil (CanonicalWriter.text f.detail)]
  refine (reads_text _ hdetail (by omega)).bind (reads_check ?_)
  exact sealedFinding_clearId hsealed

end PathObservatory.Codec
