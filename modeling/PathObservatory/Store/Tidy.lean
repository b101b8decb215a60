import PathObservatory.Library.Skim
import PathObservatory.Store.RecordRoundTrip

/-! # Payloads that are the encoding of what they decode to

A decoder drops the bytes of an absent identity, takes a presence byte for an identity of
zero and pads or cuts a digest identity of another length. Everything else that it reads
it could write again, so that a payload differs from the encoding of its record in these
fields only.
-/
namespace PathObservatory
namespace Codec
open ByteReader CanonicalReader Skim

theorem readTag_eq_ok {tag : String} {refusal : ByteString → Error} {input rest : ByteString}
    {value : Unit} (h : (readTag tag refusal).run input = .ok (value,rest)) :
    (bytesOf tag).length ≤ 64 ∧ (text 64).run input = .ok (bytesOf tag,rest) := by
  unfold readTag at h
  simp only [run_bind_eq_ok, run_lift_eq_ok] at h
  obtain ⟨stated,_,htext,hcheck,rfl⟩ := h
  obtain rfl : stated = bytesOf tag := of_decide_eq_true (require_eq_ok.mp hcheck)
  exact ⟨(text_eq_ok htext).1,htext⟩

theorem enumeration_eq_ok {α : Type} {parse : UInt8 → Option α} {message : String}
    {input rest : ByteString} {value : α}
    (h : (enumeration parse message).run input = .ok (value,rest)) :
    ∃ raw, parse raw = some value ∧ input = CanonicalWriter.u8 raw ++ rest := by
  unfold enumeration at h
  obtain ⟨raw,_,hraw,h⟩ := run_bind_eq_ok.mp h
  cases hparse : parse raw with
  | none =>
    rw [hparse] at h
    cases h
  | some found =>
    rw [hparse] at h
    obtain ⟨rfl,rfl⟩ := run_pure_eq_ok.mp h
    exact ⟨raw,hparse,wrote_u8 _ _ _ hraw⟩

theorem sourceKind_exact (raw : UInt8) (value : SourceKind) (h : sourceKind raw = some value) :
    value.toUInt8 = raw := by
  unfold sourceKind at h
  split at h <;> cases h <;> rfl

theorem proofSurface_exact (raw : UInt8) (value : ProofSurface) (h : proofSurface raw = some value) :
    value.toUInt8 = raw := by
  unfold proofSurface at h
  split at h <;> cases h <;> rfl

theorem authorityClass_exact (raw : UInt8) (value : AuthorityClass) (h : authorityClass raw = some value) :
    value.toUInt8 = raw := by
  unfold authorityClass at h
  split at h <;> cases h <;> rfl

theorem evidenceCompleteness_exact (raw : UInt8) (value : EvidenceCompleteness) (h : evidenceCompleteness raw = some value) :
    value.toUInt8 = raw := by
  unfold evidenceCompleteness at h
  split at h <;> cases h <;> rfl

theorem hopLinkProvenance_exact (raw : UInt8) (value : HopLinkProvenance) (h : hopLinkProvenance raw = some value) :
    value.toUInt8 = raw := by
  unfold hopLinkProvenance at h
  split at h <;> cases h <;> rfl

theorem matchOutcome_exact (raw : UInt8) (value : MatchOutcome) (h : matchOutcome raw = some value) :
    value.toUInt8 = raw := by
  unfold matchOutcome at h
  split at h <;> cases h <;> rfl

theorem findingStatus_exact (raw : UInt8) (value : FindingStatus) (h : findingStatus raw = some value) :
    value.toUInt8 = raw := by
  unfold findingStatus at h
  split at h <;> cases h <;> rfl

/-! ## The shape of a field -/

/-- Sixteen bytes behind their length. -/
def digestIdSlot : Skim := fun input =>
  if input.take 4 = [16,0,0,0] then fixed 20 input else none

/-- Eight bytes behind a presence byte that is set exactly where they are not all zero. -/
def maybeSlot : Skim := fun input =>
  if (input.head? == some 1) = ((input.drop 1).take 8).any (· != 0) then fixed 9 input else none

def textSlot : Skim := prefixed 4

theorem follows_of_wrote {α : Type} {reader : CanonicalReader α} {encode : α → ByteString}
    {width : ℕ} (h : Wrote reader encode) (hreads : ∀ a, Reads reader (encode a) a)
    (hwidth : ∀ a, (encode a).length = width) : Follows (fixed width) reader encode :=
  fun input a rest hrun => ⟨.fixed (h input a rest hrun) (hwidth a),hreads a⟩

theorem follows_u8 : Follows (fixed 1) u8 CanonicalWriter.u8 :=
  follows_of_wrote wrote_u8 reads_u8 (fun _ => rfl)

theorem follows_u32 : Follows (fixed 4) u32 CanonicalWriter.u32 :=
  follows_of_wrote wrote_u32 reads_u32 (fun _ => LittleEndian.length_toBytes _ _)

theorem follows_u64 : Follows (fixed 8) u64 CanonicalWriter.u64 :=
  follows_of_wrote wrote_u64 reads_u64 (fun _ => LittleEndian.length_toBytes _ _)

theorem follows_i64 : Follows (fixed 8) i64 CanonicalWriter.i64 :=
  follows_of_wrote wrote_i64 reads_i64 (fun _ => LittleEndian.length_toBytes _ _)

theorem follows_id {tag : IdTag} : Follows (fixed 8) (CanonicalReader.id tag) CanonicalWriter.id :=
  follows_of_wrote wrote_id reads_id (fun _ => LittleEndian.length_toBytes _ _)

theorem follows_boolean : Follows (fixed 1) boolean CanonicalWriter.boolean :=
  follows_of_wrote wrote_boolean reads_boolean (fun _ => rfl)

theorem follows_digest : Follows (fixed 32) digest CanonicalWriter.digest :=
  follows_of_wrote wrote_digest reads_digest Digest.size_eq

theorem follows_enumeration {α : Type} {parse : UInt8 → Option α} {code : α → UInt8}
    {message : String} (h : ∀ raw value, parse raw = some value → code value = raw) :
    Follows (fixed 1) (enumeration parse message) (fun value => CanonicalWriter.u8 (code value)) := by
  intro input value rest hrun
  obtain ⟨raw,hparse,rfl⟩ := enumeration_eq_ok hrun
  dsimp only
  rw [h raw value hparse]
  exact ⟨.fixed rfl rfl,reads_enumeration hparse⟩

theorem follows_text {maxBytes : ℕ} : Follows textSlot (text maxBytes) CanonicalWriter.text := by
  intro input value rest hrun
  obtain ⟨hbound,hword,rfl⟩ := text_eq_ok hrun
  have hlength : (UInt32.ofNat value.length).toNat = value.length :=
    UInt32.toNat_ofNat_of_lt' hword
  refine ⟨?_,reads_text value hbound hword⟩
  rw [CanonicalWriter.text, CanonicalWriter.u32, hlength]
  exact .prefixed hword

theorem follows_readTag {tag : String} {refusal : ByteString → Error} :
    Follows textSlot (readTag tag refusal) (fun _ => CanonicalWriter.text (bytesOf tag)) := by
  intro input value rest hrun
  obtain ⟨hbound,hrun⟩ := readTag_eq_ok hrun
  exact ⟨(follows_text _ _ _ hrun).1,reads_readTag hbound⟩

theorem any_u64 (raw : UInt64) : (CanonicalWriter.u64 raw).any (· != 0) = (raw != 0) := by
  have hnumber : LittleEndian.ofBytes (CanonicalWriter.u64 raw) = raw.toNat :=
    LittleEndian.ofBytes_toBytes_of_lt raw.toNat_lt
  have hzero : (∀ byte ∈ CanonicalWriter.u64 raw, byte = 0) ↔ raw = 0 := by
    rw [← LittleEndian.ofBytes_eq_zero, hnumber, ← UInt64.toNat_inj, UInt64.toNat_zero]
  rw [Bool.eq_iff_iff, List.any_eq_true, bne_iff_ne, ne_eq, ← hzero]
  simp

/-- The presence byte and the identity are read independently. -/
theorem follows_maybe {tag : IdTag} : Follows maybeSlot (maybeStrong tag) maybeBytes := by
  intro input value rest hrun
  unfold maybeStrong at hrun
  simp only [run_bind_eq_ok, run_pure_eq_ok] at hrun
  obtain ⟨present,_,hpresent,raw,left,hraw,rfl,rfl⟩ := hrun
  obtain rfl := wrote_u64 _ _ _ hraw
  obtain rfl := wrote_boolean _ _ _ hpresent
  have hhead : ((CanonicalWriter.boolean present ++ (CanonicalWriter.u64 raw ++ left)).head? ==
      some 1) = present := by
    cases present <;> rfl
  have hbody : ((CanonicalWriter.boolean present ++ (CanonicalWriter.u64 raw ++ left)).drop 1).take 8
      = CanonicalWriter.u64 raw :=
    List.take_left' (LittleEndian.length_toBytes _ _)
  refine ⟨?_,reads_maybeStrong _⟩
  unfold maybeSlot
  rw [hhead, hbody, any_u64]
  by_cases hagree : present = (raw != 0)
  · have hvalue : maybeBytes (if present then ⟨⟨raw⟩⟩ else {} : MaybeId tag) =
        CanonicalWriter.boolean present ++ CanonicalWriter.u64 raw := by
      by_cases hzero : raw = 0
      · subst hagree hzero
        rfl
      · have hset : (raw != 0) = true := bne_iff_ne.mpr hzero
        rw [hagree, if_pos hset]
        rfl
    rw [if_pos hagree, hvalue]
    exact .fixed (List.append_assoc _ _ _).symm rfl
  · rw [if_neg hagree]
    refine .stops (fun more heq => hagree ?_)
    unfold maybeBytes at heq
    rw [List.append_assoc] at heq
    obtain ⟨hpresent,heq⟩ := (reads_boolean present).cancel (reads_boolean _) heq
    obtain ⟨hraw,-⟩ := (reads_u64 raw).cancel (reads_u64 _) heq
    exact hpresent.trans (congrArg (· != 0) hraw.symm)

/-- An identity that has sixteen bytes is kept; one of another length is padded or cut. -/
theorem follows_digestId {tag : DigestTag} :
    Follows digestIdSlot (CanonicalReader.digestId tag) CanonicalWriter.digestId := by
  intro input value rest hrun
  unfold CanonicalReader.digestId at hrun
  simp only [run_bind_eq_ok, run_lift_eq_ok, run_pure_eq_ok] at hrun
  obtain ⟨raw,left,hraw,_,_,⟨-,rfl⟩,rfl,rfl⟩ := hrun
  obtain ⟨hword,rfl⟩ := bytes_eq_ok hraw
  have htake : (CanonicalWriter.bytes raw ++ left).take 4 =
      CanonicalWriter.u32 (UInt32.ofNat raw.length) := by
    rw [CanonicalWriter.bytes, List.append_assoc]
    exact List.take_left' (LittleEndian.length_toBytes _ _)
  have hlength : (UInt32.ofNat raw.length).toNat = raw.length := UInt32.toNat_ofNat_of_lt' hword
  refine ⟨?_,reads_digestId _⟩
  unfold digestIdSlot
  rw [htake]
  by_cases hsixteen : CanonicalWriter.u32 (UInt32.ofNat raw.length) = [16,0,0,0]
  · have hwide : raw.length = 16 := by
      have hnumber := congrArg LittleEndian.ofBytes hsixteen
      rw [CanonicalWriter.u32, LittleEndian.ofBytes_toBytes_of_lt (UInt32.toNat_lt _), hlength]
        at hnumber
      exact hnumber
    have hvalue : (DigestId.fromDigest (digestOf raw) : DigestId tag).bytes = raw := by
      show ((raw ++ _).take kDigestBytes).take kDigestIdBytes = raw
      rw [List.take_take]
      exact List.take_left' hwide
    have hwritten : CanonicalWriter.digestId (DigestId.fromDigest (digestOf raw) : DigestId tag) =
        CanonicalWriter.bytes raw := by
      rw [CanonicalWriter.digestId, hvalue]
    rw [if_pos hsixteen, hwritten]
    refine .fixed rfl ?_
    rw [CanonicalWriter.bytes, List.length_append, hwide]
    rfl
  · rw [if_neg hsixteen]
    refine .stops (fun more heq => hsixteen ?_)
    unfold CanonicalWriter.digestId CanonicalWriter.bytes at heq
    rw [List.append_assoc, List.append_assoc, DigestId.size_eq] at heq
    obtain ⟨hfront,-⟩ := (reads_u32 _).cancel (reads_u32 _) heq
    rw [hfront]
    rfl

theorem length_of_counted {α : Type} {reader : CanonicalReader α} {maxCount n : ℕ}
    {input left rest : ByteString} {values : List α}
    (hcount : (count maxCount).run input = .ok (n,left))
    (hrun : (ByteReader.many n reader).run left = .ok (values,rest)) :
    values.length = n ∧ values.length ≤ maxCount ∧ values.length < 2 ^ 32 := by
  obtain ⟨hbound,hword,-⟩ := count_eq_ok hcount
  have hany : ∀ input a rest, reader.run input = .ok (a,rest) → True := fun _ _ _ _ => trivial
  obtain ⟨rfl,-⟩ := forall_of_many hany hrun
  exact ⟨rfl,hbound,hword⟩

theorem passes_counted {α : Type} {skim : Skim} {reader : CanonicalReader α}
    {encode : α → ByteString} (h : Follows skim reader encode) {maxCount n : ℕ}
    {input left rest : ByteString} {values : List α}
    (hcount : (count maxCount).run input = .ok (n,left))
    (hrun : (ByteReader.many n reader).run left = .ok (values,rest)) :
    Passes input (CanonicalWriter.count values.length ++ values.flatMap encode) rest
      (counted 4 skim input) := by
  obtain ⟨-,-,rfl⟩ := count_eq_ok hcount
  obtain ⟨rfl,-,hword⟩ := length_of_counted hcount hrun
  have hlength : (UInt32.ofNat values.length).toNat = values.length :=
    UInt32.toNat_ofNat_of_lt' hword
  rw [CanonicalWriter.count, CanonicalWriter.u32, hlength]
  exact h.counted hword hrun

/-- A sequence behind its count, and then other fields. -/
theorem follows_sequence {α β : Type} {skim : Skim} {reader : CanonicalReader α}
    {encode : α → ByteString} (h : Follows skim reader encode) {maxCount : ℕ}
    {before : ByteString} {layout : List Skim} {next : List α → CanonicalReader β}
    {total : β → ByteString}
    (hnext : ∀ values, FollowsAfter (before ++ CanonicalWriter.count values.length ++
      values.flatMap encode) (walk layout) (next values) total) :
    FollowsAfter before (walk (counted 4 skim :: layout))
      (count maxCount >>= fun n => ByteReader.many n reader >>= next) total := by
  intro input b rest hrun
  obtain ⟨n,left,hcount,hrun⟩ := run_bind_eq_ok.mp hrun
  obtain ⟨values,left,hvalues,hrun⟩ := run_bind_eq_ok.mp hrun
  obtain ⟨written,htotal,hpasses,hreads⟩ := hnext values left b rest hrun
  obtain ⟨hlength,hbound,hword⟩ := length_of_counted hcount hvalues
  refine ⟨CanonicalWriter.count values.length ++ (values.flatMap encode ++ written),?_,?_,?_⟩
  · rw [htotal, List.append_assoc, List.append_assoc]
  · rw [← List.append_assoc]
    exact (passes_counted h hcount hvalues).walk hpasses
  · refine (reads_count hbound hword).bind ?_
    rw [← hlength] at hvalues
    exact (h.times _ _ _ _ hvalues).2.bind hreads

/-! ## The layouts of the stored records -/

def hopLayout : List Skim := [fixed 4,fixed 8,fixed 8,fixed 8,fixed 8,fixed 1,fixed 8]

def evidenceLayout : List Skim :=
  [textSlot,digestIdSlot,fixed 8,fixed 8,fixed 8,fixed 1,fixed 1,
   maybeSlot,maybeSlot,maybeSlot,maybeSlot,fixed 8,fixed 8,maybeSlot,maybeSlot,
   fixed 8,fixed 8,fixed 8,fixed 1,fixed 1,fixed 32,textSlot,counted 4 (walk hopLayout)]

def judgementLayout : List Skim :=
  [digestIdSlot,fixed 1,fixed 1,fixed 1,fixed 1,fixed 1,fixed 1,counted 4 (fixed 1)]

def differenceLayout : List Skim := [fixed 4,fixed 1,fixed 1,fixed 1]

def comparisonLayout : List Skim :=
  [textSlot,digestIdSlot,textSlot,fixed 8,fixed 8,maybeSlot,maybeSlot,maybeSlot,
   fixed 1,fixed 1,counted 4 (fixed 1),fixed 1,fixed 1,fixed 1,fixed 1,fixed 1,fixed 1,
   fixed 4,fixed 4,counted 4 (walk judgementLayout),counted 4 (walk differenceLayout),fixed 8]

def findingLayout : List Skim :=
  [textSlot,digestIdSlot,fixed 1,maybeSlot,maybeSlot,fixed 8,fixed 8,counted 4 digestIdSlot,
   counted 4 (fixed 4),fixed 1,fixed 8,fixed 8,fixed 8,digestIdSlot,textSlot]

/-- Field by field up to its end, every digest identity of the payload has sixteen bytes
and every presence byte says whether the identity behind it is zero. -/
def Tidy (layout : List Skim) (payload : ByteString) : Prop := walk layout payload = some []

instance (layout : List Skim) (payload : ByteString) : Decidable (Tidy layout payload) :=
  inferInstanceAs (Decidable (_ = _))

theorem follows_hop :
    Follows (walk hopLayout) decodeHop ObservedPathEvidence.hopBytes := by
  refine FollowsAfter.follows ?_
  refine .bind follows_u32 (fun index => ?_)
  refine .bind follows_id (fun device => ?_)
  refine .bind follows_id (fun ingress => ?_)
  refine .bind follows_id (fun egress => ?_)
  refine .bind follows_id (fun link => ?_)
  refine .bind (follows_enumeration hopLinkProvenance_exact) (fun provenance => ?_)
  refine .bind follows_i64 (fun atTime => ?_)
  exact .pure rfl

theorem follows_judgement :
    Follows (walk judgementLayout) decodeJudgement StoredJudgement.bytes := by
  refine FollowsAfter.follows ?_
  refine .bind follows_digestId (fun id => ?_)
  refine .bind follows_boolean (fun accepted => ?_)
  refine .bind follows_u8 (fun rejection => ?_)
  refine .bind follows_u8 (fun freshness => ?_)
  refine .bind follows_u8 (fun surface => ?_)
  refine .bind follows_u8 (fun authority => ?_)
  refine .bind follows_u8 (fun completeness => ?_)
  refine follows_sequence follows_u8 (fun classes => ?_)
  exact .pure rfl

theorem follows_difference :
    Follows (walk differenceLayout) decodeDifference StoredDifference.bytes := by
  refine FollowsAfter.follows ?_
  refine .bind follows_u32 (fun index => ?_)
  refine .bind follows_u8 (fun detail => ?_)
  refine .bind follows_boolean (fun hasExpected => ?_)
  refine .bind follows_boolean (fun hasObserved => ?_)
  exact .pure rfl

theorem follows_evidence {limits : Limits} :
    Follows (walk evidenceLayout) (decodeEvidence limits) encodeEvidence := by
  refine FollowsAfter.follows ?_
  refine .bind follows_readTag (fun _ => ?_)
  refine .bind follows_digestId (fun stored => ?_)
  refine .bind follows_id (fun source => ?_)
  refine .bind follows_id (fun incarnation => ?_)
  refine .bind follows_id (fun sequence => ?_)
  refine .bind (follows_enumeration proofSurface_exact) (fun surface => ?_)
  refine .bind (follows_enumeration authorityClass_exact) (fun authority => ?_)
  refine .bind follows_maybe (fun path => ?_)
  refine .bind follows_maybe (fun group => ?_)
  refine .bind follows_maybe (fun origin => ?_)
  refine .bind follows_maybe (fun destination => ?_)
  refine .bind follows_id (fun epoch => ?_)
  refine .bind follows_id (fun claimed => ?_)
  refine .bind follows_maybe (fun routeGeneration => ?_)
  refine .bind follows_maybe (fun topologyGeneration => ?_)
  refine .bind follows_id (fun revision => ?_)
  refine .bind follows_i64 (fun observedAt => ?_)
  refine .bind follows_i64 (fun receivedAt => ?_)
  refine .bind follows_boolean (fun truncated => ?_)
  refine .bind (follows_enumeration evidenceCompleteness_exact) (fun completeness => ?_)
  refine .bind follows_digest (fun payloadDigest => ?_)
  refine .bind follows_text (fun note => ?_)
  refine follows_sequence follows_hop (fun hops => ?_)
  refine .lift (fun evidence hsealed => ?_)
  unfold sealedEvidence at hsealed
  simp only [bind_eq_ok, pure_eq_ok] at hsealed
  obtain ⟨_,-,_,-,rfl⟩ := hsealed
  rfl

theorem follows_comparison {limits : Limits} :
    Follows (walk comparisonLayout) (decodeComparison limits) encodeStoredComparison := by
  refine FollowsAfter.follows ?_
  refine .bind follows_readTag (fun _ => ?_)
  refine .bind follows_digestId (fun stored => ?_)
  refine .bind follows_readTag (fun _ => ?_)
  refine .bind follows_id (fun generation => ?_)
  refine .bind follows_id (fun topology => ?_)
  refine .bind follows_maybe (fun group => ?_)
  refine .bind follows_maybe (fun path => ?_)
  refine .bind follows_maybe (fun matchedPath => ?_)
  refine .bind (follows_enumeration matchOutcome_exact) (fun outcome => ?_)
  refine .bind follows_u8 (fun primary => ?_)
  refine follows_sequence follows_u8 (fun classes => ?_)
  refine .bind follows_u8 (fun freshness => ?_)
  refine .bind follows_u8 (fun completeness => ?_)
  refine .bind follows_u8 (fun consistency => ?_)
  refine .bind follows_u8 (fun surface => ?_)
  refine .bind follows_boolean (fun multipath => ?_)
  refine .bind follows_boolean (fun ambiguous => ?_)
  refine .bind follows_u32 (fun considered => ?_)
  refine .bind follows_u32 (fun rejected => ?_)
  refine follows_sequence follows_judgement (fun judgements => ?_)
  refine follows_sequence follows_difference (fun differences => ?_)
  refine .bind follows_i64 (fun evaluatedAt => ?_)
  refine .lift (fun comparison hsealed => ?_)
  unfold sealedComparison at hsealed
  simp only [bind_eq_ok, pure_eq_ok] at hsealed
  obtain ⟨_,-,rfl⟩ := hsealed
  unfold encodeStoredComparison StoredComparison.writeCanonical
  rw [List.nil_append]
  simp only [List.append_assoc]

theorem follows_finding {limits : Limits} :
    Follows (walk findingLayout) (decodeFinding limits) encodeFinding := by
  refine FollowsAfter.follows ?_
  refine .bind follows_readTag (fun _ => ?_)
  refine .bind follows_digestId (fun stored => ?_)
  refine .bind follows_u8 (fun cls => ?_)
  refine .bind follows_maybe (fun group => ?_)
  refine .bind follows_maybe (fun path => ?_)
  refine .bind follows_id (fun generation => ?_)
  refine .bind follows_id (fun topology => ?_)
  refine follows_sequence follows_digestId (fun evidence => ?_)
  refine follows_sequence follows_u32 (fun hopIndices => ?_)
  refine .bind (follows_enumeration findingStatus_exact) (fun status => ?_)
  refine .bind follows_u64 (fun occurrences => ?_)
  refine .bind follows_i64 (fun firstSeen => ?_)
  refine .bind follows_i64 (fun lastSeen => ?_)
  refine .bind follows_digestId (fun lastComparison => ?_)
  refine .bind follows_text (fun detail => ?_)
  refine .lift (fun finding hsealed => ?_)
  unfold sealedFinding at hsealed
  simp only [bind_eq_ok, pure_eq_ok] at hsealed
  obtain ⟨_,-,rfl⟩ := hsealed
  rfl

/-- A descriptor has no field of which bytes are dropped. -/
theorem wrote_sourceDescriptor {limits : Limits} :
    Wrote (decodeSourceDescriptor limits) encodeSource := by
  intro input source rest hrun
  unfold decodeSourceDescriptor at hrun
  simp only [run_bind_eq_ok, run_lift_eq_ok, run_pure_eq_ok] at hrun
  obtain ⟨_,_,htag,id,_,hid,name,_,hname,kind,_,hkind,surface,_,hsurface,authority,_,hauthority,
    expectedState,_,hexpected,observedEvidence,_,hobserved,topology,_,htopology,
    age,_,hage,skew,_,hskew,_,_,⟨-,rfl⟩,rfl,rfl⟩ := hrun
  obtain ⟨_,hparseKind,rfl⟩ := enumeration_eq_ok hkind
  obtain ⟨_,hparseSurface,rfl⟩ := enumeration_eq_ok hsurface
  obtain ⟨_,hparseAuthority,rfl⟩ := enumeration_eq_ok hauthority
  unfold encodeSource SourceDescriptor.fields
  dsimp only
  rw [(text_eq_ok (readTag_eq_ok htag).2).2.2, wrote_id _ _ _ hid, (text_eq_ok hname).2.2,
    sourceKind_exact _ _ hparseKind, proofSurface_exact _ _ hparseSurface,
    authorityClass_exact _ _ hparseAuthority, wrote_boolean _ _ _ hexpected,
    wrote_boolean _ _ _ hobserved, wrote_boolean _ _ _ htopology, wrote_i64 _ _ _ hage,
    wrote_i64 _ _ _ hskew]
  simp only [List.append_assoc]

/-- Of the payloads that decode to one record, one is tidy, and it is the encoding. -/
theorem tidy_of_follows {α : Type} {layout : List Skim} {reader : CanonicalReader α}
    {encode : α → ByteString} (h : Follows (walk layout) reader encode) {payload : ByteString}
    {value : α} (hdecoded : decodeExact reader payload = .ok value) :
    (encode value = payload ↔ Tidy layout payload) ∧
      ∃! other, decodeExact reader other = .ok value ∧ Tidy layout other := by
  have htidy : ∀ other, decodeExact reader other = .ok value →
      (encode value = other ↔ Tidy layout other) :=
    fun other hother => (h _ _ _ (decodeExact_eq_ok.mp hother)).1.eq_iff
  have hagain : decodeExact reader (encode value) = .ok value :=
    decodeExact_of_reads (h _ _ _ (decodeExact_eq_ok.mp hdecoded)).2
  refine ⟨htidy payload hdecoded,encode value,⟨hagain,(htidy _ hagain).mp rfl⟩,?_⟩
  rintro other ⟨hother,hshape⟩
  exact ((htidy other hother).mpr hshape).symm

/-- A source descriptor is decoded from its encoding only. A payload of one of the other
kinds is the encoding of what it decodes to exactly where it is tidy, and no two tidy
payloads decode to the same record. -/
theorem decoded_payload_is_encoding_iff (limits : Limits) :
    (∀ payload source, decodeExact (decodeSourceDescriptor limits) payload = .ok source →
      encodeSource source = payload ∧
        ∀ other, decodeExact (decodeSourceDescriptor limits) other = .ok source →
          other = payload) ∧
    (∀ payload evidence, decodeExact (decodeEvidence limits) payload = .ok evidence →
      (encodeEvidence evidence = payload ↔ Tidy evidenceLayout payload) ∧
        ∃! other, decodeExact (decodeEvidence limits) other = .ok evidence ∧
          Tidy evidenceLayout other) ∧
    (∀ payload comparison, decodeExact (decodeComparison limits) payload = .ok comparison →
      (encodeStoredComparison comparison = payload ↔ Tidy comparisonLayout payload) ∧
        ∃! other, decodeExact (decodeComparison limits) other = .ok comparison ∧
          Tidy comparisonLayout other) ∧
    ∀ payload finding, decodeExact (decodeFinding limits) payload = .ok finding →
      (encodeFinding finding = payload ↔ Tidy findingLayout payload) ∧
        ∃! other, decodeExact (decodeFinding limits) other = .ok finding ∧
          Tidy findingLayout other := by
  have hsource : ∀ payload source, decodeExact (decodeSourceDescriptor limits) payload =
      .ok source → encodeSource source = payload := by
    intro payload source hdecoded
    have hwrote := wrote_sourceDescriptor _ _ _ (decodeExact_eq_ok.mp hdecoded)
    rw [hwrote, List.append_nil]
  refine ⟨?_,fun _ _ => tidy_of_follows follows_evidence,
    fun _ _ => tidy_of_follows follows_comparison,fun _ _ => tidy_of_follows follows_finding⟩
  intro payload source hdecoded
  refine ⟨hsource payload source hdecoded,fun other hother => ?_⟩
  rw [← hsource payload source hdecoded, hsource other source hother]

section Samples

def sampleSource : SourceDescriptor where
  id := ⟨1⟩
  name := [0x61]
  kind := .simulator
  surface := .synthetic
  authority := .advisory
  capabilities := { observedEvidence := true }

/-- A finding that names no group and no path. -/
def sampleFinding : Finding :=
  { cls := 4, generation := ⟨1⟩, id := ({ cls := 4, generation := ⟨1⟩ } : Finding).computeFindingId }

/-- One byte of the absent group is set. -/
def alteredFinding : ByteString := (encodeFinding sampleFinding).set 48 7

theorem sample_payloads_decode :
    (∀ other, decodeExact (decodeSourceDescriptor {}) other = .ok sampleSource →
      other = encodeSource sampleSource) ∧
    encodeFinding sampleFinding ≠ alteredFinding ∧
      ∃! other, decodeExact (decodeFinding {}) other = .ok sampleFinding ∧
        Tidy findingLayout other := by
  obtain ⟨hsource,-,-,hfinding⟩ := decoded_payload_is_encoding_iff {}
  have haltered : decodeExact (decodeFinding {}) alteredFinding = .ok sampleFinding := by
    decide +kernel
  obtain ⟨htidy,hunique⟩ := hfinding alteredFinding sampleFinding haltered
  refine ⟨(hsource (encodeSource sampleSource) sampleSource (by decide +kernel)).2,?_,hunique⟩
  intro heq
  exact absurd (htidy.mp heq) (by decide +kernel)

/-- Two payloads decode to one finding; the one of them is not its encoding. -/
theorem altered_finding_passes :
    decodeExact (decodeFinding {}) alteredFinding = .ok sampleFinding ∧
      decodeExact (decodeFinding {}) (encodeFinding sampleFinding) = .ok sampleFinding ∧
      encodeFinding sampleFinding ≠ alteredFinding := by
  decide +kernel

end Samples

end Codec

end PathObservatory
