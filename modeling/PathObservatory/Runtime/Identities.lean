import PathObservatory.Library.PrefixCode
import PathObservatory.Store.RecordRoundTrip

/-! # Unambiguous identities

The canonical encoding of evidence determines every field but the identity and the receive
time, and what follows it. The byte strings that are hashed for identities begin with the
tag of their kind.
-/
namespace PathObservatory
open ByteReader CanonicalReader

/-! ## What the writer primitives write is told apart -/

theorem prefixCode_boolean : PrefixCodeOn CanonicalWriter.boolean Set.univ :=
  Reads.prefixCodeOn (fun value _ => reads_boolean value)

theorem prefixCode_id {tag : IdTag} :
    PrefixCodeOn (CanonicalWriter.id : StrongId tag → ByteString) Set.univ :=
  Reads.prefixCodeOn (fun value _ => reads_id value)

theorem prefixCode_i64 : PrefixCodeOn CanonicalWriter.i64 Set.univ :=
  Reads.prefixCodeOn (fun value _ => reads_i64 value)

theorem prefixCode_digest : PrefixCodeOn CanonicalWriter.digest Set.univ :=
  Reads.prefixCodeOn (fun value _ => reads_digest value)

/-- A length that does not fit its field wraps around, and the text is told apart no more. -/
theorem prefixCode_text : PrefixCodeOn CanonicalWriter.text {value | value.length < 2 ^ 32} :=
  Reads.prefixCodeOn (fun value hvalue =>
    (reads_text value (Nat.le_of_lt hvalue) hvalue : Reads (text (2 ^ 32)) _ _))

theorem prefixCode_count : PrefixCodeOn CanonicalWriter.count {value | value < 2 ^ 32} :=
  Reads.prefixCodeOn (fun _ hvalue =>
    (reads_count (Nat.le_of_lt hvalue) hvalue : Reads (count (2 ^ 32)) _ _))

theorem prefixCode_hop : PrefixCodeOn ObservedPathEvidence.hopBytes Set.univ :=
  Reads.prefixCodeOn (fun hop _ => Codec.reads_decodeHop hop)

/-- An enumerator is told apart by its underlying value. -/
theorem prefixCode_code {α : Type} {parse : UInt8 → Option α} {code : α → UInt8}
    (h : ∀ value, parse (code value) = some value) :
    PrefixCodeOn (fun value => CanonicalWriter.u8 (code value)) Set.univ :=
  Reads.prefixCodeOn (fun value _ =>
    (Codec.reads_enumeration (h value) : Reads (Codec.enumeration parse "") _ _))

namespace ObservedPathEvidence

/-- The note and the hops have a length of 32 bits. -/
structure Short (e : ObservedPathEvidence) : Prop where
  note : e.note.length < 2 ^ 32
  hops : e.hops.length < 2 ^ 32

/-- Every field but the identity and the receive time. -/
def Agree (a b : ObservedPathEvidence) : Prop :=
  a = { b with id := a.id, receivedAt := a.receivedAt }

theorem Agree.writeCanonical {a b : ObservedPathEvidence} (h : a.Agree b) :
    a.writeCanonical = b.writeCanonical := by
  unfold Agree at h
  rw [h]
  rfl

/-- Field by field, in the order of the encoding. -/
theorem agree_of_writeCanonical {a b : ObservedPathEvidence} (ha : a.Short) (hb : b.Short)
    {s t : ByteString} (h : a.writeCanonical ++ s = b.writeCanonical ++ t) : a.Agree b ∧ s = t := by
  unfold ObservedPathEvidence.writeCanonical at h
  simp only [List.append_assoc] at h
  rw [List.append_cancel_left_eq] at h
  obtain ⟨hsource,h⟩ := prefixCode_id _ trivial _ trivial _ _ h
  obtain ⟨hincarnation,h⟩ := prefixCode_id _ trivial _ trivial _ _ h
  obtain ⟨hsequence,h⟩ := prefixCode_id _ trivial _ trivial _ _ h
  obtain ⟨hsurface,h⟩ := prefixCode_code Codec.proofSurface_toUInt8 _ trivial _ trivial _ _ h
  obtain ⟨hauthority,h⟩ := prefixCode_code Codec.authorityClass_toUInt8 _ trivial _ trivial _ _ h
  obtain ⟨-,h⟩ := prefixCode_boolean _ trivial _ trivial _ _ h
  obtain ⟨hpath,h⟩ := prefixCode_id _ trivial _ trivial _ _ h
  obtain ⟨-,h⟩ := prefixCode_boolean _ trivial _ trivial _ _ h
  obtain ⟨hgroup,h⟩ := prefixCode_id _ trivial _ trivial _ _ h
  obtain ⟨-,h⟩ := prefixCode_boolean _ trivial _ trivial _ _ h
  obtain ⟨horigin,h⟩ := prefixCode_id _ trivial _ trivial _ _ h
  obtain ⟨-,h⟩ := prefixCode_boolean _ trivial _ trivial _ _ h
  obtain ⟨hdestination,h⟩ := prefixCode_id _ trivial _ trivial _ _ h
  obtain ⟨hepoch,h⟩ := prefixCode_id _ trivial _ trivial _ _ h
  obtain ⟨hclaimed,h⟩ := prefixCode_id _ trivial _ trivial _ _ h
  obtain ⟨-,h⟩ := prefixCode_boolean _ trivial _ trivial _ _ h
  obtain ⟨hroutes,h⟩ := prefixCode_id _ trivial _ trivial _ _ h
  obtain ⟨-,h⟩ := prefixCode_boolean _ trivial _ trivial _ _ h
  obtain ⟨htopology,h⟩ := prefixCode_id _ trivial _ trivial _ _ h
  obtain ⟨hrevision,h⟩ := prefixCode_id _ trivial _ trivial _ _ h
  obtain ⟨hobserved,h⟩ := prefixCode_i64 _ trivial _ trivial _ _ h
  obtain ⟨htruncated,h⟩ := prefixCode_boolean _ trivial _ trivial _ _ h
  obtain ⟨hcompleteness,h⟩ := prefixCode_code Codec.evidenceCompleteness_toUInt8 _ trivial _ trivial _ _ h
  obtain ⟨hpayload,h⟩ := prefixCode_digest _ trivial _ trivial _ _ h
  obtain ⟨hnote,h⟩ := prefixCode_text _ ha.note _ hb.note _ _ h
  rw [← List.append_assoc, ← List.append_assoc (CanonicalWriter.count _)] at h
  obtain ⟨hhops,hrest⟩ := prefixCode_count.counted prefixCode_hop _ ⟨ha.hops,fun _ _ => trivial⟩ _
    ⟨hb.hops,fun _ _ => trivial⟩ _ _ h
  refine ⟨?_,hrest⟩
  have hobservedAt : a.observedAt = b.observedAt := congrArg TimePoint.mk hobserved
  have hpathId : a.path = b.path := congrArg MaybeId.mk hpath
  have hgroupId : a.group = b.group := congrArg MaybeId.mk hgroup
  have horiginId : a.origin = b.origin := congrArg MaybeId.mk horigin
  have hdestinationId : a.destination = b.destination := congrArg MaybeId.mk hdestination
  have hroutesId : a.routeGeneration = b.routeGeneration := congrArg MaybeId.mk hroutes
  have htopologyId : a.topologyGeneration = b.topologyGeneration := congrArg MaybeId.mk htopology
  unfold Agree
  rw [← hsource, ← hincarnation, ← hsequence, ← hsurface, ← hauthority, ← hpathId, ← hgroupId,
    ← horiginId, ← hdestinationId, ← hepoch, ← hclaimed, ← hroutesId, ← htopologyId, ← hrevision,
    ← hobservedAt, ← htruncated, ← hcompleteness, ← hpayload, ← hnote, ← hhops]

end ObservedPathEvidence

/-! ## What is hashed for an identity -/

def traceHopBytes (hop : ObservedHop) : ByteString :=
  CanonicalWriter.u32 hop.index ++
  CanonicalWriter.id hop.device ++
  CanonicalWriter.id hop.ingress ++
  CanonicalWriter.id hop.egress ++
  CanonicalWriter.id hop.link ++
  CanonicalWriter.u8 hop.linkProvenance.toUInt8

def traceBytes (hops : List ObservedHop) : ByteString :=
  CanonicalWriter.text (bytesOf "pathobs.trace") ++
  CanonicalWriter.count hops.length ++
  hops.flatMap traceHopBytes

/-- The trace of an evidence record, without the times of its hops. -/
def traceDigest (hops : List ObservedHop) : Digest := Digest.ofBytes (traceBytes hops)

def Finding.identityBytes (f : Finding) : ByteString :=
  CanonicalWriter.text (bytesOf "pathobs.finding") ++
  CanonicalWriter.u8 f.cls ++
  CanonicalWriter.boolean f.group.present ++
  CanonicalWriter.id f.group.value ++
  CanonicalWriter.boolean f.path.present ++
  CanonicalWriter.id f.path.value ++
  CanonicalWriter.id f.generation ++
  CanonicalWriter.id f.topology ++
  CanonicalWriter.count f.sortedEvidence.length ++
  f.sortedEvidence.flatMap CanonicalWriter.digestId ++
  CanonicalWriter.count f.sortedHops.length ++
  f.sortedHops.flatMap CanonicalWriter.u32

def SourceDescriptor.canonicalBytes (d : SourceDescriptor) : ByteString :=
  CanonicalWriter.text (bytesOf "pathobs.source") ++ d.fields

def ExpectedPath.canonicalBytes (path : ExpectedPath) : ByteString :=
  CanonicalWriter.text (bytesOf "pathobs.expected_path") ++
  CanonicalWriter.id path.id ++
  CanonicalWriter.id path.group ++
  CanonicalWriter.id path.generation ++
  CanonicalWriter.count path.hops.length ++
  path.hops.flatMap ExpectedPath.hopBytes

def RouteGeneration.canonicalBytes (g : RouteGeneration) : ByteString :=
  CanonicalWriter.text (bytesOf "pathobs.route_generation") ++
  CanonicalWriter.id g.id ++
  CanonicalWriter.id g.epoch ++
  CanonicalWriter.id g.incarnation ++
  CanonicalWriter.id g.revision ++
  CanonicalWriter.id g.sequence ++
  CanonicalWriter.id g.source ++
  CanonicalWriter.id g.topology ++
  CanonicalWriter.i64 g.created.unixNanos ++
  CanonicalWriter.count g.groups.length ++
  g.groups.flatMap RouteGeneration.groupBytes ++
  CanonicalWriter.count g.paths.length ++
  g.paths.flatMap (fun path => CanonicalWriter.digest path.canonicalDigest)

def TopologyGeneration.canonicalBytes (g : TopologyGeneration) : ByteString :=
  CanonicalWriter.text (bytesOf "pathobs.topology_generation") ++
  CanonicalWriter.id g.id ++
  CanonicalWriter.id g.epoch ++
  CanonicalWriter.id g.incarnation ++
  CanonicalWriter.id g.revision ++
  CanonicalWriter.id g.sequence ++
  CanonicalWriter.id g.source ++
  CanonicalWriter.i64 g.created.unixNanos ++
  CanonicalWriter.count g.devices.length ++
  g.devices.flatMap TopologyGeneration.deviceBytes ++
  CanonicalWriter.count g.ports.length ++
  g.ports.flatMap TopologyGeneration.portBytes ++
  CanonicalWriter.count g.links.length ++
  g.links.flatMap TopologyGeneration.linkBytes

inductive IdentityKind
  | evidence
  | comparison
  | finding
  | trace
  | source
  | expectedPath
  | routeGeneration
  | topologyGeneration
deriving DecidableEq, Repr

def IdentityKind.tag : IdentityKind → String
  | .evidence => "pathobs.evidence"
  | .comparison => "pathobs.comparison"
  | .finding => "pathobs.finding"
  | .trace => "pathobs.trace"
  | .source => "pathobs.source"
  | .expectedPath => "pathobs.expected_path"
  | .routeGeneration => "pathobs.route_generation"
  | .topologyGeneration => "pathobs.topology_generation"

/-- No two tags have the same length. -/
theorem IdentityKind.length_tag (kind : IdentityKind) : (bytesOf kind.tag).length =
    match kind with
    | .evidence => 16
    | .comparison => 18
    | .finding => 15
    | .trace => 13
    | .source => 14
    | .expectedPath => 21
    | .routeGeneration => 24
    | .topologyGeneration => 27 := by
  cases kind <;> decide +kernel

theorem IdentityKind.tag_injective {a b : IdentityKind} (h : bytesOf a.tag = bytesOf b.tag) :
    a = b := by
  have hlength := congrArg List.length h
  rw [length_tag, length_tag] at hlength
  cases a <;> cases b <;> first | rfl | cases hlength

theorem IdentityKind.tag_short (kind : IdentityKind) : (bytesOf kind.tag).length < 2 ^ 32 := by
  rw [length_tag]
  cases kind <;> decide

/-- An object that is identified by its content. A comparison is hashed as the engine made
it and as it is read back. -/
inductive Identified
  | evidence (e : ObservedPathEvidence)
  | comparison (r : ComparisonResult)
  | storedComparison (c : StoredComparison)
  | finding (f : Finding)
  | trace (hops : List ObservedHop)
  | source (d : SourceDescriptor)
  | expectedPath (path : ExpectedPath)
  | routeGeneration (g : RouteGeneration)
  | topologyGeneration (g : TopologyGeneration)

namespace Identified

def kind : Identified → IdentityKind
  | .evidence _ => .evidence
  | .comparison _ => .comparison
  | .storedComparison _ => .comparison
  | .finding _ => .finding
  | .trace _ => .trace
  | .source _ => .source
  | .expectedPath _ => .expectedPath
  | .routeGeneration _ => .routeGeneration
  | .topologyGeneration _ => .topologyGeneration

def hashed : Identified → ByteString
  | .evidence e => e.writeCanonical
  | .comparison r => r.writeCanonical
  | .storedComparison c => c.writeCanonical
  | .finding f => f.identityBytes
  | .trace hops => traceBytes hops
  | .source d => d.canonicalBytes
  | .expectedPath path => path.canonicalBytes
  | .routeGeneration g => g.canonicalBytes
  | .topologyGeneration g => g.canonicalBytes

/-- The digest the object is identified by. -/
def digest : Identified → Digest
  | .evidence e => e.canonicalDigest
  | .comparison r => r.canonicalDigest
  | .storedComparison c => Digest.ofBytes c.writeCanonical
  | .finding f => f.identityDigest
  | .trace hops => traceDigest hops
  | .source d => d.canonicalDigest
  | .expectedPath path => path.canonicalDigest
  | .routeGeneration g => g.canonicalDigest
  | .topologyGeneration g => g.canonicalDigest

theorem digest_eq (object : Identified) : object.digest = Digest.ofBytes object.hashed := by
  cases object <;> rfl

/-- What is hashed begins with the tag of the kind. -/
theorem hashed_eq (object : Identified) :
    ∃ body, object.hashed = CanonicalWriter.text (bytesOf object.kind.tag) ++ body := by
  cases object with
  | evidence e =>
    unfold hashed ObservedPathEvidence.writeCanonical
    simp only [List.append_assoc]
    exact ⟨_,rfl⟩
  | comparison r =>
    unfold hashed ComparisonResult.writeCanonical
    simp only [List.append_assoc]
    exact ⟨_,rfl⟩
  | storedComparison c =>
    unfold hashed StoredComparison.writeCanonical
    simp only [List.append_assoc]
    exact ⟨_,rfl⟩
  | finding f =>
    unfold hashed Finding.identityBytes
    simp only [List.append_assoc]
    exact ⟨_,rfl⟩
  | trace hops =>
    unfold hashed traceBytes
    simp only [List.append_assoc]
    exact ⟨_,rfl⟩
  | source d => exact ⟨_,rfl⟩
  | expectedPath path =>
    unfold hashed ExpectedPath.canonicalBytes
    simp only [List.append_assoc]
    exact ⟨_,rfl⟩
  | routeGeneration g =>
    unfold hashed RouteGeneration.canonicalBytes
    simp only [List.append_assoc]
    exact ⟨_,rfl⟩
  | topologyGeneration g =>
    unfold hashed TopologyGeneration.canonicalBytes
    simp only [List.append_assoc]
    exact ⟨_,rfl⟩

/-- Objects of two kinds are told apart by what is hashed for them, whatever follows it. -/
theorem kind_eq {x y : Identified} {s t : ByteString} (h : x.hashed ++ s = y.hashed ++ t) :
    x.kind = y.kind := by
  obtain ⟨xbody,hx⟩ := x.hashed_eq
  obtain ⟨ybody,hy⟩ := y.hashed_eq
  rw [hx, hy, List.append_assoc, List.append_assoc] at h
  obtain ⟨htag,-⟩ := prefixCode_text _ x.kind.tag_short _ y.kind.tag_short _ _ h
  exact IdentityKind.tag_injective htag

end Identified

/-- Evidence is told apart by its canonical encoding, of which none is the beginning of
another, and the strings hashed for two kinds of identities never coincide. -/
theorem canonical_encodings_unambiguous :
    (∀ a b : ObservedPathEvidence, a.Short → b.Short →
      (a.writeCanonical = b.writeCanonical ↔ a.Agree b) ∧
        (a.writeCanonical <+: b.writeCanonical → a.writeCanonical = b.writeCanonical)) ∧
    (∀ object : Identified, object.digest = Digest.ofBytes object.hashed) ∧
    ∀ x y : Identified, x.hashed = y.hashed → x.kind = y.kind := by
  refine ⟨fun a b ha hb => ⟨⟨?_,?_⟩,?_⟩,Identified.digest_eq,?_⟩
  · intro heq
    exact (ObservedPathEvidence.agree_of_writeCanonical ha hb (congrArg (· ++ []) heq)).1
  · exact ObservedPathEvidence.Agree.writeCanonical
  · rintro ⟨rest,hrest⟩
    rw [← List.append_nil b.writeCanonical] at hrest
    exact (ObservedPathEvidence.agree_of_writeCanonical ha hb hrest).1.writeCanonical
  · intro x y heq
    exact Identified.kind_eq (congrArg (· ++ []) heq)

/-- A later receive time is not told apart, a note is, and no finding is hashed as a trace. -/
theorem canonical_encodings_apart :
    ({ receivedAt := ⟨5⟩ } : ObservedPathEvidence).writeCanonical =
        ({} : ObservedPathEvidence).writeCanonical ∧
      ¬ ({ note := [0x61] } : ObservedPathEvidence).writeCanonical <+:
        ({} : ObservedPathEvidence).writeCanonical ∧
      (Identified.finding {}).hashed ≠ (Identified.trace []).hashed := by
  obtain ⟨hevidence,-,hkinds⟩ := canonical_encodings_unambiguous
  refine ⟨?_,?_,?_⟩
  · exact (hevidence _ {} ⟨by decide,by decide⟩ ⟨by decide,by decide⟩).1.mpr rfl
  · intro hprefix
    obtain ⟨hsame,hlonger⟩ := hevidence { note := [0x61] } {} ⟨by decide,by decide⟩
      ⟨by decide,by decide⟩
    have hnote := congrArg ObservedPathEvidence.note (hsame.mp (hlonger hprefix))
    cases hnote
  · intro heq
    cases hkinds _ _ heq

end PathObservatory
