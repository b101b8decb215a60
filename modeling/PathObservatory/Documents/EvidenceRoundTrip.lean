import PathObservatory.Documents.EvidenceDocument

/-! # Evidence documents are read back -/
namespace PathObservatory

namespace Documents
variable {limits : Limits} {pretty : Bool}

section Hops
variable {hop : ObservedHop} {hops : List ObservedHop}

/-- A hop that names its device is read back, whatever hop stands before it. -/
theorem parseObservedHop_json (h : hop.device.valid = true) (previous : Option UInt32) :
    parseObservedHop previous (observedHopJson hop) = .ok hop := by
  have hindex (fallback : UInt64) :
      optionalU64 (observedHopJson hop) "index" fallback = .ok hop.index.toUInt64 :=
    optionalU64_of_find (by simp [observedHopJson])
  have hdevice : requireId (observedHopJson hop) "device" "hop device" = .ok hop.device :=
    requireId_of_find h (by simp [observedHopJson])
  have hingress : optionalU64 (observedHopJson hop) "ingress" 0 = .ok hop.ingress.value :=
    optionalU64_of_find_if (by simp [observedHopJson, StrongId.valid])
  have hegress : optionalU64 (observedHopJson hop) "egress" 0 = .ok hop.egress.value :=
    optionalU64_of_find_if (by simp [observedHopJson, StrongId.valid])
  have hlink : optionalU64 (observedHopJson hop) "link" 0 = .ok hop.link.value :=
    optionalU64_of_find_if (by simp [observedHopJson, StrongId.valid])
  have hprovenance : optionalText (observedHopJson hop) "link_provenance" (bytesOf "absent") =
      .ok (bytesOf hop.linkProvenance.toString) :=
    optionalText_of_find (by simp [observedHopJson])
  have htime : optionalTime (observedHopJson hop) "at" {} = .ok hop.atTime :=
    optionalTime_of_find_if (by simp [observedHopJson])
  simp only [parseObservedHop, bind_eq_ok, hindex, hdevice, hingress, hegress, hlink, hprovenance,
    htime, parseHopLinkProvenance_toString, Except.ok.injEq, exists_eq_left', pure_eq_ok,
    UInt32.toUInt32_toUInt64]

theorem parseObservedHops_json (h : ∀ hop ∈ hops, hop.device.valid = true)
    (previous : Option UInt32) :
    parseObservedHops previous (hops.map observedHopJson) = .ok hops := by
  induction hops generalizing previous with
  | nil => rfl
  | cons hop hops ih =>
    obtain ⟨hhop,hhops⟩ := List.forall_mem_cons.mp h
    rw [List.map_cons, parseObservedHops, parseObservedHop_json hhop]
    show parseObservedHops (some hop.index) (hops.map observedHopJson) >>= _ = _
    rw [ih hhops]
    rfl

theorem device_valid_of_validateHops {previous : Option UInt32}
    (h : ObservedPathEvidence.validateHops previous hops = .ok ()) :
    ∀ hop ∈ hops, hop.device.valid = true := by
  induction hops generalizing previous with
  | nil => exact List.forall_mem_nil _
  | cons hop hops ih =>
    rw [ObservedPathEvidence.validateHops] at h
    simp only [↓require_bind_eq_ok] at h
    exact List.forall_mem_cons.mpr ⟨h.1,ih h.2.2.2.2⟩

end Hops

section Records
variable {e : ObservedPathEvidence}

/-- What a reader requires of a record. -/
structure Readable (limits : Limits) (e : ObservedPathEvidence) : Prop where
  source : e.source.valid = true
  incarnation : e.incarnation.valid = true
  sequence : e.sequence.valid = true
  epoch : e.epoch.valid = true
  claimedIncarnation : e.claimedIncarnation.valid = true
  revision : e.revision.valid = true
  bound : e.hops.length ≤ limits.maxHopsPerPath
  devices : ∀ hop ∈ e.hops, hop.device.valid = true

theorem readable_of_validate (h : e.validate limits = .ok ()) : Readable limits e := by
  unfold ObservedPathEvidence.validate at h
  simp only [↓require_bind_eq_ok, bind_eq_ok] at h
  obtain ⟨hsource,hincarnation,hsequence,hepoch,hclaimed,hrevision,-,-,hbound,-,-,-,_,hhops,-⟩ := h
  exact ⟨hsource,hincarnation,hsequence,hepoch,hclaimed,hrevision,of_decide_eq_true hbound,
    device_valid_of_validateHops hhops⟩

theorem optionalDigest_of_find {object : JsonValue} {key : String} {digest : Digest}
    (h : object.find (bytesOf key) = some (.string digest.hex)) :
    optionalDigest object key = .ok digest := by
  have hempty : digest.hex.isEmpty = false := by
    rw [List.isEmpty_eq_false_iff]
    exact List.ne_nil_of_length_pos (by rw [digest.length_hex]; decide)
  rw [optionalDigest, optionalText_of_find h]
  show (if digest.hex.isEmpty then _ else Digest.parseHex digest.hex) = _
  rw [hempty, Digest.parseHex_hex]
  rfl

/-- Everything but the two times of a record is read back whatever they are. -/
theorem readEvidence_json_eq_ok (h : Readable limits e) {read : ObservedPathEvidence} :
    readEvidence (evidenceJson e) limits = .ok read ↔
      ∃ observedAt, TimePoint.parseRfc3339 e.observedAt.toRfc3339 = .ok observedAt ∧
      ∃ receivedAt, TimePoint.parseRfc3339 e.receivedAt.toRfc3339 = .ok receivedAt ∧
        { e with id := {}, observedAt, receivedAt } = read := by
  have hsource : requireId (evidenceJson e) "source" "source" = .ok e.source :=
    requireId_of_find h.source (by simp [evidenceJson])
  have hincarnation : requireId (evidenceJson e) "incarnation" "source incarnation" =
      .ok e.incarnation := requireId_of_find h.incarnation (by simp [evidenceJson])
  have hsequence : requireId (evidenceJson e) "sequence" "sequence" = .ok e.sequence :=
    requireId_of_find h.sequence (by simp [evidenceJson])
  have hsurface : requireText (evidenceJson e) "surface" = .ok (bytesOf e.surface.toString) :=
    requireText_of_find (by simp [evidenceJson])
  have hauthority : requireText (evidenceJson e) "authority" =
      .ok (bytesOf e.authority.toString) := requireText_of_find (by simp [evidenceJson])
  have hepoch : requireId (evidenceJson e) "epoch" "epoch" = .ok e.epoch :=
    requireId_of_find h.epoch (by simp [evidenceJson])
  have hclaimed : requireId (evidenceJson e) "claimed_incarnation" "claimed incarnation" =
      .ok e.claimedIncarnation := requireId_of_find h.claimedIncarnation (by simp [evidenceJson])
  have hrevision : requireId (evidenceJson e) "revision" "revision" = .ok e.revision :=
    requireId_of_find h.revision (by simp [evidenceJson])
  have hroutes : optionalId (evidenceJson e) "route_generation" = .ok e.routeGeneration :=
    optionalId_of_find (by simp [evidenceJson])
  have htopology : optionalId (evidenceJson e) "topology_generation" = .ok e.topologyGeneration :=
    optionalId_of_find (by simp [evidenceJson])
  have hpath : optionalId (evidenceJson e) "path" = .ok e.path :=
    optionalId_of_find (by simp [evidenceJson])
  have hgroup : optionalId (evidenceJson e) "group" = .ok e.group :=
    optionalId_of_find (by simp [evidenceJson])
  have horigin : optionalDevice (evidenceJson e) "origin" = .ok e.origin :=
    optionalId_of_find (by simp [evidenceJson])
  have hdestination : optionalDevice (evidenceJson e) "destination" = .ok e.destination :=
    optionalId_of_find (by simp [evidenceJson])
  have hobserved : optionalTime (evidenceJson e) "observed_at" {} =
      TimePoint.parseRfc3339 e.observedAt.toRfc3339 :=
    optionalTime_of_find (by simp [evidenceJson])
  have hreceived (fallback : TimePoint) : optionalTime (evidenceJson e) "received_at" fallback =
      TimePoint.parseRfc3339 e.receivedAt.toRfc3339 :=
    optionalTime_of_find (by simp [evidenceJson])
  have htruncated : optionalBoolean (evidenceJson e) "truncated" false = .ok e.sourceTruncated :=
    optionalBoolean_of_find (by simp [evidenceJson])
  have hcompleteness : optionalText (evidenceJson e) "completeness" (bytesOf "unknown") =
      .ok (bytesOf e.declaredCompleteness.toString) :=
    optionalText_of_find (by simp [evidenceJson])
  have hpayload : optionalDigest (evidenceJson e) "payload_digest" = .ok e.payloadDigest :=
    optionalDigest_of_find (by simp [evidenceJson])
  have hnote : optionalText (evidenceJson e) "note" [] = .ok e.note :=
    optionalText_of_find (by simp [evidenceJson])
  have hitems : optionalItems (evidenceJson e) "hops" limits.maxHopsPerPath
      "hops must be an array" "hop list exceeds the configured bound" =
        .ok (e.hops.map observedHopJson) :=
    (optionalItems_eq_ok (by simp [evidenceJson])).mpr
      ⟨by rw [List.length_map]; exact h.bound,rfl⟩
  have hhops := parseObservedHops_json h.devices none
  simp only [readEvidence, bind_eq_ok, hsource, hincarnation, hsequence, hsurface, hauthority,
    hepoch, hclaimed, hrevision, hroutes, htopology, hpath, hgroup, horigin, hdestination,
    hobserved, hreceived, htruncated, hcompleteness, hpayload, hnote, hitems, hhops,
    parseProofSurface_toString, parseAuthorityClass_toString, parseEvidenceCompleteness_toString,
    Except.ok.injEq, exists_eq_left', pure_eq_ok]

theorem built_observedHopJson (hop : ObservedHop) : (observedHopJson hop).Built := by
  have htext (text : String) : (JsonValue.string (bytesOf text)).Built :=
    .string (isValidUtf8_bytesOf text)
  refine built_setIf (built_set (built_setIf (built_setIf (built_setIf (built_set (built_set
    built_makeObject (.uint64 _) _) (.uint64 _) _) (.uint64 _) _ _) (.uint64 _) _ _)
    (.uint64 _) _ _) (htext _) _) (.string (isValidUtf8_toRfc3339 _)) _ _

/-- The document of a record is one that the writer can be given. -/
theorem built_evidenceJson (hnote : Json.isValidUtf8 e.note = true) : (evidenceJson e).Built := by
  have htext (text : String) : (JsonValue.string (bytesOf text)).Built :=
    .string (isValidUtf8_bytesOf text)
  have htime (point : TimePoint) : (JsonValue.string point.toRfc3339).Built :=
    .string (isValidUtf8_toRfc3339 point)
  have hhops : (makeArray (e.hops.map observedHopJson)).Built :=
    built_makeArray (List.forall_mem_map.mpr (fun hop _ => built_observedHopJson hop))
  unfold evidenceJson
  refine built_set ?_ hhops _
  refine built_set (built_set (built_set (built_set (built_set (built_set ?_ (htime _) _)
    (htime _) _) (.boolean _) _) (htext _) _) (.string e.payloadDigest.isValidUtf8_hex) _)
    (.string hnote) _
  refine built_setIf (built_setIf (built_setIf (built_setIf (built_setIf (built_setIf ?_
    (.uint64 _) _ _) (.uint64 _) _ _) (.uint64 _) _ _) (.uint64 _) _ _) (.uint64 _) _ _)
    (.uint64 _) _ _
  exact built_set (built_set (built_set (built_set (built_set (built_set (built_set (built_set
    (built_set (built_set built_makeObject (htext _) _) (htext _) _) (.uint64 _) _) (.uint64 _) _)
    (.uint64 _) _) (htext _) _) (htext _) _) (.uint64 _) _) (.uint64 _) _) (.uint64 _) _

/-- A sealed record that the checks accept, with a note that is a text and an
export within the bounds of the reader. -/
structure Exportable (limits : Limits) (pretty : Bool) (e : ObservedPathEvidence) : Prop where
  valid : e.validate limits = .ok ()
  is_sealed : e.id = e.computeEvidenceId
  note : Json.isValidUtf8 e.note = true
  within : (evidenceJson e).Within limits (evidenceToJson e pretty)

/-- Both times of a record are stated. -/
def Timed (e : ObservedPathEvidence) : Prop :=
  e.observedAt.isSet = true ∧ e.receivedAt.isSet = true

theorem parse_toRfc3339_eq_ok {point read : TimePoint} :
    TimePoint.parseRfc3339 point.toRfc3339 = .ok read ↔ point.isSet = true ∧ point = read := by
  by_cases hset : point.isSet = true
  · rw [TimePoint.parse_toRfc3339 hset, Except.ok.injEq]
    exact (and_iff_right hset).symm
  · rw [TimePoint.parse_unset (by simpa using hset)]
    simp [hset]

theorem seal_clearId (h : e.id = e.computeEvidenceId) :
    ({ e with id := {} } : ObservedPathEvidence).seal_ = e := by
  show { e with id := e.computeEvidenceId } = e
  rw [← h]

/-- The export of a record is read as that record when both times are stated,
and refused otherwise. -/
theorem parseEvidence_eq_ok (h : Exportable limits pretty e) {read : ObservedPathEvidence} :
    parseEvidence (evidenceToJson e pretty) limits = .ok read ↔ Timed e ∧ e = read := by
  have hparse := JsonValue.parse_dump _ pretty limits (built_evidenceJson h.note) h.within
  have hkind : checkKind (evidenceJson e) kEvidenceKindTag = .ok () :=
    checkKind_of_find (by simp [evidenceJson])
  have hvalid := ObservedPathEvidence.validate_clearId h.valid
  have hseal := seal_clearId h.is_sealed
  have hread := @readEvidence_json_eq_ok limits e (readable_of_validate h.valid)
  simp only [parseEvidence, evidenceToJson, hparse, bind_eq_ok, hkind, Except.ok.injEq,
    exists_eq_left', hread, parse_toRfc3339_eq_ok, pure_eq_ok]
  constructor
  · rintro ⟨_,-,_,⟨_,⟨hobserved,rfl⟩,_,⟨hreceived,rfl⟩,rfl⟩,_,-,rfl⟩
    exact ⟨⟨hobserved,hreceived⟩,hseal.symm⟩
  · rintro ⟨⟨hobserved,hreceived⟩,rfl⟩
    exact ⟨(),trivial,_,⟨_,⟨hobserved,rfl⟩,_,⟨hreceived,rfl⟩,rfl⟩,(),hvalid,hseal⟩

end Records

end Documents

end PathObservatory
