import PathObservatory.Library.Filing
import PathObservatory.Runtime.Refusals

/-! # What the buckets hold

Only an offer of evidence and a restore put records into buckets. Either way a
record goes to the end of the bucket of its subject, below the bound, and never
beside a record with its identity.
-/
namespace PathObservatory

theorem decodeExact_of_decodeStored {α : Type} {reader : CanonicalReader α}
    {record : StoredRecord} {value : α}
    (h : ObservatoryRuntime.decodeStored reader record = .ok value) :
    Codec.decodeExact reader record.payload = .ok value := by
  unfold ObservatoryRuntime.decodeStored at h
  split at h
  · rename_i found hfound
    rw [hfound, Except.ok.inj h]
  · cases h

namespace ObservatoryRuntime
variable {r s : ObservatoryRuntime}

/-- What was observed is the same. -/
structure SameObserved (r s : ObservatoryRuntime) : Prop where
  ledger : s.ledger = r.ledger
  sourceHasGap : s.sourceHasGap = r.sourceHasGap
  evidence : s.evidence = r.evidence

theorem SameObserved.refl (r : ObservatoryRuntime) : r.SameObserved r := ⟨rfl,rfl,rfl⟩

theorem SameSubject.sameObserved (h : SameSubject r s) : r.SameObserved s := by
  obtain ⟨_,_,_,_,_,rfl⟩ := h
  exact ⟨rfl,rfl,rfl⟩

/-- A request that offers no evidence observes nothing. -/
theorem perform_sameObserved (r : ObservatoryRuntime) {call : Call}
    (h : ∀ e, call ≠ .ingestEvidence e) : r.SameObserved (r.perform call) := by
  cases call with
  | registerSource descriptor =>
    obtain ⟨sources,store,hframe⟩ := r.registerSource_frame descriptor
    rw [perform, hframe]
    exact ⟨rfl,rfl,rfl⟩
  | publishTopology g =>
    rcases r.publishTopology_frame g with hsame | ⟨admitted,index,store,-,-,-,hframe⟩
    · rw [perform, hsame]
      exact .refl r
    · rw [perform, hframe]
      exact ⟨rfl,rfl,rfl⟩
  | publishRoutes g =>
    rcases r.publishRoutes_frame g with hsame | ⟨admitted,store,-,-,hframe⟩
    · rw [perform, hsame]
      exact .refl r
    · rw [perform, hframe]
      exact ⟨rfl,rfl,rfl⟩
  | ingestEvidence e => exact absurd rfl (h e)
  | compareGroup group => exact (r.compareGroup_sameSubject group).sameObserved
  | comparePath path => exact (r.comparePath_sameSubject path).sameObserved
  | compareAll => exact (r.compareKeys_sameSubject _).sameObserved
  | acknowledgeFinding id => exact (r.acknowledgeFinding_sameSubject id).sameObserved
  | pruneHistory => exact r.pruneHistory_sameSubject.sameObserved
  | flush => exact r.flush_sameSubject.sameObserved
  | stop => exact r.stop_sameSubject.sameObserved

theorem bucket_congr (h : s.evidence = r.evidence) : s.bucket = r.bucket := by
  funext key
  rw [bucket, bucket, h]

theorem bucket_setBucket (r : ObservatoryRuntime) (key other : SubjectKey)
    (records : List ObservedPathEvidence) :
    (r.setBucket key records).bucket other = if key = other then records else r.bucket other := by
  unfold setBucket bucket
  rw [OrderedMap.getElem?_insert]
  split_ifs <;> rfl

theorem bucket_setBucket_self (r : ObservatoryRuntime) (key : SubjectKey) :
    (r.setBucket key (r.bucket key)).bucket = r.bucket := by
  funext other
  rw [bucket_setBucket]
  split_ifs with h
  · rw [h]
  · rfl

theorem bucket_setBucket_put (r : ObservatoryRuntime) (key : SubjectKey)
    (e : ObservedPathEvidence) :
    (r.setBucket key (r.bucket key ++ [e])).bucket = Filing.put r.bucket key e := by
  funext other
  rw [bucket_setBucket, Filing.put]
  split_ifs with h
  · rw [h]
  · rfl

/-- The bucket is below the bound and holds no record with this identity. -/
abbrev Takes (r : ObservatoryRuntime) (key : SubjectKey) (e : ObservedPathEvidence) : Prop :=
  Filing.Takes r.config.limits.maxEvidencePerComparison ObservedPathEvidence.id r.bucket key e

/-- The bucket of the record's subject takes it. -/
structure Places (r : ObservatoryRuntime) (key : SubjectKey) (e : ObservedPathEvidence) :
    Prop where
  subject : r.resolveSubject e = .ok key
  takes : r.Takes key e

theorem takes_iff {key : SubjectKey} {e : ObservedPathEvidence} : r.Takes key e ↔
    (r.bucket key).length < r.config.limits.maxEvidencePerComparison ∧
      (r.bucket key).any (·.id = e.id) = false := by
  simp [Takes, Filing.Takes]

/-- Writing a record looks at nothing but the store. -/
theorem persistRecord_congr (h : s.store = r.store) (type : RecordType) (payload : ByteString) :
    (s.persistRecord type payload).1 = (r.persistRecord type payload).1 ∧
      (s.persistRecord type payload).2.store = (r.persistRecord type payload).2.store := by
  unfold persistRecord
  rw [h]
  cases hstore : r.store with
  | none => exact ⟨rfl,h⟩
  | some store => exact ⟨rfl,rfl⟩

/-- Nothing is kept, and the store is left as it is or refuses the record. -/
structure KeepsNothing (r s : ObservatoryRuntime) (e : ObservedPathEvidence) : Prop where
  bucket : s.bucket = r.bucket
  store : s.store = r.store ∨
    (∃ error, (r.persistRecord .evidence (Codec.encodeEvidence e)).1 = .error error) ∧
      s.store = (r.persistRecord .evidence (Codec.encodeEvidence e)).2.store

/-- The record is written and goes to the end of the bucket. -/
structure KeepsRecord (r s : ObservatoryRuntime) (key : SubjectKey) (e : ObservedPathEvidence) :
    Prop where
  places : r.Places key e
  bucket : s.bucket = Filing.put r.bucket key e
  written : (r.persistRecord .evidence (Codec.encodeEvidence e)).1 = .ok ()
  store : s.store = (r.persistRecord .evidence (Codec.encodeEvidence e)).2.store

theorem keepEvidence_keeps (r : ObservatoryRuntime) (result : IngestResult)
    (e : ObservedPathEvidence) : r.KeepsNothing (r.keepEvidence result e).2 e ∨
      ∃ key, r.KeepsRecord (r.keepEvidence result e).2 key e := by
  rcases r.keepEvidence_cases result e with ⟨error,-,hkept⟩ | ⟨key,hkey,hkept⟩
  · rw [hkept]
    exact Or.inl ⟨rfl,Or.inl rfl⟩
  · have hstore : (r.setBucket key (r.bucket key)).store = r.store := rfl
    obtain ⟨hstatus,hwritten⟩ := persistRecord_congr hstore .evidence (Codec.encodeEvidence e)
    obtain ⟨store,hframe⟩ := (r.setBucket key (r.bucket key)).persistRecord_frame .evidence
      (Codec.encodeEvidence e)
    rcases hkept with ⟨-,hkept⟩ | ⟨-,-,hkept⟩ | ⟨-,-,error,s,hpersist,hkept⟩ |
      ⟨hroom,hnew,s,hpersist,hkept⟩
    · rw [hkept]
      exact Or.inl ⟨r.bucket_setBucket_self key,Or.inl rfl⟩
    · rw [hkept]
      exact Or.inl ⟨r.bucket_setBucket_self key,Or.inl rfl⟩
    · rw [hpersist] at hstatus hwritten hframe
      obtain rfl : s = { r.setBucket key (r.bucket key) with store := store } := hframe
      rw [hkept]
      exact Or.inl ⟨r.bucket_setBucket_self key,Or.inr ⟨⟨error,hstatus.symm⟩,hwritten⟩⟩
    · rw [hpersist] at hstatus hwritten hframe
      obtain rfl : s = { r.setBucket key (r.bucket key) with store := store } := hframe
      rw [hkept]
      refine Or.inr ⟨key,⟨hkey,takes_iff.mpr ⟨hroom,hnew⟩⟩,?_,hstatus.symm,hwritten⟩
      funext other
      have hinner := congrFun (r.bucket_setBucket_self key) other
      rw [bucket_setBucket, Filing.put]
      split_ifs with h
      · rw [h]
      · exact hinner

/-- An offered record is kept under its seal, or nothing is. -/
theorem ingestEvidence_keeps (r : ObservatoryRuntime) (e : ObservedPathEvidence) :
    r.KeepsNothing (r.ingestEvidence e).2 e.seal_ ∨
      r.screenEvidence e = .ok () ∧ ∃ key, r.KeepsRecord (r.ingestEvidence e).2 key e.seal_ := by
  rcases r.ingestEvidence_cases e with ⟨refused,-,hresult⟩ | ⟨-,-,-,hresult⟩ |
    ⟨hscreened,-,-,result,-,-,hresult⟩
  · rw [hresult]
    exact Or.inl ⟨rfl,Or.inl rfl⟩
  · rw [hresult]
    exact Or.inl ⟨rfl,Or.inl rfl⟩
  · obtain ⟨gaps,hframe⟩ := r.noteSequence_frame e
    rw [hresult]
    have hkeeps := (r.noteSequence e).keepEvidence_keeps result e.seal_
    rw [hframe] at hkeeps ⊢
    have hstore : (r.noteSequence e).store = r.store := by rw [hframe]
    rw [hframe] at hstore
    obtain ⟨hstatus,hwritten⟩ := persistRecord_congr hstore .evidence
      (Codec.encodeEvidence e.seal_)
    rcases hkeeps with hnothing | ⟨key,hrecord⟩
    · refine Or.inl ⟨hnothing.bucket,hnothing.store.imp id (fun h => ?_)⟩
      rwa [hstatus, hwritten] at h
    · refine Or.inr ⟨hscreened,key,⟨hrecord.places.subject,hrecord.places.takes⟩,hrecord.bucket,
        hstatus.symm.trans hrecord.written,hrecord.store.trans hwritten⟩

/-- The subject of a record, if it can be resolved. -/
def subjectOf (r : ObservatoryRuntime) (e : ObservedPathEvidence) : Option SubjectKey :=
  (r.resolveSubject e).toOption

/-- A restore files a record as any other. -/
theorem restoreEvidence_bucket (r : ObservatoryRuntime) (e : ObservedPathEvidence) :
    (r.restoreEvidence e).bucket = Filing.offer r.config.limits.maxEvidencePerComparison
      ObservedPathEvidence.id r.subjectOf r.bucket e := by
  unfold restoreEvidence
  cases hkey : r.resolveSubject e with
  | error error =>
    simp only [Filing.offer, subjectOf, hkey, Except.toOption]
  | ok key =>
    have hsubject : r.subjectOf e = some key := toOption_eq_some_iff.mpr hkey
    by_cases htakes : r.Takes key e
    · obtain ⟨hroom,hnew⟩ := takes_iff.mp htakes
      rw [Filing.offer_of_takes hsubject htakes, ← bucket_setBucket_put]
      simp only [not_le.mpr hroom, hnew, Bool.false_eq_true, or_self, if_false]
    · have hsettled : Filing.Settled r.config.limits.maxEvidencePerComparison
          ObservedPathEvidence.id r.subjectOf r.bucket e := by
        intro other hother
        obtain rfl := Option.some.inj (hsubject.symm.trans hother)
        exact htakes
      have hrefused : r.config.limits.maxEvidencePerComparison ≤ (r.bucket key).length ∨
          (r.bucket key).any (·.id = e.id) = true := by
        rw [takes_iff, not_and_or, not_lt, Bool.not_eq_false] at htakes
        exact htakes
      rw [Filing.offer_of_settled hsettled]
      exact (congrArg bucket (if_pos hrefused)).trans (r.bucket_setBucket_self key)

/-- No bucket holds two records with one identity. -/
def DistinctEvidence (r : ObservatoryRuntime) : Prop :=
  ∀ key, ((r.bucket key).map (·.id)).Nodup

theorem DistinctEvidence.put (h : r.DistinctEvidence) {key : SubjectKey}
    {e : ObservedPathEvidence} (htakes : r.Takes key e) (other : SubjectKey) :
    ((Filing.put r.bucket key e other).map (·.id)).Nodup := by
  unfold Filing.put
  split_ifs with heq
  · subst heq
    rw [List.map_append, List.nodup_append]
    refine ⟨h key,List.nodup_singleton _,?_⟩
    intro id hid other hother
    obtain ⟨kept,hkept,rfl⟩ := List.mem_map.mp hid
    obtain rfl : other = e.id := List.mem_singleton.mp hother
    exact htakes.2 kept hkept
  · exact h other

/-- Of all records only those of evidence touch the buckets. -/
theorem restoreRecord_evidence {record : StoredRecord} (h : r.restoreRecord record = .ok s) :
    (record.type ≠ .evidence ∧ s.evidence = r.evidence) ∨
      (record.type = .evidence ∧ ∃ e,
        decodeStored (Codec.decodeEvidence r.config.limits) record = .ok e ∧
        s = r.restoreEvidence e) := by
  unfold restoreRecord at h
  cases htype : record.type with
  | evidence =>
    rw [htype] at h
    obtain ⟨e,he,h⟩ := bind_eq_ok.mp h
    exact Or.inr ⟨rfl,e,he,(Except.ok.inj h).symm⟩
  | comparison =>
    rw [htype] at h
    obtain ⟨comparison,-,h⟩ := bind_eq_ok.mp h
    rw [← Except.ok.inj h]
    exact Or.inl ⟨nofun,rfl⟩
  | finding =>
    rw [htype] at h
    obtain ⟨finding,-,h⟩ := bind_eq_ok.mp h
    obtain ⟨findings,-,h⟩ := bind_eq_ok.mp h
    rw [← Except.ok.inj h]
    exact Or.inl ⟨nofun,rfl⟩
  | source =>
    rw [htype] at h
    obtain ⟨descriptor,-,h⟩ := bind_eq_ok.mp h
    obtain ⟨sources,-,h⟩ := bind_eq_ok.mp h
    rw [← Except.ok.inj h]
    exact Or.inl ⟨nofun,rfl⟩
  | topologyGeneration | routeGeneration | marker =>
    rw [htype] at h
    rw [← Except.ok.inj h]
    exact Or.inl ⟨nofun,rfl⟩

end ObservatoryRuntime

end PathObservatory
