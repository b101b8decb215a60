import PathObservatory.Library.Streams
import PathObservatory.Runtime.BucketInvariant
import PathObservatory.Runtime.Sequencing

/-! # Offers of different sources

What becomes of an offer depends on the sources, the plan, the entry and the mark of its
own source and on one bucket. Only the bucket is shared with other sources: while it has
room, all that an offer finds there is whether its own record is in it already. So a
runtime without a store ends in the same state however the streams of its sources are
merged, up to the order of the records in a bucket.
-/
namespace PathObservatory

namespace ObservatoryRuntime
variable {r s t : ObservatoryRuntime} {e : ObservedPathEvidence}

/-- The bucket of the record, if it has one, is not full. -/
def HasRoom (r : ObservatoryRuntime) (e : ObservedPathEvidence) : Prop :=
  ∀ key, r.resolveSubject e = .ok key →
    (r.bucket key).length < r.config.limits.maxEvidencePerComparison

/-- The record is new to its bucket, and to the ledger. -/
structure Keeps (r : ObservatoryRuntime) (key : SubjectKey) (e : ObservedPathEvidence) : Prop where
  screened : r.screenEvidence e = .ok ()
  news : ¬ r.Replays e
  subject : r.resolveSubject e = .ok key
  absent : (r.bucket key).any (·.id = e.seal_.id) = false

/-- A bucket that holds a record is there already. -/
theorem insert_bucket_self {key : SubjectKey} (h : r.bucket key ≠ []) :
    r.evidence.insert key (r.bucket key) = r.evidence := by
  refine Std.ExtTreeMap.ext_getElem? fun other => ?_
  rw [OrderedMap.getElem?_insert]
  split_ifs with heq
  · rw [← heq]
    unfold bucket at h ⊢
    cases hfound : r.evidence[key]? with
    | none =>
      rw [hfound] at h
      exact absurd rfl h
    | some records => rfl
  · rfl

/-- Where there is no store and room in the bucket, a record is kept or the buckets are
left alone. -/
theorem keepEvidence_with_room (hstore : r.store = none) (hroom : r.HasRoom e)
    (result : IngestResult) :
    (∃ key, r.resolveSubject e = .ok key ∧ (r.bucket key).any (·.id = e.id) = false ∧
      (r.keepEvidence result e).2 =
        { r with evidence := r.evidence.insert key (r.bucket key ++ [e]) }) ∨
    (∀ key, r.resolveSubject e = .ok key → (r.bucket key).any (·.id = e.id) = true) ∧
      (r.keepEvidence result e).2 = r := by
  rcases r.keepEvidence_cases result e with ⟨error,hkey,hkept⟩ | ⟨key,hkey,hkept⟩
  · refine Or.inr ⟨fun key hother => ?_,by rw [hkept]⟩
    rw [hkey] at hother
    cases hother
  · have hpersist : ∀ type payload, (r.setBucket key (r.bucket key)).persistRecord type payload =
        (.ok (),r.setBucket key (r.bucket key)) := persistRecord_of_no_store hstore
    rcases hkept with ⟨hfull,-⟩ | ⟨-,hpresent,hkept⟩ | ⟨-,-,error,s,herror,-⟩ | ⟨-,hnew,s,hok,hkept⟩
    · exact absurd (hroom key hkey) (not_lt.mpr hfull)
    · refine Or.inr ⟨fun other hother => ?_,?_⟩
      · rw [hkey] at hother
        rwa [← Except.ok.inj hother]
      · obtain ⟨known,hknown,-⟩ := List.any_eq_true.mp hpresent
        rw [hkept]
        show { r with evidence := r.evidence.insert key (r.bucket key) } = r
        rw [insert_bucket_self (List.ne_nil_of_mem hknown)]
    · rw [hpersist] at herror
      cases herror
    · rw [hpersist] at hok
      obtain rfl := (Prod.mk.inj hok).2
      refine Or.inl ⟨key,hkey,hnew,?_⟩
      rw [hkept]
      show { r with evidence := (r.evidence.insert key (r.bucket key)).insert key _ } = _
      rw [OrderedMap.insert_insert]

/-- The answer depends on the subject of the record and on whether it is there already. -/
theorem keepEvidence_answer (hr : r.store = none) (hs : s.store = none) (hrRoom : r.HasRoom e)
    (hsRoom : s.HasRoom e) (hsubject : s.resolveSubject e = r.resolveSubject e)
    (hany : ∀ key, (s.bucket key).any (·.id = e.id) = (r.bucket key).any (·.id = e.id))
    (result : IngestResult) : (s.keepEvidence result e).1 = (r.keepEvidence result e).1 := by
  unfold keepEvidence
  rw [hsubject]
  cases hkey : r.resolveSubject e with
  | error error => rfl
  | ok key =>
    have hrFull : ¬ (r.setBucket key (r.bucket key)).config.limits.maxEvidencePerComparison ≤
        (r.bucket key).length := not_le.mpr (hrRoom key hkey)
    have hsFull : ¬ (s.setBucket key (s.bucket key)).config.limits.maxEvidencePerComparison ≤
        (s.bucket key).length := not_le.mpr (hsRoom key (hsubject.trans hkey))
    have hrPersist := persistRecord_of_no_store (r := r.setBucket key (r.bucket key)) hr .evidence
      (Codec.encodeEvidence e)
    have hsPersist := persistRecord_of_no_store (r := s.setBucket key (s.bucket key)) hs .evidence
      (Codec.encodeEvidence e)
    simp only [if_neg hrFull, if_neg hsFull, hany key, hrPersist, hsPersist]
    split_ifs <;> rfl

/-- The runtimes differ in what was observed at most. -/
def SameSetting (r s : ObservatoryRuntime) : Prop :=
  ∃ ledger gaps evidence,
    s = { r with ledger := ledger, sourceHasGap := gaps, evidence := evidence }

theorem SameSetting.refl (r : ObservatoryRuntime) : r.SameSetting r := ⟨_,_,_,rfl⟩

theorem SameSetting.symm (h : r.SameSetting s) : s.SameSetting r := by
  obtain ⟨_,_,_,rfl⟩ := h
  exact ⟨r.ledger,r.sourceHasGap,r.evidence,rfl⟩

theorem SameSetting.trans (h : r.SameSetting s) (k : s.SameSetting t) : r.SameSetting t := by
  obtain ⟨_,_,_,rfl⟩ := h
  obtain ⟨ledger,gaps,evidence,rfl⟩ := k
  exact ⟨ledger,gaps,evidence,rfl⟩

theorem ingestEvidence_sameSetting (hstore : r.store = none) (hroom : r.HasRoom e) :
    r.SameSetting (r.ingestEvidence e).2 := by
  rcases r.ingestEvidence_cases e with ⟨refused,-,hresult⟩ | ⟨-,-,-,hresult⟩ |
    ⟨-,-,-,result,-,-,hresult⟩
  · rw [hresult]
    exact .refl r
  · rw [hresult]
    exact ⟨_,_,_,rfl⟩
  · obtain ⟨gaps,hframe⟩ := r.noteSequence_frame e
    have hnoted : r.SameSetting (r.noteSequence e) := ⟨_,_,_,hframe⟩
    have hkept := keepEvidence_with_room (r := r.noteSequence e) (e := e.seal_)
      (by rw [hframe]; exact hstore) (by rw [hframe]; exact hroom) result
    rw [hresult]
    rcases hkept with ⟨key,-,-,hkept⟩ | ⟨-,hkept⟩
    · rw [hkept]
      exact hnoted.trans ⟨_,_,_,rfl⟩
    · rw [hkept]
      exact hnoted

/-- An offer to a bucket with room is kept at its end, or leaves all buckets alone. -/
theorem ingestEvidence_evidence (hstore : r.store = none) (hroom : r.HasRoom e) :
    (∃ key, r.Keeps key e ∧
      (r.ingestEvidence e).2.evidence = r.evidence.insert key (r.bucket key ++ [e.seal_])) ∨
    (∀ key, ¬ r.Keeps key e) ∧ (r.ingestEvidence e).2.evidence = r.evidence := by
  rcases r.ingestEvidence_cases e with ⟨refused,hscreen,hresult⟩ | ⟨-,hreplays,-,hresult⟩ |
    ⟨hscreened,hnews,-,result,-,-,hresult⟩
  · refine Or.inr ⟨fun key hkeeps => ?_,by rw [hresult]⟩
    have hscreened := hkeeps.screened
    rw [hscreen] at hscreened
    cases hscreened
  · exact Or.inr ⟨fun key hkeeps => hkeeps.news hreplays,by rw [hresult]⟩
  · obtain ⟨gaps,hframe⟩ := r.noteSequence_frame e
    have hkept := keepEvidence_with_room (r := r.noteSequence e) (e := e.seal_)
      (by rw [hframe]; exact hstore) (by rw [hframe]; exact hroom) result
    rw [hresult]
    rw [hframe] at hkept ⊢
    rcases hkept with ⟨key,hkey,hnew,hkept⟩ | ⟨hpresent,hkept⟩
    · rw [hkept]
      exact Or.inl ⟨key,⟨hscreened,hnews,hkey,hnew⟩,rfl⟩
    · rw [hkept]
      refine Or.inr ⟨fun key hkeeps => ?_,rfl⟩
      have habsent := hkeeps.absent
      have hthere : (r.bucket key).any (·.id = e.seal_.id) = true := hpresent key hkeeps.subject
      rw [hthere] at habsent
      cases habsent

/-- The states agree about a source: its entry, its mark and its records in every bucket,
in their order. -/
structure SameFor (source : SourceId) (r s : ObservatoryRuntime) : Prop where
  setting : r.SameSetting s
  entry : s.ledger.entries[source]? = r.ledger.entries[source]?
  gap : s.sourceHasGap[source]? = r.sourceHasGap[source]?
  records : ∀ key, (s.bucket key).filter (·.source = source) =
    (r.bucket key).filter (·.source = source)

namespace SameFor
variable {source : SourceId}

theorem refl (source : SourceId) (r : ObservatoryRuntime) : SameFor source r r :=
  ⟨.refl r,rfl,rfl,fun _ => rfl⟩

theorem symm (h : SameFor source r s) : SameFor source s r :=
  ⟨h.setting.symm,h.entry.symm,h.gap.symm,fun key => (h.records key).symm⟩

theorem trans (h : SameFor source r s) (k : SameFor source s t) : SameFor source r t :=
  ⟨h.setting.trans k.setting,k.entry.trans h.entry,k.gap.trans h.gap,
    fun key => (k.records key).trans (h.records key)⟩

theorem entryOf_eq (h : SameFor source r s) : s.ledger.entryOf source = r.ledger.entryOf source := by
  rw [SourceSequenceLedger.entryOf, SourceSequenceLedger.entryOf, h.entry]

end SameFor

/-- What an offer does to the entry and the mark of a source. -/
theorem observe_entries (ledger : SourceSequenceLedger)
    (call : SourceSequenceLedger.Observation) (source : SourceId) :
    (ledger.observe call).2.entries[source]? = if call.source = source then
      some ((ledger.entryOf call.source).observe call.incarnation call.sequence).2
      else ledger.entries[source]? := by
  simp only [SourceSequenceLedger.observe, OrderedMap.getElem?_insert]
  split <;> rfl

theorem markGap_of_ne {marked source : SourceId} (h : marked ≠ source)
    (verdict : SourceSequenceLedger.Verdict) :
    (r.markGap marked verdict).sourceHasGap[source]? = r.sourceHasGap[source]? := by
  cases verdict <;> simp only [markGap, OrderedMap.getElem?_insert, if_neg h]

theorem markGap_congr {source : SourceId}
    (h : s.sourceHasGap[source]? = r.sourceHasGap[source]?)
    (verdict : SourceSequenceLedger.Verdict) :
    (s.markGap source verdict).sourceHasGap[source]? =
      (r.markGap source verdict).sourceHasGap[source]? := by
  cases verdict <;> simp only [markGap, OrderedMap.getElem?_insert, h]

/-- An offer touches nothing that belongs to another source. -/
theorem ingestEvidence_other (hstore : r.store = none) (hroom : r.HasRoom e) {source : SourceId}
    (hne : e.source ≠ source) : SameFor source r (r.ingestEvidence e).2 := by
  have hsetting := ingestEvidence_sameSetting hstore hroom
  have hrecords : ∀ key, ((r.ingestEvidence e).2.bucket key).filter (·.source = source) =
      (r.bucket key).filter (·.source = source) := by
    intro key
    rcases ingestEvidence_evidence hstore hroom with ⟨filed,-,hevidence⟩ | ⟨-,hevidence⟩
    · rw [bucket_of_insert hevidence, Filing.put]
      split_ifs
      · have hnone : [e.seal_].filter (·.source = source) = [] :=
          List.filter_cons_of_neg (mt of_decide_eq_true hne)
        rw [List.filter_append, hnone, List.append_nil]
      · rfl
    · rw [bucket_congr hevidence]
  rcases r.ingestEvidence_sequences e with ⟨refused,-,hsame⟩ | ⟨-,hledger,hgaps⟩
  · rw [hsame]
    exact .refl source r
  · refine ⟨hsetting,?_,?_,hrecords⟩
    · rw [hledger, observe_entries, if_neg hne]
    · rw [hgaps, markGap_of_ne hne]

/-- Every record in a bucket is one of the pool, sealed. -/
def DrawsOn (pool : List ObservedPathEvidence) (r : ObservatoryRuntime) : Prop :=
  ∀ key, ∀ x ∈ r.bucket key, ∃ y ∈ pool, y.seal_ = x

variable {pool : List ObservedPathEvidence}

theorem DrawsOn.ingestEvidence (h : DrawsOn pool r) (hstore : r.store = none) (hroom : r.HasRoom e)
    (he : e ∈ pool) : DrawsOn pool (r.ingestEvidence e).2 := by
  intro key x hx
  rcases ingestEvidence_evidence hstore hroom with ⟨filed,-,hevidence⟩ | ⟨-,hevidence⟩
  · rw [bucket_of_insert hevidence] at hx
    rcases Filing.mem_put hx with hold | ⟨rfl,-⟩
    · exact h key x hold
    · exact ⟨e,he,rfl⟩
  · rw [bucket_congr hevidence] at hx
    exact h key x hx

/-- A record of the pool is found among those of its own source or not at all. -/
theorem DrawsOn.any_filter (h : DrawsOn pool r) (hfree : ObservedPathEvidence.CollisionFree pool)
    (he : e ∈ pool) (key : SubjectKey) :
    ((r.bucket key).filter (·.source = e.source)).any (·.id = e.seal_.id) =
      (r.bucket key).any (·.id = e.seal_.id) := by
  rw [List.any_filter]
  refine Bool.eq_iff_iff.mpr ⟨fun hany => ?_,fun hany => ?_⟩
  · obtain ⟨x,hx,hmatch⟩ := List.any_eq_true.mp hany
    exact List.any_eq_true.mpr ⟨x,hx,(Bool.and_eq_true_iff.mp hmatch).2⟩
  · obtain ⟨x,hx,hid⟩ := List.any_eq_true.mp hany
    refine List.any_eq_true.mpr ⟨x,hx,Bool.and_eq_true_iff.mpr ⟨?_,hid⟩⟩
    obtain ⟨y,hy,rfl⟩ := h key x hx
    have hcontent := hfree y hy e he (of_decide_eq_true hid)
    have hsource := congrArg ObservedPathEvidence.source hcontent
    exact decide_eq_true hsource

/-- Two states that agree about the source of a record, as far as offering it goes. -/
structure Alike (pool : List ObservedPathEvidence) (e : ObservedPathEvidence)
    (r s : ObservatoryRuntime) : Prop where
  same : SameFor e.source r s
  store : r.store = none
  left : r.HasRoom e
  right : s.HasRoom e
  leftPool : DrawsOn pool r
  rightPool : DrawsOn pool s

namespace Alike

theorem symm (h : Alike pool e r s) : Alike pool e s r where
  same := h.same.symm
  store := by
    obtain ⟨_,_,_,rfl⟩ := h.same.setting
    exact h.store
  left := h.right
  right := h.left
  leftPool := h.rightPool
  rightPool := h.leftPool

theorem any_eq (h : Alike pool e r s) (hfree : ObservedPathEvidence.CollisionFree pool)
    (he : e ∈ pool) (key : SubjectKey) :
    (s.bucket key).any (·.id = e.seal_.id) = (r.bucket key).any (·.id = e.seal_.id) := by
  rw [← h.leftPool.any_filter hfree he, ← h.rightPool.any_filter hfree he, h.same.records]

theorem screenEvidence_eq (h : Alike pool e r s) : s.screenEvidence e = r.screenEvidence e := by
  obtain ⟨_,_,_,rfl⟩ := h.same.setting
  rfl

theorem resolveSubject_eq (h : Alike pool e r s) (f : ObservedPathEvidence) :
    s.resolveSubject f = r.resolveSubject f := by
  obtain ⟨_,_,_,rfl⟩ := h.same.setting
  rfl

theorem observe_eq (h : Alike pool e r s) :
    (s.ledger.observe ⟨e.source,e.incarnation,e.sequence⟩).1 =
      (r.ledger.observe ⟨e.source,e.incarnation,e.sequence⟩).1 := by
  simp only [SourceSequenceLedger.observe, h.same.entryOf_eq]

theorem keeps (h : Alike pool e r s) (hfree : ObservedPathEvidence.CollisionFree pool)
    (he : e ∈ pool) {key : SubjectKey} (hkeeps : r.Keeps key e) : s.Keeps key e where
  screened := h.screenEvidence_eq.trans hkeeps.screened
  news := by
    rw [Replays, h.same.entryOf_eq]
    exact hkeeps.news
  subject := (h.resolveSubject_eq e).trans hkeeps.subject
  absent := (h.any_eq hfree he key).trans hkeeps.absent

/-- The record is answered alike. -/
theorem answer_eq (h : Alike pool e r s) (hfree : ObservedPathEvidence.CollisionFree pool)
    (he : e ∈ pool) : (s.ingestEvidence e).1 = (r.ingestEvidence e).1 := by
  unfold ObservatoryRuntime.ingestEvidence
  rw [h.screenEvidence_eq]
  cases r.screenEvidence e with
  | error refused => rfl
  | ok _ =>
    by_cases hreplay : (r.ledger.observe ⟨e.source,e.incarnation,e.sequence⟩).1.verdict = .replay
    · simp only [h.observe_eq, if_pos hreplay]
    · obtain ⟨rgaps,hr⟩ := r.noteSequence_frame e
      obtain ⟨sgaps,hs⟩ := s.noteSequence_frame e
      simp only [h.observe_eq, if_neg hreplay]
      have hanswer := keepEvidence_answer (r := r.noteSequence e) (s := s.noteSequence e)
        (e := e.seal_) (by rw [hr]; exact h.store) (by rw [hs]; exact h.symm.store)
        (by rw [hr]; exact h.left) (by rw [hs]; exact h.right)
        (by rw [hr, hs]; exact h.resolveSubject_eq e.seal_)
        (by rw [hr, hs]; exact h.any_eq hfree he)
      simp only [noteSequence, h.observe_eq] at hanswer
      exact hanswer _

/-- The record does the same to what belongs to its source. -/
theorem ingestEvidence (h : Alike pool e r s) (hfree : ObservedPathEvidence.CollisionFree pool)
    (he : e ∈ pool) : SameFor e.source (r.ingestEvidence e).2 (s.ingestEvidence e).2 := by
  have hstore := h.symm.store
  have hsetting := (ingestEvidence_sameSetting h.store h.left).symm.trans
    (h.same.setting.trans (ingestEvidence_sameSetting hstore h.right))
  have hrecords : ∀ key, ((s.ingestEvidence e).2.bucket key).filter (·.source = e.source) =
      ((r.ingestEvidence e).2.bucket key).filter (·.source = e.source) := by
    intro key
    rcases ingestEvidence_evidence h.store h.left with ⟨filed,hkeeps,hr⟩ | ⟨hnever,hr⟩
    · rcases ingestEvidence_evidence hstore h.right with ⟨other,hother,hs⟩ | ⟨hnever,-⟩
      · obtain rfl : filed = other :=
          Except.ok.inj ((h.keeps hfree he hkeeps).subject.symm.trans hother.subject)
        rw [bucket_of_insert hr, bucket_of_insert hs, Filing.put, Filing.put]
        split_ifs
        · rw [List.filter_append, List.filter_append, h.same.records]
        · exact h.same.records key
      · exact absurd (h.keeps hfree he hkeeps) (hnever filed)
    · rcases ingestEvidence_evidence hstore h.right with ⟨other,hother,-⟩ | ⟨-,hs⟩
      · exact absurd (h.symm.keeps hfree he hother) (hnever other)
      · rw [bucket_congr hr, bucket_congr hs]
        exact h.same.records key
  rcases r.ingestEvidence_sequences e with ⟨refused,hscreen,hr⟩ | ⟨hscreened,hledger,hgaps⟩
  · rcases s.ingestEvidence_sequences e with ⟨other,-,hs⟩ | ⟨hscreened,-,-⟩
    · rw [hr, hs]
      exact h.same
    · rw [h.screenEvidence_eq, hscreen] at hscreened
      cases hscreened
  · rcases s.ingestEvidence_sequences e with ⟨other,hscreen,-⟩ | ⟨-,hledgers,hgapss⟩
    · rw [h.screenEvidence_eq, hscreened] at hscreen
      cases hscreen
    · refine ⟨hsetting,?_,?_,hrecords⟩
      · rw [hledger, hledgers, observe_entries, observe_entries, if_pos rfl, if_pos rfl]
        simp only [h.same.entryOf_eq]
      · rw [hgaps, hgapss, h.observe_eq]
        exact markGap_congr h.same.gap _

end Alike

/-- Offers one after the other. -/
def ingestAll (r : ObservatoryRuntime) (records : List ObservedPathEvidence) :
    ObservatoryRuntime :=
  records.foldl (fun r e => (r.ingestEvidence e).2) r

/-- No offer of the run finds its bucket full. -/
def NeverFull (r : ObservatoryRuntime) (records : List ObservedPathEvidence) : Prop :=
  Streams.Along (fun r e => (r.ingestEvidence e).2) HasRoom r records

/-- The runtimes are the same, up to the order of the records in a bucket. -/
structure SameUpToOrder (r s : ObservatoryRuntime) : Prop where
  rest : s = { r with evidence := s.evidence }
  evidence : ∀ key : SubjectKey, Option.Rel List.Perm r.evidence[key]? s.evidence[key]?

/-- Beside the buckets that were there, those that hold something are there. -/
def GrownFrom (r s : ObservatoryRuntime) : Prop :=
  ∀ key, key ∈ s.evidence ↔ key ∈ r.evidence ∨ s.bucket key ≠ []

theorem mem_of_bucket_ne_nil {key : SubjectKey} (h : s.bucket key ≠ []) : key ∈ s.evidence := by
  by_contra hnone
  refine h ?_
  rw [bucket, Std.ExtTreeMap.getElem?_eq_none hnone]
  rfl

theorem GrownFrom.ingestEvidence (h : GrownFrom r s) (hstore : s.store = none) (hroom : s.HasRoom e) :
    GrownFrom r (s.ingestEvidence e).2 := by
  intro key
  rcases ingestEvidence_evidence hstore hroom with ⟨filed,-,hevidence⟩ | ⟨-,hevidence⟩
  · have hbucket := congrFun (bucket_of_insert hevidence) key
    refine ⟨fun hkey => ?_,fun hkey => ?_⟩
    · by_cases heq : filed = key
      · refine Or.inr ?_
        rw [hbucket, Filing.put, if_pos heq]
        exact List.append_ne_nil_of_right_ne_nil _ (List.cons_ne_nil _ _)
      · rw [hevidence, OrderedMap.mem_iff_getElem?, OrderedMap.getElem?_insert, if_neg heq,
          ← OrderedMap.mem_iff_getElem?, h key] at hkey
        rw [hbucket, Filing.put, if_neg heq]
        exact hkey
    · rcases hkey with hkey | hkey
      · rw [hevidence]
        exact Std.ExtTreeMap.mem_insert.mpr (Or.inr ((h key).mpr (Or.inl hkey)))
      · exact mem_of_bucket_ne_nil hkey
  · rw [hevidence, bucket_congr hevidence]
    exact h key

/-- States that agree about every source are the same, up to the order of the records in
a bucket. -/
theorem sameUpToOrder_of_sameFor (hr : GrownFrom t r) (hs : GrownFrom t s)
    (h : ∀ source, SameFor source r s) : r.SameUpToOrder s := by
  have hperm : ∀ key, (r.bucket key).Perm (s.bucket key) := fun key =>
    Streams.perm_of_streams fun source => ((h source).records key).symm
  refine ⟨?_,fun key => ?_⟩
  · have hledger : s.ledger.entries = r.ledger.entries :=
      Std.ExtTreeMap.ext_getElem? fun source => (h source).entry
    have hgaps : s.sourceHasGap = r.sourceHasGap :=
      Std.ExtTreeMap.ext_getElem? fun source => (h source).gap
    obtain ⟨⟨entries⟩,gaps,evidence,rfl⟩ := (h {}).setting
    obtain rfl : entries = r.ledger.entries := hledger
    obtain rfl : gaps = r.sourceHasGap := hgaps
    rfl
  · have hmem : key ∈ s.evidence ↔ key ∈ r.evidence := by
      rw [hr key, hs key, ne_eq, ne_eq, ← List.length_eq_zero_iff, ← List.length_eq_zero_iff,
        (hperm key).length_eq]
    have hbuckets := hperm key
    simp only [bucket] at hbuckets
    rw [OrderedMap.mem_iff_getElem?, OrderedMap.mem_iff_getElem?] at hmem
    cases hrkey : r.evidence[key]? with
    | none =>
      cases hskey : s.evidence[key]? with
      | none => exact .none
      | some records =>
        obtain ⟨_,hfound⟩ := hmem.mp ⟨records,hskey⟩
        rw [hrkey] at hfound
        cases hfound
    | some records =>
      obtain ⟨others,hskey⟩ := hmem.mpr ⟨records,hrkey⟩
      rw [hrkey, hskey] at hbuckets
      rw [hskey]
      exact .some hbuckets

theorem grownFrom_refl (r : ObservatoryRuntime) : GrownFrom r r :=
  fun _ => ⟨Or.inl,fun h => h.elim id mem_of_bucket_ne_nil⟩

theorem store_ingestEvidence (hstore : r.store = none) (hroom : r.HasRoom e) :
    (r.ingestEvidence e).2.store = none := by
  obtain ⟨_,_,_,hsetting⟩ := ingestEvidence_sameSetting hstore hroom
  rw [hsetting]
  exact hstore

theorem NeverFull.grown (hstore : r.store = none) {records : List ObservedPathEvidence}
    (h : r.NeverFull records) : GrownFrom r (r.ingestAll records) := by
  have hrun := Streams.Along.invariant (P := fun s => GrownFrom r s ∧ s.store = none)
    (fun s e hroom hs => ⟨hs.1.ingestEvidence hs.2 hroom,store_ingestEvidence hs.2 hroom⟩) h
    ⟨grownFrom_refl r,hstore⟩
  exact hrun.1

/-- However the streams of the sources are merged, what belongs to a source is the same in
the end. -/
theorem NeverFull.sameFor (hfree : ObservedPathEvidence.CollisionFree pool) (hpool : DrawsOn pool r)
    (hstore : r.store = none) {l m : List ObservedPathEvidence}
    (hsame : ∀ source, l.filter (·.source = source) = m.filter (·.source = source))
    (hmem : ∀ e ∈ l, e ∈ pool) (hl : r.NeverFull l) (hm : r.NeverFull m) (source : SourceId) :
    SameFor source (r.ingestAll l) (r.ingestAll m) := by
  have hmem' : ∀ e ∈ m, e ∈ pool := by
    intro e he
    have hkept : e ∈ m.filter (·.source = e.source) := List.mem_filter.mpr ⟨he,decide_eq_true rfl⟩
    rw [← hsame] at hkept
    exact hmem e (List.mem_filter.mp hkept).1
  have hagrees := Streams.Along.agrees (i := source)
    (fun s t => SameFor source s t ∧ (s.store = none ∧ DrawsOn pool s) ∧
      t.store = none ∧ DrawsOn pool t)
    (fun s t e hne hallowed hst => ?_) (fun s t e hne hallowed hst => ?_)
    (fun s t e heq hleft hright hst => ?_) (hsame source) (hl.and_mem hmem) (hm.and_mem hmem')
    ⟨.refl source r,⟨hstore,hpool⟩,hstore,hpool⟩
  · exact hagrees.1
  · obtain ⟨hroom,he⟩ := hallowed
    obtain ⟨hsame,⟨hstore,hdraws⟩,ht⟩ := hst
    exact ⟨(ingestEvidence_other hstore hroom hne).symm.trans hsame,
      ⟨store_ingestEvidence hstore hroom,hdraws.ingestEvidence hstore hroom he⟩,ht⟩
  · obtain ⟨hroom,he⟩ := hallowed
    obtain ⟨hsame,hs,hstore,hdraws⟩ := hst
    exact ⟨hsame.trans (ingestEvidence_other hstore hroom hne),hs,
      store_ingestEvidence hstore hroom,hdraws.ingestEvidence hstore hroom he⟩
  · obtain ⟨hsRoom,he⟩ := hleft
    obtain ⟨htRoom,-⟩ := hright
    obtain ⟨hsame,⟨hsStore,hsDraws⟩,htStore,htDraws⟩ := hst
    have halike : Alike pool e s t := ⟨heq ▸ hsame,hsStore,hsRoom,htRoom,hsDraws,htDraws⟩
    have hafter := halike.ingestEvidence hfree he
    rw [heq] at hafter
    exact ⟨hafter,⟨store_ingestEvidence hsStore hsRoom,hsDraws.ingestEvidence hsStore hsRoom he⟩,
      store_ingestEvidence htStore htRoom,htDraws.ingestEvidence htStore htRoom he⟩

/-- All records in the buckets. -/
def collected (r : ObservatoryRuntime) : List ObservedPathEvidence :=
  r.evidence.keys.flatMap r.bucket

theorem mem_collected {key : SubjectKey} (h : e ∈ r.bucket key) : e ∈ r.collected := by
  refine List.mem_flatMap.mpr ⟨key,?_,h⟩
  exact Std.ExtTreeMap.mem_keys.mpr (mem_of_bucket_ne_nil (List.ne_nil_of_mem h))

theorem SoundBuckets.drawsOn (h : r.SoundBuckets) (offered : List ObservedPathEvidence) :
    DrawsOn (r.collected ++ offered) r := by
  intro key x hx
  have hid := (h.genuine key x hx).identified
  refine ⟨x,List.mem_append_left _ (mem_collected hx),?_⟩
  calc x.seal_ = { x with id := x.computeEvidenceId } := rfl
    _ = x := by rw [← hid]

/-- The bucket of the record, if it has one, has room for two more. -/
def HasRoomForTwo (r : ObservatoryRuntime) (e : ObservedPathEvidence) : Prop :=
  ∀ key, r.resolveSubject e = .ok key →
    (r.bucket key).length + 2 ≤ r.config.limits.maxEvidencePerComparison

theorem HasRoomForTwo.hasRoom (h : r.HasRoomForTwo e) : r.HasRoom e :=
  fun key hkey => Nat.lt_of_lt_of_le (Nat.lt_add_of_pos_right Nat.two_pos) (h key hkey)

/-- One offer leaves room for another. -/
theorem HasRoomForTwo.after {f : ObservedPathEvidence} (hf : r.HasRoomForTwo f)
    (hstore : r.store = none) (hroom : r.HasRoom e) : (r.ingestEvidence e).2.HasRoom f := by
  obtain ⟨ledger,gaps,evidence,hsetting⟩ := ingestEvidence_sameSetting hstore hroom
  intro key hkey
  have hlength : ((r.ingestEvidence e).2.bucket key).length ≤ (r.bucket key).length + 1 := by
    rcases ingestEvidence_evidence hstore hroom with ⟨filed,-,hevidence⟩ | ⟨-,hevidence⟩
    · rw [bucket_of_insert hevidence, Filing.put]
      split_ifs
      · rw [List.length_append, List.length_singleton]
      · exact Nat.le_succ _
    · rw [bucket_congr hevidence]
      exact Nat.le_succ _
  have htwo : (r.bucket key).length + 2 ≤ r.config.limits.maxEvidencePerComparison := by
    rw [hsetting] at hkey
    exact hf key hkey
  have hconfig : (r.ingestEvidence e).2.config = r.config := r.perform_config (.ingestEvidence e)
  rw [hconfig]
  omega

/-- Offers of different sources commute, and streams of different sources can be merged
in any way, up to the order of the records in a bucket. -/
theorem sources_commute (hr : Reachable r) (hstore : r.store = none) :
    (∀ e f : ObservedPathEvidence, e.source ≠ f.source →
        ObservedPathEvidence.CollisionFree (r.collected ++ [e,f]) →
        r.HasRoomForTwo e → r.HasRoomForTwo f →
        ((r.ingestEvidence e).2.ingestEvidence f).1 = (r.ingestEvidence f).1 ∧
          ((r.ingestEvidence f).2.ingestEvidence e).1 = (r.ingestEvidence e).1 ∧
          ((r.ingestEvidence e).2.ingestEvidence f).2.SameUpToOrder
            ((r.ingestEvidence f).2.ingestEvidence e).2) ∧
      ∀ l m : List ObservedPathEvidence,
        (∀ source, l.filter (·.source = source) = m.filter (·.source = source)) →
        ObservedPathEvidence.CollisionFree (r.collected ++ l) → r.NeverFull l → r.NeverFull m →
        (r.ingestAll l).SameUpToOrder (r.ingestAll m) := by
  have hmerged : ∀ l m : List ObservedPathEvidence,
      (∀ source, l.filter (·.source = source) = m.filter (·.source = source)) →
      ObservedPathEvidence.CollisionFree (r.collected ++ l) → r.NeverFull l → r.NeverFull m →
      (r.ingestAll l).SameUpToOrder (r.ingestAll m) := by
    intro l m hsame hfree hl hm
    refine sameUpToOrder_of_sameFor (hl.grown hstore) (hm.grown hstore) ?_
    exact NeverFull.sameFor hfree (hr.soundBuckets.drawsOn l) hstore hsame
      (fun e he => List.mem_append_right _ he) hl hm
  refine ⟨fun e f hne hfree he hf => ?_,hmerged⟩
  have hpool := hr.soundBuckets.drawsOn [e,f]
  have hePool : e ∈ r.collected ++ [e,f] := List.mem_append_right _ List.mem_cons_self
  have hfPool : f ∈ r.collected ++ [e,f] :=
    List.mem_append_right _ (List.mem_cons_of_mem e List.mem_cons_self)
  have hanswer : ∀ {a b : ObservedPathEvidence}, a.source ≠ b.source → r.HasRoomForTwo a →
      r.HasRoomForTwo b → a ∈ r.collected ++ [e,f] → b ∈ r.collected ++ [e,f] →
      ((r.ingestEvidence a).2.ingestEvidence b).1 = (r.ingestEvidence b).1 := by
    intro a b hab ha hb haPool hbPool
    have halike : Alike (r.collected ++ [e,f]) b r (r.ingestEvidence a).2 :=
      ⟨ingestEvidence_other hstore ha.hasRoom hab,hstore,hb.hasRoom,hb.after hstore ha.hasRoom,
        hpool,hpool.ingestEvidence hstore ha.hasRoom haPool⟩
    exact halike.answer_eq hfree hbPool
  refine ⟨hanswer hne he hf hePool hfPool,hanswer hne.symm hf he hfPool hePool,?_⟩
  exact hmerged [e,f] [f,e] (Streams.filter_pair hne) hfree ⟨he.hasRoom,hf.after hstore he.hasRoom,trivial⟩
    ⟨hf.hasRoom,he.after hstore hf.hasRoom,trivial⟩

/-- A runtime with two sources and no plan. -/
def twoSources : ObservatoryRuntime := registeredOnly.perform (.registerSource probeSource)

theorem twoSources_reachable : Reachable twoSources := registeredOnly_reachable.call _

/-- The same observation of either source. -/
def sighting (source : SourceId) (surface : ProofSurface) : ObservedPathEvidence :=
  { strayEvidence with source := source, surface := surface, routeGeneration := ⟨⟨1⟩⟩ }.seal_

theorem sighting_sealed (source : SourceId) (surface : ProofSurface) :
    (sighting source surface).id = (sighting source surface).computeEvidenceId :=
  (ObservedPathEvidence.computeEvidenceId_seal _).symm

/-- The two orders differ in the order of the bucket, and in nothing else. -/
theorem sightings_commute :
    ((twoSources.ingestEvidence (sighting ⟨1⟩ .synthetic)).2.ingestEvidence
        (sighting ⟨2⟩ .real)).1 = (twoSources.ingestEvidence (sighting ⟨2⟩ .real)).1 ∧
    (twoSources.ingestAll [sighting ⟨1⟩ .synthetic,sighting ⟨2⟩ .real]).SameUpToOrder
      (twoSources.ingestAll [sighting ⟨2⟩ .real,sighting ⟨1⟩ .synthetic]) ∧
    ((twoSources.ingestAll [sighting ⟨1⟩ .synthetic,sighting ⟨2⟩ .real]).bucket
      { generation := ⟨1⟩ }).map (·.source) = [⟨1⟩,⟨2⟩] ∧
    ((twoSources.ingestAll [sighting ⟨2⟩ .real,sighting ⟨1⟩ .synthetic]).bucket
      { generation := ⟨1⟩ }).map (·.source) = [⟨2⟩,⟨1⟩] := by
  have hne : (sighting ⟨1⟩ .synthetic).source ≠ (sighting ⟨2⟩ .real).source := by decide
  have hevaluated :
      (sighting ⟨1⟩ .synthetic).id ≠ (sighting ⟨2⟩ .real).id ∧
      ((twoSources.ingestAll [sighting ⟨1⟩ .synthetic,sighting ⟨2⟩ .real]).bucket
        { generation := ⟨1⟩ }).map (·.source) = [⟨1⟩,⟨2⟩] ∧
      ((twoSources.ingestAll [sighting ⟨2⟩ .real,sighting ⟨1⟩ .synthetic]).bucket
        { generation := ⟨1⟩ }).map (·.source) = [⟨2⟩,⟨1⟩] := by
    decide +kernel
  have hfree : ObservedPathEvidence.CollisionFree
      (twoSources.collected ++ [sighting ⟨1⟩ .synthetic,sighting ⟨2⟩ .real]) :=
    ObservedPathEvidence.CollisionFree.pair (sighting_sealed _ _) (sighting_sealed _ _)
      hevaluated.1
  have hroom : ∀ e, twoSources.HasRoomForTwo e := by
    intro e key _
    have hempty : twoSources.bucket key = [] := rfl
    rw [hempty]
    decide
  obtain ⟨hpair,hmerged⟩ := sources_commute twoSources_reachable rfl
  refine ⟨(hpair _ _ hne hfree (hroom _) (hroom _)).1,?_,hevaluated.2.1,hevaluated.2.2⟩
  exact hmerged _ _ (Streams.filter_pair hne) hfree
    ⟨(hroom _).hasRoom,(hroom _).after rfl (hroom _).hasRoom,trivial⟩
    ⟨(hroom _).hasRoom,(hroom _).after rfl (hroom _).hasRoom,trivial⟩

end ObservatoryRuntime

end PathObservatory
