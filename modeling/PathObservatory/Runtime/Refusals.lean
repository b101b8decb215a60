import PathObservatory.Runtime.Publication

/-! # What a refused request leaves behind

A publication takes effect before its record is written, and evidence passes the
sequence ledger before it finds its place. A request that is refused later than
that has already moved the state.
-/
namespace PathObservatory
namespace ObservatoryRuntime

theorem persistRecord_eq_error_iff {r : ObservatoryRuntime} {type : RecordType}
    {payload : ByteString} :
    (∃ e, (r.persistRecord type payload).1 = .error e) ↔
      ∃ store, r.store = some store ∧ store.Refuses payload := by
  unfold persistRecord
  cases hstore : r.store with
  | none => simp
  | some store => simp [PersistentStore.append_eq_error_iff]

/-- The generation is news and can be indexed, but the store refuses its record. -/
def UnstorableTopology (r : ObservatoryRuntime) (g : TopologyGeneration) : Prop :=
  ∃ admitted, r.admitTopology g = .ok admitted ∧ r.topologyIsCurrent admitted = false ∧
    (∃ index, TopologyIndex.build admitted r.config.limits = .ok index) ∧
    ∃ store, r.store = some store ∧ store.Refuses (Codec.encodeTopology admitted)

def UnstorableRoutes (r : ObservatoryRuntime) (g : RouteGeneration) : Prop :=
  ∃ admitted, r.admitRoutes g = .ok admitted ∧ r.routesAreCurrent admitted = false ∧
    ∃ store, r.store = some store ∧ store.Refuses (Codec.encodeRoutes admitted)

theorem failedTopology_iff (r : ObservatoryRuntime) (g : TopologyGeneration) :
    ((∃ e, (r.publishTopology g).1 = .error e) → r.SameExpected (r.publishTopology g).2) ↔
      ¬ r.UnstorableTopology g := by
  constructor
  · rintro h ⟨admitted,hadmitted,hnews,⟨index,hbuild⟩,hstore⟩
    obtain ⟨htopology,hstatus⟩ := publishTopology_of_news hadmitted hnews hbuild
    rw [hstatus] at h
    have hsame := (h (persistRecord_eq_error_iff.mpr hstore)).topology
    have hcurrent : r.topologyIsCurrent admitted = true :=
      topologyIsCurrent_iff.mpr ⟨admitted,hsame.symm.trans htopology,rfl,rfl⟩
    rw [hnews] at hcurrent
    cases hcurrent
  · rintro hstorable ⟨e,herror⟩
    rcases r.publishTopology_cases g with
      ⟨_,hresult⟩ | ⟨_,-,-,hresult⟩ | ⟨admitted,index,hadmitted,hnews,hbuild,hresult⟩
    · rw [hresult]
      exact .refl r
    · rw [hresult]
      exact .refl r
    · rw [hresult] at herror
      have hrefused := persistRecord_eq_error_iff.mp ⟨e,herror⟩
      exact absurd ⟨admitted,hadmitted,hnews,⟨index,hbuild⟩,hrefused⟩ hstorable

theorem failedRoutes_iff (r : ObservatoryRuntime) (g : RouteGeneration) :
    ((∃ e, (r.publishRoutes g).1 = .error e) → r.SameExpected (r.publishRoutes g).2) ↔
      ¬ r.UnstorableRoutes g := by
  constructor
  · rintro h ⟨admitted,hadmitted,hnews,hstore⟩
    obtain ⟨hroutes,hstatus⟩ := publishRoutes_of_news hadmitted hnews
    rw [hstatus] at h
    have hsame := (h (persistRecord_eq_error_iff.mpr hstore)).routes
    have hcurrent : r.routesAreCurrent admitted = true :=
      routesAreCurrent_iff.mpr ⟨admitted,hsame.symm.trans hroutes,rfl,rfl⟩
    rw [hnews] at hcurrent
    cases hcurrent
  · rintro hstorable ⟨e,herror⟩
    rcases r.publishRoutes_cases g with
      ⟨_,hresult⟩ | ⟨_,-,-,hresult⟩ | ⟨admitted,hadmitted,hnews,hresult⟩
    · rw [hresult]
      exact .refl r
    · rw [hresult]
      exact .refl r
    · rw [hresult] at herror
      have hrefused := persistRecord_eq_error_iff.mp ⟨e,herror⟩
      exact absurd ⟨admitted,hadmitted,hnews,hrefused⟩ hstorable

/-- A failed publication leaves the expected state alone exactly when it was not
the store that refused it. -/
theorem failed_publication_harmless_iff (r : ObservatoryRuntime) (g : TopologyGeneration)
    (p : RouteGeneration) :
    (((∃ e, (r.publishTopology g).1 = .error e) → r.SameExpected (r.publishTopology g).2) ↔
      ¬ r.UnstorableTopology g) ∧
    (((∃ e, (r.publishRoutes p).1 = .error e) → r.SameExpected (r.publishRoutes p).2) ↔
      ¬ r.UnstorableRoutes p) :=
  ⟨r.failedTopology_iff g,r.failedRoutes_iff p⟩

/-- A persistent runtime whose store holds a single record. -/
def tightConfig : RuntimeConfig where
  limits := { maxStoreRecords := 1 }
  storePath := "store"
  persist := true

def createdTight : ObservatoryRuntime :=
  fresh tightConfig (fun _ => ⟨0⟩) (Ranking.Sorter.insertion ranksBefore_ranksBy)

/-- The one record is the source of the authority. -/
def registeredTight : ObservatoryRuntime :=
  (createdTight.start none).2.1.perform (.registerSource authoritySource)

theorem registeredTight_reachable : Reachable registeredTight := by
  have hcreate : create tightConfig (some (fun _ => ⟨0⟩))
      (Ranking.Sorter.insertion ranksBefore_ranksBy) = .ok createdTight := rfl
  exact .call (.start (.create hcreate) none) _

/-- The store has no room left, the publication fails, and its topology is in
force. -/
theorem failed_topology_is_current :
    Reachable registeredTight ∧
      (∃ e, (registeredTight.publishTopology (emptyTopology 1)).1 = .error e) ∧
      ¬ registeredTight.SameExpected (registeredTight.publishTopology (emptyTopology 1)).2 := by
  obtain ⟨hfails,hepoch⟩ :
      (registeredTight.publishTopology (emptyTopology 1)).1 = .error
        { code := .capacityExceeded,
          message := "store has reached its configured record bound" } ∧
      (registeredTight.publishTopology (emptyTopology 1)).2.epoch ≠ registeredTight.epoch := by
    decide +kernel
  exact ⟨registeredTight_reachable,⟨_,hfails⟩,fun h => hepoch h.epoch⟩

/-- Everything that can become of a sealed record that passed the ledger: it has no
subject, its bucket is full, it is a duplicate, the store refuses it, or it is
kept. -/
theorem keepEvidence_cases (r : ObservatoryRuntime) (result : IngestResult)
    (e : ObservedPathEvidence) :
    (∃ error, r.resolveSubject e = .error error ∧ r.keepEvidence result e =
      ({ result with reason := .evidenceUnknown, detail := error.message },r)) ∨
    ∃ key, r.resolveSubject e = .ok key ∧
      ((r.config.limits.maxEvidencePerComparison ≤ (r.bucket key).length ∧
        r.keepEvidence result e =
          ({ result with reason := .evidenceIncomplete,
                         detail := "evidence bucket has reached the configured bound" },
            r.setBucket key (r.bucket key))) ∨
      ((r.bucket key).length < r.config.limits.maxEvidencePerComparison ∧
        (r.bucket key).any (·.id = e.id) = true ∧
        r.keepEvidence result e =
          ({ result with accepted := true,
                         detail := "duplicate evidence identity: already recorded" },
            r.setBucket key (r.bucket key))) ∨
      ((r.bucket key).length < r.config.limits.maxEvidencePerComparison ∧
        (r.bucket key).any (·.id = e.id) = false ∧
        ∃ error s, (r.setBucket key (r.bucket key)).persistRecord .evidence
            (Codec.encodeEvidence e) = (.error error,s) ∧
          r.keepEvidence result e =
            ({ result with reason := .evidenceUnknown, detail := error.message },s)) ∨
      ((r.bucket key).length < r.config.limits.maxEvidencePerComparison ∧
        (r.bucket key).any (·.id = e.id) = false ∧
        ∃ s, (r.setBucket key (r.bucket key)).persistRecord .evidence
            (Codec.encodeEvidence e) = (.ok (),s) ∧
          r.keepEvidence result e =
            ({ result with persisted := true, accepted := true },
              s.setBucket key (r.bucket key ++ [e])))) := by
  unfold keepEvidence
  cases hkey : r.resolveSubject e with
  | error error => exact Or.inl ⟨error,rfl,rfl⟩
  | ok key =>
    refine Or.inr ⟨key,rfl,?_⟩
    by_cases hfull : r.config.limits.maxEvidencePerComparison ≤ (r.bucket key).length
    · exact Or.inl ⟨hfull,if_pos hfull⟩
    · have hroom := not_le.mp hfull
      cases hduplicate : (r.bucket key).any (·.id = e.id) with
      | true =>
        refine Or.inr (Or.inl ⟨hroom,rfl,?_⟩)
        exact (if_neg hfull).trans (if_pos hduplicate)
      | false =>
        refine Or.inr (Or.inr ?_)
        have hnew : ¬ (r.bucket key).any (·.id = e.id) = true := by
          rw [hduplicate]
          exact Bool.false_ne_true
        rcases hpersist : (r.setBucket key (r.bucket key)).persistRecord .evidence
          (Codec.encodeEvidence e) with ⟨error | ok,s⟩
        · refine Or.inl ⟨hroom,rfl,error,s,rfl,?_⟩
          refine (if_neg hfull).trans ((if_neg hnew).trans ?_)
          rw [hpersist]
        · refine Or.inr ⟨hroom,rfl,s,rfl,?_⟩
          refine (if_neg hfull).trans ((if_neg hnew).trans ?_)
          rw [hpersist]

/-- The entry of the record's source is of its incarnation and has reached its
sequence. -/
def Replays (r : ObservatoryRuntime) (e : ObservedPathEvidence) : Prop :=
  (r.ledger.entryOf e.source).incarnation = e.incarnation ∧
    e.sequence ≤ (r.ledger.entryOf e.source).highest

/-- The record has no subject, or its bucket is full, or it is new and the store
refuses it. -/
def Unplaceable (r : ObservatoryRuntime) (e : ObservedPathEvidence) : Prop :=
  (∃ error, r.resolveSubject e = .error error) ∨
    ∃ key, r.resolveSubject e = .ok key ∧
      (r.config.limits.maxEvidencePerComparison ≤ (r.bucket key).length ∨
        (r.bucket key).any (·.id = e.id) = false ∧
          ∃ store, r.store = some store ∧ store.Refuses (Codec.encodeEvidence e))

theorem validate_of_screened {r : ObservatoryRuntime} {e : ObservedPathEvidence}
    (h : r.screenEvidence e = .ok ()) : e.validate r.config.limits = .ok () := by
  unfold screenEvidence at h
  split at h
  · cases h
  · assumption

theorem incarnation_valid_of_screened {r : ObservatoryRuntime} {e : ObservedPathEvidence}
    (h : r.screenEvidence e = .ok ()) : e.incarnation.valid = true := by
  have hvalid := validate_of_screened h
  unfold ObservedPathEvidence.validate at hvalid
  simp only [↓require_bind_eq_ok] at hvalid
  exact hvalid.2.1

/-- Everything an offer of evidence can do: be refused at the screen, be refused as
a replay, or pass the ledger. -/
theorem ingestEvidence_cases (r : ObservatoryRuntime) (e : ObservedPathEvidence) :
    (∃ refused, r.screenEvidence e = .error refused ∧ r.ingestEvidence e = (refused,r)) ∨
    (r.screenEvidence e = .ok () ∧ r.Replays e ∧ (r.ingestEvidence e).1.replay = true ∧
      (r.ingestEvidence e).2 =
        { r with ledger := (r.ledger.observe ⟨e.source,e.incarnation,e.sequence⟩).2 }) ∨
    (r.screenEvidence e = .ok () ∧ ¬ r.Replays e ∧
      (r.ledger.observe ⟨e.source,e.incarnation,e.sequence⟩).2 ≠ r.ledger ∧
      ∃ result : IngestResult, result.accepted = false ∧ result.replay = false ∧
        r.ingestEvidence e = (r.noteSequence e).keepEvidence result e.seal_) := by
  unfold ingestEvidence
  cases hscreen : r.screenEvidence e with
  | error refused => exact Or.inl ⟨refused,rfl,rfl⟩
  | ok _ =>
    have hvalid := incarnation_valid_of_screened hscreen
    have hreplays : (r.ledger.observe ⟨e.source,e.incarnation,e.sequence⟩).1.verdict = .replay ↔
        r.Replays e := r.ledger.observe_replay_iff hvalid
    by_cases hverdict : (r.ledger.observe ⟨e.source,e.incarnation,e.sequence⟩).1.verdict = .replay
    · refine Or.inr (Or.inl ⟨rfl,hreplays.mp hverdict,?_⟩)
      simp only [hverdict, if_true, and_self]
    · refine Or.inr (Or.inr ⟨rfl,fun h => hverdict (hreplays.mpr h),
        SourceSequenceLedger.observe_ne_of_not_replay hvalid hverdict,_,?_,?_,if_neg hverdict⟩)
      · rfl
      · rfl

theorem noteSequence_unplaceable {r : ObservatoryRuntime} {e f : ObservedPathEvidence} :
    (r.noteSequence e).Unplaceable f ↔ r.Unplaceable f := by
  obtain ⟨gaps,hframe⟩ := r.noteSequence_frame e
  rw [hframe]
  exact Iff.rfl

/-- Whether a record can be placed is decided by the one bucket it belongs to. -/
theorem unplaceable_iff {r : ObservatoryRuntime} {e : ObservedPathEvidence} {key : SubjectKey}
    (hkey : r.resolveSubject e = .ok key) :
    r.Unplaceable e ↔
      r.config.limits.maxEvidencePerComparison ≤ (r.bucket key).length ∨
        (r.bucket key).any (·.id = e.id) = false ∧
          ∃ error, ((r.setBucket key (r.bucket key)).persistRecord .evidence
            (Codec.encodeEvidence e)).1 = .error error := by
  rw [persistRecord_eq_error_iff]
  constructor
  · rintro (⟨error,herror⟩ | ⟨other,hother,h⟩)
    · rw [hkey] at herror
      cases herror
    · obtain rfl := Except.ok.inj (hkey.symm.trans hother)
      exact h
  · exact fun h => Or.inr ⟨key,hkey,h⟩

/-- A record that passed the ledger is refused exactly when it cannot be placed;
the ledger stays as it is. -/
theorem keepEvidence_refused_iff {r : ObservatoryRuntime} {result : IngestResult}
    {e : ObservedPathEvidence} (hresult : result.accepted = false) :
    ((r.keepEvidence result e).1.accepted = false ↔ r.Unplaceable e) ∧
      (r.keepEvidence result e).1.replay = result.replay ∧
      (r.keepEvidence result e).2.ledger = r.ledger := by
  rcases r.keepEvidence_cases result e with ⟨error,hkey,hkept⟩ | ⟨key,hkey,hkept⟩
  · rw [hkept]
    exact ⟨⟨fun _ => Or.inl ⟨error,hkey⟩,fun _ => hresult⟩,rfl,rfl⟩
  · rw [unplaceable_iff hkey]
    obtain ⟨store,hframe⟩ := (r.setBucket key (r.bucket key)).persistRecord_frame .evidence
      (Codec.encodeEvidence e)
    rcases hkept with ⟨hfull,hkept⟩ | ⟨hroom,hduplicate,hkept⟩ |
      ⟨hroom,hnew,error,s,hpersist,hkept⟩ | ⟨hroom,hnew,s,hpersist,hkept⟩
    · rw [hkept]
      exact ⟨⟨fun _ => Or.inl hfull,fun _ => hresult⟩,rfl,rfl⟩
    · rw [hkept, hduplicate]
      exact ⟨by simp [hroom],rfl,rfl⟩
    · rw [hpersist] at hframe
      obtain rfl : s = { r.setBucket key (r.bucket key) with store := store } := hframe
      rw [hkept, hpersist]
      exact ⟨⟨fun _ => Or.inr ⟨hnew,error,rfl⟩,fun _ => hresult⟩,rfl,rfl⟩
    · rw [hpersist] at hframe
      obtain rfl : s = { r.setBucket key (r.bucket key) with store := store } := hframe
      rw [hkept, hpersist]
      exact ⟨by simp [hroom],rfl,rfl⟩

/-- Refused evidence leaves no trace exactly when it was not the lack of a place
that made a new record fail. -/
theorem refused_evidence_untraced_iff (r : ObservatoryRuntime) (e : ObservedPathEvidence) :
    ((r.ingestEvidence e).1.accepted = false → (r.ingestEvidence e).1.replay = false →
      (r.ingestEvidence e).2.ledger = r.ledger ∧
      (r.ingestEvidence e).2.sourceHasGap = r.sourceHasGap ∧
      (r.ingestEvidence e).2.evidence = r.evidence) ↔
    ¬ (r.screenEvidence e = .ok () ∧ ¬ r.Replays e ∧ r.Unplaceable e.seal_) := by
  rcases r.ingestEvidence_cases e with ⟨refused,hscreen,hresult⟩ | ⟨-,hreplays,hreplay,-⟩ |
    ⟨hscreen,hnews,hmoved,result,haccepted,hreplay,hresult⟩
  · rw [hresult, hscreen]
    constructor
    · rintro - ⟨h,-⟩
      cases h
    · exact fun _ _ _ => ⟨rfl,rfl,rfl⟩
  · rw [hreplay]
    constructor
    · exact fun _ h => h.2.1 hreplays
    · intro _ _ h
      cases h
  · obtain ⟨hrefused,hsame,hledger⟩ := @keepEvidence_refused_iff (r.noteSequence e) result e.seal_
      haccepted
    obtain ⟨gaps,hframe⟩ := r.noteSequence_frame e
    have hnoted : (r.noteSequence e).ledger =
        (r.ledger.observe ⟨e.source,e.incarnation,e.sequence⟩).2 := by rw [hframe]
    rw [hresult, hsame, hrefused, noteSequence_unplaceable, hledger, hnoted]
    constructor
    · rintro h ⟨-,-,hplace⟩
      exact hmoved (h hplace hreplay).1
    · intro h hplace
      exact absurd ⟨hscreen,hnews,hplace⟩ h

/-- A runtime with one source and no plan. -/
def registeredOnly : ObservatoryRuntime :=
  (fresh {} (fun _ => ⟨0⟩) (Ranking.Sorter.insertion ranksBefore_ranksBy)).perform
    (.registerSource authoritySource)

theorem registeredOnly_reachable : Reachable registeredOnly :=
  .call (.create (create_default _ _)) _

/-- A record that names no route generation. -/
def strayEvidence : ObservedPathEvidence where
  source := ⟨1⟩
  incarnation := ⟨1⟩
  sequence := ⟨1⟩
  epoch := ⟨1⟩
  claimedIncarnation := ⟨1⟩
  revision := ⟨1⟩
  surface := .synthetic
  authority := .advisory
  receivedAt := ⟨1⟩

/-- The record is refused for want of a plan, and refused as a replay when it is
offered again. -/
theorem refused_evidence_moves_ledger :
    Reachable registeredOnly ∧
      (registeredOnly.ingestEvidence strayEvidence).1.accepted = false ∧
      (registeredOnly.ingestEvidence strayEvidence).1.replay = false ∧
      (registeredOnly.ingestEvidence strayEvidence).2.ledger ≠ registeredOnly.ledger ∧
      ((registeredOnly.ingestEvidence strayEvidence).2.ingestEvidence strayEvidence).1.replay =
        true := by
  have hentry : ((registeredOnly.ingestEvidence strayEvidence).2.ledger.entryOf ⟨1⟩).highest ≠
    (registeredOnly.ledger.entryOf ⟨1⟩).highest := by decide
  refine ⟨registeredOnly_reachable,by decide,by decide,fun h => hentry ?_,by decide⟩
  rw [h]

end ObservatoryRuntime

end PathObservatory
