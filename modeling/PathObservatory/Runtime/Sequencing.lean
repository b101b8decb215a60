import PathObservatory.Runtime.Buckets

/-! # What the runtime knows of its sources

Sources are registered for good. A source the ledger has an entry for once offered a
record that passed the screen, and that record is refused as a replay from then on;
only such a source can have a gap.
-/
namespace PathObservatory

namespace SourceRegistry

/-- A registration keeps what was registered. -/
theorem find_registerSource {r s : SourceRegistry} {descriptor known : SourceDescriptor}
    (h : r.registerSource descriptor = .ok s) {id : SourceId} (hknown : r.find id = .ok known) :
    s.find id = .ok known := by
  obtain ⟨_,-,hregister⟩ := bind_eq_ok.mp h
  cases hexisting : r.sources[descriptor.id]? with
  | some existing =>
    simp only [hexisting, ↓require_bind_eq_ok] at hregister
    rwa [← Except.ok.inj hregister.2]
  | none =>
    simp only [hexisting] at hregister
    rw [← Except.ok.inj hregister]
    unfold find at hknown ⊢
    rw [OrderedMap.getElem?_insert]
    split_ifs with heq
    · rw [← heq, hexisting] at hknown
      cases hknown
    · exact hknown

end SourceRegistry

namespace SourceSequenceLedger

/-- After an observation its source is of its incarnation and has reached its
sequence. -/
theorem reached_observe (ledger : SourceSequenceLedger) (call : Observation) :
    ((ledger.observe call).2.entryOf call.source).incarnation = call.incarnation ∧
      call.sequence ≤ ((ledger.observe call).2.entryOf call.source).highest := by
  rw [entryOf_observe, if_pos rfl]
  rcases Entry.observe_cases (ledger.entryOf call.source) call.incarnation call.sequence with
    ⟨-,-,hincarnation,hhighest⟩ | ⟨-,-,hle,-,hincarnation,hhighest⟩ |
    ⟨-,-,-,-,hincarnation,hhighest⟩
  · exact ⟨hincarnation,hhighest.ge⟩
  · exact ⟨hincarnation,hle.trans hhighest.ge⟩
  · exact ⟨hincarnation,hhighest.ge⟩

end SourceSequenceLedger

namespace ObservatoryRuntime
variable {r s t : ObservatoryRuntime}

/-- Every source registered before is registered after. -/
def KnowsSources (r s : ObservatoryRuntime) : Prop :=
  ∀ id known, r.sources.find id = .ok known → s.sources.find id = .ok known

theorem KnowsSources.of_eq (h : s.sources = r.sources) : r.KnowsSources s :=
  fun _ _ hknown => h ▸ hknown

theorem KnowsSources.trans (h : r.KnowsSources s) (k : s.KnowsSources t) : r.KnowsSources t :=
  fun id known hknown => k id known (h id known hknown)

theorem SameSubject.knowsSources (h : SameSubject r s) : r.KnowsSources s := by
  obtain ⟨_,_,_,_,_,rfl⟩ := h
  exact .of_eq rfl

theorem registerSource_knowsSources (r : ObservatoryRuntime) (descriptor : SourceDescriptor) :
    r.KnowsSources (r.registerSource descriptor).2 := by
  obtain ⟨store,hstore⟩ := r.persistRecord_frame .source (Codec.encodeSource descriptor)
  rcases r.registerSource_cases descriptor with ⟨e,s,hpersist,hresult⟩ |
    ⟨s,hpersist,⟨e,-,hresult⟩ | ⟨sources,hregister,hresult⟩⟩
  · rw [hpersist] at hstore
    obtain rfl : s = { r with store := store } := hstore
    rw [hresult]
    exact .of_eq rfl
  · rw [hpersist] at hstore
    obtain rfl : s = { r with store := store } := hstore
    rw [hresult]
    exact .of_eq rfl
  · rw [hpersist] at hstore
    obtain rfl : s = { r with store := store } := hstore
    rw [hresult]
    exact fun id known hknown => SourceRegistry.find_registerSource hregister hknown

theorem perform_knowsSources (r : ObservatoryRuntime) (call : Call) :
    r.KnowsSources (r.perform call) := by
  cases call with
  | registerSource descriptor => exact r.registerSource_knowsSources descriptor
  | publishTopology g =>
    rcases r.publishTopology_frame g with hsame | ⟨admitted,index,store,-,-,-,hframe⟩
    · rw [perform, hsame]
      exact .of_eq rfl
    · rw [perform, hframe]
      exact .of_eq rfl
  | publishRoutes g =>
    rcases r.publishRoutes_frame g with hsame | ⟨admitted,store,-,-,hframe⟩
    · rw [perform, hsame]
      exact .of_eq rfl
    · rw [perform, hframe]
      exact .of_eq rfl
  | ingestEvidence e =>
    obtain ⟨ledger,gaps,evidence,store,hframe⟩ := r.ingestEvidence_frame e
    rw [perform, hframe]
    exact .of_eq rfl
  | compareGroup group => exact (r.compareGroup_sameSubject group).knowsSources
  | comparePath path => exact (r.comparePath_sameSubject path).knowsSources
  | compareAll => exact (r.compareKeys_sameSubject _).knowsSources
  | acknowledgeFinding id => exact (r.acknowledgeFinding_sameSubject id).knowsSources
  | pruneHistory => exact r.pruneHistory_sameSubject.knowsSources
  | flush => exact r.flush_sameSubject.knowsSources
  | stop => exact r.stop_sameSubject.knowsSources

theorem restoreRecord_knowsSources {record : StoredRecord} (h : r.restoreRecord record = .ok s) :
    r.KnowsSources s := by
  unfold restoreRecord at h
  cases htype : record.type with
  | evidence =>
    rw [htype] at h
    obtain ⟨e,-,h⟩ := bind_eq_ok.mp h
    obtain ⟨evidence,hframe⟩ := r.restoreEvidence_frame e
    rw [← Except.ok.inj h, hframe]
    exact .of_eq rfl
  | comparison =>
    rw [htype] at h
    obtain ⟨comparison,-,h⟩ := bind_eq_ok.mp h
    rw [← Except.ok.inj h]
    exact .of_eq rfl
  | finding =>
    rw [htype] at h
    obtain ⟨finding,-,h⟩ := bind_eq_ok.mp h
    obtain ⟨findings,-,h⟩ := bind_eq_ok.mp h
    rw [← Except.ok.inj h]
    exact .of_eq rfl
  | source =>
    rw [htype] at h
    obtain ⟨descriptor,-,h⟩ := bind_eq_ok.mp h
    obtain ⟨sources,hregister,h⟩ := bind_eq_ok.mp h
    rw [← Except.ok.inj h]
    exact fun id known hknown => SourceRegistry.find_registerSource hregister hknown
  | topologyGeneration | routeGeneration | marker =>
    rw [htype] at h
    rw [← Except.ok.inj h]
    exact .of_eq rfl

theorem restoreRecords_knowsSources (r : ObservatoryRuntime) (records : List StoredRecord) :
    r.KnowsSources (r.restoreRecords records).2 := by
  induction records generalizing r with
  | nil => exact .of_eq rfl
  | cons record rest ih =>
    rw [restoreRecords]
    cases hrecord : r.restoreRecord record with
    | error e => exact .of_eq rfl
    | ok s => exact (restoreRecord_knowsSources hrecord).trans (ih s)

theorem recover_knowsSources (r : ObservatoryRuntime) (content : Option ByteString) :
    r.KnowsSources (r.recover content).2.1 := by
  unfold recover
  split
  · exact .of_eq rfl
  · rename_i store _ _
    split_ifs
    · unfold restoreFromStore opened
      simp only
      split
      · exact .of_eq rfl
      · exact restoreRecords_knowsSources { r.tick with store := some store } _
    · exact .of_eq rfl

theorem start_knowsSources (r : ObservatoryRuntime) (content : Option ByteString) :
    r.KnowsSources (r.start content).2.1 := by
  have hrecover := r.recover_knowsSources content
  unfold start
  split_ifs
  · exact .of_eq rfl
  · exact .of_eq rfl
  · exact .of_eq rfl
  · split
    · rename_i hresult
      rw [hresult] at hrecover
      exact hrecover
    · rename_i hresult
      rw [hresult] at hrecover
      exact hrecover
  · exact .of_eq rfl

/-- A start leaves the ledger and the gap marks alone. -/
theorem start_sequences (r : ObservatoryRuntime) (content : Option ByteString) :
    (r.start content).2.1.config = r.config ∧ (r.start content).2.1.ledger = r.ledger ∧
      (r.start content).2.1.sourceHasGap = r.sourceHasGap := by
  obtain ⟨_,_,_,_,_,_,_,⟨-,hframe⟩ | ⟨-,hframe⟩⟩ := r.start_frame content
  · rw [hframe]
    exact ⟨rfl,rfl,rfl⟩
  · rw [hframe]
    exact ⟨rfl,rfl,rfl⟩

/-- A record that passed the screen passes it from then on. -/
theorem screenEvidence_of_knowsSources {e : ObservedPathEvidence} (hconfig : s.config = r.config)
    (h : r.KnowsSources s) (hscreened : r.screenEvidence e = .ok ()) :
    s.screenEvidence e = .ok () := by
  unfold screenEvidence at hscreened ⊢
  rw [hconfig]
  split at hscreened
  · cases hscreened
  · split at hscreened
    · cases hscreened
    · rename_i descriptor hfind
      simp only [h _ _ hfind]
      exact hscreened

theorem replay_of_screenEvidence {e : ObservedPathEvidence} {refused : IngestResult}
    (h : r.screenEvidence e = .error refused) : refused.replay = false := by
  unfold screenEvidence at h
  split at h
  · rw [← Except.error.inj h]
  · split at h
    · rw [← Except.error.inj h]
    · split_ifs at h
      · rw [← Except.error.inj h]
      · rw [← Except.error.inj h]

/-- A record is refused as a replay when it passes the screen and the entry of its
source has reached it. -/
theorem ingestEvidence_replay_iff (r : ObservatoryRuntime) (e : ObservedPathEvidence) :
    (r.ingestEvidence e).1.replay = true ↔ r.screenEvidence e = .ok () ∧ r.Replays e := by
  rcases r.ingestEvidence_cases e with ⟨refused,hscreen,hresult⟩ | ⟨hscreen,hreplays,hreplay,-⟩ |
    ⟨hscreen,hnews,-,result,haccepted,hreplay,hresult⟩
  · rw [hresult, hscreen, replay_of_screenEvidence hscreen]
    simp
  · exact ⟨fun _ => ⟨hscreen,hreplays⟩,fun _ => hreplay⟩
  · have hkept := (@keepEvidence_refused_iff (r.noteSequence e) result e.seal_ haccepted).2.1
    rw [hresult, hkept, hreplay]
    exact ⟨nofun,fun h => absurd h.2 hnews⟩

/-- Only a source with an entry can have a gap, and a source with an entry offered a
record that would be refused as a replay. -/
structure Sequenced (r : ObservatoryRuntime) : Prop where
  marked : ∀ source, (r.sourceHasGap[source]?).getD false = true →
    (r.ledger.entryOf source).incarnation.valid = true
  offered : ∀ source, (r.ledger.entryOf source).incarnation.valid = true →
    ∃ e, e.source = source ∧ r.screenEvidence e = .ok () ∧ r.Replays e

theorem Sequenced.congr (h : r.Sequenced) (hconfig : s.config = r.config)
    (hledger : s.ledger = r.ledger) (hgaps : s.sourceHasGap = r.sourceHasGap)
    (hsources : r.KnowsSources s) : s.Sequenced := by
  refine ⟨fun source hmark => ?_,fun source hentry => ?_⟩
  · rw [hgaps] at hmark
    rw [hledger]
    exact h.marked source hmark
  · rw [hledger] at hentry
    obtain ⟨e,he,hscreened,hreplays⟩ := h.offered source hentry
    refine ⟨e,he,screenEvidence_of_knowsSources hconfig hsources hscreened,?_⟩
    unfold Replays
    rw [hledger]
    exact hreplays

/-- The mark of a source after a verdict on a record of the other source. -/
theorem markGap_getElem? (r : ObservatoryRuntime) (marked : SourceId)
    (verdict : SourceSequenceLedger.Verdict) (source : SourceId) :
    ((r.markGap marked verdict).sourceHasGap[source]?).getD false =
      if marked = source then verdict.gapAfter ((r.sourceHasGap[source]?).getD false)
      else (r.sourceHasGap[source]?).getD false := by
  unfold markGap
  cases verdict with
  | gap =>
    simp only [OrderedMap.getElem?_insert]
    split_ifs <;> rfl
  | newIncarnation =>
    simp only [OrderedMap.getElem?_insert]
    split_ifs <;> rfl
  | inOrder => exact (ite_self _).symm
  | replay => exact (ite_self _).symm

/-- What an offer does to the ledger and the gap marks. -/
theorem ingestEvidence_sequences (r : ObservatoryRuntime) (e : ObservedPathEvidence) :
    (∃ refused, r.screenEvidence e = .error refused ∧ r.ingestEvidence e = (refused,r)) ∨
    (r.screenEvidence e = .ok () ∧
      (r.ingestEvidence e).2.ledger = (r.ledger.observe ⟨e.source,e.incarnation,e.sequence⟩).2 ∧
      (r.ingestEvidence e).2.sourceHasGap = (r.markGap e.source
        (r.ledger.observe ⟨e.source,e.incarnation,e.sequence⟩).1.verdict).sourceHasGap) := by
  rcases r.ingestEvidence_cases e with hrefused | ⟨hscreened,hreplays,-,hresult⟩ |
    ⟨hscreened,-,-,result,-,-,hresult⟩
  · exact Or.inl hrefused
  · have hverdict : (r.ledger.observe ⟨e.source,e.incarnation,e.sequence⟩).1.verdict = .replay :=
      (r.ledger.observe_replay_iff (incarnation_valid_of_screened hscreened)).mpr hreplays
    rw [hresult, hverdict]
    exact Or.inr ⟨hscreened,rfl,rfl⟩
  · obtain ⟨evidence,store,hframe⟩ := (r.noteSequence e).keepEvidence_frame result e.seal_
    rw [hresult, hframe]
    refine Or.inr ⟨hscreened,?_,?_⟩
    · obtain ⟨gaps,hnoted⟩ := r.noteSequence_frame e
      simp only [hnoted]
    · simp only [noteSequence, markGap]
      split <;> rfl

theorem Sequenced.ingestEvidence (h : r.Sequenced) (e : ObservedPathEvidence) :
    (r.ingestEvidence e).2.Sequenced := by
  rcases r.ingestEvidence_sequences e with ⟨refused,-,hsame⟩ | ⟨hscreened,hledger,hgaps⟩
  · rwa [hsame]
  · have hconfig : (r.ingestEvidence e).2.config = r.config := r.perform_config (.ingestEvidence e)
    have hsources : r.KnowsSources (r.ingestEvidence e).2 :=
      r.perform_knowsSources (.ingestEvidence e)
    obtain ⟨hincarnation,hreached⟩ :=
      r.ledger.reached_observe ⟨e.source,e.incarnation,e.sequence⟩
    have hother : ∀ source, source ≠ e.source →
        (r.ingestEvidence e).2.ledger.entryOf source = r.ledger.entryOf source := by
      intro source hne
      rw [hledger, SourceSequenceLedger.entryOf_observe, if_neg (Ne.symm hne)]
    refine ⟨fun source hmark => ?_,fun source hentry => ?_⟩
    · by_cases heq : source = e.source
      · rw [heq, hledger, hincarnation]
        exact incarnation_valid_of_screened hscreened
      · rw [hgaps, markGap_getElem?, if_neg (Ne.symm heq)] at hmark
        rw [hother source heq]
        exact h.marked source hmark
    · by_cases heq : source = e.source
      · refine ⟨e,heq.symm,screenEvidence_of_knowsSources hconfig hsources hscreened,?_⟩
        unfold Replays
        rw [hledger]
        exact ⟨hincarnation,hreached⟩
      · rw [hother source heq] at hentry
        obtain ⟨known,rfl,hknown,hreplays⟩ := h.offered source hentry
        refine ⟨known,rfl,screenEvidence_of_knowsSources hconfig hsources hknown,?_⟩
        unfold Replays
        rw [hother known.source heq]
        exact hreplays

theorem Sequenced.perform (h : r.Sequenced) (call : Call) : (r.perform call).Sequenced := by
  by_cases hcall : ∃ e, call = .ingestEvidence e
  · obtain ⟨e,rfl⟩ := hcall
    exact h.ingestEvidence e
  · have hsame := r.perform_sameObserved (fun e heq => hcall ⟨e,heq⟩)
    exact h.congr (r.perform_config call) hsame.ledger hsame.sourceHasGap
      (r.perform_knowsSources call)

theorem Sequenced.start (h : r.Sequenced) (content : Option ByteString) :
    (r.start content).2.1.Sequenced := by
  obtain ⟨hconfig,hledger,hgaps⟩ := r.start_sequences content
  exact h.congr hconfig hledger hgaps (r.start_knowsSources content)

end ObservatoryRuntime

end PathObservatory
