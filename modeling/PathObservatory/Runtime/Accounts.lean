import PathObservatory.Library.MapTotals
import PathObservatory.Runtime.Metrics
import PathObservatory.Runtime.FindingSteps

/-! # The counters tell the truth

Over any run of a runtime the accepted offers are the records its buckets gained, the
rejected ones those that were not answered with an acceptance, the outcomes add up to the
comparisons, and the records recovered and appended are the records of the store.
-/
namespace PathObservatory
open PersistentStore

namespace ObservatoryRuntime
variable {r s : ObservatoryRuntime} {m n : MetricsSnapshot}

/-- The records in all buckets. -/
def evidenceRecords (r : ObservatoryRuntime) : ℕ := MapTotals.total List.length r.evidence

theorem evidenceRecords_setBucket (r : ObservatoryRuntime) (key : SubjectKey)
    (records : List ObservedPathEvidence) :
    (r.setBucket key records).evidenceRecords + (r.bucket key).length =
      r.evidenceRecords + records.length := by
  have htotal := MapTotals.total_insert List.length r.evidence key records
  have hheld : (r.bucket key).length = (r.evidence[key]?).elim 0 List.length := by
    unfold bucket
    cases r.evidence[key]? <;> rfl
  rw [hheld]
  exact htotal

theorem evidenceRecords_setBucket_self (r : ObservatoryRuntime) (key : SubjectKey) :
    (r.setBucket key (r.bucket key)).evidenceRecords = r.evidenceRecords := by
  have htotal := r.evidenceRecords_setBucket key (r.bucket key)
  omega

/-- One more record is in the bucket. -/
theorem evidenceRecords_concat {key : SubjectKey} (hbucket : s.bucket key = r.bucket key)
    (hrecords : s.evidenceRecords = r.evidenceRecords) (e : ObservedPathEvidence) :
    (s.setBucket key (r.bucket key ++ [e])).evidenceRecords = r.evidenceRecords + 1 := by
  have htotal := s.evidenceRecords_setBucket key (r.bucket key ++ [e])
  rw [List.length_append, List.length_singleton, hbucket] at htotal
  omega

theorem evidenceRecords_markGap (r : ObservatoryRuntime) (source : SourceId)
    (verdict : SourceSequenceLedger.Verdict) :
    (r.markGap source verdict).evidenceRecords = r.evidenceRecords := by
  cases verdict <;> rfl

/-- Nothing was counted of an offer. -/
structure SameOffers (m n : MetricsSnapshot) : Prop where
  offered : n.evidenceOffered = m.evidenceOffered
  accepted : n.evidenceAccepted = m.evidenceAccepted
  rejected : n.evidenceRejected = m.evidenceRejected

theorem countRecord_sameOffers (r : ObservatoryRuntime) (type : RecordType)
    (payload : ByteString) (m : MetricsSnapshot) : SameOffers m (r.countRecord type payload m) := by
  unfold countRecord
  split
  · exact ⟨rfl,rfl,rfl⟩
  · split <;> exact ⟨rfl,rfl,rfl⟩

theorem sameOffers_counts (m : MetricsSnapshot) : Counts fun _ n => SameOffers m n where
  record r type payload n h := by
    have hsame := r.countRecord_sameOffers type payload n
    exact ⟨hsame.offered.trans h.offered,hsame.accepted.trans h.accepted,
      hsame.rejected.trans h.rejected⟩
  compared _ n outcome h := by
    cases outcome <;> exact ⟨h.offered,h.accepted,h.rejected⟩
  recorded _ n h := ⟨h.offered,h.accepted,h.rejected⟩
  resolved _ n _ h := ⟨h.offered,h.accepted,h.rejected⟩

/-- How requests of which so many were accepted move the counters of offers and the buckets. -/
structure Offered (r s : ObservatoryRuntime) (accepted : ℕ) (m n : MetricsSnapshot) : Prop where
  kept : n.evidenceAccepted + UInt64.ofNat r.evidenceRecords =
    m.evidenceAccepted + UInt64.ofNat s.evidenceRecords
  answered : n.evidenceOffered + m.evidenceRejected =
    m.evidenceOffered + n.evidenceRejected + UInt64.ofNat accepted

namespace Offered

theorem refl (r : ObservatoryRuntime) (m : MetricsSnapshot) : Offered r r 0 m m where
  kept := rfl
  answered := by
    have hnone : UInt64.ofNat 0 = 0 := rfl
    rw [hnone]
    grind

theorem trans {a b : ℕ} {t : ObservatoryRuntime} {o : MetricsSnapshot} (h : Offered r s a m n)
    (k : Offered s t b n o) : Offered r t (a + b) m o where
  kept := by
    have hfirst := h.kept
    have hsecond := k.kept
    grind
  answered := by
    have hsum : UInt64.ofNat (a + b) = UInt64.ofNat a + UInt64.ofNat b := UInt64.ofNat_add ..
    have hfirst := h.answered
    have hsecond := k.answered
    rw [hsum]
    grind

/-- Nothing is counted of what the store refuses, nor of another request. -/
theorem uncounted (h : SameOffers m n) (hsame : s.evidenceRecords = r.evidenceRecords) :
    Offered r s 0 m n where
  kept := by rw [h.accepted, hsame]
  answered := by
    have hnone : UInt64.ofNat 0 = 0 := rfl
    rw [h.offered, h.rejected, hnone]
    grind

theorem rejected (hsame : s.evidenceRecords = r.evidenceRecords)
    (haccepted : n.evidenceAccepted = m.evidenceAccepted)
    (hoffered : n.evidenceOffered = m.evidenceOffered + 1)
    (hrejected : n.evidenceRejected = m.evidenceRejected + 1) : Offered r s 0 m n where
  kept := by rw [haccepted, hsame]
  answered := by
    have hnone : UInt64.ofNat 0 = 0 := rfl
    rw [hoffered, hrejected, hnone]
    grind

theorem repeated (hsame : s.evidenceRecords = r.evidenceRecords) :
    Offered r s 1 m (m.addEvidenceOffered 1) where
  kept := by
    rw [hsame]
    rfl
  answered := by
    have hone : UInt64.ofNat 1 = 1 := rfl
    rw [hone]
    simp only [MetricsSnapshot.addEvidenceOffered]
    grind

theorem accepted (h : SameOffers m n) (hmore : s.evidenceRecords = r.evidenceRecords + 1) :
    Offered r s 1 m ((n.addEvidenceOffered 1).addEvidenceAccepted 1) where
  kept := by
    have hone : UInt64.ofNat (r.evidenceRecords + 1) = UInt64.ofNat r.evidenceRecords + 1 :=
      UInt64.ofNat_add ..
    simp only [MetricsSnapshot.addEvidenceOffered, MetricsSnapshot.addEvidenceAccepted]
    rw [hmore, hone, h.accepted]
    grind
  answered := by
    have hone : UInt64.ofNat 1 = 1 := rfl
    simp only [MetricsSnapshot.addEvidenceOffered, MetricsSnapshot.addEvidenceAccepted]
    rw [hone, h.offered, h.rejected]
    grind

/-- Only these counters and the number of records matter. -/
theorem of_same {accepted : ℕ} {marked : ObservatoryRuntime} {noted : MetricsSnapshot}
    (h : Offered marked s accepted noted n)
    (hrecords : marked.evidenceRecords = r.evidenceRecords) (hsame : SameOffers m noted) :
    Offered r s accepted m n where
  kept := by
    rw [← hrecords, ← hsame.accepted]
    exact h.kept
  answered := by
    rw [← hsame.offered, ← hsame.rejected]
    exact h.answered

end Offered

theorem countKept_offered (r : ObservatoryRuntime) {result : IngestResult}
    (hresult : result.accepted = false) (e : ObservedPathEvidence) (m : MetricsSnapshot) :
    Offered r (r.keepEvidence result e).2 (r.keepEvidence result e).1.accepted.toNat m
      (r.countKept e m) := by
  unfold countKept
  rcases r.keepEvidence_cases result e with ⟨error,hkey,hkept⟩ | ⟨key,hkey,hkept⟩
  · rw [hkept, hkey]
    exact hresult ▸ .rejected rfl rfl rfl rfl
  · rw [hkey]
    dsimp only
    have hsame := r.evidenceRecords_setBucket_self key
    have hstatus := (persistRecord_congr (r := r) (s := r.setBucket key (r.bucket key)) rfl
      .evidence (Codec.encodeEvidence e)).1
    obtain ⟨store,hframe⟩ := (r.setBucket key (r.bucket key)).persistRecord_frame .evidence
      (Codec.encodeEvidence e)
    have hcounted := r.countRecord_sameOffers .evidence (Codec.encodeEvidence e) m
    rcases hkept with ⟨hfull,hkept⟩ | ⟨hroom,hagain,hkept⟩ | ⟨hroom,hnew,error,s,hpersist,hkept⟩ |
      ⟨hroom,hnew,s,hpersist,hkept⟩
    · rw [hkept, if_pos hfull]
      exact hresult ▸ .rejected hsame rfl rfl rfl
    · rw [hkept, if_neg (not_le.mpr hroom), if_pos hagain]
      exact .repeated hsame
    · rw [hpersist] at hstatus hframe
      rw [hkept, if_neg (not_le.mpr hroom), if_neg (by simp [hnew]), ← hstatus]
      obtain rfl : s = { r.setBucket key (r.bucket key) with store := store } := hframe
      exact hresult ▸ .uncounted hcounted hsame
    · rw [hpersist] at hstatus hframe
      rw [hkept, if_neg (not_le.mpr hroom), if_neg (by simp [hnew]), ← hstatus]
      obtain rfl : s = { r.setBucket key (r.bucket key) with store := store } := hframe
      refine .accepted hcounted (evidenceRecords_concat ?_ hsame e)
      exact congrFun (r.bucket_setBucket_self key) key

theorem screenEvidence_refuses {e : ObservedPathEvidence} {refused : IngestResult}
    (h : r.screenEvidence e = .error refused) : refused.accepted = false := by
  unfold screenEvidence at h
  split at h
  · rw [← Except.error.inj h]
  · split at h
    · rw [← Except.error.inj h]
    · split_ifs at h
      · rw [← Except.error.inj h]
      · rw [← Except.error.inj h]

theorem countRefused_offered (r : ObservatoryRuntime) (e : ObservedPathEvidence)
    (m : MetricsSnapshot) : Offered r r 0 m (r.countRefused e m) := by
  unfold countRefused
  dsimp only
  split
  · exact .rejected rfl rfl rfl rfl
  · exact .rejected rfl rfl rfl rfl

theorem countEvidence_offered (r : ObservatoryRuntime) (e : ObservedPathEvidence)
    (m : MetricsSnapshot) :
    Offered r (r.ingestEvidence e).2 (r.ingestEvidence e).1.accepted.toNat m
      (r.countEvidence e m) := by
  unfold ingestEvidence countEvidence
  cases hscreen : r.screenEvidence e with
  | error refused =>
    dsimp only
    rw [screenEvidence_refuses hscreen]
    exact r.countRefused_offered e m
  | ok _ =>
    dsimp only
    split_ifs with hreplay hgap
    · exact .rejected rfl rfl rfl rfl
    · exact (countKept_offered _ rfl _ _).of_same (evidenceRecords_markGap ..) ⟨rfl,rfl,rfl⟩
    · exact (countKept_offered _ rfl _ _).of_same (evidenceRecords_markGap ..) ⟨rfl,rfl,rfl⟩

/-- Whether the request was an offer that is answered with an acceptance. -/
def accepts (r : ObservatoryRuntime) : Call → Bool
  | .ingestEvidence e => (r.ingestEvidence e).1.accepted
  | _ => false

/-- How many of the requests were. -/
def acceptedAnswers (r : ObservatoryRuntime) : List Call → ℕ
  | [] => 0
  | call :: rest => (r.accepts call).toNat + (r.perform call).acceptedAnswers rest

theorem perform_offered (r : ObservatoryRuntime) (m : MetricsSnapshot) (call : Call) :
    Offered r (r.perform call) (r.accepts call).toNat m (r.count m call) := by
  by_cases hevidence : ∃ e, call = .ingestEvidence e
  · obtain ⟨e,rfl⟩ := hevidence
    exact r.countEvidence_offered e m
  · have hother : ∀ e, call ≠ .ingestEvidence e := fun e heq => hevidence ⟨e,heq⟩
    have hrecords : (r.perform call).evidenceRecords = r.evidenceRecords := by
      rw [evidenceRecords, (r.perform_sameObserved hother).evidence, evidenceRecords]
    have haccepts : r.accepts call = false := by
      cases call with
      | ingestEvidence e => exact absurd rfl (hother e)
      | _ => rfl
    rw [haccepts]
    by_cases hstop : call = .stop
    · subst hstop
      exact .uncounted ⟨rfl,rfl,rfl⟩ hrecords
    · have hsame := (sameOffers_counts m).perform (r := r) ⟨rfl,rfl,rfl⟩ hother hstop
      exact .uncounted hsame hrecords

/-- Every comparison had one of the outcomes. -/
def Tallied (m : MetricsSnapshot) : Prop :=
  m.comparisons =
    m.matches_ + m.divergences + m.indeterminate + m.unsupported + m.noExpectedState

theorem tallied_counts : CountsOffers fun _ n => Tallied n where
  record r type payload n h := by
    unfold countRecord
    split
    · exact h
    · split <;> exact h
  compared _ n outcome h := by
    unfold Tallied at h
    cases outcome
    all_goals
      simp only [Tallied, MetricsSnapshot.addComparison]
      grind
  recorded _ _ h := h
  resolved _ _ _ h := h
  offered _ _ h := h
  accepted _ _ h := h
  rejected _ _ h := h
  unregistered _ _ h := h
  replayed _ _ h := h
  gap _ _ h := h

/-- The store keeps as many records as were recovered and appended. -/
def Recorded (limits : Limits) (store : Option PersistentStore) (m : MetricsSnapshot) : Prop :=
  ∃ records, Stored limits store records ∧
    m.storeRecordsRecovered + m.storeAppends = UInt64.ofNat records.length

theorem recorded_counts {limits : Limits} (hlimits : limits.maxStoreRecordBytes < 2 ^ 32) :
    CountsOffers (Recorded limits) where
  record r type payload n h := by
    obtain ⟨records,⟨store,hstore,hretains⟩,hlength⟩ := h
    unfold persistRecord countRecord
    rw [hstore]
    rcases hretains.append_cases hlimits type payload with ⟨e,herror⟩ | ⟨hok,happended⟩
    · simp only [herror]
      exact ⟨records,⟨store,rfl,hretains⟩,hlength⟩
    · simp only [hok]
      refine ⟨_,⟨_,rfl,happended⟩,?_⟩
      have hmore : UInt64.ofNat (records.length + 1) = UInt64.ofNat records.length + 1 :=
        UInt64.ofNat_add ..
      simp only [MetricsSnapshot.addStoreAppend]
      rw [List.length_append, List.length_singleton, hmore, ← hlength]
      grind
  compared store n outcome h := by
    cases outcome <;> exact h
  recorded _ _ h := h
  resolved _ _ _ h := h
  offered _ _ h := h
  accepted _ _ h := h
  rejected _ _ h := h
  unregistered _ _ h := h
  replayed _ _ h := h
  gap _ _ h := h

theorem Recorded.markClean {limits : Limits} (store : PersistentStore) (now : TimePoint)
    (m : MetricsSnapshot) (h : Recorded limits (some store) m) :
    Recorded limits (some (store.markClean now).2) m := by
  obtain ⟨records,⟨kept,hkept,hretains⟩,hlength⟩ := h
  obtain rfl := Option.some.inj hkept
  exact ⟨records,⟨_,rfl,hretains.markClean now⟩,hlength⟩

end ObservatoryRuntime

namespace MeteredRuntime
open ObservatoryRuntime

/-- So a whole run moves the counters of offers and the buckets. -/
theorem performAll_offered (s : MeteredRuntime) (calls : List Call) :
    Offered s.runtime (calls.foldl perform s).runtime (s.runtime.acceptedAnswers calls) s.metrics
      (calls.foldl perform s).metrics := by
  induction calls generalizing s with
  | nil => exact .refl s.runtime s.metrics
  | cons call rest ih => exact (s.runtime.perform_offered s.metrics call).trans (ih (s.perform call))

theorem performAll_tallied (s : MeteredRuntime) (calls : List Call) (h : Tallied s.metrics) :
    Tallied (calls.foldl perform s).metrics := by
  induction calls generalizing s with
  | nil => exact h
  | cons call rest ih =>
    exact ih (s.perform call) (tallied_counts.perform (r := s.runtime) (fun _ _ _ => id) h call)

theorem performAll_recorded {limits : Limits} (hlimits : limits.maxStoreRecordBytes < 2 ^ 32)
    (s : MeteredRuntime) (calls : List Call) (h : Recorded limits s.runtime.store s.metrics) :
    Recorded limits (calls.foldl perform s).runtime.store (calls.foldl perform s).metrics := by
  induction calls generalizing s with
  | nil => exact h
  | cons call rest ih =>
    exact ih (s.perform call) ((recorded_counts hlimits).perform Recorded.markClean h call)

/-- A created runtime, started on a file. -/
def boot (created : ObservatoryRuntime) (content : Option ByteString) : MeteredRuntime :=
  (start { runtime := created } content).2

section Start
variable {config : RuntimeConfig} {clock : ℕ → TimePoint} {sorter : Ranking.Sorter ranksBefore}
  {created started : ObservatoryRuntime} {content after : Option ByteString}

/-- A start counts what it recovers and nothing else. -/
theorem countStart_frame (r : ObservatoryRuntime) (content : Option ByteString)
    (m : MetricsSnapshot) : ∃ recovered truncations, r.countStart content m = { m with
      storeRecordsRecovered := recovered, storeCorruptTailTruncations := truncations } := by
  unfold countStart countOpened
  split_ifs
  · exact ⟨_,_,rfl⟩
  · exact ⟨_,_,rfl⟩
  · split
    · exact ⟨_,_,rfl⟩
    · dsimp only
      split_ifs <;> exact ⟨_,_,rfl⟩
  · exact ⟨_,_,rfl⟩

/-- The records that a start finds in the store are those it counts as recovered. -/
theorem recorded_of_open {path : String} {limits : Limits} {now : TimePoint}
    {store : PersistentStore} (hopen : (open_ path { limits := limits } now content).1 = .ok store)
    {m : MetricsSnapshot} (happends : m.storeAppends = 0)
    (hrecovered : m.storeRecordsRecovered = 0 + UInt64.ofNat store.recovery.validRecords) :
    Recorded limits (some store) m := by
  obtain ⟨-,records,hretains⟩ := retains_of_open hopen
  obtain ⟨first,hkeeps⟩ := hretains.keeps
  have hcount : store.recovery.validRecords = store.recordCount := by
    obtain ⟨-,header,found,-,-,rfl⟩ := open_eq_ok hopen
    rfl
  refine ⟨records,⟨store,rfl,hretains⟩,?_⟩
  rw [happends, hrecovered, hcount, hkeeps.count]
  grind

theorem boot_recorded (hcreate : create config (some clock) sorter = .ok created)
    (hstart : created.start content = (.ok (),started,after)) (hpersist : config.persist = true) :
    Recorded config.limits (boot created content).runtime.store (boot created content).metrics := by
  obtain ⟨⟨hlimits,-,-⟩,rfl⟩ := create_eq_ok.mp hcreate
  obtain ⟨hthreads,-⟩ := checks_of_start hlimits hstart
  obtain ⟨store,hopen,hstore⟩ : ∃ store, (open_ config.storePath { limits := config.limits }
      (clock 0) content).1 = .ok store ∧ started.store = some store := by
    rcases start_store_of_persist (r := fresh config clock sorter) hpersist content with
      ⟨⟨e,herror⟩,-⟩ | hopened
    · rw [hstart] at herror
      cases herror
    · rwa [hstart] at hopened
  have hruntime : (boot (fresh config clock sorter) content).runtime = started :=
    congrArg (fun answer => answer.2.1) hstart
  have hbad : ¬ ((fresh config clock sorter).threads = 0 ∨
      (fresh config clock sorter).config.limits.maxWorkerThreads <
        (fresh config clock sorter).threads) := hthreads
  have hcounted : (boot (fresh config clock sorter) content).metrics =
      (fresh config clock sorter).countOpened content {} := by
    change (fresh config clock sorter).countStart content {} = _
    unfold countStart
    rw [if_neg (by simp [fresh]), if_neg hbad]
    exact if_pos hpersist
  rw [hruntime, hstore, hcounted]
  unfold countOpened
  have hopened : (open_ (fresh config clock sorter).config.storePath
      (fresh config clock sorter).storeOptions (fresh config clock sorter).now content).1 =
        .ok store := hopen
  rw [hopened]
  dsimp only
  split_ifs
  · exact recorded_of_open hopen rfl rfl
  · exact recorded_of_open hopen rfl rfl

/-- After any requests to a runtime that was started on any file, its report is true: the
accepted offers are the records that its buckets have gained, all offers counted are those
rejected and those answered with an acceptance, the comparisons are those of each outcome
together, and the store holds the records recovered and appended. -/
theorem counters_add_up (hcreate : create config (some clock) sorter = .ok created)
    (hstart : created.start content = (.ok (),started,after)) (calls : List Call) :
    let booted := boot created content
    let s := calls.foldl perform booted
    s.metrics.evidenceAccepted + UInt64.ofNat (booted.stats 0).evidenceRecords =
        UInt64.ofNat (s.stats 0).evidenceRecords ∧
      s.metrics.evidenceOffered =
        s.metrics.evidenceRejected + UInt64.ofNat (started.acceptedAnswers calls) ∧
      s.metrics.comparisons = s.metrics.matches_ + s.metrics.divergences +
        s.metrics.indeterminate + s.metrics.unsupported + s.metrics.noExpectedState ∧
      (config.persist = true → ∃ store records, s.runtime.store = some store ∧
        store.readAll = .ok records ∧
          s.metrics.storeRecordsRecovered + s.metrics.storeAppends =
            UInt64.ofNat records.length) := by
  intro booted s
  obtain ⟨recovered,truncations,hframe⟩ := countStart_frame created content {}
  have hmetrics : booted.metrics = {
      storeRecordsRecovered := recovered
      storeCorruptTailTruncations := truncations } := hframe
  have hruntime : booted.runtime = started := congrArg (fun answer => answer.2.1) hstart
  have hoffered := booted.performAll_offered calls
  have hkept := hoffered.kept
  have hanswered := hoffered.answered
  rw [hruntime, hmetrics] at hanswered
  refine ⟨?_,?_,?_,fun hpersist => ?_⟩
  · rw [hmetrics] at hkept
    have hsame : (0 : UInt64) + UInt64.ofNat s.runtime.evidenceRecords =
        UInt64.ofNat s.runtime.evidenceRecords := by grind
    exact hkept.trans hsame
  · have hzero : s.metrics.evidenceOffered + 0 = 0 + s.metrics.evidenceRejected +
        UInt64.ofNat (started.acceptedAnswers calls) := hanswered
    grind
  · have htallied : Tallied booted.metrics := by
      rw [hmetrics]
      rfl
    exact booted.performAll_tallied calls htallied
  · obtain ⟨⟨hlimits,-,-⟩,-⟩ := create_eq_ok.mp hcreate
    have hbytes := (Limits.lt_of_validate hlimits).2.2.2.2
    obtain ⟨records,⟨store,hstore,hretains⟩,hlength⟩ :=
      booted.performAll_recorded hbytes calls (boot_recorded hcreate hstart hpersist)
    exact ⟨store,records,hstore,hretains.readAll,hlength⟩

end Start

/-- A source is registered, an offer without a subject is refused, and the runtime stops. -/
def registeredAndStopped : MeteredRuntime :=
  [Call.registerSource authoritySource,.ingestEvidence strayEvidence,.stop].foldl perform
    (boot createdPersistent none)

theorem refused_offer_counted :
    registeredAndStopped.metrics.evidenceOffered = registeredAndStopped.metrics.evidenceRejected ∧
      ∃ store records, registeredAndStopped.runtime.store = some store ∧
        store.readAll = .ok records ∧ UInt64.ofNat records.length = 1 := by
  have hok : (createdPersistent.start none).1 = .ok () := by decide
  obtain ⟨-,hoffered,-,hstored⟩ := counters_add_up create_persistent
    (Prod.ext hok rfl : createdPersistent.start none = (.ok (),bootedPersistent,_))
    [.registerSource authoritySource,.ingestEvidence strayEvidence,.stop]
  have haccepted : UInt64.ofNat (bootedPersistent.acceptedAnswers
      [.registerSource authoritySource,.ingestEvidence strayEvidence,.stop]) = 0 := by
    decide +kernel
  have hcounted : registeredAndStopped.metrics.storeRecordsRecovered +
      registeredAndStopped.metrics.storeAppends = 1 := by
    decide +kernel
  obtain ⟨store,records,hstore,hread,hlength⟩ := hstored rfl
  refine ⟨?_,store,records,hstore,hread,hlength.symm.trans hcounted⟩
  rw [haccepted] at hoffered
  exact hoffered.trans (UInt64.add_zero _)

end MeteredRuntime

end PathObservatory
