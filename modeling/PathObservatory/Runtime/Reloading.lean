import PathObservatory.Foundation.ReadBack
import PathObservatory.Runtime.Rebuild

/-! # What a start has loaded

A start that succeeded has replayed every record of its store, whatever file that was,
and holds the sources and the findings that the records rebuild.
-/
namespace PathObservatory
open PersistentStore ByteReader CanonicalReader

theorem Codec.length_of_many {α : Type} {reader : CanonicalReader α} {n : ℕ}
    {input rest : ByteString} {values : List α}
    (h : (many n reader).run input = .ok (values,rest)) : values.length = n :=
  (forall_of_many (fun _ _ _ _ => trivial : ∀ input a rest,
    reader.run input = .ok (a,rest) → True) h).1

/-- Whatever the decoder returns is within its bounds and filed under its identity. -/
theorem Codec.filed_of_decodeFinding {limits : Limits} {payload : ByteString} {finding : Finding}
    (h : decodeExact (decodeFinding limits) payload = .ok finding) :
    FindingRegistry.Filed limits finding.id finding := by
  obtain ⟨⟨found,rest⟩,hrun,h⟩ := bind_eq_ok.mp h
  obtain ⟨_,-,h⟩ := bind_eq_ok.mp h
  obtain rfl : found = finding := Except.ok.inj h
  unfold decodeFinding sealedFinding at hrun
  simp only [run_bind_eq_ok, run_lift_eq_ok, require_bind_eq_ok, pure_eq_ok] at hrun
  obtain ⟨_,_,-,stored,_,-,cls,_,-,group,_,-,path,_,-,generation,_,-,topology,_,-,evidenceCount,_,
    hevidenceCount,evidence,_,hevidence,hopCount,_,hhopCount,hopIndices,_,hhops,status,_,-,
    occurrences,_,-,firstSeen,_,-,lastSeen,_,-,lastComparison,_,-,detail,_,hdetail,
    ⟨hsealed,rfl⟩,-⟩ := hrun
  refine ⟨rfl,of_decide_eq_true hsealed,?_,?_,(text_eq_ok hdetail).1⟩
  · exact (length_of_many hevidence).trans_le (count_eq_ok hevidenceCount).1
  · exact (length_of_many hhops).trans_le (count_eq_ok hhopCount).1

/-- A registry takes back what the decoder returned and stays sound. -/
theorem FindingRegistry.restore_sound {limits : Limits} {r s : FindingRegistry}
    (h : Sound limits r) {finding : Finding} (hfiled : Filed limits finding.id finding)
    (hs : r.restore finding = .ok s) : Sound limits s := by
  obtain ⟨-,⟨existing,hexisting,⟨-,rfl⟩ | ⟨-,rfl⟩⟩ | ⟨-,hroom,rfl⟩⟩ := restore_cases hs
  · exact h.insert hfiled (Or.inl (OrderedMap.mem_iff_getElem?.mpr ⟨existing,hexisting⟩))
  · exact h
  · exact h.insert hfiled (Or.inr (h.limits_eq ▸ hroom))

namespace Durable
variable {limits : Limits} {d e : Durable}

/-- A record restores a finding that the decoder returned, or leaves the findings alone. -/
theorem replayRecord_findings {record : StoredRecord}
    (hreplay : replayRecord limits d record = .ok e) : e.findings = d.findings ∨
      ∃ finding, FindingRegistry.Filed limits finding.id finding ∧
        d.findings.restore finding = .ok e.findings := by
  unfold replayRecord at hreplay
  cases htype : record.type with
  | finding =>
    rw [htype] at hreplay
    obtain ⟨finding,hdecode,hreplay⟩ := bind_eq_ok.mp hreplay
    obtain ⟨findings,hrestore,hreplay⟩ := bind_eq_ok.mp hreplay
    rw [← Except.ok.inj hreplay]
    exact Or.inr ⟨finding,
      Codec.filed_of_decodeFinding (decodeExact_of_decodeStored hdecode),hrestore⟩
  | source =>
    rw [htype] at hreplay
    obtain ⟨descriptor,-,hreplay⟩ := bind_eq_ok.mp hreplay
    obtain ⟨sources,-,hreplay⟩ := bind_eq_ok.mp hreplay
    rw [← Except.ok.inj hreplay]
    exact Or.inl rfl
  | evidence | comparison =>
    rw [htype] at hreplay
    obtain ⟨_,-,hreplay⟩ := bind_eq_ok.mp hreplay
    rw [← Except.ok.inj hreplay]
    exact Or.inl rfl
  | topologyGeneration | routeGeneration | marker =>
    rw [htype] at hreplay
    rw [← Except.ok.inj hreplay]
    exact Or.inl rfl

theorem sound_of_replayRecord (h : d.findings.Sound limits) {record : StoredRecord}
    (hreplay : replayRecord limits d record = .ok e) : e.findings.Sound limits := by
  rcases replayRecord_findings hreplay with hsame | ⟨finding,hfiled,hrestore⟩
  · rwa [hsame]
  · exact FindingRegistry.restore_sound h hfiled hrestore

theorem sound_of_replay (h : d.findings.Sound limits) {records : List StoredRecord}
    (hreplay : replay limits d records = .ok e) : e.findings.Sound limits := by
  induction records generalizing d with
  | nil => rwa [← Except.ok.inj hreplay]
  | cons record records ih =>
    obtain ⟨next,hrecord,hrest⟩ := bind_eq_ok.mp hreplay
    exact ih (sound_of_replayRecord h hrecord) hrest

end Durable

namespace ObservatoryRuntime

/-- What a runtime restored, its registries replay. -/
theorem replay_of_restoreRecord {r s : ObservatoryRuntime} {record : StoredRecord}
    (h : r.restoreRecord record = .ok s) : SameFrame r s ∧
      Durable.replayRecord r.config.limits r.durable record = .ok s.durable := by
  unfold restoreRecord at h
  unfold Durable.replayRecord
  cases htype : record.type with
  | evidence =>
    rw [htype] at h
    obtain ⟨e,hdecode,h⟩ := bind_eq_ok.mp h
    obtain ⟨buckets,hframe⟩ := r.restoreEvidence_frame e
    rw [← Except.ok.inj h, hframe]
    exact ⟨⟨rfl,rfl⟩,bind_eq_ok.mpr ⟨e,hdecode,rfl⟩⟩
  | comparison =>
    rw [htype] at h
    obtain ⟨comparison,hdecode,h⟩ := bind_eq_ok.mp h
    rw [← Except.ok.inj h]
    exact ⟨⟨rfl,rfl⟩,bind_eq_ok.mpr ⟨comparison,hdecode,rfl⟩⟩
  | finding =>
    rw [htype] at h
    obtain ⟨finding,hdecode,h⟩ := bind_eq_ok.mp h
    obtain ⟨findings,hrestore,h⟩ := bind_eq_ok.mp h
    rw [← Except.ok.inj h]
    exact ⟨⟨rfl,rfl⟩,bind_eq_ok.mpr ⟨finding,hdecode,bind_eq_ok.mpr ⟨findings,hrestore,rfl⟩⟩⟩
  | source =>
    rw [htype] at h
    obtain ⟨descriptor,hdecode,h⟩ := bind_eq_ok.mp h
    obtain ⟨sources,hregister,h⟩ := bind_eq_ok.mp h
    rw [← Except.ok.inj h]
    exact ⟨⟨rfl,rfl⟩,
      bind_eq_ok.mpr ⟨descriptor,hdecode,bind_eq_ok.mpr ⟨sources,hregister,rfl⟩⟩⟩
  | topologyGeneration | routeGeneration | marker =>
    rw [htype] at h
    rw [← Except.ok.inj h]
    exact ⟨⟨rfl,rfl⟩,rfl⟩

theorem replay_of_restoreRecords {r s : ObservatoryRuntime} {records : List StoredRecord}
    (h : r.restoreRecords records = (.ok (),s)) : SameFrame r s ∧
      Durable.replay r.config.limits r.durable records = .ok s.durable := by
  induction records generalizing r with
  | nil =>
    obtain rfl : r = s := (Prod.mk.inj h).2
    exact ⟨⟨rfl,rfl⟩,rfl⟩
  | cons record records ih =>
    unfold restoreRecords at h
    cases hrecord : r.restoreRecord record with
    | error e =>
      rw [hrecord] at h
      cases congrArg Prod.fst h
    | ok next =>
      rw [hrecord] at h
      obtain ⟨hone,hfirst⟩ := replay_of_restoreRecord hrecord
      obtain ⟨hframe,hrest⟩ := ih h
      rw [hone.config] at hrest
      exact ⟨hone.trans hframe,bind_eq_ok.mpr ⟨next.durable,hfirst,hrest⟩⟩

section
variable {config : RuntimeConfig} {clock : ℕ → TimePoint} {sorter : Ranking.Sorter ranksBefore}
  {content after : Option ByteString} {started : ObservatoryRuntime}

/-- A persistent runtime that was started holds what its store rebuilds, and no plan. -/
theorem loaded_of_start (hlimits : config.limits.validate = .ok ())
    (hpersist : config.persist = true) (hload : config.loadEvidenceOnStart = true)
    (hstart : (fresh config clock sorter).start content = (.ok (),started,after)) :
    started.config = config ∧ started.routes = none ∧
      ∃ records, Stored config.limits started.store records ∧
        Durable.replay config.limits (Durable.empty config.limits) records =
          .ok started.durable := by
  obtain ⟨hthreads,-⟩ := checks_of_start hlimits hstart
  rw [start_fresh hthreads, if_pos hpersist] at hstart
  unfold recover at hstart
  rcases hopen : PersistentStore.open_ (fresh config clock sorter).config.storePath
    (fresh config clock sorter).storeOptions (fresh config clock sorter).now content with
    ⟨e | store,opened⟩
  · rw [hopen] at hstart
    cases congrArg Prod.fst hstart
  · have hloads : (fresh config clock sorter).config.loadEvidenceOnStart = true := hload
    rw [hopen] at hstart
    simp only [hloads, if_true] at hstart
    rcases hrestore : ((fresh config clock sorter).opened store).restoreFromStore with ⟨e | _,s⟩
    · rw [hrestore] at hstart
      cases congrArg Prod.fst hstart
    · rw [hrestore] at hstart
      obtain rfl := (Prod.mk.inj (Prod.mk.inj hstart).2).1
      obtain ⟨-,records,hretains⟩ := retains_of_open (congrArg Prod.fst hopen)
      have hrecords : ((fresh config clock sorter).opened store).restoreRecords records =
          (.ok (),s) := by
        unfold restoreFromStore at hrestore
        simp only [ObservatoryRuntime.opened, hretains.readAll] at hrestore
        exact hrestore
      obtain ⟨hframe,hreplay⟩ := replay_of_restoreRecords hrecords
      exact ⟨hframe.config,rfl,records,⟨store,hframe.store,hretains⟩,hreplay⟩

/-- A new runtime on a file whose records replay starts with what they rebuild. -/
theorem start_of_retains {records : List StoredRecord} {store : PersistentStore} {d : Durable}
    (hlimits : config.limits.validate = .ok ()) (hthreads : ¬ BadThreads config)
    (hpersist : config.persist = true) (hload : config.loadEvidenceOnStart = true)
    (hclock : (clock 0).isSet = true) (hretains : store.Retains config.limits records)
    (hreplay : Durable.replay config.limits (Durable.empty config.limits) records = .ok d) :
    ∃ started after, (fresh config clock sorter).start (some store.file) =
      (.ok (),started,after) ∧ started.durable = d := by
  obtain ⟨again,hopen,hkept⟩ := hretains.reopen hlimits hclock config.storePath
  have hopened : PersistentStore.open_ (fresh config clock sorter).config.storePath
      (fresh config clock sorter).storeOptions (fresh config clock sorter).now
        (some store.file) = (.ok again,some again.file) := hopen
  have hstart : Durable.replay ((fresh config clock sorter).opened again).config.limits
      ((fresh config clock sorter).opened again).durable records = .ok d := hreplay
  obtain ⟨s,hs,-,hdurable⟩ := restoreRecords_of_replay hstart
  have hrestored : ((fresh config clock sorter).opened again).restoreFromStore = (.ok (),s) := by
    unfold restoreFromStore opened
    simp only [hkept.readAll]
    exact hs
  have hloads : (fresh config clock sorter).config.loadEvidenceOnStart = true := hload
  rw [start_fresh hthreads, if_pos hpersist]
  unfold recover
  rw [hopened]
  simp only [hloads, if_true, hrestored]
  exact ⟨_,_,rfl,hdurable⟩

end

end ObservatoryRuntime

end PathObservatory
