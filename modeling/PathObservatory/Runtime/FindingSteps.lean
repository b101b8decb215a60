import PathObservatory.Runtime.FindingStatus
import PathObservatory.Runtime.ReadableRecords

/-! # What holds of the findings in every run

The registry of a runtime changes when a comparison is recorded, when a match resolves
findings, when one is acknowledged and when a start restores what the store holds. It
stays within its bound, and every finding is filed under the identity of its content.
-/
namespace PathObservatory
open PersistentStore

namespace FindingRegistry
variable {limits : Limits} {r s : FindingRegistry} {result : ComparisonResult} {now : TimePoint}

theorem length_findingDetail_lt (primary : DivergenceClass) :
    (findingDetail primary).length < 2 ^ 32 := by
  cases primary <;> decide +kernel

/-- A finding within the decoder's counts, whose text can be written. -/
structure Presentable (limits : Limits) (id : FindingId) (finding : Finding) : Prop where
  countable : Countable limits id finding
  detail : finding.detail.length < 2 ^ 32

theorem enduring_presentable (limits : Limits) : Enduring (Presentable limits) :=
  fun _ _ h status occurrences firstSeen lastSeen lastComparison =>
    ⟨enduring_countable limits h.countable status occurrences firstSeen lastSeen lastComparison,
      h.detail⟩

theorem presentable_findingCandidate
    (hresult : result.differences.length ≤ limits.maxHopsPerPath) :
    Presentable limits (findingCandidate limits result).id (findingCandidate limits result) :=
  ⟨countable_findingCandidate hresult,length_findingDetail_lt result.primary⟩

/-- A registry within its bound that holds such findings. -/
structure Presented (limits : Limits) (r : FindingRegistry) : Prop where
  limits_eq : r.limits = limits
  size_le : r.findings.size ≤ limits.maxFindings
  all : OrderedMap.All (Presentable limits) r.findings

theorem Presented.holds (h : Presented limits r) : Holds limits (Presentable limits) r :=
  ⟨h.limits_eq,h.size_le,h.all⟩

theorem Holds.presented (h : Holds limits (Presentable limits) r) : Presented limits r :=
  ⟨h.limits_eq,h.size_le,h.all⟩

namespace Presented

theorem settled (h : Presented limits r) (result : ComparisonResult) (now : TimePoint)
    (id : FindingId) : Presented limits (settled result now (id,r)) := by
  unfold FindingRegistry.settled
  split_ifs
  · exact h
  · exact (h.holds.resolveFromMatch (enduring_presentable limits) result now).presented

theorem restore (h : Presented limits r) (hstrings : limits.maxStringBytes < 2 ^ 32)
    {finding : Finding} (hfiled : Filed limits finding.id finding)
    (hs : r.restore finding = .ok s) : Presented limits s := by
  refine (h.holds.restore (fun hsealed => ?_) hs).presented
  exact ⟨⟨rfl,hsealed,hfiled.fits.evidence,hfiled.fits.hopIndices⟩,
    hfiled.fits.detail.trans_lt hstrings⟩

end Presented

theorem Presented.replayRecord (hstrings : limits.maxStringBytes < 2 ^ 32) {d e : Durable}
    (h : Presented limits d.findings) {record : StoredRecord}
    (hreplay : Durable.replayRecord limits d record = .ok e) : Presented limits e.findings := by
  rcases Durable.replayRecord_findings hreplay with hsame | ⟨finding,hfiled,hrestore⟩
  · rwa [hsame]
  · exact h.restore hstrings hfiled hrestore

end FindingRegistry

namespace ObservatoryRuntime
open FindingRegistry
variable {config : RuntimeConfig} {r s : ObservatoryRuntime}

/-- The plan is within the bounds of the configuration, and so are the findings. -/
structure Orderly (config : RuntimeConfig) (r : ObservatoryRuntime) : Prop where
  config_eq : r.config = config
  limits : config.limits.validate = .ok ()
  plan : ∀ routes, r.routes = some routes →
    ∀ path ∈ routes.paths, path.hops.length ≤ config.limits.maxHopsPerPath
  findings : Presented config.limits r.findings

namespace Orderly

theorem congr (h : Orderly config r) (hconfig : s.config = r.config) (hroutes : s.routes = r.routes)
    (hfindings : s.findings = r.findings) : Orderly config s :=
  ⟨hconfig.trans h.config_eq,h.limits,hroutes ▸ h.plan,hfindings ▸ h.findings⟩

theorem compareBucket (h : Orderly config r) (key : SubjectKey) :
    Orderly config (r.compareBucket key true).2 := by
  have htick : Orderly config r.tick := h.congr rfl rfl rfl
  rcases r.compareBucket_cases key true with ⟨e,-,hcompared⟩ | ⟨result,hcompare,hcompared⟩
  · rwa [hcompared]
  · obtain ⟨hbounded,-⟩ := compare_bounded_of_plan h.config_eq h.plan hcompare
    rw [hcompared, if_pos rfl]
    rcases r.tick.recordComparison_cases result with
      ⟨e,-,hrecorded⟩ | ⟨recorded,hrecord,hrecorded⟩
    · rw [hrecorded]
      exact h.congr rfl rfl rfl
    · have hkept := (h.findings.holds.record (enduring_presentable config.limits)
        (presentable_findingCandidate hbounded.differences) hrecord).presented
      have hfindings : Presented config.limits (r.tick.folded result recorded).findings := by
        rw [folded_findings]
        exact hkept.settled result _ recorded.1
      obtain ⟨readings,findings,hfolded⟩ := r.tick.folded_frame result recorded
      obtain ⟨store,hframe⟩ := (r.tick.folded result recorded).persistComparison_frame result
      rw [hrecorded, hframe]
      rw [hfolded] at hfindings ⊢
      exact ⟨h.config_eq,h.limits,h.plan,hfindings⟩

theorem compareKeys (h : Orderly config r) (keys : List SubjectKey) :
    Orderly config (r.compareKeys keys).2 :=
  compareKeys_preserves (fun _ key hs => hs.compareBucket key) h keys

theorem compareGroup (h : Orderly config r) (group : PathGroupId) :
    Orderly config (r.compareGroup group).2 :=
  compareGroup_preserves h fun key _ => h.compareBucket key

theorem comparePath (h : Orderly config r) (path : PathId) :
    Orderly config (r.comparePath path).2 :=
  comparePath_preserves h fun key _ => h.compareBucket key

theorem publishTopology (h : Orderly config r) (g : TopologyGeneration) :
    Orderly config (r.publishTopology g).2 := by
  rcases r.publishTopology_frame g with hsame | ⟨admitted,index,store,-,-,-,hframe⟩
  · rwa [hsame]
  · rw [hframe]
    exact h.congr rfl rfl rfl

theorem publishRoutes (h : Orderly config r) (g : RouteGeneration) :
    Orderly config (r.publishRoutes g).2 := by
  rcases r.publishRoutes_frame g with hsame | ⟨admitted,store,hadmitted,-,hframe⟩
  · rwa [hsame]
  · have hhops := RouteGeneration.finalize_hops (admitRoutes_finalize hadmitted)
    rw [h.config_eq] at hhops
    rw [hframe]
    refine ⟨h.config_eq,h.limits,fun routes hroutes => ?_,h.findings⟩
    rw [← Option.some.inj hroutes]
    exact hhops

/-- Every request keeps the plan and the findings within the bounds. -/
theorem perform (h : Orderly config r) (call : Call) : Orderly config (r.perform call) := by
  cases call with
  | registerSource descriptor =>
    obtain ⟨sources,store,hframe⟩ := r.registerSource_frame descriptor
    rw [ObservatoryRuntime.perform, hframe]
    exact h.congr rfl rfl rfl
  | publishTopology generation => exact h.publishTopology generation
  | publishRoutes generation => exact h.publishRoutes generation
  | ingestEvidence evidence =>
    obtain ⟨_,_,_,_,hframe⟩ := r.ingestEvidence_frame evidence
    rw [ObservatoryRuntime.perform, hframe]
    exact h.congr rfl rfl rfl
  | compareGroup group => exact h.compareGroup group
  | comparePath path => exact h.comparePath path
  | compareAll => exact h.compareKeys _
  | acknowledgeFinding id =>
    rw [ObservatoryRuntime.perform]
    unfold ObservatoryRuntime.acknowledgeFinding
    split
    · exact h.congr rfl rfl rfl
    · rename_i findings hacknowledge
      exact ⟨h.config_eq,h.limits,h.plan,(h.findings.holds.acknowledge (enduring_presentable _) hacknowledge).presented⟩
  | pruneHistory =>
    obtain ⟨history,hframe⟩ := r.pruneHistory_frame
    rw [ObservatoryRuntime.perform, hframe]
    exact h.congr rfl rfl rfl
  | flush =>
    rw [ObservatoryRuntime.perform]
    rcases r.flush_cases with ⟨-,hresult⟩ | ⟨-,hresult⟩
    · rwa [hresult]
    · obtain ⟨store,hframe⟩ := r.persistFindings_frame r.findings.all
      rw [hresult, hframe]
      exact h.congr rfl rfl rfl
  | stop =>
    rw [ObservatoryRuntime.perform]
    rcases r.stop_cases with ⟨state,hresult⟩ | ⟨store,state,-,hresult⟩
    · rw [hresult]
      exact h.congr rfl rfl rfl
    · rw [hresult]
      exact h.congr rfl rfl rfl

theorem restoreRecords (h : Orderly config r) (records : List StoredRecord) :
    Orderly config (r.restoreRecords records).2 := by
  induction records generalizing r with
  | nil => exact h
  | cons record rest ih =>
    rw [ObservatoryRuntime.restoreRecords]
    cases hrecord : r.restoreRecord record with
    | error e => exact h
    | ok s =>
      have hstrings := (Limits.lt_of_validate h.limits).2.2.1
      obtain ⟨-,hreplay⟩ := replay_of_restoreRecord hrecord
      obtain ⟨_,_,_,_,hframe⟩ := restoreRecord_frame hrecord
      rw [h.config_eq] at hreplay
      have hfindings := Presented.replayRecord hstrings (d := r.durable) h.findings hreplay
      refine ih ⟨?_,h.limits,?_,hfindings⟩
      · rw [hframe]
        exact h.config_eq
      · rw [hframe]
        exact h.plan

theorem restoreFromStore (h : Orderly config r) : Orderly config r.restoreFromStore.2 := by
  unfold ObservatoryRuntime.restoreFromStore
  split
  · exact h
  · split
    · exact h
    · exact h.restoreRecords _

/-- So does a start, which forgets the plan when it succeeds. -/
theorem start (h : Orderly config r) (content : Option ByteString) :
    Orderly config (r.start content).2.1 := by
  have hforgotten : ∀ {s : ObservatoryRuntime}, Orderly config s →
      Orderly config { s.forgetExpected with state := .running } := fun hs =>
    ⟨hs.config_eq,hs.limits,(fun _ hroutes => by cases hroutes),hs.findings⟩
  have hrecover : Orderly config (r.recover content).2.1 := by
    unfold recover
    split
    · exact h.congr rfl rfl rfl
    · rename_i store _ _
      have hopened : Orderly config (r.opened store) := h.congr rfl rfl rfl
      split_ifs
      · exact hopened.restoreFromStore
      · exact hopened
  unfold ObservatoryRuntime.start
  split_ifs
  · exact h
  · exact h
  · exact h
  · split
    · rename_i hfailed
      rw [hfailed] at hrecover
      exact hrecover.congr rfl rfl rfl
    · rename_i hrecovered
      rw [hrecovered] at hrecover
      exact hforgotten hrecover
  · exact hforgotten h

end Orderly

theorem PersistentRun.orderly (h : PersistentRun config r) : Orderly config r := by
  induction h with
  | @boot clock sorter _ _ content _ hcreate hstart =>
    obtain ⟨hcreatable,rfl⟩ := create_eq_ok.mp hcreate
    have hfresh : Orderly config (fresh config clock sorter) :=
      ⟨rfl,hcreatable.1,(fun _ hroutes => by cases hroutes),(Holds.empty _ _).presented⟩
    have hstarted := hfresh.start content
    rwa [hstart] at hstarted
  | call _ call ih => exact ih.perform call
  | restart _ ih => exact ih.start _

/-- A start of a persistent runtime fails before it has a store, or takes the one it
opened. -/
theorem start_store_of_persist (hpersist : r.config.persist = true) (content : Option ByteString) :
    ((∃ e, (r.start content).1 = .error e) ∧ (r.start content).2.1.store = r.store) ∨
    ∃ store, (open_ r.config.storePath r.storeOptions r.now content).1 = .ok store ∧
      (r.start content).2.1.store = some store := by
  unfold ObservatoryRuntime.start
  split_ifs
  · exact Or.inl ⟨⟨_,rfl⟩,rfl⟩
  · exact Or.inl ⟨⟨_,rfl⟩,rfl⟩
  · exact Or.inl ⟨⟨_,rfl⟩,rfl⟩
  · unfold recover
    rcases hopen : open_ r.config.storePath r.storeOptions r.now content with ⟨e | store,after⟩
    · exact Or.inl ⟨⟨e,rfl⟩,rfl⟩
    · have hstore := r.restoreFromStore_store store
      refine Or.inr ⟨store,rfl,?_⟩
      by_cases hload : r.config.loadEvidenceOnStart = true
      · rcases hrestore : (r.opened store).restoreFromStore with ⟨e | _,t⟩
        · rw [hrestore] at hstore
          simp only [hload, if_true, hrestore]
          exact hstore
        · rw [hrestore] at hstore
          simp only [hload, if_true, hrestore]
          exact hstore
      · simp only [hload]
        rfl

/-- What the store was given it keeps, whatever the requests are. -/
theorem Stored.appends {limits : Limits} {store after : Option PersistentStore}
    {records : List StoredRecord} {allowed : RecordType → Prop}
    (h : Stored limits store records) (hlimits : limits.maxStoreRecordBytes < 2 ^ 32)
    (happends : Appends allowed store after) : ∃ more, Stored limits after (records ++ more) := by
  induction happends with
  | refl => exact ⟨[],by rwa [List.append_nil]⟩
  | @append written type payload _ _ ih =>
    obtain ⟨more,kept,hwritten,hretains⟩ := ih
    obtain rfl := Option.some.inj hwritten
    rcases hretains.append_cases hlimits type payload with ⟨e,herror⟩ | ⟨-,happended⟩
    · rw [herror]
      exact ⟨more,written,rfl,hretains⟩
    · refine ⟨more ++ [{ type := type, sequence := written.nextSequence, payload := payload }],
        _,rfl,?_⟩
      rwa [← List.append_assoc]

theorem Stored.perform {records : List StoredRecord} {limits : Limits}
    (h : Stored limits r.store records) (hlimits : limits.maxStoreRecordBytes < 2 ^ 32)
    (call : Call) : ∃ kept, Stored limits (r.perform call).store kept := by
  by_cases hstop : call = .stop
  · subst hstop
    obtain ⟨more,-,hkept⟩ := h.logs hlimits r.stop_logs
    exact ⟨_,hkept⟩
  · have happends : Appends (fun _ => True) r.store (r.perform call).store :=
      perform_appends (fun _ _ => trivial) r hstop (fun _ _ => trivial)
    obtain ⟨more,hkept⟩ := h.appends hlimits happends
    exact ⟨_,hkept⟩

/-- In every run of a persistent runtime the store holds some records. -/
theorem PersistentRun.stored (h : PersistentRun config r) (hpersist : config.persist = true) :
    ∃ records, Stored config.limits r.store records := by
  induction h with
  | @boot clock sorter _ _ content _ hcreate hstart =>
    obtain ⟨-,rfl⟩ := create_eq_ok.mp hcreate
    rcases start_store_of_persist (r := fresh config clock sorter) hpersist content with
      ⟨⟨e,herror⟩,-⟩ | ⟨store,hopen,hstore⟩
    · rw [hstart] at herror
      cases herror
    · rw [hstart] at hstore
      obtain ⟨-,records,hretains⟩ := retains_of_open hopen
      exact ⟨records,store,hstore,hretains⟩
  | call h call ih =>
    obtain ⟨records,hstored⟩ := ih
    exact hstored.perform (Limits.lt_of_validate h.orderly.limits).2.2.2.2 call
  | @restart r h ih =>
    obtain ⟨records,store,hstore,hretains⟩ := ih
    have hconfig := h.orderly.config_eq
    rcases start_store_of_persist (hconfig ▸ hpersist) r.disk with ⟨-,hsame⟩ | ⟨opened,hopen,hopened⟩
    · exact ⟨records,store,hsame.trans hstore,hretains⟩
    · obtain ⟨again,hagain,hkept⟩ :=
        hretains.reopen h.orderly.limits (isSet_of_open hopen) r.config.storePath
      rw [storeOptions, hconfig, disk, hstore, Option.map_some] at hopen
      rw [hconfig] at hagain
      rw [hagain] at hopen
      obtain rfl := Except.ok.inj hopen
      exact ⟨records,again,hopened,hkept⟩

end ObservatoryRuntime

end PathObservatory
