import PathObservatory.Domain.Plan
import PathObservatory.Runtime.Refusals
import PathObservatory.Runtime.Replay
import PathObservatory.Store.Recovery

/-! # Restarting on one's own store

As long as every step is harmless, the registries that the store's records rebuild
never contradict the runtime: it has the same sources and every finding the store
has. A new runtime on the same store then starts.
-/
namespace PathObservatory
open PersistentStore

/-- Registries rebuilt from a store agree with those a runtime holds. -/
structure Durable.Covers (limits : Limits) (held rebuilt : Durable) : Prop where
  sources : rebuilt.sources = held.sources
  findings : rebuilt.findings.Sound limits
  subset : rebuilt.findings.SubsetOf held.findings

namespace ObservatoryRuntime
open Durable (Covers)

/-- The invariant of a runtime that can be restarted. -/
structure Restartable (config : RuntimeConfig) (r : ObservatoryRuntime) : Prop where
  config_eq : r.config = config
  limits : config.limits.validate = .ok ()
  findings : config.loadEvidenceOnStart = true → r.findings.Sound config.limits
  plan : ∀ routes, r.routes = some routes →
    ∀ path ∈ routes.paths, path.hops.length ≤ config.limits.maxHopsPerPath
  persistent : config.persist = true → r.store.isSome = true
  store : ∀ store, r.store = some store → ∃ records, store.Holds config.limits records ∧
    (config.loadEvidenceOnStart = true →
      ∃ d, Durable.replay config.limits (Durable.empty config.limits) records = .ok d ∧
        Covers config.limits r.durable d)

/-- Comparing the bucket opens no finding that a restart could not take back. -/
def HarmlessComparison (r : ObservatoryRuntime) (key : SubjectKey) : Prop :=
  ∀ result, r.engine.compare (r.requestFor key) r.makeContext = .ok result →
    r.findings.Harmless result

/-- So for one bucket after the other, as far as the comparisons get. -/
def HarmlessComparisons (r : ObservatoryRuntime) : List SubjectKey → Prop
  | [] => True
  | key :: rest => r.HarmlessComparison key ∧
      ((∃ result, (r.compareBucket key true).1 = .ok result) →
        (r.compareBucket key true).2.HarmlessComparisons rest)

/-- A descriptor that the store has room for is one that the registry accepts, with
a name that the decoder accepts. -/
def HarmlessSource (r : ObservatoryRuntime) (descriptor : SourceDescriptor) : Prop :=
  ∀ store, r.store = some store →
    (store.append .source (Codec.encodeSource descriptor)).1 = .ok () →
      (r.sources.registerSource descriptor).toBool = true ∧
        descriptor.name.length ≤ r.config.limits.maxStringBytes

def HarmlessCall (r : ObservatoryRuntime) : Call → Prop
  | .registerSource descriptor => r.HarmlessSource descriptor
  | .compareGroup group => ∀ key, r.groupBucket group = some key → r.HarmlessComparison key
  | .comparePath path => ∀ routes expected key, r.routes = some routes →
      routes.findPath path = some expected → r.groupBucket expected.group = some key →
        r.HarmlessComparison key
  | .compareAll => r.HarmlessComparisons r.evidence.keys
  | _ => True

variable {config : RuntimeConfig} {r s : ObservatoryRuntime}

/-- What is compared is within the bounds of the configuration. -/
theorem compare_bounded_of_plan (hconfig : r.config = config)
    (hplan : ∀ routes, r.routes = some routes →
      ∀ path ∈ routes.paths, path.hops.length ≤ config.limits.maxHopsPerPath)
    {key : SubjectKey} {result : ComparisonResult}
    (hcompare : r.engine.compare (r.requestFor key) r.makeContext = .ok result) :
    result.Bounded (r.requestFor key).evidence.length config.limits.maxHopsPerPath ∧
      (r.requestFor key).evidence.length ≤ config.limits.maxEvidencePerComparison ∧
      result.id = DigestId.fromDigest result.canonicalDigest := by
  have hengine : r.engine.limits = config.limits := congrArg RuntimeConfig.limits hconfig
  have hwithin : ∀ routes, r.makeContext.routes = some routes →
      ∀ path ∈ routes.paths, path.hops.length ≤ r.engine.limits.maxHopsPerPath := by
    rw [hengine]
    exact hplan
  have hbounded := ComparisonEngine.compare_bounded hwithin hcompare
  rwa [hengine] at hbounded

namespace Restartable

/-- Only these parts of the state matter. -/
theorem congr (h : Restartable config r) (hconfig : s.config = r.config)
    (hsources : s.sources = r.sources) (hfindings : s.findings = r.findings)
    (hroutes : s.routes = r.routes) (hstore : s.store = r.store) : Restartable config s := by
  refine ⟨hconfig.trans h.config_eq,h.limits,hfindings ▸ h.findings,hroutes ▸ h.plan,
    hstore ▸ h.persistent,?_⟩
  intro store hs
  obtain ⟨records,hholds,hreplay⟩ := h.store store (hstore.symm.trans hs)
  refine ⟨records,hholds,fun hload => ?_⟩
  obtain ⟨d,hd,hcovers⟩ := hreplay hload
  refine ⟨d,hd,hcovers.sources.trans hsources.symm,hcovers.findings,?_⟩
  rw [durable, hfindings]
  exact hcovers.subset

theorem withFindings (h : Restartable config r) {findings : FindingRegistry}
    (hfindings : config.loadEvidenceOnStart = true →
      findings.Sound config.limits ∧ r.findings.SubsetOf findings) :
    Restartable config { r with findings := findings } := by
  refine ⟨h.config_eq,h.limits,fun hload => (hfindings hload).1,h.plan,h.persistent,?_⟩
  intro store hs
  obtain ⟨records,hholds,hreplay⟩ := h.store store hs
  refine ⟨records,hholds,fun hload => ?_⟩
  obtain ⟨d,hd,hcovers⟩ := hreplay hload
  exact ⟨d,hd,hcovers.sources,hcovers.findings,hcovers.subset.trans (hfindings hload).2⟩

/-- The store may write any record that the rebuilt registries accept. -/
theorem persistRecord (h : Restartable config r) {type : RecordType} {payload : ByteString}
    (hrecord : config.loadEvidenceOnStart = true → ∀ d sequence,
      Covers config.limits r.durable d → ∃ e, Durable.replayRecord config.limits d
        { type := type, sequence := sequence, payload := payload } = .ok e ∧
          Covers config.limits r.durable e) :
    Restartable config (r.persistRecord type payload).2 := by
  unfold ObservatoryRuntime.persistRecord
  cases hstore : r.store with
  | none => exact h
  | some store =>
    obtain ⟨records,hholds,hreplay⟩ := h.store store hstore
    have hbytes := (Limits.lt_of_validate h.limits).2.2.2.2
    refine ⟨h.config_eq,h.limits,h.findings,h.plan,fun _ => rfl,?_⟩
    intro next hnext
    obtain rfl := Option.some.inj hnext
    rcases hholds.append_cases hbytes type payload with ⟨e,herror⟩ | ⟨-,happended⟩
    · rw [herror]
      exact ⟨records,hholds,hreplay⟩
    · refine ⟨_,happended,fun hload => ?_⟩
      obtain ⟨d,hd,hcovers⟩ := hreplay hload
      obtain ⟨e,he,hcovers'⟩ := hrecord hload d store.nextSequence hcovers
      exact ⟨e,Durable.replay_concat hd he,hcovers'⟩

/-- Records of expected state are not read back. -/
theorem persistExpected (h : Restartable config r) {type : RecordType}
    (htype : type = .topologyGeneration ∨ type = .routeGeneration) (payload : ByteString) :
    Restartable config (r.persistRecord type payload).2 := by
  refine h.persistRecord (fun _ d sequence hcovers => ⟨d,?_,hcovers⟩)
  rcases htype with rfl | rfl <;> rfl

theorem persistFindings (h : Restartable config r) {findings : List Finding}
    (hfiled : config.loadEvidenceOnStart = true →
      ∀ finding ∈ findings, r.findings.findings[finding.id]? = some finding) :
    Restartable config (r.persistFindings findings).2 := by
  induction findings generalizing r with
  | nil => exact h
  | cons finding rest ih =>
    have hone : Restartable config
        (r.persistRecord .finding (Codec.encodeFinding finding)).2 := by
      refine h.persistRecord (fun hload d sequence hcovers => ?_)
      have hfound := hfiled hload finding List.mem_cons_self
      obtain ⟨restored,hreplay,hsound,hsubset⟩ := Durable.replayRecord_finding h.limits d sequence
        hcovers.findings (h.findings hload) hcovers.subset ((h.findings hload).filed _ _ hfound)
        (OrderedMap.mem_iff_getElem?.mpr ⟨finding,hfound⟩)
      exact ⟨_,hreplay,hcovers.sources,hsound,hsubset⟩
    obtain ⟨store,hframe⟩ := r.persistRecord_frame .finding (Codec.encodeFinding finding)
    rcases r.persistFindings_cons_cases finding rest with
      ⟨e,s,hpersist,hresult⟩ | ⟨s,hpersist,hresult⟩
    · rw [hpersist] at hone
      rwa [hresult]
    · rw [hpersist] at hone hframe
      obtain rfl : s = { r with store := store } := hframe
      rw [hresult]
      exact ih hone (fun hload other hother =>
        hfiled hload other (List.mem_cons_of_mem finding hother))

theorem flush (h : Restartable config r) : Restartable config r.flush.2 := by
  rcases r.flush_cases with ⟨-,hresult⟩ | ⟨-,hresult⟩
  · rwa [hresult]
  · rw [hresult]
    exact h.persistFindings (fun hload finding hfinding =>
      (h.findings hload).getElem?_of_mem_all hfinding)

theorem acknowledgeFinding (h : Restartable config r) (id : FindingId) :
    Restartable config (r.acknowledgeFinding id).2 := by
  unfold ObservatoryRuntime.acknowledgeFinding
  split
  · exact h.congr rfl rfl rfl rfl rfl
  · rename_i findings hacknowledge
    have htick : Restartable config r.tick := h.congr rfl rfl rfl rfl rfl
    exact htick.withFindings (fun hload =>
      FindingRegistry.acknowledge_sound (h.findings hload) hacknowledge)

theorem publishTopology (h : Restartable config r) (g : TopologyGeneration) :
    Restartable config (r.publishTopology g).2 := by
  rcases r.publishTopology_cases g with
    ⟨e,hresult⟩ | ⟨admitted,-,-,hresult⟩ | ⟨admitted,index,-,-,-,hresult⟩
  · rwa [hresult]
  · rwa [hresult]
  · rw [hresult]
    have hadopted : Restartable config (r.adoptTopology admitted index) :=
      h.congr rfl rfl rfl rfl rfl
    exact hadopted.persistExpected (Or.inl rfl) _

theorem publishRoutes (h : Restartable config r) (g : RouteGeneration) :
    Restartable config (r.publishRoutes g).2 := by
  rcases r.publishRoutes_cases g with
    ⟨e,hresult⟩ | ⟨admitted,-,-,hresult⟩ | ⟨admitted,hadmitted,-,hresult⟩
  · rwa [hresult]
  · rwa [hresult]
  · rw [hresult]
    have hhops := RouteGeneration.finalize_hops (admitRoutes_finalize hadmitted)
    have hadopted : Restartable config (r.adoptRoutes admitted) := by
      refine ⟨h.config_eq,h.limits,h.findings,?_,h.persistent,h.store⟩
      intro routes hroutes
      rw [← Option.some.inj hroutes, ← h.config_eq]
      exact hhops
    exact hadopted.persistExpected (Or.inr rfl) _

theorem stop (h : Restartable config r) : Restartable config r.stop.2 := by
  rcases r.stop_cases with ⟨state,hresult⟩ | ⟨store,state,hstore,hresult⟩
  · rw [hresult]
    exact h.congr rfl rfl rfl rfl rfl
  · obtain ⟨records,hholds,hreplay⟩ := h.store store hstore
    rw [hresult]
    refine ⟨h.config_eq,h.limits,h.findings,h.plan,fun _ => rfl,?_⟩
    intro next hnext
    obtain rfl := Option.some.inj hnext
    exact ⟨records,(hholds.markClean r.now).2,hreplay⟩

theorem keepEvidence (h : Restartable config r) {e : ObservedPathEvidence}
    (hvalid : e.validate config.limits = .ok ()) (hsealed : e.id = e.computeEvidenceId)
    (result : IngestResult) : Restartable config (r.keepEvidence result e).2 := by
  unfold ObservatoryRuntime.keepEvidence
  split
  · exact h
  · rename_i key hkey
    have hbucket : ∀ bucket, Restartable config (r.setBucket key bucket) :=
      fun bucket => h.congr rfl rfl rfl rfl rfl
    simp only
    split_ifs
    · exact hbucket _
    · exact hbucket _
    · have hwritten : Restartable config ((r.setBucket key (r.bucket key)).persistRecord .evidence
          (Codec.encodeEvidence e)).2 :=
        (hbucket _).persistRecord (fun _ d sequence hcovers =>
          ⟨d,Durable.replayRecord_evidence h.limits d sequence hvalid hsealed,hcovers⟩)
      split
      · rename_i error s hresult
        rw [hresult] at hwritten
        exact hwritten
      · rename_i s hresult
        rw [hresult] at hwritten
        exact hwritten.congr rfl rfl rfl rfl rfl

theorem ingestEvidence (h : Restartable config r) (e : ObservedPathEvidence) :
    Restartable config (r.ingestEvidence e).2 := by
  unfold ObservatoryRuntime.ingestEvidence
  split
  · exact h
  · rename_i hscreened
    have hvalid := validate_of_screened hscreened
    rw [h.config_eq] at hvalid
    simp only
    split_ifs
    · exact h.congr rfl rfl rfl rfl rfl
    · have hmarked : ∀ ledger verdict, Restartable config
          ({ r with ledger := ledger }.markGap e.source verdict) := by
        intro ledger verdict
        cases verdict <;> exact h.congr rfl rfl rfl rfl rfl
      exact (hmarked _ _).keepEvidence (ObservedPathEvidence.validate_seal hvalid) rfl _

theorem persistComparison (h : Restartable config r) {result : ComparisonResult} {records : ℕ}
    (hresult : result.Bounded records config.limits.maxHopsPerPath)
    (hrecords : records ≤ config.limits.maxEvidencePerComparison)
    (hsealed : result.id = DigestId.fromDigest result.canonicalDigest) :
    Restartable config (r.persistComparison result).2 := by
  have hwritten : Restartable config
      (r.persistRecord .comparison (Codec.encodeComparison result)).2 :=
    h.persistRecord (fun _ d sequence hcovers => ⟨d,Durable.replayRecord_comparison h.limits d
      sequence hresult hrecords hsealed,hcovers⟩)
  rcases r.persistComparison_cases result with ⟨e,s,hpersisted,hanswer⟩ | ⟨s,hpersisted,hanswer⟩
  · rw [hpersisted] at hwritten
    rwa [hanswer]
  · rw [hpersisted] at hwritten
    rw [hanswer]
    exact hwritten.persistFindings (fun hload finding hfinding =>
      (hwritten.findings hload).getElem?_of_mem_all (List.mem_of_mem_filter hfinding))

theorem recordComparison (h : Restartable config r) {result : ComparisonResult} {records : ℕ}
    (hresult : result.Bounded records config.limits.maxHopsPerPath)
    (hrecords : records ≤ config.limits.maxEvidencePerComparison)
    (hsealed : result.id = DigestId.fromDigest result.canonicalDigest)
    (hharmless : config.loadEvidenceOnStart = true → r.findings.Harmless result) :
    Restartable config (r.recordComparison result).2 := by
  rcases r.recordComparison_cases result with
    ⟨e,-,hanswer⟩ | ⟨⟨id,findings⟩,hrecord,hanswer⟩
  · rw [hanswer]
    exact h.congr rfl rfl rfl rfl rfl
  · have hfiled : Restartable config
        { r with history := r.history.append result.stored, readings := r.readings + 1,
                 findings := findings } :=
      (h.withFindings (fun hload => FindingRegistry.record_sound (h.findings hload) hresult
        (hharmless hload) hrecord)).congr rfl rfl rfl rfl rfl
    have hsettled : Restartable config (r.folded result (id,findings)) := by
      unfold folded settleFindings
      split_ifs
      · exact hfiled
      · exact (hfiled.withFindings (fun hload => FindingRegistry.resolveFromMatch_sound
          (hfiled.findings hload) result (r.clock (r.readings + 1)))).congr rfl rfl rfl rfl rfl
    rw [hanswer]
    exact hsettled.persistComparison hresult hrecords hsealed

theorem compareBucket (h : Restartable config r) {key : SubjectKey}
    (hharmless : config.loadEvidenceOnStart = true → r.HarmlessComparison key) :
    Restartable config (r.compareBucket key true).2 := by
  have htick : Restartable config r.tick := h.congr rfl rfl rfl rfl rfl
  rcases r.compareBucket_cases key true with ⟨e,-,hanswer⟩ | ⟨result,hcompare,hanswer⟩
  · rwa [hanswer]
  · obtain ⟨hbounded,hrecords,hsealed⟩ := compare_bounded_of_plan h.config_eq h.plan hcompare
    rw [hanswer, if_pos rfl]
    exact htick.recordComparison hbounded hrecords hsealed
      (fun hload => hharmless hload result hcompare)

theorem compareKeys (h : Restartable config r) {keys : List SubjectKey}
    (hharmless : config.loadEvidenceOnStart = true → r.HarmlessComparisons keys) :
    Restartable config (r.compareKeys keys).2 := by
  induction keys generalizing r with
  | nil => exact h
  | cons key rest ih =>
    have hone := h.compareBucket (fun hload => (hharmless hload).1)
    rcases r.compareKeys_cons_cases key rest with
      ⟨e,s,hfirst,hanswer⟩ | ⟨result,s,hfirst,hanswer⟩
    · rw [hfirst] at hone
      rwa [hanswer]
    · rw [hfirst] at hone
      rw [hanswer]
      refine ih hone (fun hload => ?_)
      have hrest := (hharmless hload).2
      rw [hfirst] at hrest
      exact hrest ⟨result,rfl⟩

theorem compareGroup (h : Restartable config r) {group : PathGroupId}
    (hharmless : config.loadEvidenceOnStart = true →
      ∀ key, r.groupBucket group = some key → r.HarmlessComparison key) :
    Restartable config (r.compareGroup group).2 :=
  compareGroup_preserves h fun key hkey =>
    h.compareBucket (fun hload => hharmless hload key hkey)

theorem comparePath (h : Restartable config r) {path : PathId}
    (hharmless : config.loadEvidenceOnStart = true → ∀ routes expected key,
      r.routes = some routes → routes.findPath path = some expected →
        r.groupBucket expected.group = some key → r.HarmlessComparison key) :
    Restartable config (r.comparePath path).2 := by
  refine comparePath_preserves h fun key hkey => h.compareBucket (fun hload => ?_)
  obtain ⟨routes,expected,hroutes,hexpected,hkey⟩ := pathBucket_eq_some.mp hkey
  exact hharmless hload routes expected key hroutes hexpected hkey

theorem registerSource (h : Restartable config r) {descriptor : SourceDescriptor}
    (hharmless : config.loadEvidenceOnStart = true → r.HarmlessSource descriptor) :
    Restartable config (r.registerSource descriptor).2 := by
  unfold ObservatoryRuntime.registerSource ObservatoryRuntime.persistRecord
  cases hstore : r.store with
  | none =>
    simp only
    split
    · exact h
    · refine ⟨h.config_eq,h.limits,h.findings,h.plan,h.persistent,?_⟩
      intro store hs
      exact absurd (hstore.symm.trans hs) (by simp)
  | some store =>
    obtain ⟨records,hholds,hreplay⟩ := h.store store hstore
    have hbytes := (Limits.lt_of_validate h.limits).2.2.2.2
    rcases hholds.append_cases hbytes .source (Codec.encodeSource descriptor) with
      ⟨e,herror⟩ | ⟨hok,happended⟩
    · simp only [herror]
      exact h.congr rfl rfl rfl rfl hstore.symm
    · cases hregister : r.sources.registerSource descriptor with
      | error e =>
        simp only [hok, hregister]
        refine ⟨h.config_eq,h.limits,h.findings,h.plan,fun _ => rfl,?_⟩
        intro next hnext
        obtain rfl := Option.some.inj hnext
        refine ⟨_,happended,fun hload => ?_⟩
        have haccepted := (hharmless hload store hstore hok).1
        rw [hregister] at haccepted
        cases haccepted
      | ok sources =>
        simp only [hok, hregister]
        refine ⟨h.config_eq,h.limits,h.findings,h.plan,fun _ => rfl,?_⟩
        intro next hnext
        obtain rfl := Option.some.inj hnext
        refine ⟨_,happended,fun hload => ?_⟩
        have hname := (hharmless hload store hstore hok).2
        rw [h.config_eq] at hname
        obtain ⟨d,hd,hcovers⟩ := hreplay hload
        have hsame : d.sources.registerSource descriptor = .ok sources := by
          rw [hcovers.sources]
          exact hregister
        exact ⟨_,Durable.replay_concat hd
          (Durable.replayRecord_source d store.nextSequence hsame hname),rfl,hcovers.findings,
          hcovers.subset⟩

/-- A harmless request keeps the runtime restartable, whatever it answers. -/
theorem perform (h : Restartable config r) {call : Call}
    (hharmless : config.loadEvidenceOnStart = true → r.HarmlessCall call) :
    Restartable config (r.perform call) := by
  cases call with
  | registerSource descriptor => exact h.registerSource hharmless
  | publishTopology generation => exact h.publishTopology generation
  | publishRoutes generation => exact h.publishRoutes generation
  | ingestEvidence evidence => exact h.ingestEvidence evidence
  | compareGroup group => exact h.compareGroup hharmless
  | comparePath path => exact h.comparePath hharmless
  | compareAll => exact h.compareKeys hharmless
  | acknowledgeFinding id => exact h.acknowledgeFinding id
  | pruneHistory =>
    obtain ⟨history,hframe⟩ := r.pruneHistory_frame
    rw [ObservatoryRuntime.perform, hframe]
    exact h.congr rfl rfl rfl rfl rfl
  | flush => exact h.flush
  | stop => exact h.stop

end Restartable

end ObservatoryRuntime

end PathObservatory
