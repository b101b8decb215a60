import PathObservatory.Runtime.Lasting
import PathObservatory.Runtime.Survival

/-! # Findings over a restart

As long as every comparison lasts, the records of the store rebuild the findings of the
runtime with every field. A new runtime on the store then holds the same findings.
-/
namespace PathObservatory
open PersistentStore

namespace ObservatoryRuntime
open FindingRegistry
variable {config : RuntimeConfig} {r s : ObservatoryRuntime}

/-- The records of the store rebuild the sources and the findings of the runtime. -/
structure Remembered (config : RuntimeConfig) (r : ObservatoryRuntime) : Prop where
  config_eq : r.config = config
  limits : config.limits.validate = .ok ()
  findings : r.findings.Sound config.limits
  plan : ∀ routes, r.routes = some routes →
    ∀ path ∈ routes.paths, path.hops.length ≤ config.limits.maxHopsPerPath
  stored : ∃ records, Stored config.limits r.store records ∧
    Durable.replay config.limits (Durable.empty config.limits) records = .ok r.durable

/-- Comparing the bucket does no harm, and what it makes of the findings lasts. -/
def LastingComparison (r : ObservatoryRuntime) (key : SubjectKey) : Prop :=
  ∀ result, r.engine.compare (r.requestFor key) r.makeContext = .ok result →
    r.findings.Harmless result ∧ r.findings.Lasting result r.tick.now

/-- The store takes the records of the comparison: it answers once it is recorded. -/
def WritesComparison (r : ObservatoryRuntime) (key : SubjectKey) : Prop :=
  ∀ result recorded, r.engine.compare (r.requestFor key) r.makeContext = .ok result →
    r.findings.record result r.tick.now = .ok recorded →
      (r.compareBucket key true).1 = .ok result

/-- So for one bucket after the other, as far as the comparisons get. -/
def LastingComparisons (r : ObservatoryRuntime) : List SubjectKey → Prop
  | [] => True
  | key :: rest => r.LastingComparison key ∧ r.WritesComparison key ∧
      ((∃ result, (r.compareBucket key true).1 = .ok result) →
        (r.compareBucket key true).2.LastingComparisons rest)

/-- The requests are of the kinds that register, publish, offer, compare or prune. A source that
is written is one the registry accepts, a comparison is written, does no harm and lasts. -/
def LastingCall (r : ObservatoryRuntime) : Call → Prop
  | .registerSource descriptor => r.HarmlessSource descriptor
  | .publishTopology _ => True
  | .publishRoutes _ => True
  | .ingestEvidence _ => True
  | .compareGroup group => ∀ key, r.groupBucket group = some key →
      r.LastingComparison key ∧ r.WritesComparison key
  | .comparePath path => ∀ routes expected key, r.routes = some routes →
      routes.findPath path = some expected → r.groupBucket expected.group = some key →
        r.LastingComparison key ∧ r.WritesComparison key
  | .compareAll => r.LastingComparisons r.evidence.keys
  | .acknowledgeFinding _ => False
  | .pruneHistory => True
  | .flush => False
  | .stop => False

section
variable {limits : Limits} (hlimits : limits.validate = .ok ()) {d : Durable}
  {records : List StoredRecord}
include hlimits

/-- Findings that are written one after the other are restored in this order. -/
theorem persistFindings_stored {registry : FindingRegistry} {findings : List Finding}
    (hok : (r.persistFindings findings).1 = .ok ())
    (hstored : Stored limits r.store records)
    (hreplay : Durable.replay limits (Durable.empty limits) records = .ok d)
    (hfiled : ∀ finding ∈ findings, Filed limits finding.id finding)
    (hrestore : findings.foldlM restore d.findings = .ok registry) :
    ∃ kept, Stored limits (r.persistFindings findings).2.store kept ∧
      Durable.replay limits (Durable.empty limits) kept =
        .ok { d with findings := registry } := by
  induction findings generalizing r d records with
  | nil =>
    obtain rfl := Except.ok.inj hrestore
    exact ⟨records,hstored,hreplay⟩
  | cons finding rest ih =>
    obtain ⟨hone,hrest⟩ := List.forall_mem_cons.mp hfiled
    obtain ⟨next,hnext,hrestore⟩ := bind_eq_ok.mp hrestore
    obtain ⟨hhops,-,hstrings,hevidence,hbytes⟩ := Limits.lt_of_validate hlimits
    have hwritten := persistRecord_stored hstored hbytes .finding (Codec.encodeFinding finding)
    rcases r.persistFindings_cons_cases finding rest with
      ⟨e,s,-,hresult⟩ | ⟨s,hpersist,hresult⟩
    · rw [hresult] at hok
      cases hok
    · rw [hpersist] at hwritten
      rw [hresult] at hok ⊢
      rcases hwritten with ⟨⟨e,herror⟩,-⟩ | ⟨-,sequence,hkept⟩
      · cases herror
      · have hreads := Codec.reads_decodeFinding hone.fits hone.sealed.symm hevidence hhops
          hstrings
        have hrecord : Durable.replayRecord limits d
            { type := .finding, sequence := sequence, payload := Codec.encodeFinding finding } =
              .ok { d with findings := next } :=
          bind_eq_ok.mpr ⟨finding,decodeStored_of_reads hreads,
            bind_eq_ok.mpr ⟨next,hnext,rfl⟩⟩
        have hall := ih hok hkept (Durable.replay_concat hreplay hrecord) hrest hrestore
        exact hall

/-- The findings that carry the identity of a comparison are restored behind it. -/
theorem persistComparison_stored {registry : FindingRegistry} {result answer : ComparisonResult}
    {count : ℕ} (hok : (r.persistComparison result).1 = .ok answer)
    (hstored : Stored limits r.store records)
    (hreplay : Durable.replay limits (Durable.empty limits) records = .ok d)
    (hresult : result.Bounded count limits.maxHopsPerPath)
    (hcount : count ≤ limits.maxEvidencePerComparison)
    (hsealed : result.id = DigestId.fromDigest result.canonicalDigest)
    (hr : r.findings.Sound limits)
    (hrestore : (r.findings.all.filter (·.lastComparison = result.id)).foldlM restore
      d.findings = .ok registry) :
    ∃ kept, Stored limits (r.persistComparison result).2.store kept ∧
      Durable.replay limits (Durable.empty limits) kept =
        .ok { d with findings := registry } := by
  have hbytes := (Limits.lt_of_validate hlimits).2.2.2.2
  have hwritten := persistRecord_stored hstored hbytes .comparison
    (Codec.encodeComparison result)
  obtain ⟨store,hframe⟩ := r.persistRecord_frame .comparison (Codec.encodeComparison result)
  rcases r.persistComparison_cases result with ⟨e,s,-,hanswer⟩ | ⟨s,hpersist,hanswer⟩
  · rw [hanswer] at hok
    cases hok
  · rw [hpersist] at hwritten hframe
    obtain rfl : s = { r with store := store } := hframe
    rw [hanswer] at hok ⊢
    rcases hwritten with ⟨⟨e,herror⟩,-⟩ | ⟨-,sequence,hkept⟩
    · cases herror
    · have hnext := Durable.replay_concat hreplay (Durable.replayRecord_comparison hlimits d
        sequence hresult hcount hsealed)
      have hfiled : ∀ finding ∈ r.findings.all.filter (·.lastComparison = result.id),
          Filed limits finding.id finding := fun finding hmem =>
        hr.filed _ _ (hr.getElem?_of_mem_all (List.mem_of_mem_filter hmem))
      obtain ⟨_,hstatus,-⟩ := map_eq_ok.mp hok
      exact persistFindings_stored hlimits hstatus hkept hnext hfiled hrestore

end

namespace Remembered

theorem congr (h : Remembered config r) (hconfig : s.config = r.config)
    (hsources : s.sources = r.sources) (hfindings : s.findings = r.findings)
    (hroutes : s.routes = r.routes) (hstore : s.store = r.store) : Remembered config s := by
  refine ⟨hconfig.trans h.config_eq,h.limits,hfindings ▸ h.findings,hroutes ▸ h.plan,?_⟩
  obtain ⟨records,hstored,hreplay⟩ := h.stored
  rw [hstore, durable, hsources, hfindings]
  exact ⟨records,hstored,hreplay⟩

/-- A record may be written that leaves the registries alone. -/
theorem persistRecord (h : Remembered config r) {type : RecordType} {payload : ByteString}
    (hrecord : ∀ sequence, Durable.replayRecord config.limits r.durable
      { type := type, sequence := sequence, payload := payload } = .ok r.durable) :
    Remembered config (r.persistRecord type payload).2 := by
  obtain ⟨records,hstored,hreplay⟩ := h.stored
  have hbytes := (Limits.lt_of_validate h.limits).2.2.2.2
  have hwritten := persistRecord_stored hstored hbytes type payload
  obtain ⟨store,hframe⟩ := r.persistRecord_frame type payload
  rw [hframe] at hwritten ⊢
  refine ⟨h.config_eq,h.limits,h.findings,h.plan,?_⟩
  rcases hwritten with ⟨-,hkept⟩ | ⟨-,sequence,hkept⟩
  · exact ⟨records,hkept,hreplay⟩
  · exact ⟨_,hkept,Durable.replay_concat hreplay (hrecord sequence)⟩

/-- Records of expected state are not read back. -/
theorem persistExpected (h : Remembered config r) {type : RecordType}
    (htype : type = .topologyGeneration ∨ type = .routeGeneration) (payload : ByteString) :
    Remembered config (r.persistRecord type payload).2 := by
  refine h.persistRecord (fun sequence => ?_)
  rcases htype with rfl | rfl <;> rfl

theorem publishTopology (h : Remembered config r) (g : TopologyGeneration) :
    Remembered config (r.publishTopology g).2 := by
  rcases r.publishTopology_cases g with
    ⟨e,hresult⟩ | ⟨admitted,-,-,hresult⟩ | ⟨admitted,index,-,-,-,hresult⟩
  · rwa [hresult]
  · rwa [hresult]
  · rw [hresult]
    have hadopted : Remembered config (r.adoptTopology admitted index) :=
      h.congr rfl rfl rfl rfl rfl
    exact hadopted.persistExpected (Or.inl rfl) _

theorem publishRoutes (h : Remembered config r) (g : RouteGeneration) :
    Remembered config (r.publishRoutes g).2 := by
  rcases r.publishRoutes_cases g with
    ⟨e,hresult⟩ | ⟨admitted,-,-,hresult⟩ | ⟨admitted,hadmitted,-,hresult⟩
  · rwa [hresult]
  · rwa [hresult]
  · rw [hresult]
    have hhops := RouteGeneration.finalize_hops (admitRoutes_finalize hadmitted)
    have hadopted : Remembered config (r.adoptRoutes admitted) := by
      refine ⟨h.config_eq,h.limits,h.findings,fun routes hroutes => ?_,h.stored⟩
      rw [← Option.some.inj hroutes, ← h.config_eq]
      exact hhops
    exact hadopted.persistExpected (Or.inr rfl) _

/-- The store refused the record, or took one that leaves the registries alone. -/
theorem ingestEvidence (h : Remembered config r) (e : ObservedPathEvidence) :
    Remembered config (r.ingestEvidence e).2 := by
  obtain ⟨_,_,_,_,hframe⟩ := r.ingestEvidence_frame e
  obtain ⟨records,hstored,hreplay⟩ := h.stored
  have hkept : ∃ kept, Stored config.limits (r.ingestEvidence e).2.store kept ∧
      Durable.replay config.limits (Durable.empty config.limits) kept = .ok r.durable := by
    have hbytes := (Limits.lt_of_validate h.limits).2.2.2.2
    have hwritten := persistRecord_stored hstored hbytes .evidence (Codec.encodeEvidence e.seal_)
    rcases r.ingestEvidence_keeps e with hnothing | ⟨hscreened,key,hrecord⟩
    · rcases hnothing.store with hstore | ⟨⟨error,herror⟩,hstore⟩
      · exact ⟨records,hstore ▸ hstored,hreplay⟩
      · rcases hwritten with ⟨-,hkept⟩ | ⟨hok,-⟩
        · exact ⟨records,hstore ▸ hkept,hreplay⟩
        · rw [herror] at hok
          cases hok
    · have hvalid := validate_of_screened hscreened
      rw [h.config_eq] at hvalid
      rcases hwritten with ⟨⟨error,herror⟩,-⟩ | ⟨-,sequence,hkept⟩
      · have hok := hrecord.written
        rw [herror] at hok
        cases hok
      · exact ⟨_,hrecord.store ▸ hkept,Durable.replay_concat hreplay
          (Durable.replayRecord_evidence h.limits r.durable sequence
            (ObservedPathEvidence.validate_seal hvalid) rfl)⟩
  rw [hframe] at hkept ⊢
  exact ⟨h.config_eq,h.limits,h.findings,h.plan,hkept⟩

theorem registerSource (h : Remembered config r) {descriptor : SourceDescriptor}
    (hharmless : r.HarmlessSource descriptor) :
    Remembered config (r.registerSource descriptor).2 := by
  obtain ⟨records,hstored,hreplay⟩ := h.stored
  have hbytes := (Limits.lt_of_validate h.limits).2.2.2.2
  have hwritten := persistRecord_stored hstored hbytes .source (Codec.encodeSource descriptor)
  obtain ⟨store,hframe⟩ := r.persistRecord_frame .source (Codec.encodeSource descriptor)
  unfold ObservatoryRuntime.registerSource
  rcases hpersist : r.persistRecord .source (Codec.encodeSource descriptor) with ⟨e | _,t⟩
  · rw [hpersist] at hwritten hframe
    obtain rfl : t = { r with store := store } := hframe
    rcases hwritten with ⟨-,hkept⟩ | ⟨hok,-⟩
    · exact ⟨h.config_eq,h.limits,h.findings,h.plan,records,hkept,hreplay⟩
    · cases hok
  · rw [hpersist] at hwritten hframe
    obtain rfl : t = { r with store := store } := hframe
    obtain ⟨held,hheld,-⟩ := hstored
    have happended : (held.append .source (Codec.encodeSource descriptor)).1 = .ok () := by
      unfold ObservatoryRuntime.persistRecord at hpersist
      rw [hheld] at hpersist
      exact congrArg Prod.fst hpersist
    obtain ⟨haccepted,hname⟩ := hharmless held hheld happended
    rw [h.config_eq] at hname
    rcases hwritten with ⟨⟨e,herror⟩,-⟩ | ⟨-,sequence,hkept⟩
    · cases herror
    · cases hregister : r.sources.registerSource descriptor with
      | error e =>
        rw [hregister] at haccepted
        cases haccepted
      | ok sources =>
        simp only [hregister]
        exact ⟨h.config_eq,h.limits,h.findings,h.plan,_,hkept,Durable.replay_concat hreplay
          (Durable.replayRecord_source r.durable sequence hregister hname)⟩

theorem compare_bounded (h : Remembered config r) {key : SubjectKey} {result : ComparisonResult}
    (hcompare : r.engine.compare (r.requestFor key) r.makeContext = .ok result) :
    result.Bounded (r.requestFor key).evidence.length config.limits.maxHopsPerPath ∧
      (r.requestFor key).evidence.length ≤ config.limits.maxEvidencePerComparison ∧
      result.id = DigestId.fromDigest result.canonicalDigest :=
  compare_bounded_of_plan h.config_eq h.plan hcompare

theorem compareBucket (h : Remembered config r) {key : SubjectKey}
    (hlasting : r.LastingComparison key) (hwrites : r.WritesComparison key) :
    Remembered config (r.compareBucket key true).2 := by
  have htick : Remembered config r.tick := h.congr rfl rfl rfl rfl rfl
  rcases r.compareBucket_cases key true with ⟨e,-,hcompared⟩ | ⟨result,hcompare,hcompared⟩
  · rwa [hcompared]
  · rw [if_pos rfl] at hcompared
    obtain ⟨hharmless,hlasts⟩ := hlasting result hcompare
    obtain ⟨hbounded,hcount,hsealed⟩ := h.compare_bounded hcompare
    rcases r.tick.recordComparison_cases result with
      ⟨e,-,hrecorded⟩ | ⟨recorded,hrecord,hrecorded⟩
    · rw [hcompared, hrecorded]
      exact h.congr rfl rfl rfl rfl rfl
    · have hok := hwrites result recorded hcompare hrecord
      have hfindings := r.tick.folded_findings result recorded
      rw [hlasts.settled_eq h.findings hharmless hrecord] at hfindings
      obtain ⟨hsound,-⟩ := record_sound h.findings hbounded hharmless hrecord
      have hbecomes := hlasts.becomes hharmless hrecord
      rw [← hfindings] at hsound hbecomes
      obtain ⟨readings,findings,hfolded⟩ := r.tick.folded_frame result recorded
      have hstore : (r.tick.folded result recorded).store = r.store := by rw [hfolded]; rfl
      obtain ⟨records,hstored,hreplay⟩ := h.stored
      rw [hcompared, hrecorded] at hok ⊢
      obtain ⟨kept,hkept,hrebuilt⟩ := persistComparison_stored h.limits hok (hstore ▸ hstored)
        hreplay hbounded hcount hsealed hsound (hbecomes.restoreAll h.findings hsound)
      obtain ⟨store,hframe⟩ := (r.tick.folded result recorded).persistComparison_frame result
      rw [hframe] at hkept ⊢
      rw [hfolded] at hsound hrebuilt hkept ⊢
      exact ⟨h.config_eq,h.limits,hsound,h.plan,kept,hkept,hrebuilt⟩

theorem compareKeys (h : Remembered config r) {keys : List SubjectKey}
    (hlasting : r.LastingComparisons keys) : Remembered config (r.compareKeys keys).2 := by
  induction keys generalizing r with
  | nil => exact h
  | cons key rest ih =>
    obtain ⟨hlasts,hwrites,hrest⟩ := hlasting
    have hone := h.compareBucket hlasts hwrites
    rcases r.compareKeys_cons_cases key rest with
      ⟨e,s,hfirst,hanswer⟩ | ⟨result,s,hfirst,hanswer⟩
    · rw [hfirst] at hone
      rwa [hanswer]
    · rw [hfirst] at hone hrest
      rw [hanswer]
      exact ih hone (hrest ⟨result,rfl⟩)

theorem compareGroup (h : Remembered config r) {group : PathGroupId}
    (hlasting : ∀ key, r.groupBucket group = some key →
      r.LastingComparison key ∧ r.WritesComparison key) :
    Remembered config (r.compareGroup group).2 :=
  compareGroup_preserves h fun key hkey =>
    h.compareBucket (hlasting key hkey).1 (hlasting key hkey).2

theorem comparePath (h : Remembered config r) {path : PathId}
    (hlasting : ∀ routes expected key, r.routes = some routes →
      routes.findPath path = some expected → r.groupBucket expected.group = some key →
        r.LastingComparison key ∧ r.WritesComparison key) :
    Remembered config (r.comparePath path).2 := by
  refine comparePath_preserves h fun key hkey => ?_
  obtain ⟨routes,expected,hroutes,hexpected,hkey⟩ := pathBucket_eq_some.mp hkey
  obtain ⟨hlasts,hwrites⟩ := hlasting routes expected key hroutes hexpected hkey
  exact h.compareBucket hlasts hwrites

/-- A request that lasts keeps the store and the registries together. -/
theorem perform (h : Remembered config r) {call : Call} (hlasting : r.LastingCall call) :
    Remembered config (r.perform call) := by
  cases call with
  | registerSource descriptor => exact h.registerSource hlasting
  | publishTopology generation => exact h.publishTopology generation
  | publishRoutes generation => exact h.publishRoutes generation
  | ingestEvidence evidence => exact h.ingestEvidence evidence
  | compareGroup group => exact h.compareGroup hlasting
  | comparePath path => exact h.comparePath hlasting
  | compareAll => exact h.compareKeys hlasting
  | pruneHistory =>
    obtain ⟨history,hframe⟩ := r.pruneHistory_frame
    rw [ObservatoryRuntime.perform, hframe]
    exact h.congr rfl rfl rfl rfl rfl
  | acknowledgeFinding | flush | stop => exact hlasting.elim

/-- A result without a class that resolves findings of other comparisons leaves the store
with the findings as they were before. -/
theorem compareBucket_forgets (h : Remembered config r) {key : SubjectKey}
    {result : ComparisonResult} (hok : (r.compareBucket key true).1 = .ok result)
    (hprimary : result.primary = .none)
    (hother : ∀ finding ∈ r.findings.all, finding.lastComparison ≠ result.id) :
    ∃ records, Stored config.limits (r.compareBucket key true).2.store records ∧
      Durable.replay config.limits (Durable.empty config.limits) records = .ok r.durable := by
  have hcompare := compareBucket_eq_ok hok
  obtain ⟨hbounded,hcount,hsealed⟩ := h.compare_bounded hcompare
  obtain ⟨records,hstored,hreplay⟩ := h.stored
  have hrecord : r.findings.record result r.tick.now = .ok ({},r.findings) := if_pos hprimary
  have hrecorded := @recordComparison_of_record r.tick _ _ hrecord
  rw [compareBucket_of_compare hcompare, if_pos rfl, hrecorded] at hok ⊢
  have hresolved : (r.tick.folded result ({},r.findings)).findings =
      (r.findings.resolveFromMatch result r.tick.tick.now).2 := r.tick.folded_findings result _
  obtain ⟨readings,findings,hfolded⟩ := r.tick.folded_frame result ({},r.findings)
  have hstore : (r.tick.folded result ({},r.findings)).store = r.store := by rw [hfolded]; rfl
  have hsound := (resolveFromMatch_sound h.findings result r.tick.tick.now).1
  rw [← hresolved] at hsound
  have hnone : (r.tick.folded result ({},r.findings)).naming result = [] := by
    rw [naming, List.filter_eq_nil_iff, hresolved]
    intro finding hmem
    obtain ⟨held,hheld,hsame⟩ := mem_all_of_resolveFromMatch hmem
    rw [decide_eq_true_eq, hsame]
    exact hother held hheld
  exact persistComparison_stored h.limits hok (hstore ▸ hstored) hreplay hbounded hcount hsealed
    hsound (by rw [← naming, hnone]; rfl)

end Remembered

/-- The states of the runs of a persistent runtime whose requests last: it is started on
any file it can be started on. -/
inductive LastingRun (config : RuntimeConfig) : ObservatoryRuntime → Prop
  | boot {clock : ℕ → TimePoint} {sorter : Ranking.Sorter ranksBefore}
      {created started : ObservatoryRuntime} {content after : Option ByteString}
      (hcreate : create config (some clock) sorter = .ok created)
      (hstart : created.start content = (.ok (),started,after)) : LastingRun config started
  | call {r : ObservatoryRuntime} (h : LastingRun config r) {call : Call}
      (hcall : r.LastingCall call) : LastingRun config (r.perform call)

theorem LastingRun.remembered (h : LastingRun config r) (hpersist : config.persist = true)
    (hload : config.loadEvidenceOnStart = true) : ¬ BadThreads config ∧ Remembered config r := by
  induction h with
  | boot hcreate hstart =>
    obtain ⟨hcreatable,rfl⟩ := create_eq_ok.mp hcreate
    obtain ⟨hconfig,hroutes,records,hstored,hreplay⟩ :=
      loaded_of_start hcreatable.1 hpersist hload hstart
    refine ⟨(checks_of_start hcreatable.1 hstart).1,hconfig,hcreatable.1,?_,?_,records,hstored,
      hreplay⟩
    · exact Durable.sound_of_replay (FindingRegistry.sound_empty config.limits) hreplay
    · intro routes hheld
      rw [hroutes] at hheld
      cases hheld
  | call _ hcall ih => exact ⟨ih.1,ih.2.perform hcall⟩

theorem findings_of_durable (h : s.durable = r.durable) : s.findings = r.findings :=
  congrArg Durable.findings h

/-- A stop leaves the records alone. -/
theorem Stored.stop {limits : Limits} {records : List StoredRecord}
    (h : Stored limits r.store records) : Stored limits r.stop.2.store records := by
  obtain ⟨held,hheld,hretains⟩ := h
  rcases r.stop_cases with ⟨state,hresult⟩ | ⟨store,state,hstore,hresult⟩
  · rw [hresult]
    exact ⟨held,hheld,hretains⟩
  · obtain rfl := Option.some.inj (hheld.symm.trans hstore)
    rw [hresult]
    exact ⟨_,rfl,hretains.markClean r.now⟩

/-- A new runtime on what a stop left starts with what the records rebuild. -/
theorem start_after_stop {records : List StoredRecord} {d : Durable}
    (hthreads : ¬ BadThreads config) (hpersist : config.persist = true)
    (hload : config.loadEvidenceOnStart = true) (hstored : Stored config.limits r.store records)
    (hreplay : Durable.replay config.limits (Durable.empty config.limits) records = .ok d)
    {clock : ℕ → TimePoint} {sorter : Ranking.Sorter ranksBefore} {created : ObservatoryRuntime}
    (hcreate : create config (some clock) sorter = .ok created)
    (hclock : (clock 0).isSet = true) :
    ∃ started after, created.start (r.perform .stop).disk = (.ok (),started,after) ∧
      started.durable = d := by
  obtain ⟨hcreatable,rfl⟩ := create_eq_ok.mp hcreate
  obtain ⟨store,hstore,hretains⟩ := hstored.stop
  rw [perform, disk, hstore]
  exact start_of_retains hcreatable.1 hthreads hpersist hload hclock hretains hreplay

/-- After a run whose requests last, a new runtime with the same configuration starts on
what the run left and holds every finding with every field. -/
theorem findings_survive_restart (hrun : LastingRun config r) (hpersist : config.persist = true)
    (hload : config.loadEvidenceOnStart = true) {clock : ℕ → TimePoint}
    {sorter : Ranking.Sorter ranksBefore} {created : ObservatoryRuntime}
    (hcreate : create config (some clock) sorter = .ok created)
    (hclock : (clock 0).isSet = true) :
    ∃ started after, created.start (r.perform .stop).disk = (.ok (),started,after) ∧
      started.findings.all = r.findings.all := by
  obtain ⟨hthreads,hremembered⟩ := hrun.remembered hpersist hload
  obtain ⟨records,hstored,hreplay⟩ := hremembered.stored
  obtain ⟨started,after,hstart,hdurable⟩ :=
    start_after_stop hthreads hpersist hload hstored hreplay hcreate hclock
  have hfindings := findings_of_durable hdurable
  exact ⟨started,after,hstart,congrArg FindingRegistry.all hfindings⟩

section Samples
open ComparisonEngine (sampleContent sampleTrace samplePlan)

/-- A runtime whose clock jumps ahead at its fourth reading. -/
def createdEarly : ObservatoryRuntime :=
  fresh persistentConfig (fun reading => if reading ≤ 2 then ⟨1000⟩ else ⟨10000000000⟩)
    (Ranking.Sorter.insertion ranksBefore_ranksBy)

def bootedEarly : ObservatoryRuntime := (createdEarly.start none).2.1

/-- The trace of the plan, from the time that the clock jumps to. -/
def laterEvidence : ObservedPathEvidence :=
  { sampleContent 1 1 (sampleTrace 7 [1,2,3]) with
    observedAt := ⟨10000000000⟩, receivedAt := ⟨10000000000⟩ }

def awaiting : ObservatoryRuntime :=
  [Call.registerSource authoritySource,.registerSource probeSource,
    .publishTopology (emptyTopology 1),.publishRoutes samplePlan,
    .ingestEvidence laterEvidence].foldl perform bootedEarly

/-- The first comparison finds the trace in the future. -/
def doubtful : ObservatoryRuntime := awaiting.perform (.compareGroup ⟨1⟩)

/-- The second comparison finds it compliant. -/
def reassured : ObservatoryRuntime := doubtful.perform (.compareGroup ⟨1⟩)

def awaitedKey : SubjectKey := ⟨⟨1⟩,⟨⟨1⟩⟩⟩

theorem comparisons_evaluated :
    (awaiting.groupBucket ⟨1⟩ = some awaitedKey ∧ awaiting.findings.findings.isEmpty = true ∧
      0 < awaiting.findings.limits.maxFindings ∧
      (findingDetail .evidenceUnknown).length ≤ awaiting.findings.limits.maxStringBytes ∧
      (awaiting.compareBucket awaitedKey true).1.toOption.map
          (fun result => (result.outcome,result.primary)) =
        some (.indeterminate,.evidenceUnknown)) ∧
    doubtful.findings.all.map (·.status) = [.open_] ∧
    doubtful.groupBucket ⟨1⟩ = some awaitedKey ∧
    (doubtful.compareBucket awaitedKey true).1.toOption.map (fun result => (result.primary,
        doubtful.findings.all.all (fun finding => finding.lastComparison ≠ result.id))) =
      some (.none,true) ∧
    (doubtful.compareBucket awaitedKey true).2.findings.all.map (·.status) = [.resolved] := by
  decide +kernel

theorem LastingRun.register (h : LastingRun config r) (descriptor : SourceDescriptor)
    (hsources : (r.sources.registerSource descriptor).toBool = true)
    (hname : descriptor.name.length ≤ r.config.limits.maxStringBytes) :
    LastingRun config (r.perform (.registerSource descriptor)) :=
  .call h (fun _ _ _ => ⟨hsources,hname⟩)

/-- So does a run that takes both sources, the plan and the later trace. -/
theorem LastingRun.supply (h : LastingRun config r)
    (hauthority : (r.sources.registerSource authoritySource).toBool = true)
    (hnamed : authoritySource.name.length ≤ r.config.limits.maxStringBytes)
    (hprobe : ((r.perform (.registerSource authoritySource)).sources.registerSource
      probeSource).toBool = true)
    (hprobed : probeSource.name.length ≤
      (r.perform (.registerSource authoritySource)).config.limits.maxStringBytes) :
    LastingRun config ([Call.registerSource authoritySource,.registerSource probeSource,
      .publishTopology (emptyTopology 1),.publishRoutes samplePlan,
      .ingestEvidence laterEvidence].foldl perform r) := by
  have hregistered := (h.register authoritySource hauthority hnamed).register probeSource
    hprobe hprobed
  have hpublished := @LastingRun.call _ _ (@LastingRun.call _ _ hregistered
    (.publishTopology (emptyTopology 1)) trivial) (.publishRoutes samplePlan) trivial
  exact @LastingRun.call _ _ hpublished (.ingestEvidence laterEvidence) trivial

theorem awaiting_lasting : LastingRun persistentConfig awaiting := by
  have hok : (createdEarly.start none).1 = .ok () := by decide
  have hbooted : LastingRun persistentConfig bootedEarly :=
    .boot (rfl : create persistentConfig _ _ = .ok createdEarly) (Prod.ext hok rfl)
  exact hbooted.supply (by decide) (by decide) (by decide +kernel) (by decide +kernel)

/-- A comparison that opens the first finding lasts. -/
theorem LastingRun.compare (h : LastingRun config r) {group : PathGroupId} {key : SubjectKey}
    {outcome : MatchOutcome} {primary : DivergenceClass} (hkey : r.groupBucket group = some key)
    (hempty : r.findings.findings.isEmpty = true) (hroom : 0 < r.findings.limits.maxFindings)
    (hdetail : (findingDetail primary).length ≤ r.findings.limits.maxStringBytes)
    (hanswer : (r.compareBucket key true).1.toOption.map
      (fun result => (result.outcome,result.primary)) = some (outcome,primary))
    (hother : outcome ≠ .match_) : LastingRun config (r.perform (.compareGroup group)) := by
  obtain ⟨answer,hanswer,hfacts⟩ := Option.map_eq_some_iff.mp hanswer
  obtain ⟨houtcome,hprimary⟩ := Prod.mk.inj hfacts
  have hok := toOption_eq_some_iff.mp hanswer
  have hnone : r.findings.findings = ∅ := Std.ExtTreeMap.isEmpty_iff.mp hempty
  refine h.call (fun other hheld => ?_)
  obtain rfl := Option.some.inj (hkey.symm.trans hheld)
  have hresult : ∀ result, r.engine.compare (r.requestFor key) r.makeContext = .ok result →
      result = answer :=
    fun result hcompare => Except.ok.inj (hcompare.symm.trans (compareBucket_eq_ok hok))
  refine ⟨fun result hcompare => ?_,fun result _ hcompare _ => ?_⟩
  · obtain rfl := hresult result hcompare
    refine ⟨fun _ => Or.inl ⟨?_,hprimary ▸ hdetail⟩,fun _ existing hexisting => ?_,
      fun hmatch => ?_⟩
    · rwa [hnone, Std.ExtTreeMap.size_empty]
    · rw [hnone] at hexisting
      cases hexisting
    · exact absurd (houtcome.symm.trans hmatch) hother
  · rw [hok, hresult result hcompare]

theorem doubtful_lasting : LastingRun persistentConfig doubtful := by
  obtain ⟨⟨hkey,hempty,hroom,hdetail,hanswer⟩,-⟩ := comparisons_evaluated
  exact awaiting_lasting.compare hkey hempty hroom hdetail hanswer (by decide)

/-- The finding of the first comparison is there after a restart. -/
theorem doubtful_finding_survives : doubtful.findings.all.map (·.status) = [.open_] ∧
    ∃ started after, createdAtWork.start (doubtful.perform .stop).disk = (.ok (),started,after) ∧
      started.findings.all = doubtful.findings.all :=
  ⟨comparisons_evaluated.2.1,
    findings_survive_restart doubtful_lasting rfl rfl create_atWork (by decide)⟩

/-- The second comparison resolved it, and a new runtime finds it open. -/
theorem resolved_finding_returns_open : LastingRun persistentConfig doubtful ∧
    (∃ answer, (doubtful.compareGroup ⟨1⟩).1 = .ok answer) ∧
    reassured.findings.all.map (·.status) = [.resolved] ∧
    ∃ started after, createdAtWork.start (reassured.perform .stop).disk =
        (.ok (),started,after) ∧
      started.findings.all.map (·.status) = [.open_] := by
  obtain ⟨-,hopen,hkey,hanswer,hresolved⟩ := comparisons_evaluated
  obtain ⟨answer,hanswer,hfacts⟩ := Option.map_eq_some_iff.mp hanswer
  obtain ⟨hprimary,hall⟩ := Prod.mk.inj hfacts
  have hok := toOption_eq_some_iff.mp hanswer
  have hgroup := compareGroup_of_bucket hkey
  obtain ⟨hthreads,hremembered⟩ := doubtful_lasting.remembered rfl rfl
  have hother : ∀ finding ∈ doubtful.findings.all, finding.lastComparison ≠ answer.id :=
    fun finding hmem => of_decide_eq_true (List.all_eq_true.mp hall finding hmem)
  obtain ⟨records,hstored,hreplay⟩ := hremembered.compareBucket_forgets hok hprimary hother
  have hreassured : reassured = (doubtful.compareBucket awaitedKey true).2 := by
    rw [reassured, perform, hgroup]
  rw [hreassured, hgroup]
  obtain ⟨started,after,hstart,hdurable⟩ := start_after_stop hthreads rfl rfl hstored hreplay
    create_atWork (by decide)
  have hfindings := findings_of_durable hdurable
  exact ⟨doubtful_lasting,⟨answer,hok⟩,hresolved,started,after,hstart,hfindings ▸ hopen⟩

end Samples

end ObservatoryRuntime

end PathObservatory
