import Mathlib.Data.String.Basic
import PathObservatory.Documents.Rfc3339
import PathObservatory.Laboratory.Fabric
import PathObservatory.Laboratory.Offers
import PathObservatory.Runtime.FailedComparison
import PathObservatory.Runtime.Runs
import PathObservatory.Runtime.SourceOrder

/-! # The comparison command

The command builds a laboratory, starts a runtime at the time of its plan or at a stated
one, publishes the plan, offers the evidence and reports every comparison.
-/
namespace PathObservatory

namespace ObservatoryRuntime

/-- Register one source after the other until one is refused. -/
def registerAll (r : ObservatoryRuntime) :
    List SourceDescriptor → Status × ObservatoryRuntime
  | [] => (.ok (),r)
  | descriptor :: rest =>
    match r.registerSource descriptor with
    | (.error e,r) => (.error e,r)
    | (.ok (),r) => r.registerAll rest

def publishLab (r : ObservatoryRuntime) (fabric : Synthetic.LabFabric) :
    Status × ObservatoryRuntime :=
  match r.registerAll fabric.sources with
  | (.error e,r) => (.error e,r)
  | (.ok (),r) =>
    match r.publishTopology fabric.topology with
    | (.error e,r) => (.error e,r)
    | (.ok (),r) => r.publishRoutes fabric.routes

/-- The answers to the offers, in their order. -/
def answersTo (r : ObservatoryRuntime) : List ObservedPathEvidence → List IngestResult
  | [] => []
  | e :: rest => (r.ingestEvidence e).1 :: (r.ingestEvidence e).2.answersTo rest

end ObservatoryRuntime

namespace CommandLine

/-- The options of a command line. -/
structure Options where
  values : OrderedMap String ByteString := ∅

/-- The number a text begins with, as the C library reads it: blanks and a sign may come
first, and what does not fit is the largest number. -/
def readNumber (text : ByteString) : Bool × ℕ :=
  let text := text.dropWhile (fun b => b = 0x20 ∨ (0x09 ≤ b ∧ b ≤ 0x0d))
  let digitsOf (text : ByteString) : ℕ :=
    (text.takeWhile (fun b => 0x30 ≤ b ∧ b ≤ 0x39)).foldl (fun n b => n * 10 + (b.toNat - 0x30)) 0
  match text with
  | 0x2d :: rest => (true,digitsOf rest)
  | 0x2b :: rest => (false,digitsOf rest)
  | rest => (false,digitsOf rest)

def strtoull (text : ByteString) : UInt64 :=
  let (negative,n) := readNumber text
  if 2 ^ 64 ≤ n then UInt64.ofNat (2 ^ 64 - 1)
  else if negative then 0 - UInt64.ofNat n
  else UInt64.ofNat n

def strtoll (text : ByteString) : Int64 :=
  let (negative,n) := readNumber text
  if negative then if 2 ^ 63 ≤ n then Int64.minValue else Int64.ofInt (-n)
  else if 2 ^ 63 ≤ n then Int64.maxValue else Int64.ofInt n

namespace Options
variable (options : Options)

def has (key : String) : Bool := options.values.contains key

def number (key : String) (fallback : UInt64) : UInt64 :=
  (options.values[key]?).elim fallback strtoull

def signedNumber (key : String) (fallback : Int64) : Int64 :=
  (options.values[key]?).elim fallback strtoll

end Options

def labOptions (options : Options) : Synthetic.LabOptions where
  hopCount := (options.number "hops" 4).toUInt32
  multipathMembers := (options.number "multipath" 1).toUInt32
  evidenceCount := (options.number "evidence-count" 1).toUInt32
  firstSequence := options.number "first-sequence" 1
  evidenceAgeNanos := options.signedNumber "evidence-age-nanos" 0
  epoch := options.number "epoch" 1
  incarnation := options.number "incarnation" 3
  routeGeneration := options.number "route-generation" 7
  topologyGeneration := options.number "topology-generation" 5
  revision := options.number "revision" 12
  diverge := options.has "diverge"
  partial_ := options.has "partial"
  omitLinks := options.has "omit-links"
  staleEpoch := options.has "stale-epoch"
  staleRevision := options.has "stale-revision"
  unknownGeneration := options.has "unknown-generation"
  emptyTrace := options.has "empty-trace"

def runtimeConfig (options : Options) : RuntimeConfig where
  loadEvidenceOnStart := !options.has "no-load"
  workerThreads := (options.number "workers" 2).toUInt32.toNat

/-- A started runtime without a store, whose clock stands still. -/
def makeRuntime (sorter : Ranking.Sorter ranksBefore) (options : Options) (now : TimePoint) :
    Result ObservatoryRuntime := do
  let runtime ← ObservatoryRuntime.create (runtimeConfig options) (some fun _ => now) sorter
  (runtime.start none).1
  return (runtime.start none).2.1

/-- What the command reports: why offers were refused, and the comparisons. -/
structure CompareReport where
  rejections : List String
  results : List ComparisonResult

/-- The time of the comparison, the time of the plan unless another one is stated. -/
def timeOf (options : Options) (received : TimePoint) : Result TimePoint :=
  match options.values["now"]? with
  | none => .ok received
  | some text => TimePoint.parseRfc3339 text

def commandCompare (sorter : Ranking.Sorter ranksBefore) (options : Options) :
    Result CompareReport := do
  let fabric ← Synthetic.buildLabFabric (labOptions options) {}
  let now ← timeOf options fabric.routes.received
  let runtime ← makeRuntime sorter options now
  (runtime.publishLab fabric).1
  let published := (runtime.publishLab fabric).2
  let answers := published.answersTo fabric.evidence
  let offered := published.ingestAll fabric.evidence
  let results ← offered.compareAll.1
  offered.compareAll.2.stop.1
  return {
    rejections := (answers.filter (!·.accepted)).map (·.detail)
    results := results }

end CommandLine

/-! ## A run of the comparison command

The command brings the plan of its laboratory in force, offers the evidence and compares the
one bucket it leaves.
-/

theorem SourceRegistry.registerSource_of_new {r : SourceRegistry} {descriptor : SourceDescriptor}
    (hvalid : descriptor.validate = .ok ()) (hnew : r.sources[descriptor.id]? = none) :
    r.registerSource descriptor =
      .ok { sources := r.sources.insert descriptor.id descriptor } := by
  unfold registerSource
  rw [hvalid]
  simp only [hnew]
  rfl

namespace ObservatoryRuntime
variable {r : ObservatoryRuntime}

theorem registerSource_of_no_store (hstore : r.store = none) {descriptor : SourceDescriptor}
    {sources : SourceRegistry} (h : r.sources.registerSource descriptor = .ok sources) :
    r.registerSource descriptor = (.ok (),{ r with sources := sources }) := by
  unfold registerSource
  rw [persistRecord_of_no_store hstore]
  simp only [h]

theorem publishTopology_of_no_store (hstore : r.store = none) {g admitted : TopologyGeneration}
    {index : TopologyIndex} (hadmitted : r.admitTopology g = .ok admitted)
    (hnews : r.topology = none) (hbuild : TopologyIndex.build admitted r.config.limits = .ok index) :
    r.publishTopology g = (.ok (),r.adoptTopology admitted index) := by
  have hcurrent : r.topologyIsCurrent admitted = false := by simp [topologyIsCurrent, hnews]
  have hpersist := persistRecord_of_no_store (r := r.adoptTopology admitted index) hstore
    .topologyGeneration (Codec.encodeTopology admitted)
  unfold publishTopology
  simp only [hadmitted, hcurrent, hbuild, Bool.false_eq_true, if_false]
  exact hpersist

theorem publishRoutes_of_no_store (hstore : r.store = none) {g admitted : RouteGeneration}
    (hadmitted : r.admitRoutes g = .ok admitted) (hnews : r.routes = none) :
    r.publishRoutes g = (.ok (),r.adoptRoutes admitted) := by
  have hcurrent : r.routesAreCurrent admitted = false := by simp [routesAreCurrent, hnews]
  have hpersist := persistRecord_of_no_store (r := r.adoptRoutes admitted) hstore .routeGeneration
    (Codec.encodeRoutes admitted)
  unfold publishRoutes
  simp only [hadmitted, hcurrent, Bool.false_eq_true, if_false]
  exact hpersist

/-- Without a store a result that has a place is recorded. -/
theorem recordComparison_of_no_store (hstore : r.store = none) {result : ComparisonResult}
    (hplace : r.findings.HasPlace result) :
    (r.recordComparison result).1 = .ok result ∧ (r.recordComparison result).2.store = none := by
  have hrecordable : r.Recordable result := by
    refine ⟨hplace,fun _ store _ hsome => ?_⟩
    exact absurd (hstore.symm.trans hsome) nofun
  obtain ⟨other,hother⟩ := recordComparison_isOk_iff.mpr hrecordable
  obtain rfl := recordComparison_eq_ok hother
  refine ⟨hother,?_⟩
  obtain ⟨recorded,hrecorded⟩ := FindingRegistry.record_isOk_iff.mpr hplace
  obtain ⟨readings,findings,hfolded⟩ := r.folded_frame other recorded
  have hnone : (r.folded other recorded).store = none := by rw [hfolded]; exact hstore
  rw [recordComparison_of_record hrecorded]
  unfold persistComparison
  rw [persistRecord_of_no_store hnone]
  simp only [persistFindings_of_none hnone]
  exact hnone

/-- A runtime with one bucket compares it. -/
theorem compareAll_of_one_bucket {key : SubjectKey} (hkeys : r.evidence.keys = [key])
    (hstore : r.store = none) {result : ComparisonResult}
    (hcompare : r.engine.compare (r.requestFor key) r.makeContext = .ok result)
    (hplace : r.findings.HasPlace result) :
    r.compareAll.1 = .ok [result] ∧ r.compareAll.2.store = none := by
  obtain ⟨hrecorded,hnone⟩ := @recordComparison_of_no_store r.tick hstore result hplace
  have hbucket : (r.compareBucket key true).1 = .ok result ∧
      (r.compareBucket key true).2.store = none := by
    rw [compareBucket_of_compare hcompare, if_pos rfl]
    exact ⟨hrecorded,hnone⟩
  unfold compareAll
  rw [hkeys]
  rcases r.compareKeys_cons_cases key [] with ⟨e,s,hfirst,-⟩ | ⟨first,s,hfirst,hanswer⟩
  · rw [hfirst] at hbucket
    cases hbucket.1
  · rw [hfirst] at hbucket
    rw [hanswer, ← Except.ok.inj hbucket.1]
    exact ⟨rfl,hbucket.2⟩

end ObservatoryRuntime

namespace Synthetic.LabOptions
open ObservatoryRuntime
variable {options : LabOptions} {now : TimePoint} {r : ObservatoryRuntime} {count : ℕ}

/-- What holds after any number of offers. -/
theorem Gathered.ingestAll (h : options.Gathered now 0 r) (hbuild : options.Buildable)
    (hobserving : options.Observing) (hdated : options.Dated) (hcount : count ≤ 4096) :
    options.Gathered now count (r.ingestAll ((List.range count).map options.offer)) := by
  induction count with
  | zero => exact h
  | succ count ih =>
    have hbefore := ih (by omega)
    have hsteps : r.ingestAll ((List.range (count + 1)).map options.offer) =
        ((r.ingestAll ((List.range count).map options.offer)).ingestEvidence
          (options.offer count)).2 := by
      simp [ObservatoryRuntime.ingestAll, List.range_succ]
    rw [hsteps]
    exact hbefore.ingest hbuild hobserving hdated (by omega)

/-- Offers that are not in order leave nothing. -/
theorem Prepared.ingestAll_of_disorder (h : options.Prepared now r) (hbuild : options.Buildable)
    (hobserving : options.Observing) (hnone : ∀ i < count, ¬ options.InOrder i) :
    r.ingestAll ((List.range count).map options.offer) = r := by
  induction count with
  | zero => rfl
  | succ count ih =>
    have hbefore := ih fun i hi => hnone i (by omega)
    have hsteps : r.ingestAll ((List.range (count + 1)).map options.offer) =
        ((r.ingestAll ((List.range count).map options.offer)).ingestEvidence
          (options.offer count)).2 := by
      simp [ObservatoryRuntime.ingestAll, List.range_succ]
    have hrefused := mt (h.screenEvidence_offer hbuild hobserving).mp (hnone count (by omega))
    rw [hsteps, hbefore]
    rcases r.ingestEvidence_cases (options.offer count) with
      ⟨_,-,hresult⟩ | ⟨hscreened,-⟩ | ⟨hscreened,-⟩
    · rw [hresult]
    · exact absurd hscreened hrefused
    · exact absurd hscreened hrefused

section Compared
variable (h : options.Gathered now count r) (hoffered : ∃ i < count, options.sequenceAt i ≠ 0)
include h hoffered

theorem Gathered.bucket_ne_nil : r.bucket options.subject ≠ [] := by
  rcases h.follows with ⟨-,hall⟩ | ⟨-,-,hheld⟩
  · obtain ⟨i,hi,hne⟩ := hoffered
    exact absurd (hall i hi) hne
  · exact hheld

theorem Gathered.keys_eq : r.evidence.keys = [options.subject] := by
  have hmem : ∀ key, key ∈ r.evidence.keys ↔ key ∈ [options.subject] := by
    intro key
    rw [Std.ExtTreeMap.mem_keys, List.mem_singleton]
    refine ⟨fun hkey => (h.keys key hkey).1,?_⟩
    rintro rfl
    exact mem_of_bucket_ne_nil (h.bucket_ne_nil hoffered)
  have hperm := (List.perm_ext_iff_of_nodup (OrderedMap.keys_nodup r.evidence)
    (List.nodup_singleton _)).mpr hmem
  exact List.perm_singleton.mp hperm

/-- The engine is asked what the laboratory is about. -/
theorem Gathered.judging (hcount : count ≤ 4096) :
    options.Judging r.engine (r.requestFor options.subject) r.makeContext where
  policy := h.policy
  limits := h.limits
  routes := h.routes
  topology := h.topology
  index := h.index
  sources := ⟨r.sources,rfl,h.source⟩
  epoch := h.epoch
  incarnation := h.incarnation
  revision := h.revision
  generation := rfl
  group := rfl
  path := rfl
  gapless := by
    show (r.bucket options.subject).any _ = false
    rw [List.any_eq_false]
    intro e he
    obtain ⟨⟨i,rfl⟩,-⟩ := h.records e he
    have hgapless := h.gapless
    have hsource : (options.offer i).source = options.observer.id := rfl
    rw [hsource, hgapless]
    decide
  offered := h.bucket_ne_nil hoffered
  bounded := h.length_le.trans hcount
  evidence := h.records

/-- All that is compared is the evidence, and the result is recorded. -/
theorem Gathered.compareAll (hbuild : options.Buildable) (hobserving : options.Observing)
    (hcount : count ≤ 4096) : ∃ result, r.compareAll.1 = .ok [result] ∧
      r.compareAll.2.store = none ∧ result.outcome = options.verdict now ∧
      (result.outcome = .match_ → result.matchedPath = ⟨pathId 0⟩) := by
  have hjudging := h.judging hoffered hcount
  have hnow : r.makeContext.now = now := h.clock r.readings
  obtain ⟨result,hcompare⟩ := hjudging.compare_ok hbuild
  have hplace : r.findings.HasPlace result := by
    rw [h.findings]
    exact Or.inr (Or.inr (Or.inl (by decide)))
  obtain ⟨hall,hstore⟩ := compareAll_of_one_bucket (h.keys_eq hoffered) h.store hcompare hplace
  refine ⟨result,hall,hstore,?_,hjudging.matchedPath_of_match hbuild hobserving hcompare⟩
  rw [hjudging.outcome_eq_verdict hbuild hobserving hcompare, hnow]

end Compared

/-- The registry with the authority of the laboratory. -/
def planningSource (options : LabOptions) : SourceRegistry where
  sources := (∅ : OrderedMap SourceId SourceDescriptor).insert options.planning.id options.planning

/-- The registry with both its sources. -/
def bothSources (options : LabOptions) : SourceRegistry where
  sources := options.planningSource.sources.insert options.observer.id options.observer

section Published
variable (hbuild : options.Buildable)
include hbuild

/-- A runtime that has no topology yet admits that of the laboratory. -/
theorem admitTopology_fabric (hlimits : r.config.limits = {})
    (hsource : r.sources.contains options.planning.id = true) (hepoch : r.epoch = {})
    (htopology : r.topology = none) :
    r.admitTopology options.topologyPlan.canonical = .ok options.topologyPlan.canonical := by
  have haccepted := topologyPlan_accepted hbuild.toSized hbuild.toIdentified
  have hfinal : options.topologyPlan.canonical.finalize r.config.limits =
      .ok options.topologyPlan.canonical := by
    rw [hlimits]
    exact TopologyGeneration.finalize_eq_ok.mpr
      ⟨haccepted.canonical,TopologyGeneration.canonical_canonical _⟩
  have hnamed : options.topologyPlan.canonical.source = options.planning.id :=
    congrArg TopologyGeneration.source (topologyPlan_rest options)
  unfold admitTopology
  refine bind_eq_ok.mpr ⟨_,hfinal,?_⟩
  simp only [↓require_bind_eq_ok, decide_eq_true_eq]
  refine ⟨hnamed ▸ hsource,?_,?_,rfl⟩
  · rintro ⟨hvalid,-⟩
    rw [hepoch] at hvalid
    exact absurd hvalid (by decide)
  · rintro ⟨current,hcurrent,-⟩
    rw [htopology] at hcurrent
    cases hcurrent

/-- The plan of the laboratory is about its topology, and of its epoch. -/
theorem admitRoutes_fabric (hlimits : r.config.limits = {})
    (hsource : r.sources.contains options.planning.id = true)
    (htopology : r.topology = some options.topologyPlan.canonical)
    (hepoch : r.epoch = ⟨options.planEpoch⟩) (hroutes : r.routes = none) :
    r.admitRoutes options.routesPlan.canonical = .ok options.routesPlan.canonical := by
  have haccepted := routesPlan_accepted hbuild.toSized hbuild.toIdentified
  have hfinal : options.routesPlan.canonical.finalize r.config.limits =
      .ok options.routesPlan.canonical := by
    rw [hlimits]
    exact RouteGeneration.finalize_eq_ok.mpr
      ⟨haccepted.canonical,RouteGeneration.canonical_canonical _⟩
  have hid : options.topologyPlan.canonical.id = ⟨options.topologyGeneration⟩ :=
    congrArg TopologyGeneration.id (topologyPlan_rest options)
  unfold admitRoutes
  refine bind_eq_ok.mpr ⟨_,hfinal,?_⟩
  simp only [↓require_bind_eq_ok, decide_eq_true_eq]
  refine ⟨hsource,by rw [htopology]; rfl,⟨_,htopology,hid.symm⟩,?_,?_,rfl⟩
  · rintro ⟨-,hlt⟩
    rw [hepoch] at hlt
    exact absurd hlt (lt_irrefl _)
  · rintro ⟨current,hcurrent,-⟩
    rw [hroutes] at hcurrent
    cases hcurrent

/-- The topology of the laboratory is within the bounds of the index. -/
theorem build_fabric : ∃ index,
    TopologyIndex.build options.topologyPlan.canonical {} = .ok index := by
  have haccepted := (topologyPlan_accepted hbuild.toSized hbuild.toIdentified).canonical
  exact ⟨_,TopologyIndex.build_eq_ok.mpr ⟨haccepted.devices_le,haccepted.links_le,rfl⟩⟩

theorem registerAll_fabric (hobserving : options.Observing) (hstore : r.store = none)
    (hsources : r.sources = {}) :
    r.registerAll options.fabric.sources = (.ok (),{ r with sources := options.bothSources }) := by
  have hplanning : r.sources.registerSource options.planning = .ok options.planningSource := by
    rw [hsources]
    exact SourceRegistry.registerSource_of_new (planning_validate.mpr hbuild.planning) (by simp)
  have hapart : options.planning.id ≠ options.observer.id :=
    fun heq => hobserving.apart (congrArg StrongId.value heq)
  have hobserver : options.planningSource.registerSource options.observer =
      .ok options.bothSources := by
    refine SourceRegistry.registerSource_of_new hbuild.observer_valid ?_
    simp [planningSource, hapart]
  have hfirst := registerSource_of_no_store hstore hplanning
  have hsecond := @registerSource_of_no_store { r with sources := options.planningSource } hstore _ _
    hobserver
  simp only [fabric, registerAll, hfirst, hsecond]

/-- A runtime that was just started takes the sources and the plan of the laboratory. -/
theorem publishLab_fabric (hobserving : options.Observing) (config : RuntimeConfig)
    (hlimits : config.limits = {}) (hpolicy : config.comparison = {})
    (sorter : Ranking.Sorter ranksBefore) (now : TimePoint) :
    ∃ s, ({ fresh config (fun _ => now) sorter with state := .running } :
        ObservatoryRuntime).publishLab options.fabric = (.ok (),s) ∧
      options.Gathered now 0 s := by
  obtain ⟨index,hindex⟩ := build_fabric hbuild
  set started : ObservatoryRuntime := { fresh config (fun _ => now) sorter with state := .running }
    with hstarted
  have hregistered := @registerAll_fabric options started hbuild hobserving rfl rfl
  have hcontains : options.bothSources.contains options.planning.id = true := by
    simp [SourceRegistry.contains, bothSources, planningSource]
  have hobserver : options.bothSources.find options.observer.id = .ok options.observer := by
    simp [SourceRegistry.find, bothSources]
  set registered : ObservatoryRuntime := { started with sources := options.bothSources }
    with hregisteredEq
  have hadmitted := @admitTopology_fabric options registered hbuild hlimits hcontains rfl rfl
  have htopology := publishTopology_of_no_store (r := registered) rfl hadmitted rfl
    (hlimits.symm ▸ hindex)
  have hepoch : options.topologyPlan.canonical.epoch = ⟨options.planEpoch⟩ :=
    congrArg TopologyGeneration.epoch (topologyPlan_rest options)
  set connected := registered.adoptTopology options.topologyPlan.canonical index
  have hplanned := @admitRoutes_fabric options connected hbuild hlimits hcontains rfl hepoch rfl
  have hroutes := publishRoutes_of_no_store (r := connected) rfl hplanned rfl
  refine ⟨connected.adoptRoutes options.routesPlan.canonical,?_,?_⟩
  · unfold publishLab
    rw [hregistered]
    simp only [fabric, htopology, hroutes]
  · have hempty : ∀ key, ¬ key ∈ (connected.adoptRoutes options.routesPlan.canonical).evidence :=
      fun key => Std.ExtTreeMap.not_mem_empty
    have hbucket : (connected.adoptRoutes options.routesPlan.canonical).bucket options.subject =
        [] := by simp [bucket, connected, registered, started, adoptRoutes, adoptTopology, fresh]
    exact {
      limits := hlimits
      policy := hpolicy
      clock := fun _ => rfl
      store := rfl
      findings := by rw [← hlimits]; rfl
      source := hobserver
      topology := rfl
      index := ⟨index,rfl,hindex⟩
      routes := rfl
      epoch := rfl
      incarnation := rfl
      revision := rfl
      keys := fun key hkey => absurd hkey (hempty key)
      records := by
        rw [hbucket]
        exact fun _ hmem => absurd hmem List.not_mem_nil
      length_le := by rw [hbucket]; exact Nat.le_refl _
      gapless := by simp [connected, registered, started, adoptRoutes, adoptTopology, fresh]
      follows := by
        refine Or.inl ⟨?_,fun i hi => absurd hi (Nat.not_lt_zero i)⟩
        simp [SourceSequenceLedger.entryOf, connected, registered, started, adoptRoutes,
          adoptTopology, fresh] }

end Published

end Synthetic.LabOptions

namespace CommandLine
open ObservatoryRuntime Synthetic.LabOptions
variable {options : Options} {now : TimePoint} {sorter : Ranking.Sorter ranksBefore}

/-- The runtime starts exactly when the bounds allow the number of its worker threads. -/
theorem start_command : (fresh (runtimeConfig options) (fun _ => now) sorter).start none =
    if (runtimeConfig options).workerThreads ≤ 64 then
      (.ok (),{ fresh (runtimeConfig options) (fun _ => now) sorter with state := .running },none)
    else
      (.error { code := .outOfRange,
                message := "worker thread count is outside the configured bounds" },
        fresh (runtimeConfig options) (fun _ => now) sorter,none) := by
  have hdefault : (runtimeConfig options).limits = {} := rfl
  split_ifs with hworkers
  · refine start_fresh ?_
    unfold BadThreads
    rw [hdefault]
    split_ifs
    · decide
    · simp only [not_or, not_lt]
      omega
  · have hthreads : (fresh (runtimeConfig options) (fun _ => now) sorter).threads =
        (runtimeConfig options).workerThreads := by
      apply if_neg
      show (runtimeConfig options).workerThreads ≠ 0
      omega
    unfold start
    rw [if_neg (by simp [fresh]), if_neg (by simp [fresh]), if_pos]
    rw [hthreads]
    exact Or.inr (not_le.mp hworkers)

theorem makeRuntime_eq_ok {r : ObservatoryRuntime} : makeRuntime sorter options now = .ok r ↔
    (runtimeConfig options).workerThreads ≤ 64 ∧
      { fresh (runtimeConfig options) (fun _ => now) sorter with state := .running } = r := by
  have hcreate : create (runtimeConfig options) (some fun _ => now) sorter =
      .ok (fresh (runtimeConfig options) (fun _ => now) sorter) :=
    create_eq_ok.mpr ⟨⟨rfl,rfl,fun hcase => absurd hcase.1 Bool.false_ne_true⟩,rfl⟩
  unfold makeRuntime
  simp only [hcreate, bind_eq_ok, pure_eq_ok, Except.ok.injEq, exists_eq_left', start_command]
  split_ifs with hworkers
  · simp [hworkers]
  · simp [hworkers]

/-- The source of the command's laboratory is a simulator that advises. -/
theorem labOptions_observing (options : Options) : (labOptions options).Observing :=
  ⟨Or.inr rfl,le_refl _,fun heq => nomatch heq⟩

/-- What the command reports of a laboratory at a time: the verdict on the evidence, or
nothing where no record is in order. -/
def Reports (lab : Synthetic.LabOptions) (now : TimePoint) (results : List ComparisonResult) :
    Prop :=
  (∃ i < lab.evidenceCount.toNat, lab.InOrder i) ∧
      (∃ result, results = [result] ∧ result.outcome = lab.verdict now ∧
        (result.outcome = .match_ → result.matchedPath = ⟨pathId 0⟩)) ∨
    (∀ i < lab.evidenceCount.toNat, ¬ lab.InOrder i) ∧ results = []

/-- Whatever is offered, all of it is compared and nothing is stored. -/
theorem compareAll_offered {lab : Synthetic.LabOptions} (hbuild : lab.Buildable)
    (hobserving : lab.Observing) {r : ObservatoryRuntime} (h : lab.Gathered now 0 r) :
    ∃ results, (r.ingestAll lab.fabric.evidence).compareAll.1 = .ok results ∧
      (r.ingestAll lab.fabric.evidence).compareAll.2.store = none ∧ Reports lab now results := by
  have hevidence : lab.fabric.evidence =
      (List.range lab.evidenceCount.toNat).map lab.offer := rfl
  rw [hevidence]
  by_cases horderly : ∃ i < lab.evidenceCount.toNat, lab.InOrder i
  · have hordered := horderly
    obtain ⟨i,hi,hdated,hsequence⟩ := hordered
    have hafter := h.ingestAll hbuild hobserving hdated hbuild.evidence_le
    obtain ⟨result,hresults,hstore,hverdict,hmatched⟩ :=
      hafter.compareAll ⟨i,hi,hsequence⟩ hbuild hobserving hbuild.evidence_le
    exact ⟨[result],hresults,hstore,Or.inl ⟨horderly,result,rfl,hverdict,hmatched⟩⟩
  · have hnone : ∀ i < lab.evidenceCount.toNat, ¬ lab.InOrder i :=
      fun i hi hordered => horderly ⟨i,hi,hordered⟩
    have hbucket := List.length_eq_zero_iff.mp (Nat.le_zero.mp h.length_le)
    have hempty : r.evidence.keys = [] := by
      apply List.eq_nil_iff_forall_not_mem.mpr
      intro key hkey
      exact (h.keys key (Std.ExtTreeMap.mem_keys.mp hkey)).2 hbucket
    rw [h.toPrepared.ingestAll_of_disorder hbuild hobserving hnone]
    unfold compareAll
    rw [hempty]
    exact ⟨[],rfl,h.store,Or.inr ⟨hnone,rfl⟩⟩

theorem stop_ok_of_no_store {r : ObservatoryRuntime} (hstore : r.store = none) :
    r.stop.1 = .ok () := by
  unfold stop
  by_cases hstopped : r.state = .stopped
  · rw [if_pos hstopped]
  · rw [if_neg hstopped, hstore]

/-- Where the laboratory is built and the runtime starts, the command answers. -/
theorem commandCompare_answers (sorter : Ranking.Sorter ranksBefore)
    (hbuild : (labOptions options).Buildable) (hnow : timeOf options created = .ok now)
    (hworkers : (runtimeConfig options).workerThreads ≤ 64) :
    ∃ report, commandCompare sorter options = .ok report ∧
      Reports (labOptions options) now report.results := by
  have hobserving := labOptions_observing options
  obtain ⟨published,hpublished,hgathered⟩ :=
    publishLab_fabric hbuild hobserving (runtimeConfig options) rfl rfl sorter now
  obtain ⟨results,hresults,hstore,hreports⟩ := compareAll_offered hbuild hobserving hgathered
  set answers := published.answersTo (labOptions options).fabric.evidence
  refine ⟨⟨(answers.filter (!·.accepted)).map (·.detail),results⟩,?_,hreports⟩
  unfold commandCompare
  refine bind_eq_ok.mpr ⟨_,buildLabFabric_eq_ok.mpr ⟨hbuild,rfl⟩,?_⟩
  refine bind_eq_ok.mpr ⟨now,hnow,?_⟩
  refine bind_eq_ok.mpr ⟨_,makeRuntime_eq_ok.mpr ⟨hworkers,rfl⟩,?_⟩
  rw [hpublished]
  refine bind_eq_ok.mpr ⟨(),rfl,?_⟩
  refine bind_eq_ok.mpr ⟨results,hresults,?_⟩
  exact bind_eq_ok.mpr ⟨(),stop_ok_of_no_store hstore,rfl⟩

/-- The command answers exactly when its laboratory can be built, the time can be read and
the worker threads are within the bounds. It then reports the verdict that follows from the
options, whatever they are. -/
theorem compare_command_reports (sorter : Ranking.Sorter ranksBefore) (options : Options) :
    ((∃ report, commandCompare sorter options = .ok report) ↔
      (labOptions options).Buildable ∧ (∃ now, timeOf options created = .ok now) ∧
        (runtimeConfig options).workerThreads ≤ 64) ∧
    ∀ report now, commandCompare sorter options = .ok report → timeOf options created = .ok now →
      Reports (labOptions options) now report.results := by
  have hneeds : ∀ report, commandCompare sorter options = .ok report →
      (labOptions options).Buildable ∧ (∃ now, timeOf options created = .ok now) ∧
        (runtimeConfig options).workerThreads ≤ 64 := by
    intro report h
    unfold commandCompare at h
    obtain ⟨fabric,hfabric,h⟩ := bind_eq_ok.mp h
    obtain ⟨now,hnow,h⟩ := bind_eq_ok.mp h
    obtain ⟨runtime,hruntime,-⟩ := bind_eq_ok.mp h
    obtain ⟨hbuild,rfl⟩ := buildLabFabric_eq_ok.mp hfabric
    exact ⟨hbuild,⟨now,hnow⟩,(makeRuntime_eq_ok.mp hruntime).1⟩
  refine ⟨⟨fun ⟨report,h⟩ => hneeds report h,?_⟩,?_⟩
  · rintro ⟨hbuild,⟨now,hnow⟩,hworkers⟩
    obtain ⟨report,hreport,-⟩ := commandCompare_answers sorter hbuild hnow hworkers
    exact ⟨report,hreport⟩
  · intro report now h hnow
    obtain ⟨hbuild,-,hworkers⟩ := hneeds report h
    obtain ⟨other,hother,hreports⟩ := commandCompare_answers sorter hbuild hnow hworkers
    obtain rfl := Except.ok.inj (hother.symm.trans h)
    exact hreports

end CommandLine

end PathObservatory
