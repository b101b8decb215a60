import PathObservatory.Runtime.Publication
import PathObservatory.Runtime.Survival

/-! # Counters

The runtime counts what it does. Every counter is a total that wraps at its width. A
request is counted along its own branches, up to the one it leaves by; what it counts has
no influence on what it does.
-/
namespace PathObservatory

structure MetricsSnapshot where
  evidenceOffered : UInt64 := 0
  evidenceAccepted : UInt64 := 0
  evidenceRejected : UInt64 := 0
  evidenceUnregisteredSource : UInt64 := 0
  evidenceReplayed : UInt64 := 0
  evidenceGapEvents : UInt64 := 0
  comparisons : UInt64 := 0
  matches_ : UInt64 := 0
  divergences : UInt64 := 0
  indeterminate : UInt64 := 0
  unsupported : UInt64 := 0
  noExpectedState : UInt64 := 0
  findingsRecorded : UInt64 := 0
  findingsResolved : UInt64 := 0
  storeAppends : UInt64 := 0
  storeRecordsRecovered : UInt64 := 0
  storeCorruptTailTruncations : UInt64 := 0
deriving DecidableEq, Repr

namespace MetricsSnapshot

def addEvidenceOffered (m : MetricsSnapshot) (value : UInt64) : MetricsSnapshot :=
  { m with evidenceOffered := m.evidenceOffered + value }

def addEvidenceAccepted (m : MetricsSnapshot) (value : UInt64) : MetricsSnapshot :=
  { m with evidenceAccepted := m.evidenceAccepted + value }

def addEvidenceRejected (m : MetricsSnapshot) (value : UInt64) : MetricsSnapshot :=
  { m with evidenceRejected := m.evidenceRejected + value }

def addEvidenceUnregisteredSource (m : MetricsSnapshot) (value : UInt64) : MetricsSnapshot :=
  { m with evidenceUnregisteredSource := m.evidenceUnregisteredSource + value }

def addEvidenceReplayed (m : MetricsSnapshot) (value : UInt64) : MetricsSnapshot :=
  { m with evidenceReplayed := m.evidenceReplayed + value }

def addEvidenceGapEvents (m : MetricsSnapshot) (value : UInt64) : MetricsSnapshot :=
  { m with evidenceGapEvents := m.evidenceGapEvents + value }

def addComparison (m : MetricsSnapshot) (outcome : MatchOutcome) : MetricsSnapshot :=
  let m := { m with comparisons := m.comparisons + 1 }
  match outcome with
  | .match_ => { m with matches_ := m.matches_ + 1 }
  | .divergent => { m with divergences := m.divergences + 1 }
  | .indeterminate => { m with indeterminate := m.indeterminate + 1 }
  | .unsupported => { m with unsupported := m.unsupported + 1 }
  | .noExpectedState => { m with noExpectedState := m.noExpectedState + 1 }

def addFindingRecorded (m : MetricsSnapshot) : MetricsSnapshot :=
  { m with findingsRecorded := m.findingsRecorded + 1 }

def addFindingResolved (m : MetricsSnapshot) (value : UInt64) : MetricsSnapshot :=
  { m with findingsResolved := m.findingsResolved + value }

def addStoreAppend (m : MetricsSnapshot) : MetricsSnapshot :=
  { m with storeAppends := m.storeAppends + 1 }

def addStoreRecordsRecovered (m : MetricsSnapshot) (value : UInt64) : MetricsSnapshot :=
  { m with storeRecordsRecovered := m.storeRecordsRecovered + value }

def addStoreCorruptTailTruncation (m : MetricsSnapshot) : MetricsSnapshot :=
  { m with storeCorruptTailTruncations := m.storeCorruptTailTruncations + 1 }

end MetricsSnapshot

namespace ObservatoryRuntime

/-- An append counts when there is a store and it takes the record. -/
def countRecord (r : ObservatoryRuntime) (type : RecordType) (payload : ByteString)
    (m : MetricsSnapshot) : MetricsSnapshot :=
  match r.store with
  | none => m
  | some store =>
    match (store.append type payload).1 with
    | .ok () => m.addStoreAppend
    | .error _ => m

def countFindings (r : ObservatoryRuntime) (m : MetricsSnapshot) : List Finding → MetricsSnapshot
  | [] => m
  | finding :: rest =>
    let counted := r.countRecord .finding (Codec.encodeFinding finding) m
    match r.persistRecord .finding (Codec.encodeFinding finding) with
    | (.error _,_) => counted
    | (.ok (),r) => r.countFindings counted rest

def countTopology (r : ObservatoryRuntime) (generation : TopologyGeneration)
    (m : MetricsSnapshot) : MetricsSnapshot :=
  match r.admitTopology generation with
  | .error _ => m
  | .ok generation =>
    if r.topologyIsCurrent generation then m
    else
      match TopologyIndex.build generation r.config.limits with
      | .error _ => m
      | .ok _ => r.countRecord .topologyGeneration (Codec.encodeTopology generation) m

def countRoutes (r : ObservatoryRuntime) (generation : RouteGeneration) (m : MetricsSnapshot) :
    MetricsSnapshot :=
  match r.admitRoutes generation with
  | .error _ => m
  | .ok generation =>
    if r.routesAreCurrent generation then m
    else r.countRecord .routeGeneration (Codec.encodeRoutes generation) m

/-- A refusal at the screen is counted, and once more where the source is unknown. -/
def countRefused (r : ObservatoryRuntime) (e : ObservedPathEvidence) (m : MetricsSnapshot) :
    MetricsSnapshot :=
  let m := (m.addEvidenceOffered 1).addEvidenceRejected 1
  match e.validate r.config.limits, r.sources.find e.source with
  | .ok (),.error _ => m.addEvidenceUnregisteredSource 1
  | _,_ => m

/-- A record that the store refuses is counted neither as offered nor as rejected, and a
duplicate as offered only. -/
def countKept (r : ObservatoryRuntime) (e : ObservedPathEvidence) (m : MetricsSnapshot) :
    MetricsSnapshot :=
  match r.resolveSubject e with
  | .error _ => (m.addEvidenceOffered 1).addEvidenceRejected 1
  | .ok key =>
    if r.config.limits.maxEvidencePerComparison ≤ (r.bucket key).length then
      (m.addEvidenceOffered 1).addEvidenceRejected 1
    else if (r.bucket key).any (·.id = e.id) then m.addEvidenceOffered 1
    else
      let counted := r.countRecord .evidence (Codec.encodeEvidence e) m
      match (r.persistRecord .evidence (Codec.encodeEvidence e)).1 with
      | .error _ => counted
      | .ok () => (counted.addEvidenceOffered 1).addEvidenceAccepted 1

def countEvidence (r : ObservatoryRuntime) (e : ObservedPathEvidence) (m : MetricsSnapshot) :
    MetricsSnapshot :=
  match r.screenEvidence e with
  | .error _ => r.countRefused e m
  | .ok () =>
    let (outcome,ledger) := r.ledger.observe ⟨e.source,e.incarnation,e.sequence⟩
    let r := { r with ledger := ledger }
    if outcome.verdict = .replay then
      ((m.addEvidenceOffered 1).addEvidenceRejected 1).addEvidenceReplayed 1
    else
      (r.markGap e.source outcome.verdict).countKept e.seal_
        (if outcome.verdict = .gap then m.addEvidenceGapEvents 1 else m)

def countWritten (r : ObservatoryRuntime) (result : ComparisonResult) (m : MetricsSnapshot) :
    MetricsSnapshot :=
  let counted := r.countRecord .comparison (Codec.encodeComparison result) m
  match r.persistRecord .comparison (Codec.encodeComparison result) with
  | (.error _,_) => counted
  | (.ok (),r) =>
    r.countFindings counted (r.findings.all.filter (·.lastComparison = result.id))

def countRecorded (r : ObservatoryRuntime) (result : ComparisonResult) (m : MetricsSnapshot) :
    MetricsSnapshot :=
  let r := { r with history := r.history.append result.stored }
  match r.findings.record result r.now with
  | .error _ => m
  | .ok (finding,findings) =>
    let r := { r.tick with findings := findings }
    (r.settleFindings result finding).countWritten result
      (if finding.valid then m.addFindingRecorded
      else m.addFindingResolved (UInt64.ofNat (r.findings.resolveFromMatch result r.now).1))

def countBucket (r : ObservatoryRuntime) (key : SubjectKey) (record : Bool)
    (m : MetricsSnapshot) : MetricsSnapshot :=
  match r.engine.compare (r.requestFor key) r.makeContext with
  | .error _ => m
  | .ok result =>
    let counted := m.addComparison result.outcome
    if record then r.tick.countRecorded result counted else counted

def countGroup (r : ObservatoryRuntime) (group : PathGroupId) (m : MetricsSnapshot) :
    MetricsSnapshot :=
  match r.groupBucket group with
  | some key => r.countBucket key true m
  | none => m

def countPath (r : ObservatoryRuntime) (path : PathId) (m : MetricsSnapshot) : MetricsSnapshot :=
  match r.routes with
  | none => m
  | some routes =>
    match routes.findPath path with
    | none => m
    | some expected => r.countGroup expected.group m

def countKeys (r : ObservatoryRuntime) (m : MetricsSnapshot) : List SubjectKey → MetricsSnapshot
  | [] => m
  | key :: rest =>
    let counted := r.countBucket key true m
    match r.compareBucket key true with
    | (.error _,_) => counted
    | (.ok _,r) => r.countKeys counted rest

def countFlush (r : ObservatoryRuntime) (m : MetricsSnapshot) : MetricsSnapshot :=
  match r.store with
  | none => m
  | some _ => r.countFindings m r.findings.all

/-- What a request adds to the counters. -/
def count (r : ObservatoryRuntime) (m : MetricsSnapshot) : Call → MetricsSnapshot
  | .registerSource descriptor => r.countRecord .source (Codec.encodeSource descriptor) m
  | .publishTopology generation => r.countTopology generation m
  | .publishRoutes generation => r.countRoutes generation m
  | .ingestEvidence evidence => r.countEvidence evidence m
  | .compareGroup group => r.countGroup group m
  | .comparePath path => r.countPath path m
  | .compareAll => r.countKeys m r.evidence.keys
  | .acknowledgeFinding _ => m
  | .pruneHistory => m
  | .flush => r.countFlush m
  | .stop => m

/-- A start counts the records of a store that it opens, whether it reads them or not. -/
def countOpened (r : ObservatoryRuntime) (content : Option ByteString) (m : MetricsSnapshot) :
    MetricsSnapshot :=
  match (PersistentStore.open_ r.config.storePath r.storeOptions r.now content).1 with
  | .error _ => m
  | .ok store =>
    let m := m.addStoreRecordsRecovered (UInt64.ofNat store.recovery.validRecords)
    if store.recovery.corruptTailTruncated then m.addStoreCorruptTailTruncation else m

def countStart (r : ObservatoryRuntime) (content : Option ByteString) (m : MetricsSnapshot) :
    MetricsSnapshot :=
  if r.state = .running ∨ r.state = .stopping then m
  else if r.threads = 0 ∨ r.config.limits.maxWorkerThreads < r.threads then m
  else if r.config.persist then r.countOpened content m
  else m

end ObservatoryRuntime

def FindingRegistry.openCount (r : FindingRegistry) : ℕ :=
  (r.findings.toList.filter fun entry => entry.2.isOpen).length

/-- What a runtime reports of itself. -/
structure RuntimeStats where
  state : RuntimeState := .created
  metrics : MetricsSnapshot := {}
  evidenceBuckets : ℕ := 0
  evidenceRecords : ℕ := 0
  findings : ℕ := 0
  findingsOpen : ℕ := 0
  history : ℕ := 0
  queuePending : ℕ := 0
  epoch : EpochId := {}
  incarnation : IncarnationId := {}
  routeGeneration : RouteGenerationId := {}
  topologyGeneration : TopologyGenerationId := {}
  routeRevision : RevisionId := {}
  recovery : RecoveryReport := {}
  hasRouteGeneration : Bool := false
  hasTopologyGeneration : Bool := false
deriving DecidableEq, Repr

/-- A runtime with its counters. -/
structure MeteredRuntime where
  runtime : ObservatoryRuntime
  metrics : MetricsSnapshot := {}

namespace MeteredRuntime

def start (s : MeteredRuntime) (content : Option ByteString) : Status × MeteredRuntime :=
  ((s.runtime.start content).1,
    { runtime := (s.runtime.start content).2.1
      metrics := s.runtime.countStart content s.metrics })

def perform (s : MeteredRuntime) (call : ObservatoryRuntime.Call) : MeteredRuntime where
  runtime := s.runtime.perform call
  metrics := s.runtime.count s.metrics call

/-- The report of the runtime, with the number of tasks that are queued. -/
def stats (s : MeteredRuntime) (queuePending : ℕ) : RuntimeStats where
  state := s.runtime.state
  metrics := s.metrics
  evidenceBuckets := s.runtime.evidence.size
  evidenceRecords := (s.runtime.evidence.toList.map fun entry => entry.2.length).sum
  findings := s.runtime.findings.findings.size
  findingsOpen := s.runtime.findings.openCount
  history := s.runtime.history.records.length
  queuePending := queuePending
  epoch := s.runtime.epoch
  incarnation := s.runtime.incarnation
  routeRevision := s.runtime.routeRevision
  hasRouteGeneration := s.runtime.routes.isSome
  hasTopologyGeneration := s.runtime.topology.isSome
  routeGeneration := (s.runtime.routes.map (·.id)).getD {}
  topologyGeneration :=
    match s.runtime.routes,s.runtime.topology with
    | some routes,_ => routes.topology
    | none,some topology => topology.id
    | none,none => {}
  recovery := (s.runtime.store.map (·.recovery)).getD {}

end MeteredRuntime

/-! ## What counting preserves

A relation between the store and the counters that every single count keeps is kept by
every request. -/
namespace ObservatoryRuntime

/-- Each count in a comparison keeps the relation. -/
structure Counts (P : Option PersistentStore → MetricsSnapshot → Prop) : Prop where
  record : ∀ (r : ObservatoryRuntime) (type : RecordType) (payload : ByteString) (m),
    P r.store m → P (r.persistRecord type payload).2.store (r.countRecord type payload m)
  compared : ∀ store m outcome, P store m → P store (m.addComparison outcome)
  recorded : ∀ store m, P store m → P store m.addFindingRecorded
  resolved : ∀ store m value, P store m → P store (m.addFindingResolved value)

/-- So do the counts of an offer, and a mark in the header. -/
structure CountsOffers (P : Option PersistentStore → MetricsSnapshot → Prop) : Prop
    extends Counts P where
  offered : ∀ store m, P store m → P store (m.addEvidenceOffered 1)
  accepted : ∀ store m, P store m → P store (m.addEvidenceAccepted 1)
  rejected : ∀ store m, P store m → P store (m.addEvidenceRejected 1)
  unregistered : ∀ store m, P store m → P store (m.addEvidenceUnregisteredSource 1)
  replayed : ∀ store m, P store m → P store (m.addEvidenceReplayed 1)
  gap : ∀ store m, P store m → P store (m.addEvidenceGapEvents 1)

theorem countRecorded_of_refused {r : ObservatoryRuntime} {result : ComparisonResult} {e : Error}
    (h : r.findings.record result r.now = .error e) (m : MetricsSnapshot) :
    r.countRecorded result m = m := by
  unfold countRecorded
  have hrefused : ({ r with history := r.history.append result.stored } :
      ObservatoryRuntime).findings.record result
        ({ r with history := r.history.append result.stored } : ObservatoryRuntime).now =
      .error e := h
  simp only [hrefused]

/-- What the registry took is counted as recorded, or what it resolved is. -/
theorem countRecorded_of_record {r : ObservatoryRuntime} {result : ComparisonResult}
    {recorded : FindingId × FindingRegistry} (h : r.findings.record result r.now = .ok recorded)
    (m : MetricsSnapshot) :
    r.countRecorded result m = (r.folded result recorded).countWritten result
      (if recorded.1.valid then m.addFindingRecorded
      else m.addFindingResolved
        (UInt64.ofNat (recorded.2.resolveFromMatch result r.tick.now).1)) := by
  unfold countRecorded
  have hrecorded : ({ r with history := r.history.append result.stored } :
      ObservatoryRuntime).findings.record result
        ({ r with history := r.history.append result.stored } : ObservatoryRuntime).now =
      .ok recorded := h
  simp only [hrecorded]
  rfl

theorem countKeys_nil (r : ObservatoryRuntime) (m : MetricsSnapshot) : r.countKeys m [] = m := by
  exact Eq.refl _

theorem countKeys_cons (r : ObservatoryRuntime) (m : MetricsSnapshot) (key : SubjectKey)
    (rest : List SubjectKey) :
    r.countKeys m (key :: rest) = match r.compareBucket key true with
      | (.error _,_) => r.countBucket key true m
      | (.ok _,s) => s.countKeys (r.countBucket key true m) rest := by
  exact Eq.refl _

namespace Counts
variable {P : Option PersistentStore → MetricsSnapshot → Prop} (hP : Counts P)
  {r : ObservatoryRuntime} {m : MetricsSnapshot}
include hP

theorem findings (h : P r.store m) (findings : List Finding) :
    P (r.persistFindings findings).2.store (r.countFindings m findings) := by
  induction findings generalizing r m with
  | nil => exact h
  | cons finding rest ih =>
    have hone := hP.record r .finding (Codec.encodeFinding finding) m h
    rw [countFindings]
    rcases r.persistFindings_cons_cases finding rest with
      ⟨e,s,hpersist,hresult⟩ | ⟨s,hpersist,hresult⟩
    · rw [hpersist] at hone
      rw [hresult, hpersist]
      exact hone
    · rw [hpersist] at hone
      rw [hresult, hpersist]
      exact ih hone

theorem written (h : P r.store m) (result : ComparisonResult) :
    P (r.persistComparison result).2.store (r.countWritten result m) := by
  have hone := hP.record r .comparison (Codec.encodeComparison result) m h
  unfold countWritten
  rcases r.persistComparison_cases result with ⟨e,s,hpersist,hresult⟩ | ⟨s,hpersist,hresult⟩
  · rw [hpersist] at hone
    rw [hresult, hpersist]
    exact hone
  · rw [hpersist] at hone
    rw [hresult, hpersist]
    exact hP.findings hone _

theorem recording (h : P r.store m) (result : ComparisonResult) :
    P (r.recordComparison result).2.store (r.countRecorded result m) := by
  rcases r.recordComparison_cases result with ⟨e,hrecord,hresult⟩ | ⟨recorded,hrecord,hresult⟩
  · rw [hresult, countRecorded_of_refused hrecord]
    exact h
  · obtain ⟨_,_,hfolded⟩ := r.folded_frame result recorded
    rw [hresult, countRecorded_of_record hrecord]
    refine hP.written ?_ result
    have hstore : (r.folded result recorded).store = r.store := by rw [hfolded]
    rw [hstore]
    split_ifs
    · exact hP.recorded _ _ h
    · exact hP.resolved _ _ _ h

theorem bucket (h : P r.store m) (key : SubjectKey) (record : Bool) :
    P (r.compareBucket key record).2.store (r.countBucket key record m) := by
  unfold countBucket
  rcases r.compareBucket_cases key record with ⟨e,hcompare,hresult⟩ | ⟨result,hcompare,hresult⟩
  · rw [hresult, hcompare]
    exact h
  · have hcounted := hP.compared r.store m result.outcome h
    rw [hresult, hcompare]
    cases record with
    | true => exact hP.recording (r := r.tick) hcounted result
    | false => exact hcounted

theorem group (h : P r.store m) (group : PathGroupId) :
    P (r.compareGroup group).2.store (r.countGroup group m) := by
  unfold compareGroup countGroup
  cases r.groupBucket group with
  | some key => exact hP.bucket h key true
  | none => exact h

theorem path (h : P r.store m) (path : PathId) :
    P (r.comparePath path).2.store (r.countPath path m) := by
  unfold comparePath countPath
  cases r.routes with
  | none => exact h
  | some routes =>
    dsimp only
    cases routes.findPath path with
    | none => exact h
    | some expected =>
      dsimp only [countGroup]
      cases r.groupBucket expected.group with
      | some key => exact hP.bucket h key true
      | none => exact h

theorem keys (h : P r.store m) (keys : List SubjectKey) :
    P (r.compareKeys keys).2.store (r.countKeys m keys) := by
  induction keys generalizing r m with
  | nil =>
    rw [countKeys_nil]
    exact h
  | cons key rest ih =>
    have hone := hP.bucket h key true
    rw [countKeys_cons]
    rcases r.compareKeys_cons_cases key rest with
      ⟨e,s,hfirst,hanswer⟩ | ⟨result,s,hfirst,hanswer⟩
    · rw [hfirst] at hone
      rw [hanswer, hfirst]
      exact hone
    · rw [hfirst] at hone
      rw [hanswer, hfirst]
      exact ih hone

theorem source (h : P r.store m) (descriptor : SourceDescriptor) :
    P (r.registerSource descriptor).2.store
      (r.countRecord .source (Codec.encodeSource descriptor) m) := by
  have hone := hP.record r .source (Codec.encodeSource descriptor) m h
  rcases r.registerSource_cases descriptor with ⟨e,s,hpersist,hresult⟩ |
    ⟨s,hpersist,⟨e,-,hresult⟩ | ⟨sources,-,hresult⟩⟩
  · rw [hpersist] at hone
    rwa [hresult]
  · rw [hpersist] at hone
    rwa [hresult]
  · rw [hpersist] at hone
    rwa [hresult]

theorem topology (h : P r.store m) (generation : TopologyGeneration) :
    P (r.publishTopology generation).2.store (r.countTopology generation m) := by
  unfold publishTopology countTopology
  cases r.admitTopology generation with
  | error e => exact h
  | ok admitted =>
    dsimp only
    split_ifs
    · exact h
    · cases TopologyIndex.build admitted r.config.limits with
      | error e => exact h
      | ok index => exact hP.record (r.adoptTopology admitted index) _ _ _ h

theorem routes (h : P r.store m) (generation : RouteGeneration) :
    P (r.publishRoutes generation).2.store (r.countRoutes generation m) := by
  unfold publishRoutes countRoutes
  cases r.admitRoutes generation with
  | error e => exact h
  | ok admitted =>
    dsimp only
    split_ifs
    · exact h
    · exact hP.record (r.adoptRoutes admitted) _ _ _ h

theorem flush (h : P r.store m) : P r.flush.2.store (r.countFlush m) := by
  unfold countFlush
  rcases r.flush_cases with ⟨hstore,hresult⟩ | ⟨hstore,hresult⟩
  · rw [hresult]
    rw [hstore] at h ⊢
    exact h
  · obtain ⟨store,hstore⟩ := Option.ne_none_iff_exists'.mp hstore
    rw [hresult, hstore]
    exact hP.findings h _

/-- A request that neither offers evidence nor stops keeps the relation. -/
theorem perform (h : P r.store m) {call : Call} (hevidence : ∀ e, call ≠ .ingestEvidence e)
    (hstop : call ≠ .stop) : P (r.perform call).store (r.count m call) := by
  cases call with
  | registerSource descriptor => exact hP.source h descriptor
  | publishTopology generation => exact hP.topology h generation
  | publishRoutes generation => exact hP.routes h generation
  | ingestEvidence e => exact absurd rfl (hevidence e)
  | compareGroup group => exact hP.group h group
  | comparePath path => exact hP.path h path
  | compareAll => exact hP.keys h _
  | acknowledgeFinding id =>
    have hstore : (r.acknowledgeFinding id).2.store = r.store := by
      unfold acknowledgeFinding
      split <;> rfl
    exact hstore ▸ h
  | pruneHistory =>
    obtain ⟨history,hframe⟩ := r.pruneHistory_frame
    rw [ObservatoryRuntime.perform, hframe]
    exact h
  | flush => exact hP.flush h
  | stop => exact absurd rfl hstop

end Counts

namespace CountsOffers
variable {P : Option PersistentStore → MetricsSnapshot → Prop} (hP : CountsOffers P)
  {r : ObservatoryRuntime} {m : MetricsSnapshot}
include hP

theorem refused {store : Option PersistentStore} (h : P store m) (e : ObservedPathEvidence) :
    P store (r.countRefused e m) := by
  have hrejected := hP.rejected _ _ (hP.offered _ _ h)
  unfold countRefused
  dsimp only
  split
  · exact hP.unregistered _ _ hrejected
  · exact hrejected

theorem kept (h : P r.store m) (result : IngestResult) (e : ObservedPathEvidence) :
    P (r.keepEvidence result e).2.store (r.countKept e m) := by
  have hrejected := hP.rejected _ _ (hP.offered _ _ h)
  unfold countKept
  rcases r.keepEvidence_cases result e with ⟨error,hkey,hkept⟩ | ⟨key,hkey,hkept⟩
  · rw [hkept, hkey]
    exact hrejected
  · rw [hkey]
    dsimp only
    have hone := hP.record (r.setBucket key (r.bucket key)) .evidence (Codec.encodeEvidence e) m h
    have hstatus := (persistRecord_congr (r := r) (s := r.setBucket key (r.bucket key)) rfl .evidence
      (Codec.encodeEvidence e)).1
    rcases hkept with ⟨hfull,hkept⟩ | ⟨hroom,hsame,hkept⟩ | ⟨hroom,hnew,error,s,hpersist,hkept⟩ |
      ⟨hroom,hnew,s,hpersist,hkept⟩
    · rw [hkept, if_pos hfull]
      exact hrejected
    · rw [hkept, if_neg (not_le.mpr hroom), if_pos hsame]
      exact hP.offered _ _ h
    · rw [hpersist] at hone hstatus
      rw [hkept, if_neg (not_le.mpr hroom), if_neg (by simp [hnew]), ← hstatus]
      exact hone
    · rw [hpersist] at hone hstatus
      rw [hkept, if_neg (not_le.mpr hroom), if_neg (by simp [hnew]), ← hstatus]
      exact hP.accepted _ _ (hP.offered _ _ hone)

theorem evidence (h : P r.store m) (e : ObservedPathEvidence) :
    P (r.ingestEvidence e).2.store (r.countEvidence e m) := by
  unfold ingestEvidence countEvidence
  cases hscreen : r.screenEvidence e with
  | error refused => exact hP.refused h e
  | ok _ =>
    dsimp only
    split_ifs with hreplay hgap
    · exact hP.replayed _ _ (hP.rejected _ _ (hP.offered _ _ h))
    · refine hP.kept ?_ _ _
      rw [hgap]
      exact hP.gap _ _ h
    · refine hP.kept ?_ _ _
      unfold markGap
      split <;> exact h

/-- A relation that survives a mark in the header is kept by every request. -/
theorem perform (hclean : ∀ (s : PersistentStore) now m, P (some s) m →
    P (some (s.markClean now).2) m) (h : P r.store m) (call : Call) :
    P (r.perform call).store (r.count m call) := by
  by_cases hevidence : ∃ e, call = .ingestEvidence e
  · obtain ⟨e,rfl⟩ := hevidence
    exact hP.evidence h e
  · by_cases hstop : call = .stop
    · subst hstop
      rcases r.stop_cases with ⟨state,hresult⟩ | ⟨store,state,hstore,hresult⟩
      · exact (congrArg (fun s => P s.store m) hresult).mpr h
      · rw [hstore] at h
        exact (congrArg (fun s => P s.store m) hresult).mpr (hclean store r.now m h)
    · exact hP.toCounts.perform h (fun e heq => hevidence ⟨e,heq⟩) hstop

end CountsOffers

end ObservatoryRuntime

end PathObservatory
