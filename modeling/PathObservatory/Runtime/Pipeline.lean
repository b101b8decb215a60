import PathObservatory.Runtime.Observatory

/-! # Observation, comparison and lifecycle

Evidence is screened, sequenced, sealed and kept in the bucket of its subject.
Comparing a bucket folds the result into the history and the findings, and a
store records it. A restart reads the records back, except expected state.
-/
namespace PathObservatory
namespace ObservatoryRuntime

/-- The group the current plan gives evidence that names none. -/
def planGroup (routes : RouteGeneration) (e : ObservedPathEvidence) : MaybeId .pathGroup :=
  match if e.path.present then routes.findPath e.path.value else none with
  | some path => ⟨path.group⟩
  | none =>
    if e.origin.present ∧ e.destination.present then
      match routes.findGroupByEndpoints e.origin.value e.destination.value with
      | (some group,false) => ⟨group.id⟩
      | _ => {}
    else {}

/-- The generation evidence is about: the one it names, or the current one. -/
def subjectGeneration (r : ObservatoryRuntime) (e : ObservedPathEvidence) :
    Result RouteGenerationId :=
  if e.routeGeneration.present then .ok e.routeGeneration.value
  else
    match r.routes with
    | some routes => .ok routes.id
    | none => .error
        { code := .unknownGeneration,
          message := "evidence names no route generation and no generation is current" }

def resolveSubject (r : ObservatoryRuntime) (e : ObservedPathEvidence) : Result SubjectKey := do
  let generation ← r.subjectGeneration e
  if e.group.present then return { generation := generation, group := e.group }
  else
    match r.routes with
    | some routes =>
      if routes.id ≠ generation then return { generation := generation }
      else return { generation := generation, group := planGroup routes e }
    | none => return { generation := generation }

def bucket (r : ObservatoryRuntime) (key : SubjectKey) : List ObservedPathEvidence :=
  (r.evidence[key]?).getD []

def setBucket (r : ObservatoryRuntime) (key : SubjectKey) (bucket : List ObservedPathEvidence) :
    ObservatoryRuntime :=
  { r with evidence := r.evidence.insert key bucket }

/-- The checks made before the sequence ledger sees the record. -/
def screenEvidence (r : ObservatoryRuntime) (e : ObservedPathEvidence) :
    Except IngestResult Unit :=
  match e.validate r.config.limits with
  | .error error => .error { reason := .evidenceUnknown, detail := error.message }
  | .ok () =>
    match r.sources.find e.source with
    | .error _ => .error
        { reason := .authorityInsufficient,
          detail := "evidence was produced by an unregistered source" }
    | .ok descriptor =>
      if descriptor.authority < e.authority then .error
        { reason := .authorityInsufficient,
          detail := "evidence claims more authority than its source is registered with" }
      else if descriptor.surface ≠ e.surface then .error
        { reason := .evidenceUnknown,
          detail := "evidence proof surface does not match the registered source" }
      else .ok ()

/-- A gap marks the source, a new incarnation clears the mark. -/
def markGap (r : ObservatoryRuntime) (source : SourceId)
    (verdict : SourceSequenceLedger.Verdict) : ObservatoryRuntime :=
  match verdict with
  | .gap => { r with sourceHasGap := r.sourceHasGap.insert source true }
  | .newIncarnation => { r with sourceHasGap := r.sourceHasGap.insert source false }
  | _ => r

/-- Put a sealed record into its bucket; the bucket exists from here on even if
the record is refused. -/
def keepEvidence (r : ObservatoryRuntime) (result : IngestResult) (e : ObservedPathEvidence) :
    IngestResult × ObservatoryRuntime :=
  match r.resolveSubject e with
  | .error error =>
    ({ result with reason := .evidenceUnknown, detail := error.message },r)
  | .ok key =>
    let bucket := r.bucket key
    let r := r.setBucket key bucket
    if r.config.limits.maxEvidencePerComparison ≤ bucket.length then
      ({ result with reason := .evidenceIncomplete,
                     detail := "evidence bucket has reached the configured bound" },r)
    else if bucket.any (·.id = e.id) then
      ({ result with accepted := true,
                     detail := "duplicate evidence identity: already recorded" },r)
    else
      match r.persistRecord .evidence (Codec.encodeEvidence e) with
      | (.error error,r) =>
        ({ result with reason := .evidenceUnknown, detail := error.message },r)
      | (.ok (),r) =>
        ({ result with persisted := true, accepted := true },r.setBucket key (bucket ++ [e]))

def ingestEvidence (r : ObservatoryRuntime) (e : ObservedPathEvidence) :
    IngestResult × ObservatoryRuntime :=
  match r.screenEvidence e with
  | .error refused => (refused,r)
  | .ok () =>
    let (outcome,ledger) := r.ledger.observe ⟨e.source,e.incarnation,e.sequence⟩
    let r := { r with ledger := ledger }
    if outcome.verdict = .replay then
      ({ reason := .sourceSequenceReplay, replay := true,
         detail := "source sequence has already been accepted for this incarnation" },r)
    else
      (r.markGap e.source outcome.verdict).keepEvidence
        { sequenceGap := outcome.verdict = .gap, id := e.seal_.id } e.seal_

def makeContext (r : ObservatoryRuntime) : ComparisonContext where
  routes := r.routes
  topology := r.topology
  topologyIndex := r.topologyIndex
  sources := some r.sources
  authority := { epoch := r.epoch, incarnation := r.incarnation,
                 routeRevision := r.routeRevision, topologyRevision := r.topologyRevision }
  now := r.now

def engine (r : ObservatoryRuntime) : ComparisonEngine where
  limits := r.config.limits
  policy := r.config.comparison
  sorter := r.sorter

def requestFor (r : ObservatoryRuntime) (key : SubjectKey) : ComparisonRequest where
  generation := key.generation
  group := key.group
  evidence := r.bucket key
  sourceSequenceGap := (r.bucket key).any (fun e => (r.sourceHasGap[e.source]?).getD false)

/-- Write a comparison and the findings it touched. -/
def persistComparison (r : ObservatoryRuntime) (result : ComparisonResult) :
    Result ComparisonResult × ObservatoryRuntime :=
  match r.persistRecord .comparison (Codec.encodeComparison result) with
  | (.error e,r) => (.error e,r)
  | (.ok (),r) =>
    match r.persistFindings (r.findings.all.filter (·.lastComparison = result.id)) with
    | (.error e,r) => (.error e,r)
    | (.ok (),r) => (.ok result,r)

/-- A comparison without a finding may resolve what was open. -/
def settleFindings (r : ObservatoryRuntime) (result : ComparisonResult) (finding : FindingId) :
    ObservatoryRuntime :=
  if finding.valid then r
  else { r.tick with findings := (r.findings.resolveFromMatch result r.now).2 }

/-- Fold a result into the history and the findings, then persist it. -/
def recordComparison (r : ObservatoryRuntime) (result : ComparisonResult) :
    Result ComparisonResult × ObservatoryRuntime :=
  let r := { r with history := r.history.append result.stored }
  match r.findings.record result r.now with
  | .error e => (.error e,r.tick)
  | .ok (finding,findings) =>
    ({ r.tick with findings := findings }.settleFindings result finding).persistComparison result

def compareBucket (r : ObservatoryRuntime) (key : SubjectKey) (record : Bool) :
    Result ComparisonResult × ObservatoryRuntime :=
  match r.engine.compare (r.requestFor key) r.makeContext with
  | .error e => (.error e,r.tick)
  | .ok result => if record then r.tick.recordComparison result else (.ok result,r.tick)

/-- The first bucket of a group, in the order of the keys. -/
def groupBucket (r : ObservatoryRuntime) (group : PathGroupId) : Option SubjectKey :=
  r.evidence.keys.find? (fun key => key.group.present && key.group.value = group)

def compareGroup (r : ObservatoryRuntime) (group : PathGroupId) :
    Result ComparisonResult × ObservatoryRuntime :=
  match r.groupBucket group with
  | some key => r.compareBucket key true
  | none =>
    (.error { code := .unknownIdentity, message := "no evidence is held for this path group",
              detail := group.str },r)

def comparePath (r : ObservatoryRuntime) (path : PathId) :
    Result ComparisonResult × ObservatoryRuntime :=
  match r.routes with
  | none =>
    (.error { code := .unknownGeneration, message := "no route generation is current" },r)
  | some routes =>
    match routes.findPath path with
    | none =>
      (.error { code := .unknownIdentity, message := "no expected path with this identity",
                detail := path.str },r)
    | some expected =>
      match r.groupBucket expected.group with
      | some key => r.compareBucket key true
      | none =>
        (.error { code := .unknownIdentity, message := "no evidence is held for this path",
                  detail := path.str },r)

/-- Compare bucket after bucket until a comparison fails. -/
def compareKeys (r : ObservatoryRuntime) :
    List SubjectKey → Result (List ComparisonResult) × ObservatoryRuntime
  | [] => (.ok [],r)
  | key :: rest =>
    match r.compareBucket key true with
    | (.error e,r) => (.error e,r)
    | (.ok result,r) =>
      match r.compareKeys rest with
      | (.error e,r) => (.error e,r)
      | (.ok results,r) => (.ok (result :: results),r)

def compareAll (r : ObservatoryRuntime) : Result (List ComparisonResult) × ObservatoryRuntime :=
  r.compareKeys r.evidence.keys

def acknowledgeFinding (r : ObservatoryRuntime) (id : FindingId) : Status × ObservatoryRuntime :=
  match r.findings.acknowledge id r.now with
  | .error e => (.error e,r.tick)
  | .ok findings => (.ok (),{ r.tick with findings := findings })

def pruneHistory (r : ObservatoryRuntime) : Result ℕ × ObservatoryRuntime :=
  match r.history.prune r.now with
  | .error e => (.error e,r.tick)
  | .ok (removed,history) => (.ok removed,{ r.tick with history := history })

def flush (r : ObservatoryRuntime) : Status × ObservatoryRuntime :=
  match r.store with
  | none => (.ok (),r)
  | some _ => r.persistFindings r.findings.all

/-- Decode a stored record; a failure says which record it was. -/
def decodeStored {α : Type} (reader : CanonicalReader α) (record : StoredRecord) : Result α :=
  match Codec.decodeExact reader record.payload with
  | .ok value => .ok value
  | .error error => .error
      { code := error.code, message := "stored record could not be decoded",
        detail := record.type.toString ++ " #" ++ toString record.sequence.toNat ++ ": " ++
          error.message }

/-- Reinstate a decoded record of evidence where its subject can be resolved. -/
def restoreEvidence (r : ObservatoryRuntime) (e : ObservedPathEvidence) : ObservatoryRuntime :=
  match r.resolveSubject e with
  | .error _ => r
  | .ok key =>
    let bucket := r.bucket key
    if r.config.limits.maxEvidencePerComparison ≤ bucket.length ∨ bucket.any (·.id = e.id) then
      r.setBucket key bucket
    else r.setBucket key (bucket ++ [e])

/-- Expected state is never resurrected. -/
def restoreRecord (r : ObservatoryRuntime) (record : StoredRecord) :
    Result ObservatoryRuntime :=
  match record.type with
  | .evidence => do
    let evidence ← decodeStored (Codec.decodeEvidence r.config.limits) record
    return r.restoreEvidence evidence
  | .comparison => do
    let comparison ← decodeStored (Codec.decodeComparison r.config.limits) record
    return { r with history := r.history.append comparison }
  | .finding => do
    let finding ← decodeStored (Codec.decodeFinding r.config.limits) record
    let findings ← r.findings.restore finding
    return { r with findings := findings }
  | .source => do
    let descriptor ← decodeStored (Codec.decodeSourceDescriptor r.config.limits) record
    let sources ← r.sources.registerSource descriptor
    return { r with sources := sources }
  | .topologyGeneration | .routeGeneration | .marker => return r

/-- Reinstate record after record; what was restored before a failure stays. -/
def restoreRecords (r : ObservatoryRuntime) : List StoredRecord → Status × ObservatoryRuntime
  | [] => (.ok (),r)
  | record :: rest =>
    match r.restoreRecord record with
    | .error e => (.error e,r)
    | .ok r => r.restoreRecords rest

def restoreFromStore (r : ObservatoryRuntime) : Status × ObservatoryRuntime :=
  match r.store with
  | none => (.error { code := .invalidState, message := "no store is open" },r)
  | some store =>
    match store.readAll with
    | .error e => (.error e,r)
    | .ok records => r.restoreRecords records

def storeOptions (r : ObservatoryRuntime) : StoreOptions := { limits := r.config.limits }

def threads (r : ObservatoryRuntime) : ℕ :=
  if r.config.workerThreads = 0 then r.config.limits.workerThreads else r.config.workerThreads

/-- Nothing published before a start is assumed to be current after it. -/
def forgetExpected (r : ObservatoryRuntime) : ObservatoryRuntime :=
  { r with
    epoch := {}, incarnation := {}, routeRevision := {}, topologyRevision := {},
    topology := none, topologyIndex := none, routes := none }

/-- The store was opened; that read the clock. -/
def opened (r : ObservatoryRuntime) (store : PersistentStore) : ObservatoryRuntime :=
  { r.tick with store := some store }

/-- Open the store on the file's contents and load what it holds. -/
def recover (r : ObservatoryRuntime) (content : Option ByteString) :
    Status × ObservatoryRuntime × Option ByteString :=
  match PersistentStore.open_ r.config.storePath r.storeOptions r.now content with
  | (.error e,content) => (.error e,r.tick,content)
  | (.ok store,content) =>
    if r.config.loadEvidenceOnStart then
      ((r.opened store).restoreFromStore.1,(r.opened store).restoreFromStore.2,content)
    else (.ok (),r.opened store,content)

/-- Start on a file with the given contents; returns the contents it is left
with. -/
def start (r : ObservatoryRuntime) (content : Option ByteString) :
    Status × ObservatoryRuntime × Option ByteString :=
  if r.state = .running then
    (.error { code := .invalidState, message := "runtime is already running" },r,content)
  else if r.state = .stopping then
    (.error { code := .invalidState, message := "runtime is stopping" },r,content)
  else if r.threads = 0 ∨ r.config.limits.maxWorkerThreads < r.threads then
    (.error { code := .outOfRange,
              message := "worker thread count is outside the configured bounds" },r,content)
  else if r.config.persist then
    match r.recover content with
    | (.error e,r,content) => (.error e,{ r with state := .failed },content)
    | (.ok (),r,content) => (.ok (),{ r.forgetExpected with state := .running },content)
  else (.ok (),{ r.forgetExpected with state := .running },content)

def stop (r : ObservatoryRuntime) : Status × ObservatoryRuntime :=
  if r.state = .stopped then (.ok (),r)
  else
    match r.store with
    | some store =>
      if r.config.markStoreCleanOnStop then
        match store.markClean r.now with
        | (.error e,store) =>
          (.error e,{ r.tick with store := some store, state := .failed })
        | (.ok (),store) => (.ok (),{ r.tick with store := some store, state := .stopped })
      else (.ok (),{ r with state := .stopped })
    | none => (.ok (),{ r with state := .stopped })

/-- A request to a runtime. -/
inductive Call
  | registerSource (descriptor : SourceDescriptor)
  | publishTopology (generation : TopologyGeneration)
  | publishRoutes (generation : RouteGeneration)
  | ingestEvidence (evidence : ObservedPathEvidence)
  | compareGroup (group : PathGroupId)
  | comparePath (path : PathId)
  | compareAll
  | acknowledgeFinding (id : FindingId)
  | pruneHistory
  | flush
  | stop
deriving DecidableEq, Repr

/-- The state a request leaves, whatever it answers. -/
def perform (r : ObservatoryRuntime) : Call → ObservatoryRuntime
  | .registerSource descriptor => (r.registerSource descriptor).2
  | .publishTopology generation => (r.publishTopology generation).2
  | .publishRoutes generation => (r.publishRoutes generation).2
  | .ingestEvidence evidence => (r.ingestEvidence evidence).2
  | .compareGroup group => (r.compareGroup group).2
  | .comparePath path => (r.comparePath path).2
  | .compareAll => r.compareAll.2
  | .acknowledgeFinding id => (r.acknowledgeFinding id).2
  | .pruneHistory => r.pruneHistory.2
  | .flush => r.flush.2
  | .stop => r.stop.2

/-- The states of a runtime: it is created, may be started on any file, and serves
requests in any order. -/
inductive Reachable : ObservatoryRuntime → Prop
  | create {config : RuntimeConfig} {clock : ℕ → TimePoint} {sorter : Ranking.Sorter ranksBefore}
      {r : ObservatoryRuntime} (h : create config (some clock) sorter = .ok r) : Reachable r
  | start {r : ObservatoryRuntime} (h : Reachable r) (content : Option ByteString) :
      Reachable (r.start content).2.1
  | call {r : ObservatoryRuntime} (h : Reachable r) (call : Call) : Reachable (r.perform call)

end ObservatoryRuntime

end PathObservatory
