import PathObservatory.Engine.Compare
import PathObservatory.Runtime.History
import PathObservatory.Domain.SequenceLedger
import PathObservatory.Store.Persistence

/-! # The observatory runtime

The runtime owns the observation pipeline: expected state from an authority,
evidence from registered sources, comparisons and what they leave behind. An
operation takes the state and returns its answer with the state it leaves; what
was done before a failure stays done.
-/
namespace PathObservatory
open Ranking

inductive RuntimeState
  | created
  | running
  | stopping
  | stopped
  | failed
deriving DecidableEq, Repr, Inhabited

structure RuntimeConfig where
  limits : Limits := {}
  comparison : ComparisonPolicy := {}
  /-- Empty means no persistence. -/
  storePath : String := ""
  persist : Bool := false
  loadEvidenceOnStart : Bool := true
  workerThreads : ℕ := 0
  markStoreCleanOnStop : Bool := true
deriving DecidableEq, Repr

/-- The bucket an evidence record belongs to: a route generation and, when it can
be resolved, a path group. -/
@[ext] structure SubjectKey where
  generation : RouteGenerationId := {}
  group : MaybeId .pathGroup := {}
deriving DecidableEq, Repr

namespace SubjectKey

theorem toLex_injective :
    Function.Injective (fun key : SubjectKey => toLex (key.generation,key.group.value)) := by
  intro a b h
  have hpair : (a.generation,a.group.value) = (b.generation,b.group.value) := toLex.injective h
  refine SubjectKey.ext (congrArg Prod.fst hpair) ?_
  cases ha : a.group
  cases hb : b.group
  simp_all

/-- Buckets of one generation follow the group identity; the absent group is the
identity zero and comes first. -/
instance : LinearOrder SubjectKey :=
  LinearOrder.lift' (fun key => toLex (key.generation,key.group.value)) toLex_injective

instance : Std.TransCmp (compare : SubjectKey → SubjectKey → Ordering) := inferInstance

end SubjectKey

structure IngestResult where
  accepted : Bool := false
  reason : DivergenceClass := .none
  id : EvidenceId := {}
  sequenceGap : Bool := false
  replay : Bool := false
  persisted : Bool := false
  detail : String := ""
deriving DecidableEq, Repr

structure ObservatoryRuntime where
  config : RuntimeConfig
  /-- What the readings of the clock return, one after the other. -/
  clock : ℕ → TimePoint
  readings : ℕ := 0
  /-- The library sort the comparison engine uses. -/
  sorter : Sorter ranksBefore
  sources : SourceRegistry := {}
  ledger : SourceSequenceLedger := {}
  topology : Option TopologyGeneration := none
  topologyIndex : Option TopologyIndex := none
  routes : Option RouteGeneration := none
  evidence : OrderedMap SubjectKey (List ObservedPathEvidence) := ∅
  sourceHasGap : OrderedMap SourceId Bool := ∅
  history : HistoryStore
  findings : FindingRegistry
  store : Option PersistentStore := none
  state : RuntimeState := .created
  epoch : EpochId := {}
  incarnation : IncarnationId := {}
  routeRevision : RevisionId := {}
  topologyRevision : RevisionId := {}

namespace ObservatoryRuntime

/-- A runtime nothing has happened to. -/
def fresh (config : RuntimeConfig) (clock : ℕ → TimePoint) (sorter : Sorter ranksBefore) :
    ObservatoryRuntime where
  config := config
  clock := clock
  sorter := sorter
  history := { limits := config.limits }
  findings := { limits := config.limits }

def create (config : RuntimeConfig) (clock : Option (ℕ → TimePoint))
    (sorter : Sorter ranksBefore) : Result ObservatoryRuntime := do
  config.limits.validate
  config.comparison.validate
  match clock with
  | none =>
    .error { code := .invalidArgument, message := "the runtime requires a clock" }
  | some clock =>
    require (¬ (config.persist ∧ config.storePath = ""))
      { code := .invalidArgument, message := "persistence was requested without a store path" }
    return fresh config clock sorter

def now (r : ObservatoryRuntime) : TimePoint := r.clock r.readings

/-- The clock was read. -/
def tick (r : ObservatoryRuntime) : ObservatoryRuntime := { r with readings := r.readings + 1 }

/-- Append a record when a store is open. -/
def persistRecord (r : ObservatoryRuntime) (type : RecordType) (payload : ByteString) :
    Status × ObservatoryRuntime :=
  match r.store with
  | none => (.ok (),r)
  | some store => ((store.append type payload).1,
      { r with store := some (store.append type payload).2 })

/-- Append one record after the other until one is refused. -/
def persistFindings (r : ObservatoryRuntime) : List Finding → Status × ObservatoryRuntime
  | [] => (.ok (),r)
  | finding :: rest =>
    match r.persistRecord .finding (Codec.encodeFinding finding) with
    | (.error e,r) => (.error e,r)
    | (.ok (),r) => r.persistFindings rest

/-- The record is written before the registry has looked at the descriptor. -/
def registerSource (r : ObservatoryRuntime) (descriptor : SourceDescriptor) :
    Status × ObservatoryRuntime :=
  match r.persistRecord .source (Codec.encodeSource descriptor) with
  | (.error e,r) => (.error e,r)
  | (.ok (),r) =>
    match r.sources.registerSource descriptor with
    | .error e => (.error e,r)
    | .ok sources => (.ok (),{ r with sources := sources })

/-- The checks a topology generation passes before it is looked at as news. -/
def admitTopology (r : ObservatoryRuntime) (generation : TopologyGeneration) :
    Result TopologyGeneration := do
  let generation ← generation.finalize r.config.limits
  require (r.sources.contains generation.source)
    { code := .unknownIdentity,
      message := "topology generation names a source that is not registered",
      detail := generation.source.str }
  require (¬ (r.epoch.valid ∧ generation.epoch < r.epoch))
    { code := .fencedEvidence, message := "topology generation belongs to a superseded epoch",
      detail := generation.epoch.str }
  require (¬ ∃ current ∈ r.topology, current.epoch = generation.epoch ∧
      current.incarnation = generation.incarnation ∧ generation.revision < current.revision)
    { code := .fencedEvidence, message := "topology generation is an older revision",
      detail := generation.revision.str }
  return generation

/-- The generation in force has this identity and this revision. -/
def topologyIsCurrent (r : ObservatoryRuntime) (generation : TopologyGeneration) : Bool :=
  r.topology.any (fun current =>
    current.id = generation.id && current.revision = generation.revision)

def publishTopology (r : ObservatoryRuntime) (generation : TopologyGeneration) :
    Status × ObservatoryRuntime :=
  match r.admitTopology generation with
  | .error e => (.error e,r)
  | .ok generation =>
    if r.topologyIsCurrent generation then (.ok (),r)
    else
      match TopologyIndex.build generation r.config.limits with
      | .error e => (.error e,r)
      | .ok index =>
        { r with
          epoch := generation.epoch
          incarnation := generation.incarnation
          topologyRevision := generation.revision
          topologyIndex := some index
          topology := some generation }.persistRecord .topologyGeneration
            (Codec.encodeTopology generation)

def admitRoutes (r : ObservatoryRuntime) (generation : RouteGeneration) :
    Result RouteGeneration := do
  let generation ← generation.finalize r.config.limits
  require (r.sources.contains generation.source)
    { code := .unknownIdentity,
      message := "route generation names a source that is not registered",
      detail := generation.source.str }
  require r.topology.isSome
    { code := .invalidState,
      message := "route generation references topology generation " ++ generation.topology.str ++
        " which has not been published" }
  require (∃ topology ∈ r.topology, generation.topology = topology.id)
    { code := .unknownGeneration,
      message := "route generation references a topology generation that is not current",
      detail := generation.topology.str }
  require (¬ (r.epoch.valid ∧ generation.epoch < r.epoch))
    { code := .fencedEvidence, message := "route generation belongs to a superseded epoch",
      detail := generation.epoch.str }
  require (¬ ∃ current ∈ r.routes, current.epoch = generation.epoch ∧
      current.incarnation = generation.incarnation ∧ generation.revision < current.revision)
    { code := .fencedEvidence, message := "route generation is an older revision",
      detail := generation.revision.str }
  return generation

def routesAreCurrent (r : ObservatoryRuntime) (generation : RouteGeneration) : Bool :=
  r.routes.any (fun current =>
    current.id = generation.id && current.revision = generation.revision)

def publishRoutes (r : ObservatoryRuntime) (generation : RouteGeneration) :
    Status × ObservatoryRuntime :=
  match r.admitRoutes generation with
  | .error e => (.error e,r)
  | .ok generation =>
    if r.routesAreCurrent generation then (.ok (),r)
    else
      { r with
        epoch := generation.epoch
        incarnation := generation.incarnation
        routeRevision := generation.revision
        routes := some generation }.persistRecord .routeGeneration
          (Codec.encodeRoutes generation)

end ObservatoryRuntime

end PathObservatory
