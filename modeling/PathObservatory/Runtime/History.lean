import PathObservatory.Library.Ranking
import PathObservatory.Store.Codec

/-! # Bounded comparison history

A record cap for each subject and one for the whole history, and a window that is
evaluated against a supplied time. What goes over a cap or falls out of the window
is evicted and counted.
-/
namespace PathObservatory
open Ranking

/-- The classification fields are underlying values: a restored comparison brings
them back unchecked. -/
structure HistoryRecord where
  id : ComparisonId := {}
  generation : RouteGenerationId := {}
  topology : TopologyGenerationId := {}
  group : MaybeId .pathGroup := {}
  path : MaybeId .path := {}
  matchedPath : MaybeId .path := {}
  outcome : MatchOutcome := .noExpectedState
  primary : UInt8 := 0
  freshness : UInt8 := 0
  completeness : UInt8 := 0
  consistency : UInt8 := 0
  surface : UInt8 := 0
  evidenceConsidered : UInt32 := 0
  evidenceRejected : UInt32 := 0
  evaluatedAt : TimePoint := {}
deriving DecidableEq, Repr

namespace HistoryRecord

def ofComparison (result : StoredComparison) : HistoryRecord where
  id := result.id
  generation := result.generation
  topology := result.topology
  group := result.group
  path := result.path
  matchedPath := result.matchedPath
  outcome := result.outcome
  primary := result.primary
  freshness := result.freshness
  completeness := result.completeness
  consistency := result.consistency
  surface := result.surface
  evidenceConsidered := result.evidenceConsidered
  evidenceRejected := result.evidenceRejected
  evaluatedAt := result.evaluatedAt

def sameSubject (record : HistoryRecord) (group : MaybeId .pathGroup) (path : MaybeId .path) :
    Bool :=
  (group.present && record.group.present && group.value = record.group.value) ||
  (path.present && record.path.present && path.value = record.path.value)

/-- Older than the window at this time. The age is a machine difference. -/
def lapsed (window : ℕ) (now : TimePoint) (record : HistoryRecord) : Bool :=
  let age := now.unixNanos - record.evaluatedAt.unixNanos
  record.evaluatedAt.isSet && 0 < age && window < age.toInt.toNat

/-- Newest first; of records of one time the one with the larger identity. -/
def newestFirst (a b : HistoryRecord) : Bool :=
  if a.evaluatedAt ≠ b.evaluatedAt then b.evaluatedAt < a.evaluatedAt else b.id < a.id

end HistoryRecord

structure HistoryQuery where
  group : MaybeId .pathGroup := {}
  path : MaybeId .path := {}
  generation : MaybeId .routeGeneration := {}
  /-- Only records at or after this instant, if it is set. -/
  since : TimePoint := {}
  outcomeFilter : MatchOutcome := .noExpectedState
  filterByOutcome : Bool := false
  limit : ℕ := 256
  now : TimePoint := {}
  applyWindow : Bool := false
deriving DecidableEq, Repr

/-- Each count is at most the number of records that are stored. -/
structure HistoryQueryResult where
  records : List HistoryRecord := []
  matched : ℕ := 0
  excludedByWindow : ℕ := 0
  excludedByFilter : ℕ := 0
  /-- The limit cut the answer short. -/
  truncated : Bool := false
deriving DecidableEq, Repr

/-- What a query has made of the records it has looked at. -/
structure HistoryScan where
  selected : List HistoryRecord := []
  excludedByFilter : ℕ := 0
  excludedByWindow : ℕ := 0
deriving DecidableEq, Repr

namespace HistoryQuery

/-- Look at one more record: the filters come first, then the window. -/
def visit (request : HistoryQuery) (window : ℕ) (scan : HistoryScan) (record : HistoryRecord) :
    HistoryScan :=
  if (request.group.present || request.path.present) &&
      !record.sameSubject request.group request.path then
    { scan with excludedByFilter := scan.excludedByFilter + 1 }
  else if request.generation.present && record.generation ≠ request.generation.value then
    { scan with excludedByFilter := scan.excludedByFilter + 1 }
  else if request.since.isSet && record.evaluatedAt.isSet &&
      record.evaluatedAt < request.since then
    { scan with excludedByFilter := scan.excludedByFilter + 1 }
  else if request.filterByOutcome && record.outcome ≠ request.outcomeFilter then
    { scan with excludedByFilter := scan.excludedByFilter + 1 }
  else if request.applyWindow && request.now.isSet && record.lapsed window request.now then
    { scan with excludedByWindow := scan.excludedByWindow + 1 }
  else { scan with selected := scan.selected ++ [record] }

end HistoryQuery

structure HistoryStore where
  limits : Limits := {}
  records : List HistoryRecord := []
  evictedByLimit : UInt64 := 0
  evictedByWindow : UInt64 := 0
deriving DecidableEq, Repr

namespace HistoryStore

def subjectCount (h : HistoryStore) (record : HistoryRecord) : ℕ :=
  h.records.countP (fun other => other.sameSubject record.group record.path)

/-- The first record of the subject that is furthest over its cap, with the size
of that subject. -/
def worst (h : HistoryStore) : ℕ × Option ℕ :=
  h.records.zipIdx.foldl (fun found entry =>
    let count := h.subjectCount entry.1
    if h.limits.maxHistoryPerGroup < count ∧ found.1 < count then (count,some entry.2)
    else found) (0,none)

/-- Evict until no subject is over its cap. A round removes one record, so there
are at most as many rounds as records. -/
def evictSubjects : ℕ → HistoryStore → HistoryStore
  | 0, h => h
  | rounds + 1, h =>
    match h.worst.2 with
    | none => h
    | some index =>
      evictSubjects rounds { h with
        records := h.records.eraseIdx index, evictedByLimit := h.evictedByLimit + 1 }

def evictOldest (h : HistoryStore) : HistoryStore :=
  let excess := h.records.length - h.limits.maxHistoryRecords
  { h with records := h.records.drop excess,
           evictedByLimit := h.evictedByLimit + UInt64.ofNat excess }

def append (h : HistoryStore) (result : StoredComparison) : HistoryStore :=
  let h := { h with records := h.records ++ [HistoryRecord.ofComparison result] }
  evictOldest (evictSubjects h.records.length h)

/-- Copy records until the limit is reached; whether one was left. -/
def copyBounded (limit : ℕ) (copied : List HistoryRecord) :
    List HistoryRecord → List HistoryRecord × Bool
  | [] => (copied,false)
  | record :: rest =>
    if limit ≤ copied.length then (copied,true) else copyBounded limit (copied ++ [record]) rest

def query (h : HistoryStore) (sorter : Sorter HistoryRecord.newestFirst) (request : HistoryQuery) :
    HistoryQueryResult :=
  let scan := h.records.foldl (request.visit h.limits.historyWindowNanos) {}
  let copied := copyBounded (min request.limit h.limits.maxExportRecords) []
    (sorter.sort scan.selected)
  { records := copied.1
    matched := scan.selected.length
    excludedByWindow := scan.excludedByWindow
    excludedByFilter := scan.excludedByFilter
    truncated := copied.2 }

/-- Drop records from the front until one is within the window; returns how many
were dropped. -/
def prune (h : HistoryStore) (now : TimePoint) : Result (ℕ × HistoryStore) := do
  require now.isSet
    { code := .invalidArgument, message := "history prune requires an evaluation time" }
  let kept := h.records.dropWhile (HistoryRecord.lapsed h.limits.historyWindowNanos now)
  let removed := h.records.length - kept.length
  return (removed,{ h with records := kept,
                           evictedByWindow := h.evictedByWindow + UInt64.ofNat removed })

end HistoryStore

end PathObservatory
