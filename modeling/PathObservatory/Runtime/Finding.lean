import Mathlib.Data.List.Destutter
import PathObservatory.Engine.Comparison

/-! # Findings

A finding is the durable form of a divergence class observed for a subject. Its
identity covers the class, the subject, the generations and the participating
evidence; times, counts and lifecycle are left out, so that the same defect seen
twice is one finding.
-/
namespace PathObservatory

inductive FindingStatus
  | open_
  | acknowledged
  | resolved
deriving DecidableEq, Repr, Inhabited

def FindingStatus.toUInt8 : FindingStatus → UInt8
  | open_ => 0
  | acknowledged => 1
  | resolved => 2

structure Finding where
  id : FindingId := {}
  /-- The underlying value of the class: the decoder does not check it. -/
  cls : UInt8 := 0
  group : MaybeId .pathGroup := {}
  path : MaybeId .path := {}
  generation : RouteGenerationId := {}
  topology : TopologyGenerationId := {}
  evidence : List EvidenceId := []
  hopIndices : List UInt32 := []
  status : FindingStatus := .open_
  occurrences : UInt64 := 0
  firstSeen : TimePoint := {}
  lastSeen : TimePoint := {}
  lastComparison : ComparisonId := {}
  detail : ByteString := []
deriving DecidableEq, Repr, Inhabited

namespace Finding

def sortedEvidence (f : Finding) : List EvidenceId :=
  (f.evidence.insertionSort (· ≤ ·)).destutter (· ≠ ·)

def sortedHops (f : Finding) : List UInt32 :=
  (f.hopIndices.insertionSort (· ≤ ·)).destutter (· ≠ ·)

def identityDigest (f : Finding) : Digest :=
  Digest.ofBytes (
    CanonicalWriter.text (bytesOf "pathobs.finding") ++
    CanonicalWriter.u8 f.cls ++
    CanonicalWriter.boolean f.group.present ++
    CanonicalWriter.id f.group.value ++
    CanonicalWriter.boolean f.path.present ++
    CanonicalWriter.id f.path.value ++
    CanonicalWriter.id f.generation ++
    CanonicalWriter.id f.topology ++
    CanonicalWriter.count f.sortedEvidence.length ++
    f.sortedEvidence.flatMap CanonicalWriter.digestId ++
    CanonicalWriter.count f.sortedHops.length ++
    f.sortedHops.flatMap CanonicalWriter.u32)

/-- The identity the stable part of the content produces. -/
def computeFindingId (f : Finding) : FindingId := DigestId.fromDigest f.identityDigest

def seal_ (f : Finding) : Finding := { f with id := f.computeFindingId }

def isOpen (f : Finding) : Bool := f.status ≠ .resolved

/-- Keep whichever record has seen the finding more recently. -/
def finderKeepsNewest (existing candidate : Finding) : Bool :=
  if candidate.lastSeen ≠ existing.lastSeen then existing.lastSeen < candidate.lastSeen
  else existing.occurrences < candidate.occurrences

end Finding

/-- The text a finding of this class carries. -/
def findingDetail (primary : DivergenceClass) : ByteString :=
  bytesOf ("primary class " ++ primary.toCode)

/-- The finding a comparison would record, before anything is known about it. -/
def findingCandidate (limits : Limits) (result : ComparisonResult) : Finding :=
  { cls := result.primary.toUInt8
    group := result.group
    path := if result.path.present then result.path else result.matchedPath
    generation := result.generation
    topology := result.topology
    lastComparison := result.id
    detail := findingDetail result.primary
    evidence := ((result.judgements.filter (·.accepted)).map (·.id)).take limits.maxFindingEvidence
    hopIndices := result.differences.map (·.index) : Finding }.seal_

structure FindingRegistry where
  limits : Limits := {}
  findings : OrderedMap FindingId Finding := ∅
  evicted : UInt64 := 0

namespace FindingRegistry

/-- One step of the search for the least recently seen resolved finding. -/
def olderVictim (victim : Option (FindingId × Finding)) (entry : FindingId × Finding) :
    Option (FindingId × Finding) :=
  if entry.2.status ≠ .resolved then victim
  else
    match victim with
    | none => some entry
    | some chosen =>
      if entry.2.lastSeen < chosen.2.lastSeen ∨
          (entry.2.lastSeen = chosen.2.lastSeen ∧ entry.1 < chosen.1) then some entry
      else victim

def victim (r : FindingRegistry) : Option (FindingId × Finding) :=
  r.findings.toList.foldl olderVictim none

/-- Make room for one finding; a registry full of unresolved findings has none. -/
def makeRoom (r : FindingRegistry) : Result FindingRegistry :=
  if r.findings.size < r.limits.maxFindings then .ok r
  else
    match r.victim with
    | none =>
      .error { code := .capacityExceeded,
               message := "finding registry is full and holds no resolved finding to evict" }
    | some chosen =>
      .ok { r with findings := r.findings.erase chosen.1, evicted := r.evicted + 1 }

/-- A finding seen again; a resolved one reopens. -/
def seenAgain (finding : Finding) (comparison : ComparisonId) (now : TimePoint) : Finding :=
  { finding with
    occurrences := finding.occurrences + 1
    lastSeen := now
    lastComparison := comparison
    status := if finding.status = .resolved then .open_ else finding.status }

/-- Fold a comparison result into the registry. A result without a primary class
produces no finding and the zero identity. -/
def record (r : FindingRegistry) (result : ComparisonResult) (now : TimePoint) :
    Result (FindingId × FindingRegistry) :=
  if result.primary = .none then .ok ({},r)
  else
    let candidate := findingCandidate r.limits result
    match r.findings[candidate.id]? with
    | some existing =>
      .ok (existing.id,
        { r with findings := r.findings.insert candidate.id (seenAgain existing result.id now) })
    | none => do
      let r ← r.makeRoom
      let opened := { candidate with
        occurrences := 1, firstSeen := now, lastSeen := now, status := .open_ }
      return (candidate.id,{ r with findings := r.findings.insert candidate.id opened })

def find (r : FindingRegistry) (candidate : FindingId) : Result Finding :=
  match r.findings[candidate]? with
  | none => .error { code := .unknownIdentity, message := "no such finding",
                     detail := candidate.str }
  | some finding => .ok finding

def acknowledge (r : FindingRegistry) (candidate : FindingId) (now : TimePoint) :
    Result FindingRegistry := do
  let finding ← r.find candidate
  let acknowledged := { finding with status := .acknowledged, lastSeen := now }
  if finding.status = .open_ then
    return { r with findings := r.findings.insert candidate acknowledged }
  else return r

/-- The match is about the subject of the finding, at its generation or a later
one. -/
def resolvedBy (result : ComparisonResult) (finding : Finding) : Bool :=
  finding.isOpen &&
  ((result.group.present && finding.group.present && result.group.value = finding.group.value) ||
    (result.path.present && finding.path.present && result.path.value = finding.path.value)) &&
  finding.generation ≤ result.generation

/-- Resolve the findings a match answers; returns how many there were. -/
def resolveFromMatch (r : FindingRegistry) (result : ComparisonResult) (now : TimePoint) :
    ℕ × FindingRegistry :=
  if result.outcome ≠ .match_ then (0,r)
  else
    ((r.findings.toList.filter (fun entry => resolvedBy result entry.2)).length,
      { r with findings := r.findings.map (fun _ finding =>
          if resolvedBy result finding then
            { finding with status := .resolved, lastSeen := now }
          else finding) })

/-- Reinstate a finding loaded from a store, lifecycle included. -/
def restore (r : FindingRegistry) (finding : Finding) : Result FindingRegistry := do
  require (finding.computeFindingId = finding.id)
    { code := .integrityFailure, message := "restored finding identity does not match content" }
  match r.findings[finding.id]? with
  | some existing =>
    if existing.finderKeepsNewest finding then
      return { r with findings := r.findings.insert finding.id finding }
    else return r
  | none =>
    require (r.findings.size < r.limits.maxFindings)
      { code := .capacityExceeded, message := "finding registry is full" }
    return { r with findings := r.findings.insert finding.id finding }

/-- Every finding, in the order of the identities. -/
def all (r : FindingRegistry) : List Finding := r.findings.toList.map (·.2)

end FindingRegistry

end PathObservatory
