import PathObservatory.Engine.Classify

/-! # The comparison engine

A comparison resolves its subject, judges and ranks the evidence, classifies the
accepted records and lets the outcome gates decide. Only the last gate leaves
compliance standing.
-/
namespace PathObservatory
open Ranking

/-- The part of a result that the gates rewrite. -/
structure Verdict where
  outcome : MatchOutcome := .match_
  classes : List DivergenceClass := []
  rationale : List String := []
deriving DecidableEq, Repr

/-- Replace the outcome, add a class and explain. -/
def Verdict.settle (v : Verdict) (outcome : MatchOutcome) (value : DivergenceClass)
    (rationale : List String) : Verdict :=
  { outcome := outcome, classes := addClass v.classes value,
    rationale := v.rationale ++ rationale }

/-- What the outcome gates read. -/
structure OutcomeFacts where
  surface : ProofSurface
  conflicting : Bool
  freshness : Freshness
  structural : Bool
  multipathAmbiguous : Bool
  completeness : EvidenceCompleteness
  topologyMatches : Bool
  representativeAuthority : AuthorityClass
  groupHasMembers : Bool
  planHasMembers : Bool
  representativeMatches : Bool
  anyMatchesMember : Bool
  matchedPath : MaybeId .path
deriving DecidableEq, Repr

namespace OutcomeFacts
variable (f : OutcomeFacts) (policy : ComparisonPolicy)

def surfaceGate (v : Verdict) : Verdict :=
  if f.surface = .unsupported then
    v.settle .unsupported .evidenceUnsupported
      ["the accepted evidence belongs to a proof surface this build cannot judge"]
  else if f.surface = .unknown then
    v.settle .indeterminate .evidenceUnknown
      ["the accepted evidence does not state a proof surface"]
  else v

def conflictGate (v : Verdict) : Verdict :=
  if v.outcome ≠ .unsupported ∧ f.conflicting then { v with outcome := .indeterminate } else v

def stalenessClass : Freshness → DivergenceClass
  | .stale => .evidenceStale
  | .expired => .evidenceExpired
  | _ => .evidenceUnknown

def freshnessGate (v : Verdict) : Verdict :=
  if v.outcome ≠ .unsupported ∧ ¬ f.conflicting ∧ ¬ f.freshness.isComplianceCapable then
    v.settle .indeterminate (stalenessClass f.freshness)
      ["evidence freshness is " ++ f.freshness.toString ++
        ": stale or unjudgeable evidence cannot validate current behaviour"]
  else v

def divergenceGate (v : Verdict) : Verdict :=
  if v.outcome = .match_ ∧ f.structural then { v with outcome := .divergent } else v

def ambiguityGate (v : Verdict) : Verdict :=
  if v.outcome = .match_ ∧ policy.multipathAmbiguityIsDivergence ∧ f.multipathAmbiguous then
    v.settle .indeterminate .evidenceAmbiguous
      ["policy treats multipath ambiguity as a failure to determine the path"]
  else v

def completenessGate (v : Verdict) : Verdict :=
  if v.outcome = .match_ ∧ f.completeness ≠ .complete then
    v.settle .indeterminate .evidenceIncomplete
      ["the observation is incomplete: an incomplete observation is never compliance"]
  else v

def authorityGate (v : Verdict) : Verdict :=
  if v.outcome ≠ .match_ then v
  else if policy.requireTopologyForMatch ∧ ¬ f.topologyMatches then
    v.settle .indeterminate .topologyGenerationMismatch
      ["no topology generation is available to correlate link identity against"]
  else if f.representativeAuthority < .advisory then
    v.settle .indeterminate .authorityInsufficient
      ["the accepted evidence does not carry enough authority to support compliance"]
  else if policy.requireRealSurfaceForMatch ∧ f.surface ≠ .real then
    v.settle .indeterminate .evidenceUnsupported
      ["policy requires real evidence for a compliance statement"]
  else v

def memberGate (v : Verdict) : Verdict :=
  if v.outcome = .match_ ∧ f.groupHasMembers ∧ ¬ f.representativeMatches ∧
      ¬ f.anyMatchesMember then
    v.settle .indeterminate .evidenceUnknown []
  else v

/-- A compliance statement must name the path it is about. -/
def matchedPathGate (v : Verdict) : Verdict :=
  if v.outcome = .match_ ∧ ¬ f.matchedPath.present ∧ f.planHasMembers then
    v.settle .indeterminate .evidenceUnknown []
  else v

/-- The gates in the order of the contract: surface, conflict, freshness,
divergence, completeness, authority, match. -/
def decideOutcome (v : Verdict) : Verdict :=
  v |> f.surfaceGate |> f.conflictGate |> f.freshnessGate |> f.divergenceGate
    |> f.ambiguityGate policy |> f.completenessGate |> f.authorityGate policy
    |> f.memberGate |> f.matchedPathGate

end OutcomeFacts

structure ComparisonEngine where
  limits : Limits := {}
  policy : ComparisonPolicy := {}
  /-- The library sort, of which only the comparator is known. -/
  sorter : Sorter ranksBefore

def generationMatches (routes : RouteGeneration) (request : ComparisonRequest)
    (context : ComparisonContext) : Bool :=
  routes.id = request.generation && routes.epoch = context.authority.epoch &&
  routes.incarnation = context.authority.incarnation

def topologyMatches (routes : RouteGeneration) (context : ComparisonContext) : Bool :=
  match context.topology with
  | none => false
  | some topology =>
    topology.id = routes.topology && topology.epoch = context.authority.epoch &&
    topology.incarnation = context.authority.incarnation

def subjectIsExplicit (request : ComparisonRequest) : Bool :=
  request.group.present || request.path.present

def groupOfPath (routes : RouteGeneration) (path : PathId) : Option PathGroup :=
  (routes.findPath path).bind (fun p => routes.findGroup p.group)

/-- The group an evidence record points at. -/
def groupOfEvidence (routes : RouteGeneration) (e : ObservedPathEvidence) : Option PathGroup :=
  if e.group.present then routes.findGroup e.group.value
  else if e.path.present then groupOfPath routes e.path.value
  else if e.origin.present && e.destination.present then
    (routes.findGroupByEndpoints e.origin.value e.destination.value).1
  else none

/-- An explicit subject wins; otherwise the first record that names a group of
the plan decides. -/
def resolveGroup (routes : RouteGeneration) (request : ComparisonRequest) : Option PathGroup :=
  if request.group.present then routes.findGroup request.group.value
  else if request.path.present then groupOfPath routes request.path.value
  else request.evidence.findSome? (groupOfEvidence routes)

def judgementOf (item : Working) : EvidenceJudgement where
  id := item.evidence.id
  accepted := item.accepted
  rejection := item.rejection
  freshness := item.freshness
  surface := item.evidence.surface
  authority := item.evidence.authority
  completeness := item.evidence.claimedCompleteness
  classes := item.classes
  reason := item.reason

def acceptedOf (working : List Working) : List Working := working.filter (·.accepted)

/-- The classes known before any trace is matched. -/
def openingClasses (topologyMatches sourceSequenceGap : Bool) (working : List Working) :
    List DivergenceClass :=
  addClassIf sourceSequenceGap .observationGap
    (working.foldl (fun classes item => addClassIf (!item.accepted) item.rejection classes)
      (addClassIf (!topologyMatches) .topologyGenerationMismatch []))

def gapRationale (sourceSequenceGap : Bool) : List String :=
  if sourceSequenceGap then
    ["the source sequence ledger holds an unrepaired gap for at least one contributing source"]
  else []

/-- The exclusion that stands for a comparison without accepted records. -/
def leadingRejection (working : List Working) : DivergenceClass :=
  working.foldl (fun rejection item =>
    if item.rejection = .none then rejection
    else if rejection = .evidenceUnknown ∨
        item.rejection.precedenceOf < rejection.precedenceOf then item.rejection
    else rejection) .evidenceUnknown

namespace ComparisonEngine
variable (engine : ComparisonEngine)

/-- The judged records in the order every later step reads them. -/
def ranked (request : ComparisonRequest) (context : ComparisonContext)
    (routes : RouteGeneration) : List Working :=
  engine.sorter.sort (request.evidence.map
    (engine.policy.judgeEvidence engine.limits request.generation context routes))

def workingOf (request : ComparisonRequest) (context : ComparisonContext)
    (routes : RouteGeneration) : List Working :=
  removeDuplicates (engine.ranked request context routes)

/-- Result when no record survived the fences. -/
def withoutAccepted (base : ComparisonResult) (classes : List DivergenceClass)
    (rationale : List String) (working : List Working) : ComparisonResult :=
  let rejection := leadingRejection working
  let classes := addClass classes rejection
  { base with
    classes := classes
    primary := selectPrimary classes
    outcome := if rejection = .evidenceUnsupported then .unsupported else .indeterminate
    freshness := .unknown
    completeness := .unknown
    consistency := if rejection = .evidenceUnsupported then .unsupported else .unknown
    surface :=
      if working.any (fun item => !item.accepted && item.rejection = .evidenceUnsupported) then
        .unsupported
      else base.surface
    rationale := rationale ++
      ["absence of evidence is not evidence: no observation record survived the fencing and " ++
        "quality gates, so the comparison is indeterminate"] }

end ComparisonEngine

/-- Everything the accepted records say about the subject. -/
structure Classification where
  conflict : Option PathId
  surface : ProofSurface
  freshness : Freshness
  distinct : ℕ
  anyMatchesMember : Bool
  structural : Bool
  differences : List HopDifference
  linkUnresolved : Bool
  completeness : EvidenceCompleteness
  pathUnknown : Bool
  matchedPath : MaybeId .path
deriving DecidableEq, Repr

/-- No accepted record agrees with a member although something was observed. -/
def isStructural (members : List ExpectedPath) (representative : Working)
    (accepted : List Working) : Bool :=
  !accepted.any (Working.matchesAMember members) && representative.hops ≠ []

/-- The differences reported against the reference path, and whether the trace
leaves a link unresolved that the path declares. -/
def compareReference (structural : Bool) (reference : Option ExpectedPath)
    (observed : List ObservedHop) : List HopDifference × Bool :=
  let differences :=
    if structural then (reference.map (hopDifferences · observed)).getD [] else []
  (differences,reference.any (linkIsUnresolved · observed differences))

/-- Match, weigh and compare the accepted records, of which the first is the
representative. -/
def classify (routes : RouteGeneration) (group : PathGroup) (request : ComparisonRequest)
    (reference : Option ExpectedPath) (representative : Working) (accepted : List Working) :
    Classification :=
  let members := memberPaths routes group
  let structural := isStructural members representative accepted
  let (differences,linkUnresolved) := compareReference structural reference representative.hops
  { conflict := findConflict accepted
    surface := worstSurface accepted
    freshness := worstFreshness accepted
    distinct := distinctMembers members accepted
    anyMatchesMember := accepted.any (Working.matchesAMember members)
    structural := structural
    differences := differences
    linkUnresolved := linkUnresolved
    completeness :=
      if linkUnresolved then .partial_
      else tracesCompleteness members accepted request.sourceSequenceGap
    pathUnknown := pathIsUnknownToPlan routes request accepted
    matchedPath :=
      match representative.matchedMembers members with
      | [] => {}
      | first :: _ => ⟨first⟩ }

namespace Classification
variable (c : Classification)

def conflicting : Bool := c.conflict.isSome

def multipathAmbiguous : Bool :=
  !c.conflicting && c.surface ≠ .unsupported && 1 < c.distinct

def consistency : ObservationConsistency :=
  if c.conflicting then .conflicting
  else if c.surface = .unsupported then .unsupported
  else if 1 < c.distinct then .ambiguous
  else .consistent

/-- The classes in the order the engine adds them, before the outcome gates. -/
def classes (openingClasses : List DivergenceClass) : List DivergenceClass :=
  openingClasses
    |> addClassIf c.conflicting .evidenceConflicting
    |> addClassIf c.multipathAmbiguous .evidenceAmbiguous
    |> (c.differences.map (·.detail)).foldl addClass
    |> addClassIf c.linkUnresolved .linkUnresolved
    |> addClassIf c.pathUnknown .pathUnknownToPlan

def rationale : List String :=
  (match c.conflict with
    | some path =>
      ["two accepted records claim path " ++ path.str ++
        " and disagree about the hop trace; the plan declares one trace for that path"]
    | none => []) ++
  (if c.multipathAmbiguous then
    ["the accepted records are consistent with " ++ toString c.distinct ++
      " members of the group: legitimate multipath, not divergence"]
  else [])

def facts (topologyMatches : Bool) (representative : Working) (group : PathGroup)
    (members : List ExpectedPath) : OutcomeFacts where
  surface := c.surface
  conflicting := c.conflicting
  freshness := c.freshness
  structural := c.structural
  multipathAmbiguous := c.multipathAmbiguous
  completeness := c.completeness
  topologyMatches := topologyMatches
  representativeAuthority := representative.evidence.authority
  groupHasMembers := group.members ≠ []
  planHasMembers := members ≠ []
  representativeMatches := representative.matchedMembers members ≠ []
  anyMatchesMember := c.anyMatchesMember
  matchedPath := c.matchedPath

end Classification

def outcomeRationale (outcome : MatchOutcome) (primary : DivergenceClass)
    (considered rejected : ℕ) : String :=
  "outcome " ++ outcome.toString ++ " with primary class " ++ primary.toCode ++ " from " ++
  toString considered ++ " accepted record(s) and " ++ toString rejected ++ " rejected record(s)"

namespace ComparisonEngine
variable (engine : ComparisonEngine)

/-- Result when at least one record was accepted. -/
def withAccepted (base : ComparisonResult) (opening : List DivergenceClass)
    (rationale : List String) (routes : RouteGeneration) (group : PathGroup)
    (request : ComparisonRequest) (context : ComparisonContext) (reference : Option ExpectedPath)
    (representative : Working) (accepted : List Working) : ComparisonResult :=
  let c := classify routes group request reference representative accepted
  let facts := c.facts (topologyMatches routes context) representative group
    (memberPaths routes group)
  let verdict := facts.decideOutcome engine.policy
    { classes := c.classes opening, rationale := rationale ++ c.rationale }
  let primary := selectPrimary verdict.classes
  { base with
    matchedPath := c.matchedPath
    outcome := verdict.outcome
    primary := primary
    classes := verdict.classes
    freshness := c.freshness
    completeness := c.completeness
    consistency := c.consistency
    surface := c.surface
    multipathAmbiguous := c.multipathAmbiguous
    differences := c.differences
    rationale := verdict.rationale ++
      [outcomeRationale verdict.outcome primary base.evidenceConsidered base.evidenceRejected] }

/-- Classify the ranked records of a resolved subject. -/
def compareWorking (base : ComparisonResult) (routes : RouteGeneration) (group : PathGroup)
    (request : ComparisonRequest) (context : ComparisonContext) (reference : Option ExpectedPath)
    (working : List Working) : ComparisonResult :=
  let accepted := acceptedOf working
  let base := { base with
    topology := routes.topology
    group := ⟨group.id⟩
    multipath := group.multipath
    evidenceConsidered := accepted.length
    evidenceRejected := working.length - accepted.length
    judgements := working.map judgementOf }
  let opening := openingClasses (topologyMatches routes context) request.sourceSequenceGap working
  let rationale := gapRationale request.sourceSequenceGap
  match accepted with
  | [] => withoutAccepted base opening rationale working
  | representative :: _ =>
    engine.withAccepted base opening rationale routes group request context reference
      representative accepted

/-- The result before anything was classified. -/
def baseResult (request : ComparisonRequest) (context : ComparisonContext) : ComparisonResult where
  generation := request.generation
  group := request.group
  path := request.path
  evaluatedAt := context.now
  evidenceOffered := request.evidence.length

/-- Result when the requested generation is not the current one. -/
def mismatchResult (request : ComparisonRequest) (context : ComparisonContext) :
    ComparisonResult :=
  { baseResult request context with
    classes := addClass [] .routeGenerationMismatch
    primary := .routeGenerationMismatch
    outcome := .indeterminate
    rationale :=
      ["route generation mismatch: the request names generation " ++ request.generation.str ++
        " but the authority state does not contain it at epoch " ++
        context.authority.epoch.str ++ " incarnation " ++ context.authority.incarnation.str] }

/-- Result when the plan does not contain the subject. -/
def unresolvedResult (request : ComparisonRequest) (context : ComparisonContext)
    (routes : RouteGeneration) : ComparisonResult :=
  { baseResult request context with
    topology := routes.topology
    classes := addClassIf (!topologyMatches routes context) .topologyGenerationMismatch []
    outcome := .noExpectedState
    primary := .none
    rationale :=
      [if subjectIsExplicit request then "the named subject is not present in the current plan"
        else "no expected state could be associated with the evidence",
       "no expected path state for the subject of this comparison in generation " ++
        request.generation.str] }

/-- The classification before the result is sealed. -/
def evaluate (request : ComparisonRequest) (context : ComparisonContext) : ComparisonResult :=
  match context.routes.filter (generationMatches · request context) with
  | none => mismatchResult request context
  | some routes =>
    match resolveGroup routes request with
    | none => unresolvedResult request context routes
    | some group =>
      let ranked := engine.ranked request context routes
      let working := engine.workingOf request context routes
      engine.compareWorking
        { baseResult request context with duplicateEvidence := ranked.length - working.length }
        routes group request context (referencePath routes group request) working

/-- The checks made before anything is compared. -/
def checkRequest (request : ComparisonRequest) : Status := do
  engine.policy.validate
  require request.generation.valid
    { code := .invalidIdentity, message := "comparison request has no route generation" }
  require (request.evidence.length ≤ engine.limits.maxEvidencePerComparison)
    { code := .capacityExceeded,
      message := "comparison request exceeds the configured evidence bound" }

def compare (request : ComparisonRequest) (context : ComparisonContext) :
    Result ComparisonResult := do
  engine.checkRequest request
  return (engine.evaluate request context).seal_

end ComparisonEngine

end PathObservatory
