import PathObservatory.Engine.Judge

/-! # Classifying the accepted records

Matching against the group members, consistency, completeness and the hop level
differences are functions of the accepted records, of the members of the group
and of the reference path.
-/
namespace PathObservatory

/-- Two traces do not disagree about any hop both of them report. -/
def hopsCompatible (a b : ObservedHop) : Bool :=
  a.device = b.device &&
  !(a.ingress.valid && b.ingress.valid && a.ingress ≠ b.ingress) &&
  !(a.egress.valid && b.egress.valid && a.egress ≠ b.egress) &&
  !(a.statesLink && b.statesLink && a.link ≠ b.link)

def tracesCompatible (a b : List ObservedHop) : Bool :=
  (a.zip b).all (fun pair => hopsCompatible pair.1 pair.2)

def perHopClass (expected : ExpectedHop) (observed : ObservedHop) : DivergenceClass :=
  if expected.device ≠ observed.device then .deviceMismatch
  else if observed.ingress.valid ∧ expected.ingress ≠ observed.ingress then .portMismatch
  else if observed.egress.valid ∧ expected.egress ≠ observed.egress then .portMismatch
  else if expected.hasEgressLink ∧ observed.statesLink ∧ expected.egressLink ≠ observed.link then
    .linkMismatch
  else .none

/-- Both device multisets are equal but the device sequence differs. -/
def sameDevicesDifferentOrder (expected : List ExpectedHop) (observed : List ObservedHop) : Bool :=
  let left : List DeviceId := expected.map (·.device)
  let right : List DeviceId := observed.map (·.device)
  if expected.length ≠ observed.length ∨ expected = [] then false
  else if left.insertionSort (· ≤ ·) ≠ right.insertionSort (· ≤ ·) then false
  else left ≠ right

/-- The members of the group that the plan contains. -/
def memberPaths (routes : RouteGeneration) (group : PathGroup) : List ExpectedPath :=
  group.members.filterMap routes.findPath

namespace Working

def traceIs (w : Working) (traceMatch : TraceMatch) (member : ExpectedPath) : Bool :=
  (compareTrace member w.hops).traceMatch = traceMatch

def traceIsExact (members : List ExpectedPath) (w : Working) : Bool :=
  members.any (w.traceIs .exact_)

def traceIsPrefix (members : List ExpectedPath) (w : Working) : Bool :=
  members.any (w.traceIs .prefix_)

def matchesAMember (members : List ExpectedPath) (w : Working) : Bool :=
  members.any (fun member => w.traceIs .exact_ member || w.traceIs .prefix_ member)

/-- Identities of the members the trace agrees with, each listed once. -/
def matchedMembers (members : List ExpectedPath) (w : Working) : List PathId :=
  members.foldl (fun matched member =>
    if (w.traceIs .exact_ member || w.traceIs .prefix_ member) && member.id ∉ matched then
      matched ++ [member.id]
    else matched) []

/-- Two records claim one path and disagree about its trace. -/
def conflictsWith (left right : Working) : Bool :=
  left.evidence.path.present && right.evidence.path.present &&
  left.evidence.path.value = right.evidence.path.value &&
  !tracesCompatible left.hops right.hops

/-- The trace is shorter than every member. -/
def shorterThanAll (w : Working) : List ExpectedPath → Bool
  | [] => false
  | first :: rest =>
    w.hops.length < rest.foldl (fun shortest member => min shortest member.hops.length)
      first.hops.length

/-- The record cannot support a complete observation. A trace that contradicts
the plan inside the range it observed is not incomplete for that. -/
def isIncomplete (members : List ExpectedPath) (w : Working) : Bool :=
  w.evidence.sourceTruncated ||
  w.evidence.declaredCompleteness = .partial_ ||
  !hopIndicesAreContiguous w.hops ||
  (w.traceIsPrefix members && !w.traceIsExact members) ||
  (!w.matchesAMember members && w.shorterThanAll members)

end Working

/-- The claimed path of the first record that conflicts with a later one. -/
def findConflict : List Working → Option PathId
  | [] => none
  | left :: rest =>
    if rest.any left.conflictsWith then some left.evidence.path.value else findConflict rest

/-- Number of members the accepted records agree with. -/
def distinctMembers (members : List ExpectedPath) (accepted : List Working) : ℕ :=
  (accepted.flatMap (Working.matchedMembers members)).dedup.length

def worseSurface (worst surface : ProofSurface) : ProofSurface :=
  if worst.toUInt8 < surface.toUInt8 then surface else worst

def worstSurface (accepted : List Working) : ProofSurface :=
  accepted.foldl (fun worst item => worseSurface worst item.evidence.surface) .real

def worstFreshness (accepted : List Working) : Freshness :=
  accepted.foldl (fun worst item => Freshness.worseOf worst item.freshness) .fresh

/-- Completeness derived from the accepted records rather than trusted. -/
def tracesCompleteness (members : List ExpectedPath) (accepted : List Working)
    (sourceSequenceGap : Bool) : EvidenceCompleteness :=
  if accepted.any (Working.isIncomplete members) || sourceSequenceGap then .partial_
  else .complete

/-- The path a record claims, when it is a path of the group. -/
def claimedPath (routes : RouteGeneration) (group : PathGroup) (path : MaybeId .path) :
    Option ExpectedPath :=
  if path.present then (routes.findPath path.value).filter (·.group = group.id) else none

def smallerPath (a b : ExpectedPath) : ExpectedPath := if b.id < a.id then b else a

/-- The claimed path when it is a member of the group, otherwise the member with
the smallest identity. The claims of the records are read in the order of the
request. -/
def referencePath (routes : RouteGeneration) (group : PathGroup) (request : ComparisonRequest) :
    Option ExpectedPath :=
  (claimedPath routes group request.path).or
    ((request.evidence.findSome? (fun e => claimedPath routes group e.path)).or
      (match memberPaths routes group with
        | [] => none
        | first :: rest => some (rest.foldl smallerPath first)))

def hopDifference (orderViolation : Bool) (expected : List ExpectedHop)
    (observed : List ObservedHop) (i : ℕ) : HopDifference :=
  match expected[i]?, observed[i]? with
  | some e, some o =>
    { index := UInt32.ofNat i, expected := e, observed := o, hasExpected := true,
      hasObserved := true,
      detail :=
        if orderViolation ∧ perHopClass e o = .deviceMismatch then .hopOrderViolation
        else perHopClass e o }
  | none, some o =>
    { index := UInt32.ofNat i, observed := o, hasObserved := true, detail := .hopUnexpected }
  | some e, none =>
    { index := UInt32.ofNat i, expected := e, hasExpected := true, detail := .hopMissing }
  | none, none => { index := UInt32.ofNat i, detail := .hopMissing }

/-- Hop level differences against the reference path. -/
def hopDifferences (reference : ExpectedPath) (observed : List ObservedHop) : List HopDifference :=
  let orderViolation := sameDevicesDifferentOrder reference.hops observed
  ((List.range (max reference.hops.length observed.length)).map
    (hopDifference orderViolation reference.hops observed)).filter (·.detail ≠ .none)

/-- The plan declares a link that the trace cannot support at a hop that did not
already diverge. -/
def linkIsUnresolved (reference : ExpectedPath) (observed : List ObservedHop)
    (differences : List HopDifference) : Bool :=
  (reference.hops.zip observed).zipIdx.any (fun entry =>
    !differences.any (·.index.toNat = entry.2) &&
    entry.1.1.hasEgressLink && !entry.1.2.statesLink)

/-- The identity the observation names is not in the plan at all. -/
def pathIsUnknownToPlan (routes : RouteGeneration) (request : ComparisonRequest)
    (accepted : List Working) : Bool :=
  let claims (item : Working) : Bool := item.evidence.path.present || item.evidence.group.present
  let known (item : Working) : Bool :=
    if item.evidence.path.present then (routes.findPath item.evidence.path.value).isSome
    else item.evidence.group.present && (routes.findGroup item.evidence.group.value).isSome
  if request.path.present && (routes.findPath request.path.value).isNone then true
  else accepted.any claims && !accepted.any known

end PathObservatory
