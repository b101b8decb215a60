import PathObservatory.Engine.Comparison

/-! # Judging and ranking the evidence of a comparison

Every offered record is judged on its own: fenced evidence keeps no hop trace and
is only counted. The judged records are then ranked by authority, freshness,
completeness, receive time, sequence and identity, and adjacent records of one
identity are one record.
-/
namespace PathObservatory
open Ranking

/-- Evidence and the working state the engine derives from it. -/
structure Working where
  evidence : ObservedPathEvidence := {}
  hops : List ObservedHop := []
  freshness : Freshness := .unknown
  classes : List DivergenceClass := []
  rejection : DivergenceClass := .none
  accepted : Bool := false
  reason : String := ""
deriving DecidableEq, Repr, Inhabited

/-- Add a class when the condition holds. -/
def addClassIf (condition : Bool) (value : DivergenceClass) (classes : List DivergenceClass) :
    List DivergenceClass :=
  if condition then addClass classes value else classes

/-- The freshness policy after the overrides a source registered. -/
def effectivePolicy (policy : FreshnessPolicy) (source : SourceDescriptor) : FreshnessPolicy :=
  let aged :=
    if 0 < source.maxObservationAge then
      { policy with
        evidenceMaxAge := source.maxObservationAge
        evidenceExpiry :=
          if source.maxObservationAge < policy.evidenceExpiry then policy.evidenceExpiry
          else source.maxObservationAge }
    else policy
  if 0 < source.clockSkewTolerance then
    { aged with clockSkewTolerance := source.clockSkewTolerance }
  else aged

/-- Correlation fills in a link only where the source stated none. -/
def correlateHop (index : Option TopologyIndex) (hop : ObservedHop) : ObservedHop :=
  match index with
  | none => hop
  | some index =>
    if !index.valid || hop.link.valid || !hop.device.valid || !hop.egress.valid then hop
    else
      match index.resolveLink hop.device hop.egress with
      | .ok resolution =>
        if resolution.known then
          { hop with link := resolution.link, linkProvenance := .correlated }
        else hop
      | .error _ => hop

namespace ComparisonPolicy

/-- The classes for which a well formed record of a registered source is
excluded. -/
def fencingClasses (policy : ComparisonPolicy) (authority : AuthorityState)
    (generation : RouteGenerationId) (topology : TopologyGenerationId)
    (e : ObservedPathEvidence) : List DivergenceClass :=
  [] |> addClassIf (e.epoch ≠ authority.epoch)
          (if e.epoch < authority.epoch then .epochFenced else .epochAhead)
     |> addClassIf (e.claimedIncarnation ≠ authority.incarnation) .incarnationFenced
     |> addClassIf (e.routeGeneration.present ∧ e.routeGeneration.value ≠ generation)
          .routeGenerationMismatch
     |> addClassIf (e.topologyGeneration.present ∧ e.topologyGeneration.value ≠ topology)
          .topologyGenerationMismatch
     |> addClassIf (e.revision < authority.routeRevision) .revisionFenced
     |> addClassIf (authority.routeRevision < e.revision) .revisionAhead
     |> addClassIf (e.surface = .unsupported) .evidenceUnsupported
     |> addClassIf (e.surface = .unknown) .evidenceUnknown
     |> addClassIf (policy.requireAdvisoryOrHigher ∧ e.authority < .advisory)
          .authorityInsufficient

end ComparisonPolicy

/-- A record excluded before it was assessed. -/
def Working.excluded (e : ObservedPathEvidence) (rejection : DivergenceClass) (reason : String) :
    Working :=
  { evidence := e, rejection := rejection, reason := reason, classes := addClass [] rejection }

/-- Fence a record that passed the source checks and correlate the links of an
accepted one. -/
def ComparisonPolicy.fence (policy : ComparisonPolicy) (generation : RouteGenerationId)
    (context : ComparisonContext) (routes : RouteGeneration) (effective : FreshnessPolicy)
    (e : ObservedPathEvidence) : Working :=
  let assessment := assessEvidence e context.now effective
  let classes := policy.fencingClasses context.authority generation routes.topology e
  let rejection := selectPrimary classes
  if rejection ≠ .none then
    { evidence := e, freshness := assessment.state, classes := classes, rejection := rejection,
      reason := "excluded as " ++ rejection.toCode }
  else
    { evidence := e, freshness := assessment.state, classes := classes, accepted := true,
      hops := e.hops.map (correlateHop context.topologyIndex), reason := assessment.reason }

def ComparisonPolicy.judgeEvidence (policy : ComparisonPolicy) (limits : Limits)
    (generation : RouteGenerationId) (context : ComparisonContext) (routes : RouteGeneration)
    (e : ObservedPathEvidence) : Working :=
  match e.validate limits with
  | .error error =>
    Working.excluded e .evidenceUnknown ("evidence record failed validation: " ++ error.message)
  | .ok () =>
    match context.sources with
    | none => policy.fence generation context routes policy.freshness e
    | some registry =>
      match registry.find e.source with
      | .error _ =>
        Working.excluded e .authorityInsufficient
          "evidence was produced by an unregistered source"
      | .ok source =>
        if source.authority < e.authority then
          Working.excluded e .authorityInsufficient
            "evidence claims more authority than its source is registered with"
        else
          policy.fence generation context routes (effectivePolicy policy.freshness source) e

/-- The order in which the engine reads judged records. -/
def ranksBefore (a b : Working) : Bool :=
  if a.evidence.authority ≠ b.evidence.authority then
    b.evidence.authority < a.evidence.authority
  else if a.freshness.severity ≠ b.freshness.severity then
    a.freshness.severity < b.freshness.severity
  else if a.evidence.declaredCompleteness ≠ b.evidence.declaredCompleteness then
    b.evidence.declaredCompleteness < a.evidence.declaredCompleteness
  else if a.evidence.receivedAt ≠ b.evidence.receivedAt then
    b.evidence.receivedAt < a.evidence.receivedAt
  else if a.evidence.sequence ≠ b.evidence.sequence then
    b.evidence.sequence < a.evidence.sequence
  else a.evidence.id < b.evidence.id

/-- Exact duplicates are one record: only the first of adjacent records with one
identity is kept. -/
def removeDuplicates (working : List Working) : List Working :=
  working.destutter (fun a b => a.evidence.id ≠ b.evidence.id)

end PathObservatory
