import PathObservatory.Domain.Observed

/-! # Freshness of evidence and of expected state -/
namespace PathObservatory

inductive Freshness
  | unknown
  | fresh
  | stale
  | expired
  | future
deriving DecidableEq, Repr, Inhabited

namespace Freshness

def toUInt8 : Freshness → UInt8
  | unknown => 0
  | fresh => 1
  | stale => 2
  | expired => 3
  | future => 4

def toString : Freshness → String
  | unknown => "unknown"
  | fresh => "fresh"
  | stale => "stale"
  | expired => "expired"
  | future => "future"

def severity : Freshness → ℕ
  | fresh => 0
  | unknown => 1
  | stale => 2
  | expired => 3
  | future => 4

def worseOf (a b : Freshness) : Freshness := if b.severity ≤ a.severity then a else b

def isComplianceCapable (freshness : Freshness) : Bool := freshness = .fresh

theorem worseOf_eq_fresh {a b : Freshness} : worseOf a b = .fresh ↔ a = .fresh ∧ b = .fresh := by
  cases a <;> cases b <;> decide

end Freshness

def seconds (count : Int64) : Duration := count * 1000000000

structure FreshnessPolicy where
  evidenceMaxAge : Duration := seconds 30
  evidenceExpiry : Duration := seconds 600
  generationMaxAge : Duration := seconds 300
  generationExpiry : Duration := seconds 1800
  clockSkewTolerance : Duration := seconds 1
  maxObservationLatency : Duration := seconds 5
deriving DecidableEq, Repr

def FreshnessPolicy.validate (policy : FreshnessPolicy) : Status := do
  require (0 ≤ policy.evidenceMaxAge && 0 ≤ policy.evidenceExpiry &&
      0 ≤ policy.generationMaxAge && 0 ≤ policy.generationExpiry &&
      0 ≤ policy.clockSkewTolerance && 0 ≤ policy.maxObservationLatency)
    { code := .invalidArgument, message := "freshness policy durations must not be negative" }
  require (policy.evidenceMaxAge ≤ policy.evidenceExpiry)
    { code := .invalidArgument,
      message := "evidence expiry must not be shorter than the evidence freshness horizon" }
  require (policy.generationMaxAge ≤ policy.generationExpiry)
    { code := .invalidArgument,
      message := "generation expiry must not be shorter than the generation freshness horizon" }

structure FreshnessAssessment where
  state : Freshness := .unknown
  age : Duration := 0
  skew : Duration := 0
  skewDetected : Bool := false
  ageKnown : Bool := false
  reason : String := ""
deriving DecidableEq, Repr, Inhabited

def classifyAge (age maxAge expiry : Duration) : Freshness :=
  if age ≤ maxAge then .fresh else if age ≤ expiry then .stale else .expired

/-- The judgement of the source clock, made after the age was classified. -/
def assessSkew (e : ObservedPathEvidence) (policy : FreshnessPolicy)
    (assessment : FreshnessAssessment) : FreshnessAssessment :=
  if e.observedAt.isSet then
    let skew := e.observedAt.unixNanos - e.receivedAt.unixNanos
    let assessment := { assessment with skew := skew }
    if policy.clockSkewTolerance < skew then
      { assessment with
        skewDetected := true, state := Freshness.worseOf assessment.state .future,
        reason := "source observation time is ahead of the receive time beyond tolerance" }
    else if policy.maxObservationLatency < -skew then
      -- The observation cannot be placed in time, which is no freshness verdict.
      { assessment with
        skewDetected := true, state := Freshness.worseOf assessment.state .unknown,
        reason := "source observation time lags the receive time beyond the tolerated latency" }
    else assessment
  else assessment

def assessEvidence (e : ObservedPathEvidence) (now : TimePoint) (policy : FreshnessPolicy) :
    FreshnessAssessment :=
  if ¬ now.isSet then { reason := "no evaluation time was supplied" }
  else if ¬ e.receivedAt.isSet then { reason := "evidence carries no receive time" }
  else
    let age := now.unixNanos - e.receivedAt.unixNanos
    if age < 0 then
      if policy.clockSkewTolerance < -age then
        { ageKnown := true, age := age, state := .future, skew := -age, skewDetected := true,
          reason := "receive time lies ahead of the evaluation time" }
      else
        assessSkew e policy
          { ageKnown := true, state := .fresh, age := 0,
            reason := "received within the clock skew tolerance of the evaluation time" }
    else
      let state := classifyAge age policy.evidenceMaxAge policy.evidenceExpiry
      assessSkew e policy
        { ageKnown := true, state := state, age := age,
          reason := match state with
            | .fresh => "received inside the evidence freshness horizon"
            | .stale => "received outside the evidence freshness horizon"
            | _ => "received outside the evidence expiry horizon" }

/-- The instant a generation is aged from: its receipt, else its creation. -/
def generationAnchor (created received : TimePoint) : TimePoint :=
  if received.isSet then received else created

def assessGeneration (created received now : TimePoint) (policy : FreshnessPolicy) :
    FreshnessAssessment :=
  if ¬ now.isSet then { reason := "no evaluation time was supplied" }
  else if ¬ (generationAnchor created received).isSet then
    { reason := "generation carries no timestamp" }
  else
    let age := now.unixNanos - (generationAnchor created received).unixNanos
    if age < 0 then
      if policy.clockSkewTolerance < -age then
        { ageKnown := true, age := age, state := .future, skew := -age, skewDetected := true,
          reason := "generation timestamp lies ahead of the evaluation time" }
      else
        { ageKnown := true, state := .fresh, age := 0,
          reason := "generation timestamp is within the clock skew tolerance" }
    else
      let state := classifyAge age policy.generationMaxAge policy.generationExpiry
      { ageKnown := true, state := state, age := age,
        reason := match state with
          | .fresh => "generation is inside the freshness horizon"
          | .stale => "generation is outside the freshness horizon"
          | _ => "generation is outside the expiry horizon" }

theorem classifyAge_eq_fresh {age maxAge expiry : Duration} :
    classifyAge age maxAge expiry = .fresh ↔ age ≤ maxAge := by
  unfold classifyAge
  split_ifs with hfresh hstale
  · exact iff_of_true rfl hfresh
  · exact iff_of_false (by decide) hfresh
  · exact iff_of_false (by decide) hfresh

/-- A generation is fresh when it has an age that is no larger than its horizon
and no further ahead of the clock than the tolerance. -/
theorem assessGeneration_eq_fresh {created received now : TimePoint} {policy : FreshnessPolicy} :
    (assessGeneration created received now policy).state = .fresh ↔
      now.isSet = true ∧ (generationAnchor created received).isSet = true ∧
      if now.unixNanos - (generationAnchor created received).unixNanos < 0 then
        -(now.unixNanos - (generationAnchor created received).unixNanos) ≤
          policy.clockSkewTolerance
      else now.unixNanos - (generationAnchor created received).unixNanos ≤
        policy.generationMaxAge := by
  by_cases hnow : now.isSet = true
  · by_cases hanchor : (generationAnchor created received).isSet = true
    · by_cases hahead : now.unixNanos - (generationAnchor created received).unixNanos < 0
      · by_cases hskew : policy.clockSkewTolerance <
            -(now.unixNanos - (generationAnchor created received).unixNanos)
        · simp only [assessGeneration, hnow, hanchor, hahead, hskew, not_true, if_true, if_false]
          exact iff_of_false nofun fun h => Int64.not_lt.mpr h.2.2 hskew
        · simp only [assessGeneration, hnow, hanchor, hahead, hskew, not_true, if_true, if_false]
          exact iff_of_true trivial ⟨trivial,trivial,Int64.not_lt.mp hskew⟩
      · simp only [assessGeneration, hnow, hanchor, hahead, not_true, if_false, true_and]
        exact classifyAge_eq_fresh
    · simp [assessGeneration, hnow, hanchor]
  · simp [assessGeneration, hnow]

end PathObservatory
