import PathObservatory.Foundation.Identity

/-! # Divergence vocabulary

The class list is closed and ordered. Each class carries a stable code, a
category and a precedence, and the primary class of a set is the one of least
precedence.
-/
namespace PathObservatory

inductive DivergenceClass
  | none
  | epochFenced
  | epochAhead
  | incarnationFenced
  | sourceSequenceReplay
  | revisionFenced
  | revisionAhead
  | routeGenerationMismatch
  | topologyGenerationMismatch
  | authorityInsufficient
  | evidenceUnsupported
  | evidenceExpired
  | evidenceStale
  | evidenceConflicting
  | evidenceIncomplete
  | evidenceAmbiguous
  | evidenceUnknown
  | observationGap
  | linkUnresolved
  | pathUnknownToPlan
  | hopMissing
  | hopUnexpected
  | hopOrderViolation
  | deviceMismatch
  | portMismatch
  | linkMismatch
deriving DecidableEq, Repr, Inhabited

inductive DivergenceCategory
  | none
  | fencing
  | generation
  | authority
  | evidenceQuality
  | structural
deriving DecidableEq, Repr

namespace DivergenceClass

def toUInt8 : DivergenceClass → UInt8
  | none => 0
  | epochFenced => 1
  | epochAhead => 2
  | incarnationFenced => 3
  | sourceSequenceReplay => 4
  | revisionFenced => 5
  | revisionAhead => 6
  | routeGenerationMismatch => 7
  | topologyGenerationMismatch => 8
  | authorityInsufficient => 9
  | evidenceUnsupported => 10
  | evidenceExpired => 11
  | evidenceStale => 12
  | evidenceConflicting => 13
  | evidenceIncomplete => 14
  | evidenceAmbiguous => 15
  | evidenceUnknown => 16
  | observationGap => 17
  | linkUnresolved => 18
  | pathUnknownToPlan => 19
  | hopMissing => 20
  | hopUnexpected => 21
  | hopOrderViolation => 22
  | deviceMismatch => 23
  | portMismatch => 24
  | linkMismatch => 25

def toCode : DivergenceClass → String
  | none => "none"
  | epochFenced => "epoch_fenced"
  | epochAhead => "epoch_ahead"
  | incarnationFenced => "incarnation_fenced"
  | sourceSequenceReplay => "source_sequence_replay"
  | revisionFenced => "revision_fenced"
  | revisionAhead => "revision_ahead"
  | routeGenerationMismatch => "route_generation_mismatch"
  | topologyGenerationMismatch => "topology_generation_mismatch"
  | authorityInsufficient => "authority_insufficient"
  | evidenceUnsupported => "evidence_unsupported"
  | evidenceExpired => "evidence_expired"
  | evidenceStale => "evidence_stale"
  | evidenceConflicting => "evidence_conflicting"
  | evidenceIncomplete => "evidence_incomplete"
  | evidenceAmbiguous => "evidence_ambiguous"
  | evidenceUnknown => "evidence_unknown"
  | observationGap => "observation_gap"
  | linkUnresolved => "link_unresolved"
  | pathUnknownToPlan => "path_unknown_to_plan"
  | hopMissing => "hop_missing"
  | hopUnexpected => "hop_unexpected"
  | hopOrderViolation => "hop_order_violation"
  | deviceMismatch => "device_mismatch"
  | portMismatch => "port_mismatch"
  | linkMismatch => "link_mismatch"

def categoryOf : DivergenceClass → DivergenceCategory
  | none => .none
  | epochFenced | epochAhead | incarnationFenced | sourceSequenceReplay
  | revisionFenced | revisionAhead => .fencing
  | routeGenerationMismatch | topologyGenerationMismatch => .generation
  | authorityInsufficient => .authority
  | evidenceUnsupported | evidenceExpired | evidenceStale | evidenceConflicting
  | evidenceIncomplete | evidenceAmbiguous | evidenceUnknown | observationGap
  | linkUnresolved => .evidenceQuality
  | pathUnknownToPlan | hopMissing | hopUnexpected | hopOrderViolation
  | deviceMismatch | portMismatch | linkMismatch => .structural

def precedenceOf : DivergenceClass → ℕ
  | none => 0
  | epochFenced => 10
  | epochAhead => 11
  | incarnationFenced => 12
  | sourceSequenceReplay => 13
  | revisionFenced => 14
  | revisionAhead => 15
  | routeGenerationMismatch => 20
  | topologyGenerationMismatch => 21
  | authorityInsufficient => 25
  | evidenceUnsupported => 30
  | evidenceExpired => 31
  | evidenceStale => 32
  | evidenceConflicting => 40
  | evidenceIncomplete => 41
  | evidenceAmbiguous => 42
  | evidenceUnknown => 43
  | observationGap => 44
  | linkUnresolved => 45
  | pathUnknownToPlan => 50
  | hopMissing => 51
  | hopUnexpected => 52
  | hopOrderViolation => 53
  | deviceMismatch => 54
  | portMismatch => 55
  | linkMismatch => 56

end DivergenceClass

/-- One step of the scan for the primary class; `none` is never a candidate. -/
def betterPrimary (best candidate : DivergenceClass) : DivergenceClass :=
  if candidate = .none then best
  else if best = .none then candidate
  else if candidate.precedenceOf < best.precedenceOf ∨
      (candidate.precedenceOf = best.precedenceOf ∧ candidate.toUInt8 < best.toUInt8) then candidate
  else best

/-- Pick the primary class from a set: lowest precedence, ties broken by value. -/
def selectPrimary (classes : List DivergenceClass) : DivergenceClass :=
  classes.foldl betterPrimary .none

/-- Append a class that is not listed yet. -/
def addClass (classes : List DivergenceClass) (value : DivergenceClass) : List DivergenceClass :=
  if value = .none then classes
  else if value ∈ classes then classes
  else classes ++ [value]

theorem betterPrimary_ne_none {best candidate : DivergenceClass} (h : best ≠ .none) :
    betterPrimary best candidate ≠ .none := by
  unfold betterPrimary
  split_ifs <;> assumption

theorem foldl_betterPrimary_ne_none {best : DivergenceClass} (h : best ≠ .none)
    (classes : List DivergenceClass) : classes.foldl betterPrimary best ≠ .none := by
  induction classes generalizing best with
  | nil => exact h
  | cons c classes ih => exact ih (betterPrimary_ne_none h)

/-- A set has no primary class exactly when it lists nothing but `none`. -/
theorem selectPrimary_eq_none_iff {classes : List DivergenceClass} :
    selectPrimary classes = .none ↔ ∀ c ∈ classes, c = .none := by
  unfold selectPrimary
  induction classes with
  | nil => simp
  | cons c classes ih =>
    by_cases hc : c = .none
    · simpa [betterPrimary, hc] using ih
    · have hb : betterPrimary .none c ≠ .none := by simp [betterPrimary, hc]
      simp only [List.foldl_cons, List.mem_cons, forall_eq_or_imp, hc, false_and, iff_false]
      exact foldl_betterPrimary_ne_none hb classes

theorem mem_addClass {classes : List DivergenceClass} {value c : DivergenceClass} :
    c ∈ addClass classes value ↔ c ∈ classes ∨ (c = value ∧ value ≠ .none) := by
  unfold addClass
  split_ifs with hn hm
  · simp [hn]
  · constructor
    · exact Or.inl
    · rintro (h | ⟨rfl,_⟩)
      · exact h
      · exact hm
  · simp [hn]

/-- Result of comparing observed behaviour against the plan. -/
inductive MatchOutcome
  | noExpectedState
  | match_
  | divergent
  | indeterminate
  | unsupported
deriving DecidableEq, Repr, Inhabited

namespace MatchOutcome

def toUInt8 : MatchOutcome → UInt8
  | noExpectedState => 0
  | match_ => 1
  | divergent => 2
  | indeterminate => 3
  | unsupported => 4

def toString : MatchOutcome → String
  | noExpectedState => "no_expected_state"
  | match_ => "match"
  | divergent => "divergent"
  | indeterminate => "indeterminate"
  | unsupported => "unsupported"

end MatchOutcome

/-- Agreement between the accepted evidence records of one comparison. -/
inductive ObservationConsistency
  | unknown
  | consistent
  | ambiguous
  | conflicting
  | unsupported
deriving DecidableEq, Repr, Inhabited

def ObservationConsistency.toUInt8 : ObservationConsistency → UInt8
  | unknown => 0
  | consistent => 1
  | ambiguous => 2
  | conflicting => 3
  | unsupported => 4

end PathObservatory
