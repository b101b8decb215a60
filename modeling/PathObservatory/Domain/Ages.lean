import PathObservatory.Domain.Freshness
import PathObservatory.Library.SignedWord
import Mathlib.Order.Lattice

/-! # Ages as integers

The verdict on a record is a function of its age and of the skew of its source.
The machine computes both as differences of words; the verdict is the intended one
where a difference that turned over makes no difference to it.
-/
namespace PathObservatory
open SignedWord

namespace Freshness

theorem severity_worseOf (a b : Freshness) :
    (worseOf a b).severity = max a.severity b.severity := by
  cases a <;> cases b <;> rfl

theorem worseOf_future (a : Freshness) : worseOf a .future = .future := by cases a <;> rfl

theorem severity_eq_zero {a : Freshness} : a.severity = 0 ↔ a = .fresh := by
  cases a <;> decide

end Freshness

namespace FreshnessPolicy

/-- What the skew makes of the state, where the skew was negated to `lag`. -/
def skewVerdict (policy : FreshnessPolicy) (skew lag : ℤ) (state : Freshness) : Freshness :=
  if policy.clockSkewTolerance.toInt < skew then Freshness.worseOf state .future
  else if policy.maxObservationLatency.toInt < lag then Freshness.worseOf state .unknown
  else state

def skewedVerdict (policy : FreshnessPolicy) (skew : Option (ℤ × ℤ)) (state : Freshness) :
    Freshness :=
  skew.elim state (fun skew => policy.skewVerdict skew.1 skew.2 state)

/-- The class of an age that is not negative. -/
def ageVerdict (policy : FreshnessPolicy) (age : ℤ) : Freshness :=
  if age ≤ policy.evidenceMaxAge.toInt then .fresh
  else if age ≤ policy.evidenceExpiry.toInt then .stale else .expired

/-- The verdict on an age that was negated to `ahead`, and on a skew. -/
def verdict (policy : FreshnessPolicy) (age ahead : ℤ) (skew : Option (ℤ × ℤ)) : Freshness :=
  if age < 0 then
    if policy.clockSkewTolerance.toInt < ahead then .future else policy.skewedVerdict skew .fresh
  else policy.skewedVerdict skew (policy.ageVerdict age)

/-- The bounds of the policy are in order. -/
structure Ordered (policy : FreshnessPolicy) : Prop where
  maxAge : 0 ≤ policy.evidenceMaxAge.toInt
  tolerance : 0 ≤ policy.clockSkewTolerance.toInt
  latency : 0 ≤ policy.maxObservationLatency.toInt
  expiry : policy.evidenceMaxAge.toInt ≤ policy.evidenceExpiry.toInt

theorem ordered_of_validate {policy : FreshnessPolicy} (h : policy.validate = .ok ()) :
    policy.Ordered := by
  unfold validate at h
  simp only [require_bind_eq_ok, require_eq_ok, Bool.and_eq_true, decide_eq_true_eq,
    Int64.le_iff_toInt_le] at h
  obtain ⟨⟨⟨⟨⟨⟨hmax,-⟩,-⟩,-⟩,htolerance⟩,hlatency⟩,hexpiry,-⟩ := h
  exact ⟨hmax,htolerance,hlatency,hexpiry⟩

section Verdicts
variable {policy : FreshnessPolicy} {age ahead : ℤ} {skew : Option (ℤ × ℤ)} {state : Freshness}

theorem skewedVerdict_eq_future (hstate : state ≠ .future) :
    policy.skewedVerdict skew state = .future ↔
      ∃ read ∈ skew, policy.clockSkewTolerance.toInt < read.1 := by
  rcases skew with _ | ⟨skew,lag⟩
  · exact iff_of_false hstate (by simp)
  · simp only [skewedVerdict, Option.elim_some, skewVerdict, Option.mem_some_iff, exists_eq_left']
    split_ifs with hahead hbehind
    · exact iff_of_true (Freshness.worseOf_future state) hahead
    · refine iff_of_false ?_ hahead
      cases state <;> first | exact absurd rfl hstate | decide
    · exact iff_of_false hstate hahead

theorem ageVerdict_ne_future : policy.ageVerdict age ≠ .future := by
  unfold ageVerdict
  split_ifs <;> decide

/-- Evidence is of the future when it was received too far ahead, or was observed
too long after it was received. -/
theorem verdict_eq_future : policy.verdict age ahead skew = .future ↔
    (age < 0 ∧ policy.clockSkewTolerance.toInt < ahead) ∨
      ∃ read ∈ skew, policy.clockSkewTolerance.toInt < read.1 := by
  unfold verdict
  split_ifs with hnegative hahead
  · exact iff_of_true rfl (.inl ⟨hnegative,hahead⟩)
  · rw [skewedVerdict_eq_future (by decide)]
    exact ⟨.inr,fun h => h.resolve_left fun h => hahead h.2⟩
  · rw [skewedVerdict_eq_future ageVerdict_ne_future]
    exact ⟨.inr,fun h => h.resolve_left fun h => hnegative h.1⟩

theorem skewedVerdict_fresh_ne_expired : policy.skewedVerdict skew .fresh ≠ .expired := by
  rcases skew with _ | ⟨skew,lag⟩
  · exact nofun
  · simp only [skewedVerdict, Option.elim_some, skewVerdict]
    split_ifs <;> decide

/-- Nothing that was received ahead of the clock has expired. -/
theorem verdict_ne_expired (h : age < 0) : policy.verdict age ahead skew ≠ .expired := by
  rw [verdict, if_pos h]
  split_ifs
  · decide
  · exact skewedVerdict_fresh_ne_expired

/-- Beyond the expiry horizon the skew can only move the verdict to the future. -/
theorem verdict_of_expired (hexpiry : policy.evidenceExpiry.toInt < age) (hp : policy.Ordered) :
    policy.verdict age ahead skew = .future ∨ policy.verdict age ahead skew = .expired := by
  have hmax := hp.maxAge
  have horder := hp.expiry
  have hage : policy.ageVerdict age = .expired := by
    rw [ageVerdict, if_neg (by omega), if_neg (by omega)]
  rw [verdict, if_neg (by omega), hage]
  rcases skew with _ | ⟨skew,lag⟩
  · exact .inr rfl
  · simp only [skewedVerdict, Option.elim_some, skewVerdict]
    split_ifs
    · exact .inl rfl
    · exact .inr rfl
    · exact .inr rfl

/-- Only evidence no older than its horizon is fresh. -/
theorem age_le_of_verdict_fresh (h : policy.verdict age ahead skew = .fresh)
    (hmax : 0 ≤ policy.evidenceMaxAge.toInt) : age ≤ policy.evidenceMaxAge.toInt := by
  by_cases hnegative : age < 0
  · omega
  · rw [verdict, if_neg hnegative] at h
    have hage : policy.ageVerdict age = .fresh := by
      rcases skew with _ | ⟨skew,lag⟩
      · exact h
      · simp only [skewedVerdict, Option.elim_some, skewVerdict] at h
        split_ifs at h
        · exact (Freshness.worseOf_eq_fresh.mp h).1
        · exact (Freshness.worseOf_eq_fresh.mp h).1
        · exact h
    unfold ageVerdict at hage
    split_ifs at hage
    assumption

/-- Fresh evidence is no further ahead of the clock than the tolerance either. -/
theorem age_of_verdict_fresh (h : policy.verdict age (-age) skew = .fresh) (hp : policy.Ordered) :
    -policy.clockSkewTolerance.toInt ≤ age ∧ age ≤ policy.evidenceMaxAge.toInt := by
  have htolerance := hp.tolerance
  refine ⟨?_,age_le_of_verdict_fresh h hp.maxAge⟩
  by_cases hnegative : age < 0
  · rw [verdict, if_pos hnegative] at h
    split_ifs at h with hahead
    omega
  · omega

theorem skewedVerdict_mono {older : Freshness} (h : state.severity ≤ older.severity) :
    (policy.skewedVerdict skew state).severity ≤ (policy.skewedVerdict skew older).severity := by
  rcases skew with _ | ⟨skew,lag⟩
  · exact h
  · simp only [skewedVerdict, Option.elim_some, skewVerdict]
    split_ifs
    · rw [Freshness.severity_worseOf, Freshness.severity_worseOf]
      exact max_le_max_right _ h
    · rw [Freshness.severity_worseOf, Freshness.severity_worseOf]
      exact max_le_max_right _ h
    · exact h

theorem ageVerdict_mono {later : ℤ} (h : age ≤ later) :
    (policy.ageVerdict age).severity ≤ (policy.ageVerdict later).severity := by
  unfold ageVerdict
  split_ifs <;> first | decide | omega

/-- An age that has grown does not improve the verdict. -/
theorem verdict_mono {later laterAhead : ℤ} (hage : 0 ≤ age) (h : age ≤ later) :
    (policy.verdict age ahead skew).severity ≤
      (policy.verdict later laterAhead skew).severity := by
  rw [verdict, verdict, if_neg (by omega), if_neg (by omega)]
  exact skewedVerdict_mono (ageVerdict_mono h)

end Verdicts

end FreshnessPolicy

section Assessments
variable {e : ObservedPathEvidence} {now : TimePoint} {policy : FreshnessPolicy}

/-- The skew of a record and its negation, as the machine computes them. -/
def machineSkew (e : ObservedPathEvidence) : Option (ℤ × ℤ) :=
  if e.observedAt.isSet then
    some ((e.observedAt.unixNanos - e.receivedAt.unixNanos).toInt,
      (-(e.observedAt.unixNanos - e.receivedAt.unixNanos)).toInt)
  else none

theorem assessSkew_state (assessment : FreshnessAssessment) :
    (assessSkew e policy assessment).state =
      policy.skewedVerdict (machineSkew e) assessment.state := by
  unfold assessSkew machineSkew
  by_cases hset : e.observedAt.isSet = true
  · simp only [hset, if_true, FreshnessPolicy.skewedVerdict, Option.elim_some,
      FreshnessPolicy.skewVerdict, Int64.lt_iff_toInt_lt]
    split_ifs <;> rfl
  · simp [hset, FreshnessPolicy.skewedVerdict]

theorem classifyAge_eq (age : Duration) :
    classifyAge age policy.evidenceMaxAge policy.evidenceExpiry = policy.ageVerdict age.toInt := by
  simp only [classifyAge, FreshnessPolicy.ageVerdict, Int64.le_iff_toInt_le]

/-- The state of an assessment is the verdict on the machine's differences. -/
theorem assessEvidence_state (hnow : now.isSet = true) (hreceived : e.receivedAt.isSet = true) :
    (assessEvidence e now policy).state =
      policy.verdict (now.unixNanos - e.receivedAt.unixNanos).toInt
        (-(now.unixNanos - e.receivedAt.unixNanos)).toInt (machineSkew e) := by
  have hzero : (0 : Int64).toInt = 0 := rfl
  unfold assessEvidence FreshnessPolicy.verdict
  simp only [hnow, hreceived, not_true, if_false, Int64.lt_iff_toInt_lt, hzero]
  split_ifs
  · rfl
  · rw [assessSkew_state]
  · rw [assessSkew_state, classifyAge_eq]

theorem assessEvidence_state_unset (h : ¬ (now.isSet = true ∧ e.receivedAt.isSet = true)) :
    (assessEvidence e now policy).state = .unknown := by
  unfold assessEvidence
  by_cases hnow : now.isSet = true
  · have hreceived : ¬ e.receivedAt.isSet = true := fun hreceived => h ⟨hnow,hreceived⟩
    simp [hnow, hreceived]
  · simp [hnow]

end Assessments

end PathObservatory
