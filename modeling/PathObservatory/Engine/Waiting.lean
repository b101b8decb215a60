import PathObservatory.Domain.Ages
import PathObservatory.Engine.Acceptance

/-! # Evidence does not become fresh by waiting

Under the policy a comparison applies to a record, the state of the record only
gets worse while the clock runs.
-/
namespace PathObservatory
open SignedWord FreshnessPolicy

/-- The policy with the overrides of a source, where there is one. -/
def ComparisonPolicy.overriddenBy (policy : ComparisonPolicy) (source : Option SourceDescriptor) :
    FreshnessPolicy :=
  source.elim policy.freshness (effectivePolicy policy.freshness)

/-- A comparison takes the overrides from the source of the record. -/
theorem sourcePolicy_eq (policy : ComparisonPolicy) (context : ComparisonContext)
    (e : ObservedPathEvidence) :
    sourcePolicy policy context e =
      policy.overriddenBy (context.sources.bind fun registry =>
        (registry.find e.source).toOption) := by
  unfold sourcePolicy ComparisonPolicy.overriddenBy
  cases hsources : context.sources with
  | none => rfl
  | some registry => cases hfind : registry.find e.source <;> simp [hfind, Except.toOption]

/-- Whatever a source overrides, nothing expires while it is young enough. -/
theorem effectivePolicy_expiry {policy : FreshnessPolicy} (source : SourceDescriptor)
    (hexpiry : policy.evidenceMaxAge ≤ policy.evidenceExpiry) :
    (effectivePolicy policy source).evidenceMaxAge ≤
      (effectivePolicy policy source).evidenceExpiry := by
  simp only [Int64.le_iff_toInt_le] at hexpiry ⊢
  unfold effectivePolicy
  split_ifs with hage hskew hlarger hskew
  all_goals simp only [Int64.lt_iff_toInt_lt] at *
  all_goals first | exact hexpiry | exact le_refl _ | exact le_of_lt (by assumption)

theorem overriddenBy_expiry {policy : ComparisonPolicy} (hpolicy : policy.validate = .ok ())
    (source : Option SourceDescriptor) :
    (policy.overriddenBy source).evidenceMaxAge ≤ (policy.overriddenBy source).evidenceExpiry := by
  have hexpiry := Int64.le_iff_toInt_le.mpr (ordered_of_validate hpolicy).expiry
  cases source with
  | none => exact hexpiry
  | some source => exact effectivePolicy_expiry source hexpiry

/-- An instant no earlier than one that is set is set. -/
theorem isSet_of_le {a b : TimePoint} (ha : a.isSet = true)
    (h : a.unixNanos.toInt ≤ b.unixNanos.toInt) : b.isSet = true := by
  have hlow := a.unixNanos.le_toInt
  have hne : a.unixNanos ≠ kUnsetTimeNanos := by simpa [TimePoint.isSet] using ha
  have hmore : a.unixNanos.toInt ≠ -2 ^ 63 := fun heq =>
    hne (Int64.toInt_inj.mp (heq.trans Int64.toInt_minValue.symm))
  have hb : b.unixNanos ≠ kUnsetTimeNanos := by
    rintro heq
    rw [heq, kUnsetTimeNanos, Int64.toInt_minValue] at h
    omega
  simpa [TimePoint.isSet] using hb

/-- The state of a record at a later time is no better. -/
theorem assessEvidence_mono (e : ObservedPathEvidence) (policy : FreshnessPolicy)
    {earlier later : TimePoint} (hreceived : e.receivedAt ≤ earlier) (hlater : earlier ≤ later)
    (hfits : later.unixNanos.toInt - e.receivedAt.unixNanos.toInt < 2 ^ 63) :
    (assessEvidence e earlier policy).state.severity ≤
      (assessEvidence e later policy).state.severity := by
  have hreceived : e.receivedAt.unixNanos.toInt ≤ earlier.unixNanos.toInt := hreceived
  have hlater : earlier.unixNanos.toInt ≤ later.unixNanos.toInt := hlater
  by_cases hset : e.receivedAt.isSet = true
  · have hearlier : earlier.isSet = true := isSet_of_le hset hreceived
    have hlast : later.isSet = true := isSet_of_le hearlier hlater
    have hage := toInt_sub_of_fits (a := earlier.unixNanos) (b := e.receivedAt.unixNanos)
      (by omega) (by omega)
    have hlastAge := toInt_sub_of_fits (a := later.unixNanos) (b := e.receivedAt.unixNanos)
      (by omega) hfits
    rw [assessEvidence_state hearlier hset, assessEvidence_state hlast hset]
    apply verdict_mono
    · rw [hage]
      omega
    · rw [hage, hlastAge]
      omega
  · rw [assessEvidence_state_unset fun h => hset h.2, assessEvidence_state_unset fun h => hset h.2]

/-- Waiting makes no record fresh, under the policy of the comparison and under the
overrides of any source. -/
theorem waiting_never_freshens {policy : ComparisonPolicy} (hpolicy : policy.validate = .ok ())
    (source : Option SourceDescriptor) (e : ObservedPathEvidence) {earlier later : TimePoint}
    (hreceived : e.receivedAt ≤ earlier) (hlater : earlier ≤ later)
    (hfits : later.unixNanos.toInt - e.receivedAt.unixNanos.toInt < 2 ^ 63) :
    (assessEvidence e earlier (policy.overriddenBy source)).state.severity ≤
        (assessEvidence e later (policy.overriddenBy source)).state.severity ∧
      ((assessEvidence e earlier (policy.overriddenBy source)).state ≠ .fresh →
        (assessEvidence e later (policy.overriddenBy source)).state ≠ .fresh) ∧
      (policy.overriddenBy source).evidenceMaxAge ≤
        (policy.overriddenBy source).evidenceExpiry := by
  have hworse := assessEvidence_mono e (policy.overriddenBy source) hreceived hlater hfits
  refine ⟨hworse,fun hstale hfresh => ?_,overriddenBy_expiry hpolicy source⟩
  rw [Freshness.severity_eq_zero.mpr hfresh] at hworse
  exact hstale (Freshness.severity_eq_zero.mp (Nat.le_zero.mp hworse))

/-- Under an override, a record goes stale that the policy would still take. -/
theorem overridden_record_stays_stale :
    (assessEvidence { receivedAt := ⟨0⟩ } ⟨3000000000⟩
      (ComparisonPolicy.overriddenBy {} (some { maxObservationAge := 1000000000 }))).state ≠
        .fresh := by
  have hpolicy : ComparisonPolicy.validate {} = .ok () := by decide
  have hreceived : (⟨0⟩ : TimePoint) ≤ ⟨2000000000⟩ := by decide
  have hlater : (⟨2000000000⟩ : TimePoint) ≤ ⟨3000000000⟩ := by decide
  have hwaiting := waiting_never_freshens hpolicy (some { maxObservationAge := 1000000000 })
    { receivedAt := ⟨0⟩ } hreceived hlater (by decide)
  exact hwaiting.2.1 (by decide)

end PathObservatory
