import PathObservatory.Engine.Compare

/-! # What the outcome gates leave standing

Each gate passes a verdict on or replaces its outcome, so the final outcome is
read off the facts: compliance when every gate lets it through, divergence when
the gates before the divergence gate do and the structure contradicts the plan.
-/
namespace PathObservatory.OutcomeFacts
variable {f : OutcomeFacts} {policy : ComparisonPolicy} {v : Verdict}

theorem surfaceGate_eq_match :
    (f.surfaceGate v).outcome = .match_ ↔
      v.outcome = .match_ ∧ f.surface ≠ .unsupported ∧ f.surface ≠ .unknown := by
  unfold surfaceGate Verdict.settle
  split_ifs <;> simp [*]

theorem conflictGate_eq_match :
    (f.conflictGate v).outcome = .match_ ↔ v.outcome = .match_ ∧ f.conflicting = false := by
  unfold conflictGate
  split_ifs with h
  · simp [h.2]
  · simp only [not_and, Bool.not_eq_true] at h
    refine ⟨fun hv => ⟨hv,h (by simp [hv])⟩,And.left⟩

theorem freshnessGate_eq_match :
    (f.freshnessGate v).outcome = .match_ ↔
      v.outcome = .match_ ∧ (f.conflicting = true ∨ f.freshness = .fresh) := by
  unfold freshnessGate Verdict.settle
  split_ifs with h
  · simpa [Freshness.isComplianceCapable] using fun _ => h.2
  · refine ⟨fun hv => ⟨hv,?_⟩,And.left⟩
    by_contra hn
    simp only [not_or] at hn
    exact h ⟨by simp [hv],hn.1,by simpa [Freshness.isComplianceCapable] using hn.2⟩

theorem divergenceGate_eq_match :
    (f.divergenceGate v).outcome = .match_ ↔ v.outcome = .match_ ∧ f.structural = false := by
  unfold divergenceGate
  split_ifs with h
  · simp [h.2]
  · simp only [not_and, Bool.not_eq_true] at h
    exact ⟨fun hv => ⟨hv,h hv⟩,And.left⟩

theorem ambiguityGate_eq_match :
    (f.ambiguityGate policy v).outcome = .match_ ↔
      v.outcome = .match_ ∧
        (policy.multipathAmbiguityIsDivergence = true → f.multipathAmbiguous = false) := by
  unfold ambiguityGate Verdict.settle
  split_ifs with h
  · simp [h.2]
  · simp only [not_and, Bool.not_eq_true] at h
    exact ⟨fun hv => ⟨hv,h hv⟩,And.left⟩

theorem completenessGate_eq_match :
    (f.completenessGate v).outcome = .match_ ↔
      v.outcome = .match_ ∧ f.completeness = .complete := by
  unfold completenessGate Verdict.settle
  split_ifs with h
  · simp [h.2]
  · simp only [not_and, not_not] at h
    exact ⟨fun hv => ⟨hv,h hv⟩,And.left⟩

theorem authorityGate_eq_match :
    (f.authorityGate policy v).outcome = .match_ ↔
      v.outcome = .match_ ∧
        (policy.requireTopologyForMatch = true → f.topologyMatches = true) ∧
        AuthorityClass.advisory ≤ f.representativeAuthority ∧
        (policy.requireRealSurfaceForMatch = true → f.surface = .real) := by
  unfold authorityGate Verdict.settle
  split_ifs with hv ht ha hr
  · simp [hv]
  · simp [ht.1, ht.2]
  · simp [not_le.mpr ha]
  · simp [hr.1, hr.2]
  · simp only [not_and, not_not] at hv ht hr
    exact ⟨fun h => ⟨h,ht,not_lt.mp ha,hr⟩,And.left⟩

theorem memberGate_eq_match :
    (f.memberGate v).outcome = .match_ ↔
      v.outcome = .match_ ∧ (f.groupHasMembers = true →
        f.representativeMatches = true ∨ f.anyMatchesMember = true) := by
  unfold memberGate Verdict.settle
  split_ifs with h
  · simp [h.2.1, h.2.2.1, h.2.2.2]
  · refine ⟨fun hv => ⟨hv,fun hg => ?_⟩,And.left⟩
    by_contra hn
    simp only [not_or] at hn
    exact h ⟨hv,hg,hn⟩

theorem matchedPathGate_eq_match :
    (f.matchedPathGate v).outcome = .match_ ↔
      v.outcome = .match_ ∧ (f.planHasMembers = true → f.matchedPath.present = true) := by
  unfold matchedPathGate Verdict.settle
  split_ifs with h
  · simp [h.2.1, h.2.2]
  · refine ⟨fun hv => ⟨hv,fun hg => ?_⟩,And.left⟩
    by_contra hn
    exact h ⟨hv,hn,hg⟩

/-- The facts under which every gate lets a compliance statement through. -/
structure Compliant (f : OutcomeFacts) (policy : ComparisonPolicy) : Prop where
  judgeable : f.surface ≠ .unsupported ∧ f.surface ≠ .unknown
  agreeing : f.conflicting = false
  fresh : f.freshness = .fresh
  undiverged : f.structural = false
  unambiguous : policy.multipathAmbiguityIsDivergence = true → f.multipathAmbiguous = false
  complete : f.completeness = .complete
  topology : policy.requireTopologyForMatch = true → f.topologyMatches = true
  authority : AuthorityClass.advisory ≤ f.representativeAuthority
  real : policy.requireRealSurfaceForMatch = true → f.surface = .real
  member : f.groupHasMembers = true → f.representativeMatches = true ∨ f.anyMatchesMember = true
  named : f.planHasMembers = true → f.matchedPath.present = true

theorem decideOutcome_eq_match (hv : v.outcome = .match_) :
    (f.decideOutcome policy v).outcome = .match_ ↔ f.Compliant policy := by
  rw [decideOutcome, matchedPathGate_eq_match, memberGate_eq_match, authorityGate_eq_match,
    completenessGate_eq_match, ambiguityGate_eq_match, divergenceGate_eq_match,
    freshnessGate_eq_match, conflictGate_eq_match, surfaceGate_eq_match]
  constructor
  · rintro ⟨⟨⟨⟨⟨⟨⟨⟨⟨-,hs⟩,hc⟩,hf⟩,hd⟩,ha⟩,hm⟩,ht,hauth,hr⟩,hmember⟩,hn⟩
    exact ⟨hs,hc,hf.resolve_left (by simp [hc]),hd,ha,hm,ht,hauth,hr,hmember,hn⟩
  · rintro ⟨hs,hc,hf,hd,ha,hm,ht,hauth,hr,hmember,hn⟩
    exact ⟨⟨⟨⟨⟨⟨⟨⟨⟨hv,hs⟩,hc⟩,Or.inr hf⟩,hd⟩,ha⟩,hm⟩,ht,hauth,hr⟩,hmember⟩,hn⟩

/-- A gate after the divergence gate leaves a verdict that is not compliance
alone. -/
theorem lateGates_of_ne_match (hv : v.outcome ≠ .match_) :
    (v |> f.ambiguityGate policy |> f.completenessGate |> f.authorityGate policy
      |> f.memberGate |> f.matchedPathGate) = v := by
  simp [ambiguityGate, completenessGate, authorityGate, memberGate, matchedPathGate, hv]

theorem lateGates_ne_divergent (hv : v.outcome = .match_) :
    (v |> f.ambiguityGate policy |> f.completenessGate |> f.authorityGate policy
      |> f.memberGate |> f.matchedPathGate).outcome ≠ .divergent := by
  have hstep : ∀ {w : Verdict}, w.outcome ≠ .divergent →
      (f.ambiguityGate policy w).outcome ≠ .divergent ∧
      (f.completenessGate w).outcome ≠ .divergent ∧
      (f.authorityGate policy w).outcome ≠ .divergent ∧
      (f.memberGate w).outcome ≠ .divergent ∧
      (f.matchedPathGate w).outcome ≠ .divergent := by
    intro w hw
    unfold ambiguityGate completenessGate authorityGate memberGate matchedPathGate Verdict.settle
    refine ⟨?_,?_,?_,?_,?_⟩ <;> split_ifs <;> simp [hw]
  have h0 : v.outcome ≠ .divergent := by simp [hv]
  exact (hstep (hstep (hstep (hstep (hstep h0).1).2.1).2.2.1).2.2.2.1).2.2.2.2

theorem earlyGates_ne_divergent (hv : v.outcome = .match_) :
    (v |> f.surfaceGate |> f.conflictGate |> f.freshnessGate).outcome ≠ .divergent := by
  have hs : (f.surfaceGate v).outcome ≠ .divergent := by
    unfold surfaceGate Verdict.settle
    split_ifs <;> simp [hv]
  have hc : (f.conflictGate (f.surfaceGate v)).outcome ≠ .divergent := by
    unfold conflictGate
    split_ifs <;> simp [hs]
  unfold freshnessGate Verdict.settle
  split_ifs <;> simp [hc]

/-- No gate says that there is nothing to compare with. -/
theorem decideOutcome_ne_noExpectedState (hv : v.outcome ≠ .noExpectedState) :
    (f.decideOutcome policy v).outcome ≠ .noExpectedState := by
  have hearly : ∀ {w : Verdict}, w.outcome ≠ .noExpectedState →
      (f.surfaceGate w).outcome ≠ .noExpectedState ∧
      (f.conflictGate w).outcome ≠ .noExpectedState ∧
      (f.freshnessGate w).outcome ≠ .noExpectedState ∧
      (f.divergenceGate w).outcome ≠ .noExpectedState := by
    intro w hw
    unfold surfaceGate conflictGate freshnessGate divergenceGate Verdict.settle
    refine ⟨?_,?_,?_,?_⟩ <;> split_ifs <;> simp [hw]
  have hlate : ∀ {w : Verdict}, w.outcome ≠ .noExpectedState →
      (f.ambiguityGate policy w).outcome ≠ .noExpectedState ∧
      (f.completenessGate w).outcome ≠ .noExpectedState ∧
      (f.authorityGate policy w).outcome ≠ .noExpectedState ∧
      (f.memberGate w).outcome ≠ .noExpectedState ∧
      (f.matchedPathGate w).outcome ≠ .noExpectedState := by
    intro w hw
    unfold ambiguityGate completenessGate authorityGate memberGate matchedPathGate Verdict.settle
    refine ⟨?_,?_,?_,?_,?_⟩ <;> split_ifs <;> simp [hw]
  have hdivergence := (hearly (hearly (hearly (hearly hv).1).2.1).2.2.1).2.2.2
  exact (hlate (hlate (hlate (hlate (hlate hdivergence).1).2.1).2.2.1).2.2.2.1).2.2.2.2

/-- Divergence is reported exactly when the evidence is judgeable, agreeing and
fresh and the structure contradicts the plan. -/
theorem decideOutcome_eq_divergent (hv : v.outcome = .match_) :
    (f.decideOutcome policy v).outcome = .divergent ↔
      (f.surface ≠ .unsupported ∧ f.surface ≠ .unknown) ∧ f.conflicting = false ∧
        f.freshness = .fresh ∧ f.structural = true := by
  have hearly := f.freshnessGate_eq_match (v := f.conflictGate (f.surfaceGate v))
  rw [conflictGate_eq_match, surfaceGate_eq_match] at hearly
  unfold decideOutcome
  set w := f.freshnessGate (f.conflictGate (f.surfaceGate v)) with hw
  by_cases hm : w.outcome = .match_
  · obtain ⟨⟨⟨-,hs⟩,hc⟩,hf⟩ := hearly.mp hm
    have hfresh := hf.resolve_left (by simp [hc])
    cases hd : f.structural with
    | true =>
      have hgate : (f.divergenceGate w).outcome = .divergent := by simp [divergenceGate, hm, hd]
      rw [lateGates_of_ne_match (by simp [hgate])]
      exact ⟨fun _ => ⟨hs,hc,hfresh,rfl⟩,fun _ => hgate⟩
    | false =>
      have hgate : (f.divergenceGate w).outcome = .match_ := by simp [divergenceGate, hm, hd]
      refine ⟨fun h => absurd h (lateGates_ne_divergent hgate),?_⟩
      rintro ⟨-,-,-,h⟩
      cases h
  · have hgate : f.divergenceGate w = w := by simp [divergenceGate, hm]
    rw [hgate, lateGates_of_ne_match hm]
    refine ⟨fun h => absurd h (earlyGates_ne_divergent hv),?_⟩
    rintro ⟨hs,hc,hf,-⟩
    exact absurd (hearly.mpr ⟨⟨⟨hv,hs⟩,hc⟩,Or.inr hf⟩) hm

end PathObservatory.OutcomeFacts
