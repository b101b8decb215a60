import PathObservatory.Domain.Ages

/-! # When freshness is exact

The differences between the evaluation time, the receive time and the observation
time may not fit the machine. These are the records that are judged as if they did.
-/
namespace PathObservatory
open SignedWord FreshnessPolicy

variable {e : ObservedPathEvidence} {now : TimePoint} {policy : FreshnessPolicy}

/-- How far the evaluation lies behind the receipt. -/
def exactAge (e : ObservedPathEvidence) (now : TimePoint) : ℤ :=
  now.unixNanos.toInt - e.receivedAt.unixNanos.toInt

/-- How far the observation lies ahead of the receipt. -/
def exactSkew (e : ObservedPathEvidence) : ℤ :=
  e.observedAt.unixNanos.toInt - e.receivedAt.unixNanos.toInt

/-- The state of the evidence when no difference is cut to the machine's width. -/
def exactState (e : ObservedPathEvidence) (now : TimePoint) (policy : FreshnessPolicy) :
    Freshness :=
  if now.isSet ∧ e.receivedAt.isSet then
    policy.verdict (exactAge e now) (-exactAge e now)
      (if e.observedAt.isSet then some (exactSkew e,-exactSkew e) else none)
  else .unknown

/-- The evidence gets the state of the exact differences. -/
structure ExactlyAssessed (e : ObservedPathEvidence) (now : TimePoint)
    (policy : FreshnessPolicy) : Prop where
  state : (assessEvidence e now policy).state = exactState e now policy
  fresh : (assessEvidence e now policy).state = .fresh →
    -policy.clockSkewTolerance.toInt ≤ exactAge e now ∧
      exactAge e now ≤ policy.evidenceMaxAge.toInt

/-- The observation is so far ahead of the receipt that it shows on the machine. -/
def ShownAhead (e : ObservedPathEvidence) (policy : FreshnessPolicy) : Prop :=
  e.observedAt.isSet = true ∧ (policy.clockSkewTolerance.toInt < exactSkew e ∧
    exactSkew e < 2 ^ 63 ∨ exactSkew e < -2 ^ 63 ∧
      policy.clockSkewTolerance.toInt < exactSkew e + 2 ^ 64)

/-- The age fits the machine, and a skew that does not is of no consequence: the
receipt lies too far ahead in any case, or the record is not fresh in any case. -/
def FittingAge (e : ObservedPathEvidence) (now : TimePoint) (policy : FreshnessPolicy) : Prop :=
  Fits (exactAge e now) ∧
    (policy.clockSkewTolerance.toInt < -exactAge e now ∨ e.observedAt.isSet = false ∨
      Fits (exactSkew e) ∨
      exactSkew e ≤ -2 ^ 63 ∧ policy.evidenceMaxAge.toInt < exactAge e now ∧
        (exactSkew e = -2 ^ 63 ∨ exactSkew e + 2 ^ 64 ≤ policy.clockSkewTolerance.toInt))

/-- The receipt lies so far in the past that its age turns over, but the observation
is ahead of it beyond the tolerance, by either reading of the clocks. -/
def AncientAhead (e : ObservedPathEvidence) (now : TimePoint) (policy : FreshnessPolicy) :
    Prop :=
  2 ^ 63 ≤ exactAge e now ∧ e.observedAt.isSet = true ∧
    policy.clockSkewTolerance.toInt < exactSkew e ∧
      (exactSkew e < 2 ^ 63 ∨
        2 ^ 63 < exactAge e now ∧ exactAge e now + policy.clockSkewTolerance.toInt < 2 ^ 64)

/-- The times for which the width of the machine makes no difference. -/
def AgesExactly (e : ObservedPathEvidence) (now : TimePoint) (policy : FreshnessPolicy) : Prop :=
  e.receivedAt.isSet = false ∨ FittingAge e now policy ∨
    (exactAge e now ≤ -2 ^ 63 ∧ ShownAhead e policy) ∨ AncientAhead e now policy

/-- The skew as it is, and its negation. -/
def exactSkews (e : ObservedPathEvidence) : Option (ℤ × ℤ) :=
  if e.observedAt.isSet then some (exactSkew e,-exactSkew e) else none

theorem exactState_eq (hnow : now.isSet = true) (hreceived : e.receivedAt.isSet = true) :
    exactState e now policy =
      policy.verdict (exactAge e now) (-exactAge e now) (exactSkews e) := by
  rw [exactState, if_pos ⟨hnow,hreceived⟩, exactSkews]

theorem exists_exactSkews {P : ℤ → Prop} :
    (∃ read ∈ exactSkews e, P read.1) ↔ e.observedAt.isSet = true ∧ P (exactSkew e) := by
  unfold exactSkews
  by_cases hset : e.observedAt.isSet = true <;> simp [hset]

/-- The machine sees the observation ahead of the receipt. -/
theorem exists_machineSkew (hp : policy.Ordered) :
    (∃ read ∈ machineSkew e, policy.clockSkewTolerance.toInt < read.1) ↔ ShownAhead e policy := by
  have htolerance := hp.tolerance
  have hread : (∃ read ∈ machineSkew e, policy.clockSkewTolerance.toInt < read.1) ↔
      e.observedAt.isSet = true ∧ policy.clockSkewTolerance.toInt <
        (e.observedAt.unixNanos - e.receivedAt.unixNanos).toInt := by
    unfold machineSkew
    by_cases hset : e.observedAt.isSet = true <;> simp [hset]
  rw [hread]
  refine and_congr_right fun _ => ?_
  unfold exactSkew
  by_cases hlow : e.observedAt.unixNanos.toInt - e.receivedAt.unixNanos.toInt < -2 ^ 63
  · rw [toInt_sub_of_low hlow]
    omega
  · by_cases hhigh : 2 ^ 63 ≤ e.observedAt.unixNanos.toInt - e.receivedAt.unixNanos.toInt
    · have hobserved := e.observedAt.unixNanos.toInt_lt
      have hreceived := e.receivedAt.unixNanos.le_toInt
      rw [toInt_sub_of_high hhigh]
      omega
    · rw [toInt_sub_of_fits (by omega) (by omega)]
      omega

/-- Where the state is not one of the future, a skew that does not fit the machine
shows, unless the state is no longer fresh and the skew turns over to one within the
tolerance. -/
theorem skewedVerdict_exact_iff {state : Freshness} (hstate : state ≠ .future)
    (hp : policy.Ordered) :
    policy.skewedVerdict (machineSkew e) state = policy.skewedVerdict (exactSkews e) state ↔
      e.observedAt.isSet = false ∨ Fits (exactSkew e) ∨
        exactSkew e ≤ -2 ^ 63 ∧ state ≠ .fresh ∧
          (exactSkew e = -2 ^ 63 ∨ exactSkew e + 2 ^ 64 ≤ policy.clockSkewTolerance.toInt) := by
  have htolerance := hp.tolerance
  have hlatency := hp.latency
  have htoleranceLt := policy.clockSkewTolerance.toInt_lt
  have hlatencyLt := policy.maxObservationLatency.toInt_lt
  have hobserved := e.observedAt.unixNanos.toInt_lt
  have hobservedLow := e.observedAt.unixNanos.le_toInt
  have hreceived := e.receivedAt.unixNanos.toInt_lt
  have hreceivedLow := e.receivedAt.unixNanos.le_toInt
  have hfuture : Freshness.worseOf state .future ≠ state := by
    rw [Freshness.worseOf_future]
    exact hstate.symm
  have hunknown : Freshness.worseOf state .unknown ≠ Freshness.worseOf state .future := by
    revert hstate
    cases state <;> decide
  have hsame : Freshness.worseOf state .unknown = state ↔ state ≠ .fresh := by
    revert hstate
    cases state <;> decide
  by_cases hset : e.observedAt.isSet = true
  · have hskew : e.observedAt.unixNanos.toInt - e.receivedAt.unixNanos.toInt = exactSkew e := rfl
    simp only [machineSkew, exactSkews, hset, if_true, skewedVerdict, Option.elim_some, skewVerdict,
      Bool.true_eq_false, false_or, Fits]
    rcases lt_trichotomy (exactSkew e) (-2 ^ 63) with hlow | hleast | hmore
    · have hread := toInt_sub_of_low (hskew.trans_lt hlow)
      rw [toInt_neg_of_ne (by omega), hread, hskew]
      rw [if_neg (show ¬ policy.clockSkewTolerance.toInt < exactSkew e by omega),
        if_pos (show policy.maxObservationLatency.toInt < -exactSkew e by omega)]
      by_cases hturned : policy.clockSkewTolerance.toInt < exactSkew e + 2 ^ 64
      · rw [if_pos hturned]
        exact iff_of_false hunknown.symm (by omega)
      · rw [if_neg hturned, if_neg (by omega), eq_comm, hsame]
        exact ⟨fun h => .inr ⟨hlow.le,h,.inr (by omega)⟩,fun h => by
          rcases h with h | h
          · omega
          · exact h.2.1⟩
    · -- the least word stays what it is when it is negated
      have hread : (e.observedAt.unixNanos - e.receivedAt.unixNanos).toInt = -2 ^ 63 := by
        rw [toInt_sub_of_fits (by omega) (by omega), hskew, hleast]
      rw [toInt_neg_of_eq hread, hread, hleast, if_neg (by omega), if_neg (by omega),
        if_neg (by omega), if_pos (by omega), eq_comm, hsame]
      exact ⟨fun h => .inr ⟨le_refl _,h,.inl rfl⟩,fun h => by
        rcases h with h | h
        · omega
        · exact h.2.1⟩
    · by_cases hhigh : 2 ^ 63 ≤ exactSkew e
      · have hread := toInt_sub_of_high (hhigh.trans_eq hskew.symm)
        rw [hread, hskew, if_neg (by omega),
          if_pos (show policy.clockSkewTolerance.toInt < exactSkew e by omega)]
        refine iff_of_false ?_ (by omega)
        split_ifs
        · exact hunknown
        · exact hfuture.symm
      · have hread := toInt_sub_of_fits (a := e.observedAt.unixNanos)
          (b := e.receivedAt.unixNanos) (by omega) (by omega)
        rw [toInt_neg_of_ne (by omega), hread, hskew]
        exact iff_of_true rfl (.inl (by omega))
  · have hunset : e.observedAt.isSet = false := by simpa using hset
    simp [machineSkew, exactSkews, hunset]

/-- The claim about an age that fits the machine. -/
theorem fitting_exact_iff (hnow : now.isSet = true) (hreceived : e.receivedAt.isSet = true)
    (hp : policy.Ordered) (hage : Fits (exactAge e now)) :
    (assessEvidence e now policy).state = exactState e now policy ↔ FittingAge e now policy := by
  have hmax := hp.maxAge
  have htolerance := hp.tolerance
  have hread : (now.unixNanos - e.receivedAt.unixNanos).toInt = exactAge e now :=
    toInt_sub_of_fits hage.1.le hage.2
  rw [assessEvidence_state hnow hreceived, exactState_eq hnow hreceived, hread,
    toInt_neg_of_ne (by rw [hread]; exact hage.1.ne'), hread]
  by_cases hahead : policy.clockSkewTolerance.toInt < -exactAge e now
  · have hnegative : exactAge e now < 0 := by omega
    refine iff_of_true ?_ ⟨hage,.inl hahead⟩
    rw [verdict, verdict, if_pos hnegative, if_pos hnegative, if_pos hahead, if_pos hahead]
  · have hrest : FittingAge e now policy ↔ e.observedAt.isSet = false ∨ Fits (exactSkew e) ∨
        exactSkew e ≤ -2 ^ 63 ∧ policy.evidenceMaxAge.toInt < exactAge e now ∧
          (exactSkew e = -2 ^ 63 ∨
            exactSkew e + 2 ^ 64 ≤ policy.clockSkewTolerance.toInt) := by
      rw [FittingAge, and_iff_right hage, or_iff_right hahead]
    rw [hrest, verdict, verdict]
    by_cases hnegative : exactAge e now < 0
    · have hyoung : ¬ policy.evidenceMaxAge.toInt < exactAge e now := by omega
      rw [if_pos hnegative, if_pos hnegative, if_neg hahead, if_neg hahead,
        skewedVerdict_exact_iff (by decide) hp]
      simp [hyoung]
    · have hold : policy.ageVerdict (exactAge e now) ≠ .fresh ↔
          policy.evidenceMaxAge.toInt < exactAge e now := by
        unfold ageVerdict
        split_ifs <;> simp <;> omega
      rw [if_neg hnegative, if_neg hnegative, skewedVerdict_exact_iff ageVerdict_ne_future hp,
        hold]

/-- A receipt too far in the future for the machine. -/
theorem future_exact_iff (hnow : now.isSet = true) (hreceived : e.receivedAt.isSet = true)
    (hp : policy.Ordered) (hage : exactAge e now ≤ -2 ^ 63) :
    (assessEvidence e now policy).state = exactState e now policy ↔ ShownAhead e policy := by
  have htolerance := hp.tolerance
  have htoleranceLt := policy.clockSkewTolerance.toInt_lt
  have hnowLow := now.unixNanos.le_toInt
  have hreceivedHigh := e.receivedAt.unixNanos.toInt_lt
  have hread : now.unixNanos.toInt - e.receivedAt.unixNanos.toInt = exactAge e now := rfl
  have hexact : exactState e now policy = .future := by
    rw [exactState_eq hnow hreceived]
    exact verdict_eq_future.mpr (.inl ⟨by omega,by omega⟩)
  -- the age turns over to one that is not negative, or is its own negation
  have hunseen : ¬ ((now.unixNanos - e.receivedAt.unixNanos).toInt < 0 ∧
      policy.clockSkewTolerance.toInt <
        (-(now.unixNanos - e.receivedAt.unixNanos)).toInt) := by
    rcases hage.lt_or_eq with hlow | hleast
    · have hturned := toInt_sub_of_low (hread.trans_lt hlow)
      omega
    · have hsame : (now.unixNanos - e.receivedAt.unixNanos).toInt = -2 ^ 63 := by
        rw [toInt_sub_of_fits (by omega) (by omega), hread, hleast]
      rw [toInt_neg_of_eq hsame]
      omega
  rw [assessEvidence_state hnow hreceived, hexact, verdict_eq_future, or_iff_right hunseen,
    exists_machineSkew hp]

/-- A receipt too far in the past for the machine. -/
theorem ancient_exact_iff (hnow : now.isSet = true) (hreceived : e.receivedAt.isSet = true)
    (hp : policy.Ordered) (hage : 2 ^ 63 ≤ exactAge e now) :
    (assessEvidence e now policy).state = exactState e now policy ↔
      AncientAhead e now policy := by
  have htolerance := hp.tolerance
  have htoleranceLt := policy.clockSkewTolerance.toInt_lt
  have hexpiryLt := policy.evidenceExpiry.toInt_lt
  have hnowHigh := now.unixNanos.toInt_lt
  have hreceivedLow := e.receivedAt.unixNanos.le_toInt
  have hread : now.unixNanos.toInt - e.receivedAt.unixNanos.toInt = exactAge e now := rfl
  have hturned := toInt_sub_of_high (hage.trans_eq hread.symm)
  have hnegative : (now.unixNanos - e.receivedAt.unixNanos).toInt < 0 := by omega
  have hexact : exactState e now policy = .future ↔ e.observedAt.isSet = true ∧
      policy.clockSkewTolerance.toInt < exactSkew e := by
    rw [exactState_eq hnow hreceived, verdict_eq_future, exists_exactSkews]
    exact or_iff_right fun h => by omega
  have hmachine : (assessEvidence e now policy).state = .future ↔
      (2 ^ 63 < exactAge e now ∧ exactAge e now + policy.clockSkewTolerance.toInt < 2 ^ 64) ∨
        ShownAhead e policy := by
    rw [assessEvidence_state hnow hreceived, verdict_eq_future, and_iff_right hnegative,
      exists_machineSkew hp]
    refine or_congr_left ?_
    rcases hage.lt_or_eq with hmore | hleast
    · rw [toInt_neg_of_ne (by omega), hturned]
      omega
    · have hsame : (now.unixNanos - e.receivedAt.unixNanos).toInt = -2 ^ 63 := by omega
      rw [toInt_neg_of_eq hsame]
      omega
  -- the exact state is expired or of the future, and the machine finds nothing expired
  have hboth : (assessEvidence e now policy).state = exactState e now policy ↔
      (assessEvidence e now policy).state = .future ∧ exactState e now policy = .future := by
    have hunexpired : (assessEvidence e now policy).state ≠ .expired := by
      rw [assessEvidence_state hnow hreceived]
      exact verdict_ne_expired hnegative
    constructor
    · intro heq
      have hcases : exactState e now policy = .future ∨ exactState e now policy = .expired := by
        rw [exactState_eq hnow hreceived]
        exact verdict_of_expired (by omega) hp
      rcases hcases with hfuture | hexpired
      · exact ⟨heq.trans hfuture,hfuture⟩
      · exact absurd (heq.trans hexpired) hunexpired
    · rintro ⟨hmachine,hexact⟩
      rw [hmachine, hexact]
  rw [hboth, hmachine, hexact, ShownAhead, AncientAhead, and_iff_right hage]
  constructor
  · rintro ⟨hseen | ⟨-,hseen⟩,hset,hahead⟩
    · exact ⟨hset,hahead,.inr hseen⟩
    · exact ⟨hset,hahead,.inl (by omega)⟩
  · rintro ⟨hset,hahead,hseen⟩
    exact ⟨hseen.symm.imp_right fun hseen => ⟨hset,.inl ⟨hahead,hseen⟩⟩,hset,hahead⟩

/-- The state is the exact one. -/
theorem state_exact_iff (hnow : now.isSet = true) (hp : policy.Ordered) :
    (assessEvidence e now policy).state = exactState e now policy ↔ AgesExactly e now policy := by
  unfold AgesExactly
  by_cases hreceived : e.receivedAt.isSet = true
  · have hset : ¬ e.receivedAt.isSet = false := by simp [hreceived]
    rw [or_iff_right hset]
    by_cases hlow : exactAge e now ≤ -2 ^ 63
    · rw [future_exact_iff hnow hreceived hp hlow]
      have hunfit : ¬ FittingAge e now policy := fun h => absurd h.1.1 (not_lt.mpr hlow)
      have hpast : ¬ AncientAhead e now policy := fun h => by
        have hhigh := h.1
        omega
      rw [or_iff_right hunfit, and_iff_right hlow, or_iff_left hpast]
    · by_cases hhigh : 2 ^ 63 ≤ exactAge e now
      · rw [ancient_exact_iff hnow hreceived hp hhigh]
        have hunfit : ¬ FittingAge e now policy := fun h => absurd h.1.2 (not_lt.mpr hhigh)
        rw [or_iff_right hunfit, or_iff_right fun h => hlow h.1]
      · have hfits : Fits (exactAge e now) := ⟨not_le.mp hlow,not_le.mp hhigh⟩
        rw [fitting_exact_iff hnow hreceived hp hfits]
        exact ⟨.inl,fun h => h.resolve_right fun h =>
          h.elim (fun h => hlow h.1) (fun h => hhigh h.1)⟩
  · have hunset : e.receivedAt.isSet = false := by simpa using hreceived
    rw [assessEvidence_state_unset fun h => hreceived h.2, exactState,
      if_neg fun h => hreceived h.2]
    exact iff_of_true rfl (.inl hunset)

/-- Freshness is exact for the times for which the width of the machine makes no
difference, and for no others. -/
theorem exactlyAssessed_iff (e : ObservedPathEvidence) {now : TimePoint}
    {policy : FreshnessPolicy} (hnow : now.isSet = true) (hpolicy : policy.validate = .ok ()) :
    ExactlyAssessed e now policy ↔ AgesExactly e now policy := by
  have hp := ordered_of_validate hpolicy
  rw [← state_exact_iff hnow hp]
  refine ⟨fun h => h.state,fun hstate => ⟨hstate,fun hfresh => ?_⟩⟩
  rw [hstate] at hfresh
  by_cases hreceived : e.receivedAt.isSet = true
  · rw [exactState_eq hnow hreceived] at hfresh
    exact age_of_verdict_fresh hfresh hp
  · rw [exactState, if_neg fun h => hreceived h.2] at hfresh
    cases hfresh

/-- Evidence received when the clock began. -/
def ancientEvidence : ObservedPathEvidence :=
  { source := ⟨3⟩, incarnation := ⟨1⟩, sequence := ⟨1⟩, surface := .real,
    authority := .authoritative, epoch := ⟨1⟩, claimedIncarnation := ⟨1⟩, revision := ⟨1⟩,
    receivedAt := ⟨-9223372036854775807⟩ }

/-- Read when the clock ends, the oldest receipt there is passes for the present. -/
theorem ancient_evidence_passes_for_fresh :
    ¬ ∀ (e : ObservedPathEvidence) (now : TimePoint) (policy : FreshnessPolicy),
      e.validate {} = .ok () → now.isSet = true → policy.validate = .ok () →
        ExactlyAssessed e now policy := by
  intro h
  have hexact :=
    h ancientEvidence ⟨9223372036854775807⟩ {} (by decide +kernel) (by decide) (by decide)
  have hage := (hexact.fresh (by decide)).2
  revert hage
  decide

theorem recent_evidence_assessed_exactly :
    ExactlyAssessed { receivedAt := ⟨1000⟩, observedAt := ⟨500⟩ } ⟨2000⟩ {} :=
  (exactlyAssessed_iff _ (by decide) (by decide)).mpr
    (.inr (.inl ⟨by decide,.inr (.inr (.inl (by decide)))⟩))

end PathObservatory
