import Mathlib.Data.List.DropRight
import PathObservatory.Domain.ReplayFence
import PathObservatory.Library.Gaps

/-! # What the sequence ledger counts as missing

The entry of a source adds up the sequences that were jumped over. Since its source last
changed incarnation, the sequences accepted grow upwards, so the sum is the number of
sequences between the first and the highest of them that were not accepted.
-/
namespace PathObservatory.SourceSequenceLedger
open Gaps

/-- Of the calls of one source, those since it last changed its incarnation. -/
def sinceChange (own : List (Observation × Verdict)) : List (Observation × Verdict) :=
  own.rtakeWhile fun entry => own.getLast?.all (·.1.incarnation = entry.1.incarnation)

/-- The sequences of the source accepted in that time. -/
def acceptedSinceChange (source : SourceId) (history : List (Observation × Verdict)) : List ℕ :=
  ((sinceChange (history.filter (·.1.source = source))).filter (·.2 ≠ .replay)).map
    (·.1.sequence.value.toNat)

/-- A call of another incarnation starts afresh. -/
theorem sinceChange_concat (own : List (Observation × Verdict)) (entry : Observation × Verdict) :
    sinceChange (own ++ [entry]) =
      (if own.getLast?.all (·.1.incarnation = entry.1.incarnation) then sinceChange own
        else []) ++ [entry] := by
  unfold sinceChange
  rw [List.rtakeWhile_concat, List.getLast?_concat, if_pos (by simp)]
  refine congrArg (· ++ [entry]) ?_
  cases own using List.reverseRecOn with
  | nil => rfl
  | append_singleton own last =>
    rw [List.getLast?_concat, List.rtakeWhile_concat, List.rtakeWhile_concat]
    by_cases hsame : last.1.incarnation = entry.1.incarnation
    · simp [hsame]
    · simp [hsame, Ne.symm hsame]

theorem acceptedSinceChange_concat (source : SourceId) (history : List (Observation × Verdict))
    (call : Observation) (verdict : Verdict) :
    acceptedSinceChange source (history ++ [(call,verdict)]) =
      if call.source = source then
        (if (history.filter (·.1.source = source)).getLast?.all
            (·.1.incarnation = call.incarnation) then acceptedSinceChange source history else []) ++
          (if verdict = .replay then [] else [call.sequence.value.toNat])
      else acceptedSinceChange source history := by
  unfold acceptedSinceChange
  rw [List.filter_append]
  by_cases hsource : call.source = source
  · rw [if_pos hsource]
    have hone : [(call,verdict)].filter (·.1.source = source) = [(call,verdict)] := by simp [hsource]
    rw [hone, sinceChange_concat, List.filter_append, List.map_append]
    congr 1
    · split_ifs <;> rfl
    · by_cases hreplay : verdict = .replay
      · simp [hreplay]
      · simp [hreplay]
  · rw [if_neg hsource]
    simp [hsource]

/-- The entry of a source is of the incarnation that the source reported last. -/
theorem continues_iff {calls : List Observation} {source : SourceId}
    (hlive : ((observeAll {} calls).entryOf source).incarnation.valid)
    (incarnation : SourceIncarnationId) :
    (((verdicts {} calls).filter (·.1.source = source)).getLast?.all
        (·.1.incarnation = incarnation)) = true ↔
      ((observeAll {} calls).entryOf source).incarnation = incarnation := by
  have hown : ((verdicts {} calls).filter (·.1.source = source)).map Prod.fst =
      calls.filter (·.source = source) := by
    conv_rhs => rw [← verdicts_map_fst {} calls]
    rw [List.filter_map]
    rfl
  rw [entryOf_incarnation, ← hown, List.getLast?_map] at hlive ⊢
  cases hlast : ((verdicts {} calls).filter (·.1.source = source)).getLast? with
  | none =>
    rw [hlast] at hlive
    exact absurd hlive (by decide)
  | some last => exact decide_eq_true_iff

/-- An observation restarts the sum, leaves it, or adds what it jumps over. -/
theorem Entry.observe_missing (entry : Entry) (incarnation : SourceIncarnationId)
    (sequence : SourceSequence) :
    (entry.observe incarnation sequence).2.missing =
      if ¬ entry.incarnation.valid then entry.missing
      else if entry.incarnation ≠ incarnation then 0
      else if sequence ≤ entry.highest then entry.missing
      else entry.missing + (sequence.value - entry.highest.value - 1) := by
  unfold Entry.observe
  by_cases hvalid : entry.incarnation.valid
  · by_cases hsame : entry.incarnation = incarnation
    · have hcontinues : ¬ (¬ entry.incarnation.valid ∨ entry.incarnation ≠ incarnation) :=
        not_or.mpr ⟨not_not.mpr hvalid,not_not.mpr hsame⟩
      rw [if_neg hcontinues, if_neg (not_not.mpr hvalid), if_neg (not_not.mpr hsame)]
      dsimp only
      split_ifs with hreplay hgap
      · rfl
      · rfl
      · have hnone : sequence.value - entry.highest.value - 1 = 0 :=
          UInt64.le_antisymm (UInt64.not_lt.mp hgap) UInt64.zero_le
        rw [hnone]
        exact (UInt64.add_zero _).symm
    · rw [if_pos (Or.inr hsame), if_pos hvalid, if_neg (not_not.mpr hvalid), if_pos hsame]
  · rw [if_pos (Or.inl hvalid), if_neg hvalid, if_pos hvalid]

/-- The entry carries the highest of the sequences accepted and how many were left out. -/
structure Entry.Counts (entry : Entry) (accepted : List ℕ) : Prop where
  valid_iff : entry.incarnation.valid ↔ accepted ≠ []
  highest_eq : entry.highest.value.toNat = Gaps.highest accepted
  missing_eq : entry.missing.toNat = (missed accepted).card

theorem Entry.counts_default : Entry.Counts {} [] :=
  ⟨iff_of_false (by decide) (not_not.mpr rfl),rfl,rfl⟩

theorem toNat_gap {sequence highest : UInt64} (hlt : highest < sequence) :
    (sequence - highest - 1).toNat = sequence.toNat - highest.toNat - 1 := by
  have hdifference : (sequence - highest).toNat = sequence.toNat - highest.toNat :=
    UInt64.toNat_sub_of_le _ _ (UInt64.le_of_lt hlt)
  have hone : (1 : UInt64) ≤ sequence - highest := by
    rw [UInt64.le_iff_toNat_le, hdifference]
    exact Nat.le_sub_of_add_le (by rw [Nat.add_comm]; exact UInt64.lt_iff_toNat_lt.mp hlt)
  rw [UInt64.toNat_sub_of_le _ _ hone, hdifference]
  rfl

/-- The sum does not wrap around: what is left out lies below a sequence. -/
theorem toNat_add_missed {missing sequence highest : UInt64} {l : List ℕ}
    (hmissing : missing.toNat = (missed l).card) (hl : highest.toNat = Gaps.highest l)
    (hlt : highest < sequence) :
    (missing + (sequence - highest - 1)).toNat =
      (missed l).card + (sequence.toNat - Gaps.highest l - 1) := by
  have hbound := card_missed_le l
  have hlower := UInt64.lt_iff_toNat_lt.mp hlt
  rw [hl] at hlower
  have hbelow : (missed l).card + (sequence.toNat - Gaps.highest l - 1) < sequence.toNat := by
    omega
  rw [UInt64.toNat_add, toNat_gap hlt, hmissing, hl, Nat.mod_eq_of_lt]
  exact hbelow.trans sequence.toNat_lt

theorem Entry.Counts.observe {entry : Entry} {accepted : List ℕ} (h : entry.Counts accepted)
    {incarnation : SourceIncarnationId} (hvalid : incarnation.valid) (sequence : SourceSequence) :
    Entry.Counts (entry.observe incarnation sequence).2
      ((if entry.incarnation = incarnation then accepted else []) ++
        (if (entry.observe incarnation sequence).1.verdict = .replay then []
          else [sequence.value.toNat])) := by
  have hmissing := entry.observe_missing incarnation sequence
  rcases entry.observe_cases incarnation sequence with ⟨hrestart,hverdict,hnow,hhighest⟩ |
    ⟨hlive,hsame,hle,hverdict,hnow,hhighest⟩ | ⟨hlive,hsame,hlt,hverdict,hnow,hhighest⟩
  · rw [if_neg hverdict]
    have hfresh : (if entry.incarnation = incarnation then accepted else []) = [] := by
      split_ifs with hsame
      · rw [hsame] at hrestart
        exact absurd hvalid (hrestart.resolve_right (not_not.mpr rfl))
      · rfl
    have hzero : (entry.observe incarnation sequence).2.missing.toNat = 0 := by
      rw [hmissing]
      by_cases hlive : entry.incarnation.valid
      · rw [if_neg (not_not.mpr hlive), if_pos (hrestart.resolve_left (not_not.mpr hlive))]
        rfl
      · rw [if_pos hlive, h.missing_eq, not_not.mp (mt h.valid_iff.mpr hlive)]
        rfl
    rw [hfresh, List.nil_append]
    exact ⟨iff_of_true (by rw [hnow]; exact hvalid) (by simp),by rw [hhighest, highest_singleton],
      by rw [hzero, missed_singleton, Finset.card_empty]⟩
  · rw [if_pos hsame, if_pos hverdict, List.append_nil]
    rw [if_neg (not_not.mpr hlive), if_neg (not_not.mpr hsame), if_pos hle] at hmissing
    exact ⟨by rw [hnow, ← hsame, h.valid_iff],by rw [hhighest, h.highest_eq],
      by rw [hmissing, h.missing_eq]⟩
  · rw [if_pos hsame, if_neg hverdict]
    rw [if_neg (not_not.mpr hlive), if_neg (not_not.mpr hsame), if_neg (not_le.mpr hlt)] at hmissing
    have hhigher : Gaps.highest accepted < sequence.value.toNat := by
      rw [← h.highest_eq]
      exact hlt
    refine ⟨iff_of_true (by rw [hnow]; exact hvalid) (by simp),by rw [hhighest, highest_concat hhigher],?_⟩
    rw [hmissing, card_missed_concat (h.valid_iff.mp hlive) hhigher]
    exact toNat_add_missed h.missing_eq h.highest_eq (UInt64.lt_iff_toNat_lt.mpr hlt)

/-- After any calls the entry of a source counts what its current incarnation has sent. -/
theorem counts_observeAll {calls : List Observation}
    (hvalid : ∀ call ∈ calls, call.incarnation.valid) (source : SourceId) :
    ((observeAll {} calls).entryOf source).Counts
      (acceptedSinceChange source (verdicts {} calls)) := by
  induction calls using List.reverseRecOn with
  | nil => exact Entry.counts_default
  | append_singleton calls call ih =>
    have hcalls := ih fun earlier hearlier => hvalid earlier (List.mem_append_left _ hearlier)
    have hcall := hvalid call (List.mem_append_right _ (List.mem_singleton_self _))
    rw [observeAll_concat, entryOf_observe, verdicts_concat, acceptedSinceChange_concat]
    by_cases hsource : call.source = source
    · subst hsource
      rw [if_pos rfl, if_pos rfl]
      have hstep := hcalls.observe hcall call.sequence
      have hverdict : (((observeAll {} calls).observe call).1.verdict) =
          (((observeAll {} calls).entryOf call.source).observe call.incarnation
            call.sequence).1.verdict := rfl
      rw [hverdict]
      by_cases hlive : ((observeAll {} calls).entryOf call.source).incarnation.valid
      · simpa only [continues_iff hlive] using hstep
      · have hnone := not_not.mp (mt hcalls.valid_iff.mpr hlive)
        simpa only [hnone, ite_self] using hstep
    · rw [if_neg hsource, if_neg hsource]
      exact hcalls

theorem missingTotal_eq (ledger : SourceSequenceLedger) (source : SourceId) :
    ledger.missingTotal source = (ledger.entryOf source).missing := by
  unfold missingTotal entryOf
  cases ledger.entries[source]? <;> rfl

theorem hasGap_eq (ledger : SourceSequenceLedger) (source : SourceId) :
    ledger.hasGap source = decide (0 < (ledger.entryOf source).missing) := by
  unfold hasGap entryOf
  cases ledger.entries[source]? <;> rfl

/-- A gap leaves sequences out, a new incarnation leaves none, any other verdict changes
nothing about it. -/
theorem Entry.Counts.missing_of_verdict {entry : Entry} {accepted : List ℕ}
    (h : entry.Counts accepted) (incarnation : SourceIncarnationId) (sequence : SourceSequence) :
    decide (0 < (entry.observe incarnation sequence).2.missing) =
      (entry.observe incarnation sequence).1.verdict.gapAfter (decide (0 < entry.missing)) := by
  unfold Entry.observe
  by_cases hrestart : ¬ entry.incarnation.valid ∨ entry.incarnation ≠ incarnation
  · rw [if_pos hrestart]
    split_ifs
    · rfl
    · rfl
  · rw [if_neg hrestart]
    by_cases hle : sequence ≤ entry.highest
    · rw [if_pos hle]
      rfl
    · rw [if_neg hle]
      dsimp only
      split_ifs with hgap
      · have hlt : entry.highest.value < sequence.value :=
          UInt64.lt_iff_toNat_lt.mpr (not_le.mp hle)
        have hsum := toNat_add_missed h.missing_eq h.highest_eq hlt
        have hpositive := UInt64.lt_iff_toNat_lt.mp hgap
        rw [toNat_gap hlt, h.highest_eq] at hpositive
        refine decide_eq_true (UInt64.lt_iff_toNat_lt.mpr ?_)
        rw [hsum]
        exact Nat.add_pos_right _ hpositive
      · rfl

/-- The gap of a source after one more observation. -/
theorem hasGap_observe {ledger : SourceSequenceLedger} {call : Observation} {accepted : List ℕ}
    (h : (ledger.entryOf call.source).Counts accepted) (source : SourceId) :
    (ledger.observe call).2.hasGap source =
      if call.source = source then (ledger.observe call).1.verdict.gapAfter (ledger.hasGap source)
      else ledger.hasGap source := by
  rw [hasGap_eq, hasGap_eq, entryOf_observe]
  by_cases hsource : call.source = source
  · subst hsource
    rw [if_pos rfl, if_pos rfl]
    exact h.missing_of_verdict call.incarnation call.sequence
  · rw [if_neg hsource, if_neg hsource]

end PathObservatory.SourceSequenceLedger
