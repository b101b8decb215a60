import PathObservatory.Domain.GapAccounting
import PathObservatory.Runtime.Sequencing

/-! # The gap marks of a runtime

The runtime marks a source when the ledger reports a gap and clears the mark when it
reports a new incarnation. Over any requests the mark is what the ledger says itself.
-/
namespace PathObservatory

namespace ObservatoryRuntime
open SourceSequenceLedger
variable {r s : ObservatoryRuntime}

/-- The ledger has seen some calls of valid incarnations, and the marks agree with it. -/
structure GapsMarked (r : ObservatoryRuntime) : Prop where
  observed : ∃ calls : List Observation, (∀ call ∈ calls, call.incarnation.valid) ∧
    r.ledger = observeAll {} calls
  marked : ∀ source, (r.sourceHasGap[source]?).getD false = r.ledger.hasGap source

theorem GapsMarked.congr (h : r.GapsMarked) (hledger : s.ledger = r.ledger)
    (hgaps : s.sourceHasGap = r.sourceHasGap) : s.GapsMarked := by
  refine ⟨?_,fun source => ?_⟩
  · rw [hledger]
    exact h.observed
  · rw [hledger, hgaps]
    exact h.marked source

theorem GapsMarked.ingestEvidence (h : r.GapsMarked) (e : ObservedPathEvidence) :
    (r.ingestEvidence e).2.GapsMarked := by
  rcases r.ingestEvidence_sequences e with ⟨refused,-,hsame⟩ | ⟨hscreened,hledger,hgaps⟩
  · rwa [hsame]
  · obtain ⟨calls,hvalid,hobserved⟩ := h.observed
    refine ⟨⟨calls ++ [⟨e.source,e.incarnation,e.sequence⟩],fun call hcall => ?_,?_⟩,
      fun source => ?_⟩
    · rcases List.mem_append.mp hcall with hcall | hcall
      · exact hvalid call hcall
      · rw [List.mem_singleton.mp hcall]
        exact incarnation_valid_of_screened hscreened
    · rw [hledger, hobserved, observeAll_concat]
    · have hcounts := counts_observeAll hvalid e.source
      rw [← hobserved] at hcounts
      rw [hledger, hgaps, hasGap_observe hcounts,
        markGap_getElem?, h.marked]

theorem GapsMarked.perform (h : r.GapsMarked) (call : Call) : (r.perform call).GapsMarked := by
  by_cases hcall : ∃ e, call = .ingestEvidence e
  · obtain ⟨e,rfl⟩ := hcall
    exact h.ingestEvidence e
  · have hsame := r.perform_sameObserved (fun e heq => hcall ⟨e,heq⟩)
    exact h.congr hsame.ledger hsame.sourceHasGap

theorem Reachable.gapsMarked (h : Reachable r) : r.GapsMarked := by
  induction h with
  | create hcreate =>
    obtain ⟨-,rfl⟩ := create_eq_ok.mp hcreate
    refine ⟨⟨[],nofun,rfl⟩,fun source => ?_⟩
    simp [fresh, SourceSequenceLedger.hasGap]
  | @start r _ content ih =>
    obtain ⟨-,hledger,hgaps⟩ := r.start_sequences content
    exact ih.congr hledger hgaps
  | call _ call ih => exact ih.perform call

/-- The ledger counts the sequences of a source that were left out since it last changed
incarnation, and in every state of a runtime the mark of a source says whether there are
any. -/
theorem gap_accounting :
    (∀ calls : List Observation, (∀ call ∈ calls, call.incarnation.valid) → ∀ source,
      ((observeAll {} calls).missingTotal source).toNat =
        (Gaps.missed (acceptedSinceChange source (verdicts {} calls))).card ∧
      ((observeAll {} calls).hasGap source = true ↔
        0 < (Gaps.missed (acceptedSinceChange source (verdicts {} calls))).card)) ∧
    (∀ r : ObservatoryRuntime, Reachable r → ∀ source,
      (r.sourceHasGap[source]?).getD false = r.ledger.hasGap source) := by
  refine ⟨fun calls hvalid source => ?_,fun r hr source => hr.gapsMarked.marked source⟩
  have hcounts := counts_observeAll hvalid source
  rw [missingTotal_eq, hasGap_eq, ← hcounts.missing_eq, decide_eq_true_eq, UInt64.lt_iff_toNat_lt]
  exact ⟨rfl,Iff.rfl⟩

/-- The source leaves out two sequences and sends one of them late. -/
def jumping : List Observation := [⟨⟨1⟩,⟨1⟩,⟨1⟩⟩,⟨⟨1⟩,⟨1⟩,⟨4⟩⟩,⟨⟨1⟩,⟨1⟩,⟨3⟩⟩]

/-- The late sequence was refused, so both are missing. -/
theorem gap_accounting_jumping : ((observeAll {} jumping).missingTotal ⟨1⟩).toNat = 2 ∧
    (observeAll {} jumping).hasGap ⟨1⟩ = true ∧
    (registeredOnly.sourceHasGap[(⟨1⟩ : SourceId)]?).getD false =
      registeredOnly.ledger.hasGap ⟨1⟩ := by
  obtain ⟨hmissing,hgap⟩ := gap_accounting.1 jumping (by decide) ⟨1⟩
  have htwo : (Gaps.missed (acceptedSinceChange ⟨1⟩ (verdicts {} jumping))).card = 2 := by decide
  rw [htwo] at hmissing hgap
  exact ⟨hmissing,hgap.mpr (by decide),
    gap_accounting.2 registeredOnly registeredOnly_reachable ⟨1⟩⟩

end ObservatoryRuntime

end PathObservatory
