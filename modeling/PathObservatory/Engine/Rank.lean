import Mathlib.Data.Prod.Lex
import Mathlib.Order.OrderDual
import PathObservatory.Engine.Acceptance

/-! # The ranking of judged records

The comparator of the engine is the strict order of a lexicographic key, and the
records of one request that the key cannot tell apart are the same record up to
collisions of the evidence identity.
-/
namespace PathObservatory
open Ranking OrderDual

/-- Authority, freshness, declared completeness, receive time, sequence and
identity, the better value first. -/
abbrev RankKey : Type :=
  AuthorityClassᵒᵈ ×ₗ ℕ ×ₗ EvidenceCompletenessᵒᵈ ×ₗ TimePointᵒᵈ ×ₗ SourceSequenceᵒᵈ ×ₗ EvidenceId

def rankKey (w : Working) : RankKey :=
  toLex (toDual w.evidence.authority,
    toLex (w.freshness.severity,
      toLex (toDual w.evidence.declaredCompleteness,
        toLex (toDual w.evidence.receivedAt,
          toLex (toDual w.evidence.sequence,w.evidence.id)))))

/-- The comparator is the strict order of the key. -/
theorem ranksBefore_ranksBy : RanksBy ranksBefore rankKey := by
  intro a b
  simp only [rankKey, Prod.Lex.toLex_lt_toLex, toDual_lt_toDual, toDual_inj]
  unfold ranksBefore
  split_ifs with hauthority hfreshness hcompleteness hreceived hsequence
  · simp [hauthority]
  · simp [not_not.mp hauthority, hfreshness]
  · simp [not_not.mp hauthority, not_not.mp hfreshness, hcompleteness]
  · simp [not_not.mp hauthority, not_not.mp hfreshness, not_not.mp hcompleteness, hreceived]
  · simp [not_not.mp hauthority, not_not.mp hfreshness, not_not.mp hcompleteness,
      not_not.mp hreceived, hsequence]
  · simp [not_not.mp hauthority, not_not.mp hfreshness, not_not.mp hcompleteness,
      not_not.mp hreceived, not_not.mp hsequence]

theorem namedByRank : NamedByRank rankKey (fun w : Working => w.evidence.id) := by
  intro a b h
  simp only [rankKey, toLex_inj, Prod.mk.injEq] at h
  exact h.2.2.2.2.2

theorem receivedAt_eq_of_rankKey {a b : Working} (h : rankKey a = rankKey b) :
    a.evidence.receivedAt = b.evidence.receivedAt := by
  simp only [rankKey, toLex_inj, Prod.mk.injEq, toDual_inj] at h
  exact h.2.2.2.1

end PathObservatory
