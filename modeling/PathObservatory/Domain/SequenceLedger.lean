import PathObservatory.Domain.Source

/-! # The source sequence ledger

One entry per source holds the incarnation last seen and the highest sequence
accepted in it. A switch of incarnation restarts the sequence space, so the
entry forgets what the source sent under the incarnation it leaves.
-/
namespace PathObservatory

namespace SourceSequenceLedger

inductive Verdict
  | inOrder
  | gap
  | replay
  | newIncarnation
deriving DecidableEq, Repr, Inhabited

/-- Whether there is a gap after the verdict, as there was one before or not. -/
def Verdict.gapAfter (verdict : Verdict) (before : Bool) : Bool :=
  match verdict with
  | .gap => true
  | .newIncarnation => false
  | _ => before

structure Outcome where
  verdict : Verdict := .inOrder
  missing : UInt64 := 0
  highest : SourceSequence := {}
deriving DecidableEq, Repr, Inhabited

structure Entry where
  incarnation : SourceIncarnationId := {}
  highest : SourceSequence := {}
  missing : UInt64 := 0
  accepted : UInt64 := 0
  replays : UInt64 := 0
deriving DecidableEq, Repr, Inhabited

/-- The effect of one observation on the entry of its source. -/
def Entry.observe (entry : Entry) (incarnation : SourceIncarnationId)
    (sequence : SourceSequence) : Outcome × Entry :=
  if ¬ entry.incarnation.valid ∨ entry.incarnation ≠ incarnation then
    if entry.incarnation.valid then
      ({ verdict := .newIncarnation, highest := sequence },
       { entry with incarnation := incarnation, highest := sequence, missing := 0,
                    accepted := entry.accepted + 1 })
    else
      ({ highest := sequence },
       { entry with incarnation := incarnation, highest := sequence,
                    accepted := entry.accepted + 1 })
  else if sequence ≤ entry.highest then
    ({ verdict := .replay, highest := entry.highest },
     { entry with replays := entry.replays + 1 })
  else
    let gap := sequence.value - entry.highest.value - 1
    if 0 < gap then
      ({ verdict := .gap, missing := gap, highest := sequence },
       { entry with highest := sequence, missing := entry.missing + gap,
                    accepted := entry.accepted + 1 })
    else
      ({ highest := sequence },
       { entry with highest := sequence, accepted := entry.accepted + 1 })

/-- Everything one observation can do to an entry: restart the sequence space,
refuse a replay, or advance the high water mark. -/
theorem Entry.observe_cases (entry : Entry) (incarnation : SourceIncarnationId)
    (sequence : SourceSequence) :
    ((¬ entry.incarnation.valid ∨ entry.incarnation ≠ incarnation) ∧
      (entry.observe incarnation sequence).1.verdict ≠ .replay ∧
      (entry.observe incarnation sequence).2.incarnation = incarnation ∧
      (entry.observe incarnation sequence).2.highest = sequence) ∨
    (entry.incarnation.valid ∧ entry.incarnation = incarnation ∧ sequence ≤ entry.highest ∧
      (entry.observe incarnation sequence).1.verdict = .replay ∧
      (entry.observe incarnation sequence).2.incarnation = incarnation ∧
      (entry.observe incarnation sequence).2.highest = entry.highest) ∨
    (entry.incarnation.valid ∧ entry.incarnation = incarnation ∧ entry.highest < sequence ∧
      (entry.observe incarnation sequence).1.verdict ≠ .replay ∧
      (entry.observe incarnation sequence).2.incarnation = incarnation ∧
      (entry.observe incarnation sequence).2.highest = sequence) := by
  by_cases hswitch : ¬ entry.incarnation.valid ∨ entry.incarnation ≠ incarnation
  · refine Or.inl ⟨hswitch,?_⟩
    simp only [observe, if_pos hswitch]
    split <;> simp
  · obtain ⟨hvalid,rfl⟩ : entry.incarnation.valid ∧ entry.incarnation = incarnation := by
      simpa only [not_or, not_not] using hswitch
    by_cases hreplay : sequence ≤ entry.highest
    · refine Or.inr (Or.inl ⟨hvalid,rfl,hreplay,?_⟩)
      simp only [observe, if_neg hswitch, if_pos hreplay]
      simp
    · refine Or.inr (Or.inr ⟨hvalid,rfl,not_le.mp hreplay,?_⟩)
      simp only [observe, if_neg hswitch, if_neg hreplay]
      split <;> simp

end SourceSequenceLedger

structure SourceSequenceLedger where
  entries : OrderedMap SourceId SourceSequenceLedger.Entry := ∅

namespace SourceSequenceLedger

/-- One call of `observe`: what a source reported. -/
structure Observation where
  source : SourceId
  incarnation : SourceIncarnationId
  sequence : SourceSequence
deriving DecidableEq, Repr

def entryOf (ledger : SourceSequenceLedger) (source : SourceId) : Entry :=
  (ledger.entries[source]?).getD {}

def observe (ledger : SourceSequenceLedger) (call : Observation) :
    Outcome × SourceSequenceLedger :=
  let (outcome,entry) := (ledger.entryOf call.source).observe call.incarnation call.sequence
  (outcome,{ entries := ledger.entries.insert call.source entry })

def hasGap (ledger : SourceSequenceLedger) (source : SourceId) : Bool :=
  match ledger.entries[source]? with
  | some entry => 0 < entry.missing
  | none => false

def missingTotal (ledger : SourceSequenceLedger) (source : SourceId) : UInt64 :=
  match ledger.entries[source]? with
  | some entry => entry.missing
  | none => 0

/-- The ledger after a sequence of calls. -/
def observeAll (ledger : SourceSequenceLedger) (calls : List Observation) :
    SourceSequenceLedger :=
  calls.foldl (fun ledger call => (ledger.observe call).2) ledger

/-- Every call of a run with the verdict it received. -/
def verdicts (ledger : SourceSequenceLedger) : List Observation → List (Observation × Verdict)
  | [] => []
  | call :: calls =>
    (call,(ledger.observe call).1.verdict) :: verdicts (ledger.observe call).2 calls

theorem verdicts_concat (ledger : SourceSequenceLedger) (calls : List Observation)
    (call : Observation) :
    ledger.verdicts (calls ++ [call]) =
      ledger.verdicts calls ++ [(call,((ledger.observeAll calls).observe call).1.verdict)] := by
  induction calls generalizing ledger with
  | nil => rfl
  | cons first calls ih => simp only [List.cons_append, verdicts, ih, observeAll, List.foldl_cons]

theorem verdicts_map_fst (ledger : SourceSequenceLedger) (calls : List Observation) :
    (ledger.verdicts calls).map Prod.fst = calls := by
  induction calls generalizing ledger with
  | nil => rfl
  | cons first calls ih => simp only [verdicts, List.map_cons, ih]

theorem observeAll_concat (ledger : SourceSequenceLedger) (calls : List Observation)
    (call : Observation) :
    ledger.observeAll (calls ++ [call]) = ((ledger.observeAll calls).observe call).2 := by
  simp only [observeAll, List.foldl_append, List.foldl_cons, List.foldl_nil]

/-- A call of a valid incarnation is a replay when the entry is of that incarnation
and at or above its sequence; otherwise it moves the entry. -/
theorem observe_replay_iff (ledger : SourceSequenceLedger) {call : Observation}
    (hvalid : call.incarnation.valid) :
    (ledger.observe call).1.verdict = .replay ↔
      (ledger.entryOf call.source).incarnation = call.incarnation ∧
        call.sequence ≤ (ledger.entryOf call.source).highest := by
  have hverdict : (ledger.observe call).1 =
    ((ledger.entryOf call.source).observe call.incarnation call.sequence).1 := rfl
  rw [hverdict]
  rcases Entry.observe_cases (ledger.entryOf call.source) call.incarnation call.sequence with
    ⟨hswitch,hnot,-⟩ | ⟨-,hsame,hle,hreplay,-⟩ | ⟨-,hsame,hlt,hnot,-⟩
  · refine ⟨fun h => absurd h hnot,fun ⟨hsame,_⟩ => ?_⟩
    rcases hswitch with h | h
    · exact absurd (hsame ▸ hvalid) h
    · exact absurd hsame h
  · exact ⟨fun _ => ⟨hsame,hle⟩,fun _ => hreplay⟩
  · exact ⟨fun h => absurd h hnot,fun ⟨_,hle⟩ => absurd hle (not_le.mpr hlt)⟩

theorem entryOf_observe (ledger : SourceSequenceLedger) (call : Observation) (source : SourceId) :
    (ledger.observe call).2.entryOf source =
      if call.source = source then
        ((ledger.entryOf call.source).observe call.incarnation call.sequence).2
      else ledger.entryOf source := by
  simp only [entryOf, observe, OrderedMap.getElem?_insert]
  split <;> rfl

theorem observe_ne_of_not_replay {ledger : SourceSequenceLedger} {call : Observation}
    (hvalid : call.incarnation.valid) (h : (ledger.observe call).1.verdict ≠ .replay) :
    (ledger.observe call).2 ≠ ledger := by
  intro heq
  apply h
  have hentry := ledger.entryOf_observe call call.source
  rw [if_pos rfl, heq] at hentry
  rw [observe_replay_iff ledger hvalid, hentry]
  rcases Entry.observe_cases (ledger.entryOf call.source) call.incarnation call.sequence with
    ⟨-,-,hi,hs⟩ | ⟨-,-,hle,-,hi,hs⟩ | ⟨-,-,-,-,hi,hs⟩
  · exact ⟨hi,hs.ge⟩
  · exact ⟨hi,hle.trans hs.ge⟩
  · exact ⟨hi,hs.ge⟩

end SourceSequenceLedger

end PathObservatory
