import Mathlib.Data.List.Induction
import PathObservatory.Domain.SequenceLedger

/-! # What the sequence ledger fences

A run of the ledger is fenced when no sequence is accepted twice in one
incarnation of a source, and nothing at or below an accepted sequence is accepted
later. The entry of a source remembers only the incarnation it saw last, so the
fence holds on exactly the runs whose returns to an incarnation climb above
everything that incarnation sent before.
-/
namespace PathObservatory.SourceSequenceLedger

/-- The two observations belong to one incarnation of one source. -/
def SameStream (a b : Observation) : Prop := a.source = b.source ∧ a.incarnation = b.incarnation

/-- Each observation is let through at most once, and once a sequence was let
through nothing at or below it is let through in the same incarnation. -/
structure ReplayFenced (history : List (Observation × Verdict)) : Prop where
  once : ∀ call, history.countP (fun entry => entry.1 = call ∧ entry.2 ≠ .replay) ≤ 1
  ascending : history.Pairwise (fun earlier later => SameStream earlier.1 later.1 →
    earlier.2 ≠ .replay → later.1.sequence ≤ earlier.1.sequence → later.2 = .replay)

/-- The call does not continue the incarnation its source reported last. -/
def Restarts (before : List Observation) (call : Observation) : Prop :=
  ¬ call.incarnation.valid ∨
    ∀ last ∈ (before.filter (·.source = call.source)).getLast?,
      last.incarnation ≠ call.incarnation

/-- Each restart climbs above every earlier call of its own incarnation. -/
def RestartsAbove (calls : List Observation) : Prop :=
  ∀ before call, before ++ [call] <+: calls → Restarts before call →
    ∀ earlier ∈ before, SameStream earlier call → earlier.sequence < call.sequence

theorem restartsAbove_concat {calls : List Observation} {call : Observation} :
    RestartsAbove (calls ++ [call]) ↔
      RestartsAbove calls ∧ (Restarts calls call →
        ∀ earlier ∈ calls, SameStream earlier call → earlier.sequence < call.sequence) := by
  constructor
  · intro h
    refine ⟨fun before later hfront => ?_,h calls call (List.prefix_refl _)⟩
    exact h before later (hfront.trans (List.prefix_append _ _))
  · rintro ⟨hcalls,hcall⟩ before later hfront
    rcases List.prefix_concat_iff.mp hfront with heq | hfront
    · obtain ⟨rfl,hlater⟩ := List.append_inj' heq rfl
      obtain rfl : later = call := by simpa using hlater
      exact hcall
    · exact hcalls before later hfront

/-- Extending a run keeps the fence exactly when a call that is let through lies
above everything let through before it in its stream. -/
theorem replayFenced_concat {history : List (Observation × Verdict)} {call : Observation}
    {verdict : Verdict} :
    ReplayFenced (history ++ [(call,verdict)]) ↔
      ReplayFenced history ∧ (verdict ≠ .replay → ∀ entry ∈ history,
        SameStream entry.1 call → entry.2 ≠ .replay → entry.1.sequence < call.sequence) := by
  constructor
  · intro h
    have hpairs := List.pairwise_append.mp h.ascending
    refine ⟨⟨fun other => ?_,hpairs.1⟩,?_⟩
    · have hcount := h.once other
      rw [List.countP_append] at hcount
      omega
    · intro hverdict entry hentry hstream haccepted
      by_contra hle
      exact hverdict (hpairs.2.2 entry hentry (call,verdict) (by simp) hstream haccepted
        (not_lt.mp hle))
  · rintro ⟨h,hcall⟩
    refine ⟨fun other => ?_,?_⟩
    · rw [List.countP_append, List.countP_singleton]
      split
      · rename_i hnew
        obtain ⟨rfl,hverdict⟩ : call = other ∧ verdict ≠ .replay := by simpa using hnew
        have hnone : history.countP (fun entry => entry.1 = call ∧ entry.2 ≠ .replay) = 0 := by
          rw [List.countP_eq_zero]
          intro entry hentry hsame
          obtain ⟨rfl,haccepted⟩ : entry.1 = call ∧ entry.2 ≠ .replay := by simpa using hsame
          exact lt_irrefl _ (hcall hverdict entry hentry ⟨rfl,rfl⟩ haccepted)
        omega
      · exact h.once other
    · rw [List.pairwise_append]
      refine ⟨h.ascending,List.pairwise_singleton _ _,?_⟩
      intro entry hentry later hlater hstream haccepted hle
      obtain rfl : later = (call,verdict) := by simpa using hlater
      by_contra hverdict
      exact not_lt.mpr hle (hcall hverdict entry hentry hstream haccepted)

/-- The entry carries the incarnation its source reported last. -/
theorem entryOf_incarnation (calls : List Observation) (source : SourceId) :
    ((observeAll {} calls).entryOf source).incarnation =
      ((calls.filter (·.source = source)).getLast?.map (·.incarnation)).getD {} := by
  induction calls using List.reverseRecOn with
  | nil => rfl
  | append_singleton calls call ih =>
    rw [observeAll_concat, entryOf_observe, List.filter_append]
    by_cases hsource : call.source = source
    · subst source
      rw [if_pos rfl]
      rcases Entry.observe_cases ((observeAll {} calls).entryOf call.source) call.incarnation
        call.sequence with ⟨-,-,h,-⟩ | ⟨-,-,-,-,h,-⟩ | ⟨-,-,-,-,h,-⟩ <;> simpa using h
    · rw [if_neg hsource, ih]
      simp [hsource]

/-- A call restarts exactly when the entry it meets is of another incarnation or
of none. -/
theorem restarts_iff_entryOf {calls : List Observation} {call : Observation} :
    Restarts calls call ↔
      ¬ ((observeAll {} calls).entryOf call.source).incarnation.valid ∨
        ((observeAll {} calls).entryOf call.source).incarnation ≠ call.incarnation := by
  rw [entryOf_incarnation, Restarts]
  cases hlast : (calls.filter (·.source = call.source)).getLast? with
  | none => simp [StrongId.valid]
  | some last =>
    simp only [Option.mem_def, Option.some.injEq, forall_eq', Option.map_some, Option.getD_some]
    by_cases heq : last.incarnation = call.incarnation
    · rw [heq]
    · simp [heq]

/-- The high water mark of a live entry was let through in its incarnation. -/
theorem exists_highest_mem (calls : List Observation) (source : SourceId)
    (hvalid : ((observeAll {} calls).entryOf source).incarnation.valid) :
    ∃ entry ∈ verdicts {} calls, entry.2 ≠ .replay ∧ entry.1.source = source ∧
      entry.1.incarnation = ((observeAll {} calls).entryOf source).incarnation ∧
      entry.1.sequence = ((observeAll {} calls).entryOf source).highest := by
  induction calls using List.reverseRecOn with
  | nil =>
    rw [entryOf_incarnation] at hvalid
    simp [StrongId.valid] at hvalid
  | append_singleton calls call ih =>
    rw [observeAll_concat, entryOf_observe] at hvalid ⊢
    rw [verdicts_concat]
    by_cases hsource : call.source = source
    · subst source
      rw [if_pos rfl] at hvalid ⊢
      rcases Entry.observe_cases ((observeAll {} calls).entryOf call.source) call.incarnation
        call.sequence with ⟨-,hv,hi,hh⟩ | ⟨hlive,hsame,-,-,hi,hh⟩ | ⟨-,-,-,hv,hi,hh⟩
      · exact ⟨_,List.mem_append_right _ (List.mem_singleton_self _),hv,rfl,hi.symm,hh.symm⟩
      · obtain ⟨entry,hmem,hentry⟩ := ih hlive
        rw [hi, hh, ← hsame]
        exact ⟨entry,List.mem_append_left _ hmem,hentry⟩
      · exact ⟨_,List.mem_append_right _ (List.mem_singleton_self _),hv,rfl,hi.symm,hh.symm⟩
    · rw [if_neg hsource] at hvalid ⊢
      obtain ⟨entry,hmem,hentry⟩ := ih hvalid
      exact ⟨entry,List.mem_append_left _ hmem,hentry⟩

/-- Every call, refused or not, lies at or below one that was let through in the
same stream. -/
theorem exists_accepted_above (calls : List Observation) {call : Observation}
    (hcall : call ∈ calls) :
    ∃ entry ∈ verdicts {} calls, SameStream call entry.1 ∧ entry.2 ≠ .replay ∧
      call.sequence ≤ entry.1.sequence := by
  induction calls using List.reverseRecOn with
  | nil => simp at hcall
  | append_singleton calls last ih =>
    rw [verdicts_concat]
    rcases List.mem_append.mp hcall with hcall | hcall
    · obtain ⟨entry,hmem,hentry⟩ := ih hcall
      exact ⟨entry,List.mem_append_left _ hmem,hentry⟩
    · obtain rfl : call = last := by simpa using hcall
      rcases Entry.observe_cases ((observeAll {} calls).entryOf call.source) call.incarnation
        call.sequence with ⟨-,hv,-⟩ | ⟨hlive,hsame,hle,-⟩ | ⟨-,-,-,hv,-⟩
      · exact ⟨_,List.mem_append_right _ (List.mem_singleton_self _),⟨rfl,rfl⟩,hv,le_rfl⟩
      · obtain ⟨entry,hmem,hv,hs,hi,hh⟩ := exists_highest_mem calls call.source hlive
        refine ⟨entry,List.mem_append_left _ hmem,⟨hs.symm,?_⟩,hv,hh ▸ hle⟩
        rw [hi, hsame]
      · exact ⟨_,List.mem_append_right _ (List.mem_singleton_self _),⟨rfl,rfl⟩,hv,le_rfl⟩

/-- While restarts climb, a live entry bounds all its incarnation ever sent. -/
theorem le_highest {calls : List Observation} (h : RestartsAbove calls) {call : Observation}
    (hcall : call ∈ calls)
    (hlive : ((observeAll {} calls).entryOf call.source).incarnation = call.incarnation) :
    call.sequence ≤ ((observeAll {} calls).entryOf call.source).highest := by
  induction calls using List.reverseRecOn with
  | nil => simp at hcall
  | append_singleton calls last ih =>
    obtain ⟨hcalls,hlast⟩ := restartsAbove_concat.mp h
    rw [observeAll_concat, entryOf_observe] at hlive ⊢
    by_cases hsource : last.source = call.source
    · rw [if_pos hsource, hsource] at hlive ⊢
      rcases Entry.observe_cases ((observeAll {} calls).entryOf call.source) last.incarnation
        last.sequence with ⟨hr,-,hi,hh⟩ | ⟨-,hsame,hle,-,hi,hh⟩ | ⟨-,hsame,hlt,-,hi,hh⟩
      · rw [hh]
        rw [hi] at hlive
        rcases List.mem_append.mp hcall with hcall | hcall
        · exact (hlast (restarts_iff_entryOf.mpr (hsource ▸ hr)) call hcall
            ⟨hsource.symm,hlive.symm⟩).le
        · rw [List.mem_singleton.mp hcall]
      · rw [hh]
        rcases List.mem_append.mp hcall with hcall | hcall
        · exact ih hcalls hcall (hsame.trans (hi.symm.trans hlive))
        · rw [List.mem_singleton.mp hcall] at hle ⊢
          exact hle
      · rw [hh]
        rcases List.mem_append.mp hcall with hcall | hcall
        · exact (ih hcalls hcall (hsame.trans (hi.symm.trans hlive))).trans hlt.le
        · rw [List.mem_singleton.mp hcall]
    · rw [if_neg hsource] at hlive ⊢
      rcases List.mem_append.mp hcall with hcall | hcall
      · exact ih hcalls hcall hlive
      · exact absurd (by rw [List.mem_singleton.mp hcall]) hsource

/-- A run of the ledger is fenced exactly when every return to an incarnation
climbs above all that incarnation sent before. -/
theorem replayFenced_iff_restartsAbove (calls : List Observation) :
    ReplayFenced (verdicts {} calls) ↔ RestartsAbove calls := by
  induction calls using List.reverseRecOn with
  | nil =>
    refine ⟨fun _ before call hfront => ?_,fun _ => ⟨fun _ => by simp [verdicts],by simp [verdicts]⟩⟩
    simp at hfront
  | append_singleton calls call ih =>
    rw [verdicts_concat, replayFenced_concat, restartsAbove_concat, ih]
    refine and_congr_right fun hcalls => ⟨?_,?_⟩
    · intro h hrestart earlier hearlier hstream
      obtain ⟨entry,hmem,hsame,haccepted,hle⟩ := exists_accepted_above calls hearlier
      refine hle.trans_lt (h ?_ entry hmem ?_ haccepted)
      · rcases Entry.observe_cases ((observeAll {} calls).entryOf call.source) call.incarnation
          call.sequence with ⟨-,hv,-⟩ | ⟨hlive,hsame,-⟩ | ⟨-,-,-,hv,-⟩
        · exact hv
        · exact absurd hsame ((restarts_iff_entryOf.mp hrestart).resolve_left (not_not.mpr hlive))
        · exact hv
      · exact ⟨hsame.1.symm.trans hstream.1,hsame.2.symm.trans hstream.2⟩
    · intro h hverdict entry hmem hstream haccepted
      have hcall : entry.1 ∈ calls := by
        rw [← verdicts_map_fst {} calls]
        exact List.mem_map_of_mem hmem
      rcases Entry.observe_cases ((observeAll {} calls).entryOf call.source) call.incarnation
        call.sequence with ⟨hr,-⟩ | ⟨-,-,-,hv,-⟩ | ⟨-,hsame,hlt,-⟩
      · exact h (restarts_iff_entryOf.mpr hr) entry.1 hcall hstream
      · exact absurd hv hverdict
      · refine lt_of_le_of_lt ?_ hlt
        rw [← hstream.1] at hsame ⊢
        exact le_highest hcalls hcall (hsame.trans hstream.2.symm)

/-- A source that returns to its first incarnation has the same sequence let
through a second time. -/
theorem returning_incarnation_not_fenced :
    ¬ ReplayFenced (verdicts {} [⟨⟨1⟩,⟨1⟩,⟨5⟩⟩,⟨⟨1⟩,⟨2⟩,⟨1⟩⟩,⟨⟨1⟩,⟨1⟩,⟨5⟩⟩]) := by
  intro h
  exact absurd (h.once ⟨⟨1⟩,⟨1⟩,⟨5⟩⟩) (by decide)

end PathObservatory.SourceSequenceLedger
