import PathObservatory.Engine.Acceptance
import PathObservatory.Domain.Plan

/-! # Traces against the members of a group

The worst of values, the search for a conflict and the completeness rules read as
statements about every accepted record, and a complete trace either covers a
member or contradicts all of them.
-/
namespace PathObservatory

theorem worstFreshness_eq_fresh {accepted : List Working} :
    worstFreshness accepted = .fresh ↔ ∀ w ∈ accepted, w.freshness = .fresh := by
  have hfold : ∀ worst : Freshness,
      accepted.foldl (fun worst item => Freshness.worseOf worst item.freshness) worst = .fresh ↔
        worst = .fresh ∧ ∀ w ∈ accepted, w.freshness = .fresh := by
    induction accepted with
    | nil => simp
    | cons w accepted ih =>
      intro worst
      rw [List.foldl_cons, ih, Freshness.worseOf_eq_fresh, List.forall_mem_cons, and_assoc]
  exact (hfold .fresh).trans (and_iff_right rfl)

/-- Over real and synthetic records the worst surface is real exactly when all
are real, and synthetic otherwise. -/
theorem worstSurface_cases {accepted : List Working}
    (h : ∀ w ∈ accepted, w.evidence.surface = .real ∨ w.evidence.surface = .synthetic) :
    (worstSurface accepted = .real ∧ ∀ w ∈ accepted, w.evidence.surface = .real) ∨
      (worstSurface accepted = .synthetic ∧ ∃ w ∈ accepted, w.evidence.surface = .synthetic) := by
  have hsynthetic : ∀ accepted : List Working,
      (∀ w ∈ accepted, w.evidence.surface = .real ∨ w.evidence.surface = .synthetic) →
      accepted.foldl (fun worst item => worseSurface worst item.evidence.surface) .synthetic =
        .synthetic := by
    intro accepted h
    induction accepted with
    | nil => rfl
    | cons w accepted ih =>
      have hstep : worseSurface .synthetic w.evidence.surface = .synthetic := by
        rcases h w List.mem_cons_self with hw | hw <;> rw [hw] <;> decide
      rw [List.foldl_cons, hstep]
      exact ih (fun v hv => h v (List.mem_cons_of_mem w hv))
  induction accepted with
  | nil => exact Or.inl ⟨rfl,by simp⟩
  | cons w accepted ih =>
    have htail := fun v hv => h v (List.mem_cons_of_mem w hv)
    rcases h w List.mem_cons_self with hw | hw
    · have hstep : worstSurface (w :: accepted) = worstSurface accepted := by
        simp only [worstSurface, List.foldl_cons, hw]
        rfl
      rw [hstep, List.forall_mem_cons]
      rcases ih htail with ⟨hr,hall⟩ | ⟨hs,hex⟩
      · exact Or.inl ⟨hr,hw,hall⟩
      · obtain ⟨v,hv,hsurface⟩ := hex
        exact Or.inr ⟨hs,v,List.mem_cons_of_mem w hv,hsurface⟩
    · refine Or.inr ⟨?_,w,List.mem_cons_self,hw⟩
      simp only [worstSurface, List.foldl_cons, hw]
      exact hsynthetic accepted htail

theorem findConflict_eq_none {accepted : List Working} :
    findConflict accepted = none ↔
      accepted.Pairwise (fun left right => left.conflictsWith right = false) := by
  induction accepted with
  | nil => simp [findConflict]
  | cons left rest ih =>
    rw [findConflict, List.pairwise_cons, ← ih]
    cases hany : rest.any left.conflictsWith with
    | true =>
      obtain ⟨right,hmem,hright⟩ := List.any_eq_true.mp hany
      simp only [if_true, reduceCtorEq, false_iff, not_and]
      intro hall
      exact absurd (hright.symm.trans (hall right hmem)) (by decide)
    | false =>
      simp only [Bool.false_eq_true, if_false]
      refine ⟨fun h => ⟨fun right hmem => ?_,h⟩,And.right⟩
      simpa using List.any_eq_false.mp hany right hmem

theorem tracesCompleteness_eq_complete {members : List ExpectedPath} {accepted : List Working}
    {sourceSequenceGap : Bool} :
    tracesCompleteness members accepted sourceSequenceGap = .complete ↔
      (∀ w ∈ accepted, w.isIncomplete members = false) ∧ sourceSequenceGap = false := by
  unfold tracesCompleteness
  split_ifs with h
  · simp only [false_iff, not_and, Bool.not_eq_false]
    intro hall
    have hnone : accepted.any (Working.isIncomplete members) = false := by simpa using hall
    simpa [hnone] using h
  · simpa using h

theorem mem_zip_iff {α β : Type} {l : List α} {m : List β} {pair : α × β} :
    pair ∈ l.zip m ↔ ∃ i : ℕ, l[i]? = some pair.1 ∧ m[i]? = some pair.2 := by
  rw [List.mem_iff_getElem?]
  simp only [List.getElem?_zip_eq_some]

/-- The hops agree wherever both lists have one. -/
def TracesAgree (member : ExpectedPath) (hops : List ObservedHop) : Prop :=
  ∀ (i : ℕ) (e : ExpectedHop) (o : ObservedHop),
    member.hops[i]? = some e → hops[i]? = some o → hopsAgree e o = true

/-- A trace against a path with hops: nothing was observed, some hop disagrees, or
all hops agree and the trace stops early or covers the path. -/
theorem compareTrace_cases {member : ExpectedPath} (hops : List ObservedHop)
    (hm : member.hops ≠ []) :
    (hops = [] ∧ (compareTrace member hops).traceMatch = .incomparable) ∨
    (hops ≠ [] ∧ ¬ TracesAgree member hops ∧
      (compareTrace member hops).traceMatch = .mismatch) ∨
    (hops ≠ [] ∧ TracesAgree member hops ∧ hops.length < member.hops.length ∧
      (compareTrace member hops).traceMatch = .prefix_) ∨
    (hops ≠ [] ∧ TracesAgree member hops ∧ member.hops.length ≤ hops.length ∧
      (compareTrace member hops).traceMatch = .exact_) := by
  by_cases hnil : hops = []
  · exact Or.inl ⟨hnil,by simp [compareTrace, hnil]⟩
  refine Or.inr ?_
  have hguard : ¬ (member.hops = [] ∨ hops = []) := by simp [hm, hnil]
  cases hfind : (member.hops.zip hops).find? (fun pair => !hopsAgree pair.1 pair.2) with
  | some pair =>
    have hdiffer : hopsAgree pair.1 pair.2 = false := by simpa using List.find?_some hfind
    obtain ⟨i,he,ho⟩ := mem_zip_iff.mp (List.mem_of_find?_eq_some hfind)
    refine Or.inl ⟨hnil,fun hagree => ?_,by simp only [compareTrace, if_neg hguard, hfind]⟩
    exact absurd ((hagree i _ _ he ho).symm.trans hdiffer) (by decide)
  | none =>
    have hagree : TracesAgree member hops := by
      intro i e o he ho
      have hmem : (e,o) ∈ member.hops.zip hops := mem_zip_iff.mpr ⟨i,he,ho⟩
      simpa using List.find?_eq_none.mp hfind (e,o) hmem
    refine Or.inr ?_
    by_cases hlt : hops.length < member.hops.length
    · exact Or.inl ⟨hnil,hagree,hlt,by simp only [compareTrace, if_neg hguard, hfind, if_pos hlt]⟩
    · exact Or.inr ⟨hnil,hagree,not_lt.mp hlt,
        by simp only [compareTrace, if_neg hguard, hfind, if_neg hlt]⟩

namespace Working
variable {members : List ExpectedPath} {w : Working}

theorem mem_matchedMembers {id : PathId} :
    id ∈ w.matchedMembers members ↔
      ∃ member ∈ members, (w.traceIs .exact_ member || w.traceIs .prefix_ member) = true ∧
        member.id = id := by
  have hfold : ∀ matched : List PathId, id ∈ members.foldl (fun matched member =>
      if (w.traceIs .exact_ member || w.traceIs .prefix_ member) && member.id ∉ matched then
        matched ++ [member.id]
      else matched) matched ↔ id ∈ matched ∨ ∃ member ∈ members,
        (w.traceIs .exact_ member || w.traceIs .prefix_ member) = true ∧ member.id = id := by
    induction members with
    | nil => simp
    | cons first rest ih =>
      intro matched
      rw [List.foldl_cons, ih]
      simp only [List.mem_cons, or_and_right, exists_or, exists_eq_left]
      split_ifs with h
      · obtain ⟨hmatch,-⟩ := Bool.and_eq_true_iff.mp h
        simp only [List.mem_append, List.mem_singleton, hmatch, true_and, or_assoc, eq_comm]
      · constructor
        · exact Or.imp_right Or.inr
        · rintro (hmem | ⟨hmatch,rfl⟩ | hrest)
          · exact Or.inl hmem
          · refine Or.inl ?_
            by_contra hnot
            exact h (by simp [hmatch, hnot])
          · exact Or.inr hrest
  exact (hfold []).trans (by simp)

theorem matchedMembers_ne_nil :
    w.matchedMembers members ≠ [] ↔ w.matchesAMember members = true := by
  rw [matchesAMember, List.any_eq_true]
  constructor
  · intro hne
    obtain ⟨id,hid⟩ := List.exists_mem_of_ne_nil _ hne
    obtain ⟨member,hmem,hmatch,-⟩ := mem_matchedMembers.mp hid
    exact ⟨member,hmem,hmatch⟩
  · rintro ⟨member,hmem,hmatch⟩
    exact List.ne_nil_of_mem (mem_matchedMembers.mpr ⟨member,hmem,hmatch,rfl⟩)

theorem matchesAMember_iff :
    w.matchesAMember members = true ↔
      w.traceIsExact members = true ∨ w.traceIsPrefix members = true := by
  simp only [matchesAMember, traceIsExact, traceIsPrefix, List.any_eq_true, Bool.or_eq_true,
    and_or_left, exists_or]

/-- A trace that matches no member disagrees with each of them at some hop. -/
theorem not_tracesAgree {member : ExpectedPath} (hmember : member ∈ members)
    (hm : member.hops ≠ []) (hw : w.hops ≠ []) (hnone : w.matchesAMember members = false) :
    ¬ TracesAgree member w.hops := by
  have hnot := List.any_eq_false.mp hnone member hmember
  rcases compareTrace_cases w.hops hm with ⟨hnil,-⟩ | ⟨-,h,-⟩ | ⟨-,-,-,ht⟩ | ⟨-,-,-,ht⟩
  · exact absurd hnil hw
  · exact h
  · exact absurd (by simp [traceIs, ht]) hnot
  · exact absurd (by simp [traceIs, ht]) hnot

/-- A record that is not incomplete and agrees with a member covers one. -/
theorem traceIsExact_of_matches (hc : w.isIncomplete members = false)
    (hm : w.matchesAMember members = true) : w.traceIsExact members = true := by
  simp only [isIncomplete, Bool.or_eq_false_iff, Bool.and_eq_false_imp] at hc
  rcases matchesAMember_iff.mp hm with hexact | hfront
  · exact hexact
  · simpa using hc.1.2 hfront

theorem shorterThanAll_of_nil (hw : w.hops = []) (hne : members ≠ [])
    (hm : ∀ member ∈ members, member.hops ≠ []) : w.shorterThanAll members = true := by
  cases members with
  | nil => exact absurd rfl hne
  | cons first rest =>
    have hfold : ∀ (rest : List ExpectedPath) (start : ℕ), 0 < start →
        (∀ member ∈ rest, member.hops ≠ []) →
        0 < rest.foldl (fun shortest member => min shortest member.hops.length) start := by
      intro rest
      induction rest with
      | nil => exact fun start h _ => h
      | cons second rest ih =>
        intro start hstart hall
        have hsecond := List.length_pos_iff.mpr (hall second List.mem_cons_self)
        exact ih _ (lt_min hstart hsecond) (fun m hm => hall m (List.mem_cons_of_mem _ hm))
    simp only [shorterThanAll, hw, List.length_nil, decide_eq_true_eq]
    exact hfold rest _ (List.length_pos_iff.mpr (hm first List.mem_cons_self))
      (fun m hmem => hm m (List.mem_cons_of_mem _ hmem))

/-- A complete trace covers a member or contradicts every one of them. -/
theorem exact_or_mismatch (hne : members ≠ []) (hm : ∀ member ∈ members, member.hops ≠ [])
    (hc : w.isIncomplete members = false) :
    w.traceIsExact members = true ∨
      (w.traceIsExact members = false ∧
        ∀ member ∈ members, w.traceIs .mismatch member = true) := by
  cases hexact : w.traceIsExact members with
  | true => exact Or.inl rfl
  | false =>
    refine Or.inr ⟨rfl,?_⟩
    have hnomatch : w.matchesAMember members = false := by
      by_contra hmatch
      have h := traceIsExact_of_matches hc (Bool.not_eq_false _ ▸ hmatch)
      exact absurd (h.symm.trans hexact) (by decide)
    have hshort : w.shorterThanAll members = false := by
      simp only [isIncomplete, Bool.or_eq_false_iff, Bool.and_eq_false_imp] at hc
      exact hc.2 (by simp [hnomatch])
    intro member hmem
    have hmember := List.any_eq_false.mp hnomatch member hmem
    rcases compareTrace_cases w.hops (hm member hmem) with ⟨hnil,-⟩ | ⟨-,-,h⟩ | ⟨-,-,-,h⟩ |
      ⟨-,-,-,h⟩
    · exact absurd ((shorterThanAll_of_nil hnil hne hm).symm.trans hshort) (by decide)
    · simp [traceIs, h]
    · exact absurd (by simp [traceIs, h]) hmember
    · exact absurd (by simp [traceIs, h]) hmember

end Working

end PathObservatory
