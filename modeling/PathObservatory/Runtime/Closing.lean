import PathObservatory.Engine.ClassSet
import PathObservatory.Runtime.BucketInvariant
import PathObservatory.Runtime.FindingInvariant

/-! # What a compliant comparison does to the findings

A comparison resolves the findings of its subject only where it was not recorded
as a finding itself, and it is recorded whenever its class set is not empty. A
compliant result may carry classes: of excluded records, of ambiguity, of claims
the plan does not know.
-/
namespace PathObservatory

namespace FindingRegistry
variable {r s : FindingRegistry} {result : ComparisonResult}

/-- The result is about the group or the path of the finding, at its generation or
a later one. -/
def Concerns (result : ComparisonResult) (finding : Finding) : Prop :=
  ((result.group.present = true ∧ finding.group.present = true ∧
      result.group.value = finding.group.value) ∨
    (result.path.present = true ∧ finding.path.present = true ∧
      result.path.value = finding.path.value)) ∧
  finding.generation ≤ result.generation

theorem resolvedBy_iff {finding : Finding} :
    resolvedBy result finding = true ↔ finding.isOpen = true ∧ Concerns result finding := by
  simp [resolvedBy, Concerns, and_assoc]

/-- The step from one registry to the other closed what the result concerns and
opened nothing. -/
structure ClosedBy (r : FindingRegistry) (result : ComparisonResult) (s : FindingRegistry) :
    Prop where
  closed : ∀ (id : FindingId) (finding : Finding), s.findings[id]? = some finding →
    Concerns result finding → finding.isOpen = false
  opensNone : s.SubsetOf r

/-- The identity of the finding is on file already and yet the finding on file is
not the one of this result: the identity is all zeros, or the finding on file is
about something else and nothing of this subject is open. -/
def Coincides (r : FindingRegistry) (result : ComparisonResult) : Prop :=
  ∃ existing, r.findings[(findingCandidate r.limits result).id]? = some existing ∧
    (existing.id.valid = false ∨
      ¬ Concerns result existing ∧
        ∀ (id : FindingId) (finding : Finding), r.findings[id]? = some finding →
          Concerns result finding → finding.isOpen = false)

theorem resolveFromMatch_closedBy (hmatch : result.outcome = .match_) (hsub : s.SubsetOf r)
    (now : TimePoint) : r.ClosedBy result (s.resolveFromMatch result now).2 := by
  have hresolve : (s.resolveFromMatch result now).2 = { s with
      findings := s.findings.map (fun _ finding =>
        if resolvedBy result finding then { finding with status := .resolved, lastSeen := now }
        else finding) } := congrArg Prod.snd (if_neg (not_not.mpr hmatch))
  rw [hresolve]
  constructor
  · intro id finding hfinding hconcerns
    rw [Std.ExtTreeMap.getElem?_map] at hfinding
    obtain ⟨held,-,rfl⟩ := Option.map_eq_some_iff.mp hfinding
    by_cases hresolved : resolvedBy result held = true
    · rw [if_pos hresolved]
      rfl
    · rw [if_neg hresolved] at hconcerns ⊢
      by_contra hopen
      exact hresolved (resolvedBy_iff.mpr ⟨Bool.not_eq_false _ ▸ hopen,hconcerns⟩)
  · intro id hid
    exact hsub id (Std.ExtTreeMap.mem_map.mp hid)

theorem isOpen_seenAgain (finding : Finding) (comparison : ComparisonId) (now : TimePoint) :
    (seenAgain finding comparison now).isOpen = true := by
  unfold seenAgain Finding.isOpen
  split_ifs with h
  · rfl
  · exact decide_eq_true h

/-- What becomes of the registry when a result is recorded and, where that made no
finding, resolves. -/
def settled (result : ComparisonResult) (now : TimePoint) (recorded : FindingId × FindingRegistry) :
    FindingRegistry :=
  if recorded.1.valid then recorded.2 else (recorded.2.resolveFromMatch result now).2

theorem mem_settled {now : TimePoint} {recorded : FindingId × FindingRegistry} {id : FindingId} :
    id ∈ (settled result now recorded).findings ↔ id ∈ recorded.2.findings := by
  unfold settled
  split_ifs
  · exact Iff.rfl
  · unfold resolveFromMatch
    split_ifs
    · exact Iff.rfl
    · exact Std.ExtTreeMap.mem_map

/-- A finding seen again is open, so that only a coincidence of identities leaves
nothing open. -/
theorem closedBy_seenAgain_iff (hmatch : result.outcome = .match_) {now later : TimePoint}
    {existing : Finding}
    (hexisting : r.findings[(findingCandidate r.limits result).id]? = some existing) :
    r.ClosedBy result (settled result later (existing.id,{ r with
      findings := r.findings.insert (findingCandidate r.limits result).id
        (seenAgain existing result.id now) })) ↔ r.Coincides result := by
  have hsub : SubsetOf { r with
      findings := r.findings.insert (findingCandidate r.limits result).id
        (seenAgain existing result.id now) } r := by
    intro id hid
    rcases Std.ExtTreeMap.mem_insert.mp hid with heq | hid
    · rw [← compare_eq_iff_eq.mp heq]
      exact OrderedMap.mem_iff_getElem?.mpr ⟨existing,hexisting⟩
    · exact hid
  by_cases hvalid : existing.id.valid = true
  · rw [settled, if_pos hvalid]
    constructor
    · intro hclosed
      have hnot : ¬ Concerns result existing := by
        intro hconcerns
        have hseen := hclosed.closed (findingCandidate r.limits result).id
          (seenAgain existing result.id now)
          ((OrderedMap.getElem?_insert _ _ _ _).trans (if_pos rfl)) hconcerns
        rw [isOpen_seenAgain] at hseen
        cases hseen
      refine ⟨existing,hexisting,Or.inr ⟨hnot,fun id finding hfinding hconcerns => ?_⟩⟩
      refine hclosed.closed id finding ?_ hconcerns
      rw [OrderedMap.getElem?_insert, if_neg, hfinding]
      rintro rfl
      obtain rfl := Option.some.inj (hexisting.symm.trans hfinding)
      exact hnot hconcerns
    · rintro ⟨other,hother,h⟩
      obtain rfl := Option.some.inj (hexisting.symm.trans hother)
      rcases h with hinvalid | ⟨hnot,hall⟩
      · rw [hvalid] at hinvalid
        cases hinvalid
      · refine ⟨fun id finding hfinding hconcerns => ?_,hsub⟩
        rw [OrderedMap.getElem?_insert] at hfinding
        split_ifs at hfinding with heq
        · obtain rfl := Option.some.inj hfinding
          exact absurd hconcerns hnot
        · exact hall id finding hfinding hconcerns
  · rw [settled, if_neg hvalid]
    exact ⟨fun _ => ⟨existing,hexisting,Or.inl (Bool.eq_false_iff.mpr hvalid)⟩,
      fun _ => resolveFromMatch_closedBy hmatch hsub later⟩

/-- A compliant result that is recorded closes its subject exactly when it has no
class, a coincidence of identities apart. -/
theorem closedBy_settled_iff (hmatch : result.outcome = .match_) {now later : TimePoint}
    {recorded : FindingId × FindingRegistry} (h : r.record result now = .ok recorded) :
    r.ClosedBy result (settled result later recorded) ↔
      result.primary = .none ∨ r.Coincides result := by
  unfold record at h
  split_ifs at h with hprimary
  · obtain rfl := Except.ok.inj h
    exact ⟨fun _ => Or.inl hprimary,fun _ => resolveFromMatch_closedBy hmatch (.refl r) later⟩
  · simp only at h
    rw [or_iff_right hprimary]
    split at h
    · rename_i existing hexisting
      obtain rfl := Except.ok.inj h
      exact closedBy_seenAgain_iff hmatch hexisting
    · rename_i hnew
      obtain ⟨roomy,-,h⟩ := bind_eq_ok.mp h
      obtain rfl := Except.ok.inj h
      have hnotOnFile : (findingCandidate r.limits result).id ∉ r.findings := by
        intro hmem
        obtain ⟨held,hheld⟩ := OrderedMap.mem_iff_getElem?.mp hmem
        rw [hnew] at hheld
        cases hheld
      constructor
      · intro hclosed
        refine absurd (hclosed.opensNone _ (mem_settled.mpr ?_)) hnotOnFile
        exact Std.ExtTreeMap.mem_insert_self
      · rintro ⟨existing,hexisting,-⟩
        rw [hnew] at hexisting
        cases hexisting

end FindingRegistry

namespace ObservatoryRuntime
open ComparisonEngine FindingRegistry
variable {r : ObservatoryRuntime}

theorem folded_findings (r : ObservatoryRuntime) (result : ComparisonResult)
    (recorded : FindingId × FindingRegistry) :
    (r.folded result recorded).findings = settled result r.tick.now recorded := by
  unfold folded settleFindings settled
  split_ifs <;> rfl

theorem recordComparison_findings {result answer : ComparisonResult}
    (h : (r.recordComparison result).1 = .ok answer) :
    ∃ recorded later, r.findings.record result r.now = .ok recorded ∧
      (r.recordComparison result).2.findings = settled result later recorded := by
  rcases r.recordComparison_cases result with ⟨e,-,hanswer⟩ | ⟨recorded,hrecord,hanswer⟩
  · rw [hanswer] at h
    cases h
  · obtain ⟨store,hframe⟩ := (r.folded result recorded).persistComparison_frame result
    refine ⟨recorded,r.tick.now,hrecord,?_⟩
    rw [hanswer, hframe]
    exact r.folded_findings result recorded

/-- What was compared is what the findings are settled with. -/
theorem compareBucket_findings {key : SubjectKey} {result : ComparisonResult}
    (h : (r.compareBucket key true).1 = .ok result) :
    ∃ now recorded later, r.findings.record result now = .ok recorded ∧
      (r.compareBucket key true).2.findings = settled result later recorded := by
  have hcompare := compareBucket_eq_ok h
  rw [compareBucket_of_compare hcompare, if_pos rfl] at h ⊢
  obtain ⟨recorded,later,hrecord,hfindings⟩ := recordComparison_findings (r := r.tick) h
  exact ⟨r.tick.now,recorded,later,hrecord,hfindings⟩

/-- Compliance closes the findings of its subject and opens none exactly when there
is nothing to report beside it, a coincidence of identities apart. -/
theorem match_closes_findings_iff (hr : Reachable r) {key : SubjectKey}
    {result : ComparisonResult} (hresult : (r.compareBucket key true).1 = .ok result)
    (hmatch : result.outcome = .match_) :
    r.findings.ClosedBy result (r.compareBucket key true).2.findings ↔
      (∃ routes group, r.routes = some routes ∧
        resolveGroup routes (r.requestFor key) = some group ∧
        r.engine.Untroubled (r.requestFor key) r.makeContext routes group) ∨
      r.findings.Coincides result := by
  have hcompare := compareBucket_eq_ok hresult
  obtain ⟨routes,group,representative,hreach⟩ := reaches_of_outcome hcompare (Or.inl hmatch)
  obtain ⟨now,recorded,later,hrecord,hfindings⟩ := compareBucket_findings hresult
  have hprimary := primary_eq_none_iff hcompare hmatch hreach (hr.soundBuckets.distinct key)
  rw [hfindings, closedBy_settled_iff hmatch hrecord, hprimary]
  refine or_congr_left ⟨fun h => ⟨routes,group,hreach.routes_eq,hreach.group_eq,h⟩,?_⟩
  rintro ⟨routes',group',hroutes,hgroup,h⟩
  obtain rfl := Option.some.inj (hreach.routes_eq.symm.trans hroutes)
  obtain rfl := Option.some.inj (hreach.group_eq.symm.trans hgroup)
  exact h

theorem planned_match :
    (planned.compareBucket ⟨⟨1⟩,⟨⟨1⟩⟩⟩ true).1.toOption.map (·.outcome) = some .match_ := by
  decide +kernel

/-- The trace that follows the plan is compliant, and the condition decides what
it closes. -/
theorem planned_closes_iff : ∃ result,
    (planned.compareBucket ⟨⟨1⟩,⟨⟨1⟩⟩⟩ true).1 = .ok result ∧ result.outcome = .match_ ∧
    (planned.findings.ClosedBy result (planned.compareBucket ⟨⟨1⟩,⟨⟨1⟩⟩⟩ true).2.findings ↔
      (∃ routes group, planned.routes = some routes ∧
        resolveGroup routes (planned.requestFor ⟨⟨1⟩,⟨⟨1⟩⟩⟩) = some group ∧
        planned.engine.Untroubled (planned.requestFor ⟨⟨1⟩,⟨⟨1⟩⟩⟩) planned.makeContext routes
          group) ∨
      planned.findings.Coincides result) := by
  obtain ⟨result,hanswer,hmatch⟩ := Option.map_eq_some_iff.mp planned_match
  have hresult := mem_toList_iff.mp (hanswer ▸ Option.mem_toList.mpr rfl)
  exact ⟨result,hresult,hmatch,match_closes_findings_iff planned_reachable hresult hmatch⟩

/-- Beside the trace that follows the plan there is one of a later revision. -/
def troubled : ObservatoryRuntime :=
  planned.perform (.ingestEvidence { sampleContent 2 1 (sampleTrace 7 [1,2,3]) with
    revision := ⟨2⟩ })

/-- The comparison is compliant, and the excluded record opens a finding. -/
theorem match_opens_finding : Reachable troubled ∧ ∃ result,
    (troubled.compareBucket ⟨⟨1⟩,⟨⟨1⟩⟩⟩ true).1 = .ok result ∧ result.outcome = .match_ ∧
    ¬ troubled.findings.ClosedBy result
      (troubled.compareBucket ⟨⟨1⟩,⟨⟨1⟩⟩⟩ true).2.findings := by
  have hevaluated :
      (troubled.compareBucket ⟨⟨1⟩,⟨⟨1⟩⟩⟩ true).1.toOption.map (·.outcome) = some .match_ ∧
      troubled.findings.findings.keys.length = 0 ∧
      (troubled.compareBucket ⟨⟨1⟩,⟨⟨1⟩⟩⟩ true).2.findings.findings.keys.length = 1 := by
    decide +kernel
  obtain ⟨houtcome,hbefore,hafter⟩ := hevaluated
  obtain ⟨result,hanswer,hmatch⟩ := Option.map_eq_some_iff.mp houtcome
  have hresult := mem_toList_iff.mp (hanswer ▸ Option.mem_toList.mpr rfl)
  refine ⟨planned_reachable.call _,result,hresult,hmatch,fun h => ?_⟩
  obtain ⟨id,hid⟩ := List.length_eq_one_iff.mp hafter
  have hopened := h.opensNone id (Std.ExtTreeMap.mem_keys.mp (hid ▸ List.mem_singleton_self id))
  rw [← Std.ExtTreeMap.mem_keys, List.length_eq_zero_iff.mp hbefore] at hopened
  cases hopened

end ObservatoryRuntime

end PathObservatory
