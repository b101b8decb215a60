import PathObservatory.Library.Versions
import PathObservatory.Runtime.Closing
import PathObservatory.Runtime.Reloading

/-! # What a comparison makes of the findings lasts

After a comparison the store is given the findings that carry its identity, and a restore
keeps the newest version of each. A comparison lasts when these are all the findings it
changed and each is newer than the version on file: the records then rebuild the registry.
-/
namespace PathObservatory

namespace FindingRegistry
variable {limits : Limits} {d r s : FindingRegistry} {result : ComparisonResult}

/-- The findings of one registry are those of the other, or older versions of them. -/
def Behind (d r : FindingRegistry) : Prop :=
  Versions.Behind Finding.finderKeepsNewest d.findings r.findings

/-- A registry takes every finding of one that it is behind. -/
theorem restore_of_behind (hd : Sound limits d) (hr : Sound limits r) (hbehind : d.Behind r)
    {finding : Finding} (hfound : r.findings[finding.id]? = some finding) :
    d.restore finding = .ok { d with
      findings := Versions.take Finding.finderKeepsNewest d.findings (finding.id,finding) } := by
  have hsealed : decide (finding.computeFindingId = finding.id) = true :=
    decide_eq_true (hr.filed _ _ hfound).sealed
  unfold restore Versions.take
  rw [hsealed]
  cases hheld : d.findings[finding.id]? with
  | some held =>
    by_cases hnewer : held.finderKeepsNewest finding = true
    · simp only [hnewer, if_true]
      rfl
    · simp only [hnewer]
      rfl
  | none =>
    have hnew : finding.id ∉ d.findings := by
      intro hmem
      obtain ⟨held,h⟩ := OrderedMap.mem_iff_getElem?.mp hmem
      rw [hheld] at h
      cases h
    have hroom : d.findings.size < limits.maxFindings :=
      (OrderedMap.size_lt_of_subset hbehind.subset hnew
        (OrderedMap.mem_iff_getElem?.mpr ⟨finding,hfound⟩)).trans_le hr.size_le
    rw [← hd.limits_eq] at hroom
    simp only [require, decide_eq_true hroom, if_true]
    rfl

theorem sound_of_restore_behind (hd : Sound limits d) (hr : Sound limits r)
    {finding : Finding} (hfound : r.findings[finding.id]? = some finding)
    (hrestore : d.restore finding = .ok s) : Sound limits s :=
  restore_sound hd (hr.filed _ _ hfound) hrestore

theorem restoreAll_of_behind (hd : Sound limits d) (hr : Sound limits r) (hbehind : d.Behind r)
    {changed : List Finding} (hon : ∀ finding ∈ changed, r.findings[finding.id]? = some finding) :
    changed.foldlM restore d = .ok { d with
      findings := (changed.map (fun finding => (finding.id,finding))).foldl
        (Versions.take Finding.finderKeepsNewest) d.findings } := by
  induction changed generalizing d with
  | nil => rfl
  | cons finding changed ih =>
    obtain ⟨hfound,hon⟩ := List.forall_mem_cons.mp hon
    have hone := restore_of_behind hd hr hbehind hfound
    exact bind_eq_ok.mpr ⟨_,hone,ih (sound_of_restore_behind hd hr hfound hone)
      (Versions.Behind.take hbehind hfound) hon⟩

/-- Restoring the findings that changed makes the one registry the other. -/
theorem restoreAll_changed (hd : Sound limits d) (hr : Sound limits r) (hbehind : d.Behind r)
    (hevicted : d.evicted = r.evicted) {changed : List Finding}
    (hon : ∀ finding ∈ changed, r.findings[finding.id]? = some finding)
    (hall : ∀ (id : FindingId) (finding : Finding), r.findings[id]? = some finding →
      d.findings[id]? = some finding ∨ finding ∈ changed) :
    changed.foldlM restore d = .ok r := by
  have hentries : ∀ entry ∈ changed.map (fun finding => (finding.id,finding)),
      r.findings[entry.1]? = some entry.2 := by
    intro entry hentry
    obtain ⟨finding,hmem,rfl⟩ := List.mem_map.mp hentry
    exact hon finding hmem
  have hfindings := Versions.Behind.foldl_take hbehind hentries (fun id finding hfound => by
    refine (hall id finding hfound).imp_right (fun hmem => List.mem_map.mpr ⟨finding,hmem,?_⟩)
    rw [(hr.filed id finding hfound).id_eq])
  rw [restoreAll_of_behind hd hr hbehind hon, hfindings, hd.limits_eq, ← hr.limits_eq, hevicted]

/-- The registry becomes the other by changes that carry the identity of a comparison
and that a restore takes for newer. -/
structure Becomes (r s : FindingRegistry) (comparison : ComparisonId) : Prop where
  behind : r.Behind s
  evicted : r.evicted = s.evicted
  marked : ∀ (id : FindingId) (finding : Finding), s.findings[id]? = some finding →
    r.findings[id]? = some finding ∨ finding.lastComparison = comparison

/-- The findings with this identity are all that a store has to be given. -/
theorem Becomes.restoreAll {comparison : ComparisonId} (h : r.Becomes s comparison)
    (hr : Sound limits r) (hs : Sound limits s) :
    (s.all.filter (·.lastComparison = comparison)).foldlM restore r = .ok s := by
  refine restoreAll_changed hr hs h.behind h.evicted ?_ (fun id finding hfound => ?_)
  · intro finding hmem
    exact hs.getElem?_of_mem_all (List.mem_of_mem_filter hmem)
  · refine (h.marked id finding hfound).imp_right (fun hmarked => ?_)
    have hmem : finding ∈ s.all := List.mem_map.mpr
      ⟨(id,finding),Std.ExtTreeMap.mem_toList_iff_getElem?_eq_some.mpr hfound,rfl⟩
    exact List.mem_filter.mpr ⟨hmem,decide_eq_true hmarked⟩

/-- A finding that is seen again is newer than the one on file, and a match that is not
recorded as a finding resolves none. -/
structure Lasting (r : FindingRegistry) (result : ComparisonResult) (now : TimePoint) : Prop where
  seenAgain : result.primary ≠ .none → ∀ existing,
    r.findings[(findingCandidate r.limits result).id]? = some existing →
      existing.finderKeepsNewest (seenAgain existing result.id now) = true
  resolvesNone : result.outcome = .match_ →
    (result.primary ≠ .none ∧ (findingCandidate r.limits result).id.valid = true) ∨
    (result.primary = .none ∧ ∀ (id : FindingId) (finding : Finding),
      r.findings[id]? = some finding → resolvedBy result finding = false)

/-- What a result that does no harm does to the registry. -/
theorem record_cases_of_harmless (hharmless : r.Harmless result) {now : TimePoint}
    {recorded : FindingId × FindingRegistry} (hrecord : r.record result now = .ok recorded) :
    (result.primary = .none ∧ recorded = ({},r)) ∨
    (result.primary ≠ .none ∧ ∃ existing,
      r.findings[(findingCandidate r.limits result).id]? = some existing ∧
      recorded = (existing.id,r.file (findingCandidate r.limits result).id
        (seenAgain existing result.id now))) ∨
    (result.primary ≠ .none ∧ (findingCandidate r.limits result).id ∉ r.findings ∧
      recorded = ((findingCandidate r.limits result).id,
        r.file (findingCandidate r.limits result).id (opened r.limits result now))) := by
  rcases record_cases hrecord with hnone | hagain | ⟨roomy,hprimary,hnew,hroomy,rfl⟩
  · exact Or.inl hnone
  · exact Or.inr (Or.inl hagain)
  · have hopens := opens_of_getElem? hprimary hnew
    obtain rfl := eq_of_makeRoom_of_harmless hharmless hopens hroomy
    exact Or.inr (Or.inr ⟨hprimary,hopens.2,rfl⟩)

/-- Where nothing is resolved the registry stays what the recording made it. -/
theorem resolveFromMatch_eq_self {now : TimePoint}
    (h : result.outcome = .match_ → ∀ (id : FindingId) (finding : Finding),
      r.findings[id]? = some finding → resolvedBy result finding = false) :
    (r.resolveFromMatch result now).2 = r := by
  unfold resolveFromMatch
  split_ifs with hmatch
  · rfl
  · have hsame : r.findings.map (fun _ finding =>
        if resolvedBy result finding then { finding with status := .resolved, lastSeen := now }
        else finding) = r.findings := by
      refine Std.ExtTreeMap.ext_getElem? (fun id => ?_)
      rw [Std.ExtTreeMap.getElem?_map]
      cases hfound : r.findings[id]? with
      | none => rfl
      | some finding =>
        rw [Option.map_some, h (not_not.mp hmatch) id finding hfound]
        rfl
    simp only [hsame]

/-- Resolving leaves the last comparison of every finding as it was. -/
theorem mem_all_of_resolveFromMatch {now : TimePoint} {finding : Finding}
    (h : finding ∈ (r.resolveFromMatch result now).2.all) :
    ∃ held ∈ r.all, finding.lastComparison = held.lastComparison := by
  unfold resolveFromMatch at h
  split_ifs at h
  · exact ⟨finding,h,rfl⟩
  · obtain ⟨⟨id,changed⟩,hentry,rfl⟩ := List.mem_map.mp h
    have hfound := Std.ExtTreeMap.mem_toList_iff_getElem?_eq_some.mp hentry
    rw [Std.ExtTreeMap.getElem?_map] at hfound
    obtain ⟨held,hheld,rfl⟩ := Option.map_eq_some_iff.mp hfound
    refine ⟨held,List.mem_map.mpr ⟨(id,held),
      Std.ExtTreeMap.mem_toList_iff_getElem?_eq_some.mpr hheld,rfl⟩,?_⟩
    dsimp only
    split_ifs <;> rfl

theorem Lasting.settled_eq (h : Sound limits r) (hharmless : r.Harmless result)
    {now : TimePoint} (hlasting : r.Lasting result now)
    {recorded : FindingId × FindingRegistry} (hrecord : r.record result now = .ok recorded)
    (later : TimePoint) : settled result later recorded = recorded.2 := by
  unfold settled
  split_ifs with hvalid
  · rfl
  · rcases record_cases_of_harmless hharmless hrecord with
      ⟨hprimary,rfl⟩ | ⟨hprimary,existing,hexisting,rfl⟩ | ⟨hprimary,-,rfl⟩
    · refine resolveFromMatch_eq_self (fun hmatch => ?_)
      exact ((hlasting.resolvesNone hmatch).resolve_left (fun hrecorded =>
        hrecorded.1 hprimary)).2
    · refine resolveFromMatch_eq_self (fun hmatch => ?_)
      have hidentity := (hlasting.resolvesNone hmatch).resolve_right (fun hnone =>
        hprimary hnone.1)
      rw [(h.filed _ existing hexisting).id_eq] at hvalid
      exact absurd hidentity.2 hvalid
    · refine resolveFromMatch_eq_self (fun hmatch => ?_)
      have hidentity := (hlasting.resolvesNone hmatch).resolve_right (fun hnone =>
        hprimary hnone.1)
      exact absurd hidentity.2 hvalid

/-- A registry is behind what becomes of it when a newer version is filed. -/
theorem behind_insert {id : FindingId} {finding : Finding}
    (h : ∀ held, r.findings[id]? = some held → held.finderKeepsNewest finding = true) :
    r.Behind (r.file id finding) := by
  refine ⟨r.subset_insert id finding,fun other found hfound => ?_⟩
  rw [file, OrderedMap.getElem?_insert] at hfound
  split_ifs at hfound with heq
  · rw [← heq, ← Option.some.inj hfound]
    exact Or.inr h
  · exact Or.inl hfound

/-- What a lasting result changes is marked with its identity and newer. -/
theorem Lasting.becomes {now : TimePoint} (hharmless : r.Harmless result)
    (hlasting : r.Lasting result now) {recorded : FindingId × FindingRegistry}
    (hrecord : r.record result now = .ok recorded) : r.Becomes recorded.2 result.id := by
  have hinsert : ∀ (id : FindingId) (filed : Finding), filed.lastComparison = result.id →
      ∀ (other : FindingId) (finding : Finding),
        (r.file id filed).findings[other]? = some finding →
          r.findings[other]? = some finding ∨ finding.lastComparison = result.id := by
    intro id filed hmarked other finding hfound
    rw [file, OrderedMap.getElem?_insert] at hfound
    split_ifs at hfound
    · rw [← Option.some.inj hfound]
      exact Or.inr hmarked
    · exact Or.inl hfound
  rcases record_cases_of_harmless hharmless hrecord with
    ⟨-,rfl⟩ | ⟨hprimary,existing,hexisting,rfl⟩ | ⟨-,hnew,rfl⟩
  · exact ⟨.refl _,rfl,fun _ _ => Or.inl⟩
  · refine ⟨behind_insert (fun held hheld => ?_),rfl,hinsert _ _ rfl⟩
    obtain rfl := Option.some.inj (hexisting.symm.trans hheld)
    exact hlasting.seenAgain hprimary existing hexisting
  · refine ⟨behind_insert (fun held hheld => ?_),rfl,hinsert _ _ rfl⟩
    exact absurd (OrderedMap.mem_iff_getElem?.mpr ⟨held,hheld⟩) hnew

end FindingRegistry

end PathObservatory
