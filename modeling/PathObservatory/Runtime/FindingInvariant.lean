import PathObservatory.Engine.Bounds
import PathObservatory.Store.RecordRoundTrip

/-! # The finding registry invariant

Every finding is filed under the identity its content produces and can be read
back from a store; the registry is within its bound. Recording opens, reopens or
evicts a finding; nothing else removes one.
-/
namespace PathObservatory

namespace FindingRegistry

section
variable {r s : FindingRegistry} {result : ComparisonResult} {now : TimePoint}

/-- The finding that a comparison opens. -/
def opened (limits : Limits) (result : ComparisonResult) (now : TimePoint) : Finding :=
  { findingCandidate limits result with
    occurrences := 1, firstSeen := now, lastSeen := now, status := .open_ }

def file (r : FindingRegistry) (id : FindingId) (finding : Finding) : FindingRegistry :=
  { r with findings := r.findings.insert id finding }

theorem size_file_le {bound : ℕ} {id : FindingId} {finding : Finding}
    (hsize : r.findings.size ≤ bound) (hroom : id ∈ r.findings ∨ r.findings.size < bound) :
    (r.file id finding).findings.size ≤ bound := by
  rw [file, Std.ExtTreeMap.size_insert]
  split_ifs with hmem
  · exact hsize
  · exact hroom.resolve_left hmem

/-- A victim was there before, or is a resolved one of the entries looked at. -/
theorem victim_of_foldl {entries : List (FindingId × Finding)}
    {victim : Option (FindingId × Finding)} {chosen : FindingId × Finding}
    (h : entries.foldl olderVictim victim = some chosen) :
    victim = some chosen ∨ (chosen ∈ entries ∧ chosen.2.status = .resolved) := by
  induction entries generalizing victim with
  | nil => exact Or.inl h
  | cons entry rest ih =>
    rcases ih h with hstep | ⟨hlater,hresolved⟩
    · have hone : victim = some chosen ∨ (entry = chosen ∧ entry.2.status = .resolved) := by
        unfold olderVictim at hstep
        split_ifs at hstep with hstatus
        · exact Or.inl hstep
        · rw [not_not] at hstatus
          split at hstep
          · exact Or.inr ⟨Option.some.inj hstep,hstatus⟩
          · split_ifs at hstep
            · exact Or.inr ⟨Option.some.inj hstep,hstatus⟩
            · exact Or.inl hstep
      rcases hone with hsame | ⟨rfl,hstatus⟩
      · exact Or.inl hsame
      · exact Or.inr ⟨List.mem_cons_self,hstatus⟩
    · exact Or.inr ⟨List.mem_cons_of_mem entry hlater,hresolved⟩

/-- The finding that is evicted is on file and resolved. -/
theorem resolved_of_victim {chosen : FindingId × Finding} (h : r.victim = some chosen) :
    r.findings[chosen.1]? = some chosen.2 ∧ chosen.2.status = .resolved := by
  obtain ⟨hlisted,hresolved⟩ := (victim_of_foldl h).resolve_left (by simp)
  exact ⟨Std.ExtTreeMap.mem_toList_iff_getElem?_eq_some.mp hlisted,hresolved⟩

/-- There is room, or a resolved finding of a full registry makes it. -/
theorem makeRoom_cases (h : r.makeRoom = .ok s) :
    (r.findings.size < r.limits.maxFindings ∧ s = r) ∨
    ∃ chosen, r.limits.maxFindings ≤ r.findings.size ∧ r.victim = some chosen ∧
      s = { r with findings := r.findings.erase chosen.1, evicted := r.evicted + 1 } := by
  unfold makeRoom at h
  split_ifs at h with hroom
  · exact Or.inl ⟨hroom,(Except.ok.inj h).symm⟩
  · split at h
    · cases h
    · rename_i chosen hchosen
      exact Or.inr ⟨chosen,not_lt.mp hroom,hchosen,(Except.ok.inj h).symm⟩

/-- There is room afterwards. -/
theorem size_of_makeRoom (hsize : r.findings.size ≤ r.limits.maxFindings)
    (h : r.makeRoom = .ok s) : s.findings.size < r.limits.maxFindings := by
  rcases makeRoom_cases h with ⟨hroom,rfl⟩ | ⟨chosen,-,hchosen,rfl⟩
  · exact hroom
  · have hheld : chosen.1 ∈ r.findings :=
      OrderedMap.mem_iff_getElem?.mpr ⟨chosen.2,(resolved_of_victim hchosen).1⟩
    have hpositive : 0 < r.findings.size := by
      rw [← Std.ExtTreeMap.length_keys]
      exact List.length_pos_of_mem (Std.ExtTreeMap.mem_keys.mpr hheld)
    have hsize : (r.findings.erase chosen.1).size = r.findings.size-1 :=
      Std.ExtTreeMap.size_erase.trans (if_pos hheld)
    simp only
    omega

/-- Nothing is recorded, a finding is seen again, or one is opened. -/
theorem record_cases {recorded : FindingId × FindingRegistry}
    (h : r.record result now = .ok recorded) :
    (result.primary = .none ∧ recorded = ({},r)) ∨
    (result.primary ≠ .none ∧ ∃ existing,
      r.findings[(findingCandidate r.limits result).id]? = some existing ∧
      recorded = (existing.id,r.file (findingCandidate r.limits result).id
        (seenAgain existing result.id now))) ∨
    ∃ roomy, result.primary ≠ .none ∧
      r.findings[(findingCandidate r.limits result).id]? = none ∧ r.makeRoom = .ok roomy ∧
      recorded = ((findingCandidate r.limits result).id,
        roomy.file (findingCandidate r.limits result).id (opened r.limits result now)) := by
  unfold record at h
  split_ifs at h with hprimary
  · exact Or.inl ⟨hprimary,(Except.ok.inj h).symm⟩
  · simp only at h
    split at h
    · rename_i existing hexisting
      exact Or.inr (Or.inl ⟨hprimary,existing,hexisting,(Except.ok.inj h).symm⟩)
    · rename_i hnew
      obtain ⟨roomy,hroomy,h⟩ := bind_eq_ok.mp h
      exact Or.inr (Or.inr ⟨roomy,hprimary,hnew,hroomy,(Except.ok.inj h).symm⟩)

theorem getElem?_of_find {r : FindingRegistry} {id : FindingId} {finding : Finding}
    (h : r.find id = .ok finding) : r.findings[id]? = some finding := by
  unfold find at h
  split at h
  · cases h
  · rename_i held hheld
    rw [hheld, Except.ok.inj h]

/-- An open finding becomes acknowledged; any other stays as it is. -/
theorem acknowledge_cases {id : FindingId} (h : r.acknowledge id now = .ok s) :
    ∃ finding, r.findings[id]? = some finding ∧
      ((finding.status = .open_ ∧
          s = r.file id { finding with status := .acknowledged, lastSeen := now }) ∨
        (finding.status ≠ .open_ ∧ s = r)) := by
  obtain ⟨finding,hfind,h⟩ := bind_eq_ok.mp h
  refine ⟨finding,getElem?_of_find hfind,?_⟩
  split_ifs at h with hstatus
  · exact Or.inl ⟨hstatus,(Except.ok.inj h).symm⟩
  · exact Or.inr ⟨hstatus,(Except.ok.inj h).symm⟩

/-- The finding replaces an older one, is older itself, or is new and has room. -/
theorem restore_cases {finding : Finding} (h : r.restore finding = .ok s) :
    finding.computeFindingId = finding.id ∧
    ((∃ existing, r.findings[finding.id]? = some existing ∧
        ((existing.finderKeepsNewest finding = true ∧ s = r.file finding.id finding) ∨
          (existing.finderKeepsNewest finding = false ∧ s = r))) ∨
      (r.findings[finding.id]? = none ∧ r.findings.size < r.limits.maxFindings ∧
        s = r.file finding.id finding)) := by
  obtain ⟨hsealed,h⟩ := require_bind_eq_ok.mp h
  refine ⟨of_decide_eq_true hsealed,?_⟩
  split at h
  · rename_i existing hexisting
    split_ifs at h with hnewer
    · exact Or.inl ⟨existing,hexisting,Or.inl ⟨hnewer,(Except.ok.inj h).symm⟩⟩
    · exact Or.inl ⟨existing,hexisting,Or.inr ⟨Bool.eq_false_of_not_eq_true hnewer,
        (Except.ok.inj h).symm⟩⟩
  · rename_i hnew
    obtain ⟨hroom,h⟩ := require_bind_eq_ok.mp h
    exact Or.inr ⟨hnew,of_decide_eq_true hroom,(Except.ok.inj h).symm⟩

end

/-- Status, times, counts and the last comparison do not matter to what is said of a
finding. -/
def Enduring (good : FindingId → Finding → Prop) : Prop :=
  ∀ ⦃id : FindingId⦄ ⦃finding : Finding⦄, good id finding →
    ∀ (status : FindingStatus) (occurrences : UInt64) (firstSeen lastSeen : TimePoint)
      (lastComparison : ComparisonId), good id { finding with
        status := status, occurrences := occurrences, firstSeen := firstSeen,
        lastSeen := lastSeen, lastComparison := lastComparison }

/-- The registry is within its bound, and this is true of every finding and the
identity it stands under. -/
structure Holds (limits : Limits) (good : FindingId → Finding → Prop) (r : FindingRegistry) :
    Prop where
  limits_eq : r.limits = limits
  size_le : r.findings.size ≤ limits.maxFindings
  all : OrderedMap.All good r.findings

namespace Holds
variable {limits : Limits} {good : FindingId → Finding → Prop} {r s : FindingRegistry}
  {result : ComparisonResult} {now : TimePoint}

theorem empty (limits : Limits) (good : FindingId → Finding → Prop) :
    Holds limits good { limits := limits } where
  limits_eq := rfl
  size_le := by simp
  all := fun id finding h => by simp at h

theorem file (h : Holds limits good r) {id : FindingId} {finding : Finding}
    (hgood : good id finding) (hroom : id ∈ r.findings ∨ r.findings.size < limits.maxFindings) :
    Holds limits good (r.file id finding) :=
  ⟨h.limits_eq,size_file_le h.size_le hroom,h.all.insert hgood⟩

/-- Evicting one finding makes room for one. -/
theorem makeRoom (h : Holds limits good r) (hs : r.makeRoom = .ok s) :
    Holds limits good s ∧ s.findings.size < limits.maxFindings := by
  have hroom := size_of_makeRoom (h.limits_eq ▸ h.size_le) hs
  rw [h.limits_eq] at hroom
  refine ⟨?_,hroom⟩
  rcases makeRoom_cases hs with ⟨-,rfl⟩ | ⟨chosen,-,-,rfl⟩
  · exact h
  · exact ⟨h.limits_eq,hroom.le,h.all.erase _⟩

theorem record (h : Holds limits good r) (hgood : Enduring good)
    (hcandidate : good (findingCandidate limits result).id (findingCandidate limits result))
    {recorded : FindingId × FindingRegistry} (hs : r.record result now = .ok recorded) :
    Holds limits good recorded.2 := by
  rcases record_cases hs with ⟨-,rfl⟩ | ⟨-,existing,hexisting,rfl⟩ | ⟨roomy,-,-,hroomy,rfl⟩
  · exact h
  · exact h.file (hgood (h.all _ existing hexisting) _ _ _ _ _)
      (Or.inl (OrderedMap.mem_iff_getElem?.mpr ⟨existing,hexisting⟩))
  · obtain ⟨hkept,hroom⟩ := h.makeRoom hroomy
    rw [← h.limits_eq] at hcandidate
    exact hkept.file (hgood hcandidate _ _ _ _ _) (Or.inr hroom)

theorem acknowledge (h : Holds limits good r) (hgood : Enduring good) {id : FindingId}
    (hs : r.acknowledge id now = .ok s) : Holds limits good s := by
  obtain ⟨finding,hfound,⟨-,rfl⟩ | ⟨-,rfl⟩⟩ := acknowledge_cases hs
  · exact h.file (hgood (h.all id finding hfound) _ _ _ _ _)
      (Or.inl (OrderedMap.mem_iff_getElem?.mpr ⟨finding,hfound⟩))
  · exact h

theorem resolveFromMatch (h : Holds limits good r) (hgood : Enduring good)
    (result : ComparisonResult) (now : TimePoint) :
    Holds limits good (r.resolveFromMatch result now).2 := by
  unfold FindingRegistry.resolveFromMatch
  split_ifs
  · exact h
  · refine ⟨h.limits_eq,?_,h.all.map fun id finding hfinding => ?_⟩
    · rw [Std.ExtTreeMap.size_map]
      exact h.size_le
    · split_ifs
      · exact hgood hfinding _ _ _ _ _
      · exact hfinding

theorem restore (h : Holds limits good r) {finding : Finding}
    (hfinding : finding.computeFindingId = finding.id → good finding.id finding)
    (hs : r.restore finding = .ok s) : Holds limits good s := by
  obtain ⟨hsealed,⟨existing,hexisting,⟨-,rfl⟩ | ⟨-,rfl⟩⟩ | ⟨-,hroom,rfl⟩⟩ := restore_cases hs
  · exact h.file (hfinding hsealed)
      (Or.inl (OrderedMap.mem_iff_getElem?.mpr ⟨existing,hexisting⟩))
  · exact h
  · exact h.file (hfinding hsealed) (Or.inr (h.limits_eq ▸ hroom))

end Holds

/-- A finding filed under its own identity, within the decoder's bounds. -/
structure Filed (limits : Limits) (id : FindingId) (finding : Finding) : Prop where
  id_eq : finding.id = id
  sealed : finding.computeFindingId = id
  fits : Codec.FindingFits limits finding

structure Sound (limits : Limits) (r : FindingRegistry) : Prop where
  limits_eq : r.limits = limits
  size_le : r.findings.size ≤ limits.maxFindings
  filed : ∀ id finding, r.findings[id]? = some finding → Filed limits id finding

theorem Sound.holds {limits : Limits} {r : FindingRegistry} (h : Sound limits r) :
    Holds limits (Filed limits) r := ⟨h.limits_eq,h.size_le,h.filed⟩

theorem Holds.sound {limits : Limits} {r : FindingRegistry} (h : Holds limits (Filed limits) r) :
    Sound limits r := ⟨h.limits_eq,h.size_le,h.all⟩

theorem sound_empty (limits : Limits) : Sound limits { limits := limits } :=
  (Holds.empty limits _).sound

/-- Every finding of one registry has a counterpart in the other. -/
def SubsetOf (r s : FindingRegistry) : Prop := ∀ id, id ∈ r.findings → id ∈ s.findings

theorem SubsetOf.refl (r : FindingRegistry) : r.SubsetOf r := fun _ h => h

theorem SubsetOf.trans {r s t : FindingRegistry} (h : r.SubsetOf s) (k : s.SubsetOf t) :
    r.SubsetOf t := fun id hid => k id (h id hid)

theorem subset_insert (r : FindingRegistry) (id : FindingId) (finding : Finding) :
    r.SubsetOf { r with findings := r.findings.insert id finding } := by
  intro other hother
  exact Std.ExtTreeMap.mem_insert.mpr (Or.inr hother)

namespace Sound
variable {limits : Limits} {r : FindingRegistry}

/-- Filing a finding keeps the registry sound when there is room for it. -/
theorem insert (h : Sound limits r) {id : FindingId} {finding : Finding}
    (hfiled : Filed limits id finding)
    (hroom : id ∈ r.findings ∨ r.findings.size < limits.maxFindings) :
    Sound limits { r with findings := r.findings.insert id finding } :=
  (h.holds.file hfiled hroom).sound

/-- A listed finding is filed under its identity. -/
theorem getElem?_of_mem_all (h : Sound limits r) {finding : Finding} (hmem : finding ∈ r.all) :
    r.findings[finding.id]? = some finding := by
  obtain ⟨⟨id,listed⟩,hentry,rfl⟩ := List.mem_map.mp hmem
  have hfound := Std.ExtTreeMap.mem_toList_iff_getElem?_eq_some.mp hentry
  rwa [(h.filed id listed hfound).id_eq]

end Sound

/-- What is filed does not depend on times, counts, status or last comparison. -/
theorem enduring_filed (limits : Limits) : Enduring (Filed limits) :=
  fun _ _ h _ _ _ _ _ => ⟨h.id_eq,h.sealed,⟨h.fits.evidence,h.fits.hopIndices,h.fits.detail⟩⟩

theorem acknowledge_sound {limits : Limits} {r s : FindingRegistry} (h : Sound limits r)
    {id : FindingId} {now : TimePoint} (hs : r.acknowledge id now = .ok s) :
    Sound limits s ∧ r.SubsetOf s := by
  refine ⟨(h.holds.acknowledge (enduring_filed limits) hs).sound,?_⟩
  obtain ⟨finding,-,⟨-,rfl⟩ | ⟨-,rfl⟩⟩ := acknowledge_cases hs
  · exact r.subset_insert id _
  · exact .refl s

theorem resolveFromMatch_sound {limits : Limits} {r : FindingRegistry} (h : Sound limits r)
    (result : ComparisonResult) (now : TimePoint) :
    Sound limits (r.resolveFromMatch result now).2 ∧
      r.SubsetOf (r.resolveFromMatch result now).2 := by
  refine ⟨(h.holds.resolveFromMatch (enduring_filed limits) result now).sound,?_⟩
  unfold resolveFromMatch
  split_ifs
  · exact .refl r
  · intro id hid
    exact Std.ExtTreeMap.mem_map.mpr hid

/-- The finding a comparison would open can be filed when its text fits. -/
theorem findingCandidate_filed {limits : Limits} {result : ComparisonResult} {records : ℕ}
    (h : result.Bounded records limits.maxHopsPerPath)
    (hdetail : (findingDetail result.primary).length ≤ limits.maxStringBytes) :
    Filed limits (findingCandidate limits result).id (findingCandidate limits result) where
  id_eq := rfl
  sealed := rfl
  fits := by
    refine ⟨List.length_take_le _ _,?_,hdetail⟩
    simp only [findingCandidate, Finding.seal_, List.length_map]
    exact h.differences

/-- The comparison has a class and no finding for it is on file. -/
def Opens (r : FindingRegistry) (result : ComparisonResult) : Prop :=
  result.primary ≠ .none ∧ (findingCandidate r.limits result).id ∉ r.findings

/-- A finding is opened only where nothing has to be evicted for it, and with a
text the decoder accepts; otherwise the registry refuses it. -/
def Harmless (r : FindingRegistry) (result : ComparisonResult) : Prop :=
  r.Opens result →
    (r.findings.size < r.limits.maxFindings ∧
      (findingDetail result.primary).length ≤ r.limits.maxStringBytes) ∨
    (r.limits.maxFindings ≤ r.findings.size ∧ r.victim = none)

theorem opens_of_getElem? {r : FindingRegistry} {result : ComparisonResult}
    (hprimary : result.primary ≠ .none)
    (hnew : r.findings[(findingCandidate r.limits result).id]? = none) : r.Opens result := by
  refine ⟨hprimary,fun hmem => ?_⟩
  obtain ⟨held,hheld⟩ := OrderedMap.mem_iff_getElem?.mp hmem
  rw [hnew] at hheld
  cases hheld

/-- Nothing has to be evicted for a finding that does no harm. -/
theorem eq_of_makeRoom_of_harmless {r roomy : FindingRegistry} {result : ComparisonResult}
    (hharmless : r.Harmless result) (hopens : r.Opens result) (hroomy : r.makeRoom = .ok roomy) :
    roomy = r := by
  rcases makeRoom_cases hroomy with ⟨-,hsame⟩ | ⟨chosen,hfull,hchosen,-⟩
  · exact hsame
  · have hnone := ((hharmless hopens).resolve_left fun hroom => not_lt.mpr hfull hroom.1).2
    rw [hchosen] at hnone
    cases hnone

theorem record_sound {limits : Limits} {r s : FindingRegistry} (h : Sound limits r)
    {result : ComparisonResult} {records : ℕ}
    (hresult : result.Bounded records limits.maxHopsPerPath) (hharmless : r.Harmless result)
    {now : TimePoint} {id : FindingId} (hs : r.record result now = .ok (id,s)) :
    Sound limits s ∧ r.SubsetOf s := by
  rcases record_cases hs with ⟨-,heq⟩ | ⟨-,existing,hexisting,heq⟩ | ⟨roomy,hprimary,hnew,hroomy,heq⟩
  · obtain ⟨rfl,rfl⟩ := Prod.mk.inj heq
    exact ⟨h,.refl s⟩
  · obtain ⟨rfl,rfl⟩ := Prod.mk.inj heq
    exact ⟨h.insert (enduring_filed limits (h.filed _ existing hexisting) _ _ _ _ _)
      (Or.inl (OrderedMap.mem_iff_getElem?.mpr ⟨existing,hexisting⟩)),r.subset_insert _ _⟩
  · obtain ⟨rfl,rfl⟩ := Prod.mk.inj heq
    have hopens := opens_of_getElem? hprimary hnew
    obtain rfl := eq_of_makeRoom_of_harmless hharmless hopens hroomy
    obtain ⟨hroom,hdetail⟩ := (hharmless hopens).resolve_right fun hrefused => by
      rcases makeRoom_cases hroomy with ⟨hroom,-⟩ | ⟨chosen,-,hchosen,-⟩
      · exact not_lt.mpr hrefused.1 hroom
      · rw [hrefused.2] at hchosen
        cases hchosen
    have hfiled : Filed limits (findingCandidate roomy.limits result).id
        (findingCandidate roomy.limits result) := by
      rw [h.limits_eq] at hdetail ⊢
      exact findingCandidate_filed hresult hdetail
    rw [h.limits_eq] at hroom
    exact ⟨h.insert (enduring_filed limits hfiled _ _ _ _ _) (Or.inr hroom),
      roomy.subset_insert _ _⟩

/-- A finding on file is restored into every registry that is part of it. -/
theorem restore_of_subset {limits : Limits} {d r : FindingRegistry} (hd : Sound limits d)
    (hr : Sound limits r) (hsub : d.SubsetOf r) {finding : Finding}
    (hfiled : Filed limits finding.id finding) (hmem : finding.id ∈ r.findings) :
    ∃ s, d.restore finding = .ok s ∧ Sound limits s ∧ s.SubsetOf r := by
  have hinsert : FindingRegistry.SubsetOf
      { d with findings := d.findings.insert finding.id finding } r := by
    intro id hid
    rcases Std.ExtTreeMap.mem_insert.mp hid with heq | hid
    · rwa [← compare_eq_iff_eq.mp heq]
    · exact hsub id hid
  have hidentity : decide (finding.computeFindingId = finding.id) = true :=
    decide_eq_true hfiled.sealed
  unfold restore
  rw [hidentity]
  cases hheld : d.findings[finding.id]? with
  | some existing =>
    have hknown : finding.id ∈ d.findings := OrderedMap.mem_iff_getElem?.mpr ⟨existing,hheld⟩
    by_cases hnewer : existing.finderKeepsNewest finding = true
    · exact ⟨_,if_pos hnewer,hd.insert hfiled (Or.inl hknown),hinsert⟩
    · exact ⟨_,if_neg hnewer,hd,hsub⟩
  | none =>
    have hnew : finding.id ∉ d.findings := by
      intro h
      obtain ⟨held,h⟩ := OrderedMap.mem_iff_getElem?.mp h
      rw [hheld] at h
      cases h
    have hroom : d.findings.size < limits.maxFindings :=
      (OrderedMap.size_lt_of_subset hsub hnew hmem).trans_le hr.size_le
    refine ⟨_,?_,hd.insert hfiled (Or.inr hroom),hinsert⟩
    rw [← hd.limits_eq] at hroom
    simp only [require, decide_eq_true hroom, if_true]
    rfl

end FindingRegistry

end PathObservatory
