import PathObservatory.Engine.Differences
import PathObservatory.Engine.MatchedPath

/-! # What a correlated link changes

Correlation states a link where the source stated none and touches nothing else. A
trace that states more contradicts more and leaves less open: what it agrees with, the
trace as it was stated agrees with too.
-/
namespace PathObservatory
open Ranking
variable {index : Option TopologyIndex} {hop a b o : ObservedHop} {e : ExpectedHop}

/-- A hop stays as it is, or it stated no link and is given one. -/
theorem correlateHop_cases (index : Option TopologyIndex) (hop : ObservedHop) :
    correlateHop index hop = hop ∨ hop.statesLink = false ∧
      ∃ link, correlateHop index hop =
        { hop with link := link, linkProvenance := .correlated } := by
  cases index with
  | none => exact Or.inl rfl
  | some index =>
    unfold correlateHop
    dsimp only
    split_ifs with hstated
    · exact Or.inl rfl
    · have hlink : hop.statesLink = false := by
        simp only [Bool.or_eq_true, not_or, Bool.not_eq_true] at hstated
        simp [ObservedHop.statesLink, hstated.1.1.2]
      split
      · split_ifs
        · exact Or.inr ⟨hlink,_,rfl⟩
        · exact Or.inl rfl
      · exact Or.inl rfl

theorem correlateHop_of_statesLink (h : hop.statesLink = true) : correlateHop index hop = hop := by
  rcases correlateHop_cases index hop with hsame | ⟨hnone,-⟩
  · exact hsame
  · exact absurd (h.symm.trans hnone) (by decide)

@[simp] theorem correlateHop_index : (correlateHop index hop).index = hop.index := by
  rcases correlateHop_cases index hop with h | ⟨-,link,h⟩ <;> rw [h]

@[simp] theorem correlateHop_device : (correlateHop index hop).device = hop.device := by
  rcases correlateHop_cases index hop with h | ⟨-,link,h⟩ <;> rw [h]

@[simp] theorem correlateHop_ingress : (correlateHop index hop).ingress = hop.ingress := by
  rcases correlateHop_cases index hop with h | ⟨-,link,h⟩ <;> rw [h]

@[simp] theorem correlateHop_egress : (correlateHop index hop).egress = hop.egress := by
  rcases correlateHop_cases index hop with h | ⟨-,link,h⟩ <;> rw [h]

/-- A hop that follows the plan with its link filled in follows it without. -/
theorem HopFollows.of_correlated (h : HopFollows e (correlateHop index o)) : HopFollows e o where
  device := by simpa using h.device
  ingress := by simpa using h.ingress
  egress := by simpa using h.egress
  link := by
    intro hexpected hstates
    have hlink := h.link hexpected
    rw [correlateHop_of_statesLink hstates] at hlink
    exact hlink hstates

theorem hopsCompatible_of_correlated
    (h : hopsCompatible (correlateHop index a) (correlateHop index b) = true) :
    hopsCompatible a b = true := by
  unfold hopsCompatible at h ⊢
  simp only [correlateHop_device, correlateHop_ingress, correlateHop_egress,
    Bool.and_eq_true] at h ⊢
  refine ⟨h.1,?_⟩
  cases ha : a.statesLink with
  | false => rfl
  | true =>
    cases hb : b.statesLink with
    | false => rfl
    | true =>
      have hlinks := h.2
      rw [correlateHop_of_statesLink ha, correlateHop_of_statesLink hb, ha, hb] at hlinks
      exact hlinks

/-- The trace with every link that the index resolves. -/
def correlateTrace (index : Option TopologyIndex) (hops : List ObservedHop) : List ObservedHop :=
  hops.map (correlateHop index)

section Traces
variable {hops left right : List ObservedHop} {member : ExpectedPath}

@[simp] theorem length_correlateTrace : (correlateTrace index hops).length = hops.length :=
  List.length_map _

@[simp] theorem correlateTrace_eq_nil : correlateTrace index hops = [] ↔ hops = [] :=
  List.map_eq_nil_iff

@[simp] theorem getElem?_correlateTrace (i : ℕ) :
    (correlateTrace index hops)[i]? = hops[i]?.map (correlateHop index) := List.getElem?_map

theorem TracesAgree.of_correlated (h : TracesAgree member (correlateTrace index hops)) :
    TracesAgree member hops := by
  intro i e o he ho
  have hfilled : (correlateTrace index hops)[i]? = some (correlateHop index o) := by simp [ho]
  exact hopsAgree_iff.mpr (hopsAgree_iff.mp (h i e _ he hfilled)).of_correlated

theorem DiffersAt.correlated {i : ℕ} (h : DiffersAt member hops i) :
    DiffersAt member (correlateTrace index hops) i := by
  refine ⟨by simpa using h.1,?_⟩
  rintro ⟨e,o,he,ho,hfollows⟩
  rw [getElem?_correlateTrace] at ho
  obtain ⟨stated,hstated,rfl⟩ := Option.map_eq_some_iff.mp ho
  exact h.2 ⟨e,stated,he,hstated,hfollows.of_correlated⟩

theorem tracesCompatible_of_correlated
    (h : tracesCompatible (correlateTrace index left) (correlateTrace index right) = true) :
    tracesCompatible left right = true := by
  unfold tracesCompatible at h ⊢
  rw [correlateTrace, correlateTrace, List.zip_map, List.all_map, List.all_eq_true] at h
  rw [List.all_eq_true]
  intro pair hpair
  exact hopsCompatible_of_correlated (h pair hpair)

theorem sameDevicesDifferentOrder_correlated (expected : List ExpectedHop) :
    sameDevicesDifferentOrder expected (correlateTrace index hops) =
      sameDevicesDifferentOrder expected hops := by
  have hdevices : (correlateTrace index hops).map (·.device) = hops.map (·.device) := by
    unfold correlateTrace
    rw [List.map_map]
    exact List.map_congr_left fun hop _ => correlateHop_device
  unfold sameDevicesDifferentOrder
  rw [hdevices, length_correlateTrace]

end Traces

namespace Working
variable {w v : Working} {member : ExpectedPath} {members : List ExpectedPath}
  {accepted : List Working}

/-- The record with its trace correlated. -/
def correlated (index : Option TopologyIndex) (w : Working) : Working :=
  { w with hops := correlateTrace index w.hops }

theorem agreesWith_iff : w.agreesWith member = true ↔
    member.hops ≠ [] ∧ w.hops ≠ [] ∧ TracesAgree member w.hops := by
  by_cases hm : member.hops = []
  · simp [agreesWith, traceIs, compareTrace, hm]
  · rcases compareTrace_cases w.hops hm with ⟨hnil,h⟩ | ⟨hne,hnot,h⟩ | ⟨hne,hagree,-,h⟩ |
      ⟨hne,hagree,-,h⟩
    · rw [hnil] at h
      simp [agreesWith, traceIs, h, hnil]
    · simp [agreesWith, traceIs, h, hnot]
    · simp [agreesWith, traceIs, h, hm, hne, hagree]
    · simp [agreesWith, traceIs, h, hm, hne, hagree]

theorem agreesWith_of_correlated (h : (w.correlated index).agreesWith member = true) :
    w.agreesWith member = true := by
  obtain ⟨hm,hne,hagree⟩ := agreesWith_iff.mp h
  exact agreesWith_iff.mpr ⟨hm,mt correlateTrace_eq_nil.mpr hne,hagree.of_correlated⟩

theorem matchesAMember_of_correlated
    (h : (w.correlated index).matchesAMember members = true) : w.matchesAMember members = true := by
  obtain ⟨member,hmember,hagrees⟩ := List.any_eq_true.mp h
  exact List.any_eq_true.mpr ⟨member,hmember,agreesWith_of_correlated hagrees⟩

theorem matchedMembers_subset : (w.correlated index).matchedMembers members ⊆
    w.matchedMembers members := by
  intro id hid
  obtain ⟨member,hmember,hagrees,rfl⟩ := mem_matchedMembers.mp hid
  exact mem_matchedMembers.mpr ⟨member,hmember,agreesWith_of_correlated hagrees,rfl⟩

/-- Records that disagree as stated still disagree. -/
theorem conflictsWith_correlated (h : w.conflictsWith v = true) :
    (w.correlated index).conflictsWith (v.correlated index) = true := by
  unfold conflictsWith at h ⊢
  obtain ⟨hclaims,hconflict⟩ := Bool.and_eq_true_iff.mp h
  refine Bool.and_eq_true_iff.mpr ⟨hclaims,?_⟩
  cases hcompatible : tracesCompatible (w.correlated index).hops (v.correlated index).hops with
  | false => rfl
  | true =>
    rw [tracesCompatible_of_correlated hcompatible] at hconflict
    exact hconflict

/-- The first member the stated trace agrees with stays the first when the correlated
trace agrees with it. -/
theorem find?_correlated (h : ∀ member, members.find? w.agreesWith = some member →
      (w.correlated index).agreesWith member = true) :
    members.find? (w.correlated index).agreesWith = members.find? w.agreesWith := by
  cases hfind : members.find? w.agreesWith with
  | none =>
    refine List.find?_eq_none.mpr fun member hmember hagrees => ?_
    exact List.find?_eq_none.mp hfind member hmember (agreesWith_of_correlated hagrees)
  | some member =>
    obtain ⟨-,before,after,hsplit,hbefore⟩ := List.find?_eq_some_iff_append.mp hfind
    refine List.find?_eq_some_iff_append.mpr ⟨h member hfind,before,after,hsplit,?_⟩
    intro earlier hearlier
    have hstated := hbefore earlier hearlier
    rw [Bool.not_eq_true'] at hstated ⊢
    by_contra hagrees
    rw [Bool.not_eq_false] at hagrees
    exact absurd ((agreesWith_of_correlated hagrees).symm.trans hstated) (by decide)

theorem distinctMembers_correlated_le :
    distinctMembers members (accepted.map (correlated index)) ≤
      distinctMembers members accepted := by
  unfold distinctMembers
  refine (List.nodup_dedup _).subperm ?_ |>.length_le
  intro id hid
  obtain ⟨w,hw,hid⟩ := List.mem_flatMap.mp (List.mem_dedup.mp hid)
  obtain ⟨stated,hstated,rfl⟩ := List.mem_map.mp hw
  exact List.mem_dedup.mpr (List.mem_flatMap.mpr ⟨stated,hstated,matchedMembers_subset hid⟩)

end Working

/-- No accepted records disagree about a path that both claim. -/
def Agreeing (accepted : List Working) : Prop :=
  accepted.Pairwise (fun left right => left.conflictsWith right = false)

theorem Agreeing.of_correlated {accepted : List Working}
    (h : Agreeing (accepted.map (Working.correlated index))) : Agreeing accepted := by
  refine (List.pairwise_map.mp h).imp fun {left right} hnone => ?_
  by_contra hconflict
  rw [Bool.not_eq_false] at hconflict
  exact absurd ((Working.conflictsWith_correlated hconflict).symm.trans hnone) (by decide)

section Report
variable {reference : Option ExpectedPath} {path : ExpectedPath} {hops : List ObservedHop}

/-- Lists of reported entries are the same when they are so entry by entry. -/
theorem filter_map_congr {α β : Type} {f g : α → β} {reported : β → Bool} {l : List α}
    (h : ∀ a ∈ l, f a = g a ∨ (reported (f a) = false ∧ reported (g a) = false)) :
    (l.map f).filter reported = (l.map g).filter reported := by
  induction l with
  | nil => rfl
  | cons a l ih =>
    obtain ⟨ha,hl⟩ := List.forall_mem_cons.mp h
    rw [List.map_cons, List.map_cons, List.filter_cons, List.filter_cons, ih hl]
    rcases ha with hsame | ⟨hleft,hright⟩
    · rw [hsame]
    · rw [hleft, hright]
      rfl

theorem hopDifference_observed_inj {order : Bool} {expected : List ExpectedHop}
    {left right : List ObservedHop} {i : ℕ} (hlength : left.length = right.length)
    (h : hopDifference order expected left i = hopDifference order expected right i) :
    left[i]? = right[i]? := by
  by_cases hi : i < left.length
  · have hleft := List.getElem?_eq_getElem hi
    have hright := List.getElem?_eq_getElem (hlength ▸ hi)
    have hobserved := congrArg HopDifference.observed h
    unfold hopDifference at hobserved
    rw [hleft, hright] at hobserved ⊢
    cases he : expected[i]? with
    | none =>
      rw [he] at hobserved
      exact congrArg some hobserved
    | some e =>
      rw [he] at hobserved
      exact congrArg some hobserved
  · rw [List.getElem?_eq_none (not_lt.mp hi), List.getElem?_eq_none (hlength ▸ not_lt.mp hi)]

/-- The differences of the correlated trace are those of the stated one exactly when
every hop that they report is as stated. -/
theorem hopDifferences_correlated_iff (hbound : max path.hops.length hops.length ≤ 2 ^ 32) :
    hopDifferences path (correlateTrace index hops) = hopDifferences path hops ↔
      ∀ i, DiffersAt path (correlateTrace index hops) i →
        (correlateTrace index hops)[i]? = hops[i]? := by
  have horder : sameDevicesDifferentOrder path.hops (correlateTrace index hops) =
      sameDevicesDifferentOrder path.hops hops := sameDevicesDifferentOrder_correlated _
  have hposition : ∀ {i}, i < max path.hops.length hops.length →
      (UInt32.ofNat i).toNat = i := fun hi => UInt32.toNat_ofNat_of_lt' (hi.trans_le hbound)
  constructor
  · intro hsame i hi
    have hmem := mem_hopDifferences.mpr ⟨i,hi,rfl⟩
    rw [hsame, horder] at hmem
    obtain ⟨j,hj,heq⟩ := mem_hopDifferences.mp hmem
    have hindex := congrArg (·.index.toNat) heq
    simp only [hopDifference_index] at hindex
    rw [hposition (by simpa using hi.1), hposition hj.1] at hindex
    subst hindex
    exact hopDifference_observed_inj length_correlateTrace heq
  · intro hstated
    unfold hopDifferences
    rw [horder, length_correlateTrace]
    refine filter_map_congr fun i hi => ?_
    have hlt := List.mem_range.mp hi
    by_cases hdiffers : DiffersAt path (correlateTrace index hops) i
    · left
      unfold hopDifference
      rw [hstated i hdiffers]
    · right
      have hfilled : (hopDifference (sameDevicesDifferentOrder path.hops hops) path.hops
          (correlateTrace index hops) i).detail = .none :=
        (hopDifference_detail_eq_none_iff (by simpa using hlt)).mpr hdiffers
      have hplain : (hopDifference (sameDevicesDifferentOrder path.hops hops) path.hops hops
          i).detail = .none :=
        (hopDifference_detail_eq_none_iff hlt).mpr (mt DiffersAt.correlated hdiffers)
      simp [hfilled, hplain]

/-- A link that the correlated trace leaves open the stated one leaves open too. -/
theorem linkIsUnresolved_of_correlated {differences : List HopDifference}
    (h : linkIsUnresolved path (correlateTrace index hops) differences = true) :
    linkIsUnresolved path hops differences = true := by
  unfold linkIsUnresolved at h ⊢
  rw [correlateTrace, List.zip_map_right, List.zipIdx_map, List.any_map] at h
  obtain ⟨entry,hentry,hopen⟩ := List.any_eq_true.mp h
  refine List.any_eq_true.mpr ⟨entry,hentry,?_⟩
  simp only [Function.comp_apply, Prod.map_fst, Prod.map_snd, id_eq, Bool.and_eq_true,
    Bool.not_eq_true'] at hopen ⊢
  refine ⟨hopen.1,?_⟩
  by_contra hstates
  rw [Bool.not_eq_false] at hstates
  have hkept : correlateHop index entry.1.2 = entry.1.2 := correlateHop_of_statesLink hstates
  exact absurd (hstates.symm.trans (hkept ▸ hopen.2)) (by decide)

end Report

end PathObservatory
