import PathObservatory.Runtime.HistoryBounds

/-! # Which record an append evicts

The loop evicts the first record that shares its group or its path with the most
others. A group and a path can overlap, and then the record that shares both with the
most need not be the oldest of either: it can be the new one.
-/
namespace PathObservatory

/-- Two references name the same identity. -/
theorem MaybeId.names_same {tag : IdTag} (x a : MaybeId tag) :
    (x.present && a.present && decide (x.value = a.value)) = (x.present && decide (a = x)) := by
  obtain ⟨v⟩ := x
  obtain ⟨w⟩ := a
  by_cases h : w = v
  · simp [h]
  · simp [h, Ne.symm h]

namespace HistoryRecord

def inGroupOf (x a : HistoryRecord) : Bool := x.group.present && a.group = x.group

def onPathOf (x a : HistoryRecord) : Bool := x.path.present && a.path = x.path

theorem sameSubject_eq (x a : HistoryRecord) :
    a.sameSubject x.group x.path = (inGroupOf x a || onPathOf x a) := by
  rw [sameSubject, MaybeId.names_same, MaybeId.names_same]
  rfl

/-- One of the two ways to share a subject, with the other one. -/
structure Way (p q : HistoryRecord → HistoryRecord → Bool) : Prop where
  shares : ∀ x a, a.sameSubject x.group x.path = (p x a || q x a)
  symm : ∀ x a, p x a = p a x
  symm_other : ∀ x a, q x a = q a x
  trans : ∀ x a b, p x a = true → p x b = p a b

theorem inGroupOf_symm (x a : HistoryRecord) : inGroupOf x a = inGroupOf a x := by
  unfold inGroupOf
  by_cases h : a.group = x.group
  · rw [h]
  · simp [h, Ne.symm h]

theorem onPathOf_symm (x a : HistoryRecord) : onPathOf x a = onPathOf a x := by
  unfold onPathOf
  by_cases h : a.path = x.path
  · rw [h]
  · simp [h, Ne.symm h]

theorem way_group : Way inGroupOf onPathOf where
  shares := sameSubject_eq
  symm := inGroupOf_symm
  symm_other := onPathOf_symm
  trans := by
    intro x a b h
    obtain ⟨-,hsame⟩ := Bool.and_eq_true_iff.mp h
    rw [inGroupOf, inGroupOf, of_decide_eq_true hsame]

theorem way_path : Way onPathOf inGroupOf where
  shares x a := by rw [sameSubject_eq, Bool.or_comm]
  symm := onPathOf_symm
  symm_other := inGroupOf_symm
  trans := by
    intro x a b h
    obtain ⟨-,hsame⟩ := Bool.and_eq_true_iff.mp h
    rw [onPathOf, onPathOf, of_decide_eq_true hsame]

end HistoryRecord

namespace HistoryStore
open HistoryRecord
variable {h : HistoryStore}

/-- How many records share the subject of the given one in this way. -/
def countOf (h : HistoryStore) (p : HistoryRecord → HistoryRecord → Bool) (x : HistoryRecord) : ℕ :=
  h.records.countP (p x)

/-- The record at the index is the oldest of a group, or of a path, that is over the
cap. -/
def OldestOfCrowded (h : HistoryStore) (index : ℕ) : Prop :=
  ∃ front record back, h.records = front ++ record :: back ∧ front.length = index ∧
    ((h.limits.maxHistoryPerGroup < h.countOf inGroupOf record ∧
        ∀ a ∈ front, inGroupOf record a = false) ∨
      (h.limits.maxHistoryPerGroup < h.countOf onPathOf record ∧
        ∀ a ∈ front, onPathOf record a = false))

/-- Every round of the loop evicts such a record. -/
def EvictsOldest : ℕ → HistoryStore → Prop
  | 0, _ => True
  | rounds + 1, h =>
    match h.worst.2 with
    | none => True
    | some index => h.OldestOfCrowded index ∧ EvictsOldest rounds (h.evict index)

/-- The new record stays, behind what is left of the old ones, and a record goes for
the sake of a subject only as the oldest of one that is over its cap. -/
structure KeepsNewest (h : HistoryStore) (result : StoredComparison) : Prop where
  newest : ∃ kept, kept.Sublist h.records ∧
    (h.append result).records = kept ++ [HistoryRecord.ofComparison result]
  oldest : EvictsOldest (h.push result).records.length (h.push result)

/-- The subjects have room for the record: it shares its own with fewer records than
the cap, and so does each of these. Or one of its subjects has as many records as it
may, and they are all that share anything with it. -/
def Orderly (h : HistoryStore) (x : HistoryRecord) : Prop :=
  (h.subjectCount x < h.limits.maxHistoryPerGroup ∧
    ∀ a ∈ h.records, a.sameSubject x.group x.path = true →
      h.subjectCount a < h.limits.maxHistoryPerGroup) ∨
  (h.limits.maxHistoryPerGroup ≤ h.countOf inGroupOf x ∧
    ∀ a ∈ h.records, onPathOf x a = true → inGroupOf x a = true) ∨
  (h.limits.maxHistoryPerGroup ≤ h.countOf onPathOf x ∧
    ∀ a ∈ h.records, inGroupOf x a = true → onPathOf x a = true)

instance (h : HistoryStore) (x : HistoryRecord) : Decidable (h.Orderly x) :=
  inferInstanceAs (Decidable (_ ∨ _ ∨ _))

/-- Without a record those that share a subject with it count one less. -/
theorem subjectCount_evict {front back : List HistoryRecord} {record : HistoryRecord}
    (hsplit : h.records = front ++ record :: back) (a : HistoryRecord) :
    h.subjectCount a = (h.evict front.length).subjectCount a +
      if record.sameSubject a.group a.path = true then 1 else 0 := by
  unfold subjectCount evict
  rw [hsplit, List.eraseIdx_append_of_length_le le_rfl, Nat.sub_self, List.eraseIdx_cons_zero,
    List.countP_append, List.countP_append, List.countP_cons, Nat.add_assoc]

section Way
variable {p q : HistoryRecord → HistoryRecord → Bool} (way : Way p q)
include way

theorem subjectCount_eq (h : HistoryStore) (a : HistoryRecord) :
    h.subjectCount a = h.records.countP (fun b => p a b || q a b) := by
  unfold subjectCount
  simp only [way.shares]

theorem countOf_le_subjectCount (h : HistoryStore) (a : HistoryRecord) :
    h.countOf p a ≤ h.subjectCount a := by
  rw [subjectCount_eq way]
  refine List.countP_mono_left fun b _ hb => ?_
  rw [hb, Bool.true_or]

theorem countOf_congr (h : HistoryStore) {x a : HistoryRecord} (hshared : p x a = true) :
    h.countOf p x = h.countOf p a := by
  unfold countOf
  congr 1
  funext b
  exact way.trans x a b hshared

omit way in
theorem subjectCount_push (h : HistoryStore) (result : StoredComparison) (a : HistoryRecord) :
    (h.push result).subjectCount a = h.subjectCount a +
      if (ofComparison result).sameSubject a.group a.path = true then 1 else 0 := by
  unfold subjectCount push
  rw [List.countP_append, List.countP_singleton]

omit way in
theorem countOf_push (h : HistoryStore) (result : StoredComparison) (a : HistoryRecord) :
    (h.push result).countOf p a = h.countOf p a +
      if p a (ofComparison result) = true then 1 else 0 := by
  unfold countOf push
  rw [List.countP_append, List.countP_singleton]

/-- In a level store no subject is over its cap. -/
theorem countOf_le (hlevel : h.Level) (x : HistoryRecord) :
    h.countOf p x ≤ h.limits.maxHistoryPerGroup := by
  by_cases hsome : ∃ a ∈ h.records, p x a = true
  · obtain ⟨a,hmem,ha⟩ := hsome
    rw [countOf_congr way h ha]
    exact (countOf_le_subjectCount way h a).trans (hlevel a hmem)
  · have hnone : h.countOf p x = 0 := List.countP_eq_zero.mpr fun a hmem ha => hsome ⟨a,hmem,ha⟩
    omega

/-- A record of a crowded subject shares nothing beyond it, so that with the new record
it is one over the cap. -/
theorem subjectCount_push_of_crowded (hlevel : h.Level) {result : StoredComparison}
    (hfull : h.limits.maxHistoryPerGroup ≤ h.countOf p (ofComparison result))
    {a : HistoryRecord} (hmem : a ∈ h.records) (ha : p (ofComparison result) a = true) :
    (h.push result).subjectCount a = h.limits.maxHistoryPerGroup + 1 := by
  have hback : (ofComparison result).sameSubject a.group a.path = true := by
    rw [way.shares, way.symm, ha, Bool.true_or]
  have hlow := countOf_le_subjectCount way h a
  rw [← countOf_congr way h ha] at hlow
  have hhigh := hlevel a hmem
  rw [subjectCount_push, if_pos hback]
  omega

/-- Where nothing else is on the other side, nothing else is over the cap. -/
theorem subjectCount_push_of_apart (hlevel : h.Level) {result : StoredComparison}
    (hwithin : ∀ a ∈ h.records, q (ofComparison result) a = true → p (ofComparison result) a = true)
    {a : HistoryRecord} (hmem : a ∈ h.records) (ha : p (ofComparison result) a = false) :
    (h.push result).subjectCount a ≤ h.limits.maxHistoryPerGroup := by
  have hother : q (ofComparison result) a = false := by
    rw [← Bool.not_eq_true]
    intro hq
    rw [hwithin a hmem hq] at ha
    cases ha
  have hback : (ofComparison result).sameSubject a.group a.path = false := by
    rw [way.shares, way.symm, ha, way.symm_other, hother, Bool.false_or]
  rw [subjectCount_push, hback]
  exact hlevel a hmem

theorem subjectCount_push_self (hlevel : h.Level) {result : StoredComparison}
    (hcap : 1 ≤ h.limits.maxHistoryPerGroup)
    (hfull : h.limits.maxHistoryPerGroup ≤ h.countOf p (ofComparison result))
    (hwithin : ∀ a ∈ h.records,
      q (ofComparison result) a = true → p (ofComparison result) a = true) :
    (h.push result).subjectCount (ofComparison result) = h.limits.maxHistoryPerGroup + 1 ∧
      p (ofComparison result) (ofComparison result) = true := by
  obtain ⟨a,-,ha⟩ := List.countP_pos_iff.mp (show 0 < h.countOf p (ofComparison result) by omega)
  have hself : p (ofComparison result) (ofComparison result) = true := by
    rw [way.trans _ _ _ ha, way.symm]
    exact ha
  have hshares : (ofComparison result).sameSubject (ofComparison result).group
      (ofComparison result).path = true := by
    rw [way.shares, hself, Bool.true_or]
  have hsame : h.subjectCount (ofComparison result) = h.countOf p (ofComparison result) := by
    rw [subjectCount_eq way]
    refine List.countP_congr fun b hb => ?_
    rw [Bool.or_eq_true]
    exact ⟨fun hor => hor.elim id (hwithin b hb),Or.inl⟩
  have hle := countOf_le way hlevel (ofComparison result)
  refine ⟨?_,hself⟩
  rw [subjectCount_push, if_pos hshares, hsame]
  omega

/-- The subject of the new record is full and nothing else is concerned: its oldest
record goes, and that is all. -/
theorem crowded_evicts_oldest (hlevel : h.Level) {result : StoredComparison}
    (hcap : 1 ≤ h.limits.maxHistoryPerGroup)
    (hfull : h.limits.maxHistoryPerGroup ≤ h.countOf p (ofComparison result))
    (hwithin : ∀ a ∈ h.records,
      q (ofComparison result) a = true → p (ofComparison result) a = true) :
    ∃ front record back, h.records = front ++ record :: back ∧
      (h.push result).worst.2 = some front.length ∧
      h.limits.maxHistoryPerGroup < (h.push result).countOf p record ∧
      (∀ a ∈ front, p record a = false) ∧ ((h.push result).evict front.length).Level := by
  obtain ⟨hself,hshares⟩ := subjectCount_push_self way hlevel hcap hfull hwithin
  have hcrowded : ∀ a ∈ h.records, p (ofComparison result) a = true →
      (h.push result).subjectCount a = h.limits.maxHistoryPerGroup + 1 :=
    fun a hmem ha => subjectCount_push_of_crowded way hlevel hfull hmem ha
  have hapart : ∀ a ∈ h.records, p (ofComparison result) a = false →
      (h.push result).subjectCount a ≤ h.limits.maxHistoryPerGroup :=
    fun a hmem ha => subjectCount_push_of_apart way hlevel hwithin hmem ha
  obtain ⟨oldest,holdest,hshared⟩ := List.countP_pos_iff.mp
    (show 0 < h.countOf p (ofComparison result) by omega)
  rw [worst_eq_scan]
  rcases Peaks.scan_cases (h.push result).limits.maxHistoryPerGroup (h.push result).subjectCount
    (h.push result).records with ⟨-,hall⟩ | ⟨front,record,back,hpeak,hscan⟩
  · have hover : (h.push result).subjectCount oldest ≤ h.limits.maxHistoryPerGroup :=
      hall oldest (List.mem_append_left _ holdest)
    rw [hcrowded oldest holdest hshared] at hover
    omega
  · have hsplit : h.records ++ [ofComparison result] = front ++ record :: back := hpeak.split
    have habove : h.limits.maxHistoryPerGroup < (h.push result).subjectCount record := hpeak.above
    have hmeasure : p (ofComparison result) record = true ∧
        (h.push result).subjectCount record = h.limits.maxHistoryPerGroup + 1 := by
      have hmem : record ∈ h.records ++ [ofComparison result] :=
        hsplit ▸ List.mem_append_right _ List.mem_cons_self
      rcases List.mem_append.mp hmem with hold | hnew
      · cases hp : p (ofComparison result) record with
        | true => exact ⟨rfl,hcrowded record hold hp⟩
        | false => exact absurd (hapart record hold hp) (not_le.mpr habove)
      · rw [List.mem_singleton.mp hnew]
        exact ⟨hshares,hself⟩
    have hfront : ∀ a ∈ front, a ∈ h.records → p (ofComparison result) a = false := by
      intro a hafront hamem
      rw [← Bool.not_eq_true]
      intro ha
      have hlt := hpeak.front_lt a hafront
      rw [hcrowded a hamem ha, hmeasure.2] at hlt
      exact lt_irrefl _ hlt
    rcases List.eq_nil_or_concat back with rfl | ⟨rest,last,rfl⟩
    · obtain ⟨rfl,-⟩ := List.append_inj' hsplit rfl
      rw [hfront oldest holdest holdest] at hshared
      cases hshared
    · rw [List.concat_eq_append, ← List.cons_append, ← List.append_assoc] at hsplit
      obtain ⟨hrecords,hlast⟩ := List.append_inj' hsplit rfl
      refine ⟨front,record,rest,hrecords,congrArg Prod.snd hscan,?_,fun a ha => ?_,?_⟩
      · have hjoins : p record (ofComparison result) = true := by
          rw [way.symm]
          exact hmeasure.1
        rw [countOf_push, ← countOf_congr way h hmeasure.1, if_pos hjoins]
        omega
      · rw [← way.trans _ _ _ hmeasure.1]
        exact hfront a ha (hrecords ▸ List.mem_append_left _ ha)
      · intro a ha
        have hmem : a ∈ h.records ++ [ofComparison result] :=
          (List.eraseIdx_sublist _ _).subset ha
        have hcount := subjectCount_evict (h := h.push result) hpeak.split a
        show ((h.push result).evict front.length).subjectCount a ≤ h.limits.maxHistoryPerGroup
        cases hp : p (ofComparison result) a with
        | true =>
          have hback : record.sameSubject a.group a.path = true := by
            rw [way.shares, ← way.trans _ _ _ hp, hmeasure.1, Bool.true_or]
          have hover : (h.push result).subjectCount a = h.limits.maxHistoryPerGroup + 1 := by
            rcases List.mem_append.mp hmem with hold | hnew
            · exact hcrowded a hold hp
            · rw [List.mem_singleton.mp hnew]
              exact hself
          rw [hover, if_pos hback] at hcount
          omega
        | false =>
          rcases List.mem_append.mp hmem with hold | hnew
          · have hle := hapart a hold hp
            omega
          · rw [List.mem_singleton.mp hnew, hshares] at hp
            cases hp

/-- What is shared in both ways together is more where one way adds a record. -/
theorem countOf_lt_subjectCount {x b : HistoryRecord} (hmem : b ∈ h.records)
    (hq : q x b = true) (hp : p x b = false) : h.countOf p x < h.subjectCount x := by
  have hinside : (h.records.filter (p x)).countP (fun a => p x a || q x a) = h.countOf p x := by
    rw [List.countP_filter, countOf]
    refine List.countP_congr fun a _ => ?_
    rw [Bool.and_eq_true, Bool.or_eq_true]
    exact ⟨And.right,fun ha => ⟨Or.inl ha,ha⟩⟩
  have houtside : 0 <
      (h.records.filter (fun a => !p x a)).countP (fun a => p x a || q x a) := by
    refine List.countP_pos_iff.mpr ⟨b,List.mem_filter.mpr ⟨hmem,?_⟩,?_⟩
    · rw [hp]
      rfl
    · rw [hq, Bool.or_true]
  have hsum := h.records.countP_eq_countP_filter_add (fun a => p x a || q x a) (p x)
  rw [subjectCount_eq way, hsum, hinside]
  exact Nat.lt_add_of_pos_right houtside

/-- If the oldest record of a crowded subject goes first, the subject is the new record's
and nothing else is on its other side. -/
theorem crowded_of_oldest (hlevel : h.Level) {result : StoredComparison}
    (hcap : 1 ≤ h.limits.maxHistoryPerGroup) {front back : List HistoryRecord}
    {record : HistoryRecord}
    (hpeak : Peaks.Peak h.limits.maxHistoryPerGroup (h.push result).subjectCount
      (h.push result).records front back record)
    (hover : h.limits.maxHistoryPerGroup < (h.push result).countOf p record)
    (hfirst : ∀ a ∈ front, p record a = false) :
    h.limits.maxHistoryPerGroup ≤ h.countOf p (ofComparison result) ∧
      ∀ a ∈ h.records, q (ofComparison result) a = true → p (ofComparison result) a = true := by
  have hle := countOf_le way hlevel record
  rw [countOf_push] at hover
  have hjoins : p record (ofComparison result) = true := by
    by_contra hnot
    rw [if_neg hnot] at hover
    omega
  rw [if_pos hjoins] at hover
  have hfull : h.limits.maxHistoryPerGroup ≤ h.countOf p (ofComparison result) := by
    rw [← countOf_congr way h hjoins]
    omega
  refine ⟨hfull,fun b hb hq => ?_⟩
  by_contra hp
  have hself : p (ofComparison result) (ofComparison result) = true := by
    rw [← way.trans _ _ _ hjoins]
    exact hjoins
  have hshares : (ofComparison result).sameSubject (ofComparison result).group
      (ofComparison result).path = true := by
    rw [way.shares, hself, Bool.true_or]
  -- the new record alone shares with more than the cap and one
  have hmost : h.limits.maxHistoryPerGroup + 1 <
      (h.push result).subjectCount (ofComparison result) := by
    have hlt := countOf_lt_subjectCount way hb hq (Bool.not_eq_true _ ▸ hp)
    rw [subjectCount_push, if_pos hshares]
    omega
  have hsplit : h.records ++ [ofComparison result] = front ++ record :: back := hpeak.split
  have hbound : (h.push result).subjectCount (ofComparison result) ≤
      (h.push result).subjectCount record := by
    have hmem : ofComparison result ∈ front ++ record :: back :=
      hsplit ▸ List.mem_append_right _ (List.mem_singleton_self _)
    rcases List.mem_append.mp hmem with hin | hin
    · exact (hpeak.front_lt _ hin).le
    · rcases List.mem_cons.mp hin with heq | hin
      · rw [heq]
      · exact hpeak.back_le _ hin
  have hold : record ∈ h.records := by
    rcases List.eq_nil_or_concat back with rfl | ⟨rest,last,rfl⟩
    · obtain ⟨rfl,-⟩ := List.append_inj' hsplit rfl
      obtain ⟨a,hmem,ha⟩ := List.countP_pos_iff.mp
        (show 0 < h.countOf p (ofComparison result) by omega)
      rw [← way.trans _ _ _ hjoins, hfirst a hmem] at ha
      cases ha
    · rw [List.concat_eq_append, ← List.cons_append, ← List.append_assoc] at hsplit
      obtain ⟨hrecords,-⟩ := List.append_inj' hsplit rfl
      exact hrecords ▸ List.mem_append_right _ List.mem_cons_self
  have hrecord := hlevel record hold
  have hpushed := subjectCount_push h result record
  split_ifs at hpushed <;> omega

end Way

/-- Where every subject of the record is below its cap, nothing goes over one. -/
theorem push_level_iff (hlevel : h.Level) (hcap : 1 ≤ h.limits.maxHistoryPerGroup)
    (result : StoredComparison) : (h.push result).Level ↔
      h.subjectCount (ofComparison result) < h.limits.maxHistoryPerGroup ∧
        ∀ a ∈ h.records, a.sameSubject (ofComparison result).group (ofComparison result).path = true →
          h.subjectCount a < h.limits.maxHistoryPerGroup := by
  have hsymm : ∀ x a : HistoryRecord,
      a.sameSubject x.group x.path = x.sameSubject a.group a.path := by
    intro x a
    rw [sameSubject_eq, sameSubject_eq, inGroupOf_symm, onPathOf_symm]
  constructor
  · intro hpushed
    refine ⟨?_,fun a hmem ha => ?_⟩
    · by_contra hfull
      obtain ⟨a,-,ha⟩ := List.countP_pos_iff.mp
        (show 0 < h.subjectCount (ofComparison result) by omega)
      have hself : (ofComparison result).sameSubject (ofComparison result).group
          (ofComparison result).path = true := by
        rw [sameSubject_eq, Bool.or_eq_true] at ha ⊢
        refine ha.imp (fun hg => ?_) (fun hp => ?_)
        · rw [way_group.trans _ _ _ hg, inGroupOf_symm]
          exact hg
        · rw [way_path.trans _ _ _ hp, onPathOf_symm]
          exact hp
      have hle := hpushed (ofComparison result) (List.mem_append_right _ (List.mem_singleton_self _))
      rw [subjectCount_push, if_pos hself] at hle
      exact hfull hle
    · have hle := hpushed a (List.mem_append_left _ hmem)
      rw [subjectCount_push, ← hsymm, if_pos ha] at hle
      exact hle
  · rintro ⟨hself,hothers⟩ a ha
    show (h.push result).subjectCount a ≤ h.limits.maxHistoryPerGroup
    rw [subjectCount_push]
    rcases List.mem_append.mp ha with hold | hnew
    · have hle := hlevel a hold
      split_ifs with hshared
      · exact hothers a hold (by rw [hsymm]; exact hshared)
      · exact hle
    · rw [List.mem_singleton.mp hnew]
      split_ifs <;> omega

theorem evictSubjects_of_level (hlevel : h.Level) (rounds : ℕ) : evictSubjects rounds h = h := by
  cases rounds with
  | zero => rfl
  | succ rounds => rw [evictSubjects_succ, worst_eq_none_iff.mpr hlevel]

theorem evictsOldest_of_level (hlevel : h.Level) (rounds : ℕ) : EvictsOldest rounds h := by
  cases rounds with
  | zero => trivial
  | succ rounds =>
    unfold EvictsOldest
    rw [worst_eq_none_iff.mpr hlevel]
    trivial

/-- The last record outlives the global cap. -/
theorem evictOldest_keeps_last (hall : 1 ≤ h.limits.maxHistoryRecords)
    {front : List HistoryRecord} {last : HistoryRecord} (hrecords : h.records = front ++ [last]) :
    ∃ kept, kept.Sublist front ∧ h.evictOldest.records = kept ++ [last] := by
  have hexcess : h.records.length - h.limits.maxHistoryRecords ≤ front.length := by
    rw [hrecords, List.length_append, List.length_singleton]
    omega
  refine ⟨front.drop (h.records.length - h.limits.maxHistoryRecords),List.drop_sublist _ _,?_⟩
  rw [← List.drop_append_of_le_length hexcess, ← hrecords]
  rfl

theorem append_rounds (h : HistoryStore) (result : StoredComparison) :
    (h.push result).records.length = h.records.length + 1 := by
  rw [push, List.length_append, List.length_singleton]

/-- Where the loop evicts the oldest record of a full subject and stops, the new record
stays. -/
theorem keepsNewest_of_crowded (hall : 1 ≤ h.limits.maxHistoryRecords) {result : StoredComparison}
    {front back : List HistoryRecord} {record : HistoryRecord}
    (hrecords : h.records = front ++ record :: back)
    (hworst : (h.push result).worst.2 = some front.length)
    (holdest : (h.push result).OldestOfCrowded front.length)
    (hlevel : ((h.push result).evict front.length).Level) : h.KeepsNewest result := by
  have hleft : ((h.push result).evict front.length).records =
      front ++ back ++ [ofComparison result] := by
    unfold evict push
    rw [hrecords]
    simp [List.eraseIdx_append_of_length_le]
  refine ⟨?_,?_⟩
  · rw [append_eq, append_rounds, evictSubjects_succ, hworst]
    simp only [evictSubjects_of_level hlevel]
    obtain ⟨kept,hkept,hlast⟩ := evictOldest_keeps_last
      (h := (h.push result).evict front.length) hall hleft
    refine ⟨kept,hkept.trans ?_,hlast⟩
    rw [hrecords]
    exact (List.sublist_cons_self record back).append_left front
  · rw [append_rounds]
    unfold EvictsOldest
    rw [hworst]
    exact ⟨holdest,evictsOldest_of_level hlevel _⟩

theorem keepsNewest_of_orderly (hlevel : h.Level) (hcap : 1 ≤ h.limits.maxHistoryPerGroup)
    (hall : 1 ≤ h.limits.maxHistoryRecords) {result : StoredComparison}
    (horderly : h.Orderly (ofComparison result)) : h.KeepsNewest result := by
  rcases horderly with hroom | ⟨hfull,hwithin⟩ | ⟨hfull,hwithin⟩
  · have hpushed := (push_level_iff hlevel hcap result).mpr hroom
    refine ⟨?_,evictsOldest_of_level hpushed _⟩
    rw [append_eq, evictSubjects_of_level hpushed]
    exact evictOldest_keeps_last (h := h.push result) hall rfl
  · obtain ⟨front,record,back,hrecords,hworst,hover,hfirst,hleft⟩ :=
      crowded_evicts_oldest way_group hlevel hcap hfull hwithin
    refine keepsNewest_of_crowded hall hrecords hworst
      ⟨front,record,back ++ [ofComparison result],?_,rfl,Or.inl ⟨hover,hfirst⟩⟩ hleft
    rw [push, hrecords, List.append_assoc, List.cons_append]
  · obtain ⟨front,record,back,hrecords,hworst,hover,hfirst,hleft⟩ :=
      crowded_evicts_oldest way_path hlevel hcap hfull hwithin
    refine keepsNewest_of_crowded hall hrecords hworst
      ⟨front,record,back ++ [ofComparison result],?_,rfl,Or.inr ⟨hover,hfirst⟩⟩ hleft
    rw [push, hrecords, List.append_assoc, List.cons_append]

theorem orderly_of_evictsOldest (hlevel : h.Level) (hcap : 1 ≤ h.limits.maxHistoryPerGroup)
    {result : StoredComparison} (hoperates : EvictsOldest (h.records.length + 1) (h.push result)) :
    h.Orderly (ofComparison result) := by
  unfold EvictsOldest at hoperates
  cases hworst : (h.push result).worst.2 with
  | none => exact Or.inl ((push_level_iff hlevel hcap result).mp (worst_eq_none_iff.mp hworst))
  | some index =>
    rw [hworst] at hoperates
    obtain ⟨⟨front,record,back,hsplit,hindex,hoverfull⟩,-⟩ := hoperates
    rw [worst_eq_scan] at hworst
    rcases Peaks.scan_cases (h.push result).limits.maxHistoryPerGroup (h.push result).subjectCount
      (h.push result).records with ⟨hscan,-⟩ | ⟨before,picked,behind,hpeak,hscan⟩
    · rw [hscan] at hworst
      cases hworst
    · rw [hscan] at hworst
      have hlength : before.length = front.length := by
        rw [hindex]
        exact Option.some.inj hworst
      obtain ⟨rfl,hrest⟩ := List.append_inj (hpeak.split.symm.trans hsplit) hlength
      obtain ⟨rfl,rfl⟩ := List.cons.inj hrest
      rcases hoverfull with ⟨hover,hfirst⟩ | ⟨hover,hfirst⟩
      · exact Or.inr (Or.inl (crowded_of_oldest way_group hlevel hcap hpeak hover hfirst))
      · exact Or.inr (Or.inr (crowded_of_oldest way_path hlevel hcap hpeak hover hfirst))

/-- The store after the results were appended one after the other. -/
def appendAll (limits : Limits) (results : List StoredComparison) : HistoryStore :=
  results.foldl append { limits := limits }

theorem appendAll_eq_run (limits : Limits) (results : List StoredComparison) :
    appendAll limits results = run limits (results.map Call.append) := by
  rw [appendAll, run, List.foldl_map]
  rfl

/-- An append keeps the new record and evicts by age within a crowded subject exactly
when it is orderly. -/
theorem newest_kept_iff {limits : Limits} (hcap : 1 ≤ limits.maxHistoryPerGroup)
    (hall : 1 ≤ limits.maxHistoryRecords) (results : List StoredComparison)
    (result : StoredComparison) :
    (appendAll limits results).KeepsNewest result ↔
      (appendAll limits results).Orderly (ofComparison result) := by
  have hrun := run_accounted limits (results.map Call.append)
  rw [← appendAll_eq_run] at hrun
  rw [← hrun.limits_eq] at hcap hall
  refine ⟨fun hkeeps => ?_,fun horderly => ?_⟩
  · have hoperates := hkeeps.oldest
    rw [append_rounds] at hoperates
    exact orderly_of_evictsOldest hrun.level hcap hoperates
  · exact keepsNewest_of_orderly hrun.level hcap hall horderly

/-- One record for each group and each path. -/
def oneEach : Limits := { maxHistoryPerGroup := 1 }

def onGroup : StoredComparison := { group := ⟨⟨1⟩⟩, evaluatedAt := ⟨1⟩ }

def onPath : StoredComparison := { path := ⟨⟨2⟩⟩, evaluatedAt := ⟨2⟩ }

def onGroupAgain : StoredComparison := { group := ⟨⟨1⟩⟩, evaluatedAt := ⟨3⟩ }

def onBoth : StoredComparison := { group := ⟨⟨1⟩⟩, path := ⟨⟨2⟩⟩, evaluatedAt := ⟨3⟩ }

/-- Of two records of a group the older one goes. -/
theorem newest_kept_in_group : (appendAll oneEach [onGroup,onPath]).KeepsNewest onGroupAgain :=
  (newest_kept_iff (by decide) (by decide) [onGroup,onPath] onGroupAgain).mpr (by decide)

/-- A record of a full group and of a full path is the one that shares with the most: it
is evicted as soon as it is appended. -/
theorem newest_evicted_for_both :
    ¬ (appendAll oneEach [onGroup,onPath]).KeepsNewest onBoth := by
  intro h
  obtain ⟨kept,-,hrecords⟩ := h.newest
  have hlast := congrArg (fun records => records.getLast?.map (·.group)) hrecords
  simp only [List.getLast?_append, List.getLast?_singleton, Option.some_or, Option.map_some] at hlast
  exact absurd hlast (by decide)

end HistoryStore

end PathObservatory
