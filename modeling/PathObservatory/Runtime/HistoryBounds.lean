import PathObservatory.Library.Peaks
import PathObservatory.Runtime.History

/-! # The history stays within its bounds

Every eviction removes one record and counts it. So the eviction loop ends, the
counters account for every record that was appended, and what is left are appended
records in their order.
-/
namespace PathObservatory

namespace HistoryStore
variable {h s t : HistoryStore}

/-- The new record stands at the end. -/
def push (h : HistoryStore) (result : StoredComparison) : HistoryStore :=
  { h with records := h.records ++ [HistoryRecord.ofComparison result] }

theorem append_eq (h : HistoryStore) (result : StoredComparison) :
    h.append result =
      evictOldest (evictSubjects (h.push result).records.length (h.push result)) := rfl

/-- One round of the loop. -/
def evict (h : HistoryStore) (index : ℕ) : HistoryStore :=
  { h with records := h.records.eraseIdx index, evictedByLimit := h.evictedByLimit + 1 }

theorem evictSubjects_succ (rounds : ℕ) (h : HistoryStore) :
    evictSubjects (rounds + 1) h =
      match h.worst.2 with
      | none => h
      | some index => evictSubjects rounds (h.evict index) := rfl

theorem worst_eq_scan (h : HistoryStore) :
    h.worst = Peaks.scan h.limits.maxHistoryPerGroup h.subjectCount h.records := rfl

/-- No record shares its group or its path with more records than the cap allows. -/
def Level (h : HistoryStore) : Prop :=
  ∀ record ∈ h.records, h.subjectCount record ≤ h.limits.maxHistoryPerGroup

theorem worst_eq_none_iff : h.worst.2 = none ↔ h.Level := by
  rw [worst_eq_scan]
  exact Peaks.scan_eq_none_iff _ _

/-- The loop picks a record that is there. -/
theorem index_lt_of_worst {index : ℕ} (hworst : h.worst.2 = some index) :
    index < h.records.length := by
  rw [worst_eq_scan] at hworst
  rcases Peaks.scan_cases h.limits.maxHistoryPerGroup h.subjectCount h.records with
    ⟨hscan,-⟩ | ⟨front,record,back,hpeak,hscan⟩
  · rw [hscan] at hworst
    cases hworst
  · rw [hscan] at hworst
    rw [← Option.some.inj hworst, hpeak.split, List.length_append, List.length_cons]
    omega

/-- With as many rounds as records the loop ends by itself. -/
theorem evictSubjects_level {rounds : ℕ} (hrounds : h.records.length ≤ rounds) :
    (evictSubjects rounds h).Level := by
  induction rounds generalizing h with
  | zero =>
    intro record hrecord
    have hnone : (evictSubjects 0 h).records = [] :=
      List.length_eq_zero_iff.mp (Nat.le_zero.mp hrounds)
    rw [hnone] at hrecord
    cases hrecord
  | succ rounds ih =>
    rw [evictSubjects_succ]
    cases hworst : h.worst.2 with
    | none => exact worst_eq_none_iff.mp hworst
    | some index =>
      have hindex := index_lt_of_worst hworst
      refine ih ?_
      rw [evict, List.length_eraseIdx_of_lt hindex]
      omega

/-- Some records went, each of them counted. -/
structure Shrinks (h s : HistoryStore) (byLimit byWindow : ℕ) : Prop where
  limits : s.limits = h.limits
  sublist : s.records.Sublist h.records
  length : s.records.length + byLimit + byWindow = h.records.length
  byLimit : s.evictedByLimit = h.evictedByLimit + UInt64.ofNat byLimit
  byWindow : s.evictedByWindow = h.evictedByWindow + UInt64.ofNat byWindow

namespace Shrinks
variable {a b c d : ℕ}

theorem refl (h : HistoryStore) : Shrinks h h 0 0 :=
  ⟨rfl,List.Sublist.refl _,rfl,by simp,by simp⟩

theorem trans (hs : Shrinks h s a b) (ht : Shrinks s t c d) : Shrinks h t (a + c) (b + d) where
  limits := ht.limits.trans hs.limits
  sublist := ht.sublist.trans hs.sublist
  length := by
    have hfirst := hs.length
    have hsecond := ht.length
    omega
  byLimit := by rw [ht.byLimit, hs.byLimit, UInt64.ofNat_add, UInt64.add_assoc]
  byWindow := by rw [ht.byWindow, hs.byWindow, UInt64.ofNat_add, UInt64.add_assoc]

/-- Fewer records share a subject. -/
theorem level (hs : Shrinks h s a b) (hlevel : h.Level) : s.Level := by
  intro record hrecord
  rw [hs.limits]
  exact hs.sublist.countP_le.trans (hlevel record (hs.sublist.subset hrecord))

end Shrinks

theorem evict_shrinks {index : ℕ} (hindex : index < h.records.length) :
    Shrinks h (h.evict index) 1 0 := by
  refine ⟨rfl,List.eraseIdx_sublist _ _,?_,rfl,by simp [evict]⟩
  rw [evict, List.length_eraseIdx_of_lt hindex]
  omega

theorem evictSubjects_shrinks (rounds : ℕ) (h : HistoryStore) :
    ∃ gone, Shrinks h (evictSubjects rounds h) gone 0 := by
  induction rounds generalizing h with
  | zero => exact ⟨0,.refl h⟩
  | succ rounds ih =>
    rw [evictSubjects_succ]
    cases hworst : h.worst.2 with
    | none => exact ⟨0,.refl h⟩
    | some index =>
      obtain ⟨gone,hrest⟩ := ih (h.evict index)
      exact ⟨1 + gone,(evict_shrinks (index_lt_of_worst hworst)).trans hrest⟩

theorem evictOldest_shrinks (h : HistoryStore) :
    Shrinks h h.evictOldest (h.records.length - h.limits.maxHistoryRecords) 0 := by
  refine ⟨rfl,List.drop_sublist _ _,?_,rfl,by simp [evictOldest]⟩
  rw [evictOldest, List.length_drop]
  omega

theorem evictOldest_length (h : HistoryStore) :
    h.evictOldest.records.length ≤ h.limits.maxHistoryRecords := by
  rw [evictOldest, List.length_drop]
  omega

/-- What an append leaves of the old records and the new one. -/
theorem append_shrinks (h : HistoryStore) (result : StoredComparison) :
    ∃ gone, Shrinks (h.push result) (h.append result) gone 0 := by
  obtain ⟨gone,hsubjects⟩ := evictSubjects_shrinks (h.push result).records.length (h.push result)
  exact ⟨_,hsubjects.trans (evictOldest_shrinks _)⟩

theorem append_level (h : HistoryStore) (result : StoredComparison) : (h.append result).Level :=
  (evictOldest_shrinks _).level (evictSubjects_level le_rfl)

theorem append_length (h : HistoryStore) (result : StoredComparison) :
    (h.append result).records.length ≤ h.limits.maxHistoryRecords := by
  obtain ⟨gone,hsubjects⟩ := evictSubjects_shrinks (h.push result).records.length (h.push result)
  have hbound := evictOldest_length (evictSubjects (h.push result).records.length (h.push result))
  rwa [hsubjects.limits] at hbound

/-- What a prune that succeeds leaves. -/
theorem prune_eq_ok {now : TimePoint} {removed : ℕ} :
    h.prune now = .ok (removed,s) ↔ now.isSet = true ∧
      s.records = h.records.dropWhile (HistoryRecord.lapsed h.limits.historyWindowNanos now) ∧
      removed = h.records.length - s.records.length ∧
      s = { h with records := s.records,
                   evictedByWindow := h.evictedByWindow + UInt64.ofNat removed } := by
  unfold prune
  simp only [↓require_bind_eq_ok, pure_eq_ok, Prod.mk.injEq]
  constructor
  · rintro ⟨hset,rfl,rfl⟩
    exact ⟨hset,rfl,rfl,rfl⟩
  · rintro ⟨hset,hrecords,hremoved,hs⟩
    refine ⟨hset,?_,?_⟩
    · rw [hremoved, hrecords]
    · rw [hs, ← hrecords, ← hremoved]

theorem prune_shrinks {now : TimePoint} {removed : ℕ} (hprune : h.prune now = .ok (removed,s)) :
    Shrinks h s 0 removed := by
  obtain ⟨-,hrecords,hremoved,hs⟩ := prune_eq_ok.mp hprune
  have hsub : s.records.Sublist h.records := hrecords ▸ List.dropWhile_sublist _
  have hle := hsub.length_le
  refine ⟨by rw [hs],hsub,by omega,by rw [hs]; simp,by rw [hs]⟩

/-- A call of the store. -/
inductive Call
  | append (result : StoredComparison)
  | prune (now : TimePoint)
deriving DecidableEq, Repr

/-- The state a call leaves. -/
def perform (h : HistoryStore) : Call → HistoryStore
  | .append result => h.append result
  | .prune now =>
    match h.prune now with
    | .ok (_,pruned) => pruned
    | .error _ => h

def run (limits : Limits) (calls : List Call) : HistoryStore :=
  calls.foldl perform { limits := limits }

/-- The record a call appends. -/
def Call.record : Call → Option HistoryRecord
  | .append result => some (HistoryRecord.ofComparison result)
  | .prune _ => none

/-- The records appended by the calls, in their order. -/
def appended (calls : List Call) : List HistoryRecord := calls.filterMap Call.record

/-- The store is within its bounds and accounts for what was offered to it. -/
structure Accounted (limits : Limits) (offered : List HistoryRecord) (h : HistoryStore) :
    Prop where
  limits_eq : h.limits = limits
  level : h.Level
  length_le : h.records.length ≤ limits.maxHistoryRecords
  sublist : h.records.Sublist offered
  counted : ∃ byLimit byWindow : ℕ, h.evictedByLimit = UInt64.ofNat byLimit ∧
    h.evictedByWindow = UInt64.ofNat byWindow ∧
    h.records.length + byLimit + byWindow = offered.length

theorem Accounted.shrink {limits : Limits} {offered : List HistoryRecord} {a b : ℕ}
    (hh : Accounted limits offered h) (hs : Shrinks h s a b) : Accounted limits offered s := by
  obtain ⟨byLimit,byWindow,hlimit,hwindow,htotal⟩ := hh.counted
  have hlength := hs.length
  refine ⟨hs.limits.trans hh.limits_eq,hs.level hh.level,hs.sublist.length_le.trans hh.length_le,
    hs.sublist.trans hh.sublist,byLimit + a,byWindow + b,?_,?_,by omega⟩
  · rw [hs.byLimit, hlimit, UInt64.ofNat_add]
  · rw [hs.byWindow, hwindow, UInt64.ofNat_add]

theorem Accounted.append {limits : Limits} {offered : List HistoryRecord}
    (hh : Accounted limits offered h) (result : StoredComparison) :
    Accounted limits (offered ++ [HistoryRecord.ofComparison result]) (h.append result) := by
  obtain ⟨byLimit,byWindow,hlimit,hwindow,htotal⟩ := hh.counted
  obtain ⟨gone,hgone⟩ := h.append_shrinks result
  have hlength := hgone.length
  rw [push, List.length_append, List.length_singleton] at hlength
  refine ⟨hgone.limits.trans hh.limits_eq,h.append_level result,?_,?_,byLimit + gone,byWindow,
    ?_,?_,?_⟩
  · rw [← hh.limits_eq]
    exact h.append_length result
  · exact hgone.sublist.trans (hh.sublist.append_right _)
  · rw [hgone.byLimit, push, hlimit, UInt64.ofNat_add]
  · rw [hgone.byWindow, push, hwindow]
    simp
  · rw [List.length_append, List.length_singleton]
    omega

theorem Accounted.perform {limits : Limits} {offered : List HistoryRecord}
    (hh : Accounted limits offered h) (call : Call) :
    Accounted limits (offered ++ call.record.toList) (h.perform call) := by
  cases call with
  | append result => exact hh.append result
  | prune now =>
    have hnone : offered ++ (Call.prune now).record.toList = offered := List.append_nil _
    rw [hnone]
    unfold HistoryStore.perform
    simp only
    split
    · rename_i removed pruned hprune
      exact hh.shrink (prune_shrinks hprune)
    · exact hh

theorem run_concat (limits : Limits) (calls : List Call) (call : Call) :
    run limits (calls ++ [call]) = (run limits calls).perform call := by
  rw [run, List.foldl_append]
  rfl

theorem run_accounted (limits : Limits) (calls : List Call) :
    Accounted limits (appended calls) (run limits calls) := by
  induction calls using List.reverseRecOn with
  | nil => exact ⟨rfl,nofun,Nat.zero_le _,List.Sublist.refl _,0,0,rfl,rfl,rfl⟩
  | append_singleton calls call ih =>
    rw [run_concat, appended, List.filterMap_append]
    have hone : List.filterMap Call.record [call] = call.record.toList := by
      cases call <;> rfl
    rw [hone]
    exact ih.perform call

/-- The records of a group, or of a path, are among those that share a subject. -/
theorem Level.countP_le (hlevel : h.Level) {p : HistoryRecord → Bool}
    (hshared : ∀ a b, p a = true → p b = true → b.sameSubject a.group a.path = true) :
    h.records.countP p ≤ h.limits.maxHistoryPerGroup := by
  by_cases hsome : ∃ a ∈ h.records, p a = true
  · obtain ⟨a,hmem,ha⟩ := hsome
    refine le_trans (List.countP_mono_left fun b _ hb => ?_) (hlevel a hmem)
    exact hshared a b ha hb
  · rw [List.countP_eq_zero.mpr fun a hmem ha => hsome ⟨a,hmem,ha⟩]
    exact Nat.zero_le _

theorem Level.group_le (hlevel : h.Level) {group : MaybeId .pathGroup}
    (hgroup : group.present = true) :
    h.records.countP (·.group = group) ≤ h.limits.maxHistoryPerGroup := by
  refine hlevel.countP_le fun a b ha hb => ?_
  rw [decide_eq_true_eq] at ha hb
  simp [HistoryRecord.sameSubject, ha, hb, hgroup]

theorem Level.path_le (hlevel : h.Level) {path : MaybeId .path} (hpath : path.present = true) :
    h.records.countP (·.path = path) ≤ h.limits.maxHistoryPerGroup := by
  refine hlevel.countP_le fun a b ha hb => ?_
  rw [decide_eq_true_eq] at ha hb
  simp [HistoryRecord.sameSubject, ha, hb, hpath]

/-- After any calls the eviction loop of an append ends, the store is within its three
bounds, what was appended is stored or counted as evicted, and what is stored was
appended in this order. -/
theorem history_bounded_and_accounted (limits : Limits) (calls : List Call) :
    (∀ result : StoredComparison, (evictSubjects ((run limits calls).push result).records.length
      ((run limits calls).push result)).worst.2 = none) ∧
    (run limits calls).records.length ≤ limits.maxHistoryRecords ∧
    (∀ group : MaybeId .pathGroup, group.present = true →
      (run limits calls).records.countP (·.group = group) ≤ limits.maxHistoryPerGroup) ∧
    (∀ path : MaybeId .path, path.present = true →
      (run limits calls).records.countP (·.path = path) ≤ limits.maxHistoryPerGroup) ∧
    UInt64.ofNat (appended calls).length = UInt64.ofNat (run limits calls).records.length +
      (run limits calls).evictedByLimit + (run limits calls).evictedByWindow ∧
    ((appended calls).length < 2 ^ 64 →
      (appended calls).length = (run limits calls).records.length +
        (run limits calls).evictedByLimit.toNat + (run limits calls).evictedByWindow.toNat) ∧
    (run limits calls).records.Sublist (appended calls) := by
  have hrun := run_accounted limits calls
  obtain ⟨byLimit,byWindow,hlimit,hwindow,htotal⟩ := hrun.counted
  refine ⟨fun result => worst_eq_none_iff.mpr (evictSubjects_level le_rfl),hrun.length_le,
    fun group hgroup => ?_,fun path hpath => ?_,?_,fun hfew => ?_,hrun.sublist⟩
  · exact (hrun.level.group_le hgroup).trans_eq (congrArg Limits.maxHistoryPerGroup hrun.limits_eq)
  · exact (hrun.level.path_le hpath).trans_eq (congrArg Limits.maxHistoryPerGroup hrun.limits_eq)
  · rw [hlimit, hwindow, ← htotal, UInt64.ofNat_add, UInt64.ofNat_add]
  · rw [hlimit, hwindow, UInt64.toNat_ofNat_of_lt', UInt64.toNat_ofNat_of_lt', htotal]
    · exact lt_of_le_of_lt (by omega) hfew
    · exact lt_of_le_of_lt (by omega) hfew

end HistoryStore

end PathObservatory
