import PathObservatory.Runtime.HistoryEviction

/-! # Queries and the aggregation window

A query puts every stored record into one of three classes and returns the newest of
those it selects. Pruning stops at the first record within the window, so it finds all
that are older only where they stand in front.
-/
namespace PathObservatory
open Ranking

namespace HistoryRecord

/-- The comparator of a query is the order by time and then by identity, both downwards. -/
theorem ranksBy_newestFirst : RanksBy newestFirst
    (fun record => toLex (OrderDual.toDual record.evaluatedAt,OrderDual.toDual record.id)) := by
  intro a b
  rw [Prod.Lex.toLex_lt_toLex]
  unfold newestFirst
  by_cases h : a.evaluatedAt = b.evaluatedAt
  · simp [h]
  · simp [h]

/-- Evaluated more than the window before this time. -/
def Outdated (window : ℕ) (now : TimePoint) (record : HistoryRecord) : Prop :=
  record.evaluatedAt.isSet = true ∧
    (window : ℤ) < now.unixNanos.toInt - record.evaluatedAt.unixNanos.toInt

instance (window : ℕ) (now : TimePoint) (record : HistoryRecord) :
    Decidable (Outdated window now record) := inferInstanceAs (Decidable (_ ∧ _))

/-- A machine difference that fits the machine is the difference. -/
theorem lapsed_iff_outdated {window : ℕ} {now : TimePoint} {record : HistoryRecord}
    (hfits : -2 ^ 63 ≤ now.unixNanos.toInt - record.evaluatedAt.unixNanos.toInt ∧
      now.unixNanos.toInt - record.evaluatedAt.unixNanos.toInt < 2 ^ 63) :
    record.lapsed window now = true ↔ Outdated window now record := by
  have hage : (now.unixNanos - record.evaluatedAt.unixNanos).toInt =
      now.unixNanos.toInt - record.evaluatedAt.unixNanos.toInt := by
    rw [Int64.toInt_sub, Int.bmod_eq_of_le]
    · exact hfits.1
    · exact hfits.2
  unfold lapsed Outdated
  rw [Bool.and_eq_true, Bool.and_eq_true, decide_eq_true_eq, decide_eq_true_eq, and_assoc,
    Int64.lt_iff_toInt_lt, hage]
  refine and_congr_right fun _ => ?_
  have hzero : (0 : Int64).toInt = 0 := rfl
  omega

end HistoryRecord

namespace HistoryQuery

/-- The record is about what the query asks for, and of the time it asks for. -/
structure Asks (request : HistoryQuery) (record : HistoryRecord) : Prop where
  subject : request.group.present = true ∨ request.path.present = true →
    record.sameSubject request.group request.path = true
  generation : request.generation.present = true →
    record.generation = request.generation.value
  since : request.since.isSet = true → record.evaluatedAt.isSet = true →
    request.since ≤ record.evaluatedAt
  outcome : request.filterByOutcome = true → record.outcome = request.outcomeFilter

instance (request : HistoryQuery) (record : HistoryRecord) : Decidable (request.Asks record) :=
  decidable_of_iff
    ((request.group.present = true ∨ request.path.present = true →
        record.sameSubject request.group request.path = true) ∧
      (request.generation.present = true → record.generation = request.generation.value) ∧
      (request.since.isSet = true → record.evaluatedAt.isSet = true →
        request.since ≤ record.evaluatedAt) ∧
      (request.filterByOutcome = true → record.outcome = request.outcomeFilter))
    ⟨fun h => ⟨h.1,h.2.1,h.2.2.1,h.2.2.2⟩,fun h => ⟨h.subject,h.generation,h.since,h.outcome⟩⟩

/-- The query applies a window, and the record has fallen out of it. -/
def Misses (request : HistoryQuery) (window : ℕ) (record : HistoryRecord) : Prop :=
  request.applyWindow = true ∧ request.now.isSet = true ∧
    record.lapsed window request.now = true

instance (request : HistoryQuery) (window : ℕ) (record : HistoryRecord) :
    Decidable (request.Misses window record) := inferInstanceAs (Decidable (_ ∧ _ ∧ _))

/-- A record is excluded by a filter, excluded by the window, or selected. -/
theorem visit_cases (request : HistoryQuery) (window : ℕ) (scan : HistoryScan)
    (record : HistoryRecord) :
    (¬ request.Asks record ∧ request.visit window scan record =
        { scan with excludedByFilter := scan.excludedByFilter + 1 }) ∨
    (request.Asks record ∧ request.Misses window record ∧ request.visit window scan record =
        { scan with excludedByWindow := scan.excludedByWindow + 1 }) ∨
    (request.Asks record ∧ ¬ request.Misses window record ∧ request.visit window scan record =
        { scan with selected := scan.selected ++ [record] }) := by
  unfold visit
  split_ifs with hsubject hgeneration hsince houtcome hwindow
  · refine Or.inl ⟨fun h => ?_,rfl⟩
    simp only [Bool.and_eq_true, Bool.or_eq_true, Bool.not_eq_true'] at hsubject
    rw [h.subject hsubject.1] at hsubject
    exact absurd hsubject.2 (by decide)
  · refine Or.inl ⟨fun h => ?_,rfl⟩
    simp only [Bool.and_eq_true, decide_eq_true_eq] at hgeneration
    exact hgeneration.2 (h.generation hgeneration.1)
  · refine Or.inl ⟨fun h => ?_,rfl⟩
    simp only [Bool.and_eq_true, decide_eq_true_eq] at hsince
    exact not_le.mpr hsince.2 (h.since hsince.1.1 hsince.1.2)
  · refine Or.inl ⟨fun h => ?_,rfl⟩
    simp only [Bool.and_eq_true, decide_eq_true_eq] at houtcome
    exact houtcome.2 (h.outcome houtcome.1)
  all_goals
    have hasks : request.Asks record := by
      simp only [Bool.and_eq_true, Bool.or_eq_true, Bool.not_eq_true', decide_eq_true_eq, not_and,
        Bool.not_eq_false, not_not, not_lt] at hsubject hgeneration hsince houtcome
      exact ⟨hsubject,hgeneration,fun hset hrecord => hsince ⟨hset,hrecord⟩,houtcome⟩
  · simp only [Bool.and_eq_true] at hwindow
    exact Or.inr (Or.inl ⟨hasks,⟨hwindow.1.1,hwindow.1.2,hwindow.2⟩,rfl⟩)
  · refine Or.inr (Or.inr ⟨hasks,fun h => hwindow ?_,rfl⟩)
    rw [h.1, h.2.1, h.2.2]
    rfl

/-- What the query has found after it has looked at the records. -/
theorem foldl_visit (request : HistoryQuery) (window : ℕ) (records : List HistoryRecord) :
    records.foldl (request.visit window) {} =
      { selected := records.filter (fun record =>
          request.Asks record ∧ ¬ request.Misses window record)
        excludedByFilter := records.countP (fun record => ¬ request.Asks record)
        excludedByWindow := records.countP (fun record =>
          request.Asks record ∧ request.Misses window record) } := by
  induction records using List.reverseRecOn with
  | nil => rfl
  | append_singleton records record ih =>
    rw [List.foldl_append, ih, List.foldl_cons, List.foldl_nil]
    rcases request.visit_cases window _ record with ⟨hasks,hvisit⟩ | ⟨hasks,hmisses,hvisit⟩ |
      ⟨hasks,hmisses,hvisit⟩
    · rw [hvisit]
      simp [hasks, List.countP_append]
    · rw [hvisit]
      simp [hasks, hmisses, List.countP_append]
    · rw [hvisit]
      simp [hasks, hmisses, List.countP_append]

/-- The three classes are all there is. -/
theorem classes_add (request : HistoryQuery) (window : ℕ) (records : List HistoryRecord) :
    records.countP (fun record => request.Asks record ∧ ¬ request.Misses window record) +
        records.countP (fun record => ¬ request.Asks record) +
        records.countP (fun record => request.Asks record ∧ request.Misses window record) =
      records.length := by
  induction records with
  | nil => rfl
  | cons record rest ih =>
    rw [List.countP_cons, List.countP_cons, List.countP_cons, List.length_cons, ← ih]
    by_cases hasks : request.Asks record
    · by_cases hmisses : request.Misses window record
      · simp only [hasks, hmisses, not_true, and_false, decide_false, Bool.false_eq_true, if_false,
          and_self, decide_true, if_true]
        omega
      · simp only [hasks, hmisses, not_true, not_false_iff, and_self, decide_true, if_true,
          decide_false, Bool.false_eq_true, if_false, and_false]
        omega
    · simp only [hasks, false_and, decide_false, Bool.false_eq_true, if_false, not_false_iff,
        decide_true, if_true]
      omega

end HistoryQuery

namespace HistoryStore
variable {h s : HistoryStore}

theorem copyBounded_eq (limit : ℕ) (copied records : List HistoryRecord)
    (hcopied : copied.length ≤ limit) :
    copyBounded limit copied records =
      (copied ++ records.take (limit - copied.length),
        decide (limit < copied.length + records.length)) := by
  induction records generalizing copied with
  | nil => simp [copyBounded, hcopied]
  | cons record rest ih =>
    unfold copyBounded
    split_ifs with hfull
    · obtain rfl : limit = copied.length := le_antisymm hfull hcopied
      simp
    · have hroom : (copied ++ [record]).length ≤ limit := by
        rw [List.length_append, List.length_singleton]
        omega
      have hone : limit - copied.length = (limit - (copied ++ [record]).length) + 1 := by
        rw [List.length_append, List.length_singleton]
        omega
      rw [ih _ hroom, hone, List.take_succ_cons, List.append_assoc, List.singleton_append]
      rw [List.length_append, List.length_singleton, List.length_cons]
      congr 2
      exact propext (by omega)

/-- The records of a query, in the order it returns them in. -/
def NewestFirst (records : List HistoryRecord) : Prop :=
  records.Pairwise fun a b => b.evaluatedAt < a.evaluatedAt ∨
    (a.evaluatedAt = b.evaluatedAt ∧ b.id ≤ a.id)

/-- The records that the query selects. -/
def selected (h : HistoryStore) (request : HistoryQuery) : List HistoryRecord :=
  h.records.filter fun record =>
    request.Asks record ∧ ¬ request.Misses h.limits.historyWindowNanos record

theorem query_eq (h : HistoryStore) (sorter : Sorter HistoryRecord.newestFirst)
    (request : HistoryQuery) : h.query sorter request =
      { records := (sorter.sort (h.selected request)).take
          (min request.limit h.limits.maxExportRecords)
        matched := (h.selected request).length
        excludedByWindow := h.records.countP (fun record =>
          request.Asks record ∧ request.Misses h.limits.historyWindowNanos record)
        excludedByFilter := h.records.countP (fun record => ¬ request.Asks record)
        truncated := decide (min request.limit h.limits.maxExportRecords <
          (h.selected request).length) } := by
  have hlength := (sorter.perm (h.selected request)).length_eq
  unfold query
  rw [request.foldl_visit]
  simp only [copyBounded_eq _ [] _ (Nat.zero_le _), List.nil_append, List.length_nil, Nat.sub_zero,
    Nat.zero_add]
  rw [selected] at hlength ⊢
  rw [hlength]

/-- Every stored record is counted once, the answer is the front of the selected records
in their order, and it says when it is not all of them. -/
theorem query_complete (h : HistoryStore) (sorter : Sorter HistoryRecord.newestFirst)
    (request : HistoryQuery) :
    (h.query sorter request).matched + (h.query sorter request).excludedByFilter +
        (h.query sorter request).excludedByWindow = h.records.length ∧
    (h.query sorter request).matched = (h.selected request).length ∧
    (∃ ordered, ordered.Perm (h.selected request) ∧ NewestFirst ordered ∧
      (h.query sorter request).records =
        ordered.take (min request.limit h.limits.maxExportRecords)) ∧
    ((h.query sorter request).truncated = true ↔
      min request.limit h.limits.maxExportRecords < (h.query sorter request).matched) := by
  rw [query_eq]
  refine ⟨?_,rfl,⟨sorter.sort (h.selected request),sorter.perm _,?_,rfl⟩,decide_eq_true_iff⟩
  · rw [← request.classes_add h.limits.historyWindowNanos h.records, selected,
      ← List.countP_eq_length_filter]
  · refine (sorter.sort_pairwise HistoryRecord.ranksBy_newestFirst _).imp fun {a b} hle => ?_
    rcases Prod.Lex.toLex_le_toLex.mp hle with hlt | ⟨heq,hle⟩
    · exact Or.inl (OrderDual.toDual_lt_toDual.mp hlt)
    · exact Or.inr ⟨OrderDual.toDual_inj.mp heq,OrderDual.toDual_le_toDual.mp hle⟩

/-- The prune drops exactly the outdated records and says how many, and a query at its
time then finds none outside the window. -/
def Pruned (h : HistoryStore) (now : TimePoint) : Prop :=
  ∃ removed s, h.prune now = .ok (removed,s) ∧
    s.records = h.records.filter
      (fun record => ¬ HistoryRecord.Outdated h.limits.historyWindowNanos now record) ∧
    removed = h.records.countP (HistoryRecord.Outdated h.limits.historyWindowNanos now) ∧
    ∀ (sorter : Sorter HistoryRecord.newestFirst) (request : HistoryQuery), request.now = now →
      request.applyWindow = true → (s.query sorter request).excludedByWindow = 0

/-- The outdated records stand in front, and the machine age of every record tells
whether it is outdated. -/
structure InOrder (h : HistoryStore) (now : TimePoint) : Prop where
  front : h.records.Pairwise fun earlier later =>
    HistoryRecord.Outdated h.limits.historyWindowNanos now later →
      HistoryRecord.Outdated h.limits.historyWindowNanos now earlier
  age : ∀ record ∈ h.records, record.lapsed h.limits.historyWindowNanos now = true ↔
    HistoryRecord.Outdated h.limits.historyWindowNanos now record

/-- No query with a window excludes a record exactly when none has lapsed. -/
theorem excludedByWindow_eq_zero_iff {now : TimePoint} (hset : now.isSet = true) :
    (∀ (sorter : Sorter HistoryRecord.newestFirst) (request : HistoryQuery), request.now = now →
      request.applyWindow = true → (h.query sorter request).excludedByWindow = 0) ↔
    ∀ record ∈ h.records, record.lapsed h.limits.historyWindowNanos now = false := by
  constructor
  · intro hnone record hmem
    have hzero := hnone (Sorter.insertion HistoryRecord.ranksBy_newestFirst)
      { now := now, applyWindow := true } rfl rfl
    rw [query_eq] at hzero
    have hkept := List.countP_eq_zero.mp hzero record hmem
    rw [decide_eq_true_eq, not_and] at hkept
    have hasks : HistoryQuery.Asks { now := now, applyWindow := true } record := by
      refine ⟨fun hsubject => ?_,nofun,nofun,nofun⟩
      rcases hsubject with hgroup | hpath
      · cases hgroup
      · cases hpath
    rw [← Bool.not_eq_true]
    exact fun hlapsed => hkept hasks ⟨rfl,hset,hlapsed⟩
  · intro hnone sorter request hnow _
    rw [query_eq]
    refine List.countP_eq_zero.mpr fun record hmem hexcluded => ?_
    have hlapsed := (of_decide_eq_true hexcluded).2.2.2
    rw [hnow, hnone record hmem] at hlapsed
    cases hlapsed

/-- What a prune at a set time returns. -/
theorem prune_of_isSet (h : HistoryStore) {now : TimePoint} (hset : now.isSet = true) :
    ∃ s, h.prune now = .ok (h.records.length - s.records.length,s) ∧
      s.limits = h.limits ∧
      s.records = h.records.dropWhile (HistoryRecord.lapsed h.limits.historyWindowNanos now) := by
  exact ⟨{ h with
    records := h.records.dropWhile (HistoryRecord.lapsed h.limits.historyWindowNanos now)
    evictedByWindow := h.evictedByWindow + UInt64.ofNat (h.records.length -
      (h.records.dropWhile (HistoryRecord.lapsed h.limits.historyWindowNanos now)).length) },
    prune_eq_ok.mpr ⟨hset,rfl,rfl,rfl⟩,rfl,rfl⟩

/-- Where the outdated records stand in front, dropping from the front drops them. -/
theorem dropWhile_eq_filter {p : HistoryRecord → Bool} {records : List HistoryRecord}
    (hfront : records.Pairwise fun earlier later => p later = true → p earlier = true) :
    records.dropWhile p = records.filter fun record => !p record := by
  induction records with
  | nil => rfl
  | cons record rest ih =>
    rw [List.pairwise_cons] at hfront
    cases hp : p record with
    | true =>
      rw [List.dropWhile_cons_of_pos hp, List.filter_cons_of_neg (by simp [hp]), ih hfront.2]
    | false =>
      rw [List.dropWhile_cons_of_neg (by simp [hp])]
      refine (List.filter_eq_self.mpr fun later hmem => ?_).symm
      rcases List.mem_cons.mp hmem with rfl | hrest
      · rw [hp]
        rfl
      · rw [Bool.not_eq_true', ← Bool.not_eq_true]
        intro hlater
        rw [hfront.1 later hrest hlater] at hp
        cases hp

/-- What is kept and the rest are all there is. -/
theorem countP_eq_length_sub (p : HistoryRecord → Prop) [DecidablePred p]
    (records : List HistoryRecord) :
    records.countP p = records.length - (records.filter fun record => ¬ p record).length := by
  have hall := List.length_eq_countP_add_countP (p := fun record => decide (p record)) (l := records)
  have hrest : records.countP (fun record => ¬ decide (p record) = true) =
      records.countP fun record => ¬ p record := by
    simp only [decide_eq_true_eq]
  rw [← List.countP_eq_length_filter, hall, hrest]
  exact (Nat.add_sub_cancel _ _).symm

/-- Where no kept record is outdated and every dropped one is, the store was in order. -/
theorem Pruned.inOrder {now : TimePoint} (hset : now.isSet = true) (hpruned : h.Pruned now) :
    h.InOrder now := by
  obtain ⟨s,hprune,hlimits,hrecords⟩ := h.prune_of_isSet hset
  obtain ⟨removed,left,hleft,hkept,-,hnone⟩ := hpruned
  obtain ⟨-,rfl⟩ := Prod.mk.inj (Except.ok.inj (hprune.symm.trans hleft))
  have hfresh := (excludedByWindow_eq_zero_iff hset).mp hnone
  rw [hlimits] at hfresh
  have hall := List.takeWhile_append_dropWhile
    (p := HistoryRecord.lapsed h.limits.historyWindowNanos now) (l := h.records)
  rw [← hrecords] at hall
  have hwithin : ∀ record ∈ s.records,
      ¬ HistoryRecord.Outdated h.limits.historyWindowNanos now record := by
    intro record hmem
    rw [hkept] at hmem
    exact of_decide_eq_true (List.mem_filter.mp hmem).2
  have hdropped : ∀ record ∈ h.records.takeWhile
      (HistoryRecord.lapsed h.limits.historyWindowNanos now),
      HistoryRecord.Outdated h.limits.historyWindowNanos now record := by
    rw [← hall, List.filter_append] at hkept
    rw [List.filter_eq_self.mpr fun record hmem => decide_eq_true (hwithin record hmem)] at hkept
    have hempty := List.filter_eq_nil_iff.mp (List.self_eq_append_left.mp hkept)
    intro record hmem
    by_contra hnot
    exact hempty record hmem (decide_eq_true hnot)
  refine ⟨?_,fun record hmem => ?_⟩
  · rw [← hall, List.pairwise_append]
    refine ⟨?_,?_,fun earlier hearlier _ _ _ => hdropped earlier hearlier⟩
    · exact List.pairwise_of_forall_mem_list fun earlier hearlier _ _ _ => hdropped earlier hearlier
    · exact List.pairwise_of_forall_mem_list fun _ _ later hlater hout =>
        absurd hout (hwithin later hlater)
  · rw [← hall, List.mem_append] at hmem
    rcases hmem with hmem | hmem
    · exact iff_of_true (List.mem_takeWhile_imp hmem) (hdropped record hmem)
    · refine iff_of_false ?_ (hwithin record hmem)
      rw [hfresh record hmem]
      exact Bool.false_ne_true

theorem InOrder.pruned {now : TimePoint} (hset : now.isSet = true) (horder : h.InOrder now) :
    h.Pruned now := by
  obtain ⟨s,hprune,hlimits,hrecords⟩ := h.prune_of_isSet hset
  have hkept : s.records = h.records.filter fun record =>
      ¬ HistoryRecord.Outdated h.limits.historyWindowNanos now record := by
    rw [hrecords, dropWhile_eq_filter]
    · refine List.filter_congr fun record hmem => ?_
      rw [decide_not, ← Bool.decide_congr (horder.age record hmem), Bool.decide_eq_true]
    · refine horder.front.imp_of_mem fun hearlier hlater hout hlapsed => ?_
      exact (horder.age _ hearlier).mpr (hout ((horder.age _ hlater).mp hlapsed))
  refine ⟨_,s,hprune,hkept,?_,(excludedByWindow_eq_zero_iff hset).mpr fun record hmem => ?_⟩
  · rw [countP_eq_length_sub, hkept]
  · rw [hkept] at hmem
    obtain ⟨hold,hwithin⟩ := List.mem_filter.mp hmem
    rw [hlimits, ← Bool.not_eq_true, horder.age record hold]
    exact of_decide_eq_true hwithin

/-- Pruning is exact where the outdated records are the oldest ones of the store. -/
theorem prune_exact_iff (h : HistoryStore) {now : TimePoint} (hset : now.isSet = true) :
    h.Pruned now ↔ h.InOrder now :=
  ⟨Pruned.inOrder hset,InOrder.pruned hset⟩

/-- A window of ten nanoseconds. -/
def shortWindow : Limits := { historyWindowNanos := 10 }

def evaluatedLate : StoredComparison := { evaluatedAt := ⟨100⟩ }

def evaluatedEarly : StoredComparison := { evaluatedAt := ⟨50⟩ }

/-- The older record was appended first. -/
theorem prune_exact_in_order :
    (appendAll shortWindow [evaluatedEarly,evaluatedLate]).Pruned ⟨105⟩ :=
  (prune_exact_iff _ (by decide)).mpr ⟨by decide,by decide⟩

/-- A record that is still within the window stands in front of one that is not. -/
theorem prune_misses_behind_newer :
    ¬ (appendAll shortWindow [evaluatedLate,evaluatedEarly]).Pruned ⟨105⟩ := by
  rintro ⟨removed,s,hprune,-,hremoved,-⟩
  have hzero : (appendAll shortWindow [evaluatedLate,evaluatedEarly]).prune ⟨105⟩ =
      .ok (0,appendAll shortWindow [evaluatedLate,evaluatedEarly]) := by decide
  have hnone := (Prod.mk.inj (Except.ok.inj (hzero.symm.trans hprune))).1
  rw [← hnone] at hremoved
  exact absurd hremoved (by decide)

end HistoryStore

end PathObservatory
