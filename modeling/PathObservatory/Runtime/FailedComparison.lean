import PathObservatory.Runtime.Closing
import PathObservatory.Runtime.HistoryBounds
import PathObservatory.Runtime.Refusals

/-! # What a failed comparison leaves behind

A comparison enters the history before anything that can fail: the registry may have
no place for its finding, and the store may refuse the record of the comparison or
of a finding. Nothing is taken back then, so a retry records it once more.
-/
namespace PathObservatory

namespace PersistentStore
variable {s : PersistentStore}

/-- There is room for the records of these payloads, one after the other, and none
of the writes fails. -/
structure Takes (s : PersistentStore) (payloads : List ByteString) : Prop where
  writable : s.options.readOnly = false
  bounded : ∀ payload ∈ payloads, payload.length ≤ s.options.limits.maxStoreRecordBytes
  records : s.recordCount + payloads.length ≤ s.options.limits.maxStoreRecords
  bytes : s.sizeBytes +
      (payloads.map fun payload => kStoreRecordHeaderBytes + payload.length).sum ≤
    s.options.limits.maxStoreBytes
  writes : ∀ fault ∈ s.faults.take payloads.length, fault = none

theorem checkAppend_eq_ok_iff {payload : ByteString} :
    s.checkAppend payload = .ok () ↔ s.options.readOnly = false ∧
      payload.length ≤ s.options.limits.maxStoreRecordBytes ∧
      s.recordCount + 1 ≤ s.options.limits.maxStoreRecords ∧
      s.sizeBytes + (kStoreRecordHeaderBytes + payload.length) ≤
        s.options.limits.maxStoreBytes := by
  unfold checkAppend
  simp only [↓require_bind_eq_ok, require_eq_ok, decide_eq_true_eq, Bool.not_eq_true]
  refine and_congr_right fun _ => and_congr_right fun _ => and_congr_right fun _ => ?_
  constructor
  · rintro ⟨hsize,hroom⟩
    omega
  · intro hroom
    omega

/-- The store after the record of this payload. -/
def grown (s : PersistentStore) (type : RecordType) (payload : ByteString) : PersistentStore :=
  { s with
    file := s.file ++ { type := type, sequence := s.nextSequence, payload := payload :
      StoredRecord }.bytes
    faults := s.faults.tail
    recordCount := s.recordCount + 1
    sizeBytes := s.sizeBytes + (kStoreRecordHeaderBytes + payload.length)
    nextSequence := s.nextSequence + 1 }

theorem append_eq_ok_iff {t : PersistentStore} {type : RecordType} {payload : ByteString} :
    s.append type payload = (.ok (),t) ↔ s.checkAppend payload = .ok () ∧
      (∀ fault ∈ s.faults.head?, fault = none) ∧ s.grown type payload = t := by
  unfold append
  cases s.checkAppend payload with
  | error e => simp
  | ok _ =>
    cases hfaults : s.faults with
    | nil => simp [grown, hfaults]
    | cons fault faults => cases fault <;> simp [grown, hfaults]

theorem forall_mem_take_succ {α : Type} {P : α → Prop} {n : ℕ} {all : List α} :
    (∀ x ∈ all.take (n + 1), P x) ↔ (∀ x ∈ all.head?, P x) ∧ ∀ x ∈ all.tail.take n, P x := by
  cases all with
  | nil => simp
  | cons first rest => simp

/-- Records are taken one by one. -/
theorem takes_cons_iff {payload : ByteString} {rest : List ByteString} (type : RecordType) :
    s.Takes (payload :: rest) ↔ ∃ t, s.append type payload = (.ok (),t) ∧ t.Takes rest := by
  constructor
  · intro h
    have hrecords := h.records
    have hbytes := h.bytes
    rw [List.length_cons] at hrecords
    rw [List.map_cons, List.sum_cons] at hbytes
    obtain ⟨hfirst,hrest⟩ := forall_mem_take_succ.mp h.writes
    obtain ⟨hbounded,hothers⟩ := List.forall_mem_cons.mp h.bounded
    have hcheck : s.checkAppend payload = .ok () :=
      checkAppend_eq_ok_iff.mpr ⟨h.writable,hbounded,by omega,by omega⟩
    refine ⟨s.grown type payload,append_eq_ok_iff.mpr ⟨hcheck,hfirst,rfl⟩,?_⟩
    refine ⟨h.writable,hothers,?_,?_,hrest⟩
    · simp only [grown]
      omega
    · simp only [grown]
      omega
  · rintro ⟨t,happend,ht⟩
    obtain ⟨hcheck,hfirst,rfl⟩ := append_eq_ok_iff.mp happend
    obtain ⟨hwritable,hbounded,-,-⟩ := checkAppend_eq_ok_iff.mp hcheck
    have hrecords := ht.records
    have hbytes := ht.bytes
    simp only [grown] at hrecords hbytes
    refine ⟨hwritable,List.forall_mem_cons.mpr ⟨hbounded,ht.bounded⟩,?_,?_,
      forall_mem_take_succ.mpr ⟨hfirst,ht.writes⟩⟩
    · rw [List.length_cons]
      omega
    · rw [List.map_cons, List.sum_cons]
      omega

/-- A store that took a record could take no records. -/
theorem takes_nil_of_append {t : PersistentStore} {type : RecordType} {payload : ByteString}
    (h : s.append type payload = (.ok (),t)) : t.Takes [] := by
  obtain ⟨hcheck,-,rfl⟩ := append_eq_ok_iff.mp h
  obtain ⟨hwritable,-,hrecords,hbytes⟩ := checkAppend_eq_ok_iff.mp hcheck
  exact ⟨hwritable,by simp,hrecords,hbytes,by simp⟩

end PersistentStore

namespace FindingRegistry
variable {r : FindingRegistry} {result : ComparisonResult} {now : TimePoint}

/-- The result has no class, its finding is on file, or there is or can be made
room for one more. -/
def HasPlace (r : FindingRegistry) (result : ComparisonResult) : Prop :=
  result.primary = .none ∨ (findingCandidate r.limits result).id ∈ r.findings ∨
    r.findings.size < r.limits.maxFindings ∨
    ∃ (id : FindingId) (finding : Finding), r.findings[id]? = some finding ∧
      finding.status = .resolved

theorem olderVictim_isSome {victim : Option (FindingId × Finding)} {entry : FindingId × Finding}
    (h : victim.isSome = true ∨ entry.2.status = .resolved) :
    (olderVictim victim entry).isSome = true := by
  unfold olderVictim
  split_ifs with hstatus
  · exact h.resolve_right hstatus
  · cases victim with
    | none => rfl
    | some chosen =>
      simp only
      split_ifs <;> rfl

/-- Any resolved entry among those looked at makes a victim. -/
theorem foldl_olderVictim_isSome {entries : List (FindingId × Finding)}
    {victim : Option (FindingId × Finding)}
    (h : victim.isSome = true ∨ ∃ entry ∈ entries, entry.2.status = .resolved) :
    (entries.foldl olderVictim victim).isSome = true := by
  induction entries generalizing victim with
  | nil => exact h.resolve_right (by simp)
  | cons entry rest ih =>
    refine ih ?_
    rcases h with hsome | ⟨other,hother,hresolved⟩
    · exact Or.inl (olderVictim_isSome (Or.inl hsome))
    · rcases List.mem_cons.mp hother with rfl | hrest
      · exact Or.inl (olderVictim_isSome (Or.inr hresolved))
      · exact Or.inr ⟨other,hrest,hresolved⟩

theorem victim_isSome_iff : r.victim.isSome = true ↔
    ∃ (id : FindingId) (finding : Finding), r.findings[id]? = some finding ∧
      finding.status = .resolved := by
  constructor
  · intro h
    obtain ⟨chosen,hchosen⟩ := Option.isSome_iff_exists.mp h
    exact ⟨chosen.1,chosen.2,resolved_of_victim hchosen⟩
  · rintro ⟨id,finding,hfinding,hresolved⟩
    refine foldl_olderVictim_isSome (Or.inr ⟨(id,finding),?_,hresolved⟩)
    exact Std.ExtTreeMap.mem_toList_iff_getElem?_eq_some.mpr hfinding

theorem makeRoom_isOk_iff : (∃ roomy, r.makeRoom = .ok roomy) ↔
    r.findings.size < r.limits.maxFindings ∨ r.victim.isSome = true := by
  unfold makeRoom
  split_ifs with hroom
  · exact ⟨fun _ => Or.inl hroom,fun _ => ⟨r,rfl⟩⟩
  · rw [or_iff_right hroom]
    cases r.victim <;> simp

/-- Recording fails only for want of a place. -/
theorem record_isOk_iff :
    (∃ recorded, r.record result now = .ok recorded) ↔ r.HasPlace result := by
  unfold HasPlace
  rw [← victim_isSome_iff, ← makeRoom_isOk_iff, OrderedMap.mem_iff_getElem?]
  unfold record
  split_ifs with hprimary
  · exact ⟨fun _ => Or.inl hprimary,fun _ => ⟨_,rfl⟩⟩
  · rw [or_iff_right hprimary]
    simp only
    cases r.findings[(findingCandidate r.limits result).id]? with
    | some existing => exact ⟨fun _ => Or.inl ⟨existing,rfl⟩,fun _ => ⟨_,rfl⟩⟩
    | none =>
      cases hroom : r.makeRoom with
      | ok roomy => exact ⟨fun _ => Or.inr ⟨roomy,rfl⟩,fun _ => ⟨_,rfl⟩⟩
      | error e =>
        constructor
        · rintro ⟨recorded,hrecorded⟩
          cases hrecorded
        · rintro (⟨existing,hexisting⟩ | ⟨roomy,hroomy⟩)
          · cases hexisting
          · cases hroomy

end FindingRegistry

namespace HistoryStore

/-- The history never looks untouched after an append: what the new record pushes out is
counted. -/
theorem append_ne (h : HistoryStore) (result : StoredComparison) : h.append result ≠ h := by
  intro hsame
  obtain ⟨gone,hshrinks⟩ := h.append_shrinks result
  rw [hsame] at hshrinks
  have hlength := hshrinks.length
  rw [push, List.length_append, List.length_singleton] at hlength
  obtain rfl : gone = 1 := by omega
  have hcounted : h.evictedByLimit = h.evictedByLimit + 1 := hshrinks.byLimit
  simp at hcounted

end HistoryStore

namespace ObservatoryRuntime
open FindingRegistry
variable {r s : ObservatoryRuntime} {result : ComparisonResult}

theorem persistRecord_eq_ok_iff {store : PersistentStore} (hstore : r.store = some store)
    {type : RecordType} {payload : ByteString} :
    r.persistRecord type payload = (.ok (),s) ↔
      ∃ t, store.append type payload = (.ok (),t) ∧ { r with store := some t } = s := by
  have hwritten : r.persistRecord type payload =
      ((store.append type payload).1,{ r with store := some (store.append type payload).2 }) := by
    unfold persistRecord
    rw [hstore]
  rw [hwritten]
  rcases store.append type payload with ⟨answer,t⟩
  simp only [Prod.mk.injEq, and_assoc, exists_and_left, exists_eq_left']

/-- The first finding is written, and the others behind it. -/
theorem persistFindings_cons_isOk_iff {finding : Finding} {rest : List Finding} :
    (r.persistFindings (finding :: rest)).1 = .ok () ↔
      ∃ s, r.persistRecord .finding (Codec.encodeFinding finding) = (.ok (),s) ∧
        (s.persistFindings rest).1 = .ok () := by
  rcases r.persistFindings_cons_cases finding rest with
    ⟨e,s,hpersist,hresult⟩ | ⟨s,hpersist,hresult⟩
  · simp [hpersist, hresult]
  · simp [hpersist, hresult]

theorem persistFindings_isOk_iff {store : PersistentStore} (hstore : r.store = some store)
    (hroom : store.Takes []) (findings : List Finding) :
    (r.persistFindings findings).1 = .ok () ↔ store.Takes (findings.map Codec.encodeFinding) := by
  induction findings generalizing r store with
  | nil => exact ⟨fun _ => hroom,fun _ => rfl⟩
  | cons finding rest ih =>
    rw [List.map_cons, PersistentStore.takes_cons_iff .finding, persistFindings_cons_isOk_iff]
    simp only [persistRecord_eq_ok_iff hstore]
    constructor
    · rintro ⟨_,⟨t,happend,rfl⟩,hrest⟩
      exact ⟨t,happend,(ih rfl (PersistentStore.takes_nil_of_append happend)).mp hrest⟩
    · rintro ⟨t,happend,hrest⟩
      exact ⟨_,⟨t,happend,rfl⟩,(ih rfl (PersistentStore.takes_nil_of_append happend)).mpr hrest⟩

theorem persistFindings_of_none (hstore : r.store = none) (findings : List Finding) :
    r.persistFindings findings = (.ok (),r) := by
  induction findings with
  | nil => rfl
  | cons finding rest ih =>
    rw [persistFindings, persistRecord_of_no_store hstore]
    exact ih

/-- The comparison is written, and the findings that name it behind it. -/
theorem persistComparison_isOk_iff_written :
    (∃ other, (r.persistComparison result).1 = .ok other) ↔
      ∃ s, r.persistRecord .comparison (Codec.encodeComparison result) = (.ok (),s) ∧
        (s.persistFindings (s.naming result)).1 = .ok () := by
  rcases r.persistComparison_cases result with ⟨e,s,hpersist,hanswer⟩ | ⟨s,hpersist,hanswer⟩
  · simp [hpersist, hanswer]
  · simp only [hpersist, hanswer, map_eq_ok, Prod.mk.injEq, true_and, exists_eq_left']
    exact ⟨fun ⟨_,_,h,_⟩ => h,fun h => ⟨result,(),h,rfl⟩⟩

/-- The record of the comparison and those of its findings are taken, or there is
no store. -/
theorem persistComparison_isOk_iff :
    (∃ other, (r.persistComparison result).1 = .ok other) ↔
      ∀ store, r.store = some store → store.Takes
        (Codec.encodeComparison result :: (r.naming result).map Codec.encodeFinding) := by
  rw [persistComparison_isOk_iff_written]
  cases hstore : r.store with
  | none =>
    rw [persistRecord_of_no_store hstore]
    exact iff_of_true ⟨r,rfl,by rw [persistFindings_of_none hstore]⟩ nofun
  | some store =>
    simp only [Option.some.injEq, forall_eq', PersistentStore.takes_cons_iff .comparison,
      persistRecord_eq_ok_iff hstore]
    constructor
    · rintro ⟨_,⟨t,happend,rfl⟩,hfindings⟩
      have hroom := PersistentStore.takes_nil_of_append happend
      exact ⟨t,happend,(persistFindings_isOk_iff rfl hroom _).mp hfindings⟩
    · rintro ⟨t,happend,hfindings⟩
      have hroom := PersistentStore.takes_nil_of_append happend
      exact ⟨_,⟨t,happend,rfl⟩,(persistFindings_isOk_iff rfl hroom _).mpr hfindings⟩

/-- Nothing hinders the recording of the result: its finding has a place, and where a
store is open it takes the record of the comparison and those of the findings that
name it once it is folded in. -/
structure Recordable (r : ObservatoryRuntime) (result : ComparisonResult) : Prop where
  place : r.findings.HasPlace result
  stored : ∀ recorded store, r.findings.record result r.now = .ok recorded →
    r.store = some store → store.Takes (Codec.encodeComparison result ::
      ((settled result r.tick.now recorded).all.filter (·.lastComparison = result.id)).map
        Codec.encodeFinding)

theorem recordComparison_isOk_iff :
    (∃ other, (r.recordComparison result).1 = .ok other) ↔ r.Recordable result := by
  rcases r.recordComparison_cases result with ⟨e,hrefused,hresult⟩ | ⟨recorded,hrecorded,hresult⟩
  · rw [hresult]
    constructor
    · rintro ⟨other,hother⟩
      cases hother
    · intro h
      obtain ⟨recorded,hrecorded⟩ := record_isOk_iff.mpr h.place
      rw [hrefused] at hrecorded
      cases hrecorded
  · obtain ⟨readings,findings,hfolded⟩ := r.folded_frame result recorded
    have hstore : (r.folded result recorded).store = r.store := by rw [hfolded]
    rw [hresult, persistComparison_isOk_iff, naming, folded_findings, hstore]
    constructor
    · refine fun h => ⟨record_isOk_iff.mp ⟨recorded,hrecorded⟩,fun other store hother hstore => ?_⟩
      obtain rfl := Except.ok.inj (hrecorded.symm.trans hother)
      exact h store hstore
    · exact fun h store hstore => h.stored recorded store hrecorded hstore

/-- Whatever comes of it, the result has entered the history. -/
theorem recordComparison_history (r : ObservatoryRuntime) (result : ComparisonResult) :
    (r.recordComparison result).2.history = r.history.append result.stored := by
  rcases r.recordComparison_cases result with ⟨e,-,hresult⟩ | ⟨recorded,-,hresult⟩
  · rw [hresult]
    rfl
  · obtain ⟨readings,findings,hfolded⟩ := r.folded_frame result recorded
    obtain ⟨store,hframe⟩ := (r.folded result recorded).persistComparison_frame result
    rw [hresult, hframe, hfolded]

/-- The history and the findings are the same. -/
structure SameAccount (r s : ObservatoryRuntime) : Prop where
  history : s.history = r.history
  findings : s.findings = r.findings

/-- What the engine says about the bucket, if it says anything, can be recorded. The
clock was read once by then. -/
def CanRecord (r : ObservatoryRuntime) (key : SubjectKey) : Prop :=
  ∀ result, r.engine.compare (r.requestFor key) r.makeContext = .ok result →
    r.tick.Recordable result

theorem failedBucket_iff (r : ObservatoryRuntime) (key : SubjectKey) :
    ((∃ e, (r.compareBucket key true).1 = .error e) →
        r.SameAccount (r.compareBucket key true).2) ↔ r.CanRecord key := by
  unfold CanRecord
  rcases r.compareBucket_cases key true with ⟨e,hcompare,hanswer⟩ | ⟨result,hcompare,hanswer⟩
  · rw [hanswer, hcompare]
    exact iff_of_true (fun _ => ⟨rfl,rfl⟩) (by simp)
  · rw [hanswer, hcompare, if_pos rfl]
    simp only [Except.ok.injEq, forall_eq']
    rw [← recordComparison_isOk_iff]
    constructor
    · intro h
      cases hanswer : (r.tick.recordComparison result).1 with
      | ok other => exact ⟨other,rfl⟩
      | error e =>
        have hsame := (h ⟨e,hanswer⟩).history
        rw [recordComparison_history] at hsame
        exact absurd hsame (r.history.append_ne result.stored)
    · rintro ⟨other,hother⟩ ⟨e,herror⟩
      rw [hother] at herror
      cases herror

/-- A request that compares a bucket, if it finds one. -/
theorem failedRequest_iff {bucket : Option SubjectKey}
    {answer : Result ComparisonResult × ObservatoryRuntime}
    (h : (∃ key, bucket = some key ∧ answer = r.compareBucket key true) ∨
      (bucket = none ∧ ∃ e, answer = (.error e,r))) :
    ((∃ e, answer.1 = .error e) → r.SameAccount answer.2) ↔ ∀ key ∈ bucket, r.CanRecord key := by
  rcases h with ⟨key,rfl,rfl⟩ | ⟨rfl,e,rfl⟩
  · simp only [Option.mem_def, Option.some.injEq, forall_eq']
    exact r.failedBucket_iff key
  · exact iff_of_true (fun _ => ⟨rfl,rfl⟩) (by simp)

/-- A failed comparison leaves history and findings alone exactly when it never came
to recording: a result that is there and cannot be recorded is in the history. -/
theorem failed_comparison_harmless_iff (r : ObservatoryRuntime) (group : PathGroupId)
    (path : PathId) :
    (((∃ e, (r.compareGroup group).1 = .error e) → r.SameAccount (r.compareGroup group).2) ↔
      ∀ key ∈ r.groupBucket group, r.CanRecord key) ∧
    (((∃ e, (r.comparePath path).1 = .error e) → r.SameAccount (r.comparePath path).2) ↔
      ∀ key ∈ r.pathBucket path, r.CanRecord key) :=
  ⟨failedRequest_iff (r.compareGroup_cases group),failedRequest_iff (r.comparePath_cases path)⟩

/-- A persistent runtime whose store holds two records. -/
def narrowConfig : RuntimeConfig where
  limits := { maxStoreRecords := 2 }
  storePath := "store"
  persist := true

def createdNarrow : ObservatoryRuntime :=
  fresh narrowConfig (fun _ => ⟨1⟩) (Ranking.Sorter.insertion ranksBefore_ranksBy)

/-- The two records are a source and the evidence it produced. -/
def filled : ObservatoryRuntime :=
  ((createdNarrow.start none).2.1.perform (.registerSource authoritySource)).perform
    (.ingestEvidence { strayEvidence with routeGeneration := ⟨⟨1⟩⟩, group := ⟨⟨1⟩⟩ })

theorem filled_reachable : Reachable filled := by
  have hcreate : create narrowConfig (some (fun _ => ⟨1⟩))
      (Ranking.Sorter.insertion ranksBefore_ranksBy) = .ok createdNarrow := rfl
  exact .call (.call (.start (.create hcreate) none) _) _

/-- The store has no room left, the comparison fails, and it is in the history with a
finding. Failing again counts it twice. -/
theorem failed_comparison_counts_twice :
    Reachable filled ∧ (∃ e, (filled.compareGroup ⟨1⟩).1 = .error e) ∧
      ¬ filled.SameAccount (filled.compareGroup ⟨1⟩).2 ∧
      ((filled.compareGroup ⟨1⟩).2.compareGroup ⟨1⟩).2.history.records.length = 2 ∧
      (((filled.compareGroup ⟨1⟩).2.compareGroup ⟨1⟩).2.findings.all.map (·.occurrences)) =
        [2] := by
  obtain ⟨hfails,hbefore,hafter,hagain,hcounted⟩ :
      (filled.compareGroup ⟨1⟩).1.toOption.isNone = true ∧
      filled.history.records.length = 0 ∧
      (filled.compareGroup ⟨1⟩).2.history.records.length = 1 ∧
      ((filled.compareGroup ⟨1⟩).2.compareGroup ⟨1⟩).2.history.records.length = 2 ∧
      (((filled.compareGroup ⟨1⟩).2.compareGroup ⟨1⟩).2.findings.all.map (·.occurrences)) =
        [2] := by
    decide +kernel
  refine ⟨filled_reachable,?_,fun hsame => ?_,hagain,hcounted⟩
  · cases hanswer : (filled.compareGroup ⟨1⟩).1 with
    | error e => exact ⟨e,rfl⟩
    | ok result =>
      rw [hanswer] at hfails
      cases hfails
  · rw [hsame.history, hbefore] at hafter
    cases hafter

end ObservatoryRuntime

end PathObservatory
