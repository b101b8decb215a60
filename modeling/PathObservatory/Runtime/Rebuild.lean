import PathObservatory.Runtime.Buckets
import PathObservatory.Runtime.Runs
import PathObservatory.Runtime.Writes

/-! # Evidence after a restart

A restart files the records of evidence anew while no plan is in force, so that each
goes to the bucket of the generation and the group it names itself. A bucket that
the plan of its time chose comes back elsewhere, or not at all.
-/
namespace PathObservatory
open PersistentStore ObservatoryRuntime

/-- The subject of a record while no plan is in force. -/
def ownSubject (e : ObservedPathEvidence) : Option SubjectKey :=
  if e.routeGeneration.present then
    some { generation := e.routeGeneration.value, group := e.group }
  else none

theorem ownSubject_eq_some {e : ObservedPathEvidence} {key : SubjectKey} :
    ownSubject e = some key ↔ e.routeGeneration.present = true ∧
      key = { generation := e.routeGeneration.value, group := e.group } := by
  unfold ownSubject
  split_ifs with h
  · simp [h, eq_comm]
  · simp [h]

/-- The records of evidence a store holds. -/
def evidenceIn (limits : Limits) (records : List StoredRecord) : List ObservedPathEvidence :=
  records.filterMap (fun record =>
    if record.type = .evidence then
      (decodeStored (Codec.decodeEvidence limits) record).toOption
    else none)

theorem evidenceIn_append (limits : Limits) (records more : List StoredRecord) :
    evidenceIn limits (records ++ more) = evidenceIn limits records ++ evidenceIn limits more :=
  List.filterMap_append

theorem evidenceIn_eq_nil {limits : Limits} {records : List StoredRecord}
    (h : ∀ record ∈ records, record.type ≠ .evidence) : evidenceIn limits records = [] := by
  refine List.filterMap_eq_nil_iff.mpr (fun record hrecord => ?_)
  rw [if_neg (h record hrecord)]

/-- The buckets that the records of a store rebuild. -/
def rebuilt (limits : Limits) (records : List StoredRecord) :
    SubjectKey → List ObservedPathEvidence :=
  Filing.fill limits.maxEvidencePerComparison ObservedPathEvidence.id ownSubject (fun _ => [])
    (evidenceIn limits records)

theorem rebuilt_append {limits : Limits} {records more : List StoredRecord}
    (h : ∀ record ∈ more, record.type ≠ .evidence) :
    rebuilt limits (records ++ more) = rebuilt limits records := by
  rw [rebuilt, evidenceIn_append, evidenceIn_eq_nil h, List.append_nil]
  rfl

theorem rebuilt_concat {limits : Limits} {records : List StoredRecord} {record : StoredRecord}
    {e : ObservedPathEvidence} (h : evidenceIn limits [record] = [e]) :
    rebuilt limits (records ++ [record]) = Filing.offer limits.maxEvidencePerComparison
      ObservedPathEvidence.id ownSubject (rebuilt limits records) e := by
  rw [rebuilt, evidenceIn_append, h, Filing.fill_concat]
  rfl

namespace ObservatoryRuntime
variable {r s : ObservatoryRuntime}

theorem subjectOf_without_plan (h : r.routes = none) : r.subjectOf = ownSubject := by
  funext e
  unfold subjectOf resolveSubject subjectGeneration ownSubject
  simp only [h]
  by_cases hgeneration : e.routeGeneration.present = true
  · by_cases hgroup : e.group.present = true
    · simp only [hgeneration, hgroup, if_true]
      rfl
    · simp only [hgeneration, MaybeId.eq_absent hgroup, if_true]
      rfl
  · simp only [if_neg hgeneration]
    rfl

theorem subjectOf_congr (h : s.routes = r.routes) : s.subjectOf = r.subjectOf := by
  funext e
  unfold subjectOf resolveSubject subjectGeneration
  rw [h]

/-- A record of a bucket that names another subject, or none. -/
def Misfiled (r : ObservatoryRuntime) : Prop :=
  ∃ key, ∃ e ∈ r.bucket key, ownSubject e ≠ some key

theorem Misfiled.of_extends (h : r.Misfiled) (hextends : ∀ key, r.bucket key <+: s.bucket key) :
    s.Misfiled := by
  obtain ⟨key,e,he,hother⟩ := h
  exact ⟨key,e,(hextends key).subset he,hother⟩

theorem Misfiled.congr (h : r.Misfiled) (hsame : s.bucket = r.bucket) : s.Misfiled :=
  h.of_extends (fun _ => hsame ▸ List.prefix_rfl)

theorem not_misfiled_of_rebuilt {limits : Limits} {records : List StoredRecord}
    (h : r.bucket = rebuilt limits records) : ¬ r.Misfiled := by
  rintro ⟨key,e,he,hother⟩
  rw [h] at he
  rcases Filing.subject_of_mem_fill he with hnone | hsame
  · cases hnone
  · exact hother hsame

/-- Restoring files the records of evidence, as far as it gets. -/
theorem restoreRecords_bucket (r : ObservatoryRuntime) (records : List StoredRecord) :
    ∃ done, done <+: records ∧ ((r.restoreRecords records).1 = .ok () → done = records) ∧
      (r.restoreRecords records).2.bucket =
        Filing.fill r.config.limits.maxEvidencePerComparison ObservedPathEvidence.id r.subjectOf
          r.bucket (evidenceIn r.config.limits done) := by
  induction records generalizing r with
  | nil => exact ⟨[],List.prefix_rfl,fun _ => rfl,rfl⟩
  | cons record rest ih =>
    rw [restoreRecords]
    cases hrecord : r.restoreRecord record with
    | error e =>
      refine ⟨[],List.nil_prefix,?_,rfl⟩
      intro h
      cases h
    | ok s =>
      obtain ⟨done,hdone,hall,hbucket⟩ := ih s
      refine ⟨record :: done,List.cons_prefix_cons.mpr ⟨rfl,hdone⟩,fun h => by rw [hall h],?_⟩
      have hframe : s.config = r.config ∧ s.routes = r.routes := by
        obtain ⟨_,_,_,_,rfl⟩ := restoreRecord_frame hrecord
        exact ⟨rfl,rfl⟩
      rw [hframe.1, subjectOf_congr hframe.2] at hbucket
      refine hbucket.trans ?_
      rcases restoreRecord_evidence hrecord with ⟨htype,hsame⟩ | ⟨htype,e,he,rfl⟩
      · rw [bucket_congr hsame, evidenceIn, evidenceIn, List.filterMap_cons_none]
        exact if_neg htype
      · rw [restoreEvidence_bucket, evidenceIn, evidenceIn, List.filterMap_cons_some]
        · rfl
        · rw [if_pos htype, he]
          rfl

/-- What a start of a persistent runtime that reads its store back has done. -/
theorem start_cases_of_persist (hpersist : r.config.persist = true)
    (hload : r.config.loadEvidenceOnStart = true) (content : Option ByteString) :
    ((∃ e, (r.start content).1 = .error e) ∧ (r.start content).2.1.evidence = r.evidence ∧
      (r.start content).2.1.store = r.store) ∨
    ∃ store, (open_ r.config.storePath r.storeOptions r.now content).1 = .ok store ∧
      (r.start content).1 = (r.opened store).restoreFromStore.1 ∧
      (r.start content).2.1.store = some store ∧
      (r.start content).2.1.evidence = (r.opened store).restoreFromStore.2.evidence := by
  unfold start
  split_ifs
  · exact Or.inl ⟨⟨_,rfl⟩,rfl,rfl⟩
  · exact Or.inl ⟨⟨_,rfl⟩,rfl,rfl⟩
  · exact Or.inl ⟨⟨_,rfl⟩,rfl,rfl⟩
  · unfold recover
    rcases hopen : open_ r.config.storePath r.storeOptions r.now content with ⟨e | store,after⟩
    · exact Or.inl ⟨⟨e,rfl⟩,rfl,rfl⟩
    · have hstore := r.restoreFromStore_store store
      refine Or.inr ⟨store,rfl,?_⟩
      rcases hrestore : (r.opened store).restoreFromStore with ⟨e | _,t⟩
      · rw [hrestore] at hstore
        simp only [hload, if_true, hrestore]
        exact ⟨trivial,hstore,trivial⟩
      · rw [hrestore] at hstore
        simp only [hload, if_true, hrestore]
        exact ⟨trivial,hstore,rfl⟩

/-- So the buckets are filed anew, as far as the start gets. -/
theorem start_bucket (hpersist : r.config.persist = true)
    (hload : r.config.loadEvidenceOnStart = true) {content : Option ByteString}
    {store : PersistentStore} {records : List StoredRecord}
    (hstore : (r.start content).2.1.store = some store)
    (hretains : store.Retains r.config.limits records) :
    ((∃ e, (r.start content).1 = .error e) ∧ (r.start content).2.1.bucket = r.bucket) ∨
    ∃ done, done <+: records ∧ ((r.start content).1 = .ok () → done = records) ∧
      (r.start content).2.1.bucket =
        Filing.fill r.config.limits.maxEvidencePerComparison ObservedPathEvidence.id r.subjectOf
          r.bucket (evidenceIn r.config.limits done) := by
  rcases start_cases_of_persist hpersist hload content with
    ⟨herror,hsame,-⟩ | ⟨opened,-,hstatus,hopened,hevidence⟩
  · exact Or.inl ⟨herror,bucket_congr hsame⟩
  · obtain rfl := Option.some.inj (hopened.symm.trans hstore)
    have hrestore : (r.opened opened).restoreFromStore =
        (r.opened opened).restoreRecords records := by
      unfold restoreFromStore
      simp only [ObservatoryRuntime.opened, hretains.readAll]
    obtain ⟨done,hdone,hall,hbucket⟩ := (r.opened opened).restoreRecords_bucket records
    rw [hrestore] at hstatus hevidence
    rw [hstatus, bucket_congr hevidence]
    exact Or.inr ⟨done,hdone,hall,hbucket⟩

end ObservatoryRuntime

end PathObservatory
