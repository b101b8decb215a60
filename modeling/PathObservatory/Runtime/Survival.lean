import PathObservatory.Runtime.CurrentPlan
import PathObservatory.Runtime.Rebuild

/-! # Evidence survives a restart

In every run of a persistent runtime the buckets are what its store rebuilds, or a
record lies in a bucket it does not name, and stays there. Only in the second case
a new runtime on the store holds other evidence.
-/
namespace PathObservatory
open PersistentStore

namespace ObservatoryRuntime
open ComparisonEngine (samplePlan sampleContent sampleTrace)
variable {config : RuntimeConfig} {r s : ObservatoryRuntime}

/-- The runs of a persistent runtime: it is started on any file, serves requests,
and may be started again on the file it left. -/
inductive PersistentRun (config : RuntimeConfig) : ObservatoryRuntime → Prop
  | boot {clock : ℕ → TimePoint} {sorter : Ranking.Sorter ranksBefore}
      {created started : ObservatoryRuntime} {content after : Option ByteString}
      (hcreate : create config (some clock) sorter = .ok created)
      (hstart : created.start content = (.ok (),started,after)) : PersistentRun config started
  | call {r : ObservatoryRuntime} (h : PersistentRun config r) (call : Call) :
      PersistentRun config (r.perform call)
  | restart {r : ObservatoryRuntime} (h : PersistentRun config r) :
      PersistentRun config (r.start r.disk).2.1

/-- The buckets are what the store rebuilds, or a record is misfiled. -/
structure Faithful (config : RuntimeConfig) (r : ObservatoryRuntime) : Prop where
  config_eq : r.config = config
  limits : config.limits.validate = .ok ()
  filed : ∃ records, Stored config.limits r.store records ∧
    (r.bucket = rebuilt config.limits records ∨ r.Misfiled)

/-- An append writes one more record or changes nothing. -/
theorem persistRecord_stored {limits : Limits} {records : List StoredRecord}
    (h : Stored limits r.store records) (hlimits : limits.maxStoreRecordBytes < 2 ^ 32)
    (type : RecordType) (payload : ByteString) :
    ((∃ e, (r.persistRecord type payload).1 = .error e) ∧
      Stored limits (r.persistRecord type payload).2.store records) ∨
    ((r.persistRecord type payload).1 = .ok () ∧ ∃ sequence,
      Stored limits (r.persistRecord type payload).2.store
        (records ++ [{ type := type, sequence := sequence, payload := payload }])) := by
  obtain ⟨store,hstore,hretains⟩ := h
  unfold persistRecord
  rw [hstore]
  rcases hretains.append_cases hlimits type payload with ⟨e,herror⟩ | ⟨hok,happended⟩
  · simp only [herror]
    exact Or.inl ⟨⟨e,rfl⟩,store,rfl,hretains⟩
  · exact Or.inr ⟨hok,store.nextSequence,_,rfl,happended⟩

def storedEvidence (e : ObservedPathEvidence) (sequence : UInt64) : StoredRecord where
  type := .evidence
  sequence := sequence
  payload := Codec.encodeEvidence e

/-- The record that was written is decoded to what was kept. -/
theorem evidenceIn_stored {limits : Limits} (hlimits : limits.validate = .ok ())
    {e : ObservedPathEvidence} (hvalid : e.validate limits = .ok ()) (sequence : UInt64) :
    evidenceIn limits [storedEvidence e.seal_ sequence] = [e.seal_] := by
  have hreads := Codec.reads_decodeEvidence (ObservedPathEvidence.validate_seal hvalid) rfl
    (Limits.lt_of_validate hlimits).1
  have hdecoded : decodeStored (Codec.decodeEvidence limits) (storedEvidence e.seal_ sequence) =
      .ok e.seal_ := decodeStored_of_reads hreads
  have htype : (storedEvidence e.seal_ sequence).type = .evidence := rfl
  rw [evidenceIn, List.filterMap_cons_some, List.filterMap_nil]
  rw [if_pos htype, hdecoded]
  rfl

namespace Faithful

/-- An offer of evidence keeps the store and the buckets together, or misfiles the
record. -/
theorem ingestEvidence (h : Faithful config r) (e : ObservedPathEvidence) :
    Faithful config (r.ingestEvidence e).2 := by
  obtain ⟨records,hstored,hfiled⟩ := h.filed
  have hbytes := (Limits.lt_of_validate h.limits).2.2.2.2
  have hwritten := persistRecord_stored hstored hbytes .evidence (Codec.encodeEvidence e.seal_)
  have hconfig : (r.ingestEvidence e).2.config = config :=
    (r.perform_config (.ingestEvidence e)).trans h.config_eq
  refine ⟨hconfig,h.limits,?_⟩
  rcases r.ingestEvidence_keeps e with hnothing | ⟨hscreened,key,hrecord⟩
  · have hsame : Stored config.limits (r.ingestEvidence e).2.store records := by
      rcases hnothing.store with hstore | ⟨⟨error,herror⟩,hstore⟩
      · rwa [hstore]
      · rcases hwritten with ⟨-,hkept⟩ | ⟨hok,-⟩
        · rwa [hstore]
        · rw [herror] at hok
          cases hok
    exact ⟨records,hsame,hfiled.imp hnothing.bucket.trans (·.congr hnothing.bucket)⟩
  · obtain ⟨sequence,hkept⟩ : ∃ sequence, Stored config.limits (r.ingestEvidence e).2.store
        (records ++ [storedEvidence e.seal_ sequence]) := by
      rw [hrecord.store]
      rcases hwritten with ⟨⟨error,herror⟩,-⟩ | ⟨-,hkept⟩
      · have hok := hrecord.written
        rw [herror] at hok
        cases hok
      · exact hkept
    refine ⟨_,hkept,?_⟩
    by_cases hown : ownSubject e.seal_ = some key
    · refine hfiled.imp (fun hbucket => ?_) (fun hmisfiled => ?_)
      · have hvalid := validate_of_screened hscreened
        have htakes := hrecord.places.takes
        rw [h.config_eq] at hvalid
        rw [Takes, hbucket, h.config_eq] at htakes
        rw [hrecord.bucket, rebuilt_concat (evidenceIn_stored h.limits hvalid sequence),
          Filing.offer_of_takes hown htakes, hbucket]
      · exact hmisfiled.of_extends (fun other => by
          rw [hrecord.bucket]
          exact Filing.prefix_put _ _ _ _)
    · refine Or.inr ⟨key,e.seal_,?_,hown⟩
      rw [hrecord.bucket]
      exact Filing.mem_put_self _ _ _

theorem perform (h : Faithful config r) (call : Call) : Faithful config (r.perform call) := by
  by_cases hcall : ∃ e, call = .ingestEvidence e
  · obtain ⟨e,rfl⟩ := hcall
    exact h.ingestEvidence e
  · have hother : ∀ e, call ≠ .ingestEvidence e := fun e heq => hcall ⟨e,heq⟩
    obtain ⟨records,hstored,hfiled⟩ := h.filed
    have hbytes := (Limits.lt_of_validate h.limits).2.2.2.2
    have hbucket := bucket_congr (r.perform_sameObserved hother).evidence
    obtain ⟨more,hmore,hkept⟩ := hstored.logs hbytes (r.perform_logs hother)
    refine ⟨(r.perform_config call).trans h.config_eq,h.limits,_,hkept,?_⟩
    rw [rebuilt_append hmore, hbucket]
    exact hfiled.imp id (·.congr hbucket)

/-- The file that is left is opened again with the same records. -/
theorem start_stored {records : List StoredRecord} (h : Faithful config r)
    (hpersist : config.persist = true) (hload : config.loadEvidenceOnStart = true)
    (hstored : Stored config.limits r.store records) :
    Stored config.limits (r.start r.disk).2.1.store records := by
  obtain ⟨store,hstore,hretains⟩ := hstored
  rcases start_cases_of_persist (h.config_eq ▸ hpersist) (h.config_eq ▸ hload) r.disk with
    ⟨-,-,hsame⟩ | ⟨opened,hopen,-,hopened,-⟩
  · exact ⟨store,hsame.trans hstore,hretains⟩
  · have hdisk : r.disk = some store.file := by rw [disk, hstore, Option.map_some]
    have hnow := isSet_of_open hopen
    obtain ⟨again,hagain,hkept⟩ := hretains.reopen h.limits hnow r.config.storePath
    rw [storeOptions, h.config_eq, hdisk] at hopen
    rw [h.config_eq] at hagain
    rw [hagain] at hopen
    obtain rfl := Except.ok.inj hopen
    exact ⟨again,hopened,hkept⟩

/-- A start again files what the store holds over the buckets. -/
theorem restart (h : Faithful config r) (hpersist : config.persist = true)
    (hload : config.loadEvidenceOnStart = true) : Faithful config (r.start r.disk).2.1 := by
  obtain ⟨records,hstored,hfiled⟩ := h.filed
  have hkept := h.start_stored hpersist hload hstored
  have hconfig : (r.start r.disk).2.1.config = config := by
    rcases r.start_cases r.disk with ⟨e,s,after,hstart,hsame,-⟩ | ⟨s,after,hstart,hsame,-⟩
    · rw [hstart]
      exact hsame.trans h.config_eq
    · rw [hstart]
      exact hsame.trans h.config_eq
  refine ⟨hconfig,h.limits,records,hkept,?_⟩
  obtain ⟨store,hstore,hretains⟩ := hkept
  rw [← h.config_eq] at hretains
  rcases start_bucket (h.config_eq ▸ hpersist) (h.config_eq ▸ hload) hstore hretains with
    ⟨-,hsame⟩ | ⟨done,hdone,-,hbucket⟩
  · exact hfiled.imp hsame.trans (·.congr hsame)
  · rcases hfiled with hrebuilt | hmisfiled
    · have hsub : ∀ e ∈ evidenceIn config.limits done, e ∈ evidenceIn config.limits records := by
        obtain ⟨rest,rfl⟩ := hdone
        intro e he
        rw [evidenceIn_append]
        exact List.mem_append_left _ he
      rw [h.config_eq, hrebuilt] at hbucket
      rcases @Filing.refill _ _ _ _ _ config.limits.maxEvidencePerComparison
        ObservedPathEvidence.id ownSubject (fun _ => []) r.subjectOf _ _ hsub with
        hsame | ⟨e,key,he,hother⟩
      · exact Or.inl (hbucket.trans hsame)
      · refine Or.inr ⟨key,e,?_,hother⟩
        rw [hbucket]
        exact he
    · refine Or.inr (hmisfiled.of_extends (fun key => ?_))
      rw [hbucket]
      exact Filing.prefix_fill _ _ key

end Faithful

section
variable {clock : ℕ → TimePoint} {sorter : Ranking.Sorter ranksBefore}
  {created started : ObservatoryRuntime} {content after : Option ByteString}

/-- A new runtime that reads its store back holds what the store rebuilds. -/
theorem start_rebuilds (hpersist : config.persist = true)
    (hload : config.loadEvidenceOnStart = true)
    (hcreate : create config (some clock) sorter = .ok created)
    (hstart : created.start content = (.ok (),started,after)) :
    ∃ store records, (open_ created.config.storePath created.storeOptions created.now
        content).1 = .ok store ∧ started.store = some store ∧
      store.Retains config.limits records ∧ started.bucket = rebuilt config.limits records := by
  obtain ⟨-,rfl⟩ := create_eq_ok.mp hcreate
  rcases start_cases_of_persist (r := fresh config clock sorter) hpersist hload content with
    ⟨⟨e,herror⟩,-,-⟩ | ⟨store,hopen,-,hstore,-⟩
  · rw [hstart] at herror
    cases herror
  · obtain ⟨-,records,hretains⟩ := retains_of_open hopen
    refine ⟨store,records,hopen,by rwa [hstart] at hstore,hretains,?_⟩
    rcases start_bucket (r := fresh config clock sorter) hpersist hload hstore hretains with
      ⟨⟨e,herror⟩,-⟩ | ⟨done,-,hall,hbucket⟩
    · rw [hstart] at herror
      cases herror
    · rw [hstart] at hall hbucket
      obtain rfl := hall rfl
      rw [subjectOf_without_plan rfl] at hbucket
      exact hbucket

theorem faithful_of_boot (hpersist : config.persist = true)
    (hload : config.loadEvidenceOnStart = true)
    (hcreate : create config (some clock) sorter = .ok created)
    (hstart : created.start content = (.ok (),started,after)) : Faithful config started := by
  obtain ⟨store,records,-,hstore,hretains,hbucket⟩ :=
    start_rebuilds hpersist hload hcreate hstart
  obtain ⟨hcreatable,rfl⟩ := create_eq_ok.mp hcreate
  refine ⟨?_,hcreatable.1,records,⟨store,hstore,hretains⟩,Or.inl hbucket⟩
  rcases (fresh config clock sorter).start_cases content with
    ⟨e,s,other,hfailed,-⟩ | ⟨s,other,hstarted,hsame,-⟩
  · rw [hstart] at hfailed
    cases congrArg Prod.fst hfailed
  · rw [hstart] at hstarted
    obtain rfl := (Prod.mk.inj (Prod.mk.inj hstarted).2).1
    exact hsame

theorem PersistentRun.faithful (h : PersistentRun config r) (hpersist : config.persist = true)
    (hload : config.loadEvidenceOnStart = true) : Faithful config r := by
  induction h with
  | boot hcreate hstart => exact faithful_of_boot hpersist hload hcreate hstart
  | call _ call ih => exact ih.perform call
  | restart _ ih => exact ih.restart hpersist hload

/-- A new runtime with the same limits files what the run left on the store. -/
theorem PersistentRun.restart_rebuilds (hrun : PersistentRun config r)
    (hpersist : config.persist = true) (hload : config.loadEvidenceOnStart = true)
    {next : RuntimeConfig} (hlimits : next.limits = config.limits)
    (hnext : next.persist = true ∧ next.loadEvidenceOnStart = true)
    (hcreate : create next (some clock) sorter = .ok created)
    (hstart : created.start r.disk = (.ok (),started,after)) :
    ∃ records, started.bucket = rebuilt config.limits records ∧
      (r.bucket = rebuilt config.limits records ∨ r.Misfiled) := by
  obtain ⟨-,hvalid,records,⟨kept,hkept,hretains⟩,hfiled⟩ := hrun.faithful hpersist hload
  obtain ⟨store,found,hopen,-,hfound,hbucket⟩ := start_rebuilds hnext.1 hnext.2 hcreate hstart
  obtain ⟨-,rfl⟩ := create_eq_ok.mp hcreate
  obtain ⟨again,hagain,hsame⟩ := hretains.reopen hvalid (isSet_of_open hopen) next.storePath
  have hoptions : (fresh next clock sorter).storeOptions = { limits := config.limits } := by
    rw [storeOptions, ← hlimits]
    rfl
  rw [hoptions, disk, hkept, Option.map_some] at hopen
  obtain rfl : again = store := by
    have hboth := (congrArg Prod.fst hagain).symm.trans hopen
    exact Except.ok.inj hboth
  rw [hlimits] at hfound hbucket
  refine ⟨records,?_,hfiled⟩
  rw [hbucket, Except.ok.inj (hfound.readAll.symm.trans hsame.readAll)]

/-- It holds the evidence of the run unless a record is misfiled. -/
theorem PersistentRun.restart_bucket_iff (hrun : PersistentRun config r)
    (hpersist : config.persist = true) (hload : config.loadEvidenceOnStart = true)
    {next : RuntimeConfig} (hlimits : next.limits = config.limits)
    (hnext : next.persist = true ∧ next.loadEvidenceOnStart = true)
    (hcreate : create next (some clock) sorter = .ok created)
    (hstart : created.start r.disk = (.ok (),started,after)) :
    started.bucket = r.bucket ↔ ¬ r.Misfiled := by
  obtain ⟨records,hrebuilt,hfiled⟩ :=
    hrun.restart_rebuilds hpersist hload hlimits hnext hcreate hstart
  constructor
  · exact fun hsame => not_misfiled_of_rebuilt (hsame.symm.trans hrebuilt)
  · exact fun hnamed => hrebuilt.trans (hfiled.resolve_right hnamed).symm

theorem not_misfiled_iff : ¬ r.Misfiled ↔ ∀ key, ∀ e ∈ r.bucket key,
    e.routeGeneration.present = true ∧
      key = { generation := e.routeGeneration.value, group := e.group } := by
  unfold Misfiled
  push Not
  simp only [ownSubject_eq_some]

/-- A new runtime with the same limits, started on what a run left, holds exactly
the evidence of the run when every record names the bucket it lies in. -/
theorem restart_restores_evidence_iff (hrun : PersistentRun config r)
    (hpersist : config.persist = true) (hload : config.loadEvidenceOnStart = true)
    {next : RuntimeConfig} (hlimits : next.limits = config.limits)
    (hnext : next.persist = true ∧ next.loadEvidenceOnStart = true)
    (hcreate : create next (some clock) sorter = .ok created)
    (hstart : created.start r.disk = (.ok (),started,after)) :
    started.bucket = r.bucket ↔ ∀ key, ∀ e ∈ r.bucket key,
      e.routeGeneration.present = true ∧
        key = { generation := e.routeGeneration.value, group := e.group } :=
  (hrun.restart_bucket_iff hpersist hload hlimits hnext hcreate hstart).trans not_misfiled_iff

end

theorem PersistentRun.performs (h : PersistentRun config r) (requests : List Call) :
    PersistentRun config (requests.foldl perform r) := by
  induction requests generalizing r with
  | nil => exact h
  | cons request rest ih => exact ih (h.call request)

theorem mem_toList_of_mem_bucket {key : SubjectKey} {e : ObservedPathEvidence}
    (h : e ∈ r.bucket key) : ∃ records, (key,records) ∈ r.evidence.toList ∧ e ∈ records := by
  unfold bucket at h
  cases hrecords : r.evidence[key]? with
  | none =>
    rw [hrecords] at h
    cases h
  | some records =>
    rw [hrecords] at h
    exact ⟨records,Std.ExtTreeMap.mem_toList_iff_getElem?_eq_some.mpr hrecords,h⟩

/-- A persistent runtime with the time of the samples. -/
def createdAtWork : ObservatoryRuntime :=
  fresh persistentConfig (fun _ => ⟨1000⟩) (Ranking.Sorter.insertion ranksBefore_ranksBy)

def bootedAtWork : ObservatoryRuntime := (createdAtWork.start none).2.1

theorem create_atWork : create persistentConfig (some (fun _ => ⟨1000⟩))
    (Ranking.Sorter.insertion ranksBefore_ranksBy) = .ok createdAtWork := rfl

theorem bootedAtWork_run : PersistentRun persistentConfig bootedAtWork := by
  have hok : (createdAtWork.start none).1 = .ok () := by decide
  exact .boot create_atWork (Prod.ext hok rfl)

/-- A trace that names the generation and the group it is about. -/
def namedEvidence : ObservedPathEvidence :=
  { sampleContent 1 1 (sampleTrace 7 [1,2,3]) with
    routeGeneration := ⟨⟨1⟩⟩, group := ⟨⟨1⟩⟩ }

def namedRun : ObservatoryRuntime :=
  [Call.registerSource probeSource,.ingestEvidence namedEvidence].foldl perform bootedAtWork

theorem bootedAtWork_harmless : HarmlessRun persistentConfig bootedAtWork := by
  have hok : (createdAtWork.start none).1 = .ok () := by decide
  exact .boot create_atWork (Prod.ext hok rfl)

/-- What a harmless run left is started on, with the sources of the run. -/
theorem HarmlessRun.start_atWork (h : HarmlessRun persistentConfig r) :
    ∃ started after, createdAtWork.start r.disk = (.ok (),started,after) ∧
      started.sources = r.sources := by
  obtain ⟨hcreatable,hthreads,hrestartable⟩ := h.restartable
  obtain ⟨records,hdisk,hreplay,hsources⟩ := hrestartable.disk_holds
  have hset : (⟨1000⟩ : TimePoint).isSet = true := by decide
  obtain ⟨started,after,hstart,-,hrebuilt⟩ := @start_restartable persistentConfig
    (fun _ => ⟨1000⟩) (Ranking.Sorter.insertion ranksBefore_ranksBy) r.disk records hcreatable.1
    hthreads (fun _ => hset) hdisk hreplay
  exact ⟨started,after,hstart,hsources rfl rfl _ (hrebuilt rfl rfl)⟩

/-- Neither publications nor offers of evidence can do harm. -/
theorem HarmlessRun.quiet (h : HarmlessRun config r) {call : Call}
    (hcall : (∃ g, call = .publishTopology g) ∨ (∃ g, call = .publishRoutes g) ∨
      ∃ e, call = .ingestEvidence e) : HarmlessRun config (r.perform call) := by
  refine .call h (fun _ => ?_)
  rcases hcall with ⟨_,rfl⟩ | ⟨_,rfl⟩ | ⟨_,rfl⟩
  · trivial
  · trivial
  · trivial

theorem HarmlessRun.register (h : HarmlessRun config r) (descriptor : SourceDescriptor)
    (hsources : (r.sources.registerSource descriptor).toBool = true)
    (hname : descriptor.name.length ≤ r.config.limits.maxStringBytes) :
    HarmlessRun config (r.perform (.registerSource descriptor)) :=
  .call h (fun _ _ _ _ => ⟨hsources,hname⟩)

theorem namedRun_harmless : HarmlessRun persistentConfig namedRun :=
  (bootedAtWork_harmless.register probeSource (by decide) (by decide)).quiet
    (Or.inr (Or.inr ⟨namedEvidence,rfl⟩))

theorem namedRun_run : PersistentRun persistentConfig namedRun := bootedAtWork_run.performs _

theorem namedRun_named : ∀ key, ∀ e ∈ namedRun.bucket key, e.routeGeneration.present = true ∧
    key = { generation := e.routeGeneration.value, group := e.group } := by
  have hentries : ∀ entry ∈ namedRun.evidence.toList, ∀ e ∈ entry.2,
      e.routeGeneration.present = true ∧
        entry.1 = { generation := e.routeGeneration.value, group := e.group } := by
    decide +kernel
  intro key e he
  obtain ⟨records,hentry,he⟩ := mem_toList_of_mem_bucket he
  exact hentries (key,records) hentry e he

/-- The named trace is there after a restart. -/
theorem named_evidence_survives : namedRun.evidence.keys = [⟨⟨1⟩,⟨⟨1⟩⟩⟩] ∧
    ∃ started after, createdAtWork.start namedRun.disk = (.ok (),started,after) ∧
      started.bucket = namedRun.bucket := by
  have hkeys : namedRun.evidence.keys = [⟨⟨1⟩,⟨⟨1⟩⟩⟩] := by decide +kernel
  obtain ⟨started,after,hstart,-⟩ := namedRun_harmless.start_atWork
  exact ⟨hkeys,started,after,hstart,(restart_restores_evidence_iff namedRun_run rfl rfl rfl
    ⟨rfl,rfl⟩ create_atWork hstart).mpr namedRun_named⟩

/-- The plan gave the trace its generation and its group. -/
def plannedAtWork : ObservatoryRuntime := plannedRun.foldl perform bootedAtWork

theorem plannedAtWork_harmless : HarmlessRun persistentConfig plannedAtWork := by
  have hboth := (bootedAtWork_harmless.register authoritySource (by decide)
    (by decide)).register probeSource (by decide +kernel) (by decide +kernel)
  exact ((hboth.quiet (Or.inl ⟨emptyTopology 1,rfl⟩)).quiet
    (Or.inr (Or.inl ⟨samplePlan,rfl⟩))).quiet
      (Or.inr (Or.inr ⟨sampleContent 1 1 (sampleTrace 7 [1,2,3]),rfl⟩))

/-- The trace was accepted, but a new runtime does not hold it. -/
theorem planned_evidence_disappears : PersistentRun persistentConfig plannedAtWork ∧
    ∃ started after, createdAtWork.start plannedAtWork.disk = (.ok (),started,after) ∧
      started.bucket ≠ plannedAtWork.bucket := by
  have hevaluated : (plannedAtWork.bucket ⟨⟨1⟩,⟨⟨1⟩⟩⟩).map ownSubject = [none] := by
    decide +kernel
  obtain ⟨started,after,hstart,-⟩ := plannedAtWork_harmless.start_atWork
  refine ⟨bootedAtWork_run.performs plannedRun,started,after,hstart,fun hsame => ?_⟩
  obtain ⟨-,records,-,-,-,hrebuilt⟩ := start_rebuilds rfl rfl create_atWork hstart
  obtain ⟨e,he,hnone⟩ : ∃ e ∈ plannedAtWork.bucket ⟨⟨1⟩,⟨⟨1⟩⟩⟩, ownSubject e = none :=
    List.mem_map.mp (hevaluated ▸ List.mem_singleton_self none)
  exact not_misfiled_of_rebuilt (hsame.symm.trans hrebuilt) ⟨_,e,he,by rw [hnone]; nofun⟩

end ObservatoryRuntime

end PathObservatory
