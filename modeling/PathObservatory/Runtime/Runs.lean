import PathObservatory.Runtime.Restart

/-! # Runs of a persistent runtime

A run boots on an absent file, serves requests and may be restarted on the file it
left. Harmless steps keep the file one that a new runtime starts on.
-/
namespace PathObservatory
open PersistentStore

namespace ObservatoryRuntime

/-- The file a runtime leaves behind. -/
def disk (r : ObservatoryRuntime) : Option ByteString := r.store.map (·.file)

/-- The states of the runs whose steps are all harmless. -/
inductive HarmlessRun (config : RuntimeConfig) : ObservatoryRuntime → Prop
  | boot {clock : ℕ → TimePoint} {sorter : Ranking.Sorter ranksBefore}
      {created started : ObservatoryRuntime} {content : Option ByteString}
      (hcreate : create config (some clock) sorter = .ok created)
      (hstart : created.start none = (.ok (),started,content)) : HarmlessRun config started
  | call {r : ObservatoryRuntime} (h : HarmlessRun config r) {call : Call}
      (hcall : config.loadEvidenceOnStart = true → r.HarmlessCall call) :
      HarmlessRun config (r.perform call)
  | restart {r : ObservatoryRuntime} (h : HarmlessRun config r) {clock : ℕ → TimePoint}
      {sorter : Ranking.Sorter ranksBefore} {created started : ObservatoryRuntime}
      {content : Option ByteString}
      (hcreate : create config (some clock) sorter = .ok created)
      (hstart : created.start r.disk = (.ok (),started,content)) : HarmlessRun config started

/-- The number of worker threads is outside the bounds. -/
def BadThreads (config : RuntimeConfig) : Prop :=
  (if config.workerThreads = 0 then config.limits.workerThreads else config.workerThreads) = 0 ∨
    config.limits.maxWorkerThreads <
      (if config.workerThreads = 0 then config.limits.workerThreads else config.workerThreads)

section
variable {config : RuntimeConfig} {clock : ℕ → TimePoint} {sorter : Ranking.Sorter ranksBefore}
  {content : Option ByteString}

theorem start_fresh (hthreads : ¬ BadThreads config) :
    (fresh config clock sorter).start content =
      if config.persist then
        match (fresh config clock sorter).recover content with
        | (.error e,r,content) => (.error e,{ r with state := .failed },content)
        | (.ok (),r,content) => (.ok (),{ r.forgetExpected with state := .running },content)
      else
        (.ok (),{ (fresh config clock sorter).forgetExpected with state := .running },content) := by
  have hbad : ¬ ((fresh config clock sorter).threads = 0 ∨
      config.limits.maxWorkerThreads < (fresh config clock sorter).threads) := hthreads
  unfold start
  rw [if_neg (by simp [fresh]), if_neg (by simp [fresh])]
  exact if_neg hbad

/-- A runtime that opened its store and loaded what it holds is restartable once
it forgot all expected state. -/
theorem forgetExpected_restartable {r : ObservatoryRuntime} {store : PersistentStore}
    {records : List StoredRecord} (hlimits : config.limits.validate = .ok ())
    (hconfig : r.config = config) (hstore : r.store = some store)
    (hholds : store.Holds config.limits records)
    (hsound : r.findings.Sound config.limits)
    (hreplay : config.loadEvidenceOnStart = true →
      Durable.replay config.limits (Durable.empty config.limits) records = .ok r.durable) :
    Restartable config { r.forgetExpected with state := .running } := by
  refine ⟨hconfig,hlimits,fun _ => hsound,?_,fun _ => ?_,?_⟩
  · intro routes hroutes
    cases hroutes
  · exact Option.isSome_iff_exists.mpr ⟨store,hstore⟩
  · intro other hother
    obtain rfl := Option.some.inj (hstore.symm.trans hother)
    refine ⟨records,hholds,fun hload => ⟨r.durable,hreplay hload,rfl,hsound,.refl _⟩⟩

/-- A fresh runtime recovers a disk whose records replay. -/
theorem recover_restartable {records : List StoredRecord}
    (hlimits : config.limits.validate = .ok ()) (hclock : (clock 0).isSet = true)
    (hdisk : DiskHolds config.limits content records)
    (hreplay : config.loadEvidenceOnStart = true →
      ∃ d, Durable.replay config.limits (Durable.empty config.limits) records = .ok d ∧
        d.findings.Sound config.limits) :
    ∃ r after, (fresh config clock sorter).recover content = (.ok (),r,after) ∧
      Restartable config { r.forgetExpected with state := .running } ∧
      (config.loadEvidenceOnStart = true →
        Durable.replay config.limits (Durable.empty config.limits) records = .ok r.durable) := by
  obtain ⟨store,hopen,hholds⟩ := open_holds hlimits hclock hdisk config.storePath
  have hopened : PersistentStore.open_ (fresh config clock sorter).config.storePath
      (fresh config clock sorter).storeOptions (fresh config clock sorter).now content =
        (.ok store,some store.file) := hopen
  unfold recover
  rw [hopened]
  by_cases hload : config.loadEvidenceOnStart = true
  · obtain ⟨d,hd,hsound⟩ := hreplay hload
    have hreplay : Durable.replay ((fresh config clock sorter).opened store).config.limits
        ((fresh config clock sorter).opened store).durable records = .ok d := hd
    obtain ⟨s,hs,hframe,hdurable⟩ := restoreRecords_of_replay hreplay
    have hrestored : ((fresh config clock sorter).opened store).restoreFromStore = (.ok (),s) := by
      unfold restoreFromStore opened
      simp only [hholds.readAll]
      exact hs
    have hfindings : s.findings = d.findings := congrArg Durable.findings hdurable
    refine ⟨s,some store.file,(if_pos hload).trans (by rw [hrestored]),?_,fun _ => hdurable ▸ hd⟩
    exact forgetExpected_restartable hlimits hframe.config hframe.store hholds
      (hfindings ▸ hsound) (fun _ => hdurable ▸ hd)
  · refine ⟨(fresh config clock sorter).opened store,some store.file,if_neg hload,?_,
      fun h => absurd h hload⟩
    exact forgetExpected_restartable hlimits rfl rfl hholds
      (FindingRegistry.sound_empty config.limits) (fun h => absurd h hload)

/-- A fresh runtime starts on a disk whose records replay. -/
theorem start_restartable {records : List StoredRecord}
    (hlimits : config.limits.validate = .ok ()) (hthreads : ¬ BadThreads config)
    (hclock : config.persist = true → (clock 0).isSet = true)
    (hdisk : config.persist = true → DiskHolds config.limits content records)
    (hreplay : config.persist = true → config.loadEvidenceOnStart = true →
      ∃ d, Durable.replay config.limits (Durable.empty config.limits) records = .ok d ∧
        d.findings.Sound config.limits) :
    ∃ started after, (fresh config clock sorter).start content = (.ok (),started,after) ∧
      Restartable config started ∧
      (config.persist = true → config.loadEvidenceOnStart = true →
        Durable.replay config.limits (Durable.empty config.limits) records =
          .ok started.durable) := by
  rw [start_fresh hthreads]
  by_cases hpersist : config.persist = true
  · obtain ⟨r,after,hrecover,hrestartable,hrebuilt⟩ := @recover_restartable _ _ sorter _ _ hlimits
      (hclock hpersist) (hdisk hpersist) (hreplay hpersist)
    rw [if_pos hpersist, hrecover]
    exact ⟨_,after,rfl,hrestartable,fun _ => hrebuilt⟩
  · rw [if_neg hpersist]
    refine ⟨_,content,rfl,⟨rfl,hlimits,fun _ => FindingRegistry.sound_empty config.limits,?_,?_,
      ?_⟩,fun h => absurd h hpersist⟩
    · intro routes hroutes
      cases hroutes
    · exact fun h => absurd h hpersist
    · intro store hstore
      cases hstore

/-- A start that succeeded passed the thread check and read the clock. -/
theorem checks_of_start {started : ObservatoryRuntime} {after : Option ByteString}
    (hlimits : config.limits.validate = .ok ())
    (h : (fresh config clock sorter).start content = (.ok (),started,after)) :
    ¬ BadThreads config ∧ (config.persist = true → (clock 0).isSet = true) := by
  have hthreads : ¬ BadThreads config := by
    intro hbad
    have hrefused : (fresh config clock sorter).threads = 0 ∨
        config.limits.maxWorkerThreads < (fresh config clock sorter).threads := hbad
    unfold start at h
    rw [if_neg (by simp [fresh]), if_neg (by simp [fresh])] at h
    have hstatus := congrArg Prod.fst ((if_pos hrefused).symm.trans h)
    cases hstatus
  refine ⟨hthreads,fun hpersist => ?_⟩
  rw [start_fresh hthreads, if_pos hpersist] at h
  cases hset : (clock 0).isSet with
  | true => rfl
  | false =>
    have hopened : ∃ e, PersistentStore.open_ (fresh config clock sorter).config.storePath
        (fresh config clock sorter).storeOptions (fresh config clock sorter).now content =
          (.error e,content) := by
      have hlimits' : (fresh config clock sorter).storeOptions.limits.validate = .ok () := hlimits
      have hset' : (fresh config clock sorter).now.isSet = false := hset
      refine ⟨{ code := .invalidArgument,
                message := "opening a store requires an evaluation time" },?_⟩
      simp only [PersistentStore.open_, hlimits', hset']
    obtain ⟨e,hopened⟩ := hopened
    unfold recover at h
    rw [hopened] at h
    cases congrArg Prod.fst h

end

/-- A restartable runtime leaves a disk whose records replay. -/
theorem Restartable.disk_holds {config : RuntimeConfig} {r : ObservatoryRuntime}
    (h : Restartable config r) : ∃ records,
      (config.persist = true → DiskHolds config.limits r.disk records) ∧
      (config.persist = true → config.loadEvidenceOnStart = true →
        ∃ d, Durable.replay config.limits (Durable.empty config.limits) records = .ok d ∧
          d.findings.Sound config.limits) ∧
      (config.persist = true → config.loadEvidenceOnStart = true →
        ∀ d, Durable.replay config.limits (Durable.empty config.limits) records = .ok d →
          d.sources = r.sources) := by
  cases hstore : r.store with
  | none =>
    have hoff : config.persist ≠ true := by
      intro hpersist
      have hsome := h.persistent hpersist
      rw [hstore] at hsome
      cases hsome
    exact ⟨[],fun hpersist => absurd hpersist hoff,fun hpersist => absurd hpersist hoff,
      fun hpersist => absurd hpersist hoff⟩
  | some store =>
    obtain ⟨records,hholds,hreplay⟩ := h.store store hstore
    refine ⟨records,fun _ => Or.inr ⟨store.file,by rw [disk, hstore]; rfl,hholds.file⟩,?_,?_⟩
    · intro _ hload
      obtain ⟨d,hd,hcovers⟩ := hreplay hload
      exact ⟨d,hd,hcovers.findings⟩
    · intro _ hload other hother
      obtain ⟨d,hd,hcovers⟩ := hreplay hload
      obtain rfl := Except.ok.inj (hother.symm.trans hd)
      exact hcovers.sources

/-- Every state of a harmless run is restartable, under a configuration that a
runtime can be created and started with. -/
theorem HarmlessRun.restartable {config : RuntimeConfig} {r : ObservatoryRuntime}
    (h : HarmlessRun config r) :
    Creatable config ∧ ¬ BadThreads config ∧ Restartable config r := by
  induction h with
  | @boot clock sorter created started content hcreate hstart =>
    obtain ⟨hcreatable,rfl⟩ := create_eq_ok.mp hcreate
    obtain ⟨hthreads,hclock⟩ := checks_of_start hcreatable.1 hstart
    obtain ⟨other,after,hother,hrestartable,-⟩ := @start_restartable config clock sorter none []
      hcreatable.1 hthreads hclock (fun _ => Or.inl ⟨rfl,rfl⟩)
      (fun _ _ => ⟨Durable.empty config.limits,rfl,FindingRegistry.sound_empty config.limits⟩)
    rw [hother] at hstart
    obtain rfl := (Prod.mk.inj (Prod.mk.inj hstart).2).1
    exact ⟨hcreatable,hthreads,hrestartable⟩
  | call _ hcall ih => exact ⟨ih.1,ih.2.1,ih.2.2.perform hcall⟩
  | @restart r _ clock sorter created started content hcreate hstart ih =>
    obtain ⟨hcreatable,hthreads,hrestartable⟩ := ih
    obtain ⟨-,rfl⟩ := create_eq_ok.mp hcreate
    obtain ⟨-,hclock⟩ := checks_of_start hcreatable.1 hstart
    obtain ⟨records,hdisk,hreplay,-⟩ := hrestartable.disk_holds
    obtain ⟨other,after,hother,hnext,-⟩ := @start_restartable config clock sorter r.disk records
      hcreatable.1 hthreads hclock hdisk hreplay
    rw [hother] at hstart
    obtain rfl := (Prod.mk.inj (Prod.mk.inj hstart).2).1
    exact ⟨hcreatable,hthreads,hnext⟩

/-- A runtime whose steps were harmless never bricks its own store: a new runtime
with the same configuration starts on what it left. -/
theorem restart_succeeds_after_harmless_run {config : RuntimeConfig} {r : ObservatoryRuntime}
    (h : HarmlessRun config r) (clock : ℕ → TimePoint) (sorter : Ranking.Sorter ranksBefore)
    (hclock : (clock 0).isSet = true) :
    ∃ created started content, create config (some clock) sorter = .ok created ∧
      created.start r.disk = (.ok (),started,content) := by
  obtain ⟨hcreatable,hthreads,hrestartable⟩ := h.restartable
  obtain ⟨records,hdisk,hreplay,-⟩ := hrestartable.disk_holds
  obtain ⟨started,content,hstart,-⟩ := @start_restartable config clock sorter r.disk records
    hcreatable.1 hthreads (fun _ => hclock) hdisk hreplay
  exact ⟨_,started,content,create_eq_ok.mpr ⟨hcreatable,rfl⟩,hstart⟩

def persistentConfig : RuntimeConfig where
  storePath := "store"
  persist := true

def createdPersistent : ObservatoryRuntime :=
  fresh persistentConfig (fun _ => ⟨0⟩) (Ranking.Sorter.insertion ranksBefore_ranksBy)

theorem create_persistent :
    create persistentConfig (some (fun _ => ⟨0⟩))
      (Ranking.Sorter.insertion ranksBefore_ranksBy) = .ok createdPersistent := rfl

/-- The runtime after its first start. -/
def bootedPersistent : ObservatoryRuntime := (createdPersistent.start none).2.1

theorem bootedPersistent_run : HarmlessRun persistentConfig bootedPersistent := by
  have hok : (createdPersistent.start none).1 = .ok () := by decide
  exact .boot create_persistent (Prod.ext hok rfl)

/-- Registering a valid source and stopping leaves a store to restart on. -/
theorem restart_after_registration :
    ∃ created started content,
      create persistentConfig (some (fun _ => ⟨1⟩))
        (Ranking.Sorter.insertion ranksBefore_ranksBy) = .ok created ∧
      created.start ((bootedPersistent.perform (.registerSource authoritySource)).perform
        .stop).disk = (.ok (),started,content) := by
  have hregistered : bootedPersistent.HarmlessCall (.registerSource authoritySource) :=
    fun _ _ _ => ⟨by decide,by decide⟩
  have hrun : HarmlessRun persistentConfig
      ((bootedPersistent.perform (.registerSource authoritySource)).perform .stop) :=
    .call (.call bootedPersistent_run (fun _ => hregistered)) (fun _ => trivial)
  exact restart_succeeds_after_harmless_run hrun _ _ (by decide)

/-- A descriptor without identity is refused, but its record was written: no new
runtime starts on the store. -/
theorem refused_source_bricks_store :
    HarmlessRun persistentConfig bootedPersistent ∧
      (bootedPersistent.registerSource {}).1 ≠ .ok () ∧
      (createdPersistent.start (bootedPersistent.perform (.registerSource {})).disk).1 ≠ .ok () :=
  ⟨bootedPersistent_run,by decide +kernel,by decide +kernel⟩

end ObservatoryRuntime

end PathObservatory
