import PathObservatory.Runtime.Flushing

/-! # The history over a restart

A comparison goes into the history first and is written afterwards, if the findings take it
and the store has room. A new runtime on the store rebuilds its history from what was
written, and knows nothing of what was pruned.
-/
namespace PathObservatory
open PersistentStore

/-- What happens to a history: a comparison is added, whose record may be written too, or
the history is pruned. -/
inductive HistoryEvent
  | compared (result : StoredComparison) (isWritten : Bool)
  | pruned (now : TimePoint)
deriving DecidableEq, Repr

namespace HistoryEvent

/-- The comparison of the event, if its record is written. -/
def written : HistoryEvent → Option StoredComparison
  | compared result true => some result
  | _ => none

end HistoryEvent

namespace HistoryStore

/-- The history after an event. -/
def undergo (h : HistoryStore) : HistoryEvent → HistoryStore
  | .compared result _ => h.append result
  | .pruned now =>
    match h.prune now with
    | .error _ => h
    | .ok (_,pruned) => pruned

def undergoAll (h : HistoryStore) (events : List HistoryEvent) : HistoryStore :=
  events.foldl undergo h

theorem undergoAll_append (h : HistoryStore) (first second : List HistoryEvent) :
    h.undergoAll (first ++ second) = (h.undergoAll first).undergoAll second :=
  List.foldl_append

/-- One comparison is appended after the other. -/
def appendMany (h : HistoryStore) (results : List StoredComparison) : HistoryStore :=
  results.foldl append h

theorem appendMany_append (h : HistoryStore) (first second : List StoredComparison) :
    h.appendMany (first ++ second) = (h.appendMany first).appendMany second :=
  List.foldl_append

/-- Where every comparison is written and nothing is pruned, the events add what is
written. -/
theorem undergoAll_of_written {events : List HistoryEvent}
    (hall : ∀ event ∈ events, event.written.isSome = true) (h : HistoryStore) :
    h.undergoAll events = h.appendMany (events.filterMap HistoryEvent.written) := by
  induction events generalizing h with
  | nil => rfl
  | cons event rest ih =>
    obtain ⟨hevent,hrest⟩ := List.forall_mem_cons.mp hall
    cases event with
    | compared result isWritten =>
      cases isWritten with
      | true => exact ih hrest (h.append result)
      | false => cases hevent
    | pruned now => cases hevent

end HistoryStore

/-- The comparisons a store holds. -/
def comparisonsIn (limits : Limits) (records : List StoredRecord) : List StoredComparison :=
  records.filterMap (fun record =>
    if record.type = .comparison then
      (ObservatoryRuntime.decodeStored (Codec.decodeComparison limits) record).toOption
    else none)

theorem comparisonsIn_append (limits : Limits) (records more : List StoredRecord) :
    comparisonsIn limits (records ++ more) =
      comparisonsIn limits records ++ comparisonsIn limits more :=
  List.filterMap_append

theorem comparisonsIn_other {limits : Limits} {record : StoredRecord}
    (h : record.type ≠ .comparison) : comparisonsIn limits [record] = [] := by
  rw [comparisonsIn, List.filterMap_cons_none, List.filterMap_nil]
  exact if_neg h

/-- The history that the records of a store rebuild. -/
def rebuiltHistory (limits : Limits) (records : List StoredRecord) : HistoryStore :=
  HistoryStore.appendMany { limits := limits } (comparisonsIn limits records)

namespace ObservatoryRuntime
variable {r s t : ObservatoryRuntime}

/-- Whether the record of a comparison is written: the findings take the result, and then
the store takes the record. -/
def writes (r : ObservatoryRuntime) (result : ComparisonResult) : Bool :=
  match r.findings.record result r.now with
  | .error _ => false
  | .ok _ => (r.persistRecord .comparison (Codec.encodeComparison result)).1.toBool

/-- What comparing a bucket does to the history. -/
def chronicleBucket (r : ObservatoryRuntime) (key : SubjectKey) : List HistoryEvent :=
  match r.engine.compare (r.requestFor key) r.makeContext with
  | .error _ => []
  | .ok result => [.compared result.stored (r.tick.writes result)]

def chronicleKeys (r : ObservatoryRuntime) : List SubjectKey → List HistoryEvent
  | [] => []
  | key :: rest =>
    r.chronicleBucket key ++
      match r.compareBucket key true with
      | (.error _,_) => []
      | (.ok _,s) => s.chronicleKeys rest

/-- What a request does to the history. -/
def chronicle (r : ObservatoryRuntime) : Call → List HistoryEvent
  | .compareGroup group => (r.groupBucket group).elim [] r.chronicleBucket
  | .comparePath path => (r.pathBucket path).elim [] r.chronicleBucket
  | .compareAll => r.chronicleKeys r.evidence.keys
  | .pruneHistory => [.pruned r.now]
  | _ => []

def chronicleAll (r : ObservatoryRuntime) : List Call → List HistoryEvent
  | [] => []
  | call :: rest => r.chronicle call ++ (r.perform call).chronicleAll rest

/-- The history underwent these events, and the store took the comparisons among them
that were written. -/
structure Chronicled (limits : Limits) (r s : ObservatoryRuntime) (events : List HistoryEvent) :
    Prop where
  history : s.history = r.history.undergoAll events
  stored : ∀ records, Stored limits r.store records → ∃ more,
    Stored limits s.store (records ++ more) ∧
      comparisonsIn limits more = events.filterMap HistoryEvent.written

namespace Chronicled
variable {limits : Limits} {events later : List HistoryEvent}

theorem of_same (hhistory : s.history = r.history) (hstore : s.store = r.store) :
    Chronicled limits r s [] where
  history := hhistory
  stored records h := ⟨[],by rwa [hstore, List.append_nil],rfl⟩

theorem trans (h : Chronicled limits r s events) (k : Chronicled limits s t later) :
    Chronicled limits r t (events ++ later) where
  history := by rw [k.history, h.history, HistoryStore.undergoAll_append]
  stored records hrecords := by
    obtain ⟨more,hmore,hfirst⟩ := h.stored records hrecords
    obtain ⟨rest,hrest,hsecond⟩ := k.stored _ hmore
    refine ⟨more ++ rest,by rwa [← List.append_assoc],?_⟩
    rw [comparisonsIn_append, hfirst, hsecond, List.filterMap_append]

/-- A record of another kind is written, or refused. -/
theorem of_other (hlimits : limits.maxStoreRecordBytes < 2 ^ 32) {type : RecordType}
    {payload : ByteString} (hhistory : s.history = r.history)
    (hstore : s.store = (r.persistRecord type payload).2.store) (htype : type ≠ .comparison) :
    Chronicled limits r s [] where
  history := hhistory
  stored records h := by
    rw [hstore]
    rcases persistRecord_stored h hlimits type payload with ⟨-,hkept⟩ | ⟨-,sequence,hkept⟩
    · exact ⟨[],by rwa [List.append_nil],rfl⟩
    · exact ⟨_,hkept,comparisonsIn_other htype⟩

end Chronicled

section Steps
variable {config : RuntimeConfig} (hlimits : config.limits.maxStoreRecordBytes < 2 ^ 32)
include hlimits

theorem persistRecord_chronicled (r : ObservatoryRuntime) {type : RecordType}
    (htype : type ≠ .comparison) (payload : ByteString) :
    Chronicled config.limits r (r.persistRecord type payload).2 [] := by
  obtain ⟨store,hframe⟩ := r.persistRecord_frame type payload
  exact .of_other hlimits (by rw [hframe]) rfl htype

theorem persistFindings_chronicled (r : ObservatoryRuntime) (findings : List Finding) :
    Chronicled config.limits r (r.persistFindings findings).2 [] := by
  induction findings generalizing r with
  | nil => exact .of_same rfl rfl
  | cons finding rest ih =>
    have hone := persistRecord_chronicled hlimits r
      (show RecordType.finding ≠ .comparison by decide) (Codec.encodeFinding finding)
    rcases r.persistFindings_cons_cases finding rest with
      ⟨e,s,hpersist,hresult⟩ | ⟨s,hpersist,hresult⟩
    · rw [hpersist] at hone
      rwa [hresult]
    · rw [hpersist] at hone
      rw [hresult]
      exact hone.trans (ih s)

end Steps

/-- A record of a comparison is decoded to what went into the history. -/
theorem comparisonsIn_stored {limits : Limits} (hlimits : limits.validate = .ok ())
    {result : ComparisonResult} {count : ℕ} (h : result.Bounded count limits.maxHopsPerPath)
    (hcount : count ≤ limits.maxEvidencePerComparison)
    (hsealed : result.id = DigestId.fromDigest result.canonicalDigest) (sequence : UInt64) :
    comparisonsIn limits [{ type := .comparison, sequence := sequence,
                            payload := Codec.encodeComparison result }] = [result.stored] := by
  obtain ⟨hhops,hevidence,-⟩ := Limits.lt_of_validate hlimits
  have hstored : result.stored.id = result.stored.computeComparisonId := by
    rw [StoredComparison.computeComparisonId, StoredComparison.writeCanonical_stored]
    exact hsealed
  have hdecoded : decodeStored (Codec.decodeComparison limits)
      { type := .comparison, sequence := sequence, payload := Codec.encodeComparison result } =
        .ok result.stored := decodeStored_of_reads
    (Codec.reads_decodeComparison (comparisonFits_stored h hcount) hstored hevidence hhops)
  rw [comparisonsIn, List.filterMap_cons_some, List.filterMap_nil]
  rw [if_pos rfl, hdecoded]
  rfl

section Comparisons
variable {config : RuntimeConfig}

theorem persistComparison_written (hlimits : config.limits.validate = .ok ())
    {result : ComparisonResult} {count : ℕ} {records : List StoredRecord}
    (hresult : result.Bounded count config.limits.maxHopsPerPath)
    (hcount : count ≤ config.limits.maxEvidencePerComparison)
    (hsealed : result.id = DigestId.fromDigest result.canonicalDigest)
    (h : Stored config.limits r.store records) :
    ∃ more, Stored config.limits (r.persistComparison result).2.store (records ++ more) ∧
      comparisonsIn config.limits more =
        if (r.persistRecord .comparison (Codec.encodeComparison result)).1.toBool then
          [result.stored] else [] := by
  have hbytes := (Limits.lt_of_validate hlimits).2.2.2.2
  have hwritten := persistRecord_stored h hbytes .comparison (Codec.encodeComparison result)
  rcases r.persistComparison_cases result with ⟨e,s,hpersist,hanswer⟩ | ⟨s,hpersist,hanswer⟩
  · rw [hpersist] at hwritten ⊢
    rw [hanswer]
    rcases hwritten with ⟨-,hkept⟩ | ⟨hok,-⟩
    · exact ⟨[],by rwa [List.append_nil],rfl⟩
    · cases hok
  · rw [hpersist] at hwritten ⊢
    rw [hanswer]
    rcases hwritten with ⟨⟨e,herror⟩,-⟩ | ⟨-,sequence,hkept⟩
    · cases herror
    · obtain ⟨more,hmore,hnone⟩ :=
        (persistFindings_chronicled hbytes s (s.naming result)).stored _ hkept
      refine ⟨_,by rwa [List.append_assoc] at hmore,?_⟩
      rw [comparisonsIn_append, comparisonsIn_stored hlimits hresult hcount hsealed sequence,
        hnone]
      rfl

/-- A comparison is in the history, and in the store if it was written. -/
theorem compareBucket_chronicled (h : Orderly config r) (key : SubjectKey) :
    Chronicled config.limits r (r.compareBucket key true).2 (r.chronicleBucket key) := by
  unfold chronicleBucket
  rcases r.compareBucket_cases key true with ⟨e,hcompare,hanswer⟩ | ⟨result,hcompare,hanswer⟩
  · rw [hanswer, hcompare]
    exact .of_same rfl rfl
  · obtain ⟨hbounded,hcount,hsealed⟩ := compare_bounded_of_plan h.config_eq h.plan hcompare
    rw [hanswer, hcompare, if_pos rfl]
    dsimp only
    rcases r.tick.recordComparison_cases result with
      ⟨e,hrecord,hrecorded⟩ | ⟨recorded,hrecord,hrecorded⟩
    · have hunwritten : r.tick.writes result = false := by
        unfold writes
        rw [hrecord]
      rw [hrecorded, hunwritten]
      exact ⟨rfl,fun records hrecords => ⟨[],by rwa [List.append_nil],rfl⟩⟩
    · obtain ⟨_,_,hfolded⟩ := r.tick.folded_frame result recorded
      have hstore : (r.tick.folded result recorded).store = r.tick.store := by rw [hfolded]
      obtain ⟨store,hframe⟩ := (r.tick.folded result recorded).persistComparison_frame result
      have hwrites : r.tick.writes result = ((r.tick.folded result recorded).persistRecord
          .comparison (Codec.encodeComparison result)).1.toBool := by
        unfold writes
        rw [hrecord, (persistRecord_congr hstore .comparison _).1]
      rw [hrecorded, hwrites]
      refine ⟨?_,fun records hrecords => ?_⟩
      · rw [hframe, hfolded]
        rfl
      · obtain ⟨more,hmore,hcomparisons⟩ := persistComparison_written h.limits hbounded hcount
          hsealed (r := r.tick.folded result recorded) (hstore ▸ hrecords)
        refine ⟨more,hmore,hcomparisons.trans ?_⟩
        split_ifs with hkept
        · rw [hkept]
          rfl
        · rw [Bool.eq_false_of_not_eq_true hkept]
          rfl

theorem chronicleKeys_cons (r : ObservatoryRuntime) (key : SubjectKey) (rest : List SubjectKey) :
    r.chronicleKeys (key :: rest) = r.chronicleBucket key ++
      match r.compareBucket key true with
      | (.error _,_) => []
      | (.ok _,s) => s.chronicleKeys rest := by
  exact Eq.refl _

theorem compareKeys_chronicled (h : Orderly config r) (keys : List SubjectKey) :
    Chronicled config.limits r (r.compareKeys keys).2 (r.chronicleKeys keys) := by
  induction keys generalizing r with
  | nil => exact .of_same rfl rfl
  | cons key rest ih =>
    have hone := compareBucket_chronicled h key
    have hkept := h.compareBucket key
    rw [chronicleKeys_cons]
    rcases r.compareKeys_cons_cases key rest with
      ⟨e,s,hfirst,hanswer⟩ | ⟨result,s,hfirst,hanswer⟩
    · rw [hfirst] at hone
      rw [hanswer, hfirst, List.append_nil]
      exact hone
    · rw [hfirst] at hone hkept
      rw [hanswer, hfirst]
      exact hone.trans (ih hkept)

theorem compareGroup_chronicled (h : Orderly config r) (group : PathGroupId) :
    Chronicled config.limits r (r.compareGroup group).2 (r.chronicle (.compareGroup group)) := by
  rw [chronicle]
  rcases r.compareGroup_cases group with ⟨key,hkey,hanswer⟩ | ⟨hnone,e,hanswer⟩
  · rw [hanswer, hkey]
    exact compareBucket_chronicled h key
  · rw [hanswer, hnone]
    exact .of_same rfl rfl

theorem comparePath_chronicled (h : Orderly config r) (path : PathId) :
    Chronicled config.limits r (r.comparePath path).2 (r.chronicle (.comparePath path)) := by
  rw [chronicle]
  rcases r.comparePath_cases path with ⟨key,hkey,hanswer⟩ | ⟨hnone,e,hanswer⟩
  · rw [hanswer, hkey]
    exact compareBucket_chronicled h key
  · rw [hanswer, hnone]
    exact .of_same rfl rfl

theorem registerSource_chronicled (h : Orderly config r) (descriptor : SourceDescriptor) :
    Chronicled config.limits r (r.registerSource descriptor).2 [] := by
  have hbytes := (Limits.lt_of_validate h.limits).2.2.2.2
  have hone := persistRecord_chronicled hbytes r (show RecordType.source ≠ .comparison by decide)
    (Codec.encodeSource descriptor)
  rcases r.registerSource_cases descriptor with ⟨e,s,hpersist,hresult⟩ |
    ⟨s,hpersist,⟨e,-,hresult⟩ | ⟨sources,-,hresult⟩⟩
  · rw [hpersist] at hone
    rwa [hresult]
  · rw [hpersist] at hone
    rwa [hresult]
  · rw [hpersist] at hone
    rw [hresult]
    exact ⟨hone.history,hone.stored⟩

theorem publishTopology_chronicled (h : Orderly config r) (g : TopologyGeneration) :
    Chronicled config.limits r (r.publishTopology g).2 [] := by
  have hbytes := (Limits.lt_of_validate h.limits).2.2.2.2
  rcases r.publishTopology_cases g with
    ⟨_,hresult⟩ | ⟨_,-,-,hresult⟩ | ⟨admitted,index,-,-,-,hresult⟩
  · rw [hresult]
    exact .of_same rfl rfl
  · rw [hresult]
    exact .of_same rfl rfl
  · have hone := persistRecord_chronicled hbytes (r.adoptTopology admitted index)
      (show RecordType.topologyGeneration ≠ .comparison by decide) (Codec.encodeTopology admitted)
    rw [hresult]
    exact ⟨hone.history,hone.stored⟩

theorem publishRoutes_chronicled (h : Orderly config r) (g : RouteGeneration) :
    Chronicled config.limits r (r.publishRoutes g).2 [] := by
  have hbytes := (Limits.lt_of_validate h.limits).2.2.2.2
  rcases r.publishRoutes_cases g with ⟨_,hresult⟩ | ⟨_,-,-,hresult⟩ | ⟨admitted,-,-,hresult⟩
  · rw [hresult]
    exact .of_same rfl rfl
  · rw [hresult]
    exact .of_same rfl rfl
  · have hone := persistRecord_chronicled hbytes (r.adoptRoutes admitted)
      (show RecordType.routeGeneration ≠ .comparison by decide) (Codec.encodeRoutes admitted)
    rw [hresult]
    exact ⟨hone.history,hone.stored⟩

theorem ingestEvidence_chronicled (h : Orderly config r) (e : ObservedPathEvidence) :
    Chronicled config.limits r (r.ingestEvidence e).2 [] := by
  have hbytes := (Limits.lt_of_validate h.limits).2.2.2.2
  have hhistory : (r.ingestEvidence e).2.history = r.history := by
    obtain ⟨_,_,_,_,hframe⟩ := r.ingestEvidence_frame e
    rw [hframe]
  rcases r.ingestEvidence_keeps e with hnothing | ⟨-,key,hrecord⟩
  · rcases hnothing.store with hsame | ⟨-,hstore⟩
    · exact .of_same hhistory hsame
    · exact .of_other hbytes hhistory hstore (by decide)
  · exact .of_other hbytes hhistory hrecord.store (by decide)

theorem stop_chronicled (r : ObservatoryRuntime) : Chronicled config.limits r r.stop.2 [] := by
  rcases r.stop_cases with ⟨state,hresult⟩ | ⟨store,state,hstore,hresult⟩
  · rw [hresult]
    exact .of_same rfl rfl
  · rw [hresult]
    refine ⟨rfl,fun records hrecords => ⟨[],?_,rfl⟩⟩
    obtain ⟨kept,hkept,hretains⟩ := hrecords
    obtain rfl := Option.some.inj (hstore.symm.trans hkept)
    rw [List.append_nil]
    exact ⟨_,rfl,hretains.markClean r.now⟩

theorem pruneHistory_chronicled (r : ObservatoryRuntime) :
    Chronicled config.limits r r.pruneHistory.2 (r.chronicle .pruneHistory) where
  history := by
    have hpruned : r.history.undergoAll (r.chronicle .pruneHistory) =
        r.history.undergo (.pruned r.now) := rfl
    rw [hpruned]
    cases hprune : r.history.prune r.now with
    | error e =>
      simp only [pruneHistory, HistoryStore.undergo, hprune]
      rfl
    | ok pruned => simp only [pruneHistory, HistoryStore.undergo, hprune]
  stored records hrecords := by
    obtain ⟨history,hframe⟩ := r.pruneHistory_frame
    rw [hframe]
    exact ⟨[],by rwa [List.append_nil],rfl⟩

theorem perform_chronicled (h : Orderly config r) (call : Call) :
    Chronicled config.limits r (r.perform call) (r.chronicle call) := by
  have hbytes := (Limits.lt_of_validate h.limits).2.2.2.2
  cases call with
  | registerSource descriptor => exact registerSource_chronicled h descriptor
  | publishTopology g => exact publishTopology_chronicled h g
  | publishRoutes g => exact publishRoutes_chronicled h g
  | ingestEvidence e => exact ingestEvidence_chronicled h e
  | compareGroup group => exact compareGroup_chronicled h group
  | comparePath path => exact comparePath_chronicled h path
  | compareAll => exact compareKeys_chronicled h _
  | acknowledgeFinding id =>
    rw [perform]
    unfold acknowledgeFinding
    split <;> exact .of_same rfl rfl
  | pruneHistory => exact pruneHistory_chronicled r
  | flush =>
    rw [perform]
    rcases r.flush_cases with ⟨-,hresult⟩ | ⟨-,hresult⟩
    · rw [hresult]
      exact .of_same rfl rfl
    · rw [hresult]
      exact persistFindings_chronicled hbytes r _
  | stop => exact stop_chronicled r

/-- So for one request after the other. -/
theorem performAll_chronicled (h : Orderly config r) (calls : List Call) :
    Chronicled config.limits r (calls.foldl perform r) (r.chronicleAll calls) := by
  induction calls generalizing r with
  | nil => exact .of_same rfl rfl
  | cons call rest ih => exact (perform_chronicled h call).trans (ih (h.perform call))

end Comparisons

/-- Of all records only those of comparisons touch the history. -/
theorem restoreRecord_history {record : StoredRecord} (h : r.restoreRecord record = .ok s) :
    s.history = r.history.appendMany (comparisonsIn r.config.limits [record]) := by
  have hother : record.type ≠ .comparison → s.history = r.history →
      s.history = r.history.appendMany (comparisonsIn r.config.limits [record]) := by
    intro htype hsame
    rw [comparisonsIn_other htype]
    exact hsame
  unfold restoreRecord at h
  cases htype : record.type with
  | evidence =>
    rw [htype] at h
    obtain ⟨e,-,h⟩ := bind_eq_ok.mp h
    obtain ⟨_,hframe⟩ := r.restoreEvidence_frame e
    refine hother (by simp [htype]) ?_
    rw [← Except.ok.inj h, hframe]
  | comparison =>
    rw [htype] at h
    obtain ⟨comparison,hdecoded,h⟩ := bind_eq_ok.mp h
    rw [← Except.ok.inj h, comparisonsIn, List.filterMap_cons_some, List.filterMap_nil]
    · rfl
    · rw [if_pos htype, hdecoded]
      rfl
  | finding =>
    rw [htype] at h
    obtain ⟨finding,-,h⟩ := bind_eq_ok.mp h
    obtain ⟨findings,-,h⟩ := bind_eq_ok.mp h
    exact hother (by simp [htype]) (congrArg history (Except.ok.inj h)).symm
  | source =>
    rw [htype] at h
    obtain ⟨descriptor,-,h⟩ := bind_eq_ok.mp h
    obtain ⟨sources,-,h⟩ := bind_eq_ok.mp h
    exact hother (by simp [htype]) (congrArg history (Except.ok.inj h)).symm
  | topologyGeneration | routeGeneration | marker =>
    rw [htype] at h
    exact hother (by simp [htype]) (congrArg history (Except.ok.inj h)).symm

/-- What is restored goes into the history in the order of the records. -/
theorem restoreRecords_history {records : List StoredRecord}
    (h : r.restoreRecords records = (.ok (),s)) :
    s.history = r.history.appendMany (comparisonsIn r.config.limits records) := by
  induction records generalizing r with
  | nil =>
    rw [restoreRecords] at h
    obtain rfl := (Prod.mk.inj h).2
    rfl
  | cons record rest ih =>
    rw [restoreRecords] at h
    cases hrecord : r.restoreRecord record with
    | error e =>
      rw [hrecord] at h
      cases congrArg Prod.fst h
    | ok next =>
      rw [hrecord] at h
      have hconfig : next.config = r.config := by
        obtain ⟨_,_,_,_,rfl⟩ := restoreRecord_frame hrecord
        rfl
      rw [ih h, hconfig, restoreRecord_history hrecord, ← HistoryStore.appendMany_append,
        ← comparisonsIn_append]
      rfl

section Restart
variable {config : RuntimeConfig} {clock : ℕ → TimePoint} {sorter : Ranking.Sorter ranksBefore}
  {content after : Option ByteString} {started : ObservatoryRuntime}

/-- The history of a persistent runtime that was started is what its store rebuilds. -/
theorem history_of_start (hlimits : config.limits.validate = .ok ())
    (hpersist : config.persist = true) (hload : config.loadEvidenceOnStart = true)
    (hstart : (fresh config clock sorter).start content = (.ok (),started,after)) :
    ∃ records, Stored config.limits started.store records ∧
      started.history = rebuiltHistory config.limits records := by
  obtain ⟨hthreads,-⟩ := checks_of_start hlimits hstart
  rw [start_fresh hthreads, if_pos hpersist] at hstart
  unfold recover at hstart
  rcases hopen : PersistentStore.open_ (fresh config clock sorter).config.storePath
    (fresh config clock sorter).storeOptions (fresh config clock sorter).now content with
    ⟨e | store,opened⟩
  · rw [hopen] at hstart
    cases congrArg Prod.fst hstart
  · have hloads : (fresh config clock sorter).config.loadEvidenceOnStart = true := hload
    have hstore := (fresh config clock sorter).restoreFromStore_store store
    rw [hopen] at hstart
    simp only [hloads, if_true] at hstart
    rcases hrestore : ((fresh config clock sorter).opened store).restoreFromStore with ⟨e | _,s⟩
    · rw [hrestore] at hstart
      cases congrArg Prod.fst hstart
    · rw [hrestore] at hstart hstore
      obtain rfl := (Prod.mk.inj (Prod.mk.inj hstart).2).1
      obtain ⟨-,records,hretains⟩ := retains_of_open (congrArg Prod.fst hopen)
      have hrecords : ((fresh config clock sorter).opened store).restoreRecords records =
          (.ok (),s) := by
        unfold restoreFromStore at hrestore
        simp only [ObservatoryRuntime.opened, hretains.readAll] at hrestore
        exact hrestore
      exact ⟨records,⟨store,hstore,hretains⟩,restoreRecords_history hrecords⟩

/-- A new runtime finds the records that the file of a store holds. -/
theorem records_of_restart {store : PersistentStore} {records found : List StoredRecord}
    (hlimits : config.limits.validate = .ok ()) (hpersist : config.persist = true)
    (hretains : store.Retains config.limits records)
    (hstart : (fresh config clock sorter).start (some store.file) = (.ok (),started,after))
    (hfound : Stored config.limits started.store found) : found = records := by
  obtain ⟨-,hclock⟩ := checks_of_start hlimits hstart
  obtain ⟨again,hopen,hkept⟩ := hretains.reopen hlimits (hclock hpersist) config.storePath
  obtain ⟨held,hheld,hfound⟩ := hfound
  rcases start_store_of_persist (r := fresh config clock sorter) hpersist (some store.file) with
    ⟨⟨e,herror⟩,-⟩ | ⟨opened,hopened,hstore⟩
  · rw [hstart] at herror
    cases herror
  · rw [hstart] at hstore
    obtain rfl : again = opened :=
      Except.ok.inj ((congrArg Prod.fst hopen).symm.trans hopened)
    obtain rfl := Option.some.inj (hheld.symm.trans hstore)
    exact Except.ok.inj (hfound.readAll.symm.trans hkept.readAll)

end Restart

/-- Whatever requests a persistent runtime has served since it was started on a file, its
history is the one it started with after every comparison and every pruning since. A new
runtime on the store that loads what it holds has the history of the comparisons that were
written, none pruned, which is the same history when all were written and nothing was
pruned. -/
theorem history_over_restart {config : RuntimeConfig} {clock : ℕ → TimePoint}
    {sorter : Ranking.Sorter ranksBefore} {content after : Option ByteString}
    {created booted : ObservatoryRuntime} (hpersist : config.persist = true)
    (hcreate : create config (some clock) sorter = .ok created)
    (hboot : created.start content = (.ok (),booted,after)) (calls : List Call) :
    (calls.foldl perform booted).history =
        booted.history.undergoAll (booted.chronicleAll calls) ∧
      (config.loadEvidenceOnStart = true →
        ∀ newClock newSorter newcomer restarted left,
          create config (some newClock) newSorter = .ok newcomer →
          newcomer.start (calls.foldl perform booted).disk = (.ok (),restarted,left) →
          restarted.history = booted.history.appendMany
              ((booted.chronicleAll calls).filterMap HistoryEvent.written) ∧
            ((∀ event ∈ booted.chronicleAll calls, event.written.isSome = true) →
              restarted.history = (calls.foldl perform booted).history)) := by
  have hrun : PersistentRun config booted := .boot hcreate hboot
  obtain ⟨⟨hlimits,-,-⟩,rfl⟩ := create_eq_ok.mp hcreate
  have hmade := performAll_chronicled hrun.orderly calls
  refine ⟨hmade.history,?_⟩
  intro hload newClock newSorter newcomer restarted left hnew hrestart
  obtain ⟨-,rfl⟩ := create_eq_ok.mp hnew
  obtain ⟨records,hstored,hhistory⟩ := history_of_start hlimits hpersist hload hboot
  obtain ⟨more,⟨store,hstore,hretains⟩,hwritten⟩ := hmade.stored records hstored
  have hdisk : (calls.foldl perform booted).disk = some store.file := by
    rw [disk, hstore, Option.map_some]
  rw [hdisk] at hrestart
  obtain ⟨found,hfound,hrestored⟩ := history_of_start hlimits hpersist hload hrestart
  obtain rfl := records_of_restart hlimits hpersist hretains hrestart hfound
  have hnewHistory : restarted.history = booted.history.appendMany
      ((booted.chronicleAll calls).filterMap HistoryEvent.written) := by
    rw [hrestored, rebuiltHistory, comparisonsIn_append, hwritten,
      HistoryStore.appendMany_append, hhistory, rebuiltHistory]
  refine ⟨hnewHistory,fun hall => ?_⟩
  rw [hnewHistory, hmade.history, HistoryStore.undergoAll_of_written hall]

/-- A plan is published, a trace offered and its group compared. -/
def flaggingCalls : List Call :=
  [.registerSource authoritySource,.registerSource probeSource,
    .publishTopology (emptyTopology 1),.publishRoutes ComparisonEngine.samplePlan,
    .ingestEvidence laterEvidence,.compareGroup ⟨1⟩]

theorem performAll_flaggingCalls : flaggingCalls.foldl perform bootedAtWork = flagged := by
  have hcalls : flaggingCalls = flaggingCalls.dropLast ++ [.compareGroup ⟨1⟩] := rfl
  rw [hcalls, List.foldl_append, List.foldl_cons, List.foldl_nil]
  rfl

/-- The comparison is in the history of a new runtime. -/
theorem flagged_comparison_remembered : ∃ started after,
    createdAtWork.start (flaggingCalls.foldl perform bootedAtWork).disk =
        (.ok (),started,after) ∧
      started.history = (flaggingCalls.foldl perform bootedAtWork).history ∧
      started.history.records.length = 1 := by
  have hevaluated : (bootedAtWork.chronicleAll flaggingCalls).all (·.written.isSome) = true ∧
      (flaggingCalls.foldl perform bootedAtWork).history.records.length = 1 := by
    decide +kernel
  have hok : (createdAtWork.start none).1 = .ok () := by decide
  obtain ⟨hthreads,hremembered⟩ := flagged_lasting.remembered rfl rfl
  obtain ⟨records,hstored,hreplay⟩ := hremembered.stored
  obtain ⟨store,hdisk,hretains⟩ := disk_of_stored hstored (Or.inl rfl)
  obtain ⟨started,after,hstart,-⟩ := @start_of_retains persistentConfig (fun _ => ⟨1000⟩)
    (Ranking.Sorter.insertion ranksBefore_ranksBy) _ _ _ hremembered.limits hthreads rfl rfl
    (by decide) hretains hreplay
  have hrestart : createdAtWork.start (flaggingCalls.foldl perform bootedAtWork).disk =
      (.ok (),started,after) := by
    rw [performAll_flaggingCalls, hdisk]
    exact hstart
  have hover := history_over_restart rfl create_atWork (Prod.ext hok rfl) flaggingCalls
  obtain ⟨-,hsame⟩ := hover.2 rfl _ _ _ _ _ create_atWork hrestart
  have hhistory := hsame (List.all_eq_true.mp hevaluated.1)
  refine ⟨started,after,hrestart,hhistory,?_⟩
  rw [hhistory]
  exact hevaluated.2

end ObservatoryRuntime

end PathObservatory
