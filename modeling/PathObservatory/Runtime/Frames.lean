import PathObservatory.Runtime.Pipeline

/-! # What the requests leave alone

Only a publication moves expected state, only an offer of evidence moves the
ledger and the buckets, and only a registration moves the sources. Everything else
a request does is bookkeeping: readings of the clock, history, findings, store and
lifecycle.
-/
namespace PathObservatory
namespace ObservatoryRuntime

/-- The states differ in bookkeeping at most. -/
def SameSubject (r s : ObservatoryRuntime) : Prop :=
  ∃ readings history findings store state, s = { r with
    readings := readings, history := history, findings := findings, store := store,
    state := state }

namespace SameSubject
variable {r s t : ObservatoryRuntime}

theorem refl (r : ObservatoryRuntime) : SameSubject r r := ⟨_,_,_,_,_,rfl⟩

theorem trans (h : SameSubject r s) (k : SameSubject s t) : SameSubject r t := by
  obtain ⟨_,_,_,_,_,rfl⟩ := h
  obtain ⟨readings,history,findings,store,state,rfl⟩ := k
  exact ⟨readings,history,findings,store,state,rfl⟩

theorem tick (r : ObservatoryRuntime) : SameSubject r r.tick := ⟨_,_,_,_,_,rfl⟩

end SameSubject

/-- Persisting touches nothing but the store. -/
theorem persistRecord_frame (r : ObservatoryRuntime) (type : RecordType) (payload : ByteString) :
    ∃ store, (r.persistRecord type payload).2 = { r with store := store } := by
  unfold persistRecord
  split
  · exact ⟨r.store,rfl⟩
  · exact ⟨_,rfl⟩

theorem persistRecord_of_no_store {r : ObservatoryRuntime} (h : r.store = none)
    (type : RecordType) (payload : ByteString) : r.persistRecord type payload = (.ok (),r) := by
  unfold persistRecord
  rw [h]

/-- Findings are written up to the first that is refused. -/
theorem persistFindings_cons_cases (r : ObservatoryRuntime) (finding : Finding)
    (rest : List Finding) :
    (∃ e s, r.persistRecord .finding (Codec.encodeFinding finding) = (.error e,s) ∧
      r.persistFindings (finding :: rest) = (.error e,s)) ∨
    ∃ s, r.persistRecord .finding (Codec.encodeFinding finding) = (.ok (),s) ∧
      r.persistFindings (finding :: rest) = s.persistFindings rest := by
  rw [persistFindings]
  split
  · rename_i e s hpersist
    exact Or.inl ⟨e,s,hpersist,rfl⟩
  · rename_i s hpersist
    exact Or.inr ⟨s,hpersist,rfl⟩

theorem persistFindings_frame (r : ObservatoryRuntime) (findings : List Finding) :
    ∃ store, (r.persistFindings findings).2 = { r with store := store } := by
  induction findings generalizing r with
  | nil => exact ⟨r.store,rfl⟩
  | cons finding rest ih =>
    obtain ⟨store,hstore⟩ := r.persistRecord_frame .finding (Codec.encodeFinding finding)
    rcases r.persistFindings_cons_cases finding rest with
      ⟨e,s,hpersist,hresult⟩ | ⟨s,hpersist,hresult⟩
    · rw [hpersist] at hstore
      rw [hresult]
      exact ⟨store,hstore⟩
    · rw [hpersist] at hstore
      obtain rfl : s = { r with store := store } := hstore
      rw [hresult]
      exact ih { r with store := store }

/-- The findings on file that name the comparison. -/
def naming (r : ObservatoryRuntime) (result : ComparisonResult) : List Finding :=
  r.findings.all.filter (·.lastComparison = result.id)

/-- The comparison is refused, or it is written and the findings that name it follow. -/
theorem persistComparison_cases (r : ObservatoryRuntime) (result : ComparisonResult) :
    (∃ e s, r.persistRecord .comparison (Codec.encodeComparison result) = (.error e,s) ∧
      r.persistComparison result = (.error e,s)) ∨
    ∃ s, r.persistRecord .comparison (Codec.encodeComparison result) = (.ok (),s) ∧
      r.persistComparison result =
        ((s.persistFindings (s.naming result)).1.map fun _ => result,
          (s.persistFindings (s.naming result)).2) := by
  unfold persistComparison
  split
  · rename_i e s hpersist
    exact Or.inl ⟨e,s,hpersist,rfl⟩
  · rename_i s hpersist
    refine Or.inr ⟨s,hpersist,?_⟩
    rw [naming]
    rcases s.persistFindings (s.findings.all.filter (·.lastComparison = result.id)) with ⟨e | _,t⟩
    · rfl
    · rfl

theorem persistComparison_frame (r : ObservatoryRuntime) (result : ComparisonResult) :
    ∃ store, (r.persistComparison result).2 = { r with store := store } := by
  obtain ⟨store,hstore⟩ := r.persistRecord_frame .comparison (Codec.encodeComparison result)
  rcases r.persistComparison_cases result with ⟨e,s,hpersist,hresult⟩ | ⟨s,hpersist,hresult⟩
  · rw [hpersist] at hstore
    rw [hresult]
    exact ⟨store,hstore⟩
  · rw [hpersist] at hstore
    obtain rfl : s = { r with store := store } := hstore
    rw [hresult]
    exact persistFindings_frame { r with store := store } _

theorem SameSubject.of_store {r s : ObservatoryRuntime}
    (h : ∃ store, s = { r with store := store }) : SameSubject r s := by
  obtain ⟨store,rfl⟩ := h
  exact ⟨_,_,_,store,_,rfl⟩

/-- The runtime with the result in its history and in its findings. -/
def folded (r : ObservatoryRuntime) (result : ComparisonResult)
    (recorded : FindingId × FindingRegistry) : ObservatoryRuntime :=
  { { r with history := r.history.append result.stored }.tick with
    findings := recorded.2 }.settleFindings result recorded.1

/-- Folding a result in reads the clock and touches history and findings. -/
theorem folded_frame (r : ObservatoryRuntime) (result : ComparisonResult)
    (recorded : FindingId × FindingRegistry) :
    ∃ readings findings, r.folded result recorded = { r with
      history := r.history.append result.stored, readings := readings, findings := findings } := by
  unfold folded settleFindings
  split_ifs <;> exact ⟨_,_,rfl⟩

theorem recordComparison_of_refused {r : ObservatoryRuntime} {result : ComparisonResult} {e : Error}
    (h : r.findings.record result r.now = .error e) :
    r.recordComparison result =
      (.error e,{ r with history := r.history.append result.stored }.tick) := by
  unfold recordComparison
  have hrefused : ({ r with history := r.history.append result.stored } :
      ObservatoryRuntime).findings.record result
        ({ r with history := r.history.append result.stored } : ObservatoryRuntime).now =
      .error e := h
  simp only [hrefused]

/-- What the registry took goes on to the store. -/
theorem recordComparison_of_record {r : ObservatoryRuntime} {result : ComparisonResult}
    {recorded : FindingId × FindingRegistry} (h : r.findings.record result r.now = .ok recorded) :
    r.recordComparison result = (r.folded result recorded).persistComparison result := by
  unfold recordComparison
  have hrecorded : ({ r with history := r.history.append result.stored } :
      ObservatoryRuntime).findings.record result
        ({ r with history := r.history.append result.stored } : ObservatoryRuntime).now =
      .ok recorded := h
  simp only [hrecorded, folded]

/-- Recording a result fails at the registry, or goes on to the store. -/
theorem recordComparison_cases (r : ObservatoryRuntime) (result : ComparisonResult) :
    (∃ e, r.findings.record result r.now = .error e ∧ r.recordComparison result =
      (.error e,{ r with history := r.history.append result.stored }.tick)) ∨
    ∃ recorded, r.findings.record result r.now = .ok recorded ∧
      r.recordComparison result = (r.folded result recorded).persistComparison result := by
  cases hrecord : r.findings.record result r.now with
  | error e => exact Or.inl ⟨e,rfl,recordComparison_of_refused hrecord⟩
  | ok recorded => exact Or.inr ⟨recorded,rfl,recordComparison_of_record hrecord⟩

theorem recordComparison_sameSubject (r : ObservatoryRuntime) (result : ComparisonResult) :
    SameSubject r (r.recordComparison result).2 := by
  rcases r.recordComparison_cases result with ⟨e,-,hresult⟩ | ⟨recorded,-,hresult⟩
  · rw [hresult]
    exact ⟨_,_,_,_,_,rfl⟩
  · obtain ⟨readings,findings,hfolded⟩ := r.folded_frame result recorded
    obtain ⟨store,hframe⟩ := (r.folded result recorded).persistComparison_frame result
    rw [hresult, hframe, hfolded]
    exact ⟨_,_,_,_,_,rfl⟩

theorem compareBucket_of_compare {r : ObservatoryRuntime} {key : SubjectKey}
    {result : ComparisonResult}
    (h : r.engine.compare (r.requestFor key) r.makeContext = .ok result) (record : Bool) :
    r.compareBucket key record =
      if record then r.tick.recordComparison result else (.ok result,r.tick) := by
  unfold compareBucket
  rw [h]

/-- The engine refuses, or its result is recorded where that is asked for. -/
theorem compareBucket_cases (r : ObservatoryRuntime) (key : SubjectKey) (record : Bool) :
    (∃ e, r.engine.compare (r.requestFor key) r.makeContext = .error e ∧
      r.compareBucket key record = (.error e,r.tick)) ∨
    ∃ result, r.engine.compare (r.requestFor key) r.makeContext = .ok result ∧
      r.compareBucket key record =
        if record then r.tick.recordComparison result else (.ok result,r.tick) := by
  cases hcompare : r.engine.compare (r.requestFor key) r.makeContext with
  | error e =>
    refine Or.inl ⟨e,rfl,?_⟩
    unfold compareBucket
    rw [hcompare]
  | ok result => exact Or.inr ⟨result,rfl,compareBucket_of_compare hcompare record⟩

theorem compareBucket_sameSubject (r : ObservatoryRuntime) (key : SubjectKey) (record : Bool) :
    SameSubject r (r.compareBucket key record).2 := by
  rcases r.compareBucket_cases key record with ⟨e,-,hresult⟩ | ⟨result,-,hresult⟩
  · rw [hresult]
    exact .tick r
  · rw [hresult]
    split
    · exact (SameSubject.tick r).trans (r.tick.recordComparison_sameSubject result)
    · exact .tick r

theorem compareKeys_cons (r : ObservatoryRuntime) (key : SubjectKey) (rest : List SubjectKey) :
    r.compareKeys (key :: rest) = match r.compareBucket key true with
      | (.error e,r) => (.error e,r)
      | (.ok result,r) =>
        match r.compareKeys rest with
        | (.error e,r) => (.error e,r)
        | (.ok results,r) => (.ok (result :: results),r) := by
  exact Eq.refl _

/-- The keys are compared in turn, up to the first that fails. -/
theorem compareKeys_cons_cases (r : ObservatoryRuntime) (key : SubjectKey)
    (rest : List SubjectKey) :
    (∃ e s, r.compareBucket key true = (.error e,s) ∧
      r.compareKeys (key :: rest) = (.error e,s)) ∨
    ∃ result s, r.compareBucket key true = (.ok result,s) ∧
      r.compareKeys (key :: rest) =
        ((s.compareKeys rest).1.map (result :: ·),(s.compareKeys rest).2) := by
  rw [compareKeys_cons]
  rcases hone : r.compareBucket key true with ⟨e | result,s⟩
  · exact Or.inl ⟨e,s,rfl,rfl⟩
  · refine Or.inr ⟨result,s,rfl,?_⟩
    rcases hrest : s.compareKeys rest with ⟨e | results,t⟩
    · simp only [hrest]
      rfl
    · simp only [hrest]
      rfl

/-- What every comparison of a bucket keeps, comparing them in turn keeps. -/
theorem compareKeys_preserves {P : ObservatoryRuntime → Prop}
    (hstep : ∀ s key, P s → P (s.compareBucket key true).2) {r : ObservatoryRuntime} (hr : P r)
    (keys : List SubjectKey) : P (r.compareKeys keys).2 := by
  induction keys generalizing r with
  | nil => exact hr
  | cons key rest ih =>
    have hone := hstep r key hr
    rcases r.compareKeys_cons_cases key rest with ⟨e,s,hfirst,hresult⟩ | ⟨result,s,hfirst,hresult⟩
    · rw [hfirst] at hone
      rw [hresult]
      exact hone
    · rw [hfirst] at hone
      rw [hresult]
      exact ih hone

theorem compareKeys_sameSubject (r : ObservatoryRuntime) (keys : List SubjectKey) :
    SameSubject r (r.compareKeys keys).2 :=
  compareKeys_preserves (P := SameSubject r)
    (fun s key hs => hs.trans (s.compareBucket_sameSubject key true)) (.refl r) keys

theorem compareGroup_of_bucket {r : ObservatoryRuntime} {group : PathGroupId} {key : SubjectKey}
    (h : r.groupBucket group = some key) : r.compareGroup group = r.compareBucket key true := by
  unfold compareGroup
  rw [h]

/-- A comparison of a group is one of its first bucket. -/
theorem compareGroup_cases (r : ObservatoryRuntime) (group : PathGroupId) :
    (∃ key, r.groupBucket group = some key ∧ r.compareGroup group = r.compareBucket key true) ∨
    (r.groupBucket group = none ∧ ∃ e, r.compareGroup group = (.error e,r)) := by
  cases hbucket : r.groupBucket group with
  | none =>
    refine Or.inr ⟨rfl,?_⟩
    unfold compareGroup
    rw [hbucket]
    exact ⟨_,rfl⟩
  | some key => exact Or.inl ⟨key,rfl,compareGroup_of_bucket hbucket⟩

/-- The bucket that a comparison of the path looks at. -/
def pathBucket (r : ObservatoryRuntime) (path : PathId) : Option SubjectKey := do
  let routes ← r.routes
  let expected ← routes.findPath path
  r.groupBucket expected.group

theorem pathBucket_eq_some {r : ObservatoryRuntime} {path : PathId} {key : SubjectKey} :
    r.pathBucket path = some key ↔ ∃ routes expected, r.routes = some routes ∧
      routes.findPath path = some expected ∧ r.groupBucket expected.group = some key := by
  unfold pathBucket
  simp only [Option.bind_eq_bind, Option.bind_eq_some_iff]
  constructor
  · rintro ⟨routes,hroutes,expected,hexpected,hkey⟩
    exact ⟨routes,expected,hroutes,hexpected,hkey⟩
  · rintro ⟨routes,expected,hroutes,hexpected,hkey⟩
    exact ⟨routes,hroutes,expected,hexpected,hkey⟩

theorem comparePath_of_bucket {r : ObservatoryRuntime} {path : PathId} {key : SubjectKey}
    (h : r.pathBucket path = some key) : r.comparePath path = r.compareBucket key true := by
  obtain ⟨routes,expected,hroutes,hexpected,hkey⟩ := pathBucket_eq_some.mp h
  unfold comparePath
  simp only [hroutes, hexpected, hkey]

/-- A comparison of a path is one of the first bucket of its group. -/
theorem comparePath_cases (r : ObservatoryRuntime) (path : PathId) :
    (∃ key, r.pathBucket path = some key ∧ r.comparePath path = r.compareBucket key true) ∨
    (r.pathBucket path = none ∧ ∃ e, r.comparePath path = (.error e,r)) := by
  cases hbucket : r.pathBucket path with
  | some key => exact Or.inl ⟨key,rfl,comparePath_of_bucket hbucket⟩
  | none =>
    refine Or.inr ⟨rfl,?_⟩
    unfold comparePath
    split
    · exact ⟨_,rfl⟩
    · rename_i routes hroutes
      split
      · exact ⟨_,rfl⟩
      · rename_i expected hexpected
        split
        · rename_i key hkey
          rw [pathBucket_eq_some.mpr ⟨routes,expected,hroutes,hexpected,hkey⟩] at hbucket
          cases hbucket
        · exact ⟨_,rfl⟩

/-- A comparison of a group or of a path keeps what the comparison of a bucket keeps. -/
theorem compareGroup_preserves {P : ObservatoryRuntime → Prop} {r : ObservatoryRuntime}
    {group : PathGroupId} (hr : P r)
    (hstep : ∀ key, r.groupBucket group = some key → P (r.compareBucket key true).2) :
    P (r.compareGroup group).2 := by
  rcases r.compareGroup_cases group with ⟨key,hkey,hresult⟩ | ⟨-,e,hresult⟩
  · rw [hresult]
    exact hstep key hkey
  · rwa [hresult]

theorem comparePath_preserves {P : ObservatoryRuntime → Prop} {r : ObservatoryRuntime}
    {path : PathId} (hr : P r)
    (hstep : ∀ key, r.pathBucket path = some key → P (r.compareBucket key true).2) :
    P (r.comparePath path).2 := by
  rcases r.comparePath_cases path with ⟨key,hkey,hresult⟩ | ⟨-,e,hresult⟩
  · rw [hresult]
    exact hstep key hkey
  · rwa [hresult]

theorem compareGroup_sameSubject (r : ObservatoryRuntime) (group : PathGroupId) :
    SameSubject r (r.compareGroup group).2 :=
  compareGroup_preserves (.refl r) fun key _ => r.compareBucket_sameSubject key true

theorem comparePath_sameSubject (r : ObservatoryRuntime) (path : PathId) :
    SameSubject r (r.comparePath path).2 :=
  comparePath_preserves (.refl r) fun key _ => r.compareBucket_sameSubject key true

theorem acknowledgeFinding_sameSubject (r : ObservatoryRuntime) (id : FindingId) :
    SameSubject r (r.acknowledgeFinding id).2 := by
  unfold acknowledgeFinding
  split <;> exact ⟨_,_,_,_,_,rfl⟩

/-- Pruning touches nothing but the history and the readings of the clock. -/
theorem pruneHistory_frame (r : ObservatoryRuntime) :
    ∃ history, r.pruneHistory.2 = { r.tick with history := history } := by
  unfold pruneHistory
  split
  · exact ⟨r.history,rfl⟩
  · exact ⟨_,rfl⟩

theorem pruneHistory_sameSubject (r : ObservatoryRuntime) : SameSubject r r.pruneHistory.2 := by
  obtain ⟨history,hframe⟩ := r.pruneHistory_frame
  rw [hframe]
  exact ⟨_,_,_,_,_,rfl⟩

/-- Without a store there is nothing to flush. -/
theorem flush_cases (r : ObservatoryRuntime) :
    (r.store = none ∧ r.flush = (.ok (),r)) ∨
    (r.store ≠ none ∧ r.flush = r.persistFindings r.findings.all) := by
  unfold flush
  cases r.store with
  | none => exact Or.inl ⟨rfl,rfl⟩
  | some store => exact Or.inr ⟨nofun,rfl⟩

theorem flush_sameSubject (r : ObservatoryRuntime) : SameSubject r r.flush.2 := by
  rcases r.flush_cases with ⟨-,hresult⟩ | ⟨-,hresult⟩
  · rw [hresult]
    exact .refl r
  · rw [hresult]
    exact .of_store (r.persistFindings_frame _)

/-- Stopping changes the state and may mark the store clean. -/
theorem stop_cases (r : ObservatoryRuntime) :
    (∃ state, r.stop.2 = { r with state := state }) ∨
    ∃ store state, r.store = some store ∧
      r.stop.2 = { r.tick with store := some (store.markClean r.now).2, state := state } := by
  unfold stop
  by_cases hstopped : r.state = .stopped
  · rw [if_pos hstopped]
    exact Or.inl ⟨r.state,rfl⟩
  · rw [if_neg hstopped]
    split
    · rename_i store hstore
      by_cases hmark : r.config.markStoreCleanOnStop = true
      · rw [if_pos hmark]
        refine Or.inr ⟨store,?_⟩
        split
        · rename_i e marked hresult
          exact ⟨.failed,hstore,by rw [hresult]⟩
        · rename_i marked hresult
          exact ⟨.stopped,hstore,by rw [hresult]⟩
      · rw [if_neg hmark]
        exact Or.inl ⟨.stopped,rfl⟩
    · exact Or.inl ⟨.stopped,rfl⟩

theorem stop_sameSubject (r : ObservatoryRuntime) : SameSubject r r.stop.2 := by
  rcases r.stop_cases with ⟨state,hstop⟩ | ⟨store,state,-,hstop⟩
  · rw [hstop]
    exact ⟨_,_,_,_,state,rfl⟩
  · rw [hstop]
    exact ⟨_,_,_,_,state,rfl⟩

/-- The expected state and the authority it came from are the same. -/
structure SameExpected (r s : ObservatoryRuntime) : Prop where
  topology : s.topology = r.topology
  topologyIndex : s.topologyIndex = r.topologyIndex
  routes : s.routes = r.routes
  epoch : s.epoch = r.epoch
  incarnation : s.incarnation = r.incarnation
  topologyRevision : s.topologyRevision = r.topologyRevision
  routeRevision : s.routeRevision = r.routeRevision

theorem SameExpected.refl (r : ObservatoryRuntime) : r.SameExpected r :=
  ⟨rfl,rfl,rfl,rfl,rfl,rfl,rfl⟩

theorem SameSubject.sameExpected {r s : ObservatoryRuntime} (h : SameSubject r s) :
    r.SameExpected s := by
  obtain ⟨_,_,_,_,_,rfl⟩ := h
  exact ⟨rfl,rfl,rfl,rfl,rfl,rfl,rfl⟩

/-- A registration fails at the store, or behind it at the registry. -/
theorem registerSource_cases (r : ObservatoryRuntime) (descriptor : SourceDescriptor) :
    (∃ e s, r.persistRecord .source (Codec.encodeSource descriptor) = (.error e,s) ∧
      r.registerSource descriptor = (.error e,s)) ∨
    ∃ s, r.persistRecord .source (Codec.encodeSource descriptor) = (.ok (),s) ∧
      ((∃ e, s.sources.registerSource descriptor = .error e ∧
          r.registerSource descriptor = (.error e,s)) ∨
        ∃ sources, s.sources.registerSource descriptor = .ok sources ∧
          r.registerSource descriptor = (.ok (),{ s with sources := sources })) := by
  unfold registerSource
  split
  · rename_i e s hpersist
    exact Or.inl ⟨e,s,hpersist,rfl⟩
  · rename_i s hpersist
    refine Or.inr ⟨s,hpersist,?_⟩
    split
    · rename_i e hregister
      exact Or.inl ⟨e,hregister,rfl⟩
    · rename_i sources hregister
      exact Or.inr ⟨sources,hregister,rfl⟩

/-- A registration touches the sources and the store. -/
theorem registerSource_frame (r : ObservatoryRuntime) (descriptor : SourceDescriptor) :
    ∃ sources store, (r.registerSource descriptor).2 =
      { r with sources := sources, store := store } := by
  obtain ⟨store,hstore⟩ := r.persistRecord_frame .source (Codec.encodeSource descriptor)
  rcases r.registerSource_cases descriptor with ⟨e,s,hpersist,hresult⟩ |
    ⟨s,hpersist,⟨e,-,hresult⟩ | ⟨sources,-,hresult⟩⟩
  · rw [hpersist] at hstore
    rw [hresult]
    exact ⟨r.sources,store,hstore⟩
  · rw [hpersist] at hstore
    rw [hresult]
    exact ⟨r.sources,store,hstore⟩
  · rw [hpersist] at hstore
    obtain rfl : s = { r with store := store } := hstore
    rw [hresult]
    exact ⟨sources,store,rfl⟩

/-- An offer of evidence touches the ledger, the gap marks, the buckets and the
store. -/
theorem keepEvidence_frame (r : ObservatoryRuntime) (result : IngestResult)
    (e : ObservedPathEvidence) : ∃ evidence store, (r.keepEvidence result e).2 =
      { r with evidence := evidence, store := store } := by
  unfold keepEvidence
  split
  · exact ⟨_,_,rfl⟩
  · rename_i key hkey
    obtain ⟨store,hstore⟩ := (r.setBucket key (r.bucket key)).persistRecord_frame .evidence
      (Codec.encodeEvidence e)
    simp only
    split_ifs
    · exact ⟨_,_,rfl⟩
    · exact ⟨_,_,rfl⟩
    · split
      · rename_i error s hpersist
        rw [hpersist] at hstore
        exact ⟨_,store,hstore⟩
      · rename_i s hpersist
        rw [hpersist] at hstore
        obtain rfl : s = { r.setBucket key (r.bucket key) with store := store } := hstore
        exact ⟨_,store,rfl⟩

/-- The state after the ledger saw the record and let it through. -/
def noteSequence (r : ObservatoryRuntime) (e : ObservedPathEvidence) : ObservatoryRuntime :=
  { r with ledger := (r.ledger.observe ⟨e.source,e.incarnation,e.sequence⟩).2 }.markGap e.source
    (r.ledger.observe ⟨e.source,e.incarnation,e.sequence⟩).1.verdict

theorem noteSequence_frame (r : ObservatoryRuntime) (e : ObservedPathEvidence) :
    ∃ gaps, r.noteSequence e =
      { r with ledger := (r.ledger.observe ⟨e.source,e.incarnation,e.sequence⟩).2,
               sourceHasGap := gaps } := by
  unfold noteSequence markGap
  split <;> exact ⟨_,rfl⟩

theorem ingestEvidence_frame (r : ObservatoryRuntime) (e : ObservedPathEvidence) :
    ∃ ledger gaps evidence store, (r.ingestEvidence e).2 =
      { r with ledger := ledger, sourceHasGap := gaps, evidence := evidence, store := store } := by
  unfold ingestEvidence
  split
  · exact ⟨_,_,_,_,rfl⟩
  · by_cases hreplay :
        (r.ledger.observe ⟨e.source,e.incarnation,e.sequence⟩).1.verdict = .replay
    · exact ⟨_,_,_,_,congrArg Prod.snd (if_pos hreplay)⟩
    · obtain ⟨gaps,hnoted⟩ := r.noteSequence_frame e
      obtain ⟨evidence,store,hkept⟩ := (r.noteSequence e).keepEvidence_frame
        { sequenceGap :=
            (r.ledger.observe ⟨e.source,e.incarnation,e.sequence⟩).1.verdict = .gap,
          id := e.seal_.id } e.seal_
      refine ⟨(r.ledger.observe ⟨e.source,e.incarnation,e.sequence⟩).2,gaps,evidence,store,?_⟩
      refine (congrArg Prod.snd (if_neg hreplay)).trans (hkept.trans ?_)
      rw [hnoted]

/-- A request that publishes nothing leaves the configuration and the expected
state alone. -/
theorem perform_sameExpected (r : ObservatoryRuntime) {call : Call}
    (htopology : ∀ g, call ≠ .publishTopology g) (hroutes : ∀ g, call ≠ .publishRoutes g) :
    (r.perform call).config = r.config ∧ r.SameExpected (r.perform call) := by
  have hbookkeeping : ∀ {s}, SameSubject r s → s.config = r.config ∧ r.SameExpected s := by
    intro s h
    refine ⟨?_,h.sameExpected⟩
    obtain ⟨_,_,_,_,_,rfl⟩ := h
    rfl
  cases call with
  | registerSource descriptor =>
    obtain ⟨sources,store,hframe⟩ := r.registerSource_frame descriptor
    rw [perform, hframe]
    exact ⟨rfl,rfl,rfl,rfl,rfl,rfl,rfl,rfl⟩
  | publishTopology g => exact absurd rfl (htopology g)
  | publishRoutes g => exact absurd rfl (hroutes g)
  | ingestEvidence e =>
    obtain ⟨ledger,gaps,evidence,store,hframe⟩ := r.ingestEvidence_frame e
    rw [perform, hframe]
    exact ⟨rfl,rfl,rfl,rfl,rfl,rfl,rfl,rfl⟩
  | compareGroup group => exact hbookkeeping (r.compareGroup_sameSubject group)
  | comparePath path => exact hbookkeeping (r.comparePath_sameSubject path)
  | compareAll => exact hbookkeeping (r.compareKeys_sameSubject _)
  | acknowledgeFinding id => exact hbookkeeping (r.acknowledgeFinding_sameSubject id)
  | pruneHistory => exact hbookkeeping r.pruneHistory_sameSubject
  | flush => exact hbookkeeping r.flush_sameSubject
  | stop => exact hbookkeeping r.stop_sameSubject

theorem restoreEvidence_frame (r : ObservatoryRuntime) (e : ObservedPathEvidence) :
    ∃ evidence, r.restoreEvidence e = { r with evidence := evidence } := by
  unfold restoreEvidence
  split
  · exact ⟨_,rfl⟩
  · simp only
    split_ifs <;> exact ⟨_,rfl⟩

/-- Restoring touches the sources, the buckets, the history and the findings. -/
theorem restoreRecord_frame {r s : ObservatoryRuntime} {record : StoredRecord}
    (h : r.restoreRecord record = .ok s) : ∃ sources evidence history findings, s = { r with
      sources := sources, evidence := evidence, history := history, findings := findings } := by
  unfold restoreRecord at h
  cases htype : record.type with
  | evidence =>
    rw [htype] at h
    obtain ⟨e,-,h⟩ := bind_eq_ok.mp h
    obtain ⟨evidence,hframe⟩ := r.restoreEvidence_frame e
    exact ⟨_,evidence,_,_,(Except.ok.inj h).symm.trans hframe⟩
  | comparison =>
    rw [htype] at h
    obtain ⟨comparison,-,h⟩ := bind_eq_ok.mp h
    exact ⟨_,_,_,_,(Except.ok.inj h).symm⟩
  | finding =>
    rw [htype] at h
    obtain ⟨finding,-,h⟩ := bind_eq_ok.mp h
    obtain ⟨findings,-,h⟩ := bind_eq_ok.mp h
    exact ⟨_,_,_,_,(Except.ok.inj h).symm⟩
  | source =>
    rw [htype] at h
    obtain ⟨descriptor,-,h⟩ := bind_eq_ok.mp h
    obtain ⟨sources,-,h⟩ := bind_eq_ok.mp h
    exact ⟨_,_,_,_,(Except.ok.inj h).symm⟩
  | topologyGeneration =>
    rw [htype] at h
    exact ⟨_,_,_,_,(Except.ok.inj h).symm⟩
  | routeGeneration =>
    rw [htype] at h
    exact ⟨_,_,_,_,(Except.ok.inj h).symm⟩
  | marker =>
    rw [htype] at h
    exact ⟨_,_,_,_,(Except.ok.inj h).symm⟩

theorem restoreRecords_frame (r : ObservatoryRuntime) (records : List StoredRecord) :
    ∃ sources evidence history findings, (r.restoreRecords records).2 = { r with
      sources := sources, evidence := evidence, history := history, findings := findings } := by
  induction records generalizing r with
  | nil => exact ⟨_,_,_,_,rfl⟩
  | cons record rest ih =>
    rw [restoreRecords]
    cases hrecord : r.restoreRecord record with
    | error e => exact ⟨_,_,_,_,rfl⟩
    | ok s =>
      obtain ⟨_,_,_,_,rfl⟩ := restoreRecord_frame hrecord
      obtain ⟨sources,evidence,history,findings,hrest⟩ := ih _
      exact ⟨sources,evidence,history,findings,hrest⟩

/-- The checks made on a configuration when a runtime is created. -/
def Creatable (config : RuntimeConfig) : Prop :=
  config.limits.validate = .ok () ∧ config.comparison.validate = .ok () ∧
    ¬ (config.persist ∧ config.storePath = "")

theorem create_eq_ok {config : RuntimeConfig} {clock : ℕ → TimePoint}
    {sorter : Ranking.Sorter ranksBefore} {r : ObservatoryRuntime} :
    create config (some clock) sorter = .ok r ↔
      Creatable config ∧ r = fresh config clock sorter := by
  unfold create
  simp only [bind_eq_ok, ↓require_bind_eq_ok, decide_eq_true_eq]
  constructor
  · rintro ⟨_,hlimits,_,hpolicy,hpath,hr⟩
    exact ⟨⟨hlimits,hpolicy,hpath⟩,(Except.ok.inj hr).symm⟩
  · rintro ⟨⟨hlimits,hpolicy,hpath⟩,rfl⟩
    exact ⟨(),hlimits,(),hpolicy,hpath,rfl⟩

/-- Restoring leaves the store that was opened. -/
theorem restoreFromStore_store (r : ObservatoryRuntime) (store : PersistentStore) :
    (r.opened store).restoreFromStore.2.store = some store := by
  unfold restoreFromStore opened
  simp only
  split
  · rfl
  · rename_i records _
    obtain ⟨_,_,_,_,hframe⟩ := restoreRecords_frame { r.tick with store := some store } records
    rw [hframe]

/-- Recovering reads the clock and touches what a restore touches, and the store. -/
theorem recover_frame (r : ObservatoryRuntime) (content : Option ByteString) :
    ∃ readings sources evidence history findings store, (r.recover content).2.1 = { r with
      readings := readings, sources := sources, evidence := evidence, history := history,
      findings := findings, store := store } := by
  unfold recover
  split
  · exact ⟨_,_,_,_,_,_,rfl⟩
  · rename_i store _ _
    split_ifs
    · unfold restoreFromStore opened
      simp only
      split
      · exact ⟨_,_,_,_,_,_,rfl⟩
      · rename_i records _
        obtain ⟨sources,evidence,history,findings,hframe⟩ :=
          restoreRecords_frame { r.tick with store := some store } records
        exact ⟨_,sources,evidence,history,findings,_,hframe⟩
    · exact ⟨_,_,_,_,_,_,rfl⟩

/-- A start fails and leaves the expected state alone, or it succeeds and forgets
it. -/
theorem start_frame (r : ObservatoryRuntime) (content : Option ByteString) :
    ∃ readings sources evidence history findings store state,
      ((∃ e, (r.start content).1 = .error e) ∧ (r.start content).2.1 = { r with
        readings := readings, sources := sources, evidence := evidence, history := history,
        findings := findings, store := store, state := state }) ∨
      ((r.start content).1 = .ok () ∧ (r.start content).2.1 = { r.forgetExpected with
        readings := readings, sources := sources, evidence := evidence, history := history,
        findings := findings, store := store, state := state }) := by
  obtain ⟨readings,sources,evidence,history,findings,store,hrecover⟩ := r.recover_frame content
  unfold start
  split_ifs
  · exact ⟨_,_,_,_,_,_,_,Or.inl ⟨⟨_,rfl⟩,rfl⟩⟩
  · exact ⟨_,_,_,_,_,_,_,Or.inl ⟨⟨_,rfl⟩,rfl⟩⟩
  · exact ⟨_,_,_,_,_,_,_,Or.inl ⟨⟨_,rfl⟩,rfl⟩⟩
  · refine ⟨readings,sources,evidence,history,findings,store,?_⟩
    split
    · rename_i e s after hresult
      rw [hresult] at hrecover
      have hs : s = _ := hrecover
      rw [hs]
      exact ⟨.failed,Or.inl ⟨⟨e,rfl⟩,rfl⟩⟩
    · rename_i s after hresult
      rw [hresult] at hrecover
      have hs : s = _ := hrecover
      rw [hs]
      exact ⟨.running,Or.inr ⟨rfl,rfl⟩⟩
  · exact ⟨_,_,_,_,_,_,_,Or.inr ⟨rfl,rfl⟩⟩

theorem start_cases (r : ObservatoryRuntime) (content : Option ByteString) :
    (∃ e s after, r.start content = (.error e,s,after) ∧ s.config = r.config ∧
      r.SameExpected s) ∨
    ∃ s after, r.start content = (.ok (),s,after) ∧ s.config = r.config ∧
      s.topology = none ∧ s.routes = none := by
  obtain ⟨_,_,_,_,_,_,_,⟨⟨e,herror⟩,hframe⟩ | ⟨hok,hframe⟩⟩ := r.start_frame content
  · refine Or.inl ⟨e,_,_,Prod.ext herror rfl,?_⟩
    rw [hframe]
    exact ⟨rfl,rfl,rfl,rfl,rfl,rfl,rfl,rfl⟩
  · refine Or.inr ⟨_,_,Prod.ext hok rfl,?_⟩
    rw [hframe]
    exact ⟨rfl,rfl,rfl⟩

end ObservatoryRuntime

end PathObservatory
