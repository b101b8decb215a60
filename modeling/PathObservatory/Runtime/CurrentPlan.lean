import PathObservatory.Engine.Support
import PathObservatory.Runtime.Session

/-! # Comparisons against the plan in force

A comparison on request looks for the first bucket of its group, whatever its
generation; the engine in turn calls nothing compliant that is not about the plan,
the topology and the revision in force.
-/
namespace PathObservatory

theorem ComparisonEngine.compare_generation {engine : ComparisonEngine}
    {request : ComparisonRequest} {context : ComparisonContext} {result : ComparisonResult}
    (h : engine.compare request context = .ok result) :
    result.generation = request.generation := by
  obtain ⟨-,-,-,rfl⟩ := compare_eq_ok.mp h
  have hevaluate : (engine.evaluate request context).generation = request.generation := by
    unfold evaluate
    split
    · rfl
    · split
      · rfl
      · simp only [compareWorking]
        split <;> rfl
  exact hevaluate

theorem topologyMatches_eq_true {routes : RouteGeneration} {context : ComparisonContext} :
    topologyMatches routes context = true ↔ ∃ topology, context.topology = some topology ∧
      topology.id = routes.topology ∧ topology.epoch = context.authority.epoch ∧
      topology.incarnation = context.authority.incarnation := by
  unfold topologyMatches
  cases context.topology with
  | none => simp
  | some topology => simp [and_assoc]

namespace ObservatoryRuntime
open ComparisonEngine (samplePlan sampleContent sampleTrace)
variable {r : ObservatoryRuntime}

theorem mem_toList_iff {answer : Result ComparisonResult} {result : ComparisonResult} :
    result ∈ answer.toOption.toList ↔ answer = .ok result := by
  cases answer <;> simp [Except.toOption, eq_comm]

theorem persistComparison_eq_ok {result other : ComparisonResult}
    (h : (r.persistComparison result).1 = .ok other) : other = result := by
  rcases r.persistComparison_cases result with ⟨e,s,-,hresult⟩ | ⟨s,-,hresult⟩
  · rw [hresult] at h
    cases h
  · rw [hresult] at h
    obtain ⟨_,-,hother⟩ := map_eq_ok.mp h
    exact hother.symm

theorem recordComparison_eq_ok {result other : ComparisonResult}
    (h : (r.recordComparison result).1 = .ok other) : other = result := by
  rcases r.recordComparison_cases result with ⟨e,-,hresult⟩ | ⟨recorded,-,hresult⟩
  · rw [hresult] at h
    cases h
  · rw [hresult] at h
    exact persistComparison_eq_ok h

/-- A comparison that is answered is answered with what the engine said. -/
theorem compareBucket_eq_ok {key : SubjectKey} {record : Bool} {result : ComparisonResult}
    (h : (r.compareBucket key record).1 = .ok result) :
    r.engine.compare (r.requestFor key) r.makeContext = .ok result := by
  rcases r.compareBucket_cases key record with ⟨e,-,hresult⟩ | ⟨compared,hcompare,hresult⟩
  · rw [hresult] at h
    cases h
  · rw [hresult] at h
    rw [hcompare]
    cases record with
    | false => exact h
    | true => rw [recordComparison_eq_ok h]

/-- The bucket that is compared on a request about the group, and about every path
of it, is the one of the plan in force. -/
structure JudgesPlan (r : ObservatoryRuntime) (routes : RouteGeneration) (group : PathGroupId) :
    Prop where
  bucket : r.groupBucket group = some ⟨routes.id,⟨group⟩⟩
  onGroup : r.compareGroup group = r.compareBucket ⟨routes.id,⟨group⟩⟩ true
  onPath : ∀ path expected, routes.findPath path = some expected → expected.group = group →
    r.comparePath path = r.compareBucket ⟨routes.id,⟨group⟩⟩ true
  generation : ∀ result, (r.compareGroup group).1 = .ok result → result.generation = routes.id

theorem judgesPlan_of_bucket {routes : RouteGeneration} (hroutes : r.routes = some routes)
    {group : PathGroupId} (h : r.groupBucket group = some ⟨routes.id,⟨group⟩⟩) :
    r.JudgesPlan routes group := by
  have hgroup := compareGroup_of_bucket h
  refine ⟨h,hgroup,?_,?_⟩
  · rintro path expected hpath rfl
    exact comparePath_of_bucket (pathBucket_eq_some.mpr ⟨routes,expected,hroutes,hpath,h⟩)
  · intro result hresult
    rw [hgroup] at hresult
    exact ComparisonEngine.compare_generation (compareBucket_eq_ok hresult)

/-- Buckets of one group follow their generation. -/
theorem SubjectKey.le_iff_of_group {group : MaybeId .pathGroup} {a b : RouteGenerationId} :
    (⟨a,group⟩ : SubjectKey) ≤ ⟨b,group⟩ ↔ a ≤ b := by
  have hle : (⟨a,group⟩ : SubjectKey) ≤ ⟨b,group⟩ ↔
    toLex (a,group.value) ≤ toLex (b,group.value) := Iff.rfl
  rw [hle, Prod.Lex.toLex_le_toLex]
  constructor
  · rintro (h | ⟨h,-⟩)
    · exact h.le
    · exact le_of_eq h
  · intro h
    exact h.lt_or_eq.imp id (fun heq => ⟨heq,le_refl _⟩)

/-- A request about a group judges the plan in force exactly when no bucket of the
group is left over from a generation with a smaller identity. -/
theorem judges_plan_iff {routes : RouteGeneration} (hroutes : r.routes = some routes)
    {group : PathGroupId} (hgroup : group.valid = true)
    (hbucket : (⟨routes.id,⟨group⟩⟩ : SubjectKey) ∈ r.evidence) :
    r.JudgesPlan routes group ↔
      ∀ key ∈ r.evidence, key.group = ⟨group⟩ → routes.id ≤ key.generation := by
  have hnames : ∀ key : SubjectKey, (key.group.present && key.group.value = group) = true ↔
      key.group = ⟨group⟩ := by
    rintro ⟨generation,⟨value⟩⟩
    simp only [MaybeId.present, Bool.and_eq_true, decide_eq_true_eq, MaybeId.mk.injEq]
    exact ⟨And.right,fun h => ⟨h ▸ hgroup,h⟩⟩
  constructor
  · rintro h ⟨generation,_⟩ hkey rfl
    have hleast := (OrderedMap.find?_keys_eq_some.mp h.bucket).2.2 _ hkey ((hnames _).mpr rfl)
    exact SubjectKey.le_iff_of_group.mp hleast
  · intro h
    refine judgesPlan_of_bucket hroutes (OrderedMap.find?_keys_eq_some.mpr
      ⟨hbucket,(hnames _).mpr rfl,?_⟩)
    rintro ⟨generation,g⟩ hkey hnamed
    obtain rfl : g = ⟨group⟩ := (hnames _).mp hnamed
    exact SubjectKey.le_iff_of_group.mpr (h _ hkey rfl)

/-- A source of observations beside the authority. -/
def probeSource : SourceDescriptor := { authoritySource with id := ⟨2⟩, surface := .real }

/-- A plan, and a trace that follows it. -/
def plannedRun : List Call :=
  [.registerSource authoritySource,.registerSource probeSource,
    .publishTopology (emptyTopology 1),.publishRoutes samplePlan,
    .ingestEvidence (sampleContent 1 1 (sampleTrace 7 [1,2,3]))]

def planned : ObservatoryRuntime :=
  plannedRun.foldl perform
    (fresh {} (fun _ => ⟨1000⟩) (Ranking.Sorter.insertion ranksBefore_ranksBy))

theorem Reachable.performs (h : Reachable r) (requests : List Call) :
    Reachable (requests.foldl perform r) := by
  induction requests generalizing r with
  | nil => exact h
  | cons request rest ih => exact ih (h.call request)

theorem planned_reachable : Reachable planned :=
  .performs (.create (create_default _ _)) plannedRun

theorem planned_plan : planned.routes.map (·.id) = some ⟨1⟩ ∧
    planned.evidence.keys = [⟨⟨1⟩,⟨⟨1⟩⟩⟩] := by decide +kernel

/-- The only bucket is the one of the plan in force. -/
theorem planned_judges_plan : Reachable planned ∧ ∃ routes, planned.routes = some routes ∧
    planned.JudgesPlan routes ⟨1⟩ := by
  obtain ⟨hplan,hkeys⟩ := planned_plan
  obtain ⟨routes,hroutes,hid⟩ := Option.map_eq_some_iff.mp hplan
  have hmem : ∀ key, key ∈ planned.evidence ↔ key = ⟨⟨1⟩,⟨⟨1⟩⟩⟩ := fun key => by
    rw [← Std.ExtTreeMap.mem_keys, hkeys, List.mem_singleton]
  refine ⟨planned_reachable,routes,hroutes,
    (judges_plan_iff hroutes (by decide) ((hmem _).mpr (by rw [hid]))).mpr ?_⟩
  rintro key hkey -
  rw [(hmem key).mp hkey, hid]

/-- The same path under the next generation. -/
def nextPlan : RouteGeneration :=
  { samplePlan with
    id := ⟨2⟩, revision := ⟨2⟩
    paths := samplePlan.paths.map ({ · with generation := ⟨2⟩ }) }

/-- The plan changes, and a trace follows the next one. -/
def replanned : ObservatoryRuntime :=
  [Call.publishRoutes nextPlan,
    .ingestEvidence { sampleContent 2 1 (sampleTrace 7 [1,2,3])
      with revision := ⟨2⟩ }].foldl perform planned

/-- The bucket the earlier plan left is judged in place of the one of the plan in
force. -/
theorem earlier_bucket_shadows_plan : Reachable replanned ∧
    ∃ routes, replanned.routes = some routes ∧
      (⟨routes.id,⟨⟨1⟩⟩⟩ : SubjectKey) ∈ replanned.evidence ∧
      ¬ replanned.JudgesPlan routes ⟨1⟩ := by
  have hevaluated : replanned.routes.map (·.id) = some ⟨2⟩ ∧
      replanned.evidence.keys = [⟨⟨1⟩,⟨⟨1⟩⟩⟩,⟨⟨2⟩,⟨⟨1⟩⟩⟩] ∧
      (replanned.compareGroup ⟨1⟩).1.toOption.map (·.generation) = some ⟨1⟩ := by decide +kernel
  obtain ⟨hplan,hkeys,hresult⟩ := hevaluated
  obtain ⟨routes,hroutes,hid⟩ := Option.map_eq_some_iff.mp hplan
  refine ⟨.performs planned_reachable _,routes,hroutes,?_,fun h => ?_⟩
  · rw [← Std.ExtTreeMap.mem_keys, hkeys, hid]
    exact List.mem_cons_of_mem _ (List.mem_singleton.mpr rfl)
  · obtain ⟨result,hanswer,hgeneration⟩ := Option.map_eq_some_iff.mp hresult
    have hjudged := h.generation result (mem_toList_iff.mp (by rw [hanswer]; simp))
    rw [hgeneration, hid] at hjudged
    exact absurd hjudged (by decide)

/-- The results a request yields. -/
def yields (r : ObservatoryRuntime) : Call → List ComparisonResult
  | .compareGroup group => (r.compareGroup group).1.toOption.toList
  | .comparePath path => (r.comparePath path).1.toOption.toList
  | .compareAll => r.compareAll.1.toOption.getD []
  | _ => []

theorem mem_compareKeys {keys : List SubjectKey} {results : List ComparisonResult}
    {result : ComparisonResult} (h : (r.compareKeys keys).1 = .ok results)
    (hmem : result ∈ results) :
    ∃ s key, SameSubject r s ∧ (s.compareBucket key true).1 = .ok result := by
  induction keys generalizing r results with
  | nil =>
    obtain rfl : [] = results := Except.ok.inj h
    cases hmem
  | cons key rest ih =>
    have hframe := r.compareBucket_sameSubject key true
    rcases r.compareKeys_cons_cases key rest with
      ⟨e,s,-,hresult⟩ | ⟨first,s,hfirst,hresult⟩
    · rw [hresult] at h
      cases h
    · rw [hresult] at h
      obtain ⟨others,hothers,rfl⟩ := map_eq_ok.mp h
      rcases List.mem_cons.mp hmem with rfl | hmem
      · exact ⟨r,key,.refl r,by rw [hfirst]⟩
      · rw [hfirst] at hframe
        obtain ⟨u,other,hsame,hresult⟩ := ih hothers hmem
        exact ⟨u,other,hframe.trans hsame,hresult⟩

/-- Every result on request is what the engine says about a bucket, at the
authority the runtime has before the request. -/
theorem exists_of_mem_yields {request : Call} {result : ComparisonResult}
    (h : result ∈ r.yields request) :
    ∃ s key, SameSubject r s ∧
      s.engine.compare (s.requestFor key) s.makeContext = .ok result := by
  have hbucket : ∀ key, (r.compareBucket key true).1 = .ok result → ∃ s key, SameSubject r s ∧
      s.engine.compare (s.requestFor key) s.makeContext = .ok result :=
    fun key hresult => ⟨r,key,.refl r,compareBucket_eq_ok hresult⟩
  cases request with
  | compareGroup group =>
    have hresult := mem_toList_iff.mp h
    rcases r.compareGroup_cases group with ⟨key,-,hanswer⟩ | ⟨-,e,hanswer⟩
    · rw [hanswer] at hresult
      exact hbucket key hresult
    · rw [hanswer] at hresult
      cases hresult
  | comparePath path =>
    have hresult := mem_toList_iff.mp h
    rcases r.comparePath_cases path with ⟨key,-,hanswer⟩ | ⟨-,e,hanswer⟩
    · rw [hanswer] at hresult
      exact hbucket key hresult
    · rw [hanswer] at hresult
      cases hresult
  | compareAll =>
    cases hall : r.compareAll.1 with
    | error e =>
      simp only [yields, hall] at h
      cases h
    | ok results =>
      simp only [yields, hall] at h
      obtain ⟨s,key,hsame,hresult⟩ := mem_compareKeys hall h
      exact ⟨s,key,hsame,compareBucket_eq_ok hresult⟩
  | _ => cases h

theorem epoch_le_of_fence {current next : EpochId}
    (h : ¬ (current.valid = true ∧ next < current)) : current ≤ next := by
  by_contra hlt
  have hnext := not_le.mp hlt
  refine h ⟨?_,hnext⟩
  rw [StrongId.lt_iff] at hnext
  simp only [StrongId.valid, bne_iff_ne, ne_eq]
  intro hzero
  rw [hzero] at hnext
  exact Nat.not_lt_zero _ hnext

/-- No request moves the runtime back to an earlier epoch. -/
theorem perform_epoch_le (r : ObservatoryRuntime) (request : Call) :
    r.epoch ≤ (r.perform request).epoch := by
  cases request with
  | publishTopology g =>
    rcases r.publishTopology_frame g with hsame | ⟨admitted,index,store,hadmitted,-,-,hframe⟩
    · rw [perform, hsame]
    · rw [perform, hframe]
      unfold admitTopology at hadmitted
      obtain ⟨finalised,-,hadmitted⟩ := bind_eq_ok.mp hadmitted
      simp only [↓require_bind_eq_ok, decide_eq_true_eq] at hadmitted
      obtain ⟨-,hfence,-,heq⟩ := hadmitted
      obtain rfl : finalised = admitted := Except.ok.inj heq
      exact epoch_le_of_fence hfence
  | publishRoutes g =>
    rcases r.publishRoutes_frame g with hsame | ⟨admitted,store,hadmitted,-,hframe⟩
    · rw [perform, hsame]
    · rw [perform, hframe]
      unfold admitRoutes at hadmitted
      obtain ⟨finalised,-,hadmitted⟩ := bind_eq_ok.mp hadmitted
      simp only [↓require_bind_eq_ok, decide_eq_true_eq] at hadmitted
      obtain ⟨-,-,-,hfence,-,heq⟩ := hadmitted
      obtain rfl : finalised = admitted := Except.ok.inj heq
      exact epoch_le_of_fence hfence
  | _ => exact (r.perform_sameExpected (by simp) (by simp)).2.epoch.ge

/-- The revision the engine fences with is the one of the plan in force. -/
def RevisionInForce (r : ObservatoryRuntime) : Prop :=
  ∀ routes, r.routes = some routes → r.routeRevision = routes.revision

theorem SameExpected.revisionInForce {r s : ObservatoryRuntime} (h : r.SameExpected s)
    (hr : r.RevisionInForce) : s.RevisionInForce := by
  intro routes hroutes
  rw [h.routeRevision]
  exact hr routes (h.routes ▸ hroutes)

theorem RevisionInForce.perform {r : ObservatoryRuntime} (h : r.RevisionInForce)
    (request : Call) : (r.perform request).RevisionInForce := by
  cases request with
  | publishTopology g =>
    rcases r.publishTopology_frame g with hsame | ⟨admitted,index,store,-,-,-,hframe⟩
    · rwa [ObservatoryRuntime.perform, hsame]
    · rw [ObservatoryRuntime.perform, hframe]
      exact h
  | publishRoutes g =>
    rcases r.publishRoutes_frame g with hsame | ⟨admitted,store,-,-,hframe⟩
    · rwa [ObservatoryRuntime.perform, hsame]
    · rw [ObservatoryRuntime.perform, hframe]
      intro routes hroutes
      rw [← Option.some.inj hroutes]
      rfl
  | _ => exact (r.perform_sameExpected (by simp) (by simp)).2.revisionInForce h

end ObservatoryRuntime

/-- What happens to a runtime: a start on the content of its store file, or a
request. -/
inductive Event
  | start (content : Option ByteString)
  | call (request : ObservatoryRuntime.Call)

namespace Session
open ObservatoryRuntime

/-- A session of which nothing is noted yet. -/
def anew (r : ObservatoryRuntime) : Session where
  runtime := r
  topologies := []
  routes := []

/-- A start that succeeds begins the notes anew; one that is refused does not. -/
def on (s : Session) : Event → Session
  | .start content =>
    match s.runtime.start content with
    | (.ok _,r,_) => anew r
    | (.error _,r,_) => { s with runtime := r }
  | .call request => s.call request

def run (s : Session) (events : List Event) : Session := events.foldl on s

def Restarts (s : Session) : Event → Prop
  | .start content => (s.runtime.start content).1 = .ok ()
  | .call _ => False

/-- No event of the run is a start that succeeds. -/
def Unbroken (s : Session) : List Event → Prop
  | [] => True
  | event :: rest => ¬ s.Restarts event ∧ (s.on event).Unbroken rest

/-- What a compliant result rests on: the plan and the topology in force, noted
since the start, both of the current epoch and incarnation. -/
structure RestsOn (s : Session) (result : ComparisonResult) (routes : RouteGeneration)
    (topology : TopologyGeneration) : Prop where
  routes_eq : s.runtime.routes = some routes
  topology_eq : s.runtime.topology = some topology
  installed : routes ∈ s.routes ∧ topology ∈ s.topologies
  epoch : routes.epoch = s.runtime.epoch ∧ topology.epoch = s.runtime.epoch
  incarnation : routes.incarnation = s.runtime.incarnation ∧
    topology.incarnation = s.runtime.incarnation
  plan : routes.topology = topology.id
  generation : result.generation = routes.id
  revision : ∃ (key : SubjectKey) (records : List Working), key.generation = routes.id ∧
    result.judgements.filter (·.accepted) = records.map judgementOf ∧
    ∀ w ∈ records, w.evidence ∈ s.runtime.bucket key ∧ w.evidence.revision = routes.revision

/-- What holds of a session at any time. -/
structure Sound (config : RuntimeConfig) (s : Session) : Prop where
  config : s.runtime.config = config
  follows : s.Follows
  revision : s.runtime.RevisionInForce

theorem sound_anew {config : RuntimeConfig} {r : ObservatoryRuntime} (hconfig : r.config = config)
    (htopology : r.topology = none) (hroutes : r.routes = none) : (anew r).Sound config := by
  refine ⟨hconfig,⟨htopology.symm,hroutes.symm⟩,fun routes hsome => ?_⟩
  rw [anew, hroutes] at hsome
  cases hsome

theorem Sound.on {config : RuntimeConfig} {s : Session} (h : s.Sound config) (event : Event) :
    (s.on event).Sound config := by
  cases event with
  | start content =>
    rcases s.runtime.start_cases content with
      ⟨_,r,_,hstart,hconfig,hsame⟩ | ⟨r,_,hstart,hconfig,htopology,hroutes⟩
    · simp only [Session.on, hstart]
      exact ⟨hconfig.trans h.config,
        ⟨h.follows.topology.trans hsame.topology.symm,h.follows.routes.trans hsame.routes.symm⟩,
        hsame.revisionInForce h.revision⟩
    · simp only [Session.on, hstart]
      exact sound_anew (hconfig.trans h.config) htopology hroutes
  | call request =>
    exact ⟨(s.runtime.perform_config request).trans h.config,h.follows.call request,
      h.revision.perform request⟩

theorem Sound.run {config : RuntimeConfig} {s : Session} (h : s.Sound config)
    (events : List Event) : (s.run events).Sound config := by
  induction events generalizing s with
  | nil => exact h
  | cons event rest ih => exact ih (h.on event)

theorem epoch_le_on {s : Session} {event : Event} (h : ¬ s.Restarts event) :
    s.runtime.epoch ≤ (s.on event).runtime.epoch := by
  cases event with
  | start content =>
    rcases s.runtime.start_cases content with
      ⟨_,r,_,hstart,-,hsame⟩ | ⟨r,_,hstart,-,-,-⟩
    · simp only [on, hstart]
      exact hsame.epoch.ge
    · exact absurd (congrArg Prod.fst hstart) h
  | call request => exact s.runtime.perform_epoch_le request

/-- Between two starts the epoch never decreases. -/
theorem epoch_le_run {s : Session} {events : List Event} (h : s.Unbroken events) :
    s.runtime.epoch ≤ (s.run events).runtime.epoch := by
  induction events generalizing s with
  | nil => exact le_refl _
  | cons event rest ih => exact (epoch_le_on h.1).trans (ih h.2)

/-- Nothing but a publication of a plan brings one in force. -/
theorem routes_run_eq_none {s : Session} {events : List Event} (hroutes : s.runtime.routes = none)
    (h : ∀ p, Event.call (.publishRoutes p) ∉ events) : (s.run events).runtime.routes = none := by
  induction events generalizing s with
  | nil => exact hroutes
  | cons event rest ih =>
    refine ih ?_ (fun p hp => h p (List.mem_cons_of_mem _ hp))
    cases event with
    | start content =>
      rcases s.runtime.start_cases content with
        ⟨_,r,_,hstart,-,hsame⟩ | ⟨r,_,hstart,-,-,hnone⟩
      · simp only [on, hstart]
        exact hsame.routes.trans hroutes
      · simp only [on, hstart]
        exact hnone
    | call request =>
      rcases s.runtime.perform_routes request with ⟨hsame,-⟩ | ⟨p,-,rfl,-⟩
      · exact hsame.trans hroutes
      · exact absurd (List.mem_cons_self ..) (h p)

/-- The engine calls nothing compliant but what the plan in force asks for. -/
theorem Sound.restsOn {config : RuntimeConfig} {s : Session} (h : s.Sound config)
    (hrequired : config.comparison.requireTopologyForMatch = true) {request : Call}
    {result : ComparisonResult} (hresult : result ∈ s.runtime.yields request)
    (hmatch : result.outcome = .match_) :
    ∃ routes topology, s.RestsOn result routes topology := by
  obtain ⟨r,key,⟨_,_,_,_,_,rfl⟩,hcompare⟩ := exists_of_mem_yields hresult
  obtain ⟨routes,group,representative,hreach,hcompliant⟩ :=
    ComparisonEngine.match_iff.mp ⟨result,hcompare,hmatch⟩
  have hroutes : s.runtime.routes = some routes := hreach.routes_eq
  have hplan := hreach.generation
  simp only [generationMatches, Bool.and_eq_true, decide_eq_true_eq] at hplan
  have hrequired : s.runtime.config.comparison.requireTopologyForMatch = true := by
    rw [h.config]
    exact hrequired
  obtain ⟨topology,htopology,hid,hepoch,hincarnation⟩ :=
    topologyMatches_eq_true.mp (hcompliant.topology hrequired)
  have hnoted : routes ∈ s.routes := List.mem_of_getLast? (h.follows.routes.trans hroutes)
  have hseen : topology ∈ s.topologies := List.mem_of_getLast? (h.follows.topology.trans htopology)
  refine ⟨routes,topology,hroutes,htopology,⟨hnoted,hseen⟩,⟨hplan.1.2,hepoch⟩,
    ⟨hplan.2,hincarnation⟩,hid.symm,?_,key,_,hplan.1.1.symm,
    ComparisonEngine.judgements_of_reaches hcompare hreach,fun w hw => ?_⟩
  · rw [ComparisonEngine.compare_generation hcompare]
    exact hplan.1.1.symm
  · obtain ⟨e,he,hadmits,rfl⟩ := ComparisonEngine.exists_of_mem_acceptedRecords hw
    exact ⟨he,hadmits.revision.trans (h.revision routes hroutes)⟩

/-- Compliance only against current authority. -/
theorem compliance_is_current {config : RuntimeConfig} {clock : ℕ → TimePoint}
    {sorter : Ranking.Sorter ranksBefore} {r : ObservatoryRuntime}
    (hcreate : create config (some clock) sorter = .ok r)
    (hrequired : config.comparison.requireTopologyForMatch = true) (events : List Event)
    {s : Session} (hs : s = (anew r).run events) :
    (∀ later, s.Unbroken later → s.runtime.epoch ≤ (s.run later).runtime.epoch) ∧
    (∀ request, ∀ result ∈ s.runtime.yields request, result.outcome = .match_ →
      ∃ routes topology, s.RestsOn result routes topology) ∧
    ∀ content, s.Restarts (.start content) →
      ∀ later, (∀ p, Event.call (.publishRoutes p) ∉ later) →
        ∀ request, ∀ result ∈ ((s.on (.start content)).run later).runtime.yields request,
          result.outcome ≠ .match_ := by
  obtain ⟨-,rfl⟩ := create_eq_ok.mp hcreate
  have hsound : s.Sound config := by
    rw [hs]
    exact (sound_anew (r := fresh config clock sorter) rfl rfl rfl).run events
  refine ⟨fun _ => epoch_le_run,fun _ _ hresult hmatch => hsound.restsOn hrequired hresult hmatch,
    fun content hrestarts later hlater request result hresult hmatch => ?_⟩
  obtain ⟨routes,_,hrests⟩ := ((hsound.on (.start content)).run later).restsOn hrequired hresult
    hmatch
  have hnone : (s.on (.start content)).runtime.routes = none := by
    rcases s.runtime.start_cases content with ⟨_,_,_,hstart,-⟩ | ⟨r,_,hstart,-,-,hroutes⟩
    · rw [Restarts, hstart] at hrestarts
      cases hrestarts
    · simp only [on, hstart]
      exact hroutes
  exact Option.some_ne_none routes (hrests.routes_eq.symm.trans (routes_run_eq_none hnone hlater))

/-- A start, a plan with a trace that follows it, and a start that is refused
because the runtime is running. -/
def startedTwice : Session :=
  (anew (fresh {} (fun _ => ⟨1000⟩) (Ranking.Sorter.insertion ranksBefore_ranksBy))).run
    (Event.start none :: plannedRun.map Event.call ++ [.start none])

theorem startedTwice_outcome :
    (startedTwice.runtime.yields (.compareGroup ⟨1⟩)).map (·.outcome) = [.match_] := by
  decide +kernel

/-- The trace is compliant with the plan of the session. -/
theorem startedTwice_rests : ∃ result routes topology,
    result ∈ startedTwice.runtime.yields (.compareGroup ⟨1⟩) ∧ result.outcome = .match_ ∧
      startedTwice.RestsOn result routes topology := by
  obtain ⟨result,hresult,hmatch⟩ :=
    List.mem_map.mp (startedTwice_outcome ▸ List.mem_singleton_self MatchOutcome.match_)
  obtain ⟨routes,topology,hrests⟩ :=
    (compliance_is_current (create_default _ _) rfl _ rfl).2.1 _ result hresult hmatch
  exact ⟨result,routes,topology,hresult,hmatch,hrests⟩

/-- Nothing was published since the last start was called, and there is a compliant
result. -/
theorem match_after_refused_start :
    ∃ events : List Event, ∃ result ∈
      ((anew (fresh {} (fun _ => ⟨1000⟩) (Ranking.Sorter.insertion ranksBefore_ranksBy))).run
        (events ++ [.start none])).runtime.yields (.compareGroup ⟨1⟩),
      result.outcome = .match_ := by
  obtain ⟨result,hresult,hmatch⟩ :=
    List.mem_map.mp (startedTwice_outcome ▸ List.mem_singleton_self MatchOutcome.match_)
  exact ⟨_,result,hresult,hmatch⟩

end Session

end PathObservatory
