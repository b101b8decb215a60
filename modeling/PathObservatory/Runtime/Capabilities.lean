import PathObservatory.Engine.Support
import PathObservatory.Runtime.Sequencing
import PathObservatory.Runtime.Session

/-! # Sources and their capabilities

A descriptor declares what its source may publish, and the registry checks what was
declared. No entry point looks at the declaration again: a publication asks whether
its source is registered, an offer of evidence what authority and surface it is
registered with.
-/
namespace PathObservatory
namespace ObservatoryRuntime
variable {r s before : ObservatoryRuntime}

/-- The source is registered with a descriptor of this kind. -/
def IsRegistered (r : ObservatoryRuntime) (source : SourceId) (kind : SourceDescriptor → Prop) :
    Prop := ∃ descriptor, r.sources.find source = .ok descriptor ∧ kind descriptor

theorem IsRegistered.of_knows {source : SourceId} {kind : SourceDescriptor → Prop}
    (h : r.IsRegistered source kind) (hknows : r.KnowsSources s) : s.IsRegistered source kind := by
  obtain ⟨descriptor,hfind,hkind⟩ := h
  exact ⟨descriptor,hknows source descriptor hfind,hkind⟩

/-- The descriptor of a known source is the one it was registered with. -/
theorem isRegistered_iff_of_knows {source : SourceId} {kind : SourceDescriptor → Prop}
    (hknows : r.KnowsSources s) (hknown : r.IsRegistered source (fun _ => True)) :
    s.IsRegistered source kind ↔ r.IsRegistered source kind := by
  refine ⟨?_,fun h => h.of_knows hknows⟩
  rintro ⟨descriptor,hfind,hkind⟩
  obtain ⟨known,hknown,-⟩ := hknown
  obtain rfl := Except.ok.inj (hfind.symm.trans (hknows source known hknown))
  exact ⟨descriptor,hknown,hkind⟩

/-- The record may come from a source of this descriptor. -/
structure MayClaim (e : ObservedPathEvidence) (d : SourceDescriptor) : Prop where
  capable : d.capabilities.observedEvidence = true
  authority : e.authority ≤ d.authority
  surface : d.surface = e.surface

/-- Plans and topology in force, and the evidence gathered since, come from sources
that are registered for it. -/
structure SpeaksWithin (before r : ObservatoryRuntime) : Prop where
  routes : ∀ g, r.routes = some g → r.IsRegistered g.source (·.capabilities.expectedState = true)
  topology : ∀ g, r.topology = some g → r.IsRegistered g.source (·.capabilities.topology = true)
  evidence : ∀ key, ∀ e ∈ r.bucket key, e ∉ before.bucket key →
    r.IsRegistered e.source (MayClaim e)

/-- The record passes the screen and the ledger, its bucket takes it and it can be
written. -/
structure Gathers (r : ObservatoryRuntime) (e : ObservedPathEvidence) (key : SubjectKey) :
    Prop where
  screened : r.screenEvidence e = .ok ()
  news : ¬ r.Replays e
  places : r.Places key e.seal_
  written : (r.persistRecord .evidence (Codec.encodeEvidence e.seal_)).1 = .ok ()

/-- A record that passed the ledger enters the bucket that takes it when it can be
written, and no bucket otherwise. -/
theorem keepEvidence_places (r : ObservatoryRuntime) (result : IngestResult)
    (e : ObservedPathEvidence) :
    ((r.keepEvidence result e).2.bucket = r.bucket ∧ ∀ key, r.Places key e →
      (r.persistRecord .evidence (Codec.encodeEvidence e)).1 ≠ .ok ()) ∨
    ∃ key, r.Places key e ∧ (r.persistRecord .evidence (Codec.encodeEvidence e)).1 = .ok () ∧
      (r.keepEvidence result e).2.bucket = Filing.put r.bucket key e := by
  rcases r.keepEvidence_keeps result e with hnothing | ⟨key,hrecord⟩
  · refine Or.inl ⟨hnothing.bucket,fun key hplaces hwritten => ?_⟩
    obtain ⟨hroom,hnew⟩ := takes_iff.mp hplaces.takes
    have hstore : (r.setBucket key (r.bucket key)).store = r.store := rfl
    obtain ⟨hstatus,-⟩ := persistRecord_congr hstore .evidence (Codec.encodeEvidence e)
    rcases r.keepEvidence_cases result e with ⟨error,herror,-⟩ | ⟨other,hother,hkept⟩
    · rw [hplaces.subject] at herror
      cases herror
    · obtain rfl := Except.ok.inj (hplaces.subject.symm.trans hother)
      rcases hkept with ⟨hfull,-⟩ | ⟨-,hduplicate,-⟩ | ⟨-,-,error,s,hpersist,-⟩ |
        ⟨-,-,s,hpersist,hkept⟩
      · exact absurd hroom (not_lt.mpr hfull)
      · rw [hnew] at hduplicate
        cases hduplicate
      · rw [hpersist, hwritten] at hstatus
        cases hstatus
      · have hput := congrFun hnothing.bucket key
        rw [hkept] at hput
        have hlength := congrArg List.length hput
        simp only [bucket_setBucket, if_pos, List.length_append, List.length_singleton] at hlength
        omega
  · exact Or.inr ⟨key,hrecord.places,hrecord.written,hrecord.bucket⟩

/-- An offered record enters the bucket that gathers it, and no other way. -/
theorem ingestEvidence_gathers (r : ObservatoryRuntime) (e : ObservedPathEvidence) :
    ((r.ingestEvidence e).2.bucket = r.bucket ∧ ∀ key, ¬ r.Gathers e key) ∨
      ∃ key, r.Gathers e key ∧
        (r.ingestEvidence e).2.bucket = Filing.put r.bucket key e.seal_ := by
  rcases r.ingestEvidence_cases e with ⟨refused,hrefused,hresult⟩ | ⟨-,hreplays,-,hresult⟩ |
    ⟨hscreened,hnews,-,result,-,-,hresult⟩
  · rw [hresult]
    refine Or.inl ⟨rfl,fun key h => ?_⟩
    rw [h.screened] at hrefused
    cases hrefused
  · rw [hresult]
    exact Or.inl ⟨rfl,fun key h => h.news hreplays⟩
  · obtain ⟨gaps,hframe⟩ := r.noteSequence_frame e
    have hstore : (r.noteSequence e).store = r.store := by rw [hframe]
    obtain ⟨hstatus,-⟩ := persistRecord_congr hstore .evidence (Codec.encodeEvidence e.seal_)
    have hplaces : ∀ key, (r.noteSequence e).Places key e.seal_ ↔ r.Places key e.seal_ := by
      intro key
      rw [hframe]
      exact ⟨fun h => ⟨h.subject,h.takes⟩,fun h => ⟨h.subject,h.takes⟩⟩
    have hbucket : (r.noteSequence e).bucket = r.bucket := by rw [hframe]; rfl
    rw [hresult]
    rcases (r.noteSequence e).keepEvidence_places result e.seal_ with
      ⟨hsame,hnone⟩ | ⟨key,hkey,hwritten,hput⟩
    · refine Or.inl ⟨hsame.trans hbucket,fun key h => ?_⟩
      exact hnone key ((hplaces key).mpr h.places) (hstatus.trans h.written)
    · rw [hbucket] at hput
      exact Or.inr ⟨key,⟨hscreened,hnews,(hplaces key).mp hkey,hstatus.symm.trans hwritten⟩,hput⟩

/-- The request, where it takes effect, comes from a source registered for it. -/
def CallWithin (r : ObservatoryRuntime) : Call → Prop
  | .publishTopology g => ∀ admitted, r.AdoptsTopology g admitted →
      r.IsRegistered g.source (·.capabilities.topology = true)
  | .publishRoutes g => ∀ admitted, r.AdoptsRoutes g admitted →
      r.IsRegistered g.source (·.capabilities.expectedState = true)
  | .ingestEvidence e => ∀ key, r.Gathers e key →
      r.IsRegistered e.source (·.capabilities.observedEvidence = true)
  | _ => True

/-- So does every request of a run when its turn comes. -/
def CallsWithin (r : ObservatoryRuntime) : List Call → Prop
  | [] => True
  | request :: rest => r.CallWithin request ∧ (r.perform request).CallsWithin rest

theorem isRegistered_of_contains {source : SourceId} (h : r.sources.contains source = true) :
    r.IsRegistered source (fun _ => True) := by
  obtain ⟨descriptor,hfound⟩ := OrderedMap.mem_iff_getElem?.mp (Std.ExtTreeMap.mem_iff_contains.mpr h)
  refine ⟨descriptor,?_,trivial⟩
  rw [SourceRegistry.find, hfound]

theorem source_of_adoptsTopology {g admitted : TopologyGeneration}
    (h : r.AdoptsTopology g admitted) :
    admitted.source = g.source ∧ r.IsRegistered g.source (fun _ => True) := by
  obtain ⟨hadmitted,-⟩ := h
  have hsource : admitted.source = g.source := by
    obtain ⟨-,heq⟩ := TopologyGeneration.finalize_eq_ok.mp (admitTopology_finalize hadmitted)
    rw [← heq]
    rfl
  unfold admitTopology at hadmitted
  obtain ⟨finalised,-,hadmitted⟩ := bind_eq_ok.mp hadmitted
  simp only [↓require_bind_eq_ok] at hadmitted
  obtain ⟨hcontains,-,-,heq⟩ := hadmitted
  rw [Except.ok.inj heq, hsource] at hcontains
  exact ⟨hsource,isRegistered_of_contains hcontains⟩

theorem source_of_adoptsRoutes {g admitted : RouteGeneration} (h : r.AdoptsRoutes g admitted) :
    admitted.source = g.source ∧ r.IsRegistered g.source (fun _ => True) := by
  obtain ⟨hadmitted,-⟩ := h
  have hsource : admitted.source = g.source := by
    obtain ⟨-,heq⟩ := RouteGeneration.finalize_eq_ok.mp (admitRoutes_finalize hadmitted)
    rw [← heq]
    rfl
  unfold admitRoutes at hadmitted
  obtain ⟨finalised,-,hadmitted⟩ := bind_eq_ok.mp hadmitted
  simp only [↓require_bind_eq_ok] at hadmitted
  obtain ⟨hcontains,-,-,-,-,heq⟩ := hadmitted
  rw [Except.ok.inj heq, hsource] at hcontains
  exact ⟨hsource,isRegistered_of_contains hcontains⟩

/-- The screen looks at the authority and the surface of a registered source. -/
theorem mayClaim_iff_of_screened {e : ObservedPathEvidence} (h : r.screenEvidence e = .ok ()) :
    (r.IsRegistered e.source (MayClaim e) ↔
      r.IsRegistered e.source (·.capabilities.observedEvidence = true)) ∧
    r.IsRegistered e.source (fun _ => True) := by
  unfold screenEvidence at h
  split at h
  · cases h
  · split at h
    · cases h
    · rename_i descriptor hfind
      split_ifs at h with hauthority hsurface
      refine ⟨⟨?_,?_⟩,descriptor,hfind,trivial⟩
      · rintro ⟨d,hd,hclaim⟩
        exact ⟨d,hd,hclaim.capable⟩
      · rintro ⟨d,hd,hcapable⟩
        obtain rfl := Except.ok.inj (hfind.symm.trans hd)
        exact ⟨descriptor,hfind,hcapable,not_lt.mp hauthority,not_not.mp hsurface⟩

/-- One request keeps sources within their capabilities exactly when it comes from
one that has them. -/
theorem speaksWithin_perform_iff (h : SpeaksWithin before r)
    (hbefore : ∀ key, before.bucket key <+: r.bucket key) (request : Call) :
    SpeaksWithin before (r.perform request) ↔ r.CallWithin request := by
  have hknows := r.perform_knowsSources request
  have hroutes := r.perform_routes request
  have htopology := r.perform_topology request
  constructor
  · intro hafter
    cases request with
    | publishTopology g =>
      intro admitted hadopts
      obtain ⟨hsource,hknown⟩ := source_of_adoptsTopology hadopts
      rcases htopology with ⟨-,hnone⟩ | ⟨other,current,heq,hother,hnew⟩
      · exact absurd hadopts (hnone g admitted rfl)
      · obtain rfl := Call.publishTopology.inj heq
        obtain ⟨hsource,-⟩ := source_of_adoptsTopology hother
        have hspeaks := hafter.topology current hnew
        rw [hsource] at hspeaks
        exact (isRegistered_iff_of_knows hknows hknown).mp hspeaks
    | publishRoutes g =>
      intro admitted hadopts
      obtain ⟨hsource,hknown⟩ := source_of_adoptsRoutes hadopts
      rcases hroutes with ⟨-,hnone⟩ | ⟨other,current,heq,hother,hnew⟩
      · exact absurd hadopts (hnone g admitted rfl)
      · obtain rfl := Call.publishRoutes.inj heq
        obtain ⟨hsource,-⟩ := source_of_adoptsRoutes hother
        have hspeaks := hafter.routes current hnew
        rw [hsource] at hspeaks
        exact (isRegistered_iff_of_knows hknows hknown).mp hspeaks
    | ingestEvidence e =>
      intro key hgathers
      obtain ⟨hclaim,hknown⟩ := mayClaim_iff_of_screened hgathers.screened
      rcases r.ingestEvidence_gathers e with ⟨-,hnone⟩ | ⟨other,hother,hput⟩
      · exact absurd hgathers (hnone key)
      · have hkey := Except.ok.inj (hgathers.places.subject.symm.trans hother.places.subject)
        have hmem : e.seal_ ∈ (r.ingestEvidence e).2.bucket other := by
          rw [hput, Filing.put, if_pos rfl]
          exact List.mem_append_right _ List.mem_cons_self
        have hnew : e.seal_ ∉ before.bucket other := fun hmem =>
          hother.places.takes.2 e.seal_ ((hbefore other).subset hmem) rfl
        have hspeaks := hafter.evidence other e.seal_ hmem hnew
        have hsealed : r.IsRegistered e.source (MayClaim e.seal_) :=
          (isRegistered_iff_of_knows hknows hknown).mp hspeaks
        obtain ⟨d,hd,hmay⟩ := hsealed
        exact ⟨d,hd,hmay.capable⟩
    | _ => trivial
  · intro hwithin
    refine ⟨?_,?_,?_⟩
    · intro g hg
      rcases hroutes with ⟨hsame,-⟩ | ⟨other,admitted,heq,hadopts,hnew⟩
      · rw [hsame] at hg
        exact (h.routes g hg).of_knows hknows
      · subst heq
        obtain rfl := Option.some.inj (hg.symm.trans hnew)
        rw [(source_of_adoptsRoutes hadopts).1]
        exact (hwithin g hadopts).of_knows hknows
    · intro g hg
      rcases htopology with ⟨hsame,-⟩ | ⟨other,admitted,heq,hadopts,hnew⟩
      · rw [hsame] at hg
        exact (h.topology g hg).of_knows hknows
      · subst heq
        obtain rfl := Option.some.inj (hg.symm.trans hnew)
        rw [(source_of_adoptsTopology hadopts).1]
        exact (hwithin g hadopts).of_knows hknows
    · intro key e he hnew
      have hsame : (r.perform request).bucket = r.bucket →
          (r.perform request).IsRegistered e.source (MayClaim e) := by
        intro hbucket
        rw [hbucket] at he
        exact (h.evidence key e he hnew).of_knows hknows
      by_cases hoffer : ∃ offered, request = .ingestEvidence offered
      · obtain ⟨offered,rfl⟩ := hoffer
        rcases r.ingestEvidence_gathers offered with ⟨hbucket,-⟩ | ⟨other,hgathers,hput⟩
        · exact hsame hbucket
        · rw [perform, hput, Filing.put] at he
          split_ifs at he with hkey
          · rcases List.mem_append.mp he with hold | hadded
            · exact (h.evidence key e (hkey ▸ hold) hnew).of_knows hknows
            · obtain rfl := List.mem_singleton.mp hadded
              obtain ⟨hclaim,-⟩ := mayClaim_iff_of_screened hgathers.screened
              obtain ⟨d,hd,hmay⟩ := hclaim.mpr (hwithin other hgathers)
              have hspeaks : r.IsRegistered offered.seal_.source (MayClaim offered.seal_) :=
                ⟨d,hd,hmay.capable,hmay.authority,hmay.surface⟩
              exact hspeaks.of_knows hknows
          · exact (h.evidence key e he hnew).of_knows hknows
      · exact hsame (bucket_congr (r.perform_sameObserved (not_exists.mp hoffer)).evidence)

theorem prefix_perform (r : ObservatoryRuntime) (request : Call) (key : SubjectKey) :
    r.bucket key <+: (r.perform request).bucket key := by
  by_cases hoffer : ∃ offered, request = .ingestEvidence offered
  · obtain ⟨offered,rfl⟩ := hoffer
    rcases r.ingestEvidence_gathers offered with ⟨hbucket,-⟩ | ⟨other,-,hput⟩
    · have hsame : (r.perform (.ingestEvidence offered)).bucket key = r.bucket key :=
        congrFun hbucket key
      exact hsame ▸ List.prefix_rfl
    · rw [perform, hput]
      exact Filing.prefix_put r.bucket other offered.seal_ key
  · have hsame := bucket_congr (r.perform_sameObserved (not_exists.mp hoffer)).evidence
    exact hsame ▸ List.prefix_rfl

/-- Every state of a run keeps sources within their capabilities exactly when every
request does. -/
theorem speaksWithin_run_iff (h : SpeaksWithin before r)
    (hbefore : ∀ key, before.bucket key <+: r.bucket key) (requests : List Call) :
    (∀ n, SpeaksWithin before ((requests.take n).foldl perform r)) ↔ r.CallsWithin requests := by
  induction requests generalizing r with
  | nil => exact ⟨fun _ => trivial,fun _ n => by simpa using h⟩
  | cons request rest ih =>
    have hstep := speaksWithin_perform_iff h hbefore request
    have hextends := fun key => (hbefore key).trans (r.prefix_perform request key)
    constructor
    · intro hall
      have hnext : SpeaksWithin before (r.perform request) := hall 1
      exact ⟨hstep.mp hnext,(ih hnext hextends).mp (fun n => hall (n + 1))⟩
    · rintro ⟨hfirst,hrest⟩ n
      have hnext := hstep.mpr hfirst
      cases n with
      | zero => exact h
      | succ n => exact (ih hnext hextends).mpr hrest n

/-- A runtime before its first request: it was created or started just now. -/
inductive Begun : ObservatoryRuntime → Prop
  | created {config : RuntimeConfig} {clock : ℕ → TimePoint} {sorter : Ranking.Sorter ranksBefore}
      {r : ObservatoryRuntime} (h : create config (some clock) sorter = .ok r) : Begun r
  | started {r s : ObservatoryRuntime} {content after : Option ByteString}
      (h : r.start content = (.ok (),s,after)) : Begun s

theorem Begun.forgotten (h : Begun r) : r.routes = none ∧ r.topology = none := by
  cases h with
  | created hcreate =>
    obtain ⟨-,rfl⟩ := create_eq_ok.mp hcreate
    exact ⟨rfl,rfl⟩
  | @started created _ content after hstart =>
    rcases created.start_cases content with ⟨e,s,_,herror,-⟩ | ⟨s,_,hok,-,htopology,hroutes⟩
    · rw [hstart] at herror
      cases congrArg Prod.fst herror
    · obtain rfl := (Prod.mk.inj (Prod.mk.inj (hstart.symm.trans hok)).2).1
      exact ⟨hroutes,htopology⟩

/-- Sources speak within their capabilities in every state of a run exactly when
every request of it that takes effect comes from a source registered for it. -/
theorem sources_speak_within_capabilities_iff (h : Begun r) (requests : List Call) :
    (∀ n, SpeaksWithin r ((requests.take n).foldl perform r)) ↔ r.CallsWithin requests := by
  obtain ⟨hroutes,htopology⟩ := h.forgotten
  refine speaksWithin_run_iff ⟨?_,?_,?_⟩ (fun key => List.prefix_rfl) requests
  · intro g hg
    rw [hroutes] at hg
    cases hg
  · intro g hg
    rw [htopology] at hg
    cases hg
  · exact fun key e he hnew => absurd he hnew

/-- An advisory source that declares nothing but observed evidence. -/
def observerSource : SourceDescriptor where
  id := ⟨1⟩
  name := [0x6f]
  kind := .telemetryObserver
  surface := .real
  authority := .advisory
  capabilities := { observedEvidence := true }

/-- The observer publishes a topology and a plan. -/
def observerRun : List Call :=
  [.registerSource observerSource,.publishTopology (emptyTopology 1),
    .publishRoutes ComparisonEngine.samplePlan]

def untouched : ObservatoryRuntime :=
  fresh {} (fun _ => ⟨1000⟩) (Ranking.Sorter.insertion ranksBefore_ranksBy)

theorem untouched_begun : Begun untouched := .created (create_default _ _)

theorem observer_run_speaks_within_iff :
    (∀ n, SpeaksWithin untouched ((observerRun.take n).foldl perform untouched)) ↔
      untouched.CallsWithin observerRun := sources_speak_within_capabilities_iff untouched_begun observerRun

/-- The plan in force comes from a source that may only observe. -/
theorem observer_installs_plan :
    Begun untouched ∧ ¬ ∀ n, SpeaksWithin untouched ((observerRun.take n).foldl perform untouched) := by
  refine ⟨untouched_begun,fun h => ?_⟩
  have hplan : ((observerRun.take 3).foldl perform untouched).routes.map (·.source) = some ⟨1⟩ ∧
      (((observerRun.take 3).foldl perform untouched).sources.find ⟨1⟩).toOption =
        some observerSource := by decide +kernel
  obtain ⟨hroutes,hfind⟩ := hplan
  obtain ⟨g,hg,hsource⟩ := Option.map_eq_some_iff.mp hroutes
  obtain ⟨d,hd,hcapable⟩ := (h 3).routes g hg
  rw [hsource] at hd
  obtain rfl := Except.ok.inj (hd.symm.trans (toOption_eq_some_iff.mp hfind))
  exact absurd hcapable (by decide)

end ObservatoryRuntime

end PathObservatory
