import PathObservatory.Runtime.Sequencing
import PathObservatory.Runtime.Survival

/-! # What a restart forgets

The sequence ledger and the gap marks are not written to the store. A new runtime
takes every record for the first of its source, and a bucket that only a gap kept
from compliance becomes compliant.
-/
namespace PathObservatory

/-- A match is not reported beside a sequence gap. -/
theorem ComparisonEngine.gapless_of_match {engine : ComparisonEngine}
    {request : ComparisonRequest} {context : ComparisonContext}
    (h : ∃ result, engine.compare request context = .ok result ∧ result.outcome = .match_) :
    request.sourceSequenceGap = false := by
  obtain ⟨routes,group,representative,-,hcompliant⟩ := match_iff.mp h
  exact (classification_completeness.mp hcompliant.complete).2.2

namespace ObservatoryRuntime
variable {config : RuntimeConfig} {r s : ObservatoryRuntime}

/-- Comparing the bucket reports a match. -/
def Matches (r : ObservatoryRuntime) (key : SubjectKey) : Prop :=
  ∃ result, (r.compareBucket key false).1 = .ok result ∧ result.outcome = .match_

theorem matches_iff {key : SubjectKey} : r.Matches key ↔ ∃ result,
    r.engine.compare (r.requestFor key) r.makeContext = .ok result ∧
      result.outcome = .match_ := by
  unfold Matches compareBucket
  cases r.engine.compare (r.requestFor key) r.makeContext with
  | error e => simp
  | ok result => simp

/-- A source of the bucket has a gap, and without it the bucket would match. -/
def MatchesButForGap (r : ObservatoryRuntime) (key : SubjectKey) : Prop :=
  (r.requestFor key).sourceSequenceGap = true ∧
    ∃ result, r.engine.compare { r.requestFor key with sourceSequenceGap := false }
      r.makeContext = .ok result ∧ result.outcome = .match_

/-- No bucket matches that did not match before. -/
def KeepsVerdicts (r s : ObservatoryRuntime) : Prop :=
  ∀ key, ¬ r.Matches key → ¬ s.Matches key

/-- What was refused as a replay still is. -/
def KeepsFence (r s : ObservatoryRuntime) : Prop :=
  ∀ e, (r.ingestEvidence e).1.replay = true → (s.ingestEvidence e).1.replay = true

/-- The same engine compares against the same sources, topology and routes at the
same time. -/
structure Republished (r s : ObservatoryRuntime) : Prop where
  engine : s.engine = r.engine
  context : s.makeContext = r.makeContext

/-- The requests that publish sources and expected state. -/
def Call.Publishes : Call → Prop
  | .registerSource _ | .publishTopology _ | .publishRoutes _ => True
  | _ => False

theorem SameObserved.trans {t : ObservatoryRuntime} (h : r.SameObserved s)
    (k : s.SameObserved t) : r.SameObserved t :=
  ⟨k.ledger.trans h.ledger,k.sourceHasGap.trans h.sourceHasGap,k.evidence.trans h.evidence⟩

theorem performs_sameObserved {requests : List Call} (h : ∀ call ∈ requests, call.Publishes) :
    r.SameObserved (requests.foldl perform r) := by
  induction requests generalizing r with
  | nil => exact .refl r
  | cons call rest ih =>
    have hfirst : r.SameObserved (r.perform call) := by
      refine r.perform_sameObserved (fun e heq => ?_)
      rw [heq] at h
      exact h _ List.mem_cons_self
    exact hfirst.trans (ih (fun other hother => h other (List.mem_cons_of_mem call hother)))

/-- In every run only a source with an entry in the ledger can have a gap, and one
with an entry offered a record that is refused as a replay. -/
theorem PersistentRun.sequenced (h : PersistentRun config r) : r.Sequenced := by
  induction h with
  | @boot clock sorter created started content after hcreate hstart =>
    obtain ⟨-,rfl⟩ := create_eq_ok.mp hcreate
    have hfresh : (fresh config clock sorter).Sequenced :=
      ⟨fun source hmark => absurd hmark Bool.false_ne_true,
        fun source hentry => absurd hentry Bool.false_ne_true⟩
    have hstarted := hfresh.start content
    rwa [hstart] at hstarted
  | call _ call ih => exact ih.perform call
  | restart _ ih => exact ih.start _

/-- A runtime with an empty ledger refuses nothing as a replay. -/
theorem keepsFence_iff (hr : r.Sequenced) (hs : s.ledger = {}) :
    r.KeepsFence s ↔ ∀ source, (r.ledger.entryOf source).incarnation.valid = false := by
  constructor
  · intro h source
    by_contra hentry
    obtain ⟨e,-,hscreened,hreplays⟩ := hr.offered source (Bool.of_not_eq_false hentry)
    have hreplay := h e ((r.ingestEvidence_replay_iff e).mpr ⟨hscreened,hreplays⟩)
    obtain ⟨hpassed,hincarnation,-⟩ := (s.ingestEvidence_replay_iff e).mp hreplay
    have hvalid := incarnation_valid_of_screened hpassed
    rw [hs] at hincarnation
    rw [← hincarnation] at hvalid
    cases hvalid
  · intro h e hreplay
    obtain ⟨hpassed,hincarnation,-⟩ := (r.ingestEvidence_replay_iff e).mp hreplay
    have hvalid := incarnation_valid_of_screened hpassed
    rw [← hincarnation, h e.source] at hvalid
    cases hvalid

/-- A runtime with the same buckets and no gap marks matches more exactly where a
gap alone stood against a match. -/
theorem keepsVerdicts_iff (hsame : r.Republished s) (hbucket : s.bucket = r.bucket)
    (hgaps : s.sourceHasGap = ∅) : r.KeepsVerdicts s ↔ ∀ key, ¬ r.MatchesButForGap key := by
  have hrequest : ∀ key, s.requestFor key =
      { r.requestFor key with sourceSequenceGap := false } := by
    intro key
    have hnone : (s.bucket key).any (fun e => (s.sourceHasGap[e.source]?).getD false) = false := by
      rw [hgaps]
      simp
    unfold requestFor
    rw [hnone, hbucket]
  have hmatches : ∀ key, s.Matches key ↔ ∃ result,
      r.engine.compare { r.requestFor key with sourceSequenceGap := false } r.makeContext =
        .ok result ∧ result.outcome = .match_ := by
    intro key
    rw [matches_iff, hsame.engine, hsame.context, hrequest]
  refine forall_congr' (fun key => ?_)
  rw [hmatches]
  cases hgap : (r.requestFor key).sourceSequenceGap with
  | false =>
    have hsame : r.requestFor key = { r.requestFor key with sourceSequenceGap := false } := by
      rw [← hgap]
    rw [← hsame, ← matches_iff]
    exact ⟨fun _ h => absurd h.1 (by rw [hgap]; exact Bool.false_ne_true),fun _ h => h⟩
  | true =>
    have hnot : ¬ r.Matches key := fun h => by
      have hnone := ComparisonEngine.gapless_of_match (matches_iff.mp h)
      rw [hgap] at hnone
      cases hnone
    exact ⟨fun h hbut => h hnot hbut.2,fun h _ hmatch => h ⟨hgap,hmatch⟩⟩

/-- A source without an entry has no gap. -/
theorem Sequenced.not_matchesButForGap (h : r.Sequenced)
    (hempty : ∀ source, (r.ledger.entryOf source).incarnation.valid = false) (key : SubjectKey) :
    ¬ r.MatchesButForGap key := by
  rintro ⟨hgap,-⟩
  obtain ⟨e,-,hmark⟩ := List.any_eq_true.mp hgap
  have hentry := h.marked e.source hmark
  rw [hempty e.source] at hentry
  cases hentry

/-- The observations of a new runtime on what a run left, after publications. -/
theorem restarted_observed {clock : ℕ → TimePoint} {sorter : Ranking.Sorter ranksBefore}
    {created started : ObservatoryRuntime} {content after : Option ByteString}
    (hcreate : create config (some clock) sorter = .ok created)
    (hstart : created.start content = (.ok (),started,after)) {requests : List Call}
    (hrequests : ∀ call ∈ requests, call.Publishes) :
    (requests.foldl perform started).ledger = {} ∧
      (requests.foldl perform started).sourceHasGap = ∅ ∧
      (requests.foldl perform started).bucket = started.bucket := by
  obtain ⟨-,rfl⟩ := create_eq_ok.mp hcreate
  obtain ⟨-,hledger,hgaps⟩ := (fresh config clock sorter).start_sequences content
  rw [hstart] at hledger hgaps
  have hsame := performs_sameObserved (r := started) hrequests
  exact ⟨hsame.ledger.trans hledger,hsame.sourceHasGap.trans hgaps,bucket_congr hsame.evidence⟩

/-- A new runtime on what a run left, to which everything is published again, knows
what the run knew exactly when the run accepted no record: the ledger is gone, and
with it every gap that alone stood against a match. -/
theorem restart_forgets_nothing_iff (hrun : PersistentRun config r)
    (hpersist : config.persist = true) (hload : config.loadEvidenceOnStart = true)
    (hnamed : ∀ key, ∀ e ∈ r.bucket key, e.routeGeneration.present = true ∧
      key = { generation := e.routeGeneration.value, group := e.group })
    {clock : ℕ → TimePoint} {sorter : Ranking.Sorter ranksBefore}
    {created started : ObservatoryRuntime} {after : Option ByteString}
    (hcreate : create config (some clock) sorter = .ok created)
    (hstart : created.start r.disk = (.ok (),started,after)) {requests : List Call}
    (hrequests : ∀ call ∈ requests, call.Publishes)
    (hsame : r.Republished (requests.foldl perform started)) :
    (r.KeepsVerdicts (requests.foldl perform started) ∧
        r.KeepsFence (requests.foldl perform started) ↔
      ∀ source, (r.ledger.entryOf source).incarnation.valid = false) ∧
    (r.KeepsVerdicts (requests.foldl perform started) ↔ ∀ key, ¬ r.MatchesButForGap key) := by
  obtain ⟨hledger,hgaps,hbucket⟩ := restarted_observed hcreate hstart hrequests
  have hrestored := (hrun.restart_bucket_iff hpersist hload rfl ⟨hpersist,hload⟩ hcreate
    hstart).mpr (not_misfiled_iff.mpr hnamed)
  have hverdicts := keepsVerdicts_iff hsame (hbucket.trans hrestored) hgaps
  have hfence := keepsFence_iff hrun.sequenced hledger
  refine ⟨?_,hverdicts⟩
  rw [hverdicts, hfence]
  exact ⟨And.right,fun hempty => ⟨hrun.sequenced.not_matchesButForGap hempty,hempty⟩⟩

/-- The named run without its configuration and its sources is like new. -/
theorem namedRun_frame : ∃ readings sources ledger gaps evidence history findings store state,
    namedRun = { createdAtWork with
      readings := readings, sources := sources, ledger := ledger, sourceHasGap := gaps,
      evidence := evidence, history := history, findings := findings, store := store,
      state := state } := by
  have hok : (createdAtWork.start none).1 = .ok () := by decide
  obtain ⟨readings,_,evidence,history,findings,_,state,⟨⟨e,herror⟩,-⟩ | ⟨-,hbooted⟩⟩ :=
    createdAtWork.start_frame none
  · rw [hok] at herror
    cases herror
  · obtain ⟨sources,store,hregistered⟩ := bootedAtWork.registerSource_frame probeSource
    obtain ⟨ledger,gaps,evidence,store,hingested⟩ :=
      (bootedAtWork.registerSource probeSource).2.ingestEvidence_frame namedEvidence
    have hnamed : namedRun = ((bootedAtWork.registerSource probeSource).2.ingestEvidence
      namedEvidence).2 := rfl
    have hboot : bootedAtWork = _ := hbooted
    rw [hnamed, hingested, hregistered, hboot]
    exact ⟨_,_,_,_,_,_,_,_,_,rfl⟩

/-- A new runtime on the store of the named run has its sources and there is no
expected state to publish again. -/
theorem namedRun_republished : ∃ started after,
    createdAtWork.start namedRun.disk = (.ok (),started,after) ∧
      namedRun.Republished started := by
  obtain ⟨started,after,hstart,hsources⟩ := namedRun_harmless.start_atWork
  obtain ⟨_,_,_,_,_,_,_,⟨⟨e,herror⟩,-⟩ | ⟨-,hframe⟩⟩ := createdAtWork.start_frame namedRun.disk
  · rw [hstart] at herror
    cases herror
  · obtain ⟨_,_,_,_,_,_,_,_,_,hnamed⟩ := namedRun_frame
    rw [hstart] at hframe
    have hstarted : started = _ := hframe
    refine ⟨started,after,hstart,?_,?_⟩
    · rw [hstarted, hnamed]
      rfl
    · unfold makeContext
      rw [hsources, hstarted, hnamed]
      rfl

/-- The named run decides what a restart keeps of it. -/
theorem namedRun_forgets_iff : ∃ started after,
    createdAtWork.start namedRun.disk = (.ok (),started,after) ∧
      (namedRun.KeepsVerdicts started ∧ namedRun.KeepsFence started ↔
        ∀ source, (namedRun.ledger.entryOf source).incarnation.valid = false) := by
  obtain ⟨started,after,hstart,hsame⟩ := namedRun_republished
  have hnone : ∀ call ∈ ([] : List Call), call.Publishes := fun _ h => absurd h List.not_mem_nil
  exact ⟨started,after,hstart,(restart_forgets_nothing_iff namedRun_run rfl rfl namedRun_named
    create_atWork hstart hnone hsame).1⟩

/-- The trace is refused as a replay before the restart, and not after it. -/
theorem replay_accepted_after_restart : PersistentRun persistentConfig namedRun ∧
    (namedRun.ingestEvidence namedEvidence).1.replay = true ∧
    ∃ started after, createdAtWork.start namedRun.disk = (.ok (),started,after) ∧
      namedRun.Republished started ∧
      (started.ingestEvidence namedEvidence).1.replay = false ∧ ¬ namedRun.KeepsFence started := by
  obtain ⟨started,after,hstart,hsame⟩ := namedRun_republished
  have hreplay : (namedRun.ingestEvidence namedEvidence).1.replay = true := by decide +kernel
  have hnone : ∀ call ∈ ([] : List Call), call.Publishes := fun _ h => absurd h List.not_mem_nil
  have hledger : started.ledger = {} := (restarted_observed create_atWork hstart hnone).1
  have hpassed : (started.ingestEvidence namedEvidence).1.replay = false := by
    rw [← Bool.not_eq_true, started.ingestEvidence_replay_iff]
    rintro ⟨-,hincarnation,-⟩
    rw [hledger] at hincarnation
    exact absurd hincarnation (by decide)
  refine ⟨namedRun_run,hreplay,started,after,hstart,hsame,hpassed,fun h => ?_⟩
  rw [h namedEvidence hreplay] at hpassed
  cases hpassed

end ObservatoryRuntime

end PathObservatory
