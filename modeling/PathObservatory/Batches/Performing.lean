import PathObservatory.Batches.Batching
import PathObservatory.Runtime.Publication

/-! # What has been performed of a batch

The requests of a batch that have been performed and those its body has still to make are
together the script of the batch, wherever it stands: nothing of a queued batch has been
performed, and the whole script of one whose body has returned.
-/
namespace PathObservatory
open Interleaving
open ObservatoryRuntime (Call)

/-- The requests that the body of a batch makes. -/
def script (limits : Limits) (batch : Batch) : List Call :=
  (if limits.maxEvidencePerIngestBatch < batch.length then [] else batch.map .ingestEvidence) ++
    [.compareAll]

namespace ObservatoryRuntime

theorem offerAll_snd (r : ObservatoryRuntime) (batch : Batch) :
    (r.offerAll batch).2 = (batch.map Call.ingestEvidence).foldl perform r := by
  rw [List.foldl_map]
  exact (List.foldl_hom Prod.snd fun _ _ => rfl).symm

/-- Left alone, a body is `ingest_batch` and `compare_all`, one after the other. -/
theorem script_performs (r : ObservatoryRuntime) (batch : Batch) :
    (script r.config.limits batch).foldl perform r = (r.ingestBatch batch).2.compareAll.2 := by
  unfold script ingestBatch
  split_ifs with hlarge
  · rfl
  · rw [List.foldl_append, ← offerAll_snd]
    rfl

end ObservatoryRuntime

namespace BatchPoint
variable {limits : Limits} {batch : Batch} {point after : BatchPoint} {call : Option Call}

/-- The requests that the body has still to make. -/
def remaining (limits : Limits) (batch : Batch) : BatchPoint → List Call
  | entered => script limits batch
  | ingesting left => left.map .ingestEvidence ++ [.compareAll]
  | ingested | comparing => [.compareAll]
  | returned => []

theorem remaining_of_next (h : point.next limits false batch = some (call,after)) :
    point.remaining limits batch = call.toList ++ after.remaining limits batch := by
  cases point with
  | entered =>
    simp only [next, Bool.false_eq_true, if_false] at h
    split_ifs at h with hlarge
    · obtain ⟨rfl,rfl⟩ := Prod.mk.inj (Option.some.inj h)
      simp [remaining, script, hlarge]
    · obtain ⟨rfl,rfl⟩ := Prod.mk.inj (Option.some.inj h)
      simp [remaining, script, hlarge]
  | ingesting left =>
    cases left with
    | nil =>
      obtain ⟨rfl,rfl⟩ := Prod.mk.inj (Option.some.inj h)
      rfl
    | cons e rest =>
      obtain ⟨rfl,rfl⟩ := Prod.mk.inj (Option.some.inj h)
      rfl
  | ingested =>
    obtain ⟨rfl,rfl⟩ := Prod.mk.inj (Option.some.inj h)
    rfl
  | comparing =>
    obtain ⟨rfl,rfl⟩ := Prod.mk.inj (Option.some.inj h)
    rfl
  | returned => cases h

end BatchPoint

/-- The request, if the body of the task with this number has made it. -/
def requestOf (source : ℕ) : Option ℕ × RuntimeEvent → Option Call
  | (some other,.request call) => if other = source then some call else none
  | (some _,.stopping) | (none,_) => none

/-- The requests that the body of the task with this number has made. -/
def requestsOf (source : ℕ) (log : List (Option ℕ × RuntimeEvent)) : List Call :=
  log.filterMap (requestOf source)

namespace BatchedRuntime
variable {r₀ : ObservatoryRuntime} {s t : BatchedRuntime} {a : Action} {maxQueue : ℕ}
  {log : List (Option ℕ × RuntimeEvent)} {source thread : ℕ}

theorem requestsOf_outside (event : RuntimeEvent) :
    requestsOf source (log ++ [(none,event)]) = requestsOf source log := by
  unfold requestsOf
  rw [List.filterMap_append]
  exact List.append_nil _

theorem requestsOf_self (call : Option Call) :
    requestsOf source (log ++ call.toList.map fun call => (some source,.request call)) =
      requestsOf source log ++ call.toList := by
  unfold requestsOf
  rw [List.filterMap_append]
  cases call with
  | none => rfl
  | some call => simp [requestOf]

theorem requestsOf_other {other : ℕ} (h : other ≠ source) (call : Option Call) :
    requestsOf source (log ++ call.toList.map fun call => (some other,.request call)) =
      requestsOf source log := by
  unfold requestsOf
  rw [List.filterMap_append]
  cases call with
  | none => exact List.append_nil _
  | some call => simp [requestOf, h]

/-- Actions of the pool that withdraw nothing and cancel nothing. -/
def Gentle : PoolUse.Action Batch → Prop
  | .submit _ | .work _ | .shutdown false | .join _ | .leave _ => True
  | .cancelPending | .shutdown true => False

theorem undisturbed_of_steps {u v : PoolUse Batch} {action : PoolUse.Action Batch}
    (h : Draining.Undisturbed u) (hgentle : Gentle action) (hsteps : PoolUse.Steps u action v) :
    Draining.Undisturbed v := by
  cases action with
  | submit task => exact h.step (show Draining.Ordinary (.pool (.submit task)) from trivial) hsteps
  | work thread =>
    exact h.step (show Draining.Ordinary (.pool (.work thread : PoolUse.Action Batch)) from trivial)
      hsteps
  | cancelPending => cases hgentle
  | shutdown cancelRunning =>
    cases cancelRunning with
    | true => cases hgentle
    | false =>
      cases hsteps with
      | shutdown hpool =>
        obtain rfl := WorkerPool.beginShutdown_eq_some hpool
        exact ⟨h.withdrawn,by simp [h.cancelled],h.skipped⟩
      | shutdownTwice => exact ⟨h.withdrawn,h.cancelled,h.skipped⟩
  | join call =>
    cases hsteps
    exact ⟨h.withdrawn,h.cancelled,h.skipped⟩
  | leave call =>
    cases hsteps
    exact ⟨h.withdrawn,h.cancelled,h.skipped⟩

/-- The pool keeps its ledger, and nothing in it was withdrawn or cancelled. -/
structure Pooled (maxQueue : ℕ) (use : PoolUse Batch) : Prop where
  kept : PoolUse.Kept maxQueue use
  calm : Draining.Undisturbed use

theorem Pooled.step {u v : PoolUse Batch} {action : PoolUse.Action Batch} (h : Pooled maxQueue u)
    (hgentle : Gentle action) (hsteps : PoolUse.Steps u action v) : Pooled maxQueue v :=
  ⟨h.kept.after hsteps,undisturbed_of_steps h.calm hgentle hsteps⟩

namespace Pooled
variable {use : PoolUse Batch} {e f : Entry Batch}

theorem mem_begun_of_running (h : Pooled maxQueue use)
    (hthread : use.pool.threads[thread]? = some (.running e)) : e ∈ use.log.begun := by
  refine h.kept.accounted.begun.mem_iff.mpr (List.mem_append_left _ ?_)
  exact mem_holds (List.mem_of_getElem? hthread) (List.mem_singleton_self e)

theorem mem_begun_of_ran (h : Pooled maxQueue use) (hran : e ∈ use.log.ran) : e ∈ use.log.begun :=
  h.kept.accounted.begun.mem_iff.mpr (List.mem_append_right _ hran)

theorem mem_accepted_of_hand (h : Pooled maxQueue use) {w : Worker Batch}
    (hw : w ∈ use.pool.threads) (he : e ∈ w.inHand) : e ∈ use.log.accepted := by
  refine h.kept.accounted.custody.mem_iff.mpr (List.mem_append_left _ (List.mem_append_left _ ?_))
  exact List.mem_append_right _ (mem_holds hw he)

/-- A task whose body was begun is in hand or finished. -/
theorem hand_or_finished_of_begun (h : Pooled maxQueue use) (he : e ∈ use.log.begun) :
    e ∈ use.pool.threads.flatMap Worker.inHand ++ use.log.finished := by
  rcases List.mem_append.mp (h.kept.accounted.begun.mem_iff.mp he) with hbody | hran
  · have hunreturned := (Worker.inBody_sublist use.pool.threads).subset hbody
    exact List.mem_append_left _ ((Worker.inHand_perm use.pool.threads).mem_iff.mpr
      (List.mem_append_left _ hunreturned))
  · have hpassed := h.kept.accounted.passed.mem_iff.mp (List.mem_append_left _ hran)
    rcases List.mem_append.mp hpassed with hbehind | hfinished
    · exact List.mem_append_left _ ((Worker.inHand_perm use.pool.threads).mem_iff.mpr
        (List.mem_append_right _ hbehind))
    · exact List.mem_append_right _ hfinished

theorem mem_accepted_of_begun (h : Pooled maxQueue use) (he : e ∈ use.log.begun) :
    e ∈ use.log.accepted := by
  refine h.kept.accounted.custody.mem_iff.mpr (List.mem_append_left _ ?_)
  rw [List.append_assoc]
  exact List.mem_append_right _ (h.hand_or_finished_of_begun he)

theorem not_begun_of_queued (h : Pooled maxQueue use) (he : e ∈ use.pool.queue) :
    e ∉ use.log.begun := by
  have hnodup := (h.kept.accounted.custody.nodup_iff.mp h.kept.numbered.nodup).of_append_left
  rw [List.append_assoc] at hnodup
  exact fun hbegun =>
    List.disjoint_of_nodup_append hnodup he (h.hand_or_finished_of_begun hbegun)

/-- Tasks are told apart by their numbers. -/
theorem eq_of_source (h : Pooled maxQueue use) (he : e ∈ use.log.accepted)
    (hf : f ∈ use.log.accepted) (hsource : e.source = f.source) : e = f :=
  List.inj_on_of_nodup_map h.kept.numbered.distinct he hf hsource

/-- A body runs in one thread and has not returned. -/
theorem running_once (h : Pooled maxQueue use)
    (hthread : use.pool.threads[thread]? = some (.running e)) :
    e ∉ use.log.ran ∧
      ∀ other, use.pool.threads[other]? = some (.running e) → other = thread := by
  have hnodup := h.kept.accounted.begun.nodup_iff.mp h.kept.begun_nodup
  refine ⟨fun hran => ?_,fun other hother => ?_⟩
  · refine List.disjoint_of_nodup_append hnodup ?_ hran
    exact mem_holds (List.mem_of_getElem? hthread) (List.mem_singleton_self e)
  · exact place_unique hnodup.of_append_left hother hthread (List.mem_singleton_self e)
      (List.mem_singleton_self e)

end Pooled

/-- How much of the script of every accepted batch has been performed. -/
structure Performing (r₀ : ObservatoryRuntime) (maxQueue : ℕ) (s : BatchedRuntime) : Prop where
  pooled : Pooled maxQueue s.use
  limits : s.runtime.config.limits = r₀.config.limits
  running : ∀ i e, s.pool.threads[i]? = some (.running e) → requestsOf e.source s.log ++
    (s.points i).remaining r₀.config.limits e.task = script r₀.config.limits e.task
  ran : ∀ e ∈ s.use.log.ran, requestsOf e.source s.log = script r₀.config.limits e.task
  fresh : ∀ source, (∀ e ∈ s.use.log.begun, e.source ≠ source) → requestsOf source s.log = []

/-- Two runtimes with the same pool and the same log agree about the batches. -/
theorem Performing.congr (h : Performing r₀ maxQueue s) (huse : t.use = s.use)
    (hpoints : t.points = s.points) (hlimits : t.runtime.config.limits = s.runtime.config.limits)
    (hrequests : ∀ source, requestsOf source t.log = requestsOf source s.log) :
    Performing r₀ maxQueue t := by
  refine ⟨huse ▸ h.pooled,hlimits.trans h.limits,fun i e hthread => ?_,fun e he => ?_,
    fun source hnone => ?_⟩
  · rw [hrequests, hpoints]
    exact h.running i e (by rwa [pool, huse] at hthread)
  · rw [hrequests]
    exact h.ran e (by rwa [huse] at he)
  · rw [hrequests]
    exact h.fresh source (by rwa [huse] at hnone)

/-- A step of the pool that moves no thread. -/
theorem Performing.of_still {use : PoolUse Batch} {action : PoolUse.Action Batch}
    (h : Performing r₀ maxQueue s) (hgentle : Gentle action)
    (hsteps : PoolUse.Steps s.use action use)
    (hthreads : ∀ (i : ℕ) (e : Entry Batch), use.pool.threads[i]? = some (.running e) →
      s.pool.threads[i]? = some (.running e))
    (hran : use.log.ran = s.use.log.ran) (hbegun : use.log.begun = s.use.log.begun) :
    Performing r₀ maxQueue (s.withUse use) :=
  ⟨h.pooled.step hgentle hsteps,h.limits,fun i e hthread => h.running i e (hthreads i e hthread),
    fun e he => h.ran e (hran ▸ he),fun source hnone => h.fresh source (hbegun ▸ hnone)⟩

theorem limits_serve (origin : Option ℕ) (event : RuntimeEvent) :
    (s.serve origin event).runtime.config.limits = s.runtime.config.limits := by
  cases event with
  | request call => exact congrArg RuntimeConfig.limits (s.runtime.perform_config call)
  | stopping => rfl

theorem Performing.outside (h : Performing r₀ maxQueue s) (event : RuntimeEvent) :
    Performing r₀ maxQueue (s.serve none event) :=
  h.congr rfl rfl (limits_serve none event) fun _ => requestsOf_outside event

/-- The body of a batch makes its next request. -/
theorem Performing.body (h : Performing r₀ maxQueue s) {entry : Entry Batch} {call : Option Call}
    {point : BatchPoint} (hthread : s.pool.threads[thread]? = some (.running entry))
    (hnext : (s.points thread).next s.runtime.config.limits
      (s.pool.cancelled.contains entry.source) entry.task = some (call,point)) :
    Performing r₀ maxQueue (s.moved thread entry.source call point) := by
  have huse : (s.moved thread entry.source call point).use = s.use :=
    congrArg Draining.use (moved_draining ..)
  rw [h.pooled.calm.cancelled, h.limits] at hnext
  have hentry := h.pooled.mem_begun_of_running hthread
  have hother : ∀ e ∈ s.use.log.begun, e ≠ entry → entry.source ≠ e.source :=
    fun e he hne hsource => hne (h.pooled.eq_of_source (h.pooled.mem_accepted_of_begun he)
      (h.pooled.mem_accepted_of_begun hentry) hsource.symm)
  refine ⟨huse ▸ h.pooled,?_,fun i e hi => ?_,fun e he => ?_,fun source hnone => ?_⟩
  · rw [moved_runtime]
    cases call with
    | none => exact h.limits
    | some call =>
      exact (congrArg RuntimeConfig.limits (s.runtime.perform_config call)).trans h.limits
  · rw [pool, huse] at hi
    rw [moved_log, moved_points]
    by_cases hsame : i = thread
    · subst hsame
      obtain rfl : entry = e := Worker.running.inj (Option.some.inj (hthread.symm.trans hi))
      rw [requestsOf_self, Function.update_self, List.append_assoc,
        ← BatchPoint.remaining_of_next hnext]
      exact h.running i entry hi
    · have hne : e ≠ entry := fun heq => hsame ((h.pooled.running_once hthread).2 i (heq ▸ hi))
      rw [requestsOf_other (hother e (h.pooled.mem_begun_of_running hi) hne),
        Function.update_of_ne hsame]
      exact h.running i e hi
  · rw [huse] at he
    have hne : e ≠ entry := fun heq => (h.pooled.running_once hthread).1 (heq ▸ he)
    rw [moved_log, requestsOf_other (hother e (h.pooled.mem_begun_of_ran he) hne)]
    exact h.ran e he
  · rw [huse] at hnone
    rw [moved_log, requestsOf_other (hnone entry hentry)]
    exact h.fresh source hnone

end BatchedRuntime

end PathObservatory
