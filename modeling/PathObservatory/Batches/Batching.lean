import Mathlib.Logic.Function.Basic
import PathObservatory.Infrastructure.Drain
import PathObservatory.Runtime.Frames

/-! # Batches in the background

`submit_batch` hands a batch of evidence to the worker pool. The body of its task offers
the records one after the other and then compares every bucket; each of these requests
takes the lock of the runtime for itself, so that other threads are served in between.
A stop closes the pool before it marks the store clean.
-/
namespace PathObservatory
open Interleaving

abbrev Batch := List ObservedPathEvidence

namespace ObservatoryRuntime

/-- How many records were accepted, and what all of them left. -/
def offerAll (r : ObservatoryRuntime) (batch : Batch) : ℕ × ObservatoryRuntime :=
  batch.foldl (fun s e =>
    let (result,r) := s.2.ingestEvidence e
    (if result.accepted then s.1 + 1 else s.1,r)) (0,r)

def ingestBatch (r : ObservatoryRuntime) (batch : Batch) : Result ℕ × ObservatoryRuntime :=
  if r.config.limits.maxEvidencePerIngestBatch < batch.length then
    (.error { code := .capacityExceeded,
              message := "batch exceeds the configured ingest bound" },r)
  else (.ok (r.offerAll batch).1,(r.offerAll batch).2)

def kMaxPendingBatches : ℕ := 256

end ObservatoryRuntime

open ObservatoryRuntime (Call)

/-- How far the body of a batch is. -/
inductive BatchPoint
  | entered
  /-- In `ingest_batch`, with the records that are still to be offered. -/
  | ingesting (left : Batch)
  | ingested
  | comparing
  | returned
deriving DecidableEq, Repr

namespace BatchPoint

/-- What the body does next: the request it makes, and the point it is at then. The answers
to its requests are not looked at. -/
def next (limits : Limits) (cancelled : Bool) (batch : Batch) :
    BatchPoint → Option (Option Call × BatchPoint)
  | entered =>
    if cancelled then some (none,returned)
    else if limits.maxEvidencePerIngestBatch < batch.length then some (none,ingested)
    else some (none,ingesting batch)
  | ingesting [] => some (none,ingested)
  | ingesting (e :: rest) => some (some (.ingestEvidence e),ingesting rest)
  | ingested => some (none,if cancelled then returned else comparing)
  | comparing => some (some .compareAll,returned)
  | returned => none

end BatchPoint

/-- What happens to a runtime under its lock. -/
inductive RuntimeEvent
  | request (call : Call)
  /-- The first critical section of `stop`. -/
  | stopping

def RuntimeEvent.apply (r : ObservatoryRuntime) : RuntimeEvent → ObservatoryRuntime
  | request call => r.perform call
  | stopping => { r with state := .stopping }

/-- How far a call of `stop` is. -/
inductive StopPhase
  | idle
  | announced
  /-- In `shutdown`, in the call with this number. -/
  | joining (call : ℕ)
  /-- The pool is shut down, the last critical section is still to come. -/
  | closing
deriving DecidableEq, Repr

/-- A runtime with its worker pool. Beside the calls of `submit_batch` there is one of
`drain` and one of `stop` at a time. What happened to the runtime is remembered with the
number of the task that made it happen, and without one where another thread did. -/
structure BatchedRuntime where
  runtime : ObservatoryRuntime
  draining : Draining Batch
  /-- How far the body is that a thread is running. -/
  points : ℕ → BatchPoint := fun _ => .entered
  /-- Batches between the two critical sections of `submit_batch`. -/
  offers : List Batch := []
  stop : StopPhase := .idle
  log : List (Option ℕ × RuntimeEvent) := []

namespace BatchedRuntime

inductive Action
  /-- A request other than `stop`, from outside the pool. -/
  | request (call : Call)
  | offer (batch : Batch)
  | submit (offer : ℕ)
  | work (thread : ℕ)
  | body (thread : ℕ)
  | beginStop
  | shutdown
  | join
  | leave
  | endStop
  | drain
  | readFirst (order : ReadOrder)
  | readSecond

abbrev use (s : BatchedRuntime) : PoolUse Batch := s.draining.use

abbrev pool (s : BatchedRuntime) : WorkerPool Batch := s.use.pool

/-- Something happens to the runtime. -/
def serve (s : BatchedRuntime) (origin : Option ℕ) (event : RuntimeEvent) : BatchedRuntime :=
  { s with runtime := event.apply s.runtime, log := s.log ++ [(origin,event)] }

/-- A step of the pool, or of the call of `drain`. -/
def withPool (s : BatchedRuntime) (action : Draining.Action Batch) : Option BatchedRuntime :=
  (s.draining.step action).map fun draining => { s with draining := draining }

/-- The thread has not come to the end of the body it is running. -/
def midBody (s : BatchedRuntime) (thread : ℕ) : Bool :=
  match s.pool.threads[thread]? with
  | some (.running _) => s.points thread ≠ .returned
  | _ => false

/-- A step of `worker_loop`; a body that is begun next is at its start. -/
def work (s : BatchedRuntime) (thread : ℕ) : Option BatchedRuntime :=
  if s.midBody thread then none
  else (s.withPool (.pool (.work thread))).map fun s =>
    { s with points := Function.update s.points thread .entered }

/-- A step of the body that a thread is running. -/
def body (s : BatchedRuntime) (thread : ℕ) : Option BatchedRuntime :=
  match s.pool.threads[thread]? with
  | some (.running entry) =>
    match (s.points thread).next s.runtime.config.limits (s.pool.cancelled.contains entry.source)
        entry.task with
    | some (call,point) =>
      let moved := { s with points := Function.update s.points thread point }
      some (call.elim moved fun call => moved.serve (some entry.source) (.request call))
    | none => none
  | _ => none

/-- The call of `shutdown` that is about to be made. -/
def shutdownPhase (s : BatchedRuntime) (call : ℕ) : StopPhase :=
  if s.use.shutdowns[call]?.any (·.phase = .returned) then .closing else .joining call

def step (s : BatchedRuntime) : Action → Option BatchedRuntime
  | .request call => if call = .stop then none else some (s.serve none (.request call))
  | .offer batch =>
    if s.runtime.state ≠ .running then some s
    else if ObservatoryRuntime.kMaxPendingBatches ≤ s.pool.pending then some s
    else some { s with offers := s.offers ++ [batch] }
  | .submit offer =>
    match s.offers[offer]? with
    | some batch =>
      { s with offers := s.offers.eraseIdx offer }.withPool (.pool (.submit (some batch)))
    | none => none
  | .work thread => s.work thread
  | .body thread => s.body thread
  | .beginStop =>
    if s.stop = .idle ∧ s.runtime.state ≠ .stopped then
      some { s.serve none .stopping with stop := .announced }
    else none
  | .shutdown =>
    if s.stop = .announced then
      (s.withPool (.pool (.shutdown false))).map fun t =>
        { t with stop := t.shutdownPhase s.use.shutdowns.length }
    else none
  | .join =>
    match s.stop with
    | .joining call => s.withPool (.pool (.join call))
    | _ => none
  | .leave =>
    match s.stop with
    | .joining call => (s.withPool (.pool (.leave call))).map fun s => { s with stop := .closing }
    | _ => none
  | .endStop =>
    if s.stop = .closing then some { s.serve none (.request .stop) with stop := .idle } else none
  | .drain => s.withPool .call
  | .readFirst order => s.withPool (.readFirst order)
  | .readSecond => s.withPool .readSecond

/-- A runtime with the pool its start has made. -/
def serving (r : ObservatoryRuntime) : BatchedRuntime where
  runtime := r
  draining := Draining.idle Batch r.threads r.config.limits.maxQueueDepth

end BatchedRuntime

/-! ## What a step of a runtime with its pool can do

One case for each effect a step can have, with the guards under which it happens. The
runtime never withdraws a batch and never cancels a token, so every batch that is accepted
comes to the end of its body.
-/

namespace BatchedRuntime
variable {s t : BatchedRuntime}

/-- The state after a step of the pool. -/
def withUse (s : BatchedRuntime) (use : PoolUse Batch) : BatchedRuntime :=
  { s with draining := { s.draining with use := use } }

/-- The pool after the move of a thread. -/
def useAfter (s : BatchedRuntime) (thread : ℕ) (m : WorkerPool.Move Batch) : PoolUse Batch :=
  { s.use with pool := m.apply s.pool thread, log := PoolUse.recordMove s.use.log m }

/-- The state after the move of a thread. -/
def withMove (s : BatchedRuntime) (thread : ℕ) (m : WorkerPool.Move Batch) : BatchedRuntime :=
  { s.withUse (s.useAfter thread m) with points := Function.update s.points thread .entered }

/-- The state after a body has made a request, or none. -/
def moved (s : BatchedRuntime) (thread source : ℕ) (call : Option Call) (point : BatchPoint) :
    BatchedRuntime :=
  let moved := { s with points := Function.update s.points thread point }
  call.elim moved fun call => moved.serve (some source) (.request call)

@[simp] theorem withUse_use (use : PoolUse Batch) : (s.withUse use).use = use := rfl

@[simp] theorem withMove_use (thread : ℕ) (m : WorkerPool.Move Batch) :
    (s.withMove thread m).use = s.useAfter thread m := rfl

@[simp] theorem withMove_points (thread : ℕ) (m : WorkerPool.Move Batch) :
    (s.withMove thread m).points = Function.update s.points thread .entered := rfl

@[simp] theorem withMove_log (thread : ℕ) (m : WorkerPool.Move Batch) :
    (s.withMove thread m).log = s.log := rfl

@[simp] theorem moved_draining (thread source : ℕ) (call : Option Call) (point : BatchPoint) :
    (s.moved thread source call point).draining = s.draining := by
  cases call <;> rfl

@[simp] theorem moved_points (thread source : ℕ) (call : Option Call) (point : BatchPoint) :
    (s.moved thread source call point).points = Function.update s.points thread point := by
  cases call <;> rfl

@[simp] theorem moved_stop (thread source : ℕ) (call : Option Call) (point : BatchPoint) :
    (s.moved thread source call point).stop = s.stop := by
  cases call <;> rfl

@[simp] theorem moved_log (thread source : ℕ) (call : Option Call) (point : BatchPoint) :
    (s.moved thread source call point).log =
      s.log ++ call.toList.map fun call => (some source,.request call) := by
  cases call with
  | none => exact (List.append_nil _).symm
  | some call => rfl

@[simp] theorem moved_runtime (thread source : ℕ) (call : Option Call) (point : BatchPoint) :
    (s.moved thread source call point).runtime =
      call.elim s.runtime fun call => s.runtime.perform call := by
  cases call <;> rfl

/-- The effects of the steps. -/
inductive Steps (s : BatchedRuntime) : Action → BatchedRuntime → Prop
  | request {call : Call} (hcall : call ≠ .stop) :
      Steps s (.request call) (s.serve none (.request call))
  | refuse {batch : Batch} : Steps s (.offer batch) s
  | offer {batch : Batch} (hrunning : s.runtime.state = .running) :
      Steps s (.offer batch) { s with offers := s.offers ++ [batch] }
  | submit {offer : ℕ} {batch : Batch} {use : PoolUse Batch}
      (hoffer : s.offers[offer]? = some batch)
      (huse : PoolUse.Steps s.use (.submit (some batch)) use) :
      Steps s (.submit offer) { s.withUse use with offers := s.offers.eraseIdx offer }
  | work {thread : ℕ} {w : Worker Batch} {m : WorkerPool.Move Batch}
      (hthread : s.pool.threads[thread]? = some w) (hmove : WorkerPool.Moves s.pool w m)
      (hdone : ∀ entry, w = .running entry → s.points thread = .returned) :
      Steps s (.work thread) (s.withMove thread m)
  | body {thread : ℕ} {entry : Entry Batch} {call : Option Call} {point : BatchPoint}
      (hthread : s.pool.threads[thread]? = some (.running entry))
      (hnext : (s.points thread).next s.runtime.config.limits
        (s.pool.cancelled.contains entry.source) entry.task = some (call,point)) :
      Steps s (.body thread) (s.moved thread entry.source call point)
  | beginStop (hidle : s.stop = .idle) :
      Steps s .beginStop { s.serve none .stopping with stop := .announced }
  | shutdown {use : PoolUse Batch} (hannounced : s.stop = .announced)
      (huse : PoolUse.Steps s.use (.shutdown false) use) :
      Steps s .shutdown { s.withUse use with
        stop := (s.withUse use).shutdownPhase s.use.shutdowns.length }
  | join {call : ℕ} {use : PoolUse Batch} (hstop : s.stop = .joining call)
      (hphase : s.use.shutdowns[call]?.any (·.phase = .joining) = true)
      (huse : PoolUse.Steps s.use (.join call) use) : Steps s .join (s.withUse use)
  | leave {call : ℕ} {use : PoolUse Batch} (hstop : s.stop = .joining call)
      (huse : PoolUse.Steps s.use (.leave call) use) :
      Steps s .leave { s.withUse use with stop := .closing }
  | endStop (hclosing : s.stop = .closing) :
      Steps s .endStop { s.serve none (.request .stop) with stop := .idle }
  | reads {a : Action} {draining : Draining Batch} (huse : draining.use = s.use)
      (ha : a = .drain ∨ (∃ order, a = .readFirst order) ∨ a = .readSecond) :
      Steps s a { s with draining := draining }

/-- A call of `drain` moves nothing in the pool. -/
theorem use_of_reads {d d' : Draining Batch} {action : Draining.Action Batch}
    (haction : action = .call ∨ (∃ order, action = .readFirst order) ∨ action = .readSecond)
    (h : d.step action = some d') : d'.use = d.use := by
  rcases haction with rfl | ⟨order,rfl⟩ | rfl
  · simp only [Draining.step] at h
    split at h
    · rw [← Option.some.inj h]
    · cases h
  · simp only [Draining.step] at h
    split at h
    · rw [← Option.some.inj h]
    · cases h
  · simp only [Draining.step] at h
    split at h
    · split_ifs at h <;> rw [← Option.some.inj h]
    · cases h

theorem withPool_pool {action : PoolUse.Action Batch} (h : s.withPool (.pool action) = some t) :
    ∃ use, s.use.step action = some use ∧ PoolUse.Steps s.use action use ∧ t = s.withUse use := by
  obtain ⟨draining,hstep,rfl⟩ := Option.map_eq_some_iff.mp h
  obtain ⟨use,huse,rfl⟩ := Option.map_eq_some_iff.mp hstep
  exact ⟨use,huse,PoolUse.steps_of_step huse,rfl⟩

theorem not_midBody {thread : ℕ} (h : ¬ s.midBody thread = true) {entry : Entry Batch}
    (hthread : s.pool.threads[thread]? = some (.running entry)) : s.points thread = .returned := by
  unfold midBody at h
  rw [hthread] at h
  simpa using h

theorem steps_of_work {thread : ℕ} (h : s.work thread = some t) : Steps s (.work thread) t := by
  unfold work at h
  split_ifs at h with hmid
  obtain ⟨u,hu,rfl⟩ := Option.map_eq_some_iff.mp h
  obtain ⟨use,-,hsteps,rfl⟩ := withPool_pool hu
  cases hsteps with
  | work hthread hmove =>
    refine .work hthread hmove fun entry hrunning => @not_midBody _ _ hmid entry ?_
    rw [hthread, hrunning]

theorem steps_of_body {thread : ℕ} (h : s.body thread = some t) : Steps s (.body thread) t := by
  unfold body at h
  split at h
  · rename_i entry hthread
    split at h
    · rename_i call point hnext
      obtain rfl := Option.some.inj h
      exact .body hthread hnext
    · cases h
  · cases h

theorem steps_of_step {a : Action} (h : s.step a = some t) : Steps s a t := by
  cases a with
  | request call =>
    simp only [step] at h
    split_ifs at h with hcall
    obtain rfl := Option.some.inj h
    exact .request hcall
  | offer batch =>
    simp only [step] at h
    split_ifs at h with hrunning hfull
    · obtain rfl := Option.some.inj h
      exact .refuse
    · obtain rfl := Option.some.inj h
      exact .refuse
    · obtain rfl := Option.some.inj h
      exact .offer (not_not.mp hrunning)
  | submit offer =>
    simp only [step] at h
    split at h
    · rename_i batch hoffer
      obtain ⟨use,-,huse,rfl⟩ := withPool_pool h
      exact .submit hoffer huse
    · cases h
  | work thread => exact steps_of_work h
  | body thread => exact steps_of_body h
  | beginStop =>
    simp only [step] at h
    split_ifs at h with hidle
    obtain rfl := Option.some.inj h
    exact .beginStop hidle.1
  | shutdown =>
    simp only [step] at h
    split_ifs at h with hannounced
    obtain ⟨u,hu,rfl⟩ := Option.map_eq_some_iff.mp h
    obtain ⟨use,-,huse,rfl⟩ := withPool_pool hu
    exact .shutdown hannounced huse
  | join =>
    simp only [step] at h
    split at h
    · rename_i call hstop
      obtain ⟨use,hstep,huse,rfl⟩ := withPool_pool h
      refine .join hstop ?_ huse
      simp only [PoolUse.step] at hstep
      split_ifs at hstep with hphase
      exact hphase
    · cases h
  | leave =>
    simp only [step] at h
    split at h
    · rename_i call hstop
      obtain ⟨u,hu,rfl⟩ := Option.map_eq_some_iff.mp h
      obtain ⟨use,-,huse,rfl⟩ := withPool_pool hu
      exact .leave hstop huse
    · cases h
  | endStop =>
    simp only [step] at h
    split_ifs at h with hclosing
    obtain rfl := Option.some.inj h
    exact .endStop hclosing
  | drain =>
    obtain ⟨draining,hdraining,rfl⟩ := Option.map_eq_some_iff.mp h
    exact .reads (use_of_reads (Or.inl rfl) hdraining) (Or.inl rfl)
  | readFirst order =>
    obtain ⟨draining,hdraining,rfl⟩ := Option.map_eq_some_iff.mp h
    exact .reads (use_of_reads (Or.inr (Or.inl ⟨order,rfl⟩)) hdraining)
      (Or.inr (Or.inl ⟨order,rfl⟩))
  | readSecond =>
    obtain ⟨draining,hdraining,rfl⟩ := Option.map_eq_some_iff.mp h
    exact .reads (use_of_reads (Or.inr (Or.inr rfl)) hdraining) (Or.inr (Or.inr rfl))

end BatchedRuntime

end PathObservatory
