import Mathlib.Algebra.Order.BigOperators.Group.Finset
import PathObservatory.Batches.ExactlyOnce

/-! # Left alone, a runtime comes to rest

Every step of a worker, of a body and of a stop that was begun leaves less to be done. When
none of them can be taken any more, no stop is under way and every accepted batch has been
performed.
-/
namespace PathObservatory
open Interleaving
open ObservatoryRuntime (Call)

/-- The steps that a body has still to take. -/
def BatchPoint.toDo (batch : Batch) : BatchPoint → ℕ
  | entered => batch.length + 4
  | ingesting left => left.length + 3
  | ingested => 2
  | comparing => 1
  | returned => 0

theorem BatchPoint.toDo_of_next {limits : Limits} {cancelled : Bool} {batch : Batch}
    {point after : BatchPoint} {call : Option Call}
    (h : point.next limits cancelled batch = some (call,after)) :
    after.toDo batch < point.toDo batch := by
  cases point with
  | entered =>
    simp only [next] at h
    split_ifs at h
    all_goals
      obtain ⟨-,rfl⟩ := Prod.mk.inj (Option.some.inj h)
      simp only [toDo]
      omega
  | ingesting left =>
    cases left with
    | nil =>
      obtain ⟨-,rfl⟩ := Prod.mk.inj (Option.some.inj h)
      simp [toDo]
    | cons e rest =>
      obtain ⟨-,rfl⟩ := Prod.mk.inj (Option.some.inj h)
      simp [toDo]
  | ingested =>
    obtain ⟨-,rfl⟩ := Prod.mk.inj (Option.some.inj h)
    cases cancelled <;> simp [toDo]
  | comparing =>
    obtain ⟨-,rfl⟩ := Prod.mk.inj (Option.some.inj h)
    simp [toDo]
  | returned => cases h

/-- A body that has not returned goes on. -/
theorem BatchPoint.next_isSome (limits : Limits) (cancelled : Bool) (batch : Batch)
    {point : BatchPoint} (h : point ≠ .returned) :
    (point.next limits cancelled batch).isSome = true := by
  cases point with
  | entered =>
    simp only [next]
    split_ifs <;> rfl
  | ingesting left => cases left <;> rfl
  | ingested => rfl
  | comparing => rfl
  | returned => exact absurd rfl h

/-- The work in a thread, with the point its body is at. -/
def Worker.toDo : Option (Worker Batch) → BatchPoint → ℕ
  | none, _ | some .exited, _ => 0
  | some .waiting, _ => 1
  | some (.holding e), _ => e.task.length + 8
  | some (.running e), point => point.toDo e.task + 3
  | some (.finishing _), _ => 2

namespace BatchedRuntime
variable {r₀ : ObservatoryRuntime} {s t : BatchedRuntime} {a : Action} {thread : ℕ}

/-- The work in the call of `stop`. -/
def stopToDo (s : BatchedRuntime) : ℕ :=
  match s.stop with
  | .idle => 0
  | .announced => 4
  | .joining call => if s.use.shutdowns[call]?.any (·.phase = .joining) then 3 else 2
  | .closing => 1

/-- The work in all threads. -/
def threadsToDo (s : BatchedRuntime) : ℕ :=
  ∑ i ∈ Finset.range s.pool.threads.length, Worker.toDo s.pool.threads[i]? (s.points i)

/-- The work in the tasks that are queued. -/
def queueToDo (s : BatchedRuntime) : ℕ := (s.pool.queue.map fun e => e.task.length + 8).sum

def toDo (s : BatchedRuntime) : ℕ := s.threadsToDo + s.queueToDo + s.stopToDo

/-- The steps of the workers and their bodies, and of a stop that was begun. -/
def Internal : Action → Prop
  | .work _ | .body _ | .shutdown | .join | .leave | .endStop => True
  | .request _ | .offer _ | .submit _ | .beginStop | .drain | .readFirst _ | .readSecond => False

/-- Only the thread that moves changes the work in the threads. -/
theorem threadsToDo_of_move (hlength : t.pool.threads.length = s.pool.threads.length)
    (hthread : thread < s.pool.threads.length) (hothers : ∀ i, i ≠ thread →
      Worker.toDo t.pool.threads[i]? (t.points i) = Worker.toDo s.pool.threads[i]? (s.points i)) :
    t.threadsToDo + Worker.toDo s.pool.threads[thread]? (s.points thread) =
      s.threadsToDo + Worker.toDo t.pool.threads[thread]? (t.points thread) := by
  have hmem : thread ∈ Finset.range s.pool.threads.length := Finset.mem_range.mpr hthread
  have hrest : ∑ i ∈ (Finset.range s.pool.threads.length).erase thread,
      Worker.toDo t.pool.threads[i]? (t.points i) =
        ∑ i ∈ (Finset.range s.pool.threads.length).erase thread,
          Worker.toDo s.pool.threads[i]? (s.points i) :=
    Finset.sum_congr rfl fun i hi => hothers i (Finset.ne_of_mem_erase hi)
  rw [threadsToDo, threadsToDo, hlength, ← Finset.add_sum_erase _ _ hmem,
    ← Finset.add_sum_erase _ _ hmem, hrest]
  omega

/-- A thread's move uses up some of its work, or of the task that it takes. -/
theorem toDo_withMove {w : Worker Batch} {m : WorkerPool.Move Batch}
    (hthread : s.pool.threads[thread]? = some w) (hmove : WorkerPool.Moves s.pool w m)
    (hdone : ∀ entry, w = .running entry → s.points thread = .returned) :
    (s.withMove thread m).toDo < s.toDo := by
  have hlt := (List.getElem?_eq_some_iff.mp hthread).1
  have hthreads : (s.withMove thread m).pool.threads = s.pool.threads.set thread m.phase :=
    WorkerPool.Move.apply_threads _
  have hmoved := threadsToDo_of_move (s := s) (t := s.withMove thread m)
    (by rw [hthreads, List.length_set]) hlt fun i hne => by
      rw [hthreads, List.getElem?_set_ne (Ne.symm hne), withMove_points, Function.update_of_ne hne]
  have hstop : (s.withMove thread m).stopToDo = s.stopToDo := rfl
  rw [hthreads, List.getElem?_set_self hlt, withMove_points, Function.update_self, hthread]
    at hmoved
  cases hmove with
  | exit hrunning hqueue =>
    have hqueue : (s.withMove thread .exit).queueToDo = s.queueToDo := rfl
    simp only [WorkerPool.Move.phase, Worker.toDo] at hmoved
    simp only [toDo, hstop, hqueue]
    omega
  | @take entry rest hqueue =>
    have htail : (s.withMove thread (.take entry)).queueToDo =
        (s.pool.queue.tail.map fun e => e.task.length + 8).sum := rfl
    rw [hqueue] at htail
    have hwhole : s.queueToDo = entry.task.length + 8 +
        (rest.map fun e => e.task.length + 8).sum := by
      rw [queueToDo, hqueue, List.map_cons, List.sum_cons]
    simp only [WorkerPool.Move.phase, Worker.toDo] at hmoved
    simp only [toDo, hstop, htail, hwhole, List.tail_cons]
    omega
  | @skip entry hcancelled =>
    have hqueue : (s.withMove thread (.skip entry)).queueToDo = s.queueToDo := rfl
    simp only [WorkerPool.Move.phase, Worker.toDo] at hmoved
    simp only [toDo, hstop, hqueue]
    omega
  | @beginTask entry =>
    have hqueue : (s.withMove thread (.beginTask entry)).queueToDo = s.queueToDo := rfl
    simp only [WorkerPool.Move.phase, Worker.toDo, BatchPoint.toDo] at hmoved
    simp only [toDo, hstop, hqueue]
    omega
  | @endTask entry =>
    have hqueue : (s.withMove thread (.endTask entry)).queueToDo = s.queueToDo := rfl
    rw [hdone entry rfl] at hmoved
    simp only [WorkerPool.Move.phase, Worker.toDo, BatchPoint.toDo] at hmoved
    simp only [toDo, hstop, hqueue]
    omega
  | @release entry =>
    have hqueue : (s.withMove thread (.release entry)).queueToDo = s.queueToDo := rfl
    simp only [WorkerPool.Move.phase, Worker.toDo] at hmoved
    simp only [toDo, hstop, hqueue]
    omega

/-- A body's step uses up some of its work. -/
theorem toDo_moved {entry : Entry Batch} {call : Option Call} {point : BatchPoint}
    (hthread : s.pool.threads[thread]? = some (.running entry))
    (hnext : (s.points thread).next s.runtime.config.limits
      (s.pool.cancelled.contains entry.source) entry.task = some (call,point)) :
    (s.moved thread entry.source call point).toDo < s.toDo := by
  have hdraining : (s.moved thread entry.source call point).draining = s.draining :=
    moved_draining ..
  have hpool : (s.moved thread entry.source call point).pool = s.pool := by
    rw [pool, use, hdraining]
  have hmoved := threadsToDo_of_move (s := s) (t := s.moved thread entry.source call point)
    (by rw [hpool]) (List.getElem?_eq_some_iff.mp hthread).1 fun i hne => by
      rw [hpool, moved_points, Function.update_of_ne hne]
  have hless := BatchPoint.toDo_of_next hnext
  have hqueue : (s.moved thread entry.source call point).queueToDo = s.queueToDo := by
    rw [queueToDo, hpool, queueToDo]
  have hstop : (s.moved thread entry.source call point).stopToDo = s.stopToDo := by
    rw [stopToDo, moved_stop, use, hdraining, stopToDo]
  rw [hpool, moved_points, Function.update_self, hthread, Worker.toDo, Worker.toDo] at hmoved
  rw [toDo, toDo, hqueue, hstop]
  omega

theorem stopToDo_le (h : s.stop ≠ .announced) : s.stopToDo ≤ 3 := by
  unfold stopToDo
  split
  · exact Nat.zero_le 3
  · rename_i hannounced
    exact absurd hannounced h
  · split_ifs
    · exact Nat.le_refl 3
    · exact Nat.le_succ 2
  · exact Nat.le_of_ble_eq_true rfl

theorem stopToDo_joining {call : ℕ} (h : s.stop = .joining call) : 2 ≤ s.stopToDo := by
  rw [stopToDo, h]
  dsimp only
  split_ifs
  · exact Nat.le_succ 2
  · exact Nat.le_refl 2

theorem shutdownPhase_ne_announced (call : ℕ) : s.shutdownPhase call ≠ .announced := by
  unfold shutdownPhase
  split_ifs <;> nofun

theorem Steps.toDo_lt (h : Steps s a t) (ha : Internal a) : t.toDo < s.toDo := by
  cases h with
  | work hthread hmove hdone => exact toDo_withMove hthread hmove hdone
  | body hthread hnext => exact toDo_moved hthread hnext
  | @shutdown use hannounced huse =>
    have hbefore : s.stopToDo = 4 := by rw [stopToDo, hannounced]
    have hafter := stopToDo_le (s := { s.withUse use with
      stop := (s.withUse use).shutdownPhase s.use.shutdowns.length })
      (shutdownPhase_ne_announced _)
    have hsame : threadsToDo { s.withUse use with
        stop := (s.withUse use).shutdownPhase s.use.shutdowns.length } = s.threadsToDo ∧
        queueToDo { s.withUse use with
          stop := (s.withUse use).shutdownPhase s.use.shutdowns.length } = s.queueToDo := by
      cases huse with
      | shutdown hpool =>
        obtain rfl := WorkerPool.beginShutdown_eq_some hpool
        exact ⟨rfl,rfl⟩
      | shutdownTwice => exact ⟨rfl,rfl⟩
    rw [toDo, toDo, hsame.1, hsame.2]
    omega
  | @join call use hstop hphase huse =>
    have hbefore : s.stopToDo = 3 := by
      rw [stopToDo, hstop]
      exact if_pos hphase
    cases huse with
    | @join _ c hcall hexited =>
      have hafter : (s.withUse { s.use with
          pool := { s.pool with threads := [] }
          shutdowns := s.use.advance call .joined }).stopToDo = 2 := by
        rw [stopToDo, withUse, hstop]
        exact if_neg (by simp [PoolUse.advance, hcall])
      have hthreads : (s.withUse { s.use with
          pool := { s.pool with threads := [] }
          shutdowns := s.use.advance call .joined }).threadsToDo = 0 := rfl
      have hqueue : (s.withUse { s.use with
          pool := { s.pool with threads := [] }
          shutdowns := s.use.advance call .joined }).queueToDo = s.queueToDo := rfl
      rw [toDo, toDo, hafter, hthreads, hqueue]
      omega
  | @leave call use hstop huse =>
    have hbefore := stopToDo_joining hstop
    cases huse with
    | leave hcall hphase =>
      have hafter : ∀ use : PoolUse Batch,
          stopToDo { s.withUse use with stop := .closing } = 1 := fun _ => rfl
      have hthreads : threadsToDo { s.withUse { s.use with
          pool := s.pool.endShutdown, shutdowns := s.use.advance call .returned } with
            stop := .closing } = s.threadsToDo := rfl
      have hqueue : queueToDo { s.withUse { s.use with
          pool := s.pool.endShutdown, shutdowns := s.use.advance call .returned } with
            stop := .closing } = 0 := rfl
      rw [toDo, toDo, hafter, hthreads, hqueue]
      omega
  | endStop hclosing =>
    have hbefore : s.stopToDo = 1 := by rw [stopToDo, hclosing]
    have hafter : stopToDo { s.serve none (.request .stop) with stop := .idle } = 0 := rfl
    have hthreads : threadsToDo { s.serve none (.request .stop) with stop := .idle } =
        s.threadsToDo := rfl
    have hqueue : queueToDo { s.serve none (.request .stop) with stop := .idle } =
        s.queueToDo := rfl
    rw [toDo, toDo, hafter, hthreads, hqueue]
    omega
  | request => cases ha
  | refuse => cases ha
  | offer => cases ha
  | submit => cases ha
  | beginStop => cases ha
  | reads _ hreads =>
    rcases hreads with rfl | ⟨order,rfl⟩ | rfl
    · cases ha
    · cases ha
    · cases ha

/-- The call of `shutdown` that a stop is in has not returned. -/
def Joins (s : BatchedRuntime) : Prop :=
  ∀ call, s.stop = .joining call → ∃ c, s.use.shutdowns[call]? = some c ∧ c.phase ≠ .returned

/-- Whether the call that was just made has returned at once. -/
theorem shutdownPhase_of_append {c : ShutdownCall}
    (h : t.use.shutdowns = s.use.shutdowns ++ [c]) :
    t.shutdownPhase s.use.shutdowns.length =
      if c.phase = .returned then .closing else .joining s.use.shutdowns.length := by
  unfold shutdownPhase
  rw [h, List.getElem?_append_right (Nat.le_refl _), Nat.sub_self]
  simp

theorem Joins.step (h : Joins s) (hsteps : Steps s a t) : Joins t := by
  cases hsteps with
  | request => exact h
  | refuse => exact h
  | offer => exact h
  | submit _ huse => cases huse <;> exact h
  | work => exact h
  | @body thread entry call point =>
    intro number hstop
    rw [moved_stop] at hstop
    obtain ⟨c,hcall,hphase⟩ := h number hstop
    refine ⟨c,?_,hphase⟩
    rwa [use, moved_draining]
  | beginStop => exact nofun
  | shutdown _ huse =>
    intro number hstop
    have hphase : (s.withUse _).shutdownPhase s.use.shutdowns.length = .joining number := hstop
    cases huse with
    | shutdown hpool =>
      rw [shutdownPhase_of_append (c := ⟨false,.joining⟩) rfl] at hphase
      obtain rfl := StopPhase.joining.inj hphase
      exact ⟨⟨false,.joining⟩,List.getElem?_concat_length,nofun⟩
    | shutdownTwice =>
      rw [shutdownPhase_of_append (c := ⟨false,.returned⟩) rfl] at hphase
      cases hphase
  | @join call use hstop _ huse =>
    intro number hnumber
    obtain rfl : call = number := StopPhase.joining.inj (hstop.symm.trans hnumber)
    cases huse with
    | @join _ c hcall _ =>
      refine ⟨{ c with phase := .joined },?_,nofun⟩
      simp [PoolUse.advance, hcall]
  | leave => exact nofun
  | endStop => exact nofun
  | reads huse =>
    intro number hstop
    obtain ⟨c,hcall,hphase⟩ := h number hstop
    refine ⟨c,?_,hphase⟩
    rwa [use, huse]

/-- No worker and no body can go on, nor can a stop. -/
def Resting (s : BatchedRuntime) : Prop := ∀ a, Internal a → s.step a = none

namespace Resting
variable (h : Resting s)
include h

/-- A thread outside a body has no next step in `worker_loop`. -/
theorem workerLoop_eq_none {w : Worker Batch} (hthread : s.pool.threads[thread]? = some w)
    (hmid : s.midBody thread = false) : s.pool.workerLoop w = none := by
  have hnone : s.work thread = none := h (.work thread) trivial
  unfold BatchedRuntime.work at hnone
  rw [if_neg (by simp [hmid])] at hnone
  simp only [Option.map_eq_none_iff, withPool, Draining.step, PoolUse.step, PoolUse.work] at hnone
  rw [hthread] at hnone
  cases hmove : s.pool.workerLoop w with
  | none => rfl
  | some m =>
    rw [Option.bind_eq_bind, Option.bind_some, hmove] at hnone
    cases hnone

/-- A thread that runs a body is not at rest. -/
theorem not_running {entry : Entry Batch} :
    s.pool.threads[thread]? ≠ some (.running entry) := by
  intro hthread
  by_cases hpoint : s.points thread = .returned
  · have hmid : s.midBody thread = false := by
      unfold midBody
      rw [hthread, hpoint]
      rfl
    exact nomatch h.workerLoop_eq_none hthread hmid
  · have hnone : s.body thread = none := h (.body thread) trivial
    obtain ⟨next,hnext⟩ := Option.isSome_iff_exists.mp (BatchPoint.next_isSome
      s.runtime.config.limits (s.pool.cancelled.contains entry.source) entry.task hpoint)
    unfold body at hnone
    rw [hthread] at hnone
    dsimp only at hnone
    rw [hnext] at hnone
    cases hnone

/-- Every thread waits for a task, or has left. -/
theorem thread_cases {w : Worker Batch} (hw : w ∈ s.pool.threads) :
    (w = .waiting ∧ s.pool.queue = [] ∧ s.pool.running = true) ∨ w = .exited := by
  obtain ⟨thread,hthread⟩ := List.mem_iff_getElem?.mp hw
  have hmid : s.midBody thread = false := by
    unfold midBody
    rw [hthread]
    cases w with
    | running entry => exact absurd hthread h.not_running
    | waiting => rfl
    | holding entry => rfl
    | finishing entry => rfl
    | exited => rfl
  have hnone := h.workerLoop_eq_none hthread hmid
  cases w with
  | waiting =>
    refine Or.inl ⟨rfl,?_⟩
    simp only [WorkerPool.workerLoop] at hnone
    split at hnone
    · rename_i hqueue
      split_ifs at hnone with hrunning
      exact ⟨hqueue,hrunning⟩
    · cases hnone
  | holding entry =>
    simp only [WorkerPool.workerLoop] at hnone
    split_ifs at hnone
  | running entry => exact absurd hthread h.not_running
  | finishing entry => cases hnone
  | exited => exact Or.inr rfl

theorem queue_eq_nil {maxQueue : ℕ} (hkept : PoolUse.Kept maxQueue s.use) :
    s.pool.queue = [] := by
  cases hthreads : s.pool.threads with
  | nil => exact (hkept.winding.gone hthreads).2
  | cons w rest =>
    have hw : w ∈ s.pool.threads := hthreads ▸ List.mem_cons_self
    rcases h.thread_cases hw with ⟨-,hqueue,-⟩ | hexited
    · exact hqueue
    · exact (hkept.winding.exited (hexited ▸ hw)).2

/-- No stop is under way. -/
theorem stop_eq_idle {maxQueue : ℕ} (hkept : PoolUse.Kept maxQueue s.use) (hjoins : Joins s) :
    s.stop = .idle := by
  cases hstop : s.stop with
  | idle => rfl
  | announced =>
    have hnone := h .shutdown trivial
    simp only [step, hstop, if_true, withPool, Draining.step, PoolUse.step] at hnone
    cases hnone
  | closing =>
    have hnone := h .endStop trivial
    simp only [step, hstop, if_true] at hnone
    cases hnone
  | joining call =>
    obtain ⟨c,hcall,hreturned⟩ := hjoins call hstop
    have hclosed := hkept.winding.closed (PoolUse.shutdowns_ne_nil hcall)
    have hexited : ∀ w ∈ s.pool.threads, w = .exited := by
      intro w hw
      refine (h.thread_cases hw).resolve_left fun hwaiting => ?_
      rw [hclosed] at hwaiting
      cases hwaiting.2.2
    cases hphase : c.phase with
    | returned => exact absurd hphase hreturned
    | joining =>
      have hnone := h .join trivial
      have hjoinable : s.pool.joinable = true :=
        List.all_eq_true.mpr fun w hw => by rw [hexited w hw]
      simp [step, hstop, withPool, Draining.step, PoolUse.step, hcall, hphase,
        WorkerPool.joinThreads, hjoinable] at hnone
    | joined =>
      have hnone := h .leave trivial
      simp [step, hstop, withPool, Draining.step, PoolUse.step, hcall, hphase] at hnone

end Resting

theorem joins_of_run (h : Run step anything (serving r₀) s) : Joins s := by
  refine Run.invariant (P := Joins) ?_ (fun _ _ _ _ hstep hold => hold.step (steps_of_step hstep)) h
  intro call hstop
  cases hstop

/-- Without threads, and without a stop under way, nothing goes on. -/
theorem resting_of_stopped (hthreads : s.pool.threads = []) (hstop : s.stop = .idle) :
    Resting s := by
  intro a ha
  cases a with
  | work thread =>
    simp [step, work, midBody, withPool, Draining.step, PoolUse.step, PoolUse.work, hthreads]
  | body thread => simp [step, body, hthreads]
  | shutdown => simp [step, hstop]
  | join => simp [step, hstop]
  | leave => simp [step, hstop]
  | endStop => simp [step, hstop]
  | request => cases ha
  | offer => cases ha
  | submit => cases ha
  | beginStop => cases ha
  | drain => cases ha
  | readFirst => cases ha
  | readSecond => cases ha

/-- Left alone, the runtime takes at most as many steps as there is to do; when it rests, no
stop is under way, and every accepted batch has been performed in full. -/
theorem comes_to_rest (h : Run step anything (serving r₀) s) :
    (∀ actions t, (∀ a ∈ actions, Internal a) → performs step s actions = some t →
      actions.length + t.toDo ≤ s.toDo) ∧
    (Resting s → s.stop = .idle ∧ s.pool.pending = 0 ∧ s.pool.active = 0 ∧
      ∀ e ∈ s.use.log.accepted, requestsOf e.source s.log = script r₀.config.limits e.task) := by
  have hperforming := performing_of_run h
  have hkept := hperforming.pooled.kept
  refine ⟨fun actions t hinternal hperforms => ?_,fun hresting => ?_⟩
  · refine length_add_le_of_performs (P := fun _ => True) (fun u a ha v hstep _ => ?_) trivial
      hperforms
    exact ⟨trivial,(steps_of_step hstep).toDo_lt (hinternal a ha)⟩
  · have hqueue := hresting.queue_eq_nil hkept
    have hhand : s.pool.threads.flatMap Worker.inHand = [] := by
      refine List.flatMap_eq_nil_iff.mpr fun w hw => ?_
      rcases hresting.thread_cases hw with ⟨rfl,-,-⟩ | rfl <;> rfl
    refine ⟨hresting.stop_eq_idle hkept (joins_of_run h),congrArg List.length hqueue,?_,?_⟩
    · rw [hkept.accounted.active, hhand]
      rfl
    · intro e he
      have hplace := hkept.accounted.custody.mem_iff.mp he
      rw [hqueue, hhand, hperforming.pooled.calm.withdrawn, List.nil_append, List.nil_append,
        List.append_nil] at hplace
      exact hperforming.ran e (Draining.finished_ran hkept hperforming.pooled.calm hplace)

theorem stop_comes_to_rest : ∃ s : BatchedRuntime,
    performs step (serving Session.startedDefault) stoppedBehindBatch = some s ∧
    s.runtime.state = .stopped ∧ Resting s ∧ s.pool.pending = 0 ∧ s.use.log.accepted.length = 1 ∧
    ∀ e ∈ s.use.log.accepted,
      requestsOf e.source s.log = script Session.startedDefault.config.limits e.task := by
  have hend : ((performs step (serving Session.startedDefault) stoppedBehindBatch).map fun s =>
      (s.runtime.state,s.pool.threads.length,s.stop,s.use.log.accepted.length)) =
      some (.stopped,0,.idle,1) := by
    decide +kernel
  obtain ⟨s,hs,hvalue⟩ := Option.map_eq_some_iff.mp hend
  obtain ⟨hstate,hvalue⟩ := Prod.mk.inj hvalue
  obtain ⟨hthreads,hvalue⟩ := Prod.mk.inj hvalue
  obtain ⟨hstop,haccepted⟩ := Prod.mk.inj hvalue
  have hresting := resting_of_stopped (List.length_eq_zero_iff.mp hthreads) hstop
  obtain ⟨-,hrest⟩ := comes_to_rest (Run.of_performs (fun _ _ _ => trivial) hs)
  obtain ⟨-,hpending,-,hperformed⟩ := hrest hresting
  exact ⟨s,hs,hstate,hresting,hpending,haccepted,hperformed⟩

end BatchedRuntime

end PathObservatory
