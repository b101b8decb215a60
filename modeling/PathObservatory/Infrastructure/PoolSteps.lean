import PathObservatory.Infrastructure.WorkerPool

/-! # What a step of the pool can do

One case for each effect a step can have, with the guards under which it happens.
-/
namespace PathObservatory
open Interleaving

namespace WorkerPool
variable {Task : Type} {p : WorkerPool Task} {w : Worker Task} {m : Move Task}

/-- The moves of a worker and what they need. -/
inductive Moves (p : WorkerPool Task) : Worker Task → Move Task → Prop
  | exit (hrunning : p.running = false) (hqueue : p.queue = []) : Moves p .waiting .exit
  | take {entry : Entry Task} {rest : List (Entry Task)} (hqueue : p.queue = entry :: rest) :
      Moves p .waiting (.take entry)
  | skip {entry : Entry Task} (hcancelled : entry.source ∈ p.cancelled) :
      Moves p (.holding entry) (.skip entry)
  | beginTask {entry : Entry Task} : Moves p (.holding entry) (.beginTask entry)
  | endTask {entry : Entry Task} : Moves p (.running entry) (.endTask entry)
  | release {entry : Entry Task} : Moves p (.finishing entry) (.release entry)

/-- A worker that has left moves no more. -/
theorem Moves.ne_exited (h : Moves p w m) : w ≠ .exited := by
  rintro rfl
  cases h

/-- A worker leaves a closed pool with an empty queue. -/
theorem Moves.of_exited (h : Moves p w m) (hphase : m.phase = .exited) :
    p.running = false ∧ p.queue = [] := by
  cases h with
  | exit hrunning hqueue => exact ⟨hrunning,hqueue⟩
  | take => cases hphase
  | skip => cases hphase
  | beginTask => cases hphase
  | endTask => cases hphase
  | release => cases hphase

@[simp] theorem Move.apply_threads (i : ℕ) :
    (m.apply p i).threads = p.threads.set i m.phase := by
  cases m <;> rfl

@[simp] theorem Move.apply_running (i : ℕ) : (m.apply p i).running = p.running := by
  cases m <;> rfl

@[simp] theorem Move.apply_maxQueue (i : ℕ) : (m.apply p i).maxQueue = p.maxQueue := by
  cases m <;> rfl

@[simp] theorem Move.apply_cancelled (i : ℕ) : (m.apply p i).cancelled = p.cancelled := by
  cases m <;> rfl

@[simp] theorem Move.apply_nextSource (i : ℕ) : (m.apply p i).nextSource = p.nextSource := by
  cases m <;> rfl

/-- A worker takes tasks off the queue only. -/
theorem Move.apply_queue_suffix (p : WorkerPool Task) (m : Move Task) (i : ℕ) :
    (m.apply p i).queue <:+ p.queue := by
  cases m with
  | take entry => exact List.tail_suffix p.queue
  | exit => exact List.suffix_rfl
  | skip entry => exact List.suffix_rfl
  | beginTask entry => exact List.suffix_rfl
  | endTask entry => exact List.suffix_rfl
  | release entry => exact List.suffix_rfl

theorem Move.apply_queue_nil (m : Move Task) (i : ℕ) (hqueue : p.queue = []) :
    (m.apply p i).queue = [] := by
  have hsuffix := Move.apply_queue_suffix p m i
  rw [hqueue] at hsuffix
  exact List.suffix_nil.mp hsuffix

theorem moves_of_workerLoop (h : p.workerLoop w = some m) : Moves p w m := by
  cases w with
  | waiting =>
    simp only [workerLoop] at h
    split at h
    · rename_i hqueue
      split at h
      · cases h
      · rename_i hrunning
        obtain rfl := Option.some.inj h
        exact .exit (Bool.eq_false_iff.mpr hrunning) hqueue
    · rename_i hqueue
      obtain rfl := Option.some.inj h
      exact .take hqueue
  | holding entry =>
    simp only [workerLoop] at h
    split at h
    · rename_i hcancelled
      obtain rfl := Option.some.inj h
      exact .skip (List.contains_iff_mem.mp hcancelled)
    · obtain rfl := Option.some.inj h
      exact .beginTask
  | running entry =>
    obtain rfl := Option.some.inj h
    exact .endTask
  | finishing entry =>
    obtain rfl := Option.some.inj h
    exact .release
  | exited => cases h

/-- A submission is refused and changes a counter at most, or its task is queued. -/
theorem submit_cases (p : WorkerPool Task) (task : Option Task) :
    (∃ error, p.submit task = (.error error,p)) ∨
    (∃ error, p.submit task = (.error error,{ p with dropped := p.dropped+1 })) ∨
    ∃ body outstanding, task = some body ∧ p.running = true ∧ p.accepting = true ∧
      p.queue.length < p.maxQueue ∧
      p.submit task = (.ok (),{ p with
        queue := p.queue ++ [⟨body,p.nextSource⟩]
        outstanding := outstanding
        nextSource := p.nextSource+1 }) := by
  cases task with
  | none => exact .inl ⟨_,rfl⟩
  | some body =>
    simp only [submit]
    split
    · exact .inl ⟨_,rfl⟩
    · rename_i hopen
      split
      · exact .inr (.inl ⟨_,rfl⟩)
      · rename_i hroom
        obtain ⟨hrunning,haccepting⟩ : p.running = true ∧ p.accepting = true := by
          simpa using hopen
        refine .inr (.inr ?_)
        unfold compactOutstanding
        split
        · exact ⟨body,_,rfl,hrunning,haccepting,Nat.lt_of_not_le hroom,rfl⟩
        · exact ⟨body,_,rfl,hrunning,haccepting,Nat.lt_of_not_le hroom,rfl⟩

/-- Closing the pool touches the flags only. -/
theorem beginShutdown_eq_some {cancelRunning : Bool} {q : WorkerPool Task}
    (h : p.beginShutdown cancelRunning = some q) :
    q = { p with
      cancelled := p.cancelled ++ if cancelRunning then p.reachableSources else []
      accepting := false
      running := false } := by
  unfold beginShutdown at h
  split at h
  · cases h
  · exact (Option.some.inj h).symm

theorem beginShutdown_eq_none {cancelRunning : Bool} (h : p.beginShutdown cancelRunning = none) :
    p.running = false ∧ p.threads = [] := by
  unfold beginShutdown at h
  split at h
  · rename_i hclosed
    simpa using hclosed
  · cases h

theorem joinThreads_eq_some {q : WorkerPool Task} (h : p.joinThreads = some q) :
    (∀ w ∈ p.threads, w = .exited) ∧ q = { p with threads := [] } := by
  unfold joinThreads at h
  split at h
  · rename_i hjoinable
    refine ⟨?_,(Option.some.inj h).symm⟩
    intro w hw
    have hexited := List.all_eq_true.mp hjoinable w hw
    cases w <;> first | rfl | cases hexited
  · cases h

end WorkerPool

namespace PoolUse
variable {Task : Type} {s t : PoolUse Task}

/-- The effects of the steps. -/
inductive Steps (s : PoolUse Task) : Action Task → PoolUse Task → Prop
  | refuse {task : Option Task} : Steps s (.submit task) s
  | drop {task : Option Task} :
      Steps s (.submit task) { s with pool := { s.pool with dropped := s.pool.dropped+1 } }
  | accept {body : Task} {outstanding : List ℕ} (hrunning : s.pool.running = true)
      (hroom : s.pool.queue.length < s.pool.maxQueue) :
      Steps s (.submit (some body)) { s with
        pool := { s.pool with
          queue := s.pool.queue ++ [⟨body,s.pool.nextSource⟩]
          outstanding := outstanding
          nextSource := s.pool.nextSource+1 }
        log := { s.log with accepted := s.log.accepted ++ [⟨body,s.pool.nextSource⟩] } }
  | cancelPending : Steps s .cancelPending s.cancelPending
  | shutdown {cancelRunning : Bool} {pool : WorkerPool Task}
      (hpool : s.pool.beginShutdown cancelRunning = some pool) :
      Steps s (.shutdown cancelRunning) {
        pool := pool
        shutdowns := s.shutdowns ++ [⟨cancelRunning,.joining⟩]
        log := { s.log with
          stopped := s.log.stopped ++ if cancelRunning then s.pool.reachableSources else [] } }
  | shutdownTwice {cancelRunning : Bool} (hrunning : s.pool.running = false)
      (hthreads : s.pool.threads = []) :
      Steps s (.shutdown cancelRunning)
        { s with shutdowns := s.shutdowns ++ [⟨cancelRunning,.returned⟩] }
  | join {call : ℕ} {c : ShutdownCall} (hcall : s.shutdowns[call]? = some c)
      (hexited : ∀ w ∈ s.pool.threads, w = .exited) :
      Steps s (.join call) { s with
        pool := { s.pool with threads := [] }
        shutdowns := s.advance call .joined }
  | leave {call : ℕ} {c : ShutdownCall} (hcall : s.shutdowns[call]? = some c)
      (hphase : c.phase = .joined) :
      Steps s (.leave call)
        { s with pool := s.pool.endShutdown, shutdowns := s.advance call .returned }
  | work {thread : ℕ} {w : Worker Task} {m : WorkerPool.Move Task}
      (hthread : s.pool.threads[thread]? = some w) (hmove : WorkerPool.Moves s.pool w m) :
      Steps s (.work thread)
        { s with pool := m.apply s.pool thread, log := recordMove s.log m }

theorem steps_submit (s : PoolUse Task) (task : Option Task) :
    Steps s (.submit task) (s.submit task) := by
  obtain ⟨error,h⟩ | ⟨error,h⟩ | ⟨body,outstanding,rfl,hrunning,-,hroom,h⟩ :=
    s.pool.submit_cases task
  · have hsame : s.submit task = s := by simp [submit, acceptedEntry, h]
    exact (congrArg (Steps s (.submit task)) hsame).mpr .refuse
  · have hdrop : s.submit task =
        { s with pool := { s.pool with dropped := s.pool.dropped+1 } } := by
      simp [submit, acceptedEntry, h]
    exact (congrArg (Steps s (.submit task)) hdrop).mpr .drop
  · have haccept : s.submit (some body) = { s with
        pool := { s.pool with
          queue := s.pool.queue ++ [⟨body,s.pool.nextSource⟩]
          outstanding := outstanding
          nextSource := s.pool.nextSource+1 }
        log := { s.log with accepted := s.log.accepted ++ [⟨body,s.pool.nextSource⟩] } } := by
      simp [submit, acceptedEntry, h]
    exact (congrArg (Steps s (.submit (some body))) haccept).mpr (.accept hrunning hroom)

theorem steps_of_step {a : Action Task} (h : s.step a = some t) : Steps s a t := by
  cases a with
  | submit task =>
    obtain rfl := Option.some.inj h
    exact steps_submit s task
  | cancelPending =>
    obtain rfl := Option.some.inj h
    exact .cancelPending
  | shutdown cancelRunning =>
    obtain rfl := Option.some.inj h
    unfold shutdown
    split
    · rename_i hpool
      obtain ⟨hrunning,hthreads⟩ := WorkerPool.beginShutdown_eq_none hpool
      exact .shutdownTwice hrunning hthreads
    · rename_i hpool
      exact .shutdown hpool
  | join call =>
    simp only [step] at h
    split at h
    · rename_i hcall
      obtain ⟨c,hcall,-⟩ := (Option.any_eq_true _ _).mp hcall
      obtain ⟨pool,hpool,rfl⟩ := Option.map_eq_some_iff.mp h
      obtain ⟨hexited,rfl⟩ := WorkerPool.joinThreads_eq_some hpool
      exact .join hcall hexited
    · cases h
  | leave call =>
    simp only [step] at h
    split at h
    · rename_i hcall
      obtain ⟨c,hcall,hphase⟩ := (Option.any_eq_true _ _).mp hcall
      obtain rfl := Option.some.inj h
      exact .leave hcall (of_decide_eq_true hphase)
    · cases h
  | work thread =>
    obtain ⟨w,hthread,h⟩ := Option.bind_eq_some_iff.mp h
    obtain ⟨m,hmove,h⟩ := Option.bind_eq_some_iff.mp h
    obtain rfl := Option.some.inj h
    exact .work hthread (WorkerPool.moves_of_workerLoop hmove)

/-- A pool without threads is not started; any other one waits for tasks. -/
theorem started_eq (threadCount maxQueue : ℕ) :
    started Task threadCount maxQueue = { pool := {
      threadCount := threadCount
      maxQueue := maxQueue
      threads := List.replicate threadCount .waiting
      running := threadCount ≠ 0
      accepting := threadCount ≠ 0 } } := by
  unfold started WorkerPool.start
  by_cases hnone : threadCount = 0
  · subst hnone
    rfl
  · simp [hnone]

end PoolUse

end PathObservatory
