import Mathlib.Algebra.Group.Nat.Defs
import PathObservatory.Foundation.Error
import PathObservatory.Library.Interleaving

/-! # Worker pool

Every critical section of the pool is one step. A worker thread is in one of five
phases: at the top of its loop, with a task it took, inside the task's body, behind the
body, or gone. A call of `shutdown` closes the pool, joins the threads and clears what
is left, in three steps. The log is not part of the program; it remembers what has
happened to every task.
-/
namespace PathObservatory
open Interleaving

/-- A queued task and its cancellation source; sources are numbered in the order they
are made. -/
structure Entry (Task : Type) where
  task : Task
  source : ℕ

/-- What a worker thread is doing. -/
inductive Worker (Task : Type)
  | waiting
  | holding (entry : Entry Task)
  | running (entry : Entry Task)
  | finishing (entry : Entry Task)
  | exited

namespace Worker
variable {Task : Type}

/-- The task that is neither queued nor behind the second critical section. -/
def inHand : Worker Task → List (Entry Task)
  | holding entry | running entry | finishing entry => [entry]
  | waiting | exited => []

/-- The task whose body has begun and has not returned. -/
def inBody : Worker Task → List (Entry Task)
  | running entry => [entry]
  | waiting | holding _ | finishing _ | exited => []

/-- The task in hand whose body has not returned. -/
def unreturned : Worker Task → List (Entry Task)
  | holding entry | running entry => [entry]
  | waiting | finishing _ | exited => []

/-- The task that is counted as completed while the worker is still active. -/
def behindBody : Worker Task → List (Entry Task)
  | finishing entry => [entry]
  | waiting | holding _ | running _ | exited => []

end Worker

structure WorkerPool (Task : Type) where
  threadCount : ℕ
  maxQueue : ℕ
  queue : List (Entry Task) := []
  outstanding : List ℕ := []
  threads : List (Worker Task) := []
  running : Bool := false
  completed : ℕ := 0
  dropped : ℕ := 0
  active : ℕ := 0
  accepting : Bool := false
  /-- The sources whose flag is set. -/
  cancelled : List ℕ := []
  /-- The next source to be made. -/
  nextSource : ℕ := 0

namespace WorkerPool
variable {Task : Type}

def start (p : WorkerPool Task) : Status × WorkerPool Task :=
  if p.running then
    (.error { code := .invalidState, message := "worker pool is already running" },p)
  else if p.threadCount = 0 then
    (.error { code := .invalidArgument, message := "worker pool needs at least one thread" },p)
  else
    (.ok (),{ p with accepting := true, running := true,
                     threads := List.replicate p.threadCount .waiting })

/-- A source is alive as long as an entry of it is queued or in the hand of a worker. -/
def expired (p : WorkerPool Task) (source : ℕ) : Bool :=
  !((p.queue ++ p.threads.flatMap Worker.inHand).any fun entry => entry.source == source)

def compactOutstanding (p : WorkerPool Task) : WorkerPool Task :=
  if p.outstanding.length ≤ (p.maxQueue * 2 + 64) % 2 ^ 64 then p
  else { p with outstanding := p.outstanding.filter fun source => !p.expired source }

/-- A missing task is an empty function object. -/
def submit (p : WorkerPool Task) : Option Task → Status × WorkerPool Task
  | none =>
    (.error { code := .invalidArgument, message := "worker pool received an empty task" },p)
  | some task =>
    if !p.running || !p.accepting then
      (.error { code := .shuttingDown, message := "worker pool is not accepting work" },p)
    else if p.maxQueue ≤ p.queue.length then
      (.error { code := .capacityExceeded, message := "worker pool queue is full" },
        { p with dropped := p.dropped+1 })
    else
      (.ok (),compactOutstanding
        { p with queue := p.queue ++ [⟨task,p.nextSource⟩],
                 outstanding := p.outstanding ++ [p.nextSource],
                 nextSource := p.nextSource+1 })

/-- The number of tasks dropped, and the pool without them. -/
def cancelPending (p : WorkerPool Task) : ℕ × WorkerPool Task :=
  (p.queue.length,{ p with cancelled := p.cancelled ++ p.queue.map (·.source), queue := [] })

/-- The sources that a cancelling shutdown cancels. -/
def reachableSources (p : WorkerPool Task) : List ℕ :=
  p.outstanding.filter (fun source => !p.expired source) ++ p.queue.map (·.source)

/-- The first critical section of `shutdown`; nothing when it returns at once. -/
def beginShutdown (p : WorkerPool Task) (cancelRunning : Bool) : Option (WorkerPool Task) :=
  if !p.running && p.threads.isEmpty then none
  else some { p with
    cancelled := p.cancelled ++ if cancelRunning then p.reachableSources else []
    accepting := false
    running := false }

/-- Every thread has returned, so that joining them does not block. -/
def joinable (p : WorkerPool Task) : Bool :=
  p.threads.all fun
    | .exited => true
    | _ => false

/-- The threads are joined and forgotten, outside the lock. -/
def joinThreads (p : WorkerPool Task) : Option (WorkerPool Task) :=
  if p.joinable then some { p with threads := [] } else none

/-- The last critical section of `shutdown`. -/
def endShutdown (p : WorkerPool Task) : WorkerPool Task :=
  { p with queue := [], outstanding := [] }

def pending (p : WorkerPool Task) : ℕ := p.queue.length

/-- What a worker does next, with the phase it is in. -/
inductive Move (Task : Type)
  | exit
  | take (entry : Entry Task)
  | skip (entry : Entry Task)
  | beginTask (entry : Entry Task)
  | endTask (entry : Entry Task)
  | release (entry : Entry Task)

/-- One step of `worker_loop`: its first critical section, which blocks while there is
nothing to do, the token check, the return of the body, its second critical section. -/
def workerLoop (p : WorkerPool Task) : Worker Task → Option (Move Task)
  | .waiting =>
    match p.queue with
    | [] => if p.running then none else some .exit
    | entry :: _ => some (.take entry)
  | .holding entry =>
    if p.cancelled.contains entry.source then some (.skip entry) else some (.beginTask entry)
  | .running entry => some (.endTask entry)
  | .finishing entry => some (.release entry)
  | .exited => none

/-- The phase a worker is in after its move. -/
def Move.phase : Move Task → Worker Task
  | exit => .exited
  | take entry => .holding entry
  | skip entry | endTask entry => .finishing entry
  | beginTask entry => .running entry
  | release _ => .waiting

/-- The pool after the move of a thread. -/
def Move.apply (p : WorkerPool Task) (thread : ℕ) (move : Move Task) : WorkerPool Task :=
  let moved := { p with threads := p.threads.set thread move.phase }
  match move with
  | exit | beginTask _ => moved
  | take _ => { moved with queue := p.queue.tail, active := p.active+1 }
  | skip _ | endTask _ => { moved with completed := p.completed+1 }
  | release _ => { moved with active := p.active-1 }

end WorkerPool

/-- What has happened to every task. -/
structure TaskLog (Task : Type) where
  /-- Accepted by `submit`. -/
  accepted : List (Entry Task) := []
  /-- Taken off the queue by a worker. -/
  taken : List (Entry Task) := []
  /-- Body begun. -/
  begun : List (Entry Task) := []
  /-- Body returned. -/
  ran : List (Entry Task) := []
  /-- Found cancelled by the worker that took it. -/
  skipped : List (Entry Task) := []
  /-- Given up by its worker. -/
  finished : List (Entry Task) := []
  /-- Dropped by `cancel_pending`. -/
  withdrawn : List (Entry Task) := []
  /-- The sources cancelled by a cancelling `shutdown`. -/
  stopped : List ℕ := []

inductive ShutdownPhase
  | joining
  | joined
  | returned
deriving DecidableEq

/-- A call of `shutdown` and how far it is. -/
structure ShutdownCall where
  cancelRunning : Bool
  phase : ShutdownPhase
deriving DecidableEq

/-- A pool in use. -/
structure PoolUse (Task : Type) where
  pool : WorkerPool Task
  shutdowns : List ShutdownCall := []
  log : TaskLog Task := {}

namespace PoolUse
variable {Task : Type}

/-- The atomic steps; a call of `shutdown` and a thread are named by their number. -/
inductive Action (Task : Type)
  | submit (task : Option Task)
  | cancelPending
  | shutdown (cancelRunning : Bool)
  | join (call : ℕ)
  | leave (call : ℕ)
  | work (thread : ℕ)

/-- What a submission adds to the accepted tasks. -/
def acceptedEntry (p : WorkerPool Task) (task : Option Task) : List (Entry Task) :=
  match (p.submit task).1, task with
  | .ok (), some task => [⟨task,p.nextSource⟩]
  | _, _ => []

def submit (s : PoolUse Task) (task : Option Task) : PoolUse Task :=
  { s with
    pool := (s.pool.submit task).2
    log := { s.log with accepted := s.log.accepted ++ acceptedEntry s.pool task } }

def cancelPending (s : PoolUse Task) : PoolUse Task :=
  { s with
    pool := s.pool.cancelPending.2
    log := { s.log with withdrawn := s.log.withdrawn ++ s.pool.queue } }

def shutdown (s : PoolUse Task) (cancelRunning : Bool) : PoolUse Task :=
  match s.pool.beginShutdown cancelRunning with
  | none => { s with shutdowns := s.shutdowns ++ [⟨cancelRunning,.returned⟩] }
  | some pool =>
    { pool := pool
      shutdowns := s.shutdowns ++ [⟨cancelRunning,.joining⟩]
      log := { s.log with
        stopped := s.log.stopped ++ if cancelRunning then s.pool.reachableSources else [] } }

/-- The call goes on to the next phase. -/
def advance (s : PoolUse Task) (call : ℕ) (phase : ShutdownPhase) : List ShutdownCall :=
  s.shutdowns.modify call fun c => { c with phase := phase }

def recordMove (log : TaskLog Task) : WorkerPool.Move Task → TaskLog Task
  | .exit => log
  | .take entry => { log with taken := log.taken ++ [entry] }
  | .skip entry => { log with skipped := log.skipped ++ [entry] }
  | .beginTask entry => { log with begun := log.begun ++ [entry] }
  | .endTask entry => { log with ran := log.ran ++ [entry] }
  | .release entry => { log with finished := log.finished ++ [entry] }

def work (s : PoolUse Task) (thread : ℕ) : Option (PoolUse Task) := do
  let worker ← s.pool.threads[thread]?
  let move ← s.pool.workerLoop worker
  return { s with pool := move.apply s.pool thread, log := recordMove s.log move }

def step (s : PoolUse Task) : Action Task → Option (PoolUse Task)
  | .submit task => some (s.submit task)
  | .cancelPending => some s.cancelPending
  | .shutdown cancelRunning => some (s.shutdown cancelRunning)
  | .join call =>
    if s.shutdowns[call]?.any (·.phase = .joining) then
      s.pool.joinThreads.map fun pool =>
        { s with pool := pool, shutdowns := s.advance call .joined }
    else none
  | .leave call =>
    if s.shutdowns[call]?.any (·.phase = .joined) then
      some { s with pool := s.pool.endShutdown, shutdowns := s.advance call .returned }
    else none
  | .work thread => s.work thread

/-- A pool right after its constructor and `start`. -/
def started (Task : Type) (threadCount maxQueue : ℕ) : PoolUse Task :=
  { pool := (WorkerPool.start { threadCount := threadCount, maxQueue := maxQueue }).2 }

/-- A call of `shutdown` with this argument has returned. -/
def ShutdownReturned (s : PoolUse Task) (cancelRunning : Bool) : Prop :=
  ⟨cancelRunning,.returned⟩ ∈ s.shutdowns

end PoolUse

end PathObservatory
