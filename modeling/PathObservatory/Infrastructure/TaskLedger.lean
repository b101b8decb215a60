import Mathlib.Data.List.Nodup
import PathObservatory.Infrastructure.PoolSteps

/-! # No task is lost

The ledger accounts for every accepted task: it is queued, in the hand of a worker,
finished or dropped by `cancel_pending`. Every step keeps the ledger, so a pool that
was shut down has run what was not withdrawn.
-/
namespace PathObservatory
open Interleaving

namespace Worker
variable {Task : Type} {threads : List (Worker Task)}

theorem flatMap_exited (holds : Worker Task → List (Entry Task)) (hnothing : holds .exited = [])
    (h : ∀ w ∈ threads, w = .exited) : threads.flatMap holds = [] := by
  refine List.flatMap_eq_nil_iff.mpr fun w hw => ?_
  rw [h w hw]
  exact hnothing

theorem flatMap_waiting {holds : Worker Task → List (Entry Task)} (hnothing : holds .waiting = [])
    (count : ℕ) : (List.replicate count .waiting).flatMap holds = [] := by
  refine List.flatMap_eq_nil_iff.mpr fun w hw => ?_
  rw [List.eq_of_mem_replicate hw]
  exact hnothing

theorem inHand_eq (w : Worker Task) : inHand w = unreturned w ++ behindBody w := by
  cases w <;> rfl

/-- What is in hand is before the end of its body or behind it. -/
theorem inHand_perm (threads : List (Worker Task)) :
    (threads.flatMap inHand).Perm (threads.flatMap unreturned ++ threads.flatMap behindBody) := by
  rw [funext inHand_eq]
  exact (List.flatMap_append_perm threads unreturned behindBody).symm

theorem inBody_sublist (threads : List (Worker Task)) :
    (threads.flatMap inBody).Sublist (threads.flatMap unreturned) := by
  induction threads with
  | nil => exact List.Sublist.slnil
  | cons w rest ih =>
    have hone : (inBody w).Sublist (unreturned w) := by
      cases w with
      | holding entry => exact List.nil_sublist _
      | running entry => exact List.Sublist.refl _
      | waiting => exact List.Sublist.refl _
      | finishing entry => exact List.Sublist.refl _
      | exited => exact List.Sublist.refl _
    exact hone.append ih

end Worker

namespace PoolUse
variable {Task : Type} {s t : PoolUse Task} {a : Action Task}

/-- Workers leave a closed pool with an empty queue only, and a shutdown goes on when
they all have left. -/
structure Winding (s : PoolUse Task) : Prop where
  exited : .exited ∈ s.pool.threads → s.pool.running = false ∧ s.pool.queue = []
  gone : s.pool.threads = [] → s.pool.running = false ∧ s.pool.queue = []
  closed : s.shutdowns ≠ [] → s.pool.running = false
  joined : ∀ c ∈ s.shutdowns, c.phase ≠ .joining → ∀ w ∈ s.pool.threads, w = .exited

/-- When all threads have left, the pool is closed and its queue is empty. -/
theorem Winding.of_exited (h : Winding s) (hexited : ∀ w ∈ s.pool.threads, w = .exited) :
    s.pool.running = false ∧ s.pool.queue = [] := by
  cases hthreads : s.pool.threads with
  | nil => exact h.gone hthreads
  | cons w rest =>
    have hw : w ∈ s.pool.threads := hthreads ▸ List.mem_cons_self
    exact h.exited (hexited w hw ▸ hw)

theorem shutdowns_ne_nil {call : ℕ} {c : ShutdownCall} (h : s.shutdowns[call]? = some c) :
    s.shutdowns ≠ [] := List.ne_nil_of_mem (List.mem_of_getElem? h)

theorem Winding.step (h : Winding s) (hstep : Steps s a t) : Winding t := by
  cases hstep with
  | refuse => exact h
  | drop => exact ⟨h.exited,h.gone,h.closed,h.joined⟩
  | accept hrunning _ =>
    have hopen : s.pool.running ≠ false := by simp [hrunning]
    exact ⟨fun hw => absurd (h.exited hw).1 hopen,fun hw => absurd (h.gone hw).1 hopen,
      h.closed,h.joined⟩
  | cancelPending =>
    exact ⟨fun hw => ⟨(h.exited hw).1,rfl⟩,fun hw => ⟨(h.gone hw).1,rfl⟩,h.closed,h.joined⟩
  | shutdown hpool =>
    obtain rfl := WorkerPool.beginShutdown_eq_some hpool
    refine ⟨fun hw => ⟨rfl,(h.exited hw).2⟩,fun hw => ⟨rfl,(h.gone hw).2⟩,fun _ => rfl,?_⟩
    intro c hc hphase
    rcases List.mem_append.mp hc with hold | hnew
    · exact h.joined c hold hphase
    · obtain rfl := List.mem_singleton.mp hnew
      exact absurd rfl hphase
  | shutdownTwice hrunning hthreads =>
    refine ⟨h.exited,h.gone,fun _ => hrunning,?_⟩
    intro c _ _ w hw
    have hnone : w ∈ ([] : List (Worker Task)) := hthreads ▸ hw
    cases hnone
  | join hcall hexited =>
    have hquiet := h.of_exited hexited
    refine ⟨fun hw => ?_,fun _ => hquiet,fun _ => hquiet.1,?_⟩
    · cases hw
    · intro c _ _ w hw
      cases hw
  | leave hcall hphase =>
    have hclosed := h.closed (shutdowns_ne_nil hcall)
    have hexited := h.joined _ (List.mem_of_getElem? hcall) (by simp [hphase])
    exact ⟨fun _ => ⟨hclosed,rfl⟩,fun _ => ⟨hclosed,rfl⟩,fun _ => hclosed,fun _ _ _ => hexited⟩
  | work hthread hmove =>
    rename_i w m
    have hmem := List.mem_of_getElem? hthread
    refine ⟨fun hw => ?_,fun hnone => ?_,fun hcalls => ?_,?_⟩
    · rw [WorkerPool.Move.apply_threads] at hw
      rw [WorkerPool.Move.apply_running]
      have hleft : s.pool.running = false ∧ s.pool.queue = [] := by
        rcases mem_set_thread hw with hphase | hold
        · exact hmove.of_exited hphase.symm
        · exact h.exited hold
      exact ⟨hleft.1,m.apply_queue_nil _ hleft.2⟩
    · rw [WorkerPool.Move.apply_threads, List.set_eq_nil_iff] at hnone
      exact absurd hmem (hnone ▸ List.not_mem_nil)
    · rw [WorkerPool.Move.apply_running]
      exact h.closed hcalls
    · intro c hc hphase
      exact absurd (h.joined c hc hphase w hmem) hmove.ne_exited

theorem winding_started (threadCount maxQueue : ℕ) :
    Winding (started Task threadCount maxQueue) := by
  refine ⟨fun hw => ?_,fun hnone => ?_,fun hcalls => absurd rfl hcalls,fun c hc => ?_⟩
  · rw [started_eq] at hw
    exact absurd (List.eq_of_mem_replicate hw) (by simp)
  · rw [started_eq] at hnone ⊢
    have hzero : threadCount = 0 := by simpa using hnone
    exact ⟨by simp [hzero],rfl⟩
  · cases hc

/-- Where the accepted tasks are and how far they got. -/
structure Accounted (s : PoolUse Task) : Prop where
  custody : s.log.accepted.Perm
    (s.pool.queue ++ s.pool.threads.flatMap Worker.inHand ++ s.log.finished ++ s.log.withdrawn)
  taken : s.log.taken.Perm (s.pool.threads.flatMap Worker.inHand ++ s.log.finished)
  begun : s.log.begun.Perm (s.pool.threads.flatMap Worker.inBody ++ s.log.ran)
  passed : (s.log.ran ++ s.log.skipped).Perm
    (s.pool.threads.flatMap Worker.behindBody ++ s.log.finished)
  active : s.pool.active = (s.pool.threads.flatMap Worker.inHand).length
  completed : s.pool.completed =
    (s.pool.threads.flatMap Worker.behindBody).length + s.log.finished.length

theorem Accounted.work (h : Accounted s) {thread : ℕ} {w : Worker Task}
    {m : WorkerPool.Move Task} (hthread : s.pool.threads[thread]? = some w)
    (hmove : WorkerPool.Moves s.pool w m) :
    Accounted { s with pool := m.apply s.pool thread, log := recordMove s.log m } := by
  classical
  have hhand := count_holds_set Worker.inHand hthread m.phase
  have hbody := count_holds_set Worker.inBody hthread m.phase
  have hbehind := count_holds_set Worker.behindBody hthread m.phase
  refine ⟨List.perm_iff_count.mpr fun e => ?_,List.perm_iff_count.mpr fun e => ?_,
    List.perm_iff_count.mpr fun e => ?_,List.perm_iff_count.mpr fun e => ?_,?_,?_⟩
  · have hcustody := List.perm_iff_count.mp h.custody e
    specialize hhand e
    cases hmove with
    | take hqueue =>
      rw [hqueue, ← List.singleton_append] at hcustody
      simp only [WorkerPool.Move.apply, WorkerPool.Move.phase, recordMove, Worker.inHand,
        List.count_append, List.count_nil, hqueue, List.tail_cons] at hcustody hhand ⊢
      omega
    | _ =>
      simp only [WorkerPool.Move.apply, WorkerPool.Move.phase, recordMove, Worker.inHand,
        List.count_append, List.count_nil] at hcustody hhand ⊢
      omega
  · have htaken := List.perm_iff_count.mp h.taken e
    specialize hhand e
    cases hmove <;>
      simp only [WorkerPool.Move.apply, WorkerPool.Move.phase, recordMove, Worker.inHand,
        List.count_append, List.count_nil] at htaken hhand ⊢ <;>
      omega
  · have hbegun := List.perm_iff_count.mp h.begun e
    specialize hbody e
    cases hmove <;>
      simp only [WorkerPool.Move.apply, WorkerPool.Move.phase, recordMove, Worker.inBody,
        List.count_append, List.count_nil] at hbegun hbody ⊢ <;>
      omega
  · have hpassed := List.perm_iff_count.mp h.passed e
    specialize hbehind e
    cases hmove <;>
      simp only [WorkerPool.Move.apply, WorkerPool.Move.phase, recordMove, Worker.behindBody,
        List.count_append, List.count_nil] at hpassed hbehind ⊢ <;>
      omega
  · have hactive := h.active
    have hlength := length_holds_set Worker.inHand hthread m.phase
    cases hmove <;>
      simp only [WorkerPool.Move.apply, WorkerPool.Move.phase, Worker.inHand,
        List.length_cons, List.length_nil] at hactive hlength ⊢ <;>
      omega
  · have hcompleted := h.completed
    have hlength := length_holds_set Worker.behindBody hthread m.phase
    cases hmove <;>
      simp only [WorkerPool.Move.apply, WorkerPool.Move.phase, recordMove, Worker.behindBody,
        List.length_append, List.length_cons, List.length_nil] at hcompleted hlength ⊢ <;>
      omega

theorem Accounted.step (h : Accounted s) (hwinding : Winding s) (hstep : Steps s a t) :
    Accounted t := by
  cases hstep with
  | refuse => exact h
  | drop => exact ⟨h.custody,h.taken,h.begun,h.passed,h.active,h.completed⟩
  | accept =>
    refine ⟨?_,h.taken,h.begun,h.passed,h.active,h.completed⟩
    classical
    refine List.perm_iff_count.mpr fun e => ?_
    have hcustody := List.perm_iff_count.mp h.custody e
    simp only [List.count_append] at hcustody ⊢
    omega
  | cancelPending =>
    refine ⟨?_,h.taken,h.begun,h.passed,h.active,h.completed⟩
    classical
    refine List.perm_iff_count.mpr fun e => ?_
    have hcustody := List.perm_iff_count.mp h.custody e
    simp only [cancelPending, WorkerPool.cancelPending, List.count_append,
      List.count_nil] at hcustody ⊢
    omega
  | shutdown hpool =>
    obtain rfl := WorkerPool.beginShutdown_eq_some hpool
    exact ⟨h.custody,h.taken,h.begun,h.passed,h.active,h.completed⟩
  | shutdownTwice => exact ⟨h.custody,h.taken,h.begun,h.passed,h.active,h.completed⟩
  | join hcall hexited =>
    have hhand := Worker.flatMap_exited Worker.inHand rfl hexited
    have hbody := Worker.flatMap_exited Worker.inBody rfl hexited
    have hbehind := Worker.flatMap_exited Worker.behindBody rfl hexited
    obtain ⟨hcustody,htaken,hbegun,hpassed,hactive,hcompleted⟩ := h
    rw [hhand] at hcustody htaken hactive
    rw [hbody] at hbegun
    rw [hbehind] at hpassed hcompleted
    exact ⟨hcustody,htaken,hbegun,hpassed,hactive,hcompleted⟩
  | leave hcall hphase =>
    have hexited := hwinding.joined _ (List.mem_of_getElem? hcall) (by simp [hphase])
    have hcustody := h.custody
    rw [(hwinding.of_exited hexited).2] at hcustody
    exact ⟨hcustody,h.taken,h.begun,h.passed,h.active,h.completed⟩
  | work hthread hmove => exact h.work hthread hmove

theorem accounted_started (threadCount maxQueue : ℕ) :
    Accounted (started Task threadCount maxQueue) := by
  rw [started_eq]
  refine ⟨?_,?_,?_,?_,?_,?_⟩ <;> simp only [List.nil_append, List.append_nil]
  · rw [Worker.flatMap_waiting rfl]
  · rw [Worker.flatMap_waiting rfl]
  · rw [Worker.flatMap_waiting rfl]
  · rw [Worker.flatMap_waiting rfl]
  · rw [Worker.flatMap_waiting rfl]
    rfl
  · rw [Worker.flatMap_waiting rfl]
    rfl

/-- Every accepted task is named by a source of its own, and the tokens that are
cancelled belong to withdrawn or stopped tasks. -/
structure Numbered (s : PoolUse Task) : Prop where
  distinct : (s.log.accepted.map (·.source)).Nodup
  older : ∀ e ∈ s.log.accepted, e.source < s.pool.nextSource
  cancelled : ∀ i ∈ s.pool.cancelled, i ∈ s.log.stopped ∨ ∃ e ∈ s.log.withdrawn, e.source = i
  skipped : ∀ e ∈ s.log.skipped, e.source ∈ s.log.stopped

theorem Numbered.nodup (h : Numbered s) : s.log.accepted.Nodup := h.distinct.of_map _

/-- A task that a worker has in hand was not withdrawn. -/
theorem Accounted.not_withdrawn (h : Accounted s) (hnumbered : Numbered s) {w : Worker Task}
    {e other : Entry Task} (hthread : w ∈ s.pool.threads) (he : e ∈ Worker.inHand w)
    (hother : other ∈ s.log.withdrawn) : other.source ≠ e.source := by
  have hhand : e ∈ s.pool.threads.flatMap Worker.inHand := mem_holds hthread he
  have hnodup := h.custody.nodup_iff.mp hnumbered.nodup
  have hdisjoint := List.disjoint_of_nodup_append hnodup
  have hheld : e ∈ s.pool.queue ++ s.pool.threads.flatMap Worker.inHand ++ s.log.finished :=
    List.mem_append_left _ (List.mem_append_right _ hhand)
  intro hsource
  have hsame : other = e := List.inj_on_of_nodup_map hnumbered.distinct
    (h.custody.mem_iff.mpr (List.mem_append_right _ hother))
    (h.custody.mem_iff.mpr (List.mem_append_left _ hheld)) hsource
  exact hdisjoint hheld (hsame ▸ hother)

theorem Numbered.step (h : Numbered s) (haccounted : Accounted s) (hstep : Steps s a t) :
    Numbered t := by
  cases hstep with
  | refuse => exact h
  | drop => exact ⟨h.distinct,h.older,h.cancelled,h.skipped⟩
  | accept =>
    refine ⟨?_,?_,h.cancelled,h.skipped⟩
    · rw [List.map_append, List.nodup_append']
      refine ⟨h.distinct,List.nodup_singleton _,?_⟩
      intro i hi hnew
      obtain ⟨e,he,rfl⟩ := List.mem_map.mp hi
      have hlast : e.source = s.pool.nextSource := List.mem_singleton.mp hnew
      have holder := h.older e he
      omega
    · intro e he
      rcases List.mem_append.mp he with hold | hnew
      · exact Nat.lt_succ_of_lt (h.older e hold)
      · obtain rfl := List.mem_singleton.mp hnew
        exact Nat.lt_succ_self _
  | cancelPending =>
    refine ⟨h.distinct,h.older,?_,h.skipped⟩
    intro i hi
    rcases List.mem_append.mp hi with hold | hnew
    · exact (h.cancelled i hold).imp_right fun ⟨e,he,hsource⟩ =>
        ⟨e,List.mem_append_left _ he,hsource⟩
    · obtain ⟨e,he,hsource⟩ := List.mem_map.mp hnew
      exact .inr ⟨e,List.mem_append_right _ he,hsource⟩
  | shutdown hpool =>
    obtain rfl := WorkerPool.beginShutdown_eq_some hpool
    refine ⟨h.distinct,h.older,?_,fun e he => List.mem_append_left _ (h.skipped e he)⟩
    intro i hi
    rcases List.mem_append.mp hi with hold | hnew
    · exact (h.cancelled i hold).imp_left (List.mem_append_left _)
    · exact .inl (List.mem_append_right _ hnew)
  | shutdownTwice => exact ⟨h.distinct,h.older,h.cancelled,h.skipped⟩
  | join => exact ⟨h.distinct,h.older,h.cancelled,h.skipped⟩
  | leave => exact ⟨h.distinct,h.older,h.cancelled,h.skipped⟩
  | work hthread hmove =>
    have hmem := List.mem_of_getElem? hthread
    cases hmove with
    | skip hcancelled =>
      refine ⟨h.distinct,h.older,h.cancelled,?_⟩
      intro e he
      rcases List.mem_append.mp he with hold | hnew
      · exact h.skipped e hold
      · obtain rfl := List.mem_singleton.mp hnew
        rcases h.cancelled _ hcancelled with hstopped | ⟨other,hother,hsource⟩
        · exact hstopped
        · have hhand : e ∈ Worker.inHand (.holding e) := List.mem_singleton_self e
          exact absurd hsource (haccounted.not_withdrawn h hmem hhand hother)
    | exit => exact ⟨h.distinct,h.older,h.cancelled,h.skipped⟩
    | take => exact ⟨h.distinct,h.older,h.cancelled,h.skipped⟩
    | beginTask => exact ⟨h.distinct,h.older,h.cancelled,h.skipped⟩
    | endTask => exact ⟨h.distinct,h.older,h.cancelled,h.skipped⟩
    | release => exact ⟨h.distinct,h.older,h.cancelled,h.skipped⟩

theorem numbered_started (threadCount maxQueue : ℕ) :
    Numbered (started Task threadCount maxQueue) := by
  rw [started_eq]
  exact ⟨List.nodup_nil,fun e he => absurd he List.not_mem_nil,
    fun i hi => absurd hi List.not_mem_nil,fun e he => absurd he List.not_mem_nil⟩

/-- The bound is the one the pool was made with, and the queue keeps it. -/
def Bounded (maxQueue : ℕ) (s : PoolUse Task) : Prop :=
  s.pool.maxQueue = maxQueue ∧ s.pool.queue.length ≤ maxQueue

theorem Bounded.step {maxQueue : ℕ} (h : Bounded maxQueue s) (hstep : Steps s a t) :
    Bounded maxQueue t := by
  cases hstep with
  | refuse => exact h
  | drop => exact h
  | accept _ hroom =>
    refine ⟨h.1,?_⟩
    have hbound := h.1
    simp only [List.length_append, List.length_cons, List.length_nil]
    omega
  | cancelPending => exact ⟨h.1,Nat.zero_le _⟩
  | shutdown hpool =>
    obtain rfl := WorkerPool.beginShutdown_eq_some hpool
    exact h
  | shutdownTwice => exact h
  | join => exact h
  | leave => exact ⟨h.1,Nat.zero_le _⟩
  | work hthread hmove =>
    refine ⟨(WorkerPool.Move.apply_maxQueue _).trans h.1,?_⟩
    exact Nat.le_trans (WorkerPool.Move.apply_queue_suffix s.pool _ _).length_le h.2

/-- What holds of a pool in use. -/
structure Kept (maxQueue : ℕ) (s : PoolUse Task) : Prop where
  winding : Winding s
  accounted : Accounted s
  numbered : Numbered s
  bounded : Bounded maxQueue s

theorem Kept.after {maxQueue : ℕ} (h : Kept maxQueue s) (hstep : Steps s a t) : Kept maxQueue t :=
  ⟨h.winding.step hstep,h.accounted.step h.winding hstep,
    h.numbered.step h.accounted hstep,h.bounded.step hstep⟩

theorem Kept.of_run {threadCount maxQueue : ℕ} {allowed : PoolUse Task → Action Task → Prop}
    (h : Run step allowed (started Task threadCount maxQueue) s) : Kept maxQueue s := by
  refine Run.invariant ?_ ?_ h
  · refine ⟨winding_started _ _,accounted_started _ _,numbered_started _ _,?_⟩
    rw [started_eq]
    exact ⟨rfl,Nat.zero_le _⟩
  · intro s a t _ hstep hkept
    exact hkept.after (steps_of_step hstep)

theorem Kept.taken_nodup {maxQueue : ℕ} (h : Kept maxQueue s) : s.log.taken.Nodup := by
  have hcustody := h.accounted.custody.nodup_iff.mp h.numbered.nodup
  rw [List.append_assoc s.pool.queue] at hcustody
  exact h.accounted.taken.nodup_iff.mpr hcustody.of_append_left.of_append_right

/-- A task whose body began is still in hand or finished, once. -/
theorem Kept.begun_nodup {maxQueue : ℕ} (h : Kept maxQueue s) : s.log.begun.Nodup := by
  classical
  refine List.nodup_iff_count_le_one.mpr fun e => ?_
  have honce := List.nodup_iff_count_le_one.mp h.numbered.nodup e
  have hcustody := List.perm_iff_count.mp h.accounted.custody e
  have hbegun := List.perm_iff_count.mp h.accounted.begun e
  have hpassed := List.perm_iff_count.mp h.accounted.passed e
  have hhand := List.perm_iff_count.mp (Worker.inHand_perm s.pool.threads) e
  have hbody := (Worker.inBody_sublist s.pool.threads).count_le e
  simp only [List.count_append] at hcustody hbegun hpassed hhand
  omega

/-- The body of this task has returned once. -/
def RanOnce (log : TaskLog Task) (e : Entry Task) : Prop :=
  ∃ before after, log.ran = before ++ e :: after ∧ e ∉ before ∧ e ∉ after

theorem Kept.ranOnce {maxQueue : ℕ} (h : Kept maxQueue s) {e : Entry Task} (he : e ∈ s.log.ran) :
    RanOnce s.log e := by
  have hbegun : (s.pool.threads.flatMap Worker.inBody ++ s.log.ran).Nodup :=
    h.accounted.begun.nodup_iff.mp h.begun_nodup
  have hran : s.log.ran.Nodup := hbegun.of_append_right
  obtain ⟨before,after,hsplit⟩ := List.append_of_mem he
  rw [hsplit, List.nodup_middle, List.nodup_cons, List.mem_append, not_or] at hran
  exact ⟨before,after,hsplit,hran.1⟩

/-- When a shutdown has returned, no worker is left and nothing is queued. -/
theorem Kept.quiet {maxQueue : ℕ} (h : Kept maxQueue s) {cancelRunning : Bool}
    (hreturned : s.ShutdownReturned cancelRunning) :
    s.pool.queue = [] ∧ ∀ w ∈ s.pool.threads, w = .exited := by
  have hexited := h.winding.joined _ hreturned (by simp)
  exact ⟨(h.winding.of_exited hexited).2,hexited⟩

/-- A task that is not queued, in hand, withdrawn or stopped has run. -/
theorem Kept.mem_ran {maxQueue : ℕ} (h : Kept maxQueue s) (hqueue : s.pool.queue = [])
    (hhand : s.pool.threads.flatMap Worker.inHand = []) {e : Entry Task}
    (he : e ∈ s.log.accepted) (hwithdrawn : e ∉ s.log.withdrawn)
    (hstopped : e.source ∉ s.log.stopped) : e ∈ s.log.ran := by
  have hplace := h.accounted.custody.mem_iff.mp he
  rw [hqueue, hhand, List.nil_append, List.nil_append] at hplace
  have hfinished := (List.mem_append.mp hplace).resolve_right hwithdrawn
  have hpassed := h.accounted.passed.mem_iff.mpr (List.mem_append_right _ hfinished)
  refine (List.mem_append.mp hpassed).resolve_right fun hskipped => ?_
  exact hstopped (h.numbered.skipped e hskipped)

/-- Accepted tasks are queued, active, finished or dropped by `cancel_pending`, the
queue keeps its bound and no task begins twice. When a shutdown without cancellation
has returned, every task that was neither dropped nor cancelled by another shutdown has
run once. -/
theorem no_task_lost {threadCount maxQueue : ℕ}
    (h : Run step anything (started Task threadCount maxQueue) s) :
    (s.log.accepted.Nodup ∧ s.log.accepted.length =
      s.pool.pending + s.pool.active + s.log.finished.length + s.log.withdrawn.length) ∧
    s.pool.pending ≤ maxQueue ∧ s.log.begun.Nodup ∧
    (s.ShutdownReturned false → s.pool.pending = 0 ∧ s.pool.active = 0 ∧
      ∀ e ∈ s.log.accepted, e ∉ s.log.withdrawn → e.source ∉ s.log.stopped →
        RanOnce s.log e) := by
  have hkept := Kept.of_run h
  refine ⟨⟨hkept.numbered.nodup,?_⟩,hkept.bounded.2,hkept.begun_nodup,fun hreturned => ?_⟩
  · rw [hkept.accounted.custody.length_eq, hkept.accounted.active]
    simp only [List.length_append, WorkerPool.pending]
  · obtain ⟨hqueue,hexited⟩ := hkept.quiet hreturned
    have hhand := Worker.flatMap_exited Worker.inHand rfl hexited
    refine ⟨congrArg List.length hqueue,?_,?_⟩
    · rw [hkept.accounted.active, hhand]
      rfl
    · intro e he hwithdrawn hstopped
      exact hkept.ranOnce (hkept.mem_ran hqueue hhand he hwithdrawn hstopped)

/-- One worker runs the only task, and the pool is shut down. -/
def plainActions : List (Action ℕ) :=
  [.submit (some 7),.work 0,.shutdown false,.work 0,.work 0,.work 0,.work 0,.join 0,.leave 0]

theorem no_task_lost_plain : ∃ s : PoolUse ℕ, performs step (started ℕ 1 1) plainActions = some s ∧
    s.ShutdownReturned false ∧ s.pool.pending = 0 ∧ s.pool.active = 0 ∧
      s.log.accepted = [⟨7,0⟩] ∧ RanOnce s.log ⟨7,0⟩ := by
  have hperforms : performs step (started ℕ 1 1) plainActions = some _ := rfl
  have hreturned : (⟨false,.returned⟩ : ShutdownCall) ∈ [⟨false,.returned⟩] :=
    List.mem_singleton_self _
  obtain ⟨-,-,-,hdone⟩ := no_task_lost (.of_performs (fun _ _ _ => trivial) hperforms)
  obtain ⟨hpending,hactive,hran⟩ := hdone hreturned
  refine ⟨_,hperforms,hreturned,hpending,hactive,rfl,?_⟩
  exact hran ⟨7,0⟩ (List.mem_singleton_self _) List.not_mem_nil List.not_mem_nil

/-- A cancelling shutdown lets the only worker skip the only task; the destructor's
shutdown then returns at once. -/
def cancellingActions : List (Action ℕ) :=
  [.submit (some 7),.shutdown true,.work 0,.work 0,.work 0,.work 0,.join 0,.leave 0,
    .shutdown false]

theorem cancelled_task_never_runs : ∃ s : PoolUse ℕ, Run step anything (started ℕ 1 1) s ∧
    s.ShutdownReturned false ∧ ∃ e ∈ s.log.accepted, e ∉ s.log.withdrawn ∧ ¬ RanOnce s.log e := by
  have hrun : performs step (started ℕ 1 1) cancellingActions = some _ := rfl
  refine ⟨_,.of_performs (fun _ _ _ => trivial) hrun,?_,⟨7,0⟩,?_,?_,?_⟩
  · exact List.mem_cons_of_mem _ (List.mem_singleton_self _)
  · exact List.mem_singleton_self _
  · exact List.not_mem_nil
  · rintro ⟨before,after,hran,-⟩
    exact List.append_ne_nil_of_right_ne_nil before (List.cons_ne_nil _ _) hran.symm

end PoolUse

end PathObservatory
