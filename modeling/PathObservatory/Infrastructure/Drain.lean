import PathObservatory.Infrastructure.TaskLedger

/-! # Draining the pool

`drain` reads the number of queued and of active tasks in two critical sections, in an
order that the language leaves open, until their sum is zero. A worker that takes a task
between the reads hides it from both when the active tasks are read first.
-/
namespace PathObservatory
open Interleaving PoolUse

/-- Which of the two counts is read first. -/
inductive ReadOrder
  | pendingFirst
  | activeFirst
deriving DecidableEq

inductive DrainPhase
  | notCalled
  | polling
  /-- Between the two reads of a round, with the count that was read. -/
  | between (order : ReadOrder) (first : ℕ)
  | returned
deriving DecidableEq

/-- A pool in use and one call of `drain`. What was accepted before the call and how
many tasks had been taken at the first read of the round is remembered, not read. -/
structure Draining (Task : Type) where
  use : PoolUse Task
  phase : DrainPhase := .notCalled
  early : List (Entry Task) := []
  takenBefore : ℕ := 0

namespace Draining
variable {Task : Type}

inductive Action (Task : Type)
  | pool (action : PoolUse.Action Task)
  | call
  | readFirst (order : ReadOrder)
  | readSecond

def first (pool : WorkerPool Task) : ReadOrder → ℕ
  | .pendingFirst => pool.pending
  | .activeFirst => pool.active

def second (pool : WorkerPool Task) : ReadOrder → ℕ
  | .pendingFirst => pool.active
  | .activeFirst => pool.pending

def step (d : Draining Task) : Action Task → Option (Draining Task)
  | .pool action => (d.use.step action).map fun use => { d with use := use }
  | .call =>
    match d.phase with
    | .notCalled => some { d with phase := .polling, early := d.use.log.accepted }
    | _ => none
  | .readFirst order =>
    match d.phase with
    | .polling => some { d with
        phase := .between order (first d.use.pool order)
        takenBefore := d.use.log.taken.length }
    | _ => none
  | .readSecond =>
    match d.phase with
    | .between order count =>
      if count + second d.use.pool order = 0 then some { d with phase := .returned }
      else some { d with phase := .polling }
    | _ => none

/-- A started pool on which `drain` has not been called. -/
def idle (Task : Type) (threadCount maxQueue : ℕ) : Draining Task :=
  { use := started Task threadCount maxQueue }

/-- Submissions, worker steps and the steps of `drain` itself. -/
def Ordinary : Action Task → Prop
  | .pool (.submit _) | .pool (.work _) => True
  | .pool _ => False
  | .call | .readFirst _ | .readSecond => True

/-- Every task accepted before the call has finished running. -/
def Drained (d : Draining Task) : Prop := ∀ e ∈ d.early, e ∈ d.use.log.ran

/-- The active tasks were read first, and a worker has since taken a task accepted
before the call that it has not run to its end. -/
def Hidden (d : Draining Task) : Prop :=
  ∃ count, d.phase = .between .activeFirst count ∧ ∃ e ∈ d.early,
    e ∈ d.use.log.taken.drop d.takenBefore ∧
      e ∈ d.use.pool.threads.flatMap Worker.unreturned

section
variable {d d' : Draining Task} {a : Action Task} {threadCount maxQueue : ℕ}

/-- A step lets these lists grow at their ends. -/
structure Grows (log later : TaskLog Task) : Prop where
  accepted : log.accepted <+: later.accepted
  taken : log.taken <+: later.taken
  ran : log.ran <+: later.ran
  finished : log.finished <+: later.finished

theorem Grows.refl (log : TaskLog Task) : Grows log log :=
  ⟨List.prefix_rfl,List.prefix_rfl,List.prefix_rfl,List.prefix_rfl⟩

theorem recordMove_grows (log : TaskLog Task) (m : WorkerPool.Move Task) :
    Grows log (recordMove log m) := by
  cases m with
  | exit => exact Grows.refl log
  | take entry =>
    exact ⟨List.prefix_rfl,List.prefix_append _ _,List.prefix_rfl,List.prefix_rfl⟩
  | skip entry => exact ⟨List.prefix_rfl,List.prefix_rfl,List.prefix_rfl,List.prefix_rfl⟩
  | beginTask entry => exact ⟨List.prefix_rfl,List.prefix_rfl,List.prefix_rfl,List.prefix_rfl⟩
  | endTask entry =>
    exact ⟨List.prefix_rfl,List.prefix_rfl,List.prefix_append _ _,List.prefix_rfl⟩
  | release entry =>
    exact ⟨List.prefix_rfl,List.prefix_rfl,List.prefix_rfl,List.prefix_append _ _⟩

theorem grows_of_steps {s t : PoolUse Task} {a : PoolUse.Action Task} (h : Steps s a t) :
    Grows s.log t.log := by
  cases h with
  | accept =>
    exact ⟨List.prefix_append _ _,List.prefix_rfl,List.prefix_rfl,List.prefix_rfl⟩
  | work => exact recordMove_grows s.log _
  | refuse => exact Grows.refl s.log
  | drop => exact Grows.refl s.log
  | cancelPending => exact ⟨List.prefix_rfl,List.prefix_rfl,List.prefix_rfl,List.prefix_rfl⟩
  | shutdown => exact ⟨List.prefix_rfl,List.prefix_rfl,List.prefix_rfl,List.prefix_rfl⟩
  | shutdownTwice => exact Grows.refl s.log
  | join => exact Grows.refl s.log
  | leave => exact Grows.refl s.log

/-- Submissions and worker steps withdraw and cancel nothing. -/
structure Undisturbed (s : PoolUse Task) : Prop where
  withdrawn : s.log.withdrawn = []
  cancelled : s.pool.cancelled = []
  skipped : s.log.skipped = []

theorem Undisturbed.step {s t : PoolUse Task} {a : PoolUse.Action Task} (h : Undisturbed s)
    (hordinary : Ordinary (.pool a)) (hstep : Steps s a t) : Undisturbed t := by
  cases hstep with
  | refuse => exact h
  | drop => exact ⟨h.withdrawn,h.cancelled,h.skipped⟩
  | accept => exact ⟨h.withdrawn,h.cancelled,h.skipped⟩
  | work hthread hmove =>
    cases hmove with
    | skip hcancelled =>
      rw [h.cancelled] at hcancelled
      cases hcancelled
    | exit => exact ⟨h.withdrawn,h.cancelled,h.skipped⟩
    | take => exact ⟨h.withdrawn,h.cancelled,h.skipped⟩
    | beginTask => exact ⟨h.withdrawn,h.cancelled,h.skipped⟩
    | endTask => exact ⟨h.withdrawn,h.cancelled,h.skipped⟩
    | release => exact ⟨h.withdrawn,h.cancelled,h.skipped⟩
  | cancelPending => cases hordinary
  | shutdown => cases hordinary
  | shutdownTwice => cases hordinary
  | join => cases hordinary
  | leave => cases hordinary

section
variable {s : PoolUse Task}

/-- With nothing queued, the accepted tasks are those that were taken. -/
theorem accepted_perm_taken (hkept : Kept maxQueue s) (hcalm : Undisturbed s)
    (hqueue : s.pool.queue = []) : s.log.accepted.Perm s.log.taken := by
  have hcustody := hkept.accounted.custody
  rw [hqueue, hcalm.withdrawn, List.nil_append, List.append_nil] at hcustody
  exact hcustody.trans hkept.accounted.taken.symm

/-- With nothing active, the tasks that were taken are finished. -/
theorem taken_perm_finished (hkept : Kept maxQueue s) (hactive : s.pool.active = 0) :
    s.log.taken.Perm s.log.finished := by
  have hhand := List.eq_nil_of_length_eq_zero (hkept.accounted.active.symm.trans hactive)
  have htaken := hkept.accounted.taken
  rwa [hhand, List.nil_append] at htaken

/-- A task that was taken is still to be run to its end, or it has run. -/
theorem taken_perm_ran (hkept : Kept maxQueue s) (hcalm : Undisturbed s) :
    s.log.taken.Perm (s.pool.threads.flatMap Worker.unreturned ++ s.log.ran) := by
  have hpassed := hkept.accounted.passed
  rw [hcalm.skipped, List.append_nil] at hpassed
  have htaken := hkept.accounted.taken.trans
    ((Worker.inHand_perm s.pool.threads).append_right s.log.finished)
  rw [List.append_assoc] at htaken
  exact htaken.trans (hpassed.symm.append_left _)

theorem finished_ran (hkept : Kept maxQueue s) (hcalm : Undisturbed s) {e : Entry Task}
    (he : e ∈ s.log.finished) : e ∈ s.log.ran := by
  have hpassed := hkept.accounted.passed.mem_iff.mpr (List.mem_append_right _ he)
  rwa [hcalm.skipped, List.append_nil] at hpassed

theorem ran_iff_not_unreturned (hkept : Kept maxQueue s) (hcalm : Undisturbed s) {e : Entry Task}
    (he : e ∈ s.log.taken) :
    e ∈ s.log.ran ↔ e ∉ s.pool.threads.flatMap Worker.unreturned := by
  have hsplit := taken_perm_ran hkept hcalm
  have hdisjoint := List.disjoint_of_nodup_append (hsplit.nodup_iff.mp hkept.taken_nodup)
  constructor
  · intro hran hlate
    exact hdisjoint hlate hran
  · intro hnot
    exact (List.mem_append.mp (hsplit.mem_iff.mp he)).resolve_left hnot

end

/-- What the call of `drain` has learned from its first read. -/
structure Watched (maxQueue : ℕ) (d : Draining Task) : Prop where
  kept : Kept maxQueue d.use
  calm : Undisturbed d.use
  early : ∀ e ∈ d.early, e ∈ d.use.log.accepted
  before : d.takenBefore ≤ d.use.log.taken.length
  pendingFirst : d.phase = .between .pendingFirst 0 → ∀ e ∈ d.early, e ∈ d.use.log.taken
  activeFirst : d.phase = .between .activeFirst 0 →
    ∀ e ∈ d.use.log.taken.take d.takenBefore, e ∈ d.use.log.finished

theorem watched_idle (threadCount maxQueue : ℕ) :
    Watched maxQueue (idle Task threadCount maxQueue) := by
  refine ⟨@Kept.of_run _ _ _ _ anything .refl,?_,fun e he => ?_,Nat.zero_le _,
    fun h => ?_,fun h => ?_⟩
  · unfold idle
    rw [started_eq]
    exact ⟨rfl,rfl,rfl⟩
  · cases he
  · cases h
  · cases h

theorem Watched.step (h : Watched maxQueue d) (hordinary : Ordinary a)
    (hstep : d.step a = some d') : Watched maxQueue d' := by
  cases a with
  | pool action =>
    obtain ⟨use,huse,rfl⟩ := Option.map_eq_some_iff.mp hstep
    have hsteps := steps_of_step huse
    have hgrows := grows_of_steps hsteps
    refine ⟨h.kept.after hsteps,h.calm.step hordinary hsteps,?_,?_,?_,?_⟩
    · intro e he
      exact hgrows.accepted.subset (h.early e he)
    · exact Nat.le_trans h.before hgrows.taken.length_le
    · intro hphase e he
      exact hgrows.taken.subset (h.pendingFirst hphase e he)
    · intro hphase e he
      obtain ⟨rest,hrest⟩ := hgrows.taken
      rw [← hrest, List.take_append_of_le_length h.before] at he
      exact hgrows.finished.subset (h.activeFirst hphase e he)
  | call =>
    simp only [step] at hstep
    split at hstep
    · obtain rfl := Option.some.inj hstep
      refine ⟨h.kept,h.calm,fun e he => he,h.before,?_,?_⟩
      · intro hphase
        cases hphase
      · intro hphase
        cases hphase
    · cases hstep
  | readFirst order =>
    simp only [step] at hstep
    split at hstep
    · obtain rfl := Option.some.inj hstep
      refine ⟨h.kept,h.calm,h.early,Nat.le_refl _,?_,?_⟩
      · intro hphase e he
        obtain ⟨rfl,hcount⟩ := DrainPhase.between.inj hphase
        have hqueue := List.eq_nil_of_length_eq_zero hcount
        exact (accepted_perm_taken h.kept h.calm hqueue).mem_iff.mp (h.early e he)
      · intro hphase e he
        obtain ⟨rfl,hcount⟩ := DrainPhase.between.inj hphase
        exact (taken_perm_finished h.kept hcount).mem_iff.mp (List.mem_of_mem_take he)
    · cases hstep
  | readSecond =>
    simp only [step] at hstep
    split at hstep
    · split at hstep
      · obtain rfl := Option.some.inj hstep
        refine ⟨h.kept,h.calm,h.early,h.before,?_,?_⟩
        · intro hphase
          cases hphase
        · intro hphase
          cases hphase
      · obtain rfl := Option.some.inj hstep
        refine ⟨h.kept,h.calm,h.early,h.before,?_,?_⟩
        · intro hphase
          cases hphase
        · intro hphase
          cases hphase
    · cases hstep

/-- The read after which `drain` returns saw zero, as the first read had. -/
theorem returning_read (hstep : d.step .readSecond = some d') (hreturned : d'.phase = .returned) :
    ∃ order, d.phase = .between order 0 ∧ second d.use.pool order = 0 ∧
      d' = { d with phase := .returned } := by
  simp only [step] at hstep
  split at hstep
  · rename_i order count hphase
    split at hstep
    · rename_i hzero
      obtain ⟨hfirst,hsecond⟩ := Nat.add_eq_zero_iff.mp hzero
      subst hfirst
      exact ⟨order,hphase,hsecond,(Option.some.inj hstep).symm⟩
    · obtain rfl := Option.some.inj hstep
      cases hreturned
  · cases hstep

/-- Whether all early tasks have run when `drain` returns. -/
theorem Watched.drained_iff (h : Watched maxQueue d) (hstep : d.step .readSecond = some d')
    (hreturned : d'.phase = .returned) : Drained d' ↔ ¬ Hidden d := by
  obtain ⟨order,hphase,hsecond,rfl⟩ := returning_read hstep hreturned
  cases order with
  | pendingFirst =>
    -- all early tasks had been taken at the first read, and none is active any more
    have hall : Drained { d with phase := .returned } := by
      intro e he
      have hfinished := (taken_perm_finished h.kept hsecond).mem_iff.mp (h.pendingFirst hphase e he)
      exact finished_ran h.kept h.calm hfinished
    refine iff_of_true hall ?_
    rintro ⟨count,hother,-⟩
    rw [hphase] at hother
    cases hother
  | activeFirst =>
    have hqueue := List.eq_nil_of_length_eq_zero hsecond
    have htaken : ∀ e ∈ d.early, e ∈ d.use.log.taken := fun e he =>
      (accepted_perm_taken h.kept h.calm hqueue).mem_iff.mp (h.early e he)
    constructor
    · rintro hall ⟨count,-,e,he,-,hlate⟩
      exact (ran_iff_not_unreturned h.kept h.calm (htaken e he)).mp (hall e he) hlate
    · intro hnone e he
      -- taken before the first read, or since
      have hsplit := htaken e he
      rw [← List.take_append_drop d.takenBefore d.use.log.taken] at hsplit
      rcases List.mem_append.mp hsplit with hbefore | hsince
      · exact finished_ran h.kept h.calm (h.activeFirst hphase e hbefore)
      · refine (ran_iff_not_unreturned h.kept h.calm (htaken e he)).mpr fun hlate => ?_
        exact hnone ⟨0,hphase,e,he,hsince,hlate⟩

/-- An ordinary step, and not a return of `drain` from a state that hides a task. -/
def Unhidden (d : Draining Task) (a : Action Task) : Prop :=
  Ordinary a ∧ ∀ d', d.step a = some d' → d'.phase = .returned → ¬ Hidden d

theorem watched_of_run {threadCount maxQueue : ℕ}
    (h : Run step (fun _ => Ordinary) (idle Task threadCount maxQueue) d) : Watched maxQueue d :=
  h.invariant (watched_idle _ _) fun _ _ _ hordinary hstep hwatched =>
    hwatched.step hordinary hstep

/-- Only the return of `drain` makes its phase the last one. -/
theorem Drained.step (hdrained : d.phase = .returned → Drained d) (hwatched : Watched maxQueue d)
    (hallowed : Unhidden d a) (hstep : d.step a = some d') :
    d'.phase = .returned → Drained d' := by
  intro hreturned
  cases a with
  | pool action =>
    obtain ⟨use,huse,rfl⟩ := Option.map_eq_some_iff.mp hstep
    intro e he
    exact (grows_of_steps (steps_of_step huse)).ran.subset (hdrained hreturned e he)
  | call =>
    simp only [Draining.step] at hstep
    split at hstep
    · obtain rfl := Option.some.inj hstep
      cases hreturned
    · cases hstep
  | readFirst order =>
    simp only [Draining.step] at hstep
    split at hstep
    · obtain rfl := Option.some.inj hstep
      cases hreturned
    · cases hstep
  | readSecond => exact (hwatched.drained_iff hstep hreturned).mpr (hallowed.2 d' hstep hreturned)

theorem drained_of_run {threadCount maxQueue : ℕ}
    (h : Run step Unhidden (idle Task threadCount maxQueue) d) (hreturned : d.phase = .returned) :
    Drained d := by
  have hboth : Watched maxQueue d ∧ (d.phase = .returned → Drained d) := by
    refine Run.invariant (P := fun d => Watched maxQueue d ∧ (d.phase = .returned → Drained d))
      ⟨watched_idle _ _,fun hidle => ?_⟩ ?_ h
    · cases hidle
    · intro d a d' hallowed hstep hold
      exact ⟨hold.1.step hallowed.1 hstep,Drained.step hold.2 hold.1 hallowed hstep⟩
  exact hboth.2 hreturned

/-- In a run in which `drain` never returns with a task hidden, every task accepted
before the call has finished running once it has returned; at the moment of its return
that is so exactly when none is hidden. -/
theorem drain_drains_iff {threadCount maxQueue : ℕ}
    (h : Run step (fun _ => Ordinary) (idle Task threadCount maxQueue) d) :
    (Run step Unhidden (idle Task threadCount maxQueue) d → d.phase = .returned → Drained d) ∧
    ∀ d', d.step .readSecond = some d' → d'.phase = .returned → (Drained d' ↔ ¬ Hidden d) :=
  ⟨drained_of_run,fun _ hstep hreturned => (watched_of_run h).drained_iff hstep hreturned⟩

end

/-- The queue is read before the active tasks, which the worker runs between the reads. -/
def patientActions : List (Action ℕ) :=
  [.pool (.submit (some 7)),.call,.pool (.work 0),.readFirst .pendingFirst,.pool (.work 0),
    .pool (.work 0),.pool (.work 0)]

theorem ordinary_of_mem {actions : List (Action ℕ)}
    (hkinds : actions.all (fun
      | .pool (.submit _) | .pool (.work _) | .call | .readFirst _ | .readSecond => true
      | .pool _ => false) = true) : ∀ a ∈ actions, Ordinary a := by
  intro a ha
  have hkind := List.all_eq_true.mp hkinds a ha
  cases a with
  | pool action => cases action <;> trivial
  | call => trivial
  | readFirst order => trivial
  | readSecond => trivial

theorem drain_drains_patiently : ∃ d d' : Draining ℕ,
    performs step (idle ℕ 1 1) patientActions = some d ∧ d.step .readSecond = some d' ∧
      d'.early = [⟨7,0⟩] ∧ d'.phase = .returned ∧ Drained d' := by
  have hrun : performs step (idle ℕ 1 1) patientActions = some _ := rfl
  have hordinary : ∀ a ∈ patientActions, Ordinary a := ordinary_of_mem rfl
  refine ⟨_,_,hrun,rfl,rfl,rfl,?_⟩
  refine ((drain_drains_iff (.of_performs (fun _ => hordinary) hrun)).2 _ rfl rfl).mpr ?_
  rintro ⟨count,hphase,-⟩
  cases hphase

/-- The active tasks are read, the worker takes the task, and the queue is read. -/
def hastyActions : List (Action ℕ) :=
  [.pool (.submit (some 7)),.call,.readFirst .activeFirst,.pool (.work 0),.readSecond]

theorem drain_returns_too_early : ∃ d : Draining ℕ,
    Run step (fun _ => Ordinary) (idle ℕ 1 1) d ∧ d.phase = .returned ∧
      ∃ e ∈ d.early, e ∉ d.use.log.begun ∧ e ∉ d.use.log.ran := by
  have hrun : performs step (idle ℕ 1 1) hastyActions = some _ := rfl
  have hordinary : ∀ a ∈ hastyActions, Ordinary a := ordinary_of_mem rfl
  refine ⟨_,.of_performs (fun _ => hordinary) hrun,rfl,⟨7,0⟩,?_,?_,?_⟩
  · exact List.mem_singleton_self _
  · exact List.not_mem_nil
  · exact List.not_mem_nil

end Draining

end PathObservatory
