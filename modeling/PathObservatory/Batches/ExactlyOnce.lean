import PathObservatory.Batches.Performing
import PathObservatory.Runtime.Session

/-! # Every batch is performed once

Whatever the threads do in between, the runtime performs the script of every accepted
batch once and in its order, and a stop waits for all of them before it marks the store
clean.
-/
namespace PathObservatory
open Interleaving
open ObservatoryRuntime (Call)

namespace BatchedRuntime
variable {r₀ : ObservatoryRuntime} {s t : BatchedRuntime} {a : Action} {maxQueue : ℕ}
  {thread i : ℕ} {w : Worker Batch} {m : WorkerPool.Move Batch} {e : Entry Batch}

/-- A thread that runs a body after a move ran it before, or the move began it. -/
theorem running_set (h : (s.pool.threads.set thread m.phase)[i]? = some (.running e)) :
    i ≠ thread ∧ s.pool.threads[i]? = some (.running e) ∨ i = thread ∧ m.phase = .running e := by
  rw [List.getElem?_set] at h
  split_ifs at h with hsame hlength
  · exact Or.inr ⟨hsame.symm,Option.some.inj h⟩
  · exact Or.inl ⟨Ne.symm hsame,h⟩

/-- The thread moves to a phase in which it runs no body. -/
theorem Performing.of_idle_move (h : Performing r₀ maxQueue s)
    (hpooled : Pooled maxQueue (s.useAfter thread m))
    (hphase : ∀ e, m.phase ≠ .running e)
    (hran : ∀ e ∈ (PoolUse.recordMove s.use.log m).ran,
      requestsOf e.source s.log = script r₀.config.limits e.task)
    (hbegun : (PoolUse.recordMove s.use.log m).begun = s.use.log.begun) :
    Performing r₀ maxQueue (s.withMove thread m) := by
  refine ⟨hpooled,h.limits,fun i e hi => ?_,hran,fun source hnone => ?_⟩
  · have hthreads : (m.apply s.pool thread).threads[i]? = some (.running e) := hi
    rw [WorkerPool.Move.apply_threads] at hthreads
    rcases running_set hthreads with ⟨hne,hold⟩ | ⟨-,hnow⟩
    · rw [withMove_points, withMove_log, Function.update_of_ne hne]
      exact h.running i e hold
    · exact absurd hnow (hphase e)
  · refine h.fresh source fun e he => hnone e ?_
    rwa [← hbegun] at he

/-- A thread takes its next step in `worker_loop`. -/
theorem Performing.work (h : Performing r₀ maxQueue s)
    (hthread : s.pool.threads[thread]? = some w) (hmove : WorkerPool.Moves s.pool w m)
    (hdone : ∀ entry, w = .running entry → s.points thread = .returned) :
    Performing r₀ maxQueue (s.withMove thread m) := by
  have hpooled := h.pooled.step (show Gentle (.work thread) from trivial) (.work hthread hmove)
  cases hmove with
  | exit => exact h.of_idle_move hpooled (fun _ => nofun) h.ran rfl
  | take => exact h.of_idle_move hpooled (fun _ => nofun) h.ran rfl
  | skip => exact h.of_idle_move hpooled (fun _ => nofun) h.ran rfl
  | release => exact h.of_idle_move hpooled (fun _ => nofun) h.ran rfl
  | @endTask entry =>
    refine h.of_idle_move hpooled (fun _ => nofun) (fun e he => ?_) rfl
    rcases List.mem_append.mp he with hold | hnew
    · exact h.ran e hold
    · obtain rfl := List.mem_singleton.mp hnew
      have hscript := h.running thread e hthread
      rwa [hdone e rfl, BatchPoint.remaining, List.append_nil] at hscript
  | @beginTask entry =>
    have haccepted : entry ∈ s.use.log.accepted :=
      h.pooled.mem_accepted_of_hand (List.mem_of_getElem? hthread) (List.mem_singleton_self entry)
    -- its number was not begun before, so that nothing of it has been performed
    have hnew : ∀ e ∈ s.use.log.begun, e.source ≠ entry.source := by
      intro e he hsource
      obtain rfl := h.pooled.eq_of_source (h.pooled.mem_accepted_of_begun he) haccepted hsource
      have hnodup : (s.use.log.begun ++ [e]).Nodup := hpooled.kept.begun_nodup
      exact (List.nodup_append.mp hnodup).2.2 e he e (List.mem_singleton_self e) rfl
    refine ⟨hpooled,h.limits,fun i e hi => ?_,h.ran,fun source hnone => ?_⟩
    · have hthreads : (s.pool.threads.set thread (.running entry))[i]? = some (.running e) := hi
      rcases running_set (m := .beginTask entry) hthreads with ⟨hne,hold⟩ | ⟨rfl,hnow⟩
      · rw [withMove_points, withMove_log, Function.update_of_ne hne]
        exact h.running i e hold
      · obtain rfl := Worker.running.inj hnow
        rw [withMove_points, withMove_log, Function.update_self, BatchPoint.remaining,
          h.fresh entry.source hnew, List.nil_append]
    · exact h.fresh source fun e he => hnone e (List.mem_append_left _ he)

theorem Performing.step (h : Performing r₀ maxQueue s) (hsteps : Steps s a t) :
    Performing r₀ maxQueue t := by
  cases hsteps with
  | request => exact h.outside _
  | refuse => exact h
  | offer => exact h.congr rfl rfl rfl fun _ => rfl
  | submit hoffer huse =>
    have hstill := h.of_still (show Gentle (.submit (some _)) from trivial) huse
    cases huse with
    | refuse => exact (hstill (fun _ _ => id) rfl rfl).congr rfl rfl rfl fun _ => rfl
    | drop => exact (hstill (fun _ _ => id) rfl rfl).congr rfl rfl rfl fun _ => rfl
    | accept => exact (hstill (fun _ _ => id) rfl rfl).congr rfl rfl rfl fun _ => rfl
  | work hthread hmove hdone => exact h.work hthread hmove hdone
  | body hthread hnext => exact h.body hthread hnext
  | beginStop => exact (h.outside .stopping).congr rfl rfl rfl fun _ => rfl
  | shutdown _ huse =>
    have hstill := h.of_still (show Gentle (.shutdown false) from trivial) huse
    cases huse with
    | shutdown hpool =>
      obtain rfl := WorkerPool.beginShutdown_eq_some hpool
      exact (hstill (fun _ _ => id) rfl rfl).congr rfl rfl rfl fun _ => rfl
    | shutdownTwice => exact (hstill (fun _ _ => id) rfl rfl).congr rfl rfl rfl fun _ => rfl
  | join _ _ huse =>
    have hstill := h.of_still (show Gentle (.join _) from trivial) huse
    cases huse with
    | join => exact hstill (fun _ _ hi => nomatch hi) rfl rfl
  | leave _ huse =>
    have hstill := h.of_still (show Gentle (.leave _) from trivial) huse
    cases huse with
    | leave => exact (hstill (fun _ _ => id) rfl rfl).congr rfl rfl rfl fun _ => rfl
  | endStop => exact (h.outside _).congr rfl rfl rfl fun _ => rfl
  | reads huse => exact h.congr huse rfl rfl fun _ => rfl

theorem performing_serving (r : ObservatoryRuntime) :
    Performing r r.config.limits.maxQueueDepth (serving r) := by
  have hwatched := @Draining.watched_idle Batch r.threads r.config.limits.maxQueueDepth
  refine ⟨⟨hwatched.kept,hwatched.calm⟩,rfl,fun i e hi => ?_,fun e he => ?_,fun _ _ => rfl⟩
  · have hwaiting : (PoolUse.started Batch r.threads r.config.limits.maxQueueDepth).pool.threads[i]? =
        some (.running e) := hi
    rw [PoolUse.started_eq] at hwaiting
    cases List.eq_of_mem_replicate (List.mem_of_getElem? hwaiting)
  · have hnone : e ∈ (PoolUse.started Batch r.threads r.config.limits.maxQueueDepth).log.ran := he
    rw [PoolUse.started_eq] at hnone
    cases hnone

theorem performing_of_run (h : Run step anything (serving r₀) s) :
    Performing r₀ r₀.config.limits.maxQueueDepth s :=
  h.invariant (performing_serving r₀) fun _ _ _ _ hstep hold => hold.step (steps_of_step hstep)

/-- Nothing has been performed of a batch whose body was not begun. -/
theorem Performing.untouched (h : Performing r₀ maxQueue s) (he : e ∈ s.use.log.accepted)
    (hbegun : e ∉ s.use.log.begun) : requestsOf e.source s.log = [] := by
  refine h.fresh e.source fun other hother hsource => hbegun ?_
  rwa [← h.pooled.eq_of_source (h.pooled.mem_accepted_of_begun hother) he hsource]

/-- No thread is left and nothing is queued, now and later. -/
structure Quiet (s : BatchedRuntime) : Prop where
  closed : s.pool.running = false
  queue : s.pool.queue = []
  exited : ∀ w ∈ s.pool.threads, w = .exited

/-- A call of `stop` is past its second stage. -/
def Settled (s : BatchedRuntime) : Prop :=
  s.stop = .closing ∨ (none,RuntimeEvent.request Call.stop) ∈ s.log

/-- A stop that is past its second stage has closed the pool, and from then on no body
makes a request. -/
structure Closed (s : BatchedRuntime) : Prop where
  quiet : s.Settled → s.Quiet
  last : ∀ before after, s.log = before ++ (none,.request .stop) :: after →
    ∀ x ∈ after, x.1 = none

theorem Quiet.congr (h : Quiet s) (huse : t.use = s.use) : Quiet t := by
  have hpool : t.pool = s.pool := congrArg PoolUse.pool huse
  exact ⟨hpool ▸ h.closed,hpool ▸ h.queue,hpool ▸ h.exited⟩

theorem Quiet.pool (h : Quiet s) {action : PoolUse.Action Batch} {use : PoolUse Batch}
    (hsteps : PoolUse.Steps s.use action use) : (s.withUse use).Quiet := by
  cases hsteps with
  | refuse => exact h
  | drop => exact ⟨h.closed,h.queue,h.exited⟩
  | accept hrunning _ => exact absurd (h.closed.symm.trans hrunning) nofun
  | cancelPending => exact ⟨h.closed,rfl,h.exited⟩
  | shutdown hpool =>
    obtain rfl := WorkerPool.beginShutdown_eq_some hpool
    exact ⟨rfl,h.queue,h.exited⟩
  | shutdownTwice => exact ⟨h.closed,h.queue,h.exited⟩
  | join => exact ⟨h.closed,h.queue,fun w hw => nomatch hw⟩
  | leave => exact ⟨h.closed,rfl,h.exited⟩
  | work hthread hmove =>
    exact absurd (h.exited _ (List.mem_of_getElem? hthread)) hmove.ne_exited

theorem Settled.of_serve {call : Call} (hcall : call ≠ .stop) {origin : Option ℕ}
    (h : (s.serve origin (.request call)).Settled) : s.Settled := by
  refine h.imp id fun hmem => ?_
  rcases List.mem_append.mp hmem with hold | hnew
  · exact hold
  · have hevent := (Prod.mk.inj (List.mem_singleton.mp hnew)).2
    exact absurd (RuntimeEvent.request.inj hevent).symm hcall

/-- Something else than a body adds to the log. -/
theorem last_concat {x y : Option ℕ × RuntimeEvent} {log : List (Option ℕ × RuntimeEvent)}
    (hlast : ∀ before after, log = before ++ y :: after → ∀ z ∈ after, z.1 = none)
    (hx : x.1 = none) (before after : List (Option ℕ × RuntimeEvent))
    (hsplit : log ++ [x] = before ++ y :: after) : ∀ z ∈ after, z.1 = none := by
  rcases List.eq_nil_or_concat after with rfl | ⟨rest,z,rfl⟩
  · exact fun z hz => nomatch hz
  · rw [List.concat_eq_append, ← List.cons_append, ← List.append_assoc] at hsplit
    obtain ⟨hlog,hz⟩ := List.append_inj' hsplit rfl
    obtain rfl := (List.cons.inj hz).1
    intro other hother
    rcases List.mem_append.mp (List.concat_eq_append ▸ hother) with hrest | hnew
    · exact hlast before rest hlog other hrest
    · rw [List.mem_singleton.mp hnew]
      exact hx

theorem Closed.step (h : Closed s) (hperforming : Performing r₀ maxQueue s)
    (hsteps : Steps s a t) : Closed t := by
  cases hsteps with
  | request hcall =>
    exact ⟨fun hsettled => (h.quiet (Settled.of_serve hcall hsettled)).congr rfl,
      last_concat h.last rfl⟩
  | refuse => exact h
  | offer => exact ⟨fun hsettled => (h.quiet hsettled).congr rfl,h.last⟩
  | submit hoffer huse =>
    exact ⟨fun hsettled => ((h.quiet hsettled).pool huse).congr rfl,h.last⟩
  | work hthread hmove hdone =>
    refine ⟨fun hsettled => ?_,h.last⟩
    exact absurd ((h.quiet hsettled).exited _ (List.mem_of_getElem? hthread)) hmove.ne_exited
  | @body thread entry call point hthread hnext =>
    have hnever : ¬ s.Settled := fun hsettled =>
      nomatch (h.quiet hsettled).exited _ (List.mem_of_getElem? hthread)
    have hlog : (none,RuntimeEvent.request Call.stop) ∉
        (s.moved thread entry.source call point).log := by
      rw [moved_log]
      intro hmem
      rcases List.mem_append.mp hmem with hold | hnew
      · exact hnever (Or.inr hold)
      · obtain ⟨other,-,heq⟩ := List.mem_map.mp hnew
        exact nomatch (Prod.mk.inj heq).1
    refine ⟨fun hsettled => ?_,fun before after hsplit => ?_⟩
    · rcases hsettled with hclosing | hmem
      · exact absurd (Or.inl (moved_stop .. ▸ hclosing)) hnever
      · exact absurd hmem hlog
    · exact absurd (hsplit ▸ List.mem_append_right _ List.mem_cons_self) hlog
  | beginStop =>
    refine ⟨fun hsettled => ?_,last_concat h.last rfl⟩
    have hold : s.Settled := by
      rcases hsettled with hclosing | hmem
      · cases hclosing
      · refine Or.inr ((List.mem_append.mp hmem).resolve_right fun hnew => ?_)
        exact nomatch (Prod.mk.inj (List.mem_singleton.mp hnew)).2
    exact (h.quiet hold).congr rfl
  | @shutdown use _ huse =>
    refine ⟨fun hsettled => ?_,h.last⟩
    have hquiet : (s.withUse use).Quiet := by
      rcases hsettled with hclosing | hmem
      · cases huse with
        | shutdown hpool =>
          have hjoining : (s.withUse _).shutdownPhase s.use.shutdowns.length = .closing := hclosing
          simp [shutdownPhase] at hjoining
        | shutdownTwice hrunning hthreads =>
          have hgone := hperforming.pooled.kept.winding.gone hthreads
          exact ⟨hgone.1,hgone.2,fun w hw => nomatch (hthreads ▸ hw : w ∈ [])⟩
      · exact (h.quiet (Or.inr hmem)).pool huse
    exact hquiet.congr rfl
  | join _ _ huse => exact ⟨fun hsettled => (h.quiet hsettled).pool huse,h.last⟩
  | leave _ huse =>
    refine ⟨fun _ => ?_,h.last⟩
    cases huse with
    | leave hcall hphase =>
      have hexited := hperforming.pooled.kept.winding.joined _ (List.mem_of_getElem? hcall)
        (by simp [hphase])
      exact ⟨(hperforming.pooled.kept.winding.of_exited hexited).1,rfl,hexited⟩
  | endStop hclosing =>
    exact ⟨fun _ => (h.quiet (Or.inl hclosing)).congr rfl,last_concat h.last rfl⟩
  | reads huse => exact ⟨fun hsettled => (h.quiet hsettled).congr huse,h.last⟩

theorem closed_serving (r : ObservatoryRuntime) : Closed (serving r) where
  quiet hsettled := by
    rcases hsettled with hclosing | hmem
    · cases hclosing
    · cases hmem
  last before after hsplit := by
    have hempty : ([] : List (Option ℕ × RuntimeEvent)) ≠
        before ++ (none,.request .stop) :: after :=
      (List.append_ne_nil_of_right_ne_nil before (List.cons_ne_nil _ _)).symm
    exact absurd hsplit hempty

theorem closed_of_run (h : Run step anything (serving r₀) s) : Closed s := by
  have hboth : Closed s ∧ Performing r₀ r₀.config.limits.maxQueueDepth s := by
    refine Run.invariant (P := fun s => Closed s ∧ Performing r₀ r₀.config.limits.maxQueueDepth s)
      ⟨closed_serving r₀,performing_serving r₀⟩ (fun t a u _ hstep hold => ?_) h
    have hsteps := steps_of_step hstep
    exact ⟨hold.1.step hold.2 hsteps,hold.2.step hsteps⟩
  exact hboth.1

/-- The runtime is what the events in the log make of the one that was started. -/
theorem runtime_of_run (h : Run step anything (serving r₀) s) :
    s.runtime = s.log.foldl (fun r x => x.2.apply r) r₀ := by
  refine Run.invariant (P := fun s => s.runtime = s.log.foldl (fun r x => x.2.apply r) r₀) rfl
    (fun t a u _ hstep hold => ?_) h
  have hserve : ∀ (v : BatchedRuntime) (origin : Option ℕ) (event : RuntimeEvent),
      v.runtime = v.log.foldl (fun r x => x.2.apply r) r₀ → (v.serve origin event).runtime =
        (v.serve origin event).log.foldl (fun r x => x.2.apply r) r₀ := by
    intro v origin event hv
    rw [serve, List.foldl_append, ← hv]
    rfl
  cases steps_of_step hstep with
  | request => exact hserve t none _ hold
  | @body thread entry call point =>
    cases call with
    | none => exact hold
    | some call =>
      exact hserve { t with points := Function.update t.points thread point } _ _ hold
  | beginStop => exact hserve t none .stopping hold
  | endStop => exact hserve t none (.request .stop) hold
  | refuse => exact hold
  | offer => exact hold
  | submit => exact hold
  | work => exact hold
  | shutdown => exact hold
  | join => exact hold
  | leave => exact hold
  | reads => exact hold

namespace Performing

/-- A batch that was begun has had a first part of its script performed, another one
nothing. -/
theorem performed (h : Performing r₀ maxQueue s) (he : e ∈ s.use.log.accepted) :
    requestsOf e.source s.log <+: script r₀.config.limits e.task := by
  by_cases hbegun : e ∈ s.use.log.begun
  · rcases List.mem_append.mp (h.pooled.kept.accounted.begun.mem_iff.mp hbegun) with hbody | hran
    · obtain ⟨w,hw,hin⟩ := List.mem_flatMap.mp hbody
      obtain ⟨i,hi⟩ := List.mem_iff_getElem?.mp hw
      cases w with
      | running entry =>
        obtain rfl := List.mem_singleton.mp hin
        exact ⟨_,h.running i e hi⟩
      | waiting => cases hin
      | holding entry => cases hin
      | finishing entry => cases hin
      | exited => cases hin
    · exact (h.ran e hran).symm ▸ List.prefix_rfl
  · rw [h.untouched he hbegun]
    exact List.nil_prefix

end Performing

theorem requestsOf_append (source : ℕ) (log more : List (Option ℕ × RuntimeEvent)) :
    requestsOf source (log ++ more) = requestsOf source log ++ requestsOf source more :=
  List.filterMap_append

/-- Where no body makes a request, no batch is performed. -/
theorem requestsOf_outsiders {source : ℕ} {log : List (Option ℕ × RuntimeEvent)}
    (h : ∀ x ∈ log, x.1 = none) : requestsOf source log = [] := by
  refine List.filterMap_eq_nil_iff.mpr fun x hx => ?_
  obtain ⟨origin,event⟩ := x
  obtain rfl : origin = none := h _ hx
  rfl

/-- When a stop is past its second stage, the body of every accepted batch has returned. -/
theorem Quiet.all_ran (h : Quiet s) (hpooled : Pooled maxQueue s.use)
    (he : e ∈ s.use.log.accepted) : e ∈ s.use.log.ran := by
  have hhand := Worker.flatMap_exited Worker.inHand rfl h.exited
  have hplace := hpooled.kept.accounted.custody.mem_iff.mp he
  rw [h.queue, hhand, hpooled.calm.withdrawn, List.nil_append, List.nil_append,
    List.append_nil] at hplace
  exact Draining.finished_ran hpooled.kept hpooled.calm hplace

/-- In every interleaving of batches, requests from outside, a drain and stops: what was
performed of an accepted batch is a first part of its script, nothing as long as it is
queued, and all of it once its body has returned; no other request comes from the pool. A
stop is completed only behind the whole scripts of all batches that are ever accepted. -/
theorem batches_performed_once (h : Run step anything (serving r₀) s) :
    s.runtime = s.log.foldl (fun r x => x.2.apply r) r₀ ∧
    (∀ e ∈ s.use.log.accepted, requestsOf e.source s.log <+: script r₀.config.limits e.task ∧
      (e ∈ s.pool.queue → requestsOf e.source s.log = []) ∧
      (e ∈ s.use.log.ran → requestsOf e.source s.log = script r₀.config.limits e.task)) ∧
    (∀ source, requestsOf source s.log ≠ [] → ∃ e ∈ s.use.log.accepted, e.source = source) ∧
    ∀ before after, s.log = before ++ (none,.request .stop) :: after →
      ∀ e ∈ s.use.log.accepted, requestsOf e.source before = script r₀.config.limits e.task ∧
        requestsOf e.source after = [] := by
  have hperforming := performing_of_run h
  have hclosed := closed_of_run h
  refine ⟨runtime_of_run h,fun e he => ⟨hperforming.performed he,fun hqueued => ?_,
    hperforming.ran e⟩,fun source hmade => ?_,fun before after hsplit e he => ?_⟩
  · exact hperforming.untouched he (hperforming.pooled.not_begun_of_queued hqueued)
  · by_contra hnone
    refine hmade (hperforming.fresh source fun e he hsource => hnone ⟨e,?_,hsource⟩)
    exact hperforming.pooled.mem_accepted_of_begun he
  · have hstopped : (none,RuntimeEvent.request Call.stop) ∈ s.log :=
      hsplit ▸ List.mem_append_right _ List.mem_cons_self
    have hran := (hclosed.quiet (Or.inr hstopped)).all_ran hperforming.pooled he
    have hscript := hperforming.ran e hran
    have hlate : requestsOf e.source ((none,.request .stop) :: after) = [] := by
      refine requestsOf_outsiders fun x hx => ?_
      rcases List.mem_cons.mp hx with rfl | hafter
      · rfl
      · exact hclosed.last before after hsplit x hafter
    rw [hsplit, requestsOf_append, hlate, List.append_nil] at hscript
    exact ⟨hscript,hlate⟩

/-- One record is handed over, and a stop waits for the worker. -/
def stoppedBehindBatch : List Action :=
  [.offer [{}],.submit 0,.work 0,.beginStop,.shutdown,.work 0,.body 0,.body 0,.body 0,.body 0,
    .body 0,.work 0,.work 0,.work 0,.work 1,.work 2,.work 3,.join,.leave,.endStop]

theorem batch_performed_before_stop : ∃ s : BatchedRuntime,
    performs step (serving Session.startedDefault) stoppedBehindBatch = some s ∧
    s.runtime.state = .stopped ∧ requestsOf 0 s.log = [.ingestEvidence {},.compareAll] := by
  have hend : ((performs step (serving Session.startedDefault) stoppedBehindBatch).map fun s =>
      (s.runtime.state,s.use.log.accepted.map fun e => (e.task,e.source),
        s.use.log.ran.map fun e => (e.task,e.source))) =
      some (.stopped,[([{}],0)],[([{}],0)]) := by
    decide +kernel
  obtain ⟨s,hs,hvalue⟩ := Option.map_eq_some_iff.mp hend
  obtain ⟨hstate,hboth⟩ := Prod.mk.inj hvalue
  obtain ⟨-,hran⟩ := Prod.mk.inj hboth
  have hrun : Run step anything (serving Session.startedDefault) s :=
    Run.of_performs (fun _ _ _ => trivial) hs
  obtain ⟨e,he,hpair⟩ := List.mem_map.mp (hran ▸ List.mem_singleton_self _)
  obtain ⟨htask,hsource⟩ := Prod.mk.inj hpair
  have hpooled := (performing_of_run hrun).pooled
  have haccepted := hpooled.mem_accepted_of_begun (hpooled.mem_begun_of_ran he)
  refine ⟨s,hs,hstate,?_⟩
  have hscript := ((batches_performed_once hrun).2.1 e haccepted).2.2 he
  rw [hsource, htask] at hscript
  exact hscript

end BatchedRuntime

end PathObservatory
