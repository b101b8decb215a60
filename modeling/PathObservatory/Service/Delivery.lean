import PathObservatory.Runtime.CurrentPlan
import PathObservatory.Service.Nodes

/-! # What reaches the runtime

Of whatever is written on its connections the service makes requests to the runtime, in
the order of the connections and of the frames on each. An observing process has no
frame lost, repeated or overtaken, and at most one of its records is unanswered.
-/
namespace PathObservatory
open Interleaving

/-- The request that a frame makes. -/
def callOf (limits : Limits) (frame : Frame) : Option ObservatoryRuntime.Call :=
  match frame.type with
  | .hello =>
    match Codec.decodeExact (Codec.decodeSourceDescriptor limits) frame.payload with
    | .ok descriptor => some (.registerSource descriptor)
    | .error _ => none
  | .evidence =>
    match Codec.decodeExact (Codec.decodeEvidence limits) frame.payload with
    | .ok evidence => some (.ingestEvidence evidence)
    | .error _ => none
  | _ => none

theorem handleFrame_eq_perform (limits : Limits) (r : ObservatoryRuntime) (frame : Frame) :
    (handleFrame limits r frame).2 = (callOf limits frame).elim r r.perform := by
  cases htype : frame.type with
  | hello =>
    simp only [handleFrame, callOf, htype]
    cases Codec.decodeExact (Codec.decodeSourceDescriptor limits) frame.payload <;> rfl
  | evidence =>
    simp only [handleFrame, callOf, htype]
    cases Codec.decodeExact (Codec.decodeEvidence limits) frame.payload <;> rfl
  | _ =>
    simp only [handleFrame, callOf, htype]
    rfl

/-- Serving frames is performing the requests they make. -/
theorem serveFrames_eq_perform (limits : Limits) (r : ObservatoryRuntime) (frames : List Frame) :
    serveFrames limits r frames =
      (frames.filterMap (callOf limits)).foldl ObservatoryRuntime.perform r := by
  induction frames generalizing r with
  | nil => rfl
  | cons frame rest ih =>
    have hstep := handleFrame_eq_perform limits r frame
    have hrest : serveFrames limits r (frame :: rest) =
        serveFrames limits (handleFrame limits r frame).2 rest := rfl
    rw [hrest, ih, hstep]
    cases hcall : callOf limits frame with
    | none =>
      rw [List.filterMap_cons_none hcall]
      rfl
    | some call =>
      rw [List.filterMap_cons_some hcall]
      rfl

theorem reachable_serveFrames {limits : Limits} {r : ObservatoryRuntime} (h : r.Reachable)
    (frames : List Frame) : (serveFrames limits r frames).Reachable := by
  rw [serveFrames_eq_perform]
  induction frames.filterMap (callOf limits) generalizing r with
  | nil => exact h
  | cons call rest ih => exact ih (h.call call)

theorem reachable_closeRuntime {r : ObservatoryRuntime} (h : r.Reachable) :
    (Service.closeRuntime r).2.Reachable := by
  have hcompared : r.compareAll.2.Reachable := h.call .compareAll
  unfold Service.closeRuntime
  split
  · rename_i hresult
    rw [hresult] at hcompared
    exact hcompared
  · rename_i hresult
    rw [hresult] at hcompared
    exact hcompared.call .stop

namespace Connection
variable {limits : Limits} {gathered : ByteString} {c d : Connection} {node : NodeInput}
  {action : Action}

/-- What was written are the frames of the operations begun. -/
theorem written_eq (hprogram : c.program = node.program) :
    c.written = ((c.program.take c.position).flatMap NodeOp.frames).flatMap Frame.encode := by
  refine bytes_eq_frames fun op hop => node.framed op ?_
  rw [← hprogram]
  exact List.mem_of_mem_take hop

/-- The frames received are a first part of the frames begun. -/
theorem Accounted.handled_prefix (hlimits : limits.maxFrameBytes < 2 ^ 32)
    (h : Accounted limits gathered c) (hprogram : c.program = node.program) :
    c.handled <+: (c.program.take c.position).flatMap NodeOp.frames := by
  have hbytes := h.handled
  rw [written_eq hprogram] at hbytes
  exact frames_prefixCode.prefix_of_flatMap (fun f _ => f.encode_ne_nil)
    (fun f hf => (h.bounded f hf).trans_lt hlimits)
    (fun f hf => (bounded_of_fits h.begun f hf).trans_lt hlimits) hbytes

/-- The records whose sending was begun. -/
def recordsBegun (c : Connection) : ℕ :=
  ((c.program.take c.position).flatMap NodeOp.frames).countP Frame.isEvidence

/-- A process asks for an answer to each record before it goes on to the next one. -/
structure Paced (c : Connection) : Prop where
  alternates : Alternates c.program
  records : c.recordsBegun ≤ c.replies.length + 1
  asked : c.phase.aborted = false → c.phase.isAwaiting = false →
    (c.program.take c.position).count .awaitReply = c.replies.length
  awaiting : c.phase.isAwaiting = true → c.recordsBegun = c.replies.length + 1 ∧
    (c.program.take c.position).count .awaitReply = c.replies.length + 1

theorem paced_start (node : NodeInput) : Paced { program := node.program } :=
  ⟨node.alternates,by simp [recordsBegun],fun _ _ => by simp,nofun⟩

/-- The process turns to something else than waiting, or leaves. -/
theorem Paced.of_phase (h : Paced c) {toService : ByteString} {phase : NodePhase}
    (hawaiting : phase.isAwaiting = false)
    (hphase : phase.aborted = false → c.phase.aborted = false ∧ c.phase.isAwaiting = false) :
    Paced { c with toService := toService, phase := phase } := by
  refine ⟨h.alternates,h.records,fun hlive _ => ?_,fun hnow => ?_⟩
  · obtain ⟨hbefore,hnot⟩ := hphase hlive
    exact h.asked hbefore hnot
  · have hnow : phase.isAwaiting = true := hnow
    rw [hawaiting] at hnow
    cases hnow

theorem Paced.of_aborted (h : Paced c) {toService : ByteString} {phase : NodePhase}
    (hawaiting : phase.isAwaiting = false) (haborted : phase.aborted = true) :
    Paced { c with toService := toService, phase := phase } := by
  refine h.of_phase hawaiting fun hlive => ?_
  rw [haborted] at hlive
  cases hlive

theorem isAwaiting_sendingOrIdle {ignored : Bool} {left : ByteString} :
    (sendingOrIdle ignored left).isAwaiting = false := by
  unfold sendingOrIdle
  split_ifs <;> rfl

theorem Paced.steps (h : Paced c) (hstep : Steps limits c action d) : Paced d := by
  cases hstep with
  | finish hphase =>
    refine h.of_phase rfl fun _ => ?_
    rw [hphase]
    exact ⟨rfl,rfl⟩
  | refuse => exact h.of_aborted rfl rfl
  | @write op hphase hop hwrites hfits =>
    obtain ⟨hlt,hget⟩ := List.getElem?_eq_some_iff.mp hop
    have hasked := h.asked (by rw [hphase]; rfl) (by rw [hphase]; rfl)
    have hnot : op ≠ .awaitReply := by
      rintro rfl
      exact hwrites
    have htake : c.program.take (c.position + 1) = c.program.take c.position ++ [op] := by
      rw [List.take_succ_eq_append_getElem hlt, hget]
    have hone : op.frames.countP Frame.isEvidence ≤ 1 := by
      cases op with
      | send type payload => exact List.countP_le_length
      | raw bytes => exact Nat.zero_le _
      | awaitReply => exact Nat.zero_le _
    refine ⟨h.alternates,?_,fun _ _ => ?_,fun hnow => ?_⟩
    · have hrecords := h.records
      simp only [recordsBegun, htake, List.flatMap_append, List.countP_append, List.flatMap_cons,
        List.flatMap_nil, List.append_nil] at hrecords ⊢
      by_cases hevidence : op.frames.countP Frame.isEvidence = 0
      · rw [hevidence]
        exact hrecords
      · have hbefore := (h.alternates c.position op hop).2 hevidence
        rw [← hbefore, hasked]
        omega
    · rw [htake, List.count_append, hasked]
      simp [hnot]
    · rw [isAwaiting_sendingOrIdle] at hnow
      cases hnow
  | await hphase hop =>
    obtain ⟨hlt,hget⟩ := List.getElem?_eq_some_iff.mp hop
    have hasked := h.asked (by rw [hphase]; rfl) (by rw [hphase]; rfl)
    have htake : c.program.take (c.position + 1) = c.program.take c.position ++ [.awaitReply] := by
      rw [List.take_succ_eq_append_getElem hlt, hget]
    have hbehind := (h.alternates c.position _ hop).1 rfl
    rw [hasked] at hbehind
    have hbegun : ({ c with position := c.position + 1, phase := .awaiting .fresh } :
        Connection).recordsBegun = c.replies.length + 1 := by
      simp only [recordsBegun, htake, List.flatMap_append, NodeOp.frames, List.flatMap_cons,
        List.flatMap_nil, List.append_nil]
      exact hbehind.symm
    refine ⟨h.alternates,hbegun.le,fun _ hnow => ?_,fun _ => ⟨hbegun,?_⟩⟩
    · cases hnow
    · rw [htake, List.count_append, hasked]
      rfl
  | send hphase hfirst =>
    refine h.of_phase isAwaiting_sendingOrIdle fun _ => ?_
    rw [hphase]
    exact ⟨rfl,rfl⟩
  | @sendFails ignored left hphase hclosed =>
    refine h.of_phase ?_ fun _ => ?_
    · cases ignored <;> rfl
    · rw [hphase]
      exact ⟨rfl,rfl⟩
  | @receive call chunk rest hphase hbytes hchunk hwanted =>
    have hbegun := h.awaiting (by rw [hphase]; rfl)
    rcases call.take limits chunk with next | e | frame
    · refine ⟨h.alternates,h.records,fun _ hnot => ?_,fun _ => hbegun⟩
      cases hnot
    · refine ⟨h.alternates,h.records,fun hlive => ?_,fun hnow => ?_⟩
      · cases hlive
      · cases hnow
    · refine ⟨h.alternates,?_,fun _ _ => ?_,fun hnow => ?_⟩
      · have hrecords := hbegun.1
        simp only [received, List.length_append, List.length_singleton, recordsBegun] at hrecords ⊢
        omega
      · simp only [received, List.length_append, List.length_singleton]
        exact hbegun.2
      · cases hnow
  | meetsEnd => exact h.of_aborted rfl rfl
  | killed => exact h.of_aborted rfl rfl

end Connection

namespace Service
open Connection
variable {s t : Service} {limits : Limits} {count : ℕ} {r₀ : ObservatoryRuntime}
  {programs : List (List NodeOp)} {nodes : List NodeInput} {action : Action}

/-- Whatever the peers write and in whatever pieces it arrives, the service has received
the whole frames at the front of what each of them wrote, and the runtime has performed
the requests of these frames, connection after connection. -/
theorem runtime_follows_frames (h : Run step anything (serviceWith limits count r₀ programs) s) :
    (∀ (i : ℕ) c, s.connections[i]? = some c → programs[i]? = some c.program ∧
      c.handled.flatMap Frame.encode <+: c.written ∧ (s.served < i → c.handled = [])) ∧
    ((∀ code, s.phase ≠ .ended code) → s.runtime =
      (s.frames.filterMap (callOf limits)).foldl ObservatoryRuntime.perform r₀) ∧
    (∀ code, s.phase = .ended code → s.runtime = (closeRuntime
      ((s.frames.filterMap (callOf limits)).foldl ObservatoryRuntime.perform r₀)).2) ∧
    (r₀.Reachable → s.runtime.Reachable) := by
  have hin := InOrder.of_run h
  refine ⟨fun i c hc => ⟨?_,(hin.stands i c hc).accounted.handled,
    fun hlater => (hin.stands i c hc).untouched (Or.inl hlater)⟩,fun hlive => ?_,
    fun code hcode => ?_,fun hreachable => ?_⟩
  · rw [← hin.programs_eq, List.getElem?_map, hc]
    rfl
  · rw [hin.runtime hlive, serveFrames_eq_perform]
  · rw [(hin.ended code hcode).1, serveFrames_eq_perform]
  · by_cases hlive : ∀ code, s.phase ≠ .ended code
    · rw [hin.runtime hlive]
      exact reachable_serveFrames hreachable _
    · obtain ⟨code,hcode⟩ := not_forall.mp hlive
      rw [(hin.ended code (not_not.mp hcode)).1]
      exact reachable_closeRuntime (reachable_serveFrames hreachable _)

/-- A peer that announces a source and goes on with bytes which are no frame. -/
def intruder : List NodeOp :=
  [.send .hello (Codec.encodeSource ObservatoryRuntime.authoritySource),
    .raw ((List.range 24).map fun i => UInt8.ofNat (0x40 + i))]

/-- A peer that announces a source and says goodbye. -/
def guest : List NodeOp :=
  [.send .hello (Codec.encodeSource ObservatoryRuntime.probeSource),.send .bye []]

/-- The guest writes before its turn; the service turns away from the intruder. -/
def twoPeers : List Action :=
  [.node 0 .beginOperation,.node 1 .beginOperation,.accept,.node 1 (.sends 80),
    .node 0 (.sends 30),.receives 20,.node 0 (.sends 50),.receives 30,.receives 30,
    .node 1 .beginOperation,.node 0 .beginOperation,.node 0 (.sends 24),.receives 20,
    .node 1 (.sends 20),.accept,.receives 20,.receives 60,.receives 20,.finish]

theorem junk_reaches_nothing : ∃ s : Service,
    performs step (serviceWith {} 2 Session.startedDefault [intruder,guest]) twoPeers = some s ∧
    s.phase = .ended 0 ∧ s.connections.map (·.handled.length) = [1,2] ∧
    s.runtime = (closeRuntime
      ([.registerSource ObservatoryRuntime.authoritySource,
        .registerSource ObservatoryRuntime.probeSource].foldl ObservatoryRuntime.perform
          Session.startedDefault)).2 := by
  have hend : ((performs step (serviceWith {} 2 Session.startedDefault [intruder,guest])
      twoPeers).map fun s =>
        (s.phase,s.connections.map (·.handled.length),s.frames.filterMap (callOf {}))) =
      some (.ended 0,[1,2],[.registerSource ObservatoryRuntime.authoritySource,
        .registerSource ObservatoryRuntime.probeSource]) := by decide +kernel
  obtain ⟨s,hs,hfinal⟩ := Option.map_eq_some_iff.mp hend
  obtain ⟨hphase,hfinal⟩ := Prod.mk.inj hfinal
  obtain ⟨hhandled,hcalls⟩ := Prod.mk.inj hfinal
  have hrun : Run step anything (serviceWith {} 2 Session.startedDefault [intruder,guest]) s :=
    Run.of_performs (fun _ _ _ => trivial) hs
  have hruntime := (runtime_follows_frames hrun).2.2.1 0 hphase
  rw [hcalls] at hruntime
  exact ⟨s,hs,hphase,hhandled,hruntime⟩

/-- The service before its first connection, with processes that stream these inputs. -/
def serviceFor (limits : Limits) (count : ℕ) (r : ObservatoryRuntime) (nodes : List NodeInput) :
    Service :=
  serviceWith limits count r (nodes.map NodeInput.program)

theorem paced_of_run (h : Run step anything (serviceFor limits count r₀ nodes) s) :
    ∀ (i : ℕ) c, s.connections[i]? = some c → Paced c := by
  refine Run.invariant (P := fun s : Service => ∀ (i : ℕ) c, s.connections[i]? = some c → Paced c)
    (fun i c hc => ?_) (fun s action t _ hstep hbefore => ?_) h
  · obtain ⟨node,-,rfl⟩ : ∃ node, nodes[i]? = some node ∧
        ({ program := node.program } : Connection) = c := by
      simpa [serviceFor, serviceWith] using hc
    exact paced_start node
  · -- the service changes nothing of what the pace of a process is about
    have hsame : ∀ {c d : Connection}, Paced c → d.program = c.program →
        d.position = c.position →
        d.phase = c.phase → d.replies = c.replies → Paced d := by
      intro c d hc hprogram hposition hphase hreplies
      have hbegun : d.recordsBegun = c.recordsBegun := by
        rw [recordsBegun, hprogram, hposition, recordsBegun]
      refine ⟨?_,?_,?_,?_⟩
      · rw [hprogram]
        exact hc.alternates
      · rw [hbegun, hreplies]
        exact hc.records
      · rw [hprogram, hposition, hphase, hreplies]
        exact hc.asked
      · rw [hbegun, hprogram, hposition, hphase, hreplies]
        exact hc.awaiting
    have hput : ∀ {c d : Connection}, s.current = some c → d.program = c.program →
        d.position = c.position → d.phase = c.phase → d.replies = c.replies →
        ∀ (i : ℕ) w, (s.connections.set s.served d)[i]? = some w → Paced w :=
      fun hc hprogram hposition hphase hreplies =>
        forall_set (fun j w hw _ => hbefore j w hw)
          (hsame (hbefore _ _ hc) hprogram hposition hphase hreplies)
    cases steps_of_step hstep with
    | node haction hc hmove =>
      exact forall_set (fun j w hw _ => hbefore j w hw) ((hbefore _ _ hc).steps hmove)
    | accept | acceptFails | sendFails | finish => exact hbefore
    | @receive call c chunk rest hphase hc =>
      rcases call.take s.limits chunk with next | e | frame
      · exact hput hc rfl rfl rfl rfl
      · exact hput hc rfl rfl rfl rfl
      · simp only [received, Service.dispatch]
        split_ifs <;> exact hput hc rfl rfl rfl rfl
    | meetsEnd hphase hc => exact hput hc rfl rfl rfl rfl
    | send hphase hc => exact hput hc rfl rfl rfl rfl

/-- The frames of a process are received in order, none lost or repeated; the answers it
has are those of the service to its own records, in order, and at most one is missing. -/
theorem process_served_in_order (hlimits : limits.maxFrameBytes < 2 ^ 32)
    (h : Run step anything (serviceFor limits count r₀ nodes) s) {i : ℕ} {c : Connection}
    {node : NodeInput} (hc : s.connections[i]? = some c) (hnode : nodes[i]? = some node) :
    c.handled <+: node.frames ∧ c.replies <+: answers limits (before limits r₀ s i) c.handled ∧
      c.handled.countP Frame.isEvidence ≤ c.replies.length + 1 := by
  have hin := InOrder.of_run h
  have hprogram : c.program = node.program := by
    have hat := congrArg (·[i]?) hin.programs_eq
    simp only [List.getElem?_map, hc, hnode, Option.map_some, Option.some.injEq] at hat
    exact hat
  have hhead := (hin.stands i c hc).accounted.handled_prefix hlimits hprogram
  have hwhole := node.frames_take_prefix c.position
  rw [← hprogram] at hwhole
  refine ⟨hhead.trans hwhole,(allAnswered_of_run hlimits h i c hc).received,?_⟩
  exact (hhead.sublist.countP_le).trans (paced_of_run h i c hc).records

/-- A process that announces one source and sends one record. -/
def observing : NodeInput where
  sources := [ObservatoryRuntime.probeSource]
  evidence := [{ ComparisonEngine.sampleEvidence 1 1 [] with routeGeneration := ⟨⟨1⟩⟩ }.seal_]

/-- The announcement arrives in two pieces, and so does the answer to the record. -/
def observingSession : List Action :=
  [.accept,.node 0 .beginOperation,.node 0 (.sends 30),.receives 20,.receives 10,
    .node 0 (.sends 50),.receives 50,.node 0 .beginOperation,.node 0 (.sends 229),.receives 20,
    .receives 209,.sends 28,.node 0 .beginOperation,.node 0 (.receives 20),.node 0 (.receives 8),
    .node 0 .beginOperation,.node 0 (.sends 20),.receives 20]

theorem record_answered : ∃ (s : Service) (c : Connection),
    performs step (serviceFor {} 1 Session.startedDefault [observing]) observingSession = some s ∧
    s.connections[0]? = some c ∧ c.handled.length = 3 ∧ c.replies.length = 1 ∧
    c.handled <+: observing.frames ∧
    c.replies <+: answers {} (before {} Session.startedDefault s 0) c.handled := by
  have hend : ((performs step (serviceFor {} 1 Session.startedDefault [observing])
      observingSession).map fun s =>
        s.connections.map fun c => (c.handled.length,c.replies.length)) = some [(3,1)] := by
    decide +kernel
  obtain ⟨s,hs,hcounts⟩ := Option.map_eq_some_iff.mp hend
  obtain ⟨c,hconnections,hcount⟩ := List.map_eq_singleton_iff.mp hcounts
  obtain ⟨hhandled,hreplies⟩ := Prod.mk.inj hcount
  have hc : s.connections[0]? = some c := by rw [hconnections]; rfl
  have hrun : Run step anything (serviceFor {} 1 Session.startedDefault [observing]) s :=
    Run.of_performs (fun _ _ _ => trivial) hs
  obtain ⟨hreceived,hanswers,-⟩ := process_served_in_order (by decide) hrun hc rfl
  exact ⟨s,c,hs,hc,hhandled,hreplies,hreceived,hanswers⟩

end Service

end PathObservatory
