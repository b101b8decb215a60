import PathObservatory.Service.Completion

/-! # What becomes of a session

Every run ends. Left alone, the service serves every connection and every process comes
to the end of its program, unless the service cannot decode a record: its process waits
for an answer that is never sent, and the service waits for the process.
-/
namespace PathObservatory
open Interleaving

/-! ## Every step uses up some work

A byte is worth less the further it has come, and an operation that has not begun is
worth more than its bytes. An answer is worth less than the frame it answers, so that
every step of the service and of its processes leaves less to be done.
-/

/-- The work in an operation that has not begun. -/
def NodeOp.work (op : NodeOp) : ℕ := 8 * op.bytes.length + 4

def NodePhase.work : NodePhase → ℕ
  | .idle => 2
  | .sending _ left => 7 * left.length + 3
  | .awaiting _ => 3
  | .done | .failed | .killed => 0

def ServePhase.work : ServePhase → ℕ
  | .listening => 8
  | .receiving call => 5 * call.gathered.length + 3
  | .replying left => 2 * left.length + 4
  | .closing => 1
  | .ended _ => 0

namespace Connection
variable {limits : Limits} {c d : Connection} {op : NodeOp} {action : Action}

def work (c : Connection) : ℕ :=
  ((c.program.drop c.position).map NodeOp.work).sum + c.phase.work + 6 * c.toService.length +
    c.toNode.length

theorem work_sendingOrIdle_le (ignored : Bool) (left : ByteString) :
    (sendingOrIdle ignored left).work ≤ 7 * left.length + 3 := by
  unfold sendingOrIdle
  split_ifs with hnil
  · simp [hnil, NodePhase.work]
  · exact le_rfl

/-- An operation that was begun is not waiting to begin any more. -/
theorem sum_work_drop (hop : c.program[c.position]? = some op) :
    ((c.program.drop c.position).map NodeOp.work).sum =
      8 * op.bytes.length + 4 + ((c.program.drop (c.position + 1)).map NodeOp.work).sum := by
  obtain ⟨hlt,rfl⟩ := List.getElem?_eq_some_iff.mp hop
  rw [List.drop_eq_getElem_cons hlt, List.map_cons, List.sum_cons]
  rfl

theorem Steps.work_lt (h : Steps limits c action d) : d.work < c.work := by
  cases h with
  | finish hphase hend => simp [work, hphase, NodePhase.work]
  | refuse hphase hop hlarge => simp [work, hphase, NodePhase.work]
  | @write op hphase hop hwrites hfits =>
    have hnext := work_sendingOrIdle_le op.ignored op.bytes
    have hbefore : c.phase.work = 2 := by rw [hphase]; rfl
    simp only [work, hbefore, sum_work_drop hop]
    omega
  | await hphase hop =>
    simp only [work, hphase, NodePhase.work, sum_work_drop hop, NodeOp.bytes]
    omega
  | @send ignored first rest hphase hfirst =>
    have hnext := work_sendingOrIdle_le ignored rest
    have hpos := List.length_pos_of_ne_nil hfirst
    have hbefore : c.phase.work = 7 * (first ++ rest).length + 3 := by rw [hphase]; rfl
    rw [List.length_append] at hbefore
    simp only [work, hbefore, List.length_append]
    omega
  | @sendFails ignored left hphase hclosed =>
    cases ignored <;> simp [work, hphase, NodePhase.work]
  | @receive call chunk rest hphase hbytes hchunk hwanted =>
    have hpos := List.length_pos_of_ne_nil hchunk
    rcases call.take limits chunk with next | e | frame
    all_goals
      simp only [work, received, hphase, hbytes, NodePhase.work, List.length_append]
      omega
  | meetsEnd hphase hclosed => simp [work, hphase, NodePhase.work]
  | killed haction hphase =>
    have hpos : 0 < c.phase.work := by
      cases hnow : c.phase <;> simp [hnow, NodePhase.work, NodePhase.gone] at hphase ⊢
    have hafter : NodePhase.killed.work = 0 := rfl
    simp only [work, hafter]
    omega

end Connection

/-- An answer is shorter than a frame that is worth twice as much. -/
theorem length_replyBytes_le (limits : Limits) (r : ObservatoryRuntime) (frame : Frame) :
    (Service.replyBytes limits (handleFrame limits r frame).1).length ≤ 28 := by
  have hpayload : ∀ payload, (handleFrame limits r frame).1 = some payload →
      payload.length = 8 := by
    intro payload h
    unfold handleFrame at h
    split at h
    · split at h <;> cases h
    · split at h
      · obtain rfl := Option.some.inj h
        split_ifs <;> decide +kernel
      · cases h
    · cases h
  cases hanswer : (handleFrame limits r frame).1 with
  | none => simp [Service.replyBytes]
  | some payload =>
    simp only [Service.replyBytes, sendable, Option.bind_some]
    split_ifs
    · simp
    · simp [encodeFrame, frameHeader, hpayload payload hanswer]

namespace Service
open Connection
variable {s t : Service} {limits : Limits} {count : ℕ} {r₀ : ObservatoryRuntime}
  {programs : List (List NodeOp)} {c d : Connection} {action : Action}

def work (s : Service) : ℕ :=
  (s.connections.map Connection.work).sum + 10 * (s.count - s.served) + s.phase.work

theorem work_replyingOrReceiving_le (left : ByteString) :
    (replyingOrReceiving left).work ≤ 2 * left.length + 4 := by
  unfold replyingOrReceiving
  split_ifs with hnil
  · simp [hnil, ServePhase.work, Receiving.fresh, Receiving.gathered]
  · exact le_rfl

/-- The work of the row when the current connection has moved. -/
theorem work_putCurrent (hc : s.current = some c) (d : Connection) :
    ((s.connections.set s.served d).map Connection.work).sum + c.work =
      (s.connections.map Connection.work).sum + d.work :=
  sum_map_set Connection.work hc d

/-- Closing a connection pays for listening again. -/
theorem work_endConnection_le (hc : s.current = some c) (hcount : s.served < s.count)
    (d : Connection) : (s.endConnection d).work + c.work + s.phase.work + 2 ≤ s.work + d.work := by
  have hrow := work_putCurrent hc { d with closed := true }
  have hsame : ({ d with closed := true } : Connection).work = d.work := rfl
  have hlistening : ServePhase.listening.work = 8 := rfl
  simp only [work, endConnection, putCurrent, hlistening]
  omega

/-- A frame that was gathered pays for its answer. -/
theorem work_dispatch_lt (hc : s.current = some c) (hcount : s.served < s.count) {frame : Frame}
    (hpaid : d.work + 64 ≤ c.work + s.phase.work) : (s.dispatch d frame).work < s.work := by
  unfold Service.dispatch
  split_ifs with hbye
  · have hclose := work_endConnection_le hc hcount { d with handled := d.handled ++ [frame] }
    have hsame : ({ d with handled := d.handled ++ [frame] } : Connection).work = d.work := rfl
    simp only
    omega
  · have hrow := work_putCurrent hc { d with handled := d.handled ++ [frame] }
    have hsame : ({ d with handled := d.handled ++ [frame] } : Connection).work = d.work := rfl
    have hreply := work_replyingOrReceiving_le
      (replyBytes s.limits (handleFrame s.limits s.runtime frame).1)
    have hshort := length_replyBytes_le s.limits s.runtime frame
    simp only [work, reply, putCurrent]
    omega

theorem Steps.work_lt (hin : InOrder limits count r₀ programs s) (h : Steps s action t) :
    t.work < s.work := by
  cases h with
  | @node i c d move haction hc hstep =>
    have hrow := sum_map_set Connection.work hc d
    have hless := hstep.work_lt
    simp only [work]
    omega
  | accept hphase hcount hc => simp [work, hphase, ServePhase.work, Receiving.fresh, Receiving.gathered]
  | acceptFails haction hphase hcount => simp [work, hphase, ServePhase.work]
  | @receive call c chunk rest hphase hc hbytes hchunk hwanted =>
    have hserving : s.phase.Serving := by rw [hphase]; trivial
    have hcount := hin.within hserving
    have hpos := List.length_pos_of_ne_nil hchunk
    have hbefore : s.phase.work = 5 * call.gathered.length + 3 := by rw [hphase]; rfl
    have htoService : ({ c with toService := rest } : Connection).work + 6 * chunk.length =
        c.work := by
      simp only [Connection.work, hbytes, List.length_append]
      omega
    have htaken := (hin.sound call hphase).take hwanted
    rw [← hin.limits_eq] at htaken
    cases htake : call.take s.limits chunk with
    | inl next =>
      rw [htake] at htaken
      have hgathered : next.gathered = call.gathered ++ chunk := by
        cases htaken with
        | going _ hgathered => exact hgathered
      have hrow := work_putCurrent hc { c with toService := rest }
      have hafter : (ServePhase.receiving next).work =
          5 * (call.gathered.length + chunk.length) + 3 := by
        rw [ServePhase.work, hgathered, List.length_append]
      simp only [received, work, putCurrent, hafter]
      omega
    | inr result =>
      rw [htake] at htaken
      cases htaken with
      | @frame f hframe hbound =>
        have hlength := congrArg List.length hframe
        rw [List.length_append, Frame.encode_eq, List.length_append, Frame.length_header] at hlength
        refine work_dispatch_lt hc hcount ?_
        simp only [kFrameHeaderBytes] at hlength
        omega
      | violation hviolation =>
        have hclose := work_endConnection_le hc hcount { c with toService := rest }
        simp only [received]
        omega
  | @meetsEnd call c hphase hc hend =>
    have hserving : s.phase.Serving := by rw [hphase]; trivial
    have hclose := work_endConnection_le hc (hin.within hserving) c
    omega
  | @send c first rest hphase hc hfirst =>
    have hrow := work_putCurrent hc { c with toNode := c.toNode ++ first }
    have hreply := work_replyingOrReceiving_le rest
    have hpos := List.length_pos_of_ne_nil hfirst
    have hbefore : s.phase.work = 2 * (first.length + rest.length) + 4 := by
      rw [hphase, ServePhase.work, List.length_append]
    have htoNode : ({ c with toNode := c.toNode ++ first } : Connection).work =
        c.work + first.length := by
      simp only [Connection.work, List.length_append]
      omega
    simp only [work, putCurrent]
    omega
  | sendFails hphase hc hgone =>
    simp [work, hphase, ServePhase.work, Receiving.fresh, Receiving.gathered]
  | finish hphase =>
    have hpos : 0 < s.phase.work := by
      rcases hphase with hphase | ⟨hphase,-⟩ <;> rw [hphase] <;> decide
    have hafter : s.finish.work =
        (s.connections.map Connection.work).sum + 10 * (s.count - s.served) := rfl
    rw [hafter, work]
    omega

/-- No run is longer than the work there is at its start. -/
theorem length_le_work {actions : List Action}
    (h : performs step (serviceWith limits count r₀ programs) actions = some s) :
    actions.length + s.work ≤ (serviceWith limits count r₀ programs).work := by
  refine length_add_le_of_performs (P := InOrder limits count r₀ programs)
    (fun s a _ t hstep hs => ?_) inOrder_start h
  have hsteps := steps_of_step hstep
  exact ⟨hs.steps hsteps,hsteps.work_lt hs⟩

end Service

/-! ## The end of a session -/

/-- The service sends an answer to the frame. -/
def answerable (limits : Limits) (f : Frame) : Bool :=
  f.isEvidence && (Codec.decodeExact (Codec.decodeEvidence limits) f.payload).isOk &&
    decide (8 ≤ limits.maxFrameBytes)

theorem length_replyFrames (limits : Limits) (r : ObservatoryRuntime) (f : Frame) :
    (replyFrames limits (handleFrame limits r f).1).length = (answerable limits f).toNat := by
  have hshort : ∀ accepted : Bool,
      (bytesOf (if accepted then "accepted" else "rejected")).length = 8 := by decide +kernel
  unfold handleFrame answerable Frame.isEvidence
  split
  · rename_i htype
    rw [htype]
    split <;> rfl
  · rename_i htype
    rw [htype]
    split
    · rename_i record hdecoded
      simp only [replyFrames, hshort, hdecoded]
      by_cases hsend : limits.maxFrameBytes < 8
      · rw [if_pos hsend]
        simp [not_le.mpr hsend]
      · rw [if_neg hsend]
        simp [not_lt.mp hsend, Except.isOk, Except.toBool]
    · rename_i e hdecoded
      rw [hdecoded]
      rfl
  · rename_i hhello hevidence
    rw [decide_eq_false hevidence]
    rfl

theorem length_answers (limits : Limits) (r : ObservatoryRuntime) (frames : List Frame) :
    (answers limits r frames).length = frames.countP (answerable limits) := by
  induction frames generalizing r with
  | nil => rfl
  | cons f rest ih =>
    rw [answers, List.length_append, length_replyFrames, ih, List.countP_cons, Nat.add_comm]
    cases answerable limits f <;> rfl

/-- The service can decode every record of the process. -/
def NodeInput.Understood (limits : Limits) (node : NodeInput) : Prop :=
  ∀ record ∈ node.evidence,
    ∃ decoded, Codec.decodeExact (Codec.decodeEvidence limits) (Codec.encodeEvidence record) =
      .ok decoded

theorem answerable_isEvidence {limits : Limits} {f : Frame} (h : answerable limits f = true) :
    f.isEvidence = true := by
  unfold answerable at h
  simp only [Bool.and_eq_true] at h
  exact h.1.1

theorem countP_answerable_le (limits : Limits) (frames : List Frame) :
    frames.countP (answerable limits) ≤ frames.countP Frame.isEvidence :=
  List.countP_mono_left fun _ _ => answerable_isEvidence

/-- Among some frames there are as many answers due as records when each record has one. -/
theorem countP_answerable_eq_iff {limits : Limits} {frames : List Frame} :
    frames.countP (answerable limits) = frames.countP Frame.isEvidence ↔
      ∀ f ∈ frames, f.isEvidence = true → answerable limits f = true := by
  constructor
  · intro h
    induction frames with
    | nil => exact nofun
    | cons f rest ih =>
      have hrest := countP_answerable_le limits rest
      rw [List.countP_cons, List.countP_cons] at h
      refine List.forall_mem_cons.mpr ⟨fun hf => ?_,ih ?_⟩
      · by_contra hnot
        rw [if_pos hf, if_neg hnot] at h
        omega
      · by_cases hf : answerable limits f = true
        · rw [if_pos hf, if_pos (answerable_isEvidence hf)] at h
          omega
        · rw [if_neg hf] at h
          split_ifs at h <;> omega
  · intro h
    exact List.countP_congr fun f hf => ⟨answerable_isEvidence,h f hf⟩

/-- An answer is due for every record the service can decode. -/
theorem NodeInput.understood_iff {limits : Limits} (hack : 8 ≤ limits.maxFrameBytes)
    {node : NodeInput} : node.Understood limits ↔
      node.frames.countP (answerable limits) = node.evidence.length := by
  rw [← node.count_awaitReply.2, countP_answerable_eq_iff]
  have hone : ∀ record : ObservedPathEvidence,
      answerable limits { type := .evidence, payload := Codec.encodeEvidence record } = true ↔
        ∃ decoded, Codec.decodeExact (Codec.decodeEvidence limits) (Codec.encodeEvidence record) =
          .ok decoded := by
    intro record
    simp only [answerable, Frame.isEvidence, decide_true, Bool.true_and, hack, Bool.and_true]
    cases Codec.decodeExact (Codec.decodeEvidence limits) (Codec.encodeEvidence record) <;>
      simp [Except.isOk, Except.toBool]
  constructor
  · intro h f hf hevidence
    simp only [frames, List.mem_append, List.mem_map, List.mem_singleton] at hf
    rcases hf with (⟨descriptor,-,rfl⟩ | ⟨record,hrecord,rfl⟩) | rfl
    · exact absurd hevidence (by simp [Frame.isEvidence])
    · exact (hone record).mpr (h record hrecord)
    · exact absurd hevidence (by simp [Frame.isEvidence])
  · intro h record hrecord
    refine (hone record).mp (h _ ?_ rfl)
    simp only [frames, List.mem_append, List.mem_map]
    exact Or.inl (Or.inr ⟨record,hrecord,rfl⟩)

namespace Service
open Connection
variable {s t : Service} {limits : Limits} {count : ℕ} {r₀ : ObservatoryRuntime}
  {nodes : List NodeInput} {c d : Connection} {action : Action} {i : ℕ}

/-- Nothing can move any more unless it is disturbed. -/
def Stuck (s : Service) : Prop := ∀ action, Undisturbed s action → s.step action = none

/-- The service waits for its current process, and the process for the service. -/
def Deadlocked (s : Service) : Prop :=
  ∃ call asked c, s.phase = .receiving call ∧ s.current = some c ∧ c.phase = .awaiting asked ∧
    c.toService = [] ∧ c.toNode = []

theorem Stuck.node (h : Stuck s) (hc : s.connections[i]? = some c) (move : Connection.Action)
    (hmove : move ≠ .killed) : c.step s.limits move = none := by
  have hallowed : Undisturbed s (.node i move) := by
    cases move with
    | killed => exact hmove rfl
    | _ => trivial
  have hnone := h _ hallowed
  simp only [step, hc, Option.bind_eq_bind, Option.bind_some] at hnone
  cases hstep : c.step s.limits move with
  | none => rfl
  | some d =>
    rw [hstep] at hnone
    cases hnone

/-- A process that cannot move is done or waits for an answer that is not there. -/
theorem Stuck.process (h : Stuck s) {node : NodeInput} {r : ObservatoryRuntime} {left : ByteString}
    (hc : s.connections[i]? = some c) (hproper : Proper node c) (hanswered : Answered limits r left c) :
    c.phase = .done ∨ ∃ call, c.phase = .awaiting call ∧ c.toNode = [] := by
  have hlive := hproper.live
  cases hphase : c.phase with
  | idle =>
    have hnone := h.node hc .beginOperation (by simp)
    simp [Connection.step, hphase] at hnone
  | sending ignored left =>
    have hpos := List.length_pos_of_ne_nil (hproper.pending ignored left hphase)
    have hnone := h.node hc (.sends 1) (by simp)
    simp only [Connection.step, hphase] at hnone
    rw [if_pos ⟨Nat.one_pos,hpos⟩] at hnone
    cases hnone
  | awaiting call =>
    refine Or.inr ⟨call,rfl,?_⟩
    by_contra hbytes
    have hpos := List.length_pos_of_ne_nil hbytes
    have hwanted := (hanswered.sound call hphase).wanted_pos
    have hnone := h.node hc (.receives 1) (by simp)
    simp only [Connection.step, hphase] at hnone
    rw [if_pos ⟨Nat.one_pos,le_min hwanted (by decide),hpos⟩] at hnone
    cases hnone
  | done => exact Or.inl rfl
  | failed =>
    rw [hphase] at hlive
    cases hlive
  | killed =>
    rw [hphase] at hlive
    cases hlive

/-- A connection that was served to its end has had its records answered, all of them. -/
theorem served_answered {node : NodeInput} {r : ObservatoryRuntime} {left : ByteString}
    (hproper : Proper node c) (hanswered : Answered limits r left c) (hclosed : c.closed = true)
    (hack : 8 ≤ limits.maxFrameBytes) : node.Understood limits ∧ c.handled = node.frames ∧
      c.replies = answers limits r node.frames ∧ c.replies.length = node.evidence.length := by
  obtain ⟨hhandled,hposition,hphase⟩ := hproper.served hclosed
  have hreplies : c.replies.length = node.evidence.length := by
    have hpaced := hproper.paced
    have hidle : c.phase.isAwaiting = false := by rcases hphase with h | h <;> rw [h] <;> rfl
    rw [hidle, List.take_of_length_le hposition, hproper.program, node.count_awaitReply.1] at hpaced
    exact hpaced
  have hreceived := hanswered.received
  rw [hhandled] at hreceived
  have hlength := hreceived.length_le
  rw [length_answers, hreplies, ← node.count_awaitReply.2] at hlength
  have hcount := le_antisymm (countP_answerable_le limits node.frames) hlength
  rw [node.count_awaitReply.2] at hcount
  refine ⟨(NodeInput.understood_iff hack).mpr hcount,hhandled,hreceived.eq_of_length ?_,hreplies⟩
  rw [length_answers, hcount, hreplies]

/-- The service and a process wait for each other over a record that has no answer. -/
theorem Stuck.not_understood {node : NodeInput} {r : ObservatoryRuntime} {call asked : Receiving}
    (hlimits : limits.maxFrameBytes < 2 ^ 32) (hack : 8 ≤ limits.maxFrameBytes)
    (hproper : Proper node c) (hsound : call.Sound limits)
    (haccounted : Accounted limits call.gathered c) (hanswered : Answered limits r [] c)
    (hopen : c.closed = false) (htoService : c.toService = [])
    (hphase : c.phase = .awaiting asked) (htoNode : c.toNode = []) : ¬ node.Understood limits := by
  obtain ⟨i,hposition,hop⟩ := hproper.asked asked hphase
  have hlt := (List.getElem?_eq_some_iff.mp hop).1
  have htake : c.program.take c.position = c.program.take i ++ [.awaitReply] := by
    rw [hposition, List.take_succ_eq_append_getElem hlt, (List.getElem?_eq_some_iff.mp hop).2]
  have hbegun : (c.program.take c.position).flatMap NodeOp.frames =
      (c.program.take i).flatMap NodeOp.frames := by
    rw [htake, List.flatMap_append]
    exact List.append_nil _
  -- every frame begun was received, and every answer that was sent
  have hhandled : c.handled = (c.program.take c.position).flatMap NodeOp.frames := by
    obtain ⟨pending,hsplit,hpending⟩ := hproper.rest_eq hlimits haccounted hopen
    rw [htoService, hphase] at hpending
    cases pending with
    | nil => rw [hsplit, List.append_nil]
    | cons f others =>
      have hbounded := bounded_of_fits haccounted.begun
      rw [hsplit] at hbounded
      refine absurd ?_ (hsound.gathered_ne_encode (others.flatMap Frame.encode)
        (hbounded f (List.mem_append_right _ List.mem_cons_self)) hlimits)
      rw [← List.flatMap_cons, ← hpending]
      simp [NodePhase.outbox]
  have hreplies : answers limits r c.handled = c.replies := by
    obtain ⟨pending,hanswers,hpending⟩ := hanswered.due (by rw [hphase]; rfl)
    rw [htoNode, hphase] at hpending
    cases pending with
    | nil => rw [hanswers, List.append_nil]
    | cons f others =>
      have hbounded := bounded_of_mem_answers limits r c.handled
      rw [hanswers] at hbounded
      refine absurd ?_ ((hanswered.sound asked hphase).gathered_ne_encode
        (others.flatMap Frame.encode)
        (hbounded f (List.mem_append_right _ List.mem_cons_self)) hlimits)
      rw [← List.flatMap_cons, ← hpending]
      simp [NodePhase.gathered]
  have hrecords : c.handled.countP Frame.isEvidence = c.replies.length + 1 := by
    have hpaced := hproper.paced
    have hasked := hop
    rw [hproper.program] at hasked
    have halternates := (node.alternates i _ hasked).1 rfl
    rw [← hproper.program] at halternates
    rw [hphase, htake, List.count_append, List.count_singleton_self] at hpaced
    rw [hhandled, hbegun, ← halternates]
    simp only [NodePhase.isAwaiting, Bool.toNat_true] at hpaced
    omega
  intro hunderstood
  have hall := (NodeInput.understood_iff hack).mp hunderstood
  rw [← node.count_awaitReply.2, countP_answerable_eq_iff] at hall
  have hhead := node.frames_take_prefix c.position
  rw [← hproper.program, ← hhandled] at hhead
  have hsame := countP_answerable_eq_iff.mpr fun f hf => hall f (hhead.subset hf)
  rw [hrecords, ← length_answers limits r, hreplies] at hsame
  omega

/-- What holds in every state of an undisturbed run. -/
theorem undisturbed_invariants (hlimits : limits.maxFrameBytes < 2 ^ 32)
    (hfits : ∀ node ∈ nodes, node.Fits limits)
    (h : Run step Undisturbed (serviceFor limits count r₀ nodes) s) :
    InOrder limits count r₀ (nodes.map NodeInput.program) s ∧ AllAnswered limits r₀ s ∧
      AllProper nodes s := by
  refine Run.invariant (P := fun s => InOrder limits count r₀ (nodes.map NodeInput.program) s ∧
    AllAnswered limits r₀ s ∧ AllProper nodes s)
    ⟨inOrder_start,allAnswered_start,allProper_start⟩
    (fun _ _ _ hallowed hstep hbefore => ?_) h
  have hsteps := steps_of_step hstep
  obtain ⟨hin,hanswered,hproper⟩ := hbefore
  exact ⟨hin.steps hsteps,hanswered.steps hlimits hin hsteps,
    hproper.steps hlimits hfits hin hanswered hsteps hallowed⟩

theorem InOrder.length_connections (h : InOrder limits count r₀ (nodes.map NodeInput.program) s) :
    s.connections.length = nodes.length := by
  have hprograms := congrArg List.length h.programs_eq
  rwa [List.length_map, List.length_map] at hprograms

/-- The connection that is being served exists. -/
theorem InOrder.exists_current
    (h : InOrder limits nodes.length r₀ (nodes.map NodeInput.program) s)
    (hserved : s.served < nodes.length) : ∃ c, s.current = some c := by
  exact ⟨_,List.getElem?_eq_getElem (h.length_connections.symm ▸ hserved)⟩

/-- A service that cannot move is at its end or waits for the rest of a frame that does
not come. -/
theorem Stuck.service (h : Stuck s)
    (hin : InOrder limits nodes.length r₀ (nodes.map NodeInput.program) s)
    (hproper : AllProper nodes s) :
    (∃ code, s.phase = .ended code) ∨ ∃ call c, s.phase = .receiving call ∧
      s.current = some c ∧ c.toService = [] ∧ atEnd c = false := by
  cases hphase : s.phase with
  | listening =>
    by_cases hcount : s.count ≤ s.served
    · have hnone := h .finish trivial
      simp only [step] at hnone
      rw [if_pos (Or.inr ⟨hphase,hcount⟩)] at hnone
      cases hnone
    · have hserved := not_le.mp hcount
      obtain ⟨c,hc⟩ := hin.exists_current (hin.count_eq ▸ hserved)
      have hnone := h .accept trivial
      simp only [step] at hnone
      rw [if_pos ⟨hphase,hserved,by rw [hc]; rfl⟩] at hnone
      cases hnone
  | receiving call =>
    have hserving : s.phase.Serving := by rw [hphase]; trivial
    obtain ⟨c,hc⟩ := hin.exists_current (hin.count_eq ▸ hin.within hserving)
    refine Or.inr ⟨call,c,rfl,hc,?_,?_⟩
    · by_contra hbytes
      have hpos := List.length_pos_of_ne_nil hbytes
      have hwanted := (hin.sound call hphase).wanted_pos
      have hnone := h (.receives 1) trivial
      simp only [step, hphase, hc] at hnone
      rw [if_pos ⟨Nat.one_pos,le_min hwanted (by decide),hpos⟩] at hnone
      cases hnone
    · by_contra hend
      have hnone := h .meetsEnd trivial
      simp only [step, hphase, hc] at hnone
      rw [if_pos (by simpa using hend)] at hnone
      cases hnone
  | replying left =>
    have hserving : s.phase.Serving := by rw [hphase]; trivial
    obtain ⟨c,hc⟩ := hin.exists_current (hin.count_eq ▸ hin.within hserving)
    have hpos := List.length_pos_of_ne_nil (hproper.left left hphase)
    have hnone := h (.sends 1) trivial
    simp only [step, hphase, hc] at hnone
    rw [if_pos ⟨Nat.one_pos,hpos⟩] at hnone
    cases hnone
  | closing => exact absurd hphase hproper.open_
  | ended code => exact Or.inl ⟨code,rfl⟩

/-- A service that has ended has served every process. -/
theorem ended_outcome (hack : 8 ≤ limits.maxFrameBytes)
    (hin : InOrder limits nodes.length r₀ (nodes.map NodeInput.program) s)
    (hanswered : AllAnswered limits r₀ s) (hproper : AllProper nodes s) (hstuck : Stuck s)
    {code : ℕ} (hend : s.phase = .ended code) {node : NodeInput}
    (hc : s.connections[i]? = some c) (hnode : nodes[i]? = some node) :
    node.Understood limits ∧ c.phase = .done ∧ c.handled = node.frames ∧
      c.replies = answers limits (before limits r₀ s i) node.frames ∧
      c.replies.length = node.evidence.length := by
  obtain ⟨other,hother,hnow⟩ := hproper.proper i c hc
  obtain rfl := Option.some.inj (hnode.symm.trans hother)
  have hcount := hproper.served code hend
  rw [hin.count_eq] at hcount
  have hclosed : c.closed = true := (hin.stands i c hc).closed_iff.mpr
    ((List.getElem?_eq_some_iff.mp hnode).1.trans_le hcount)
  obtain ⟨hunderstood,hhandled,hreplies,hlength⟩ :=
    served_answered hnow (hanswered i c hc) hclosed hack
  refine ⟨hunderstood,?_,hhandled,hreplies,hlength⟩
  rcases hstuck.process hc hnow (hanswered i c hc) with hdone | ⟨call,hawaiting,-⟩
  · exact hdone
  · rcases (hnow.served hclosed).2.2 with hphase | hphase <;> rw [hphase] at hawaiting <;>
      cases hawaiting

/-- A service that waits for the rest of a frame waits for a process that waits for an
answer. -/
theorem waiting_outcome (hlimits : limits.maxFrameBytes < 2 ^ 32) (hack : 8 ≤ limits.maxFrameBytes)
    (hin : InOrder limits nodes.length r₀ (nodes.map NodeInput.program) s)
    (hanswered : AllAnswered limits r₀ s) (hproper : AllProper nodes s) (hstuck : Stuck s)
    {call : Receiving} (hphase : s.phase = .receiving call) (hc : s.current = some c)
    (htoService : c.toService = []) (hend : atEnd c = false) :
    s.Deadlocked ∧ ∃ node ∈ nodes, ¬ node.Understood limits := by
  obtain ⟨node,hnode,hnow⟩ := hproper.proper s.served c hc
  have haccounted := (hin.stands _ c hc).accounted
  have hanswers := hanswered s.served c hc
  rw [if_pos rfl, hphase] at haccounted hanswers
  rcases hstuck.process hc hnow hanswers with hdone | ⟨asked,hawaiting,htoNode⟩
  · simp [atEnd, hdone, htoService] at hend
  · refine ⟨⟨call,asked,c,hphase,hc,hawaiting,htoService,htoNode⟩,node,
      List.mem_of_getElem? hnode,?_⟩
    exact Stuck.not_understood hlimits hack hnow (hin.sound call hphase) haccounted hanswers
      (hin.current_open hc) htoService hawaiting htoNode

/-- In an undisturbed run every connection was served in the end, so that the exit code
tells whether comparing everything and stopping succeeded. -/
theorem exitCode_of_ended (hin : InOrder limits count r₀ (nodes.map NodeInput.program) s)
    (hproper : AllProper nodes s) {code : ℕ} (hend : s.phase = .ended code) :
    code = if (closeRuntime (serveFrames limits r₀ s.frames)).1.isOk then 0 else 1 := by
  have hserved : s.served = s.count := le_antisymm hin.bounded (hproper.served code hend)
  rw [(hin.ended code hend).2]
  unfold exitCode
  cases (closeRuntime (serveFrames limits r₀ s.frames)).1 with
  | error e => rfl
  | ok _ => exact if_pos hserved

/-- A service that has ended had every process at a connection, and has handled all
that the process sends. -/
theorem served_of_ended (hack : 8 ≤ limits.maxFrameBytes)
    (hin : InOrder limits nodes.length r₀ (nodes.map NodeInput.program) s)
    (hanswered : AllAnswered limits r₀ s) (hproper : AllProper nodes s) (hstuck : Stuck s)
    {code : ℕ} (hend : s.phase = .ended code) {node : NodeInput} (hnode : nodes[i]? = some node) :
    ∃ c, s.connections[i]? = some c ∧ node.Understood limits ∧ c.handled = node.frames := by
  have hi : i < s.connections.length :=
    hin.length_connections ▸ (List.getElem?_eq_some_iff.mp hnode).1
  have hc := List.getElem?_eq_getElem hi
  obtain ⟨hunderstood,-,hhandled,-⟩ :=
    ended_outcome hack hin hanswered hproper hstuck hend hc hnode
  exact ⟨_,hc,hunderstood,hhandled⟩

/-- The frames of all processes reached it, in the order of the processes. -/
theorem frames_of_ended (hack : 8 ≤ limits.maxFrameBytes)
    (hin : InOrder limits nodes.length r₀ (nodes.map NodeInput.program) s)
    (hanswered : AllAnswered limits r₀ s) (hproper : AllProper nodes s) (hstuck : Stuck s)
    {code : ℕ} (hend : s.phase = .ended code) : s.frames = nodes.flatMap NodeInput.frames := by
  rw [frames, List.flatMap_def, List.flatMap_def]
  congr 1
  refine List.ext_getElem (by simpa using hin.length_connections) fun i hi hj => ?_
  rw [List.getElem_map, List.getElem_map]
  rw [List.length_map] at hi hj
  obtain ⟨c,hc,-,hhandled⟩ := served_of_ended hack hin hanswered hproper hstuck hend
    (List.getElem?_eq_getElem hj)
  obtain rfl := Option.some.inj ((List.getElem?_eq_getElem hi).symm.trans hc)
  exact hhandled

/-- Every run ends. An undisturbed run that cannot go on has served every process to the
end of its program if the service can decode all their records, and its exit code tells
whether comparing everything and stopping succeeded; otherwise the service and a process
wait for each other. -/
theorem session_outcome (hlimits : limits.maxFrameBytes < 2 ^ 32) (hack : 8 ≤ limits.maxFrameBytes)
    (hfits : ∀ node ∈ nodes, node.Fits limits) :
    (∀ actions t, performs step (serviceFor limits nodes.length r₀ nodes) actions = some t →
      actions.length ≤ (serviceFor limits nodes.length r₀ nodes).work) ∧
    ∀ s, Run step Undisturbed (serviceFor limits nodes.length r₀ nodes) s → Stuck s →
      ((∃ code, s.phase = .ended code) ↔ ∀ node ∈ nodes, node.Understood limits) ∧
      (∀ code, s.phase = .ended code →
        code = (if (closeRuntime
          (serveFrames limits r₀ (nodes.flatMap NodeInput.frames))).1.isOk then 0 else 1) ∧
        (∀ (i : ℕ) c node, s.connections[i]? = some c → nodes[i]? = some node →
          c.phase = .done ∧ c.handled = node.frames ∧
          c.replies = answers limits (before limits r₀ s i) node.frames ∧
          c.replies.length = node.evidence.length) ∧
        s.runtime = (closeRuntime (serveFrames limits r₀ (nodes.flatMap NodeInput.frames))).2) ∧
      ((∃ node ∈ nodes, ¬ node.Understood limits) → s.Deadlocked) := by
  refine ⟨fun actions t h => le_of_add_le_left (length_le_work h),fun s hrun hstuck => ?_⟩
  obtain ⟨hin,hanswered,hproper⟩ := undisturbed_invariants hlimits hfits hrun
  have hunderstood : (∃ code, s.phase = .ended code) → ∀ node ∈ nodes, node.Understood limits := by
    rintro ⟨code,hend⟩ node hmem
    obtain ⟨i,hnode⟩ := List.mem_iff_getElem?.mp hmem
    obtain ⟨_,-,hnow,-⟩ := served_of_ended hack hin hanswered hproper hstuck hend hnode
    exact hnow
  refine ⟨⟨hunderstood,fun hall => ?_⟩,fun code hend => ?_,fun ⟨node,hmem,hnot⟩ => ?_⟩
  · rcases hstuck.service hin hproper with hend | ⟨call,c,hphase,hc,htoService,hatEnd⟩
    · exact hend
    · obtain ⟨-,node,hmem,hnot⟩ :=
        waiting_outcome hlimits hack hin hanswered hproper hstuck hphase hc htoService hatEnd
      exact absurd (hall node hmem) hnot
  · rw [← frames_of_ended hack hin hanswered hproper hstuck hend]
    exact ⟨exitCode_of_ended hin hproper hend,fun i c node hc hnode =>
      (ended_outcome hack hin hanswered hproper hstuck hend hc hnode).2,(hin.ended code hend).1⟩
  · rcases hstuck.service hin hproper with hend | ⟨call,c,hphase,hc,htoService,hatEnd⟩
    · exact absurd (hunderstood hend node hmem) hnot
    · exact (waiting_outcome hlimits hack hin hanswered hproper hstuck hphase hc htoService
        hatEnd).1

/-- A service that waits for a process which waits for the service cannot move where no
other process can. -/
theorem stuck_of_waiting {call : Receiving} (hphase : s.phase = .receiving call)
    (hcurrent : s.current = some c) (htoService : c.toService = [])
    (hwaiting : ∀ (i : ℕ) d, s.connections[i]? = some d →
      ∃ asked, d.phase = .awaiting asked ∧ d.toNode = [] ∧ d.closed = false) : Stuck s := by
  obtain ⟨asked,hasked,-,-⟩ := hwaiting _ c hcurrent
  intro action hallowed
  cases action with
  | node i move =>
    simp only [step]
    cases hd : s.connections[i]? with
    | none => rfl
    | some d =>
      obtain ⟨asked,hasked,htoNode,hclosed⟩ := hwaiting i d hd
      have hnone : d.step s.limits move = none := by
        cases move with
        | killed => exact hallowed.elim
        | receives amount =>
          simp only [Connection.step, hasked]
          refine if_neg fun hguard => ?_
          rw [htoNode, List.length_nil] at hguard
          omega
        | _ => simp [Connection.step, hasked, hclosed]
      simp only [Option.bind_eq_bind, Option.bind_some, hnone, Option.bind_none]
  | receives amount =>
    simp only [step, hphase, hcurrent]
    refine if_neg fun hguard => ?_
    rw [htoService, List.length_nil] at hguard
    omega
  | meetsEnd => simp [step, hphase, hcurrent, atEnd, hasked]
  | acceptFails => exact hallowed.elim
  | _ => simp [step, hphase]

/-- A process whose record carries no identity. -/
def nameless : NodeInput where
  sources := []
  evidence := [{}]

/-- The record is sent and received, and the process asks for its answer. -/
def namelessSession : List Action :=
  let size := (Frame.encode { type := .evidence, payload := Codec.encodeEvidence {} }).length
  [.accept,.node 0 .beginOperation,.node 0 (.sends size),.receives kFrameHeaderBytes,
    .receives (size - kFrameHeaderBytes),.node 0 .beginOperation]

/-- The decoder refuses the record, so that both ends wait for ever. -/
theorem nameless_record_hangs :
    ∃ s, performs step (serviceFor {} 1 Session.startedDefault [nameless]) namelessSession =
        some s ∧
      Run step Undisturbed (serviceFor {} 1 Session.startedDefault [nameless]) s ∧ Stuck s ∧
      s.Deadlocked ∧ ¬ ∃ code, s.phase = .ended code := by
  have hservice : ((performs step (serviceFor {} 1 Session.startedDefault [nameless])
      namelessSession).map fun s => (s.phase,s.served)) = some (.receiving .fresh,0) := by
    decide +kernel
  have hprocess : ((performs step (serviceFor {} 1 Session.startedDefault [nameless])
      namelessSession).map fun s => s.connections.map fun c =>
        (c.phase,c.toService ++ c.toNode,c.closed)) = some [(.awaiting .fresh,[],false)] := by
    decide +kernel
  obtain ⟨s,hs,hfinal⟩ := Option.map_eq_some_iff.mp hservice
  obtain ⟨hphase,hserved⟩ := Prod.mk.inj hfinal
  rw [hs] at hprocess
  obtain ⟨c,hrow,hc⟩ := List.map_eq_singleton_iff.mp (Option.some.inj hprocess)
  obtain ⟨hasked,hbytes,hclosed⟩ : c.phase = .awaiting .fresh ∧ c.toService ++ c.toNode = [] ∧
      c.closed = false := by simpa using hc
  obtain ⟨htoService,htoNode⟩ := List.append_eq_nil_iff.mp hbytes
  have hcurrent : s.current = some c := by
    rw [current, hrow, hserved]
    rfl
  have hrun : Run step Undisturbed (serviceFor {} 1 Session.startedDefault [nameless]) s := by
    refine Run.of_performs (fun t action haction => ?_) hs
    simp only [namelessSession, List.mem_cons, List.not_mem_nil, or_false] at haction
    rcases haction with rfl | rfl | rfl | rfl | rfl | rfl <;> trivial
  have hstuck : Stuck s := by
    refine stuck_of_waiting hphase hcurrent htoService fun i d hd => ?_
    have hmem := List.mem_of_getElem? hd
    rw [hrow] at hmem
    obtain rfl := List.mem_singleton.mp hmem
    exact ⟨_,hasked,htoNode,hclosed⟩
  have hfits : ∀ node ∈ [nameless], node.Fits {} := by decide +kernel
  have hrefused : (Codec.decodeExact (Codec.decodeEvidence {})
      (Codec.encodeEvidence {})).isOk = false := by decide +kernel
  have hmisunderstood : ¬ nameless.Understood {} := by
    intro hunderstood
    obtain ⟨decoded,hdecoded⟩ := hunderstood {} (List.mem_singleton_self _)
    rw [hdecoded] at hrefused
    cases hrefused
  obtain ⟨hended,-,hdeadlocked⟩ := (session_outcome (by decide) (by decide) hfits).2 s hrun hstuck
  have hmem : nameless ∈ [nameless] := List.mem_singleton_self _
  exact ⟨s,hs,hrun,hstuck,hdeadlocked ⟨nameless,hmem,hmisunderstood⟩,
    fun hcode => hmisunderstood (hended.mp hcode nameless hmem)⟩

end Service

end PathObservatory
