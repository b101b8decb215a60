import PathObservatory.Service.InOrder

/-! # Every process receives the answers to its own records

What the service sends on a connection are the answers to the frames received on it,
computed on the runtime that all earlier frames have left. The process receives a first
part of them, in order.
-/
namespace PathObservatory
open Interleaving

theorem FrameType.toUInt16_injective : Function.Injective FrameType.toUInt16 := by
  intro a b h
  have hparsed := congrArg FrameType.parse h
  rw [FrameType.parse_toUInt16, FrameType.parse_toUInt16] at hparsed
  exact Except.ok.inj hparsed

/-- The payloads whose length the header can say. -/
def Frame.Countable : Set Frame := {f | f.payload.length < 2 ^ 32}

/-- Frames are told apart by what is written for them. -/
theorem frames_prefixCode : PrefixCodeOn Frame.encode Frame.Countable := by
  intro f hf g hg s t heq
  rw [Frame.encode_eq, Frame.encode_eq, List.append_assoc, List.append_assoc] at heq
  obtain ⟨hheader,hrest⟩ := List.append_inj heq (by simp)
  have hfields := f.header_fields
  rw [hheader] at hfields
  obtain ⟨-,-,htype,hflags,hcount,-⟩ := hfields
  obtain ⟨-,-,htype',hflags',hcount',-⟩ := g.header_fields
  have hlength : f.payload.length = g.payload.length := by
    have hword := congrArg UInt32.toNat (hcount.symm.trans hcount')
    have hf : f.payload.length < 4294967296 := hf
    have hg : g.payload.length < 4294967296 := hg
    simpa [Nat.mod_eq_of_lt hf, Nat.mod_eq_of_lt hg] using hword
  obtain ⟨hpayload,rfl⟩ := List.append_inj hrest hlength
  refine ⟨?_,rfl⟩
  obtain ⟨type,flags,payload⟩ := f
  have htypes : type = g.type := FrameType.toUInt16_injective (htype.symm.trans htype')
  have hflag : flags = g.flags := hflags.symm.trans hflags'
  simp only at hpayload
  rw [htypes, hflag, hpayload]

theorem Frame.encode_ne_nil (f : Frame) : f.encode ≠ [] := by
  intro hnil
  have hlength := congrArg List.length hnil
  rw [Frame.encode_eq, List.length_append, Frame.length_header] at hlength
  exact absurd hlength (by simp [kFrameHeaderBytes])

/-- The answer to a frame, unless there is none or it cannot be sent. -/
def replyFrames (limits : Limits) (payload : Option ByteString) : List Frame :=
  match payload with
  | none => []
  | some payload =>
    if limits.maxFrameBytes < payload.length then [] else [{ type := .ack, payload := payload }]

theorem replyBytes_eq (limits : Limits) (payload : Option ByteString) :
    Service.replyBytes limits payload = (replyFrames limits payload).flatMap Frame.encode := by
  cases payload with
  | none => rfl
  | some payload =>
    simp only [Service.replyBytes, replyFrames, sendable, Option.bind_some]
    split_ifs
    · rfl
    · exact (List.append_nil _).symm

/-- The answers to some frames, each on the runtime that the earlier ones leave. -/
def answers (limits : Limits) (r : ObservatoryRuntime) : List Frame → List Frame
  | [] => []
  | frame :: rest =>
    replyFrames limits (handleFrame limits r frame).1 ++
      answers limits (handleFrame limits r frame).2 rest

theorem answers_concat (limits : Limits) (r : ObservatoryRuntime) (frames : List Frame)
    (frame : Frame) : answers limits r (frames ++ [frame]) = answers limits r frames ++
      replyFrames limits (handleFrame limits (serveFrames limits r frames) frame).1 := by
  induction frames generalizing r with
  | nil => simp [answers, serveFrames]
  | cons first rest ih =>
    rw [List.cons_append, answers, answers, ih, List.append_assoc]
    rfl

/-- What cannot be sent is no answer. -/
theorem bounded_of_mem_replyFrames {limits : Limits} {payload : Option ByteString} :
    ∀ f ∈ replyFrames limits payload, f.payload.length ≤ limits.maxFrameBytes := by
  intro f hf
  unfold replyFrames at hf
  split at hf
  · cases hf
  · split_ifs at hf with hbound
    · cases hf
    · obtain rfl := List.mem_singleton.mp hf
      exact not_lt.mp hbound

theorem bounded_of_mem_answers (limits : Limits) (r : ObservatoryRuntime) (frames : List Frame) :
    ∀ f ∈ answers limits r frames, f.payload.length ≤ limits.maxFrameBytes := by
  induction frames generalizing r with
  | nil => exact nofun
  | cons first rest ih =>
    intro f hf
    rcases List.mem_append.mp hf with hf | hf
    · exact bounded_of_mem_replyFrames f hf
    · exact ih _ f hf

namespace Connection
variable {limits : Limits} {r : ObservatoryRuntime} {left : ByteString} {c d : Connection}
  {action : Action}

/-- The answers due on a connection are the ones received, the one being received, what
is in flight and what the service has still to hand over. -/
structure Answered (limits : Limits) (r : ObservatoryRuntime) (left : ByteString)
    (c : Connection) : Prop where
  sound : ∀ call, c.phase = .awaiting call → call.Sound limits
  received : c.replies <+: answers limits r c.handled
  due : c.phase.gone = false → ∃ pending, answers limits r c.handled = c.replies ++ pending ∧
    c.phase.gathered ++ c.toNode ++ left = pending.flatMap Frame.encode

/-- The process turns to something else than receiving, or leaves. -/
theorem Answered.of_phase (h : Answered limits r left c) {d : Connection}
    (hsame : d.replies = c.replies ∧ d.handled = c.handled ∧ d.toNode = c.toNode)
    (hsound : ∀ call, d.phase = .awaiting call → call.Sound limits)
    (hphase : d.phase.gone = false → c.phase.gone = false ∧
      d.phase.gathered = c.phase.gathered) : Answered limits r left d := by
  obtain ⟨hreplies,hhandled,htoNode⟩ := hsame
  refine ⟨hsound,?_,fun hstays => ?_⟩
  · rw [hreplies, hhandled]
    exact h.received
  · obtain ⟨hgone,hgathered⟩ := hphase hstays
    rw [hreplies, hhandled, htoNode, hgathered]
    exact h.due hgone

/-- Bytes of an answer were received. -/
theorem Answered.receive (hlimits : limits.maxFrameBytes < 2 ^ 32) (h : Answered limits r left c)
    {call : Receiving} {chunk rest : ByteString} (hphase : c.phase = .awaiting call)
    (hbytes : c.toNode = chunk ++ rest) (hwanted : chunk.length ≤ call.wanted) :
    Answered limits r left ({ c with toNode := rest }.received (call.take limits chunk)) := by
  have htaken := (h.sound call hphase).take hwanted
  obtain ⟨pending,hanswers,hpending⟩ := h.due (by rw [hphase]; rfl)
  rw [hphase, hbytes] at hpending
  simp only [NodePhase.gathered] at hpending
  cases htake : call.take limits chunk with
  | inl next =>
    rw [htake] at htaken
    obtain ⟨hsound,hgathered⟩ : next.Sound limits ∧ next.gathered = call.gathered ++ chunk := by
      cases htaken with
      | going hsound hgathered => exact ⟨hsound,hgathered⟩
    have hnow : next.gathered ++ rest ++ left = pending.flatMap Frame.encode := by
      rw [hgathered, ← hpending]
      simp only [List.append_assoc]
    refine ⟨fun other hother => ?_,h.received,fun _ => ⟨pending,hanswers,hnow⟩⟩
    cases hother
    exact hsound
  | inr result =>
    rw [htake] at htaken
    cases htaken with
    | @frame f hframe hbound =>
      have hcountable := bounded_of_mem_answers limits r c.handled
      rw [hanswers] at hcountable
      have heq : f.encode ++ (rest ++ left) = pending.flatMap Frame.encode := by
        rw [← hpending, ← hframe]
        simp only [List.append_assoc]
      obtain ⟨behind,rfl,hbehind⟩ := frames_prefixCode.cons_of_flatMap (hbound.trans_lt hlimits)
        f.encode_ne_nil (fun g hg => (hcountable g (List.mem_append_right _ hg)).trans_lt hlimits) heq
      have hnow : answers limits r c.handled = (c.replies ++ [f]) ++ behind := by
        rw [hanswers, List.append_assoc]
        rfl
      exact ⟨nofun,hnow ▸ List.prefix_append _ _,fun _ => ⟨behind,hnow,hbehind⟩⟩
    | violation hviolation => exact ⟨nofun,h.received,nofun⟩

theorem Answered.steps (hlimits : limits.maxFrameBytes < 2 ^ 32) (h : Answered limits r left c)
    (hstep : Steps limits c action d) : Answered limits r left d := by
  cases hstep with
  | finish => exact h.of_phase ⟨rfl,rfl,rfl⟩ nofun nofun
  | refuse => exact h.of_phase ⟨rfl,rfl,rfl⟩ nofun nofun
  | write hphase hop hwrites hfits =>
    refine h.of_phase ⟨rfl,rfl,rfl⟩ (fun call => ne_awaiting_sendingOrIdle) fun _ => ?_
    rw [hphase]
    exact ⟨rfl,gathered_sendingOrIdle⟩
  | await hphase hop =>
    refine h.of_phase ⟨rfl,rfl,rfl⟩ (fun call hcall => ?_) fun _ => ?_
    · cases hcall
      exact Receiving.sound_fresh
    · rw [hphase]
      exact ⟨rfl,rfl⟩
  | send hphase hfirst =>
    refine h.of_phase ⟨rfl,rfl,rfl⟩ (fun call => ne_awaiting_sendingOrIdle) fun _ => ?_
    rw [hphase]
    exact ⟨rfl,gathered_sendingOrIdle⟩
  | @sendFails ignored rest hphase hclosed =>
    refine h.of_phase ⟨rfl,rfl,rfl⟩ (fun call hcall => ?_) fun _ => ?_
    · cases ignored <;> cases hcall
    · rw [hphase]
      cases ignored <;> exact ⟨rfl,rfl⟩
  | receive hphase hbytes hchunk hwanted => exact h.receive hlimits hphase hbytes hwanted
  | meetsEnd => exact h.of_phase ⟨rfl,rfl,rfl⟩ nofun nofun
  | killed => exact h.of_phase ⟨rfl,rfl,rfl⟩ nofun nofun

/-- Without a frame received there is nothing to answer, whatever the runtime. -/
theorem Answered.of_untouched (h : Answered limits r left c) (hnone : c.handled = [])
    (s : ObservatoryRuntime) : Answered limits s left c := by
  refine ⟨h.sound,?_,fun hstays => ?_⟩
  · have hreceived := h.received
    rw [hnone] at hreceived ⊢
    exact hreceived
  · have hdue := h.due hstays
    rw [hnone] at hdue ⊢
    exact hdue

/-- A frame was received and its answer is to be handed over. -/
theorem Answered.handle (h : Answered limits r [] c) (frame : Frame) :
    Answered limits r
      (Service.replyBytes limits (handleFrame limits (serveFrames limits r c.handled) frame).1)
      { c with handled := c.handled ++ [frame] } := by
  refine ⟨h.sound,?_,fun hstays => ?_⟩
  · rw [answers_concat]
    exact h.received.trans (List.prefix_append _ _)
  · obtain ⟨pending,hanswers,hpending⟩ := h.due hstays
    rw [List.append_nil] at hpending
    refine ⟨pending ++
      replyFrames limits (handleFrame limits (serveFrames limits r c.handled) frame).1,?_,?_⟩
    · rw [answers_concat, hanswers, List.append_assoc]
    · rw [List.flatMap_append, ← hpending, replyBytes_eq]

/-- The service handed bytes of an answer over. -/
theorem Answered.send {first rest : ByteString} (h : Answered limits r (first ++ rest) c) :
    Answered limits r rest { c with toNode := c.toNode ++ first } := by
  refine ⟨h.sound,h.received,fun hstays => ?_⟩
  obtain ⟨pending,hanswers,hpending⟩ := h.due hstays
  refine ⟨pending,hanswers,?_⟩
  rw [← hpending]
  simp only [List.append_assoc]

/-- A process that has left gets no further answer. -/
theorem Answered.drop (h : Answered limits r left c) (hgone : c.phase.gone = true) :
    Answered limits r [] c := by
  refine ⟨h.sound,h.received,fun hstays => ?_⟩
  rw [hgone] at hstays
  cases hstays

end Connection

/-- What the service has still to hand over of an answer. -/
def ServePhase.left : ServePhase → ByteString
  | .replying left => left
  | .listening | .receiving _ | .closing | .ended _ => []

namespace Service
open Connection
variable {s t : Service} {limits : Limits} {count : ℕ} {r₀ : ObservatoryRuntime}
  {programs : List (List NodeOp)} {c d : Connection} {action : Action}

/-- The runtime that the connections before one have left. -/
def before (limits : Limits) (r₀ : ObservatoryRuntime) (s : Service) (i : ℕ) : ObservatoryRuntime :=
  serveFrames limits r₀ ((s.connections.map (·.handled)).take i).flatten

def AllAnswered (limits : Limits) (r₀ : ObservatoryRuntime) (s : Service) : Prop :=
  ∀ i c, s.connections[i]? = some c →
    Answered limits (before limits r₀ s i) (if i = s.served then s.phase.left else []) c

theorem allAnswered_start :
    AllAnswered limits r₀ (serviceWith limits count r₀ programs) := by
  intro i c hc
  obtain ⟨program,-,rfl⟩ : ∃ program, programs[i]? = some program ∧
      ({ program := program } : Connection) = c := by
    simpa [serviceWith] using hc
  have hleft : (if i = (serviceWith limits count r₀ programs).served then
      (serviceWith limits count r₀ programs).phase.left else []) = [] := by split_ifs <;> rfl
  rw [hleft]
  refine ⟨fun _ hawaiting => ?_,List.prefix_rfl,fun _ => ⟨[],rfl,rfl⟩⟩
  cases hawaiting

/-- The runtime is what the current connection has made of what it found. -/
theorem InOrder.runtime_current (h : InOrder limits count r₀ programs s)
    (hserving : s.phase.Serving) (hc : s.current = some c) :
    s.runtime = serveFrames limits (before limits r₀ s s.served) c.handled := by
  have hsplit : s.frames = ((s.connections.map (·.handled)).take s.served).flatten ++ c.handled := by
    obtain ⟨hlt,hget⟩ := List.getElem?_eq_some_iff.mp hc
    have hbehind : ((s.connections.drop (s.served + 1)).map (·.handled)).flatten = [] := by
      refine List.flatten_eq_nil_iff.mpr fun frames hframes => ?_
      obtain ⟨d,hd,rfl⟩ := List.mem_map.mp hframes
      obtain ⟨j,hj⟩ := List.mem_iff_getElem?.mp hd
      rw [List.getElem?_drop] at hj
      exact (h.stands _ d hj).untouched (Or.inl (by omega))
    rw [frames, List.flatMap_def, ← List.map_take]
    conv_lhs => rw [← List.take_append_drop s.served s.connections]
    rw [List.drop_eq_getElem_cons hlt, hget, List.map_append, List.map_cons, List.flatten_append,
      List.flatten_cons, hbehind, List.append_nil]
  rw [h.runtime hserving.ne_ended, hsplit]
  simp [before, serveFrames, List.foldl_append]

/-- A step that leaves all frames where they are. -/
theorem before_of_same (hhandled : t.connections.map (·.handled) = s.connections.map (·.handled))
    (i : ℕ) : before limits r₀ t i = before limits r₀ s i := by
  rw [before, hhandled, before]

/-- The current connection has moved, and the service perhaps on to the next. -/
theorem AllAnswered.putCurrent (h : AllAnswered limits r₀ s)
    (hin : InOrder limits count r₀ programs s)
    (hconnections : t.connections = s.connections.set s.served d)
    (hleft : ∀ j, j ≠ s.served → (if j = t.served then t.phase.left else []) = [])
    (hd : Answered limits (before limits r₀ s s.served)
      (if s.served = t.served then t.phase.left else []) d) : AllAnswered limits r₀ t := by
  have hbefore : ∀ j, j ≤ s.served → before limits r₀ t j = before limits r₀ s j := by
    intro j hj
    rw [before, hconnections, List.map_set, List.take_set_of_le hj, before]
  unfold AllAnswered
  rw [hconnections]
  refine forall_set (fun j w hw hj => ?_) ?_
  · rw [hleft j hj]
    have hanswered := h j w hw
    rw [if_neg hj] at hanswered
    rcases Nat.lt_or_gt_of_ne hj with hlt | hgt
    · rw [hbefore j hlt.le]
      exact hanswered
    · exact hanswered.of_untouched ((hin.stands j w hw).untouched (Or.inl hgt)) _
  · rw [hbefore _ le_rfl]
    exact hd

theorem AllAnswered.stay (h : AllAnswered limits r₀ s) (hin : InOrder limits count r₀ programs s)
    (hconnections : t.connections = s.connections.set s.served d) (hserved : t.served = s.served)
    (hd : Answered limits (before limits r₀ s s.served) t.phase.left d) :
    AllAnswered limits r₀ t := by
  refine h.putCurrent hin hconnections (fun j hj => ?_) ?_
  · rw [hserved, if_neg hj]
  · rw [hserved, if_pos rfl]
    exact hd

/-- The service turns to its current connection, or away from it. -/
theorem AllAnswered.turn (h : AllAnswered limits r₀ s) {phase : ServePhase}
    (hleft : phase.left = s.phase.left) : AllAnswered limits r₀ { s with phase := phase } := by
  intro i c hc
  have hanswered := h i c hc
  rw [← hleft] at hanswered
  exact hanswered

theorem left_replyingOrReceiving (left : ByteString) : (replyingOrReceiving left).left = left := by
  unfold replyingOrReceiving
  split_ifs with hnil
  · exact hnil.symm
  · rfl

/-- The current connection was closed. -/
theorem AllAnswered.close (h : AllAnswered limits r₀ s) (hin : InOrder limits count r₀ programs s)
    (hd : Answered limits (before limits r₀ s s.served) [] d) :
    AllAnswered limits r₀ (s.endConnection d) := by
  refine h.putCurrent (d := { d with closed := true }) hin rfl (fun j hj => ?_) ?_
  · split_ifs <;> rfl
  · have hnone : (if s.served = (s.endConnection d).served then (s.endConnection d).phase.left
        else []) = [] := by split_ifs <;> rfl
    rw [hnone]
    exact ⟨hd.sound,hd.received,hd.due⟩

/-- A frame was received on the current connection. -/
theorem AllAnswered.dispatch (h : AllAnswered limits r₀ s)
    (hin : InOrder limits count r₀ programs s) (hserving : s.phase.Serving) (hc : s.current = some c)
    (hhandled : d.handled = c.handled)
    (hd : Answered limits (before limits r₀ s s.served) [] d) (frame : Frame) :
    AllAnswered limits r₀ (s.dispatch d frame) := by
  have hruntime := hin.runtime_current hserving hc
  have hnext := hd.handle frame
  rw [hhandled, ← hruntime, ← hin.limits_eq] at hnext
  unfold Service.dispatch
  split_ifs with hbye
  · refine h.close hin ?_
    rw [handleFrame_bye _ _ hbye] at hnext
    rw [← hin.limits_eq, hhandled]
    exact hnext
  · refine h.stay (d := { d with handled := d.handled ++ [frame] }) hin rfl rfl ?_
    simp only [reply, left_replyingOrReceiving]
    rw [← hin.limits_eq, hhandled]
    exact hnext

theorem AllAnswered.steps (hlimits : limits.maxFrameBytes < 2 ^ 32) (h : AllAnswered limits r₀ s)
    (hin : InOrder limits count r₀ programs s) (hstep : Steps s action t) :
    AllAnswered limits r₀ t := by
  cases hstep with
  | @node i c d move haction hc hstep =>
    rw [hin.limits_eq] at hstep
    have hsame : (s.connections.set i d).map (·.handled) = s.connections.map (·.handled) :=
      map_set_of_eq hc hstep.kept.2.1
    have hbefore : ∀ j, before limits r₀ { s with connections := s.connections.set i d } j =
        before limits r₀ s j := before_of_same hsame
    refine forall_set (fun j w hw _ => ?_) ?_
    · rw [hbefore]
      exact h j w hw
    · rw [hbefore]
      exact (h i c hc).steps hlimits hstep
  | accept hphase hcount hc => exact h.turn (by rw [hphase]; rfl)
  | acceptFails haction hphase hcount => exact h.turn (by rw [hphase]; rfl)
  | @receive call c chunk rest hphase hc hbytes hchunk hwanted =>
    have hserving : s.phase.Serving := by rw [hphase]; trivial
    have hanswered : Answered limits (before limits r₀ s s.served) []
        { c with toService := rest } := by
      have hnow := h s.served c hc
      rw [if_pos rfl, hphase] at hnow
      exact ⟨hnow.sound,hnow.received,hnow.due⟩
    cases call.take s.limits chunk with
    | inl next => exact h.stay (d := { c with toService := rest }) hin rfl rfl hanswered
    | inr result =>
      cases result with
      | error e => exact h.close hin hanswered
      | ok frame =>
        exact h.dispatch (d := { c with toService := rest }) hin hserving hc rfl hanswered frame
  | @meetsEnd call c hphase hc hend =>
    have hnow := h s.served c hc
    rw [if_pos rfl, hphase] at hnow
    exact h.close hin hnow
  | @send c first rest hphase hc hfirst =>
    have hnow := h s.served c hc
    rw [if_pos rfl, hphase] at hnow
    refine h.stay (d := { c with toNode := c.toNode ++ first }) hin rfl rfl ?_
    rw [left_replyingOrReceiving]
    exact hnow.send
  | @sendFails left c hphase hc hgone =>
    have hnow := h s.served c hc
    rw [if_pos rfl] at hnow
    intro i w hw
    by_cases hi : i = s.served
    · subst hi
      obtain rfl := Option.some.inj (hc.symm.trans hw)
      rw [if_pos rfl]
      exact hnow.drop hgone
    · have hothers := h i w hw
      rw [if_neg hi] at hothers ⊢
      exact hothers
  | finish hphase =>
    have hleft : s.phase.left = [] := by
      rcases hphase with hphase | ⟨hphase,-⟩ <;> rw [hphase] <;> rfl
    intro i w hw
    have hanswered := h i w hw
    rw [hleft] at hanswered
    exact hanswered

theorem allAnswered_of_run (hlimits : limits.maxFrameBytes < 2 ^ 32)
    (h : Run step anything (serviceWith limits count r₀ programs) s) : AllAnswered limits r₀ s := by
  have hboth : InOrder limits count r₀ programs s ∧ AllAnswered limits r₀ s := by
    refine Run.invariant
      (P := fun s => InOrder limits count r₀ programs s ∧ AllAnswered limits r₀ s)
      ⟨inOrder_start,allAnswered_start⟩ (fun _ _ _ _ hstep hbefore => ?_) h
    have hsteps := steps_of_step hstep
    exact ⟨hbefore.1.steps hsteps,hbefore.2.steps hlimits hbefore.1 hsteps⟩
  exact hboth.2

end Service

end PathObservatory
