import PathObservatory.Service.Delivery

/-! # Undisturbed runs come to their end

When no process is killed and every connection is accepted, nothing fails: a process
goes on until its program is done, and its connection is closed for its goodbye. What
can go wrong is that a record is not understood, for which no answer is sent.
-/
namespace PathObservatory
open Interleaving

namespace Connection
variable {limits : Limits} {r : ObservatoryRuntime} {left gathered : ByteString} {c d : Connection}
  {node : NodeInput} {action : Action}

/-- A process that was left alone. -/
structure Proper (node : NodeInput) (c : Connection) : Prop where
  program : c.program = node.program
  live : c.phase.aborted = false
  pending : ∀ ignored left, c.phase = .sending ignored left → left ≠ []
  paced : c.replies.length + c.phase.isAwaiting.toNat =
    (c.program.take c.position).count .awaitReply
  asked : ∀ call, c.phase = .awaiting call →
    ∃ i, c.position = i + 1 ∧ c.program[i]? = some .awaitReply
  atEnd : c.phase = .done → c.program.length ≤ c.position
  unsaid : c.closed = false → ∀ f ∈ c.handled, f.type ≠ .bye
  served : c.closed = true →
    c.handled = node.frames ∧ c.program.length ≤ c.position ∧ (c.phase = .idle ∨ c.phase = .done)

theorem proper_start (node : NodeInput) : Proper node { program := node.program } :=
  ⟨rfl,rfl,nofun,by simp [NodePhase.isAwaiting],nofun,nofun,nofun,nofun⟩

theorem live_sendingOrIdle {ignored : Bool} : (sendingOrIdle ignored left).aborted = false := by
  unfold sendingOrIdle
  split_ifs <;> rfl

theorem ne_nil_of_sendingOrIdle {ignored other : Bool} {rest : ByteString}
    (h : sendingOrIdle ignored left = .sending other rest) : rest ≠ [] := by
  unfold sendingOrIdle at h
  split_ifs at h with hnil
  cases h
  exact hnil

theorem ne_done_sendingOrIdle {ignored : Bool} {p : Prop}
    (h : sendingOrIdle ignored left = .done) : p := by
  unfold sendingOrIdle at h
  split_ifs at h

/-- The process moved on, not towards its end. -/
theorem Proper.of_phase (h : Proper node c) (hopen : c.closed = false) {phase : NodePhase}
    {toService : ByteString} (hlive : phase.aborted = false)
    (hpending : ∀ ignored left, phase = .sending ignored left → left ≠ [])
    (hawaiting : phase.isAwaiting = c.phase.isAwaiting)
    (hasked : ∀ call, phase ≠ .awaiting call) (hend : phase ≠ .done) :
    Proper node { c with toService := toService, phase := phase } := by
  have hnot : ∀ {p : Prop}, c.closed = true → p := fun hclosed => by
    rw [hopen] at hclosed
    cases hclosed
  refine ⟨h.program,hlive,hpending,?_,fun call hcall => absurd hcall (hasked call),
    fun hdone => absurd hdone hend,h.unsaid,fun hclosed => hnot hclosed⟩
  have hpaced := h.paced
  rw [← hawaiting] at hpaced
  exact hpaced

/-- A process that has operations left is not served to its end. -/
theorem Proper.open_of_lt (h : Proper node c) (hlt : c.position < c.program.length) :
    c.closed = false := by
  by_contra hclosed
  have hserved := h.served (by simpa using hclosed)
  omega

theorem Proper.open_of_phase (h : Proper node c) (hidle : c.phase ≠ .idle)
    (hdone : c.phase ≠ .done) : c.closed = false := by
  by_contra hclosed
  rcases (h.served (by simpa using hclosed)).2.2 with hphase | hphase
  · exact hidle hphase
  · exact hdone hphase

/-- An operation was begun. -/
theorem Proper.of_begin (h : Proper node c) (hphase : c.phase = .idle) {op : NodeOp}
    (hop : c.program[c.position]? = some op) {phase : NodePhase} (hlive : phase.aborted = false)
    (hpending : ∀ ignored left, phase = .sending ignored left → left ≠ [])
    (hawaiting : phase.isAwaiting = decide (op = .awaitReply))
    (hasked : ∀ call, phase = .awaiting call → op = .awaitReply) (hend : phase ≠ .done) :
    Proper node { c with position := c.position + 1, phase := phase } := by
  obtain ⟨hlt,hget⟩ := List.getElem?_eq_some_iff.mp hop
  have hopen := h.open_of_lt hlt
  refine ⟨h.program,hlive,hpending,?_,fun call hcall => ?_,fun hdone => absurd hdone hend,h.unsaid,
    fun hclosed => ?_⟩
  · have hpaced := h.paced
    rw [hphase] at hpaced
    simp only [NodePhase.isAwaiting, Bool.toNat_false, Nat.add_zero] at hpaced
    rw [List.take_succ_eq_append_getElem hlt, List.count_append, ← hpaced, hget, hawaiting]
    by_cases haw : op = .awaitReply <;> simp [haw]
  · exact ⟨c.position,rfl,hasked call hcall ▸ hop⟩
  · have hclosed : c.closed = true := hclosed
    rw [hopen] at hclosed
    cases hclosed

/-- An answer that is being received is an answer. -/
theorem Proper.receive (hlimits : limits.maxFrameBytes < 2 ^ 32) (h : Proper node c)
    (hanswered : Answered limits r left c) {call : Receiving} {chunk rest : ByteString}
    (hphase : c.phase = .awaiting call) (hbytes : c.toNode = chunk ++ rest) (hchunk : chunk ≠ [])
    (hwanted : chunk.length ≤ call.wanted) :
    Proper node ({ c with toNode := rest }.received (call.take limits chunk)) := by
  have hopen : c.closed = false :=
    h.open_of_phase (by simp [hphase]) (by simp [hphase])
  have hnot : ∀ {p : Prop}, c.closed = true → p := fun hclosed => by
    rw [hopen] at hclosed
    cases hclosed
  have hpaced := h.paced
  rw [hphase] at hpaced
  obtain ⟨pending,hanswers,hpending⟩ := hanswered.due (by rw [hphase]; rfl)
  rw [hphase, hbytes] at hpending
  have htake : (∃ next, call.take limits chunk = .inl next) ∨
      ∃ f, call.take limits chunk = .inr (.ok f) := by
    cases pending with
    | nil =>
      have hnil := congrArg List.length hpending
      have hpos := List.length_pos_of_ne_nil hchunk
      simp only [List.length_append, List.flatMap_nil, List.length_nil] at hnil
      omega
    | cons f others =>
      have hbounded := bounded_of_mem_answers limits r c.handled
      rw [hanswers] at hbounded
      have hfront : call.gathered ++ chunk ++ (rest ++ left) =
          f.encode ++ others.flatMap Frame.encode := by
        rw [← List.flatMap_cons, ← hpending]
        simp only [NodePhase.gathered, List.append_assoc]
      exact ((hanswered.sound call hphase).take_frame
        (hbounded f (List.mem_append_right _ List.mem_cons_self)) hlimits hwanted hfront).imp_right
          fun hf => ⟨f,hf⟩
  rcases htake with ⟨next,htake⟩ | ⟨f,htake⟩
  · rw [htake]
    refine ⟨h.program,rfl,fun _ _ hsending => ?_,hpaced,fun other _ => h.asked call hphase,
      fun hdone => ?_,h.unsaid,fun hclosed => hnot hclosed⟩
    · cases hsending
    · cases hdone
  · rw [htake]
    refine ⟨h.program,rfl,fun _ _ hsending => ?_,?_,fun _ hawaiting => ?_,fun hdone => ?_,
      h.unsaid,fun hclosed => hnot hclosed⟩
    · cases hsending
    · simp only [received, List.length_append, List.length_singleton]
      exact hpaced
    · cases hawaiting
    · cases hdone

/-- A process that is left alone goes on with its program. -/
theorem Proper.steps (hlimits : limits.maxFrameBytes < 2 ^ 32) (hfits : node.Fits limits)
    (h : Proper node c) (hanswered : Answered limits r left c) (hstep : Steps limits c action d)
    (haction : action ≠ .killed) : Proper node d := by
  cases hstep with
  | finish hphase hend =>
    have hlength := List.getElem?_eq_none_iff.mp hend
    have hpaced := h.paced
    rw [hphase] at hpaced
    exact ⟨h.program,rfl,nofun,hpaced,nofun,fun _ => hlength,h.unsaid,
      fun hclosed => ⟨(h.served hclosed).1,hlength,Or.inr rfl⟩⟩
  | @refuse op hphase hop hlarge =>
    have hmem := List.mem_of_getElem? hop
    rw [h.program] at hmem
    exact absurd hlarge (hfits op hmem)
  | @write op hphase hop hwrites hfits =>
    have hnot : op ≠ .awaitReply := by
      rintro rfl
      exact hwrites
    refine h.of_begin hphase hop live_sendingOrIdle (fun _ _ => ne_nil_of_sendingOrIdle) ?_
      (fun call => ne_awaiting_sendingOrIdle) ne_done_sendingOrIdle
    rw [isAwaiting_sendingOrIdle, decide_eq_false hnot]
  | await hphase hop =>
    exact h.of_begin hphase hop rfl nofun (decide_eq_true rfl).symm (fun _ _ => rfl) nofun
  | send hphase hfirst =>
    refine h.of_phase (h.open_of_phase ?_ ?_) live_sendingOrIdle
      (fun _ _ => ne_nil_of_sendingOrIdle) ?_ (fun call => ne_awaiting_sendingOrIdle)
      ne_done_sendingOrIdle
    all_goals rw [hphase]
    · nofun
    · nofun
    · exact isAwaiting_sendingOrIdle
  | sendFails hphase hclosed =>
    have hopen := h.open_of_phase (by rw [hphase]; nofun) (by rw [hphase]; nofun)
    rw [hopen] at hclosed
    cases hclosed
  | receive hphase hbytes hchunk hwanted =>
    exact h.receive hlimits hanswered hphase hbytes hchunk hwanted
  | meetsEnd hphase hclosed =>
    have hopen := h.open_of_phase (by rw [hphase]; nofun) (by rw [hphase]; nofun)
    rw [hopen] at hclosed
    cases hclosed
  | killed hkilled => exact absurd hkilled haction

/-! ### The connection that is being served -/

/-- What is not received yet are the frames that are still to come. -/
theorem Proper.rest_eq (hlimits : limits.maxFrameBytes < 2 ^ 32) (h : Proper node c)
    (haccounted : Accounted limits gathered c) (hopen : c.closed = false) :
    ∃ pending, (c.program.take c.position).flatMap NodeOp.frames = c.handled ++ pending ∧
      gathered ++ c.toService ++ c.phase.outbox = pending.flatMap Frame.encode := by
  obtain ⟨pending,hpending⟩ := haccounted.handled_prefix hlimits h.program
  have hwhole := haccounted.whole hopen h.live
  rw [written_eq h.program, ← hpending, List.flatMap_append, List.append_assoc,
    List.append_assoc] at hwhole
  refine ⟨pending,hpending.symm,?_⟩
  rw [List.append_assoc]
  exact List.append_cancel_left hwhole

/-- The service meets no violation on the connection. -/
theorem Proper.take_frame (hlimits : limits.maxFrameBytes < 2 ^ 32) (h : Proper node c)
    {call : Receiving} (hsound : call.Sound limits)
    (haccounted : Accounted limits call.gathered c) (hopen : c.closed = false)
    {chunk rest : ByteString} (hbytes : c.toService = chunk ++ rest) (hchunk : chunk ≠ [])
    (hwanted : chunk.length ≤ call.wanted) :
    (∃ next, call.take limits chunk = .inl next) ∨ ∃ f, call.take limits chunk = .inr (.ok f) := by
  obtain ⟨pending,hbegun,hpending⟩ := h.rest_eq hlimits haccounted hopen
  rw [hbytes] at hpending
  cases pending with
  | nil =>
    have hnil := congrArg List.length hpending
    have hpos := List.length_pos_of_ne_nil hchunk
    simp only [List.length_append, List.flatMap_nil, List.length_nil] at hnil
    omega
  | cons f others =>
    have hbounded := bounded_of_fits haccounted.begun
    rw [hbegun] at hbounded
    have hfront : call.gathered ++ chunk ++ (rest ++ c.phase.outbox) =
        f.encode ++ others.flatMap Frame.encode := by
      rw [← List.flatMap_cons, ← hpending]
      simp only [List.append_assoc]
    exact (hsound.take_frame (hbounded f (List.mem_append_right _ List.mem_cons_self)) hlimits
      hwanted hfront).imp_right fun hf => ⟨f,hf⟩

/-- A frame that is no goodbye was received. -/
theorem Proper.handle (h : Proper node c) (hopen : c.closed = false) {f : Frame}
    (hf : f.type ≠ .bye) : Proper node { c with handled := c.handled ++ [f] } := by
  refine ⟨h.program,h.live,h.pending,h.paced,h.asked,h.atEnd,fun _ g hg => ?_,fun hclosed => ?_⟩
  · rcases List.mem_append.mp hg with hg | hg
    · exact h.unsaid hopen g hg
    · exact List.mem_singleton.mp hg ▸ hf
  · have hclosed : c.closed = true := hclosed
    rw [hopen] at hclosed
    cases hclosed

/-- The goodbye was received: everything else had been, and the process has nothing left
to do. -/
theorem Proper.farewell (hlimits : limits.maxFrameBytes < 2 ^ 32) (h : Proper node c) {f : Frame}
    (hopen : c.closed = false)
    (haccounted : Accounted limits [] { c with handled := c.handled ++ [f] }) (hf : f.type = .bye) :
    Proper node { c with handled := c.handled ++ [f], closed := true } := by
  have hbegun : (c.handled ++ [f]) <+: (c.program.take c.position).flatMap NodeOp.frames := by
    have hbytes := haccounted.handled
    have hwritten : ({ c with handled := c.handled ++ [f] } : Connection).written =
        ((c.program.take c.position).flatMap NodeOp.frames).flatMap Frame.encode :=
      written_eq h.program
    rw [hwritten] at hbytes
    exact frames_prefixCode.prefix_of_flatMap (fun g _ => g.encode_ne_nil)
      (fun g hg => (haccounted.bounded g hg).trans_lt hlimits)
      (fun g hg => (bounded_of_fits haccounted.begun g hg).trans_lt hlimits) hbytes
  have hframes := node.frames_take_prefix c.position
  rw [← h.program] at hframes
  have hall : c.handled ++ [f] = node.frames :=
    NodeInput.eq_frames_of_bye (hbegun.trans hframes)
      (List.mem_append_right _ (List.mem_singleton_self f)) hf
  have hsent : (c.program.take c.position).flatMap NodeOp.frames = node.frames := by
    rw [hall] at hbegun
    exact (hframes.eq_of_length_le hbegun.length_le)
  have hposition : c.program.length ≤ c.position := by
    rw [h.program] at hsent ⊢
    exact NodeInput.length_le_of_frames hsent
  have hempty : c.phase.outbox = [] := by
    have hwhole := haccounted.whole hopen h.live
    have hwritten : ({ c with handled := c.handled ++ [f] } : Connection).written =
        (c.handled ++ [f]).flatMap Frame.encode := by
      rw [hall, ← hsent]
      exact written_eq h.program
    rw [hwritten, List.append_nil, List.append_assoc] at hwhole
    exact (List.append_eq_nil_iff.mp (List.append_right_eq_self.mp hwhole)).2
  refine ⟨h.program,h.live,h.pending,h.paced,h.asked,h.atEnd,nofun,fun _ => ⟨hall,hposition,?_⟩⟩
  have hlive := h.live
  cases hphase : c.phase with
  | idle => exact Or.inl rfl
  | done => exact Or.inr rfl
  | sending ignored left =>
    rw [hphase] at hempty
    exact absurd hempty (h.pending ignored left hphase)
  | awaiting call =>
    obtain ⟨i,hi,hop⟩ := h.asked call hphase
    obtain ⟨talk,hprogram⟩ : ∃ talk, c.program = talk ++ [.send .bye []] := ⟨_,h.program⟩
    have hlast := (List.getElem?_eq_some_iff.mp hop).1
    rw [hprogram, List.length_append, List.length_singleton] at hposition hlast
    rw [hprogram, List.getElem?_append_right (by omega)] at hop
    have hzero : i - talk.length = 0 := by omega
    rw [hzero] at hop
    cases hop
  | failed =>
    rw [hphase] at hlive
    cases hlive
  | killed =>
    rw [hphase] at hlive
    cases hlive

/-- The stream does not end before the goodbye. -/
theorem Proper.not_atEnd (hlimits : limits.maxFrameBytes < 2 ^ 32) (h : Proper node c)
    {call : Receiving} (hsound : call.Sound limits)
    (haccounted : Accounted limits call.gathered c) (hopen : c.closed = false) :
    Service.atEnd c = false := by
  have hlive := h.live
  unfold Service.atEnd
  split
  · rename_i hphase
    rw [decide_eq_false_iff_not]
    intro hnone
    obtain ⟨pending,hbegun,hpending⟩ := h.rest_eq hlimits haccounted hopen
    rw [List.take_of_length_le (h.atEnd hphase), h.program, node.frames_program] at hbegun
    rw [hphase, hnone] at hpending
    have hnil : pending = [] := by
      cases pending with
      | nil => rfl
      | cons f others =>
        have hbounded := bounded_of_fits haccounted.begun
        rw [List.take_of_length_le (h.atEnd hphase), h.program, node.frames_program, hbegun]
          at hbounded
        refine absurd ?_ (hsound.gathered_ne_encode (others.flatMap Frame.encode)
          (hbounded f (List.mem_append_right _ List.mem_cons_self)) hlimits)
        rw [← List.flatMap_cons, ← hpending]
        simp [NodePhase.outbox]
    rw [hnil, List.append_nil] at hbegun
    obtain ⟨talk,heq,-⟩ := node.frames_eq_concat
    refine absurd rfl (h.unsaid hopen { type := .bye } ?_)
    rw [← hbegun, heq]
    exact List.mem_append_right _ (List.mem_singleton_self _)
  · rename_i hphase
    rw [hphase] at hlive
    cases hlive
  · rename_i hphase
    rw [hphase] at hlive
    cases hlive
  · rfl

end Connection

namespace Service
open Connection
variable {s t : Service} {limits : Limits} {count : ℕ} {r₀ : ObservatoryRuntime}
  {nodes : List NodeInput} {c d : Connection} {action : Action}

/-- No process is killed and no connection fails to be accepted. -/
def Undisturbed : Service → Action → Prop
  | _, .acceptFails | _, .node _ .killed => False
  | _, _ => True

/-- Every process was left alone, and the service has not given up. -/
structure AllProper (nodes : List NodeInput) (s : Service) : Prop where
  proper : ∀ (i : ℕ) c, s.connections[i]? = some c →
    ∃ node, nodes[i]? = some node ∧ Proper node c
  open_ : s.phase ≠ .closing
  left : ∀ left, s.phase = .replying left → left ≠ []
  served : ∀ code, s.phase = .ended code → s.count ≤ s.served

theorem allProper_start : AllProper nodes (serviceFor limits count r₀ nodes) := by
  refine ⟨fun i c hc => ?_,nofun,nofun,nofun⟩
  obtain ⟨node,hnode,rfl⟩ : ∃ node, nodes[i]? = some node ∧
      ({ program := node.program } : Connection) = c := by
    simpa [serviceFor, serviceWith] using hc
  exact ⟨node,hnode,proper_start node⟩

theorem replyingOrReceiving_open (left : ByteString) :
    replyingOrReceiving left ≠ .closing ∧
      (∀ other, replyingOrReceiving left = .replying other → other ≠ []) ∧
      ∀ code, replyingOrReceiving left ≠ .ended code := by
  unfold replyingOrReceiving
  split_ifs with hnil
  · exact ⟨nofun,nofun,nofun⟩
  · refine ⟨nofun,fun other hother => ?_,nofun⟩
    cases hother
    exact hnil

/-- The current connection has moved. -/
theorem AllProper.putCurrent (h : AllProper nodes s) {node : NodeInput}
    (hnode : nodes[s.served]? = some node) (hd : Proper node d)
    (hconnections : t.connections = s.connections.set s.served d) (hopen : t.phase ≠ .closing)
    (hleft : ∀ left, t.phase = .replying left → left ≠ [])
    (hend : ∀ code, t.phase ≠ .ended code) :
    AllProper nodes t := by
  refine ⟨?_,hopen,hleft,fun code hcode => absurd hcode (hend code)⟩
  rw [hconnections]
  exact forall_set (fun j w hw _ => h.proper j w hw) ⟨node,hnode,hd⟩

/-- A frame was received on the current connection. -/
theorem AllProper.dispatch (hlimits : limits.maxFrameBytes < 2 ^ 32) (h : AllProper nodes s)
    {node : NodeInput} (hnode : nodes[s.served]? = some node) (hd : Proper node d)
    (hopen : d.closed = false) {f : Frame}
    (haccounted : Accounted limits [] { d with handled := d.handled ++ [f] }) :
    AllProper nodes (s.dispatch d f) := by
  unfold Service.dispatch
  split_ifs with hbye
  · exact h.putCurrent hnode (hd.farewell hlimits hopen haccounted hbye) rfl nofun nofun nofun
  · obtain ⟨hturn,hleft,hlive⟩ :=
      replyingOrReceiving_open (replyBytes s.limits (handleFrame s.limits s.runtime f).1)
    exact h.putCurrent hnode (hd.handle hopen hbye) rfl hturn hleft hlive

theorem AllProper.steps {programs : List (List NodeOp)} (hlimits : limits.maxFrameBytes < 2 ^ 32)
    (hfits : ∀ node ∈ nodes, node.Fits limits) (hin : InOrder limits count r₀ programs s)
    (hanswered : AllAnswered limits r₀ s) (h : AllProper nodes s) (hstep : Steps s action t)
    (hallowed : Undisturbed s action) : AllProper nodes t := by
  cases hstep with
  | @node i c d move haction hc hstep =>
    obtain ⟨node,hnode,hproper⟩ := h.proper i c hc
    rw [hin.limits_eq] at hstep
    refine ⟨forall_set (fun j w hw _ => h.proper j w hw) ⟨node,hnode,?_⟩,h.open_,h.left,h.served⟩
    refine hproper.steps hlimits (hfits node (List.mem_of_getElem? hnode)) (hanswered i c hc) hstep ?_
    rintro rfl
    rw [haction] at hallowed
    exact hallowed
  | accept hphase hcount hc => exact ⟨h.proper,nofun,nofun,nofun⟩
  | acceptFails haction hphase hcount =>
    rw [haction] at hallowed
    exact hallowed.elim
  | @receive call c chunk rest hphase hc hbytes hchunk hwanted =>
    obtain ⟨node,hnode,hproper⟩ := h.proper _ c hc
    have hopen := hin.current_open hc
    have haccounted := (hin.stands _ c hc).accounted
    rw [if_pos rfl, hphase] at haccounted
    have hmoved : Proper node { c with toService := rest } :=
      ⟨hproper.program,hproper.live,hproper.pending,hproper.paced,hproper.asked,hproper.atEnd,
        hproper.unsaid,hproper.served⟩
    have htaken := (hin.sound call hphase).take hwanted
    rw [hin.limits_eq]
    rcases hproper.take_frame hlimits (hin.sound call hphase) haccounted hopen hbytes hchunk hwanted
      with ⟨next,htake⟩ | ⟨f,htake⟩
    · rw [htake]
      exact h.putCurrent (d := { c with toService := rest }) hnode hmoved rfl nofun nofun nofun
    · rw [htake] at htaken ⊢
      obtain ⟨hframe,hbound⟩ : call.gathered ++ chunk = f.encode ∧
          f.payload.length ≤ limits.maxFrameBytes := by
        cases htaken with
        | frame hframe hbound => exact ⟨hframe,hbound⟩
      have hgathered := haccounted.receive hbytes
      simp only [ServePhase.gathered, hframe] at hgathered
      exact h.dispatch hlimits hnode hmoved hopen (hgathered.handle hopen hbound)
  | @meetsEnd call c hphase hc hend =>
    obtain ⟨node,hnode,hproper⟩ := h.proper _ c hc
    have haccounted := (hin.stands _ c hc).accounted
    rw [if_pos rfl, hphase] at haccounted
    rw [hproper.not_atEnd hlimits (hin.sound call hphase) haccounted (hin.current_open hc)] at hend
    cases hend
  | @send c first rest hphase hc hfirst =>
    obtain ⟨node,hnode,hproper⟩ := h.proper _ c hc
    obtain ⟨hopen,hleft,hlive⟩ := replyingOrReceiving_open rest
    refine h.putCurrent (d := { c with toNode := c.toNode ++ first }) hnode ?_ rfl hopen hleft hlive
    exact ⟨hproper.program,hproper.live,hproper.pending,hproper.paced,hproper.asked,hproper.atEnd,
      hproper.unsaid,hproper.served⟩
  | sendFails hphase hc hgone => exact ⟨h.proper,nofun,nofun,nofun⟩
  | finish hphase =>
    refine ⟨h.proper,nofun,nofun,fun _ _ => ?_⟩
    rcases hphase with hphase | ⟨-,hcount⟩
    · exact absurd hphase h.open_
    · exact hcount

end Service

end PathObservatory
