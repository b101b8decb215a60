import PathObservatory.Library.PrefixCode
import PathObservatory.Service.Serving

/-! # The service acts on what its peers have written, in order

Whatever the peers write, however the bytes are cut and whichever process moves next,
the frames the service has received on a connection are a first part of what was written
on it. The runtime has seen these frames and nothing else, one connection after the
other.
-/
namespace PathObservatory
open Interleaving

/-- The runtime after some frames. -/
def serveFrames (limits : Limits) (r : ObservatoryRuntime) (frames : List Frame) :
    ObservatoryRuntime :=
  frames.foldl (fun r frame => (handleFrame limits r frame).2) r

theorem handleFrame_bye (limits : Limits) (r : ObservatoryRuntime) {frame : Frame}
    (h : frame.type = .bye) : handleFrame limits r frame = (none,r) := by
  simp only [handleFrame, h]

namespace Connection
variable {limits : Limits} {gathered : ByteString} {c d : Connection} {action : Action}

/-- What was written on a connection is accounted for: the frames received, what the
call in progress has gathered, what is in flight and what is not handed over yet. A
process that was stopped may have lost the last, a closed connection all but the first. -/
structure Accounted (limits : Limits) (gathered : ByteString) (c : Connection) : Prop where
  begun : ∀ op ∈ c.program.take c.position, ¬ op.TooLarge limits
  bounded : ∀ frame ∈ c.handled, frame.payload.length ≤ limits.maxFrameBytes
  handled : c.handled.flatMap Frame.encode <+: c.written
  inFlight : c.closed = false →
    c.handled.flatMap Frame.encode ++ gathered ++ c.toService <+: c.written
  whole : c.closed = false → c.phase.aborted = false →
    c.handled.flatMap Frame.encode ++ gathered ++ c.toService ++ c.phase.outbox = c.written

theorem accounted_start (limits : Limits) (program : List NodeOp) :
    Accounted limits [] { program := program } :=
  ⟨by simp,by simp,List.prefix_rfl,fun _ => List.prefix_rfl,fun _ _ => rfl⟩

/-- The process has left or goes on without having handed anything over. -/
theorem Accounted.of_phase (h : Accounted limits gathered c) {phase : NodePhase}
    (hphase : phase.aborted = false → c.phase.aborted = false ∧ phase.outbox = c.phase.outbox) :
    Accounted limits gathered { c with phase := phase } := by
  refine ⟨h.begun,h.bounded,h.handled,h.inFlight,fun hopen hstays => ?_⟩
  obtain ⟨hlive,houtbox⟩ := hphase hstays
  have hwhole := h.whole hopen hlive
  rw [← houtbox] at hwhole
  exact hwhole

/-- An operation was begun. -/
theorem Accounted.of_begin (h : Accounted limits gathered c) (hidle : c.phase = .idle) {op : NodeOp}
    (hop : c.program[c.position]? = some op) (hfits : ¬ op.TooLarge limits) {phase : NodePhase}
    (hphase : phase.outbox = op.bytes) :
    Accounted limits gathered { c with position := c.position + 1, phase := phase } := by
  have hwritten : ({ c with position := c.position + 1, phase := phase } : Connection).written =
      c.written ++ op.bytes := written_next hop
  refine ⟨?_,h.bounded,?_,fun hopen => ?_,fun hopen _ => ?_⟩
  · obtain ⟨hlt,rfl⟩ := List.getElem?_eq_some_iff.mp hop
    intro other hother
    rw [List.take_succ_eq_append_getElem hlt] at hother
    rcases List.mem_append.mp hother with hother | hother
    · exact h.begun other hother
    · exact List.mem_singleton.mp hother ▸ hfits
  · rw [hwritten]
    exact h.handled.trans (List.prefix_append _ _)
  · rw [hwritten]
    exact (h.inFlight hopen).trans (List.prefix_append _ _)
  · have hwhole := h.whole hopen (by rw [hidle]; rfl)
    rw [hidle] at hwhole
    simp only [NodePhase.outbox, List.append_nil] at hwhole
    rw [hwritten, ← hwhole, hphase]

theorem Accounted.steps (h : Accounted limits gathered c) (hstep : Steps limits c action d) :
    Accounted limits gathered d := by
  cases hstep with
  | finish hphase hend =>
    refine h.of_phase fun _ => ?_
    rw [hphase]
    exact ⟨rfl,rfl⟩
  | refuse hphase hop hlarge => exact h.of_phase fun hstays => by cases hstays
  | write hphase hop hwrites hfits => exact h.of_begin hphase hop hfits outbox_sendingOrIdle
  | await hphase hop => exact h.of_begin hphase hop id rfl
  | @send ignored first rest hphase hfirst =>
    have hlive : c.phase.aborted = false := by rw [hphase]; rfl
    have hsplit : c.closed = false → c.handled.flatMap Frame.encode ++ gathered ++
        (c.toService ++ first) ++ rest = c.written := by
      intro hopen
      have hwhole := h.whole hopen hlive
      rw [hphase] at hwhole
      simpa [NodePhase.outbox] using hwhole
    refine ⟨h.begun,h.bounded,h.handled,fun hopen => ⟨rest,hsplit hopen⟩,fun hopen _ => ?_⟩
    rw [outbox_sendingOrIdle]
    exact hsplit hopen
  | sendFails hphase hclosed =>
    have hnever : ∀ {p : Prop}, c.closed = false → p := fun hopen => by
      rw [hclosed] at hopen
      cases hopen
    exact ⟨h.begun,h.bounded,h.handled,hnever,fun hopen => hnever hopen⟩
  | @receive call chunk rest hphase hbytes hchunk hwanted =>
    have hlive : c.phase.aborted = false := by rw [hphase]; rfl
    have hwhole := fun hopen => h.whole hopen hlive
    rw [hphase] at hwhole
    rcases call.take limits chunk with next | e | frame
    · exact ⟨h.begun,h.bounded,h.handled,h.inFlight,fun hopen _ => hwhole hopen⟩
    · exact ⟨h.begun,h.bounded,h.handled,h.inFlight,nofun⟩
    · exact ⟨h.begun,h.bounded,h.handled,h.inFlight,fun hopen _ => hwhole hopen⟩
  | meetsEnd hphase hclosed => exact h.of_phase fun hstays => by cases hstays
  | killed haction hphase => exact h.of_phase fun hstays => by cases hstays

/-- Bytes in flight were received. -/
theorem Accounted.receive (h : Accounted limits gathered c) {chunk rest : ByteString}
    (hbytes : c.toService = chunk ++ rest) :
    Accounted limits (gathered ++ chunk) { c with toService := rest } := by
  refine ⟨h.begun,h.bounded,h.handled,fun hopen => ?_,fun hopen hstays => ?_⟩
  · have hflight := h.inFlight hopen
    rw [hbytes] at hflight
    simp only [List.append_assoc] at hflight ⊢
    exact hflight
  · have hwhole := h.whole hopen hstays
    rw [hbytes] at hwhole
    simp only [List.append_assoc] at hwhole ⊢
    exact hwhole

/-- What was gathered is a frame. -/
theorem Accounted.handle {frame : Frame} (h : Accounted limits frame.encode c)
    (hopen : c.closed = false) (hbound : frame.payload.length ≤ limits.maxFrameBytes) :
    Accounted limits [] { c with handled := c.handled ++ [frame] } := by
  have hframes : (c.handled ++ [frame]).flatMap Frame.encode =
      c.handled.flatMap Frame.encode ++ frame.encode := by simp
  refine ⟨h.begun,fun other hother => ?_,?_,fun _ => ?_,fun _ hstays => ?_⟩
  · rcases List.mem_append.mp hother with hother | hother
    · exact h.bounded other hother
    · exact List.mem_singleton.mp hother ▸ hbound
  · rw [hframes]
    exact (List.prefix_append _ _).trans (h.inFlight hopen)
  · rw [hframes, List.append_nil]
    exact h.inFlight hopen
  · rw [hframes, List.append_nil]
    exact h.whole hopen hstays

theorem Accounted.answer (h : Accounted limits gathered c) (toNode : ByteString) :
    Accounted limits gathered { c with toNode := toNode } :=
  ⟨h.begun,h.bounded,h.handled,h.inFlight,h.whole⟩

theorem Accounted.close (h : Accounted limits gathered c) :
    Accounted limits [] { c with closed := true } :=
  ⟨h.begun,h.bounded,h.handled,nofun,nofun⟩

/-- A step of the process leaves alone what the service knows of the connection. -/
theorem Steps.kept (h : Steps limits c action d) :
    d.program = c.program ∧ d.handled = c.handled ∧ d.closed = c.closed := by
  cases h with
  | @receive call chunk rest =>
    rcases call.take limits chunk with next | e | frame <;> exact ⟨rfl,rfl,rfl⟩
  | _ => exact ⟨rfl,rfl,rfl⟩

end Connection

/-- What the call in progress has gathered. -/
def ServePhase.gathered : ServePhase → ByteString
  | .receiving call => call.gathered
  | .listening | .replying _ | .closing | .ended _ => []

/-- A connection is being served. -/
def ServePhase.Serving : ServePhase → Prop
  | .receiving _ | .replying _ => True
  | .listening | .closing | .ended _ => False

theorem ServePhase.Serving.ne_ended {phase : ServePhase} (h : phase.Serving) (code : ℕ) :
    phase ≠ .ended code := by
  rintro rfl
  exact h

namespace Service
open Connection
variable {s t : Service} {limits : Limits} {count : ℕ} {r₀ : ObservatoryRuntime}
  {programs : List (List NodeOp)} {action : Action} {move : Connection.Action}

/-- The frames received so far, in the order of the connections. -/
def frames (s : Service) : List Frame := s.connections.flatMap (·.handled)

/-- Where a connection stands, by its place in the order of acceptance. -/
structure Stands (limits : Limits) (s : Service) (i : ℕ) (c : Connection) : Prop where
  accounted : Accounted limits (if i = s.served then s.phase.gathered else []) c
  closed_iff : c.closed = true ↔ i < s.served
  untouched : s.served < i ∨ (i = s.served ∧ ¬ s.phase.Serving) → c.handled = []

/-- What every step of the service preserves. -/
structure InOrder (limits : Limits) (count : ℕ) (r₀ : ObservatoryRuntime)
    (programs : List (List NodeOp)) (s : Service) : Prop where
  limits_eq : s.limits = limits
  count_eq : s.count = count
  programs_eq : s.connections.map (·.program) = programs
  stands : ∀ i c, s.connections[i]? = some c → s.Stands limits i c
  sound : ∀ call, s.phase = .receiving call → call.Sound limits
  within : s.phase.Serving → s.served < s.count
  bounded : s.served ≤ s.count
  runtime : (∀ code, s.phase ≠ .ended code) → s.runtime = serveFrames limits r₀ s.frames
  ended : ∀ code, s.phase = .ended code →
    s.runtime = (closeRuntime (serveFrames limits r₀ s.frames)).2 ∧
      code = s.exitCode (closeRuntime (serveFrames limits r₀ s.frames)).1

theorem inOrder_start : InOrder limits count r₀ programs (serviceWith limits count r₀ programs) := by
  refine ⟨rfl,rfl,?_,?_,nofun,False.elim,Nat.zero_le _,fun _ => ?_,nofun⟩
  · simp [serviceWith, Function.comp_def]
  · intro i c hc
    obtain ⟨program,-,rfl⟩ : ∃ program, programs[i]? = some program ∧
        ({ program := program } : Connection) = c := by
      simpa [serviceWith] using hc
    refine ⟨?_,?_,fun _ => rfl⟩
    · split_ifs <;> exact accounted_start limits program
    · simp [serviceWith]
  · have hnone : (serviceWith limits count r₀ programs).frames = [] := by
      refine List.flatMap_eq_nil_iff.mpr fun c hc => ?_
      obtain ⟨program,-,rfl⟩ := List.mem_map.mp hc
      rfl
    rw [hnone]
    rfl

/-- A step that leaves the place of the service alone leaves the others standing. -/
theorem Stands.of_same {i : ℕ} {c : Connection} (h : s.Stands limits i c)
    (hserved : t.served = s.served)
    (hgathered : t.phase.gathered = s.phase.gathered)
    (hserving : s.phase.Serving → t.phase.Serving) : t.Stands limits i c := by
  refine ⟨?_,?_,?_⟩
  · rw [hserved, hgathered]
    exact h.accounted
  · rw [hserved]
    exact h.closed_iff
  · rw [hserved]
    exact fun hlater => h.untouched (hlater.imp_right fun hnow => ⟨hnow.1,mt hserving hnow.2⟩)

/-- So does one that concerns the current connection only. -/
theorem Stands.of_other {i : ℕ} {c : Connection} (h : s.Stands limits i c) (hi : i ≠ s.served)
    (hserved : t.served = s.served) : t.Stands limits i c := by
  refine ⟨?_,?_,?_⟩
  · rw [hserved, if_neg hi]
    simpa only [if_neg hi] using h.accounted
  · rw [hserved]
    exact h.closed_iff
  · rw [hserved]
    exact fun hlater => h.untouched (hlater.imp_right fun hnow => absurd hnow.1 hi)

theorem InOrder.node (h : InOrder limits count r₀ programs s) {i : ℕ} {c d : Connection}
    (hc : s.connections[i]? = some c) (hstep : Connection.Steps s.limits c move d) :
    InOrder limits count r₀ programs { s with connections := s.connections.set i d } := by
  rw [h.limits_eq] at hstep
  obtain ⟨hprogram,hhandled,hclosed⟩ := hstep.kept
  have hstands := h.stands i c hc
  have hframes : (s.connections.set i d).flatMap (·.handled) = s.frames :=
    holds_set_of_eq hc hhandled
  refine ⟨h.limits_eq,h.count_eq,?_,?_,h.sound,h.within,h.bounded,fun hphase => ?_,
    fun code hphase => ?_⟩
  · rw [← h.programs_eq]
    exact map_set_of_eq hc hprogram
  · refine forall_set (fun j w hw _ => (h.stands j w hw).of_same rfl rfl id)
      ⟨hstands.accounted.steps hstep,?_,?_⟩
    · rw [hclosed]
      exact hstands.closed_iff
    · rw [hhandled]
      exact hstands.untouched
  · rw [frames, hframes]
    exact h.runtime hphase
  · rw [frames, hframes]
    exact h.ended code hphase

/-- The service turns to its current connection, or away from it. -/
theorem InOrder.turn (h : InOrder limits count r₀ programs s) {phase : ServePhase}
    (hlive : ∀ code, s.phase ≠ .ended code) (hnot : ∀ code, phase ≠ .ended code)
    (hgathered : phase.gathered = s.phase.gathered) (hserving : s.phase.Serving → phase.Serving)
    (hsound : ∀ call, phase = .receiving call → call.Sound limits)
    (hwithin : phase.Serving → s.served < s.count) :
    InOrder limits count r₀ programs { s with phase := phase } :=
  ⟨h.limits_eq,h.count_eq,h.programs_eq,
    fun i c hc => (h.stands i c hc).of_same rfl hgathered hserving,hsound,hwithin,
    h.bounded,fun _ => h.runtime hlive,fun code hcode => absurd hcode (hnot code)⟩

/-- With an answer to send or without one the connection is still served. -/
theorem replyingOrReceiving_spec (limits : Limits) (left : ByteString) :
    (replyingOrReceiving left).Serving ∧ (replyingOrReceiving left).gathered = [] ∧
      ∀ call, replyingOrReceiving left = .receiving call → call.Sound limits := by
  unfold replyingOrReceiving
  split_ifs
  · refine ⟨trivial,rfl,fun call hcall => ?_⟩
    cases hcall
    exact Receiving.sound_fresh
  · exact ⟨trivial,rfl,nofun⟩

/-- The current connection is open. -/
theorem InOrder.current_open (h : InOrder limits count r₀ programs s) {c : Connection}
    (hc : s.current = some c) : c.closed = false := by
  have hclosed := (h.stands s.served c hc).closed_iff
  rw [← Bool.not_eq_true, hclosed]
  exact lt_irrefl _

/-- Bytes were received on the current connection, or an answer was handed over to it. -/
theorem InOrder.advance (h : InOrder limits count r₀ programs s) {c d : Connection}
    (more : List Frame) (phase : ServePhase) (hc : s.current = some c)
    (hprogram : d.program = c.program) (hclosed : d.closed = c.closed)
    (hhandled : d.handled = c.handled ++ more)
    (hserving : s.phase.Serving) (hnext : phase.Serving)
    (haccounted : Accounted limits phase.gathered d)
    (hsound : ∀ call, phase = .receiving call → call.Sound limits) :
    InOrder limits count r₀ programs
      { s.putCurrent d with phase := phase, runtime := serveFrames limits s.runtime more } := by
  have hframes : (s.connections.set s.served d).flatMap (·.handled) = s.frames ++ more :=
    holds_set_append hc hhandled fun j w hw hj => (h.stands j w hw).untouched (Or.inl hj)
  refine ⟨h.limits_eq,h.count_eq,?_,?_,hsound,fun _ => h.within hserving,h.bounded,fun _ => ?_,
    fun code hcode => ?_⟩
  · rw [← h.programs_eq]
    exact map_set_of_eq hc hprogram
  · refine forall_set (fun j w hw hj => ?_) ⟨?_,?_,fun hlater => ?_⟩
    · exact (h.stands j w hw).of_other hj rfl
    · exact (if_pos rfl).symm ▸ haccounted
    · rw [hclosed]
      exact (h.stands _ c hc).closed_iff
    · rcases hlater with hlater | ⟨-,hnot⟩
      · exact absurd hlater (lt_irrefl _)
      · exact absurd hnext hnot
  · simp only [frames, putCurrent]
    rw [hframes, h.runtime hserving.ne_ended]
    simp [serveFrames, List.foldl_append]
  · exact absurd hcode (hnext.ne_ended code)

/-- The current connection was closed. -/
theorem InOrder.close (h : InOrder limits count r₀ programs s) {c d : Connection}
    (more : List Frame) (hc : s.current = some c) (hprogram : d.program = c.program)
    (hhandled : d.handled = c.handled ++ more) (hmore : serveFrames limits s.runtime more = s.runtime)
    (hserving : s.phase.Serving) (haccounted : Accounted limits [] { d with closed := true }) :
    InOrder limits count r₀ programs (s.endConnection d) := by
  have hframes : (s.connections.set s.served { d with closed := true }).flatMap (·.handled) =
      s.frames ++ more :=
    holds_set_append hc hhandled fun j w hw hj => (h.stands j w hw).untouched (Or.inl hj)
  refine ⟨h.limits_eq,h.count_eq,?_,?_,nofun,False.elim,h.within hserving,fun _ => ?_,nofun⟩
  · rw [← h.programs_eq]
    exact map_set_of_eq hc hprogram
  · refine forall_set (fun j w hw hj => ⟨?_,?_,fun hlater => ?_⟩) ⟨?_,?_,?_⟩
    · have haccounted := (h.stands j w hw).accounted
      rw [if_neg hj] at haccounted
      split_ifs <;> exact haccounted
    · rw [(h.stands j w hw).closed_iff]
      simp only [endConnection, putCurrent]
      omega
    · simp only [endConnection, putCurrent] at hlater
      exact (h.stands j w hw).untouched (Or.inl (by omega))
    · split_ifs <;> exact haccounted
    · simp [endConnection, putCurrent]
    · simp [endConnection, putCurrent]
  · simp only [frames, endConnection, putCurrent]
    rw [hframes]
    have hbefore := h.runtime hserving.ne_ended
    rw [← hmore, hbefore]
    simp [serveFrames, List.foldl_append]

/-- A frame was received on the current connection. -/
theorem InOrder.dispatch (h : InOrder limits count r₀ programs s) {c d : Connection}
    (hc : s.current = some c) (hserving : s.phase.Serving) (hprogram : d.program = c.program)
    (hclosed : d.closed = c.closed) (hhandled : d.handled = c.handled) {frame : Frame}
    (haccounted : Accounted limits [] { d with handled := d.handled ++ [frame] }) :
    InOrder limits count r₀ programs (s.dispatch d frame) := by
  have hhandled : d.handled ++ [frame] = c.handled ++ [frame] := by rw [hhandled]
  unfold Service.dispatch
  split_ifs with hbye
  · refine h.close [frame] hc hprogram hhandled ?_ hserving haccounted.close
    simp [serveFrames, handleFrame_bye limits s.runtime hbye]
  · have hruntime : serveFrames limits s.runtime [frame] =
        (handleFrame s.limits s.runtime frame).2 := by
      rw [h.limits_eq]
      rfl
    obtain ⟨hnext,hgathered,hsound⟩ := replyingOrReceiving_spec limits
      (replyBytes s.limits (handleFrame s.limits s.runtime frame).1)
    have hadvance := h.advance (d := { d with handled := d.handled ++ [frame] }) [frame] _ hc
      hprogram hclosed hhandled hserving hnext (hgathered.symm ▸ haccounted) hsound
    rw [hruntime] at hadvance
    exact hadvance

/-- Bytes were received on the current connection. -/
theorem InOrder.receive (h : InOrder limits count r₀ programs s) {call : Receiving} {c : Connection}
    {chunk rest : ByteString} (hphase : s.phase = .receiving call) (hc : s.current = some c)
    (hbytes : c.toService = chunk ++ rest) (hwanted : chunk.length ≤ call.wanted) :
    InOrder limits count r₀ programs
      (s.received { c with toService := rest } (call.take s.limits chunk)) := by
  have hserving : s.phase.Serving := by rw [hphase]; trivial
  have hopen := h.current_open hc
  have haccounted : Accounted limits (call.gathered ++ chunk) { c with toService := rest } := by
    have hstands := (h.stands s.served c hc).accounted
    rw [if_pos rfl, hphase] at hstands
    exact hstands.receive hbytes
  have htaken := (h.sound call hphase).take hwanted
  rw [h.limits_eq]
  cases htake : call.take limits chunk with
  | inl next =>
    rw [htake] at htaken
    obtain ⟨hsound,hgathered⟩ : next.Sound limits ∧ next.gathered = call.gathered ++ chunk := by
      cases htaken with
      | going hsound hgathered => exact ⟨hsound,hgathered⟩
    have hnext : (ServePhase.receiving next).gathered = call.gathered ++ chunk := hgathered
    refine h.advance (d := { c with toService := rest }) [] (.receiving next) hc rfl rfl
       (List.append_nil _).symm hserving trivial (hnext ▸ haccounted) fun other hother => ?_
    cases hother
    exact hsound
  | inr result =>
    rw [htake] at htaken
    cases htaken with
    | frame hframe hbound =>
      rw [hframe] at haccounted
      exact h.dispatch (d := { c with toService := rest }) hc hserving rfl rfl rfl
        (haccounted.handle hopen hbound)
    | violation hviolation =>
      exact h.close [] hc rfl (List.append_nil _).symm rfl hserving haccounted.close

theorem InOrder.steps (h : InOrder limits count r₀ programs s) (hstep : Steps s action t) :
    InOrder limits count r₀ programs t := by
  cases hstep with
  | node haction hc hstep => exact h.node hc hstep
  | accept hphase hcount hc =>
    refine h.turn ?_ nofun ?_ (fun _ => trivial) (fun call hcall => ?_) fun _ => hcount
    · rw [hphase]
      exact nofun
    · rw [hphase]
      rfl
    · cases hcall
      exact Receiving.sound_fresh
  | acceptFails haction hphase hcount =>
    refine h.turn ?_ nofun ?_ ?_ nofun False.elim
    all_goals rw [hphase]
    · exact nofun
    · rfl
    · exact id
  | receive hphase hc hbytes hchunk hwanted => exact h.receive hphase hc hbytes hwanted
  | meetsEnd hphase hc hend =>
    have hserving : s.phase.Serving := by rw [hphase]; trivial
    exact h.close [] hc rfl (List.append_nil _).symm rfl hserving
      (h.stands _ _ hc).accounted.close
  | @send c first rest hphase hc hfirst =>
    have hserving : s.phase.Serving := by rw [hphase]; trivial
    have haccounted := (h.stands _ _ hc).accounted
    rw [if_pos rfl, hphase] at haccounted
    obtain ⟨hnext,hgathered,hsound⟩ := replyingOrReceiving_spec limits rest
    exact h.advance (d := { c with toNode := c.toNode ++ first }) [] _ hc rfl rfl
      (List.append_nil _).symm hserving hnext (hgathered.symm ▸ haccounted.answer _) hsound
  | sendFails hphase hc hgone =>
    have hserving : s.phase.Serving := by rw [hphase]; trivial
    refine h.turn ?_ nofun ?_ (fun _ => trivial) (fun call hcall => ?_) fun _ => h.within hserving
    · rw [hphase]
      exact nofun
    · rw [hphase]
      rfl
    · cases hcall
      exact Receiving.sound_fresh
  | finish hphase =>
    have hidle : ¬ s.phase.Serving ∧ s.phase.gathered = [] ∧ ∀ code, s.phase ≠ .ended code := by
      rcases hphase with hphase | ⟨hphase,-⟩ <;> rw [hphase] <;> exact ⟨id,rfl,nofun⟩
    obtain ⟨hserving,hgathered,hlive⟩ := hidle
    refine ⟨h.limits_eq,h.count_eq,h.programs_eq,fun i c hc => ?_,nofun,False.elim,h.bounded,
      fun hnot => absurd rfl (hnot _),fun code hcode => ?_⟩
    · exact (h.stands i c hc).of_same rfl hgathered.symm fun hnow => absurd hnow hserving
    · obtain rfl := ServePhase.ended.inj hcode
      have hclosed : closeRuntime (serveFrames limits r₀ s.frames) = closeRuntime s.runtime := by
        rw [h.runtime hlive]
      exact ⟨(congrArg Prod.snd hclosed).symm,congrArg (s.exitCode ·.1) hclosed.symm⟩

/-- Whatever the processes write, however the bytes are cut and whoever moves next. -/
theorem InOrder.of_run (h : Run step anything (serviceWith limits count r₀ programs) s) :
    InOrder limits count r₀ programs s :=
  h.invariant inOrder_start fun _ _ _ _ hstep hbefore => hbefore.steps (steps_of_step hstep)

end Service

end PathObservatory
