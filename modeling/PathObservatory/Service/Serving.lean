import PathObservatory.Infrastructure.Receiving
import PathObservatory.Library.Interleaving
import PathObservatory.Runtime.Pipeline

/-! # The service and its observing processes

The service takes one connection after the other and serves it until the peer says
goodbye or the stream ends. An observing process announces its sources, sends its
evidence one record at a time and waits for the answer to each. Either side hands over
and receives as many bytes at a time as the network allows, and a process may be killed.
-/
namespace PathObservatory

/-- What an observing process does, one operation after the other. -/
inductive NodeOp
  | send (type : FrameType) (payload : ByteString)
  /-- Bytes that need not be a frame. -/
  | raw (bytes : ByteString)
  | awaitReply
deriving DecidableEq, Repr

/-- The operations of a process that streams a fabric. -/
def nodeProgram (sources : List SourceDescriptor) (evidence : List ObservedPathEvidence) :
    List NodeOp :=
  sources.map (fun descriptor => .send .hello (Codec.encodeSource descriptor)) ++
    evidence.flatMap (fun record => [.send .evidence (Codec.encodeEvidence record),.awaitReply]) ++
    [.send .bye []]

inductive NodePhase
  | idle
  /-- Inside `send_all`, with the bytes that are still to be handed over. -/
  | sending (ignored : Bool) (left : ByteString)
  | awaiting (call : Receiving)
  /-- The program came to its end and the socket is closed. -/
  | done
  /-- An error made the process leave. -/
  | failed
  | killed
deriving DecidableEq, Repr

/-- The process has left and its socket is closed. -/
def NodePhase.gone : NodePhase → Bool
  | .done | .failed | .killed => true
  | .idle | .sending _ _ | .awaiting _ => false

/-- A connection with the process at its other end. -/
structure Connection where
  program : List NodeOp
  position : ℕ := 0
  phase : NodePhase := .idle
  /-- The answers it has received; the program only counts them. -/
  replies : List Frame := []
  toService : ByteString := []
  toNode : ByteString := []
  /-- The service has closed its end. -/
  closed : Bool := false
  /-- The frames the service has received; remembered, not stored. -/
  handled : List Frame := []
deriving DecidableEq, Repr

namespace Connection

inductive Action
  | beginOperation
  | sends (count : ℕ)
  | sendFails
  | receives (count : ℕ)
  | meetsEnd
  | killed
deriving DecidableEq, Repr

/-- `send_all` returns when every byte has been handed over. -/
def sendingOrIdle (ignored : Bool) (left : ByteString) : NodePhase :=
  if left = [] then .idle else .sending ignored left

/-- The next operation of the program, or its end. -/
def beginOperation (limits : Limits) (c : Connection) : Connection :=
  match c.program[c.position]? with
  | none => { c with phase := .done }
  | some (.send type payload) =>
    if limits.maxFrameBytes < payload.length then { c with phase := .failed }
    else { c with position := c.position + 1
                  phase := sendingOrIdle (type = .bye) (encodeFrame type 0 payload) }
  | some (.raw bytes) => { c with position := c.position + 1, phase := sendingOrIdle false bytes }
  | some .awaitReply => { c with position := c.position + 1, phase := .awaiting .fresh }

/-- The answer to a `recv` of the process. -/
def received (c : Connection) : Receiving ⊕ Result Frame → Connection
  | .inl call => { c with phase := .awaiting call }
  | .inr (.ok frame) => { c with phase := .idle, replies := c.replies ++ [frame] }
  | .inr (.error _) => { c with phase := .failed }

/-- A step of the process. Only the status of a goodbye is ignored. -/
def step (limits : Limits) (c : Connection) : Action → Option Connection
  | .beginOperation => if c.phase = .idle then some (c.beginOperation limits) else none
  | .sends count =>
    match c.phase with
    | .sending ignored left =>
      if 0 < count ∧ count ≤ left.length then
        some { c with toService := c.toService ++ left.take count
                      phase := sendingOrIdle ignored (left.drop count) }
      else none
    | _ => none
  | .sendFails =>
    match c.phase with
    | .sending ignored _ =>
      if c.closed then some { c with phase := if ignored then .idle else .failed } else none
    | _ => none
  | .receives count =>
    match c.phase with
    | .awaiting call =>
      if 0 < count ∧ count ≤ min call.wanted Socket.kMaxRecvBytes ∧ count ≤ c.toNode.length then
        some ({ c with toNode := c.toNode.drop count }.received
          (call.take limits (c.toNode.take count)))
      else none
    | _ => none
  | .meetsEnd =>
    match c.phase with
    | .awaiting _ => if c.closed then some { c with phase := .failed } else none
    | _ => none
  | .killed => if c.phase.gone then none else some { c with phase := .killed }

end Connection

/-- The bytes of a frame, unless its payload is above the bound. -/
def sendable (limits : Limits) (type : FrameType) (payload : ByteString) : Option ByteString :=
  if limits.maxFrameBytes < payload.length then none else some (encodeFrame type 0 payload)

/-- What the service makes of a frame: the payload of its answer and the runtime it
leaves. Frames of other types, and what cannot be decoded, are passed over in silence. -/
def handleFrame (limits : Limits) (r : ObservatoryRuntime) (frame : Frame) :
    Option ByteString × ObservatoryRuntime :=
  match frame.type with
  | .hello =>
    match Codec.decodeExact (Codec.decodeSourceDescriptor limits) frame.payload with
    | .ok descriptor => (none,(r.registerSource descriptor).2)
    | .error _ => (none,r)
  | .evidence =>
    match Codec.decodeExact (Codec.decodeEvidence limits) frame.payload with
    | .ok evidence =>
      (some (bytesOf (if (r.ingestEvidence evidence).1.accepted then "accepted" else "rejected")),
        (r.ingestEvidence evidence).2)
    | .error _ => (none,r)
  | _ => (none,r)

inductive ServePhase
  | listening
  | receiving (call : Receiving)
  | replying (left : ByteString)
  /-- Accepting failed, so that no further connection is taken. -/
  | closing
  | ended (code : ℕ)
deriving DecidableEq, Repr

/-- The service with the connections in the order in which they are accepted. -/
structure Service where
  limits : Limits
  /-- The number of connections asked for. -/
  count : ℕ
  connections : List Connection
  served : ℕ := 0
  phase : ServePhase := .listening
  runtime : ObservatoryRuntime

namespace Service

inductive Action
  | node (i : ℕ) (action : Connection.Action)
  | accept
  | acceptFails
  | receives (count : ℕ)
  | meetsEnd
  | sends (count : ℕ)
  | sendFails
  | finish
deriving DecidableEq, Repr

/-- The connection that is being served. -/
def current (s : Service) : Option Connection := s.connections[s.served]?

def putCurrent (s : Service) (c : Connection) : Service :=
  { s with connections := s.connections.set s.served c }

/-- Close the connection and go on to the next one. -/
def endConnection (s : Service) (c : Connection) : Service :=
  { s.putCurrent { c with closed := true } with served := s.served + 1, phase := .listening }

def replyingOrReceiving (left : ByteString) : ServePhase :=
  if left = [] then .receiving .fresh else .replying left

/-- The bytes of an answer; one that cannot be sent is dropped. -/
def replyBytes (limits : Limits) (payload : Option ByteString) : ByteString :=
  (payload.bind (sendable limits .ack)).getD []

def reply (s : Service) (payload : Option ByteString) : Service :=
  { s with phase := replyingOrReceiving (replyBytes s.limits payload) }

/-- A frame was received on the connection. -/
def dispatch (s : Service) (c : Connection) (frame : Frame) : Service :=
  let c := { c with handled := c.handled ++ [frame] }
  if frame.type = .bye then s.endConnection c
  else
    { s.putCurrent c with runtime := (handleFrame s.limits s.runtime frame).2 }.reply
      (handleFrame s.limits s.runtime frame).1

/-- The answer to a `recv` of the service; any error ends the connection. -/
def received (s : Service) (c : Connection) : Receiving ⊕ Result Frame → Service
  | .inl call => { s.putCurrent c with phase := .receiving call }
  | .inr (.ok frame) => s.dispatch c frame
  | .inr (.error _) => s.endConnection c

/-- The end of the stream; a process that did not come to its end may take bytes in
flight with it. -/
def atEnd (c : Connection) : Bool :=
  match c.phase with
  | .done => c.toService = []
  | .failed | .killed => true
  | _ => false

/-- Compare everything and stop. -/
def closeRuntime (r : ObservatoryRuntime) : Status × ObservatoryRuntime :=
  match r.compareAll with
  | (.error e,r) => (.error e,r)
  | (.ok _,r) => r.stop

/-- The exit code tells whether every connection asked for was served. -/
def exitCode (s : Service) (status : Status) : ℕ :=
  match status with
  | .error _ => 1
  | .ok () => if s.served = s.count then 0 else 1

def finish (s : Service) : Service :=
  { s with phase := .ended (s.exitCode (closeRuntime s.runtime).1)
           runtime := (closeRuntime s.runtime).2 }

def step (s : Service) : Action → Option Service
  | .node i action => do
    let c ← s.connections[i]?
    let c ← c.step s.limits action
    return { s with connections := s.connections.set i c }
  | .accept =>
    if s.phase = .listening ∧ s.served < s.count ∧ s.current.isSome then
      some { s with phase := .receiving .fresh }
    else none
  | .acceptFails =>
    if s.phase = .listening ∧ s.served < s.count then some { s with phase := .closing } else none
  | .receives count =>
    match s.phase, s.current with
    | .receiving call, some c =>
      if 0 < count ∧ count ≤ min call.wanted Socket.kMaxRecvBytes ∧
          count ≤ c.toService.length then
        some (s.received { c with toService := c.toService.drop count }
          (call.take s.limits (c.toService.take count)))
      else none
    | _, _ => none
  | .meetsEnd =>
    match s.phase, s.current with
    | .receiving _, some c => if atEnd c then some (s.endConnection c) else none
    | _, _ => none
  | .sends count =>
    match s.phase, s.current with
    | .replying left, some c =>
      if 0 < count ∧ count ≤ left.length then
        some { s.putCurrent { c with toNode := c.toNode ++ left.take count } with
          phase := replyingOrReceiving (left.drop count) }
      else none
    | _, _ => none
  | .sendFails =>
    match s.phase, s.current with
    | .replying _, some c => if c.phase.gone then some { s with phase := .receiving .fresh } else none
    | _, _ => none
  | .finish =>
    if s.phase = .closing ∨ (s.phase = .listening ∧ s.count ≤ s.served) then some s.finish
    else none

end Service

/-- The service before its first connection, with processes that run these programs. -/
def serviceWith (limits : Limits) (count : ℕ) (runtime : ObservatoryRuntime)
    (programs : List (List NodeOp)) : Service where
  limits := limits
  count := count
  connections := programs.map fun program => { program := program }
  runtime := runtime

/-! ## What a step of the service can do

One case for each effect a step can have, with the guards under which it happens. A
`recv` or a `send` moves a non-empty first part of what is there to be moved.
-/
open Interleaving

/-- What an operation hands over when it is done. -/
def NodeOp.bytes : NodeOp → ByteString
  | .send type payload => encodeFrame type 0 payload
  | .raw bytes => bytes
  | .awaitReply => []

/-- The operation is refused for its size. -/
def NodeOp.TooLarge (limits : Limits) : NodeOp → Prop
  | .send _ payload => limits.maxFrameBytes < payload.length
  | .raw _ | .awaitReply => False

instance (limits : Limits) (op : NodeOp) : Decidable (op.TooLarge limits) :=
  match op with
  | .send _ payload => inferInstanceAs (Decidable (limits.maxFrameBytes < payload.length))
  | .raw _ => inferInstanceAs (Decidable False)
  | .awaitReply => inferInstanceAs (Decidable False)

/-- The operations that hand something over. -/
def NodeOp.Writes : NodeOp → Prop
  | .send _ _ | .raw _ => True
  | .awaitReply => False

/-- Failing to send it does not stop the process. -/
def NodeOp.ignored : NodeOp → Bool
  | .send type _ => type = .bye
  | .raw _ | .awaitReply => false

/-- The bytes a process has still to hand over. -/
def NodePhase.outbox : NodePhase → ByteString
  | .sending _ left => left
  | .idle | .awaiting _ | .done | .failed | .killed => []

/-- What a process has received of an answer. -/
def NodePhase.gathered : NodePhase → ByteString
  | .awaiting call => call.gathered
  | .idle | .sending _ _ | .done | .failed | .killed => []

/-- The process left before the end of its program. -/
def NodePhase.aborted : NodePhase → Bool
  | .failed | .killed => true
  | .idle | .sending _ _ | .awaiting _ | .done => false

/-- The process asked for an answer and has not received it. -/
def NodePhase.isAwaiting : NodePhase → Bool
  | .awaiting _ => true
  | .idle | .sending _ _ | .done | .failed | .killed => false

namespace Connection
variable {limits : Limits} {c d : Connection} {action : Action} {left : ByteString}
  {ignored : Bool} {op : NodeOp}

/-- The bytes of the operations begun so far. -/
def written (c : Connection) : ByteString := (c.program.take c.position).flatMap NodeOp.bytes

@[simp] theorem outbox_sendingOrIdle : (sendingOrIdle ignored left).outbox = left := by
  unfold sendingOrIdle
  split_ifs with h
  · exact h.symm
  · rfl

@[simp] theorem gathered_sendingOrIdle : (sendingOrIdle ignored left).gathered = [] := by
  unfold sendingOrIdle
  split_ifs <;> rfl

@[simp] theorem gone_sendingOrIdle : (sendingOrIdle ignored left).gone = false := by
  unfold sendingOrIdle
  split_ifs <;> rfl

theorem ne_awaiting_sendingOrIdle {call : Receiving} {p : Prop}
    (h : sendingOrIdle ignored left = .awaiting call) : p := by
  unfold sendingOrIdle at h
  split_ifs at h

/-- Beginning an operation adds what it will hand over. -/
theorem written_next (hop : c.program[c.position]? = some op) :
    (c.program.take (c.position + 1)).flatMap NodeOp.bytes = c.written ++ op.bytes := by
  obtain ⟨hlt,hget⟩ := List.getElem?_eq_some_iff.mp hop
  rw [written, List.take_succ_eq_append_getElem hlt, List.flatMap_append, hget]
  simp

/-- The effects of a step of the process. -/
inductive Steps (limits : Limits) (c : Connection) (action : Action) : Connection → Prop
  | finish (hphase : c.phase = .idle) (hend : c.program[c.position]? = none) :
      Steps limits c action { c with phase := .done }
  | refuse {op : NodeOp} (hphase : c.phase = .idle) (hop : c.program[c.position]? = some op)
      (hlarge : op.TooLarge limits) : Steps limits c action { c with phase := .failed }
  | write {op : NodeOp} (hphase : c.phase = .idle) (hop : c.program[c.position]? = some op)
      (hwrites : op.Writes) (hfits : ¬ op.TooLarge limits) :
      Steps limits c action
        { c with position := c.position + 1, phase := sendingOrIdle op.ignored op.bytes }
  | await (hphase : c.phase = .idle) (hop : c.program[c.position]? = some .awaitReply) :
      Steps limits c action { c with position := c.position + 1, phase := .awaiting .fresh }
  | send {ignored : Bool} {first rest : ByteString} (hphase : c.phase = .sending ignored (first ++ rest))
      (hfirst : first ≠ []) :
      Steps limits c action
        { c with toService := c.toService ++ first, phase := sendingOrIdle ignored rest }
  | sendFails {ignored : Bool} {left : ByteString} (hphase : c.phase = .sending ignored left)
      (hclosed : c.closed = true) :
      Steps limits c action { c with phase := if ignored then .idle else .failed }
  | receive {call : Receiving} {chunk rest : ByteString} (hphase : c.phase = .awaiting call)
      (hbytes : c.toNode = chunk ++ rest) (hchunk : chunk ≠ [])
      (hwanted : chunk.length ≤ call.wanted) :
      Steps limits c action ({ c with toNode := rest }.received (call.take limits chunk))
  | meetsEnd {call : Receiving} (hphase : c.phase = .awaiting call) (hclosed : c.closed = true) :
      Steps limits c action { c with phase := .failed }
  | killed (haction : action = .killed) (hphase : c.phase.gone = false) :
      Steps limits c action { c with phase := .killed }

/-- A non-empty first part of some bytes. -/
theorem split_front {bytes : ByteString} {count : ℕ} (hpos : 0 < count)
    (hcount : count ≤ bytes.length) :
    bytes = bytes.take count ++ bytes.drop count ∧ bytes.take count ≠ [] ∧
      (bytes.take count).length = count := by
  have hlength : (bytes.take count).length = count := by simpa using hcount
  refine ⟨(List.take_append_drop count bytes).symm,fun hnil => ?_,hlength⟩
  rw [hnil] at hlength
  exact hpos.ne hlength

theorem steps_of_beginOperation (hphase : c.phase = .idle) :
    Steps limits c action (c.beginOperation limits) := by
  unfold beginOperation
  cases hop : c.program[c.position]? with
  | none => exact .finish hphase hop
  | some op =>
    cases op with
    | send type payload =>
      simp only
      split_ifs with hlarge
      · exact .refuse hphase hop hlarge
      · exact .write hphase hop trivial hlarge
    | raw bytes => exact .write hphase hop trivial id
    | awaitReply => exact .await hphase hop

theorem steps_of_step (h : c.step limits action = some d) : Steps limits c action d := by
  cases action with
  | beginOperation =>
    simp only [step] at h
    split_ifs at h with hphase
    obtain rfl := Option.some.inj h
    exact steps_of_beginOperation hphase
  | sends count =>
    simp only [step] at h
    split at h
    · rename_i ignored left hphase
      split_ifs at h with hcount
      obtain rfl := Option.some.inj h
      obtain ⟨hsplit,hne,-⟩ := split_front hcount.1 hcount.2
      rw [hsplit] at hphase
      exact .send hphase hne
    · cases h
  | sendFails =>
    simp only [step] at h
    split at h
    · rename_i hphase
      by_cases hclosed : c.closed = true
      · rw [if_pos hclosed] at h
        obtain rfl := Option.some.inj h
        exact .sendFails hphase hclosed
      · rw [if_neg hclosed] at h
        cases h
    · cases h
  | receives count =>
    simp only [step] at h
    split at h
    · rename_i call hphase
      split_ifs at h with hcount
      obtain rfl := Option.some.inj h
      obtain ⟨hsplit,hne,hlength⟩ := split_front hcount.1 hcount.2.2
      exact .receive hphase hsplit hne (by rw [hlength]; exact hcount.2.1.trans (min_le_left _ _))
    · cases h
  | meetsEnd =>
    simp only [step] at h
    split at h
    · rename_i hphase
      split_ifs at h with hclosed
      obtain rfl := Option.some.inj h
      exact .meetsEnd hphase hclosed
    · cases h
  | killed =>
    simp only [step] at h
    split_ifs at h with hgone
    obtain rfl := Option.some.inj h
    exact .killed rfl (Bool.eq_false_iff.mpr hgone)

end Connection

namespace Service
open Connection
variable {s t : Service} {action : Action} {c : Connection} {left : ByteString}

/-- The effects of a step of the service and its processes. -/
inductive Steps (s : Service) (action : Action) : Service → Prop
  | node {i : ℕ} {c d : Connection} {move : Connection.Action} (haction : action = .node i move)
      (hc : s.connections[i]? = some c) (hstep : Connection.Steps s.limits c move d) :
      Steps s action { s with connections := s.connections.set i d }
  | accept {c : Connection} (hphase : s.phase = .listening) (hcount : s.served < s.count)
      (hc : s.current = some c) : Steps s action { s with phase := .receiving .fresh }
  | acceptFails (haction : action = .acceptFails) (hphase : s.phase = .listening)
      (hcount : s.served < s.count) :
      Steps s action { s with phase := .closing }
  | receive {call : Receiving} {c : Connection} {chunk rest : ByteString}
      (hphase : s.phase = .receiving call) (hc : s.current = some c)
      (hbytes : c.toService = chunk ++ rest) (hchunk : chunk ≠ [])
      (hwanted : chunk.length ≤ call.wanted) :
      Steps s action (s.received { c with toService := rest } (call.take s.limits chunk))
  | meetsEnd {call : Receiving} {c : Connection} (hphase : s.phase = .receiving call)
      (hc : s.current = some c) (hend : atEnd c = true) : Steps s action (s.endConnection c)
  | send {c : Connection} {first rest : ByteString} (hphase : s.phase = .replying (first ++ rest))
      (hc : s.current = some c) (hfirst : first ≠ []) :
      Steps s action { s.putCurrent { c with toNode := c.toNode ++ first } with
        phase := replyingOrReceiving rest }
  | sendFails {left : ByteString} {c : Connection} (hphase : s.phase = .replying left)
      (hc : s.current = some c) (hgone : c.phase.gone = true) :
      Steps s action { s with phase := .receiving .fresh }
  | finish (hphase : s.phase = .closing ∨ s.phase = .listening ∧ s.count ≤ s.served) :
      Steps s action s.finish

theorem steps_of_step (h : s.step action = some t) : Steps s action t := by
  cases action with
  | node i action =>
    obtain ⟨c,hc,h⟩ := Option.bind_eq_some_iff.mp h
    obtain ⟨d,hd,h⟩ := Option.bind_eq_some_iff.mp h
    obtain rfl := Option.some.inj h
    exact .node rfl hc (Connection.steps_of_step hd)
  | accept =>
    simp only [step] at h
    split_ifs at h with hguard
    obtain rfl := Option.some.inj h
    obtain ⟨c,hc⟩ := Option.isSome_iff_exists.mp hguard.2.2
    exact .accept hguard.1 hguard.2.1 hc
  | acceptFails =>
    simp only [step] at h
    split_ifs at h with hguard
    obtain rfl := Option.some.inj h
    exact .acceptFails rfl hguard.1 hguard.2
  | receives count =>
    simp only [step] at h
    split at h
    · rename_i call c hphase hc
      split_ifs at h with hcount
      obtain rfl := Option.some.inj h
      obtain ⟨hsplit,hne,hlength⟩ := split_front hcount.1 hcount.2.2
      exact .receive hphase hc hsplit hne
        (by rw [hlength]; exact hcount.2.1.trans (min_le_left _ _))
    · cases h
  | meetsEnd =>
    simp only [step] at h
    split at h
    · rename_i call c hphase hc
      split_ifs at h with hend
      obtain rfl := Option.some.inj h
      exact .meetsEnd hphase hc hend
    · cases h
  | sends count =>
    simp only [step] at h
    split at h
    · rename_i left c hphase hc
      split_ifs at h with hcount
      obtain rfl := Option.some.inj h
      obtain ⟨hsplit,hne,-⟩ := split_front hcount.1 hcount.2
      rw [hsplit] at hphase
      exact .send hphase hc hne
    · cases h
  | sendFails =>
    simp only [step] at h
    split at h
    · rename_i left c hphase hc
      split_ifs at h with hgone
      obtain rfl := Option.some.inj h
      exact .sendFails hphase hc hgone
    · cases h
  | finish =>
    simp only [step] at h
    split_ifs at h with hguard
    obtain rfl := Option.some.inj h
    exact .finish hguard

end Service

end PathObservatory
