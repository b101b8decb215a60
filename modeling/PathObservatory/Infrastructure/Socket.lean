import PathObservatory.Foundation.Canonical
import PathObservatory.Library.ChunkStream

/-! # Sockets

The receiving side of a connection: a reliable byte stream that the network cuts as
it likes and that ends once the peer has closed. A shutdown ends the stream too, but
some platforms leave readable what had arrived before it. -/
namespace PathObservatory

/-- A connected socket, what the peer has sent on it, and how many unread bytes stay
readable behind a shutdown; the platform decides the latter. -/
structure Socket where
  incoming : ChunkStream := {}
  held : ℕ := 0
  isShut : Bool := false
  valid : Bool := true

namespace Socket

/-- One `recv`; nothing means that the connection is at its end. -/
def recv (s : Socket) (count : ℕ) : ByteString × Socket :=
  ((s.incoming.deliver count).1,{ s with incoming := (s.incoming.deliver count).2 })

def kMaxRecvBytes : ℕ := 2147483647

def peerClosed : Error :=
  { code := .connectionClosed, message := "peer closed the connection" }

/-- Receive until `size` bytes are there. -/
def recvLoop (size : ℕ) (received : ByteString) (s : Socket) : Result ByteString × Socket :=
  if size ≤ received.length then (.ok received,s)
  else
    match s.recv (min (size - received.length) kMaxRecvBytes) with
    | ([],s) => (.error peerClosed,s)
    | (byte :: more,s) => recvLoop size (received ++ byte :: more) s
termination_by size - received.length
decreasing_by simp only [List.length_append, List.length_cons]; omega

def recvExact (s : Socket) (size : ℕ) : Result ByteString × Socket :=
  if ¬ s.valid then
    (.error { code := .invalidState, message := "recv() on an invalid socket" },s)
  else recvLoop size [] s

/-- The end of the stream moves up to the bytes that stay readable. -/
def shutdownBoth (s : Socket) : Socket :=
  { s with incoming := s.incoming.truncate s.held, isShut := true }

/-- The socket is usable, shut down or not, and these bytes are still to come. -/
structure Holds (s : Socket) (isShut : Bool) (held : ℕ) (bytes : ByteString) : Prop where
  valid : s.valid = true
  isShut_eq : s.isShut = isShut
  held_eq : s.held = held
  bytes_eq : s.incoming.bytes = bytes

variable {s : Socket} {isShut : Bool} {held : ℕ} {first rest bytes : ByteString}

theorem Holds.recv (h : s.Holds isShut held bytes) (count : ℕ) :
    (s.recv count).1 ++ (s.recv count).2.incoming.bytes = bytes ∧
      (s.recv count).1.length ≤ count ∧
      (s.recv count).2.Holds isShut held (s.recv count).2.incoming.bytes := by
  rw [← h.bytes_eq]
  exact ⟨s.incoming.deliver_append count,s.incoming.length_deliver_le count,h.valid,h.isShut_eq,
    h.held_eq,rfl⟩

theorem Holds.recv_eq_nil_iff (h : s.Holds isShut held bytes) {count : ℕ} (hcount : 0 < count) :
    (s.recv count).1 = [] ↔ bytes = [] := by
  rw [← h.bytes_eq, ← s.incoming.deliver_eq_nil_iff hcount]
  rfl

theorem Holds.shutdownBoth (h : s.Holds isShut held bytes) :
    s.shutdownBoth.Holds true held (bytes.take held) where
  valid := h.valid
  isShut_eq := rfl
  held_eq := h.held_eq
  bytes_eq := by rw [Socket.shutdownBoth, ChunkStream.bytes_truncate, h.bytes_eq, h.held_eq]

/-- The loop gathers the bytes asked for, wherever the stream is cut, or meets its
end. -/
theorem recvLoop_of_holds {size : ℕ} {received : ByteString} (h : s.Holds isShut held bytes)
    (hsize : received.length ≤ size) :
    (size ≤ received.length + bytes.length ∧ ∃ t,
      recvLoop size received s =
        (.ok (received ++ bytes.take (size - received.length)),t) ∧
      t.Holds isShut held (bytes.drop (size - received.length))) ∨
    (received.length + bytes.length < size ∧ ∃ t,
      recvLoop size received s = (.error peerClosed,t) ∧ t.Holds isShut held []) := by
  induction received, s using recvLoop.induct size generalizing bytes with
  | case1 received s hfull =>
    refine Or.inl ⟨hfull.trans (Nat.le_add_right _ _),s,?_,?_⟩
    · rw [recvLoop, if_pos hfull, Nat.sub_eq_zero_of_le hfull, List.take_zero, List.append_nil]
    · rwa [Nat.sub_eq_zero_of_le hfull, List.drop_zero]
  | case2 received s hfull t hrecv =>
    obtain ⟨hbytes,-,hholds⟩ := h.recv (min (size - received.length) kMaxRecvBytes)
    have hpos : 0 < min (size - received.length) kMaxRecvBytes := by
      rw [kMaxRecvBytes]
      omega
    have hend := (h.recv_eq_nil_iff hpos).mp (by rw [hrecv])
    subst hend
    rw [hrecv] at hbytes hholds
    simp only [List.nil_append] at hbytes hholds
    refine Or.inr ⟨by simpa using hfull,t,?_,hbytes ▸ hholds⟩
    rw [recvLoop, if_neg hfull, hrecv]
  | case3 received s hfull byte more t hrecv ih =>
    obtain ⟨hbytes,hle,hholds⟩ := h.recv (min (size - received.length) kMaxRecvBytes)
    rw [hrecv] at hbytes hle hholds
    simp only at hbytes hle hholds
    have hle : (byte :: more).length ≤ size - received.length := hle.trans (min_le_left _ _)
    have hloop : recvLoop size received s = recvLoop size (received ++ byte :: more) t := by
      rw [recvLoop, if_neg hfull, hrecv]
    have hlength : (received ++ byte :: more).length = received.length + (byte :: more).length :=
      List.length_append
    have hcount : bytes.length = (byte :: more).length + t.incoming.bytes.length := by
      rw [← hbytes, List.length_append]
    have hsplit : size - received.length - (byte :: more).length =
        size - (received ++ byte :: more).length := by omega
    rw [hloop]
    rcases ih hholds (by omega) with ⟨henough,u,hu,hrest⟩ | ⟨hshort,u,hu,hrest⟩
    · refine Or.inl ⟨by omega,u,?_,?_⟩
      · rw [hu, ← hbytes, List.take_append, List.take_of_length_le hle, hsplit, List.append_assoc]
      · rw [← hbytes, List.drop_append, List.drop_eq_nil_of_le hle, hsplit, List.nil_append]
        exact hrest
    · exact Or.inr ⟨by omega,u,hu,hrest⟩

theorem Holds.recvExact (h : s.Holds isShut held (first ++ rest)) :
    ∃ t, s.recvExact first.length = (.ok first,t) ∧ t.Holds isShut held rest := by
  have hexact : s.recvExact first.length = recvLoop first.length [] s := by
    simp [Socket.recvExact, h.valid]
  rw [hexact]
  have hnone : ([] : ByteString).length ≤ first.length := Nat.zero_le _
  rcases recvLoop_of_holds h hnone with ⟨-,t,ht,hrest⟩ | ⟨hshort,-⟩
  · refine ⟨t,?_,?_⟩
    · rw [ht]
      simp
    · simpa using hrest
  · simp only [List.length_nil, List.length_append] at hshort
    omega

theorem Holds.recvExact_short (h : s.Holds isShut held bytes) {size : ℕ}
    (hshort : bytes.length < size) :
    ∃ t, s.recvExact size = (.error peerClosed,t) ∧ t.Holds isShut held [] := by
  have hexact : s.recvExact size = recvLoop size [] s := by simp [Socket.recvExact, h.valid]
  rw [hexact]
  have hnone : ([] : ByteString).length ≤ size := Nat.zero_le _
  rcases recvLoop_of_holds h hnone with ⟨henough,-⟩ | ⟨-,hresult⟩
  · simp only [List.length_nil] at henough
    omega
  · exact hresult

end Socket

end PathObservatory
