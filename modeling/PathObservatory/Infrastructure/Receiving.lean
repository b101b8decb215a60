import PathObservatory.Infrastructure.FrameStream

/-! # A call of `receive` in progress

A call gathers the header and then the payload, one `recv` at a time. What it has
gathered is its state; a `recv` that brings bytes continues it or ends it with an
answer, and one that brings none ends it.
-/
namespace PathObservatory

/-- Where a call of `receive` stands. -/
inductive Receiving
  | inHeader (got : ByteString)
  | inPayload (header : ByteString) (type : FrameType) (got : ByteString)
deriving DecidableEq, Repr

namespace Receiving

/-- A call that has received nothing. -/
def fresh : Receiving := .inHeader []

/-- The bytes its loop still waits for. -/
def wanted : Receiving → ℕ
  | .inHeader got => kFrameHeaderBytes - got.length
  | .inPayload header _ got => (getU32 header 12).toNat - got.length

/-- Everything it has received. -/
def gathered : Receiving → ByteString
  | .inHeader got => got
  | .inPayload header _ got => header ++ got

/-- The check of a complete payload. -/
def finishPayload (header : ByteString) (type : FrameType) (payload : ByteString) :
    Result Frame :=
  if crc32c payload ≠ getU32 header 16 then
    .error { code := .integrityFailure,
             message := "frame payload failed its integrity check" }
  else .ok { type := type, flags := getU32 header 8, payload := payload }

/-- The checks of a complete header, up to the bound of the payload. -/
def checkHeader (limits : Limits) (header : ByteString) : Result FrameType :=
  if getU32 header 0 ≠ kFrameMagic then
    .error { code := .protocolViolation, message := "frame magic does not match" }
  else if getU16 header 4 ≠ kWireProtocolVersion then
    .error { code := .unsupportedVersion, message := "wire protocol version is not supported",
             detail := toString (getU16 header 4).toNat }
  else
    match FrameType.parse (getU16 header 6) with
    | .error e => .error e
    | .ok type =>
      if limits.maxFrameBytes < (getU32 header 12).toNat then
        .error { code := .capacityExceeded,
                 message := "frame payload exceeds the configured bound" }
      else .ok type

/-- Without a payload the header ends the call. -/
def finishHeader (limits : Limits) (header : ByteString) : Receiving ⊕ Result Frame :=
  match checkHeader limits header with
  | .error e => .inr (.error e)
  | .ok type =>
    if 0 < (getU32 header 12).toNat then .inl (.inPayload header type [])
    else .inr (finishPayload header type [])

/-- A `recv` brought some bytes. -/
def take (limits : Limits) (call : Receiving) (chunk : ByteString) : Receiving ⊕ Result Frame :=
  match call with
  | .inHeader got =>
    if kFrameHeaderBytes ≤ (got ++ chunk).length then finishHeader limits (got ++ chunk)
    else .inl (.inHeader (got ++ chunk))
  | .inPayload header type got =>
    if (getU32 header 12).toNat ≤ (got ++ chunk).length then
      .inr (finishPayload header type (got ++ chunk))
    else .inl (.inPayload header type (got ++ chunk))

/-- The call waits for bytes, and what it has received so far has passed the checks made
on it. -/
inductive Sound (limits : Limits) : Receiving → Prop
  | inHeader {got : ByteString} (h : got.length < kFrameHeaderBytes) : Sound limits (.inHeader got)
  | inPayload {header : ByteString} {type : FrameType} {got : ByteString}
      (hlength : header.length = kFrameHeaderBytes) (hmagic : getU32 header 0 = kFrameMagic)
      (hversion : getU16 header 4 = kWireProtocolVersion)
      (htype : FrameType.parse (getU16 header 6) = .ok type)
      (hbound : (getU32 header 12).toNat ≤ limits.maxFrameBytes)
      (hwanted : got.length < (getU32 header 12).toNat) : Sound limits (.inPayload header type got)

variable {limits : Limits} {call next : Receiving} {chunk header payload : ByteString}
  {type : FrameType} {f : Frame} {e : Error}

theorem sound_fresh : Sound limits fresh := .inHeader (by decide)

theorem Sound.wanted_pos (h : Sound limits call) : 0 < call.wanted := by
  cases h with
  | inHeader h => exact Nat.sub_pos_of_lt h
  | inPayload _ _ _ _ _ h => exact Nat.sub_pos_of_lt h

/-- A complete payload makes the frame that the header announces. -/
theorem encode_of_finishPayload (hlength : header.length = kFrameHeaderBytes)
    (hmagic : getU32 header 0 = kFrameMagic) (hversion : getU16 header 4 = kWireProtocolVersion)
    (htype : FrameType.parse (getU16 header 6) = .ok type)
    (hpayload : payload.length = (getU32 header 12).toNat)
    (h : finishPayload header type payload = .ok f) :
    f.encode = header ++ payload ∧ f.payload = payload := by
  unfold finishPayload at h
  split_ifs at h with hcrc
  cases h
  have hheader : Frame.header ⟨type,getU32 header 8,payload⟩ = header :=
    Frame.header_of_fields hlength hmagic hversion (FrameType.toUInt16_of_parse htype).symm rfl
      (by rw [hpayload]; simp) (not_not.mp hcrc).symm
  rw [Frame.encode_eq, hheader]
  exact ⟨rfl,rfl⟩

theorem violation_of_finishPayload (h : finishPayload header type payload = .error e) :
    FramedChannel.IsViolation e := by
  unfold finishPayload at h
  split_ifs at h
  cases h
  exact Or.inr (Or.inr (Or.inr rfl))

/-- What one `recv` can make of a call: it goes on and keeps what it has received, it
has received a whole frame, or it has met a violation. -/
inductive Taken (limits : Limits) (bytes : ByteString) : Receiving ⊕ Result Frame → Prop
  | going {next : Receiving} (hsound : Sound limits next) (hbytes : next.gathered = bytes) :
      Taken limits bytes (.inl next)
  | frame {f : Frame} (hbytes : bytes = f.encode)
      (hbound : f.payload.length ≤ limits.maxFrameBytes) : Taken limits bytes (.inr (.ok f))
  | violation {e : Error} (h : FramedChannel.IsViolation e) : Taken limits bytes (.inr (.error e))

/-- The header passed its checks, or it is refused for what it says. -/
theorem checkHeader_cases (limits : Limits) (header : ByteString) :
    (∃ type, checkHeader limits header = .ok type ∧ getU32 header 0 = kFrameMagic ∧
      getU16 header 4 = kWireProtocolVersion ∧ FrameType.parse (getU16 header 6) = .ok type ∧
      (getU32 header 12).toNat ≤ limits.maxFrameBytes) ∨
    ∃ e, checkHeader limits header = .error e ∧ FramedChannel.IsViolation e := by
  unfold checkHeader
  by_cases hmagic : getU32 header 0 ≠ kFrameMagic
  · exact Or.inr ⟨_,if_pos hmagic,Or.inl rfl⟩
  rw [if_neg hmagic]
  by_cases hversion : getU16 header 4 ≠ kWireProtocolVersion
  · exact Or.inr ⟨_,if_pos hversion,Or.inr (Or.inl rfl)⟩
  rw [if_neg hversion]
  cases htype : FrameType.parse (getU16 header 6) with
  | error e => exact Or.inr ⟨e,rfl,Or.inl (FrameType.code_of_parse htype)⟩
  | ok type =>
    by_cases hbound : limits.maxFrameBytes < (getU32 header 12).toNat
    · exact Or.inr ⟨_,if_pos hbound,Or.inr (Or.inr (Or.inl rfl))⟩
    · exact Or.inl ⟨type,if_neg hbound,not_not.mp hmagic,not_not.mp hversion,rfl,
        not_lt.mp hbound⟩

theorem finishHeader_taken (hlength : header.length = kFrameHeaderBytes) :
    Taken limits header (finishHeader limits header) := by
  unfold finishHeader
  rcases checkHeader_cases limits header with
    ⟨type,hcheck,hmagic,hversion,htype,hbound⟩ | ⟨e,hcheck,hviolation⟩
  · rw [hcheck]
    simp only
    split_ifs with hpos
    · exact .going (.inPayload hlength hmagic hversion htype hbound hpos)
        (List.append_nil header)
    · have hempty : ([] : ByteString).length = (getU32 header 12).toNat :=
        (Nat.eq_zero_of_not_pos hpos).symm
      cases hfinish : finishPayload header type [] with
      | error e => exact .violation (violation_of_finishPayload hfinish)
      | ok f =>
        obtain ⟨hencode,hpayload⟩ :=
          encode_of_finishPayload hlength hmagic hversion htype hempty hfinish
        refine .frame ?_ ?_
        · rw [hencode, List.append_nil]
        · rw [hpayload]
          exact Nat.zero_le _
  · rw [hcheck]
    exact .violation hviolation

/-- One `recv` of no more than was asked for. -/
theorem Sound.take (h : Sound limits call) (hchunk : chunk.length ≤ call.wanted) :
    Taken limits (call.gathered ++ chunk) (call.take limits chunk) := by
  cases h with
  | @inHeader got hgot =>
    have hchunk : chunk.length ≤ kFrameHeaderBytes - got.length := hchunk
    simp only [Receiving.take, gathered]
    split_ifs with hfull
    · refine finishHeader_taken (le_antisymm ?_ hfull)
      rw [List.length_append]
      omega
    · exact .going (.inHeader (not_le.mp hfull)) rfl
  | @inPayload header type got hlength hmagic hversion htype hbound hwanted =>
    have hchunk : chunk.length ≤ (getU32 header 12).toNat - got.length := hchunk
    simp only [Receiving.take, gathered, List.append_assoc]
    split_ifs with hfull
    · have hpayload : (got ++ chunk).length = (getU32 header 12).toNat := by
        refine le_antisymm ?_ hfull
        rw [List.length_append]
        omega
      cases hfinish : finishPayload header type (got ++ chunk) with
      | error e => exact .violation (violation_of_finishPayload hfinish)
      | ok f =>
        obtain ⟨hencode,hwhole⟩ :=
          encode_of_finishPayload hlength hmagic hversion htype hpayload hfinish
        refine .frame hencode.symm ?_
        rw [hwhole, hpayload]
        exact hbound
    · exact .going (.inPayload hlength hmagic hversion htype hbound (not_le.mp hfull)) rfl

/-- The header of a frame within the bound passes the checks. -/
theorem checkHeader_header (hbound : f.payload.length ≤ limits.maxFrameBytes)
    (hlimits : limits.maxFrameBytes < 2 ^ 32) :
    checkHeader limits f.header = .ok f.type ∧ (getU32 f.header 12).toNat = f.payload.length := by
  obtain ⟨hmagic,hversion,htype,-,hcount,-⟩ := f.header_fields
  have hsize : (getU32 f.header 12).toNat = f.payload.length := by
    rw [hcount]
    simpa using Nat.mod_eq_of_lt (hbound.trans_lt hlimits)
  refine ⟨?_,hsize⟩
  unfold checkHeader
  rw [if_neg (not_not.mpr hmagic), if_neg (not_not.mpr hversion), htype,
    FrameType.parse_toUInt16]
  exact if_neg (by rw [hsize]; exact not_lt.mpr hbound)

theorem finishPayload_frame (f : Frame) : finishPayload f.header f.type f.payload = .ok f := by
  obtain ⟨-,-,-,hflags,-,hcrc⟩ := f.header_fields
  unfold finishPayload
  rw [if_neg (not_not.mpr hcrc.symm), hflags]

/-- A call that meets a frame at the front of the stream gathers it or returns it. -/
theorem Sound.take_frame (h : Sound limits call) {rest more : ByteString}
    (hbound : f.payload.length ≤ limits.maxFrameBytes) (hlimits : limits.maxFrameBytes < 2 ^ 32)
    (hchunk : chunk.length ≤ call.wanted)
    (hbytes : call.gathered ++ chunk ++ rest = f.encode ++ more) :
    (∃ next, call.take limits chunk = .inl next) ∨ call.take limits chunk = .inr (.ok f) := by
  obtain ⟨hcheck,hsize⟩ := checkHeader_header hbound hlimits
  rw [Frame.encode_eq] at hbytes
  cases h with
  | @inHeader got hgot =>
    have hchunk : chunk.length ≤ kFrameHeaderBytes - got.length := hchunk
    have hbytes : (got ++ chunk) ++ rest = f.header ++ (f.payload ++ more) := by
      rw [← List.append_assoc f.header]
      exact hbytes
    simp only [Receiving.take]
    split_ifs with hfull
    · have hlength : (got ++ chunk).length = f.header.length := by
        rw [Frame.length_header]
        refine le_antisymm ?_ hfull
        rw [List.length_append]
        omega
      obtain ⟨hheader,-⟩ := List.append_inj hbytes hlength
      rw [hheader, finishHeader, hcheck]
      simp only
      split_ifs with hpos
      · exact Or.inl ⟨_,rfl⟩
      · have hempty : f.payload = [] := by
          rw [hsize] at hpos
          exact List.length_eq_zero_iff.mp (Nat.eq_zero_of_not_pos hpos)
        rw [← hempty, finishPayload_frame]
        exact Or.inr rfl
    · exact Or.inl ⟨_,rfl⟩
  | @inPayload header type got hlength hmagic hversion htype hannounced hgot =>
    have hchunk : chunk.length ≤ (getU32 header 12).toNat - got.length := hchunk
    have hbytes : header ++ ((got ++ chunk) ++ rest) = f.header ++ (f.payload ++ more) := by
      simpa only [gathered, List.append_assoc] using hbytes
    obtain ⟨rfl,hrest⟩ := List.append_inj hbytes (by rw [hlength, Frame.length_header])
    simp only [Receiving.take]
    split_ifs with hfull
    · have hpayload : (got ++ chunk).length = f.payload.length := by
        rw [← hsize]
        refine le_antisymm ?_ hfull
        rw [List.length_append]
        omega
      obtain ⟨hpayload,-⟩ := List.append_inj hrest hpayload
      have hsame : type = f.type := by
        obtain ⟨-,-,hcode,-,-,-⟩ := f.header_fields
        rw [hcode, FrameType.parse_toUInt16] at htype
        exact (Except.ok.inj htype).symm
      rw [hpayload, hsame, finishPayload_frame]
      exact Or.inr rfl
    · exact Or.inl ⟨_,rfl⟩

/-- What a call has gathered is no whole frame. -/
theorem Sound.gathered_ne_encode (h : Sound limits call) (more : ByteString)
    (hbound : f.payload.length ≤ limits.maxFrameBytes) (hlimits : limits.maxFrameBytes < 2 ^ 32) :
    call.gathered ≠ f.encode ++ more := by
  intro hbytes
  rw [Frame.encode_eq, List.append_assoc] at hbytes
  cases h with
  | @inHeader got hgot =>
    have hlength := congrArg List.length hbytes
    simp only [gathered, List.length_append, Frame.length_header] at hlength
    omega
  | @inPayload header type got hlength hmagic hversion htype hannounced hgot =>
    obtain ⟨rfl,rfl⟩ := List.append_inj hbytes (by rw [hlength, Frame.length_header])
    rw [(checkHeader_header hbound hlimits).2, List.length_append] at hgot
    omega

end Receiving

/-! ### The loops of a call, one `recv` at a time -/

namespace Socket
variable {size : ℕ} {got chunk : ByteString} {s t : Socket}

theorem valid_recvLoop (size : ℕ) (got : ByteString) (s : Socket) :
    (recvLoop size got s).2.valid = s.valid := by
  have hkept : ∀ (count : ℕ) (s : Socket), (s.recv count).2.valid = s.valid := fun _ _ => rfl
  induction got, s using recvLoop.induct size with
  | case1 got s hfull => rw [recvLoop, if_pos hfull]
  | case2 got s hfull t hrecv =>
    rw [recvLoop, if_neg hfull, hrecv]
    exact (congrArg (·.2.valid) hrecv).symm.trans (hkept _ s)
  | case3 got s hfull byte more t hrecv ih =>
    rw [recvLoop, if_neg hfull, hrecv]
    exact ih.trans ((congrArg (·.2.valid) hrecv).symm.trans (hkept _ s))

theorem recvLoop_of_le (h : size ≤ got.length) : recvLoop size got s = (.ok got,s) := by
  rw [recvLoop, if_pos h]

theorem recvLoop_of_nil (h : ¬ size ≤ got.length)
    (hrecv : (s.recv (min (size - got.length) kMaxRecvBytes)).1 = []) :
    ∃ t, recvLoop size got s = (.error peerClosed,t) := by
  rw [recvLoop, if_neg h]
  cases hresult : s.recv (min (size - got.length) kMaxRecvBytes) with
  | mk chunk t =>
    rw [hresult] at hrecv
    obtain rfl : chunk = [] := hrecv
    exact ⟨t,rfl⟩

theorem recvLoop_of_recv (h : ¬ size ≤ got.length)
    (hrecv : s.recv (min (size - got.length) kMaxRecvBytes) = (chunk,t)) (hchunk : chunk ≠ []) :
    recvLoop size got s = recvLoop size (got ++ chunk) t := by
  obtain ⟨byte,more,rfl⟩ := List.exists_cons_of_ne_nil hchunk
  rw [recvLoop, if_neg h, hrecv]

end Socket

namespace FramedChannel
open Receiving

variable {channel : FramedChannel} {socket : Socket} {call next : Receiving}
  {result : Result Frame} {chunk header got : ByteString} {type : FrameType}

/-- The loop that gathers the payload, from some of its bytes on. -/
def resumePayload (channel : FramedChannel) (header : ByteString) (type : FrameType)
    (got : ByteString) : Result Frame :=
  match Socket.recvLoop (getU32 header 12).toNat got channel.socket with
  | (.error e,_) => .error e
  | (.ok payload,_) => finishPayload header type payload

/-- What the call answers from where it stands. -/
def resume (channel : FramedChannel) : Receiving → Result Frame
  | .inHeader got =>
    match Socket.recvLoop kFrameHeaderBytes got channel.socket with
    | (.error e,_) => .error e
    | (.ok header,socket) =>
      match checkHeader channel.limits header with
      | .error e => .error e
      | .ok type =>
        if 0 < (getU32 header 12).toNat then
          { channel with socket := socket }.resumePayload header type []
        else finishPayload header type []
  | .inPayload header type got => channel.resumePayload header type got

theorem receiveBody_eq_of_bound (hbound : (getU32 header 12).toNat ≤ channel.limits.maxFrameBytes)
    (hvalid : channel.socket.valid = true) :
    (channel.receiveBody header type).1 =
      if 0 < (getU32 header 12).toNat then channel.resumePayload header type []
      else finishPayload header type [] := by
  unfold receiveBody receivePayload resumePayload
  rw [if_neg (not_lt.mpr hbound), Socket.recvExact, if_neg (not_not.mpr hvalid)]
  split_ifs with hpos
  · cases hloop : Socket.recvLoop (getU32 header 12).toNat [] channel.socket with
    | mk outcome socket =>
      cases outcome with
      | error e => rfl
      | ok payload =>
        simp only [finishPayload]
        split_ifs <;> rfl
  · simp only [finishPayload]
    split_ifs <;> rfl

/-- A call of `receive` is its loops, begun with nothing. -/
theorem receive_eq_resume (hvalid : channel.socket.valid = true) :
    channel.receive.1 = channel.resume fresh := by
  unfold receive fresh resume
  rw [Socket.recvExact, if_neg (not_not.mpr hvalid)]
  have hkept := Socket.valid_recvLoop kFrameHeaderBytes [] channel.socket
  cases hloop : Socket.recvLoop kFrameHeaderBytes [] channel.socket with
  | mk outcome socket =>
    rw [hloop] at hkept
    have hvalid : socket.valid = true := hkept.trans hvalid
    simp only [hloop]
    cases outcome with
    | error e => rfl
    | ok header =>
      simp only [checkHeader]
      by_cases hmagic : getU32 header 0 ≠ kFrameMagic
      · rw [if_pos hmagic, if_pos hmagic]
        rfl
      rw [if_neg hmagic, if_neg hmagic]
      by_cases hversion : getU16 header 4 ≠ kWireProtocolVersion
      · rw [if_pos hversion, if_pos hversion]
        rfl
      rw [if_neg hversion, if_neg hversion]
      cases htype : FrameType.parse (getU16 header 6) with
      | error e => rfl
      | ok type =>
        simp only
        by_cases hbound : channel.limits.maxFrameBytes < (getU32 header 12).toNat
        · rw [if_pos hbound]
          simp only [receiveBody]
          rw [if_pos hbound]
          rfl
        · rw [if_neg hbound]
          exact receiveBody_eq_of_bound (not_lt.mp hbound) hvalid

/-- A `recv` that brings nothing ends the call. -/
theorem resume_of_end (h : Sound channel.limits call)
    (hrecv : (channel.socket.recv (min call.wanted Socket.kMaxRecvBytes)).1 = []) :
    channel.resume call = .error Socket.peerClosed := by
  cases h with
  | @inHeader got hgot =>
    obtain ⟨t,hloop⟩ := Socket.recvLoop_of_nil (not_le.mpr hgot) hrecv
    simp only [resume, hloop]
  | @inPayload header type got _ _ _ _ _ hgot =>
    obtain ⟨t,hloop⟩ := Socket.recvLoop_of_nil (not_le.mpr hgot) hrecv
    simp only [resume, resumePayload, hloop]

/-- A `recv` that brings bytes takes one step of the call: it answers at once, or the
rest of it is left to do. -/
theorem resume_of_recv (h : Sound channel.limits call)
    (hrecv : channel.socket.recv (min call.wanted Socket.kMaxRecvBytes) = (chunk,socket))
    (hchunk : chunk ≠ []) :
    channel.resume call =
      match call.take channel.limits chunk with
      | .inl next => { channel with socket := socket }.resume next
      | .inr result => result := by
  cases h with
  | @inHeader got hgot =>
    simp only [resume, Receiving.take]
    rw [Socket.recvLoop_of_recv (not_le.mpr hgot) hrecv hchunk]
    split_ifs with hfull
    · rw [Socket.recvLoop_of_le hfull]
      simp only [finishHeader]
      cases checkHeader channel.limits (got ++ chunk) with
      | error e => rfl
      | ok type =>
        simp only
        split_ifs <;> rfl
    · rfl
  | @inPayload header type got _ _ _ _ _ hgot =>
    simp only [resume, resumePayload, Receiving.take]
    rw [Socket.recvLoop_of_recv (not_le.mpr hgot) hrecv hchunk]
    split_ifs with hfull
    · rw [Socket.recvLoop_of_le hfull]
    · rfl

end FramedChannel

end PathObservatory
