import PathObservatory.Infrastructure.Transport

/-! # Streams of frames

What a call of `receive` does depends on the bytes still to come and not on the
chunks in which they come. Frames are received in the order in which they were
sent. A violation shuts the stream down, so that no more is left of it than the
platform holds, unless the violation is an unknown frame type.
-/
namespace PathObservatory

def Frame.encode (f : Frame) : ByteString := encodeFrame f.type f.flags f.payload

def Frame.header (f : Frame) : ByteString := frameHeader f.type f.flags f.payload

theorem Frame.encode_eq (f : Frame) : f.encode = f.header ++ f.payload := rfl

@[simp] theorem Frame.length_header (f : Frame) : f.header.length = kFrameHeaderBytes := by
  simp [header, frameHeader, kFrameHeaderBytes]

/-- The header fields are read back. -/
theorem Frame.header_fields (f : Frame) :
    getU32 f.header 0 = kFrameMagic ∧ getU16 f.header 4 = kWireProtocolVersion ∧
    getU16 f.header 6 = f.type.toUInt16 ∧ getU32 f.header 8 = f.flags ∧
    getU32 f.header 12 = UInt32.ofNat f.payload.length ∧
    getU32 f.header 16 = crc32c f.payload := by
  have hlast : getU32 f.header 16 = crc32c f.payload := by
    unfold header frameHeader
    rw [getU32_skip (by simp)]
    simpa using getU32_head (crc32c f.payload) []
  simp only [header, frameHeader, List.append_assoc, getU16_skip, getU32_skip, getU16_head,
    getU32_head, CanonicalWriter.length_u16, CanonicalWriter.length_u32, Nat.reduceSub,
    Nat.reduceLeDiff, le_refl, Nat.sub_self, true_and] at hlast ⊢
  exact hlast

/-- A field is the bytes it was read from. -/
theorem u32_getU32 {data : ByteString} {offset : ℕ} (h : offset + 4 ≤ data.length) :
    CanonicalWriter.u32 (getU32 data offset) = (data.drop offset).take 4 := by
  have hlength : ((data.drop offset).take 4).length = 4 := by
    rw [List.length_take, List.length_drop]
    omega
  have hlt := LittleEndian.ofBytes_lt ((data.drop offset).take 4)
  rw [hlength] at hlt
  have hvalue : (getU32 data offset).toNat = LittleEndian.ofBytes ((data.drop offset).take 4) := by
    simpa [getU32] using Nat.mod_eq_of_lt hlt
  have hback := LittleEndian.toBytes_ofBytes ((data.drop offset).take 4)
  rw [hlength] at hback
  rw [CanonicalWriter.u32, hvalue, hback]

theorem u16_getU16 {data : ByteString} {offset : ℕ} (h : offset + 2 ≤ data.length) :
    CanonicalWriter.u16 (getU16 data offset) = (data.drop offset).take 2 := by
  have hlength : ((data.drop offset).take 2).length = 2 := by
    rw [List.length_take, List.length_drop]
    omega
  have hlt := LittleEndian.ofBytes_lt ((data.drop offset).take 2)
  rw [hlength] at hlt
  have hvalue : (getU16 data offset).toNat = LittleEndian.ofBytes ((data.drop offset).take 2) := by
    simpa [getU16] using Nat.mod_eq_of_lt hlt
  have hback := LittleEndian.toBytes_ofBytes ((data.drop offset).take 2)
  rw [hlength] at hback
  rw [CanonicalWriter.u16, hvalue, hback]

/-- A header whose fields pass the checks is the header of the frame it announces. -/
theorem Frame.header_of_fields {header : ByteString} {f : Frame}
    (hlength : header.length = kFrameHeaderBytes) (hmagic : getU32 header 0 = kFrameMagic)
    (hversion : getU16 header 4 = kWireProtocolVersion)
    (htype : getU16 header 6 = f.type.toUInt16) (hflags : getU32 header 8 = f.flags)
    (hcount : getU32 header 12 = UInt32.ofNat f.payload.length)
    (hcrc : getU32 header 16 = crc32c f.payload) : f.header = header := by
  have hlength : header.length = 20 := hlength
  have hcut : ∀ offset count, header.drop offset =
      (header.drop offset).take count ++ header.drop (offset + count) := by
    intro offset count
    rw [← List.drop_drop, List.take_append_drop]
  unfold Frame.header frameHeader
  rw [← hmagic, ← hversion, ← htype, ← hflags, ← hcount, ← hcrc, u32_getU32 (by omega),
    u16_getU16 (by omega), u16_getU16 (by omega), u32_getU32 (by omega), u32_getU32 (by omega),
    u32_getU32 (by omega)]
  simp only [List.append_assoc]
  rw [List.take_of_length_le (l := header.drop 16) (by simp [hlength]), ← hcut 12 4, ← hcut 8 4,
    ← hcut 6 2, ← hcut 4 2, ← hcut 0 4, List.drop_zero]

namespace FramedChannel

/-- The channel is usable and these bytes are still to come on it. -/
def Holds (limits : Limits) (isShut : Bool) (held : ℕ) (channel : FramedChannel)
    (bytes : ByteString) : Prop :=
  channel.socket.Holds isShut held bytes ∧ channel.limits = limits

variable {limits : Limits} {isShut : Bool} {held : ℕ} {channel : FramedChannel}
  {bytes rest header unit : ByteString} {type : FrameType}

/-- A header that passes the checks of `receive` before the type. -/
structure Versioned (header : ByteString) : Prop where
  length : header.length = kFrameHeaderBytes
  magic : getU32 header 0 = kFrameMagic
  version : getU16 header 4 = kWireProtocolVersion

/-- The header names a type that no frame has. -/
structure UnknownType (header : ByteString) : Prop extends Versioned header where
  unknown : ∀ type, FrameType.parse (getU16 header 6) ≠ .ok type

/-- The bytes that `receive` takes and refuses with a shutdown: a header that fails a
check, or a header with the payload that fails its checksum. -/
inductive Refused (limits : Limits) : ByteString → Prop
  | magic {header : ByteString} (hlength : header.length = kFrameHeaderBytes)
      (hmagic : getU32 header 0 ≠ kFrameMagic) : Refused limits header
  | version {header : ByteString} (hlength : header.length = kFrameHeaderBytes)
      (hmagic : getU32 header 0 = kFrameMagic)
      (hversion : getU16 header 4 ≠ kWireProtocolVersion) : Refused limits header
  | size {header : ByteString} {type : FrameType} (hheader : Versioned header)
      (htype : FrameType.parse (getU16 header 6) = .ok type)
      (hbound : limits.maxFrameBytes < (getU32 header 12).toNat) : Refused limits header
  | checksum {header payload : ByteString} {type : FrameType} (hheader : Versioned header)
      (htype : FrameType.parse (getU16 header 6) = .ok type)
      (hbound : (getU32 header 12).toNat ≤ limits.maxFrameBytes)
      (hlength : payload.length = (getU32 header 12).toNat)
      (hcrc : crc32c payload ≠ getU32 header 16) : Refused limits (header ++ payload)

/-- The errors that only the received bytes can cause. -/
def IsViolation (e : Error) : Prop :=
  e.code = .protocolViolation ∨ e.code = .unsupportedVersion ∨ e.code = .capacityExceeded ∨
    e.code = .integrityFailure

theorem peerClosed_not_violation : ¬ IsViolation Socket.peerClosed := by
  simp [IsViolation, Socket.peerClosed]

/-- A refusal closes the stream but for the bytes the platform holds. -/
theorem Holds.shut (h : channel.Holds limits isShut held rest) :
    Holds limits true held { channel with socket := channel.socket.shutdownBoth }
      (rest.take held) := ⟨h.1.shutdownBoth,h.2⟩

/-- An announced payload is received whole or the stream ends in it. -/
theorem receivePayload_cases (h : channel.Holds limits isShut held bytes) (size : ℕ) :
    (∃ payload rest next, bytes = payload ++ rest ∧ payload.length = size ∧
      channel.receivePayload size = (.ok payload,next) ∧ next.Holds limits isShut held rest) ∨
    (bytes.length < size ∧ ∃ next,
      channel.receivePayload size = (.error Socket.peerClosed,next) ∧ next.Holds limits isShut held []) := by
  unfold receivePayload
  split_ifs with hpos
  · by_cases henough : size ≤ bytes.length
    · have hsplit : channel.socket.Holds isShut held (bytes.take size ++ bytes.drop size) := by
        rw [List.take_append_drop]
        exact h.1
      obtain ⟨t,ht,hrest⟩ := hsplit.recvExact
      have hlength : (bytes.take size).length = size := by simpa using henough
      rw [hlength] at ht
      refine Or.inl ⟨_,_,{ channel with socket := t },(List.take_append_drop size bytes).symm,
        hlength,?_,hrest,h.2⟩
      rw [ht]
    · obtain ⟨t,ht,hrest⟩ := h.1.recvExact_short (not_le.mp henough)
      refine Or.inr ⟨not_le.mp henough,{ channel with socket := t },?_,hrest,h.2⟩
      rw [ht]
  · exact Or.inl ⟨[],bytes,channel,rfl,(Nat.eq_zero_of_not_pos hpos).symm,rfl,h⟩

/-- Past a header with a known type the payload is cut short, refused or complete. -/
theorem receiveBody_cases (h : channel.Holds limits isShut held bytes)
    (hheader : Versioned header) (htype : FrameType.parse (getU16 header 6) = .ok type) :
    (∃ next, channel.receiveBody header type = (.error Socket.peerClosed,next) ∧
      next.Holds limits isShut held []) ∨
    (∃ unit rest e next, header ++ bytes = unit ++ rest ∧ Refused limits unit ∧
      channel.receiveBody header type = (.error e,next) ∧ IsViolation e ∧
      next.Holds limits true held (rest.take held)) ∨
    (∃ f rest next, header ++ bytes = f.encode ++ rest ∧
      f.payload.length ≤ limits.maxFrameBytes ∧
      channel.receiveBody header type = (.ok f,next) ∧ next.Holds limits isShut held rest) := by
  unfold receiveBody
  rw [h.2]
  split_ifs with hbound
  · exact Or.inr (Or.inl ⟨header,bytes,_,_,rfl,.size hheader htype hbound,rfl,
      Or.inr (Or.inr (Or.inl rfl)),h.shut⟩)
  · have hbound := not_lt.mp hbound
    rcases receivePayload_cases h (getU32 header 12).toNat with
      ⟨payload,rest,next,rfl,hpayload,hresult,hnext⟩ | ⟨-,next,hresult,hnext⟩
    · rw [hresult, ← List.append_assoc]
      simp only
      split_ifs with hcrc
      · exact Or.inr (Or.inl ⟨_,rest,_,_,rfl,.checksum hheader htype hbound hpayload hcrc,rfl,
          Or.inr (Or.inr (Or.inr rfl)),hnext.shut⟩)
      · refine Or.inr (Or.inr ⟨⟨type,getU32 header 8,payload⟩,rest,next,?_,?_,rfl,hnext⟩)
        · have hheader : Frame.header ⟨type,getU32 header 8,payload⟩ = header :=
            Frame.header_of_fields hheader.length hheader.magic hheader.version
              (FrameType.toUInt16_of_parse htype).symm rfl (by rw [hpayload]; simp)
              (not_not.mp hcrc).symm
          rw [Frame.encode_eq, hheader]
        · exact hpayload.trans_le hbound
    · rw [hresult]
      exact Or.inl ⟨next,rfl,hnext⟩

/-- A header is received whole. -/
theorem recvExact_header (h : channel.Holds limits isShut held (header ++ rest))
    (hlength : header.length = kFrameHeaderBytes) :
    ∃ socket, channel.socket.recvExact kFrameHeaderBytes = (.ok header,socket) ∧
      Holds limits isShut held { channel with socket := socket } rest := by
  obtain ⟨socket,hresult,hrest⟩ := h.1.recvExact
  rw [hlength] at hresult
  exact ⟨socket,hresult,hrest,h.2⟩

/-- What a call of `receive` does with the bytes still to come: they end in the
header or in the payload, they are refused and the stream is shut down, they name an
unknown type, or they begin with a frame. -/
theorem receive_cases (h : channel.Holds limits isShut held bytes) :
    (∃ next, channel.receive = (.error Socket.peerClosed,next) ∧
      next.Holds limits isShut held []) ∨
    (∃ unit rest e next, bytes = unit ++ rest ∧ Refused limits unit ∧
      channel.receive = (.error e,next) ∧ IsViolation e ∧
      next.Holds limits true held (rest.take held)) ∨
    (∃ header rest e next, bytes = header ++ rest ∧ UnknownType header ∧
      channel.receive = (.error e,next) ∧ IsViolation e ∧ next.Holds limits isShut held rest) ∨
    (∃ f rest next, bytes = f.encode ++ rest ∧ f.payload.length ≤ limits.maxFrameBytes ∧
      channel.receive = (.ok f,next) ∧ next.Holds limits isShut held rest) := by
  by_cases hshort : bytes.length < kFrameHeaderBytes
  · obtain ⟨t,ht,hrest⟩ := h.1.recvExact_short hshort
    refine Or.inl ⟨{ channel with socket := t },?_,hrest,h.2⟩
    rw [receive, ht]
  · obtain ⟨header,rest,rfl,hlength⟩ : ∃ header rest, bytes = header ++ rest ∧
        header.length = kFrameHeaderBytes :=
      ⟨_,_,(List.take_append_drop kFrameHeaderBytes bytes).symm,by simpa using hshort⟩
    obtain ⟨t,ht,hnext⟩ := recvExact_header h hlength
    unfold receive
    rw [ht]
    simp only
    split_ifs with hmagic hversion
    · exact Or.inr (Or.inl ⟨header,rest,_,_,rfl,.magic hlength hmagic,rfl,Or.inl rfl,
        hnext.shut⟩)
    · exact Or.inr (Or.inl ⟨header,rest,_,_,rfl,.version hlength (not_not.mp hmagic) hversion,
        rfl,Or.inr (Or.inl rfl),hnext.shut⟩)
    · have hheader : Versioned header := ⟨hlength,not_not.mp hmagic,not_not.mp hversion⟩
      cases htype : FrameType.parse (getU16 header 6) with
      | error e =>
        refine Or.inr (Or.inr (Or.inl ⟨header,rest,e,_,rfl,⟨hheader,?_⟩,rfl,Or.inl ?_,hnext⟩))
        · intro type h
          simp [h] at htype
        · exact FrameType.code_of_parse htype
      | ok type =>
        rcases receiveBody_cases hnext hheader htype with hend | hrefused | hframe
        · exact Or.inl hend
        · exact Or.inr (Or.inl hrefused)
        · exact Or.inr (Or.inr (Or.inr hframe))

/-- A frame at the front of the stream is received. -/
theorem receive_frame {f : Frame} (h : channel.Holds limits isShut held (f.encode ++ rest))
    (hlimits : limits.maxFrameBytes < 2 ^ 32) (hbound : f.payload.length ≤ limits.maxFrameBytes) :
    ∃ next, channel.receive = (.ok f,next) ∧ next.Holds limits isShut held rest := by
  rw [Frame.encode_eq, List.append_assoc] at h
  obtain ⟨t,ht,hchannel⟩ := recvExact_header h f.length_header
  obtain ⟨hmagic,hversion,htype,hflags,hcount,hcrc⟩ := f.header_fields
  have hsize : (getU32 f.header 12).toNat = f.payload.length := by
    rw [hcount]
    simpa using Nat.mod_eq_of_lt (hbound.trans_lt hlimits)
  rcases receivePayload_cases hchannel f.payload.length with
    ⟨payload,left,next,hbytes,hlength,hresult,hnext⟩ | ⟨hshort,-⟩
  · obtain ⟨rfl,rfl⟩ := List.append_inj hbytes hlength.symm
    refine ⟨next,?_,hnext⟩
    unfold receive
    rw [ht]
    simp only [hmagic, hversion, htype, FrameType.parse_toUInt16, ne_eq, not_true_eq_false,
      if_false]
    unfold receiveBody
    rw [hsize, hresult, if_neg (by simpa [h.2] using hbound)]
    simp [hcrc, hflags]
  · rw [List.length_append] at hshort
    omega

/-- An unknown type at the front of the stream is an error that takes the header
and leaves the stream open. -/
theorem receive_unknownType (h : channel.Holds limits isShut held (header ++ rest))
    (hunknown : UnknownType header) :
    ∃ e next, channel.receive = (.error e,next) ∧ IsViolation e ∧ next.Holds limits isShut held rest := by
  obtain ⟨t,ht,hnext⟩ := recvExact_header h hunknown.length
  cases htype : FrameType.parse (getU16 header 6) with
  | ok type => exact absurd htype (hunknown.unknown type)
  | error e =>
    refine ⟨e,{ channel with socket := t },?_,Or.inl (FrameType.code_of_parse htype),hnext⟩
    unfold receive
    rw [ht]
    simp [hunknown.magic, hunknown.version, htype]

/-- Past a header that is accepted up to the type, the body is received. -/
theorem receive_eq_receiveBody {socket : Socket} (hheader : Versioned header)
    (htype : FrameType.parse (getU16 header 6) = .ok type)
    (hrecv : channel.socket.recvExact kFrameHeaderBytes = (.ok header,socket)) :
    channel.receive = { channel with socket := socket }.receiveBody header type := by
  unfold receive
  rw [hrecv]
  simp only [hheader.magic, hheader.version, htype, ne_eq, not_true_eq_false, if_false]

/-- What is to be refused at the front of the stream is refused. -/
theorem receive_refused (h : channel.Holds limits isShut held (unit ++ rest))
    (hrefused : Refused limits unit) :
    ∃ e next, channel.receive = (.error e,next) ∧ IsViolation e ∧
      next.Holds limits true held (rest.take held) := by
  cases hrefused with
  | magic hlength hmagic =>
    obtain ⟨t,ht,hnext⟩ := recvExact_header h hlength
    unfold receive
    rw [ht]
    exact ⟨_,_,if_pos hmagic,Or.inl rfl,hnext.shut⟩
  | version hlength hmagic hversion =>
    obtain ⟨t,ht,hnext⟩ := recvExact_header h hlength
    unfold receive
    rw [ht]
    exact ⟨_,_,(if_neg (not_not.mpr hmagic)).trans (if_pos hversion),Or.inr (Or.inl rfl),
      hnext.shut⟩
  | size hheader htype hbound =>
    obtain ⟨t,ht,hnext⟩ := recvExact_header h hheader.length
    rw [← h.2] at hbound
    rw [receive_eq_receiveBody hheader htype ht, receiveBody]
    exact ⟨_,_,if_pos hbound,Or.inr (Or.inr (Or.inl rfl)),hnext.shut⟩
  | checksum hheader htype hbound hlength hcrc =>
    rw [List.append_assoc] at h
    obtain ⟨t,ht,hnext⟩ := recvExact_header h hheader.length
    rw [← hnext.2] at hbound
    rw [receive_eq_receiveBody hheader htype ht, receiveBody, if_neg (not_lt.mpr hbound),
      ← hlength]
    rcases receivePayload_cases hnext _ with
      ⟨payload,left,last,hbytes,hcount,hpayload,hlast⟩ | ⟨hshort,-⟩
    · obtain ⟨rfl,rfl⟩ := List.append_inj hbytes hcount.symm
      rw [hpayload]
      exact ⟨_,_,if_pos hcrc,Or.inr (Or.inr (Or.inr rfl)),hlast.shut⟩
    · rw [List.length_append] at hshort
      omega

theorem receive_of_end (h : channel.Holds limits isShut held []) :
    ∃ next, channel.receive = (.error Socket.peerClosed,next) ∧ next.Holds limits isShut held [] := by
  have hshort : ([] : ByteString).length < kFrameHeaderBytes := by decide
  obtain ⟨t,ht,hrest⟩ := h.1.recvExact_short hshort
  refine ⟨{ channel with socket := t },?_,hrest,h.2⟩
  rw [receive, ht]

/-! Calls one after the other. -/

/-- The channel after some calls of `receive`. -/
def after (channel : FramedChannel) : ℕ → FramedChannel
  | 0 => channel
  | calls + 1 => channel.receive.2.after calls

/-- What the next call of `receive` returns after some calls. -/
def outcome (channel : FramedChannel) (calls : ℕ) : Result Frame := (channel.after calls).receive.1

theorem after_succ {result : Result Frame} {next : FramedChannel}
    (h : channel.receive = (result,next)) (calls : ℕ) :
    channel.after (calls + 1) = next.after calls := by rw [after, h]

theorem outcome_succ {result : Result Frame} {next : FramedChannel}
    (h : channel.receive = (result,next)) (calls : ℕ) :
    channel.outcome (calls + 1) = next.outcome calls := by rw [outcome, after_succ h]; rfl

theorem after_add (channel : FramedChannel) (calls more : ℕ) :
    channel.after (calls + more) = (channel.after calls).after more := by
  induction calls generalizing channel with
  | zero => rw [Nat.zero_add]; rfl
  | succ calls ih => rw [Nat.add_right_comm, after, ih, after]

theorem outcome_of_end (h : channel.Holds limits isShut held []) (calls : ℕ) :
    channel.outcome calls = .error Socket.peerClosed := by
  obtain ⟨next,hresult,hnext⟩ := receive_of_end h
  induction calls generalizing channel next with
  | zero => exact congrArg Prod.fst hresult
  | succ calls ih =>
    obtain ⟨other,hother,hrest⟩ := receive_of_end hnext
    rw [outcome_succ hresult]
    exact ih hnext other hother hrest

/-- A stream that was shut down stays so. -/
theorem isShut_after (h : channel.Holds limits true held bytes) (calls : ℕ) :
    (channel.after calls).socket.isShut = true := by
  induction calls generalizing channel bytes with
  | zero => exact h.1.isShut_eq
  | succ calls ih =>
    rcases receive_cases h with ⟨next,hresult,hnext⟩ | ⟨_,_,_,next,-,-,hresult,-,hnext⟩ |
      ⟨_,_,_,next,-,-,hresult,-,hnext⟩ | ⟨_,_,next,-,-,hresult,hnext⟩ <;>
    · rw [after_succ hresult]
      exact ih hnext

theorem after_of_frames {frames : List Frame}
    (h : channel.Holds limits isShut held (frames.flatMap Frame.encode ++ rest))
    (hlimits : limits.maxFrameBytes < 2 ^ 32)
    (hbound : ∀ f ∈ frames, f.payload.length ≤ limits.maxFrameBytes) :
    (channel.after frames.length).Holds limits isShut held rest ∧
      ∀ i, (hi : i < frames.length) → channel.outcome i = .ok frames[i] := by
  induction frames generalizing channel with
  | nil => exact ⟨h,nofun⟩
  | cons f frames ih =>
    rw [List.flatMap_cons, List.append_assoc] at h
    obtain ⟨next,hresult,hnext⟩ := receive_frame h hlimits (hbound f List.mem_cons_self)
    obtain ⟨hafter,houtcome⟩ := ih hnext (fun g hg => hbound g (List.mem_cons_of_mem f hg))
    refine ⟨(after_succ hresult frames.length).symm ▸ hafter,fun i hi => ?_⟩
    cases i with
    | zero => exact congrArg Prod.fst hresult
    | succ i => exact (outcome_succ hresult i).trans (houtcome i (Nat.lt_of_succ_lt_succ hi))

end FramedChannel

/-- A channel on which a stream comes in, on a platform that holds some bytes of it
behind a shutdown. -/
def channelOn (limits : Limits) (incoming : ChunkStream) (held : ℕ) : FramedChannel where
  socket := { incoming := incoming, held := held }
  limits := limits

theorem channelOn_holds (limits : Limits) (incoming : ChunkStream) (held : ℕ) :
    (channelOn limits incoming held).Holds limits false held incoming.bytes :=
  ⟨⟨rfl,rfl,rfl,rfl⟩,rfl⟩

/-- However the bytes of some frames are cut, the frames are received one after the
other, and then the end of the connection. -/
theorem frames_received_in_order {limits : Limits} (hlimits : limits.maxFrameBytes < 2 ^ 32)
    {frames : List Frame} (hbound : ∀ f ∈ frames, f.payload.length ≤ limits.maxFrameBytes)
    {incoming : ChunkStream} (hbytes : incoming.bytes = frames.flatMap Frame.encode)
    (held : ℕ) :
    (∀ i, (hi : i < frames.length) → (channelOn limits incoming held).outcome i = .ok frames[i]) ∧
      ∀ calls, frames.length ≤ calls →
        (channelOn limits incoming held).outcome calls = .error Socket.peerClosed := by
  have hholds := channelOn_holds limits incoming held
  rw [hbytes, ← List.append_nil (frames.flatMap Frame.encode)] at hholds
  obtain ⟨hafter,houtcome⟩ := FramedChannel.after_of_frames hholds hlimits hbound
  refine ⟨houtcome,fun calls hcalls => ?_⟩
  obtain ⟨more,rfl⟩ := Nat.exists_eq_add_of_le hcalls
  have hsplit : (channelOn limits incoming held).outcome (frames.length + more) =
      ((channelOn limits incoming held).after frames.length).outcome more := by
    rw [FramedChannel.outcome, FramedChannel.outcome, FramedChannel.after_add]
  rw [hsplit]
  exact FramedChannel.outcome_of_end hafter more

/-- Two frames, the second without payload. -/
def helloAndBye : List Frame := [{ type := .hello, payload := [7, 8, 9] },{ type := .bye }]

/-- The two frames, cut inside the first header. -/
def helloAndByeCut : ChunkStream where
  chunks := [(helloAndBye.flatMap Frame.encode).take 7,(helloAndBye.flatMap Frame.encode).drop 7]
  nonempty := by decide +kernel

theorem hello_and_bye_received :
    (∀ i, (hi : i < helloAndBye.length) →
      (channelOn {} helloAndByeCut 0).outcome i = .ok helloAndBye[i]) ∧
      ∀ calls, helloAndBye.length ≤ calls →
        (channelOn {} helloAndByeCut 0).outcome calls = .error Socket.peerClosed :=
  frames_received_in_order (by decide) (by decide)
    (by simp [helloAndByeCut, ChunkStream.bytes, List.take_append_drop]) 0

end PathObservatory
