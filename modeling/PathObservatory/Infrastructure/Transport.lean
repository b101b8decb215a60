import PathObservatory.Foundation.Limits
import PathObservatory.Infrastructure.Socket
import PathObservatory.Store.Layout

/-! # The framed transport

A frame is a header of twenty bytes and an opaque payload. A channel receives one
frame at a time and checks every header field before it reads the payload.
-/
namespace PathObservatory

def kFrameMagic : UInt32 := 0x54424F50

def kFrameHeaderBytes : ℕ := 20

def kWireProtocolVersion : UInt16 := 1

inductive FrameType
  | hello
  | evidence
  | routeGeneration
  | topologyGeneration
  | sourceDescriptor
  | ack
  | error
  | bye
  | heartbeat
  | comparisonResult
deriving DecidableEq, Repr

namespace FrameType

def toUInt16 : FrameType → UInt16
  | hello => 1
  | evidence => 2
  | routeGeneration => 3
  | topologyGeneration => 4
  | sourceDescriptor => 5
  | ack => 6
  | error => 7
  | bye => 8
  | heartbeat => 9
  | comparisonResult => 10

def parse (raw : UInt16) : Result FrameType :=
  match raw with
  | 1 => .ok hello
  | 2 => .ok evidence
  | 3 => .ok routeGeneration
  | 4 => .ok topologyGeneration
  | 5 => .ok sourceDescriptor
  | 6 => .ok ack
  | 7 => .ok error
  | 8 => .ok bye
  | 9 => .ok heartbeat
  | 10 => .ok comparisonResult
  | _ => .error { code := .protocolViolation, message := "unknown frame type",
                  detail := ToString.toString raw.toNat }

theorem parse_toUInt16 (type : FrameType) : parse type.toUInt16 = .ok type := by
  cases type <;> rfl

/-- The codes of the types are one to ten. -/
theorem toUInt16_of_parse {raw : UInt16} {type : FrameType} (h : parse raw = .ok type) :
    type.toUInt16 = raw := by
  unfold parse at h
  split at h <;> cases h <;> rfl

theorem code_of_parse {raw : UInt16} {e : Error} (h : parse raw = .error e) :
    e.code = .protocolViolation := by
  unfold parse at h
  split at h <;> cases h
  rfl

end FrameType

structure Frame where
  type : FrameType := .heartbeat
  flags : UInt32 := 0
  payload : ByteString := []
deriving DecidableEq, Repr

/-- The header fields before the payload. -/
def frameHeader (type : FrameType) (flags : UInt32) (payload : ByteString) : ByteString :=
  CanonicalWriter.u32 kFrameMagic ++
  CanonicalWriter.u16 kWireProtocolVersion ++
  CanonicalWriter.u16 type.toUInt16 ++
  CanonicalWriter.u32 flags ++
  CanonicalWriter.u32 (UInt32.ofNat payload.length) ++
  CanonicalWriter.u32 (crc32c payload)

def encodeFrame (type : FrameType) (flags : UInt32) (payload : ByteString) : ByteString :=
  frameHeader type flags payload ++ payload

structure FramedChannel where
  socket : Socket := {}
  limits : Limits := {}

namespace FramedChannel

/-- Refuse what was received and close the stream. -/
def refuse (channel : FramedChannel) (error : Error) : Result Frame × FramedChannel :=
  (.error error,{ channel with socket := channel.socket.shutdownBoth })

/-- An empty payload is not received at all. -/
def receivePayload (channel : FramedChannel) (payloadBytes : ℕ) :
    Result ByteString × FramedChannel :=
  if 0 < payloadBytes then
    let (payload,socket) := channel.socket.recvExact payloadBytes
    (payload,{ channel with socket := socket })
  else (.ok [],channel)

/-- Receive the payload a header announces. -/
def receiveBody (channel : FramedChannel) (header : ByteString) (type : FrameType) :
    Result Frame × FramedChannel :=
  if channel.limits.maxFrameBytes < (getU32 header 12).toNat then
    channel.refuse { code := .capacityExceeded,
                     message := "frame payload exceeds the configured bound" }
  else
    match channel.receivePayload (getU32 header 12).toNat with
    | (.error e,channel) => (.error e,channel)
    | (.ok payload,channel) =>
      if crc32c payload ≠ getU32 header 16 then
        channel.refuse { code := .integrityFailure,
                         message := "frame payload failed its integrity check" }
      else (.ok { type := type, flags := getU32 header 8, payload := payload },channel)

/-- An unknown type is passed on as an error without closing the stream. -/
def receive (channel : FramedChannel) : Result Frame × FramedChannel :=
  match channel.socket.recvExact kFrameHeaderBytes with
  | (.error e,socket) => (.error e,{ channel with socket := socket })
  | (.ok header,socket) =>
    let channel := { channel with socket := socket }
    if getU32 header 0 ≠ kFrameMagic then
      channel.refuse { code := .protocolViolation, message := "frame magic does not match" }
    else if getU16 header 4 ≠ kWireProtocolVersion then
      channel.refuse { code := .unsupportedVersion,
                       message := "wire protocol version is not supported",
                       detail := toString (getU16 header 4).toNat }
    else
      match FrameType.parse (getU16 header 6) with
      | .error e => (.error e,channel)
      | .ok type => channel.receiveBody header type

end FramedChannel

end PathObservatory
