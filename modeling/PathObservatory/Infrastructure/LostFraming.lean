import PathObservatory.Infrastructure.FrameStream

/-! # Streams that lost their framing

A violation closes the stream wherever `receive` notices it itself. An unknown frame
type is noticed by the parser of the type, whose error is passed on with the stream
left open, so that the payload of the refused frame is read as the next header. Where
the platform leaves received bytes readable behind a shutdown, the bytes behind the
other refused frames are read so too.
-/
namespace PathObservatory
namespace FramedChannel

/-- Among the first calls, one that reports a violation has closed the stream and is
followed by no frame. -/
def ClosesOnViolation (channel : FramedChannel) (calls : ℕ) : Prop :=
  ∀ i e, i < calls → channel.outcome i = .error e → IsViolation e →
    (channel.after (i + 1)).socket.isShut = true ∧
      ∀ j, i < j → j < calls → ∀ f, channel.outcome j ≠ .ok f

variable {limits : Limits} {isShut : Bool} {held : ℕ} {channel : FramedChannel}
  {bytes unit : ByteString}

/-- Fewer frames than calls are followed by a header of an unknown type. -/
def MeetsUnknownType (limits : Limits) (bytes : ByteString) (calls : ℕ) : Prop :=
  ∃ (frames : List Frame) (header rest : ByteString), frames.length < calls ∧
    bytes = frames.flatMap Frame.encode ++ (header ++ rest) ∧
    (∀ f ∈ frames, f.payload.length ≤ limits.maxFrameBytes) ∧ UnknownType header

/-- Fewer refused units than calls are followed by a frame. -/
def SpellsFrame (limits : Limits) (bytes : ByteString) (calls : ℕ) : Prop :=
  ∃ (units : List ByteString) (f : Frame) (rest : ByteString), units.length < calls ∧
    bytes = units.flatten ++ (f.encode ++ rest) ∧
    (∀ unit ∈ units, Refused limits unit ∨ UnknownType unit) ∧
    f.payload.length ≤ limits.maxFrameBytes

/-- Some frames are followed by a unit that shuts the stream down, and the bytes that
are held behind it spell a frame for one of the calls left. -/
def RevivesFraming (limits : Limits) (held : ℕ) (bytes : ByteString) (calls : ℕ) : Prop :=
  ∃ (frames : List Frame) (unit rest : ByteString),
    bytes = frames.flatMap Frame.encode ++ (unit ++ rest) ∧
    (∀ f ∈ frames, f.payload.length ≤ limits.maxFrameBytes) ∧ Refused limits unit ∧
    SpellsFrame limits (rest.take held) (calls - (frames.length + 1))

theorem MeetsUnknownType.cons {f : Frame} {calls : ℕ}
    (hf : f.payload.length ≤ limits.maxFrameBytes) (h : MeetsUnknownType limits bytes calls) :
    MeetsUnknownType limits (f.encode ++ bytes) (calls + 1) := by
  obtain ⟨frames,header,rest,hcount,rfl,hbound,hunknown⟩ := h
  refine ⟨f :: frames,header,rest,Nat.succ_lt_succ hcount,?_,?_,hunknown⟩
  · rw [List.flatMap_cons, List.append_assoc]
  · simpa using ⟨hf,hbound⟩

theorem SpellsFrame.cons {calls : ℕ} (hunit : Refused limits unit ∨ UnknownType unit)
    (h : SpellsFrame limits bytes calls) : SpellsFrame limits (unit ++ bytes) (calls + 1) := by
  obtain ⟨units,f,rest,hcount,rfl,hunits,hbound⟩ := h
  refine ⟨unit :: units,f,rest,Nat.succ_lt_succ hcount,?_,?_,hbound⟩
  · rw [List.flatten_cons, List.append_assoc]
  · simpa using ⟨hunit,hunits⟩

theorem RevivesFraming.cons {f : Frame} {calls : ℕ}
    (hf : f.payload.length ≤ limits.maxFrameBytes) (h : RevivesFraming limits held bytes calls) :
    RevivesFraming limits held (f.encode ++ bytes) (calls + 1) := by
  obtain ⟨frames,unit,rest,rfl,hbound,hunit,hspells⟩ := h
  refine ⟨f :: frames,unit,rest,?_,?_,hunit,?_⟩
  · rw [List.flatMap_cons, List.append_assoc]
  · simpa using ⟨hf,hbound⟩
  · rwa [List.length_cons, Nat.add_sub_add_right]

/-- A frame received behind a shutdown was spelled by the bytes held. -/
theorem spellsFrame_of_outcome (h : channel.Holds limits true held bytes)
    (hheld : bytes.length ≤ held) {i calls : ℕ} (hi : i < calls) {f : Frame}
    (houtcome : channel.outcome i = .ok f) : SpellsFrame limits bytes calls := by
  induction i generalizing channel bytes calls with
  | zero =>
    rcases receive_cases h with ⟨next,hresult,-⟩ | ⟨_,_,e,next,-,-,hresult,-⟩ |
      ⟨_,_,e,next,-,-,hresult,-⟩ | ⟨g,rest,next,rfl,hbound,-⟩
    · rw [outcome, after, hresult] at houtcome
      cases houtcome
    · rw [outcome, after, hresult] at houtcome
      cases houtcome
    · rw [outcome, after, hresult] at houtcome
      cases houtcome
    · exact ⟨[],g,rest,hi,rfl,by simp,hbound⟩
  | succ i ih =>
    obtain ⟨calls,rfl⟩ : ∃ more, calls = more + 1 := Nat.exists_eq_add_one.mpr (by omega)
    have hi : i < calls := Nat.lt_of_succ_lt_succ hi
    rcases receive_cases h with ⟨next,hresult,hnext⟩ | ⟨unit,rest,e,next,rfl,hunit,hresult,-,hnext⟩ |
      ⟨header,rest,e,next,rfl,hunknown,hresult,-,hnext⟩ | ⟨g,rest,next,rfl,hbound,-⟩
    · rw [outcome_succ hresult, outcome_of_end hnext] at houtcome
      cases houtcome
    · rw [outcome_succ hresult] at houtcome
      rw [List.length_append] at hheld
      have hrest : rest.length ≤ held := (Nat.le_add_left _ _).trans hheld
      rw [List.take_of_length_le hrest] at hnext
      exact (ih hnext hrest hi houtcome).cons (Or.inl hunit)
    · rw [outcome_succ hresult] at houtcome
      rw [List.length_append] at hheld
      exact (ih hnext ((Nat.le_add_left _ _).trans hheld) hi houtcome).cons (Or.inr hunknown)
    · exact ⟨[],g,rest,Nat.succ_pos calls,rfl,by simp,hbound⟩

/-- A frame that the bytes held behind a shutdown spell is received. -/
theorem outcome_of_spellsFrame (h : channel.Holds limits true held bytes)
    (hheld : bytes.length ≤ held) (hlimits : limits.maxFrameBytes < 2 ^ 32) {calls : ℕ}
    (hspells : SpellsFrame limits bytes calls) : ∃ i < calls, ∃ f, channel.outcome i = .ok f := by
  obtain ⟨units,f,rest,hcount,rfl,hunits,hbound⟩ := hspells
  refine ⟨units.length,hcount,f,?_⟩
  clear hcount
  induction units generalizing channel with
  | nil =>
    obtain ⟨next,hresult,-⟩ := receive_frame h hlimits hbound
    exact congrArg Prod.fst hresult
  | cons unit units ih =>
    simp only [List.forall_mem_cons] at hunits
    rw [List.flatten_cons, List.append_assoc] at h hheld
    rw [List.length_append] at hheld
    have hheld := (Nat.le_add_left _ _).trans hheld
    have hstep : ∃ e next, channel.receive = (.error e,next) ∧
        next.Holds limits true held (units.flatten ++ (f.encode ++ rest)) := by
      rcases hunits.1 with hrefused | hunknown
      · obtain ⟨e,next,hresult,-,hnext⟩ := receive_refused h hrefused
        exact ⟨e,next,hresult,List.take_of_length_le hheld ▸ hnext⟩
      · obtain ⟨e,next,hresult,-,hnext⟩ := receive_unknownType h hunknown
        exact ⟨e,next,hresult,hnext⟩
    obtain ⟨e,next,hresult,hnext⟩ := hstep
    rw [List.length_cons, outcome_succ hresult]
    exact ih hnext hheld hunits.2

/-- No call reports a violation where every call reports the end. -/
theorem closesOnViolation_of_closed
    (h : ∀ i, channel.outcome i = .error Socket.peerClosed) (calls : ℕ) :
    channel.ClosesOnViolation calls := by
  intro i e _ herror hviolation
  obtain rfl := Except.error.inj ((h i).symm.trans herror)
  exact absurd hviolation peerClosed_not_violation

/-- A call that reports no violation leaves the question to the calls after it. -/
theorem closesOnViolation_succ {result : Result Frame} {next : FramedChannel}
    (hresult : channel.receive = (result,next)) (hgood : ∀ e, result = .error e → ¬ IsViolation e)
    {calls : ℕ} (h : next.ClosesOnViolation calls) : channel.ClosesOnViolation (calls + 1) := by
  intro i e hi herror hviolation
  cases i with
  | zero =>
    have hfirst : channel.outcome 0 = result := congrArg Prod.fst hresult
    exact absurd hviolation (hgood e (hfirst.symm.trans herror))
  | succ i =>
    rw [outcome_succ hresult] at herror
    obtain ⟨hshut,hnone⟩ := h i e (Nat.lt_of_succ_lt_succ hi) herror hviolation
    refine ⟨(congrArg (·.socket.isShut) (after_succ hresult (i + 1))).trans hshut,?_⟩
    intro j hij hj f
    cases j with
    | zero => exact absurd hij (Nat.not_lt_zero _)
    | succ j =>
      rw [outcome_succ hresult]
      exact hnone j (Nat.lt_of_succ_lt_succ hij) (Nat.lt_of_succ_lt_succ hj) f

/-- A stream on which no unknown type is met and no frame is revived is closed by its
first violation. -/
theorem closesOnViolation_of_known (h : channel.Holds limits false held bytes) {calls : ℕ}
    (hknown : ¬ MeetsUnknownType limits bytes calls)
    (hrevives : ¬ RevivesFraming limits held bytes calls) : channel.ClosesOnViolation calls := by
  induction calls generalizing channel bytes with
  | zero => exact fun i e hi => absurd hi (Nat.not_lt_zero i)
  | succ calls ih =>
    rcases receive_cases h with ⟨next,hresult,hnext⟩ |
      ⟨unit,rest,e,next,rfl,hunit,hresult,-,hnext⟩ | ⟨header,rest,e,next,rfl,hunknown,-⟩ |
      ⟨f,rest,next,rfl,hbound,hresult,hnext⟩
    · refine closesOnViolation_succ hresult ?_ (closesOnViolation_of_closed
        (outcome_of_end hnext) calls)
      rintro e heq
      rw [← Except.error.inj heq]
      exact peerClosed_not_violation
    · have hnone : ∀ j < calls, ∀ f, next.outcome j ≠ .ok f := by
        intro j hj f hframe
        have hspells : SpellsFrame limits (rest.take held) calls :=
          spellsFrame_of_outcome hnext (List.length_take_le held rest) hj hframe
        exact hrevives ⟨[],unit,rest,rfl,by simp,hunit,hspells⟩
      intro i error hi herror hviolation
      refine ⟨(congrArg (·.socket.isShut) (after_succ hresult i)).trans (isShut_after hnext i),?_⟩
      intro j hij hj f
      cases j with
      | zero => exact absurd hij (Nat.not_lt_zero i)
      | succ j =>
        rw [outcome_succ hresult]
        exact hnone j (Nat.lt_of_succ_lt_succ hj) f
    · exact absurd ⟨[],header,rest,Nat.succ_pos calls,rfl,by simp,hunknown⟩ hknown
    · exact closesOnViolation_succ hresult (by simp) (ih hnext
        (fun hmeets => hknown (hmeets.cons hbound)) (fun hagain => hrevives (hagain.cons hbound)))

/-- Frames before a header of an unknown type are received, and then the error that
leaves the stream open. -/
theorem not_closesOnViolation_of_unknown (h : channel.Holds limits false held bytes)
    (hlimits : limits.maxFrameBytes < 2 ^ 32) {calls : ℕ}
    (hmeets : MeetsUnknownType limits bytes calls) : ¬ channel.ClosesOnViolation calls := by
  intro hcloses
  obtain ⟨frames,header,rest,hcount,rfl,hbound,hunknown⟩ := hmeets
  obtain ⟨hafter,-⟩ := after_of_frames h hlimits hbound
  obtain ⟨e,next,hresult,hviolation,hnext⟩ := receive_unknownType hafter hunknown
  have houtcome : channel.outcome frames.length = .error e := by rw [outcome, hresult]
  have hshut := (hcloses frames.length e hcount houtcome hviolation).1
  rw [after_add, after_succ hresult] at hshut
  have hopen : next.socket.isShut = false := hnext.1.isShut_eq
  rw [after, hopen] at hshut
  cases hshut

/-- Frames before a refused unit are received, then the error that shuts the stream
down, and then the frame that the bytes held spell. -/
theorem not_closesOnViolation_of_revives (h : channel.Holds limits false held bytes)
    (hlimits : limits.maxFrameBytes < 2 ^ 32) {calls : ℕ}
    (hrevives : RevivesFraming limits held bytes calls) : ¬ channel.ClosesOnViolation calls := by
  intro hcloses
  obtain ⟨frames,unit,rest,rfl,hbound,hunit,hspells⟩ := hrevives
  obtain ⟨hafter,-⟩ := after_of_frames h hlimits hbound
  obtain ⟨e,next,hresult,hviolation,hnext⟩ := receive_refused hafter hunit
  obtain ⟨i,hi,f,hframe⟩ :=
    outcome_of_spellsFrame hnext (List.length_take_le held rest) hlimits hspells
  have hviolated : channel.outcome frames.length = .error e := by rw [outcome, hresult]
  have hreceived : channel.outcome (frames.length + (i + 1)) = .ok f := by
    rw [outcome, after_add, after_succ hresult]
    exact hframe
  have hnone := (hcloses frames.length e (by omega) hviolated hviolation).2
  exact hnone (frames.length + (i + 1)) (by omega) (by omega) f hreceived

end FramedChannel

/-- Violations close the stream exactly when the frames that are received are followed
by no header of an unknown type, and by no refused unit behind which the bytes that
the platform holds spell a frame. -/
theorem closes_on_violation_iff {limits : Limits} (hlimits : limits.maxFrameBytes < 2 ^ 32)
    (incoming : ChunkStream) (held calls : ℕ) :
    (channelOn limits incoming held).ClosesOnViolation calls ↔
      ¬ FramedChannel.MeetsUnknownType limits incoming.bytes calls ∧
        ¬ FramedChannel.RevivesFraming limits held incoming.bytes calls := by
  have hholds := channelOn_holds limits incoming held
  constructor
  · intro hcloses
    exact ⟨fun hmeets =>
        FramedChannel.not_closesOnViolation_of_unknown hholds hlimits hmeets hcloses,
      fun hrevives =>
        FramedChannel.not_closesOnViolation_of_revives hholds hlimits hrevives hcloses⟩
  · rintro ⟨hknown,hrevives⟩
    exact FramedChannel.closesOnViolation_of_known hholds hknown hrevives

/-- A header of the type 99 that announces no payload. -/
def unknownHeader : ByteString :=
  CanonicalWriter.u32 kFrameMagic ++ CanonicalWriter.u16 kWireProtocolVersion ++
  CanonicalWriter.u16 99 ++ CanonicalWriter.u32 0 ++ CanonicalWriter.u32 20 ++
  CanonicalWriter.u32 (crc32c (Frame.encode { type := .bye }))

theorem unknownHeader_unknown : FramedChannel.UnknownType unknownHeader where
  length := by decide +kernel
  magic := by decide +kernel
  version := by decide +kernel
  unknown := by
    have hparse : (FrameType.parse (getU16 unknownHeader 6)).toBool = false := by decide +kernel
    intro type h
    rw [h] at hparse
    cases hparse

/-- A frame of an unknown type whose payload spells a frame. -/
def smuggled : ChunkStream where
  chunks := [unknownHeader ++ Frame.encode { type := .bye }]
  nonempty := by decide +kernel

theorem closed_by_first_violation :
    (channelOn {} helloAndByeCut 64).ClosesOnViolation 3 ↔
      ¬ FramedChannel.MeetsUnknownType {} helloAndByeCut.bytes 3 ∧
        ¬ FramedChannel.RevivesFraming {} 64 helloAndByeCut.bytes 3 :=
  closes_on_violation_iff (by decide) helloAndByeCut 64 3

/-- The payload of the refused frame is received as a frame. -/
theorem smuggled_payload_received :
    (channelOn {} smuggled 0).outcome 1 = .ok { type := .bye } ∧
      ¬ (channelOn {} smuggled 0).ClosesOnViolation 2 := by
  have hholds : (channelOn {} smuggled 0).Holds {} false 0
      (unknownHeader ++ (Frame.encode { type := .bye } ++ [])) := by
    have hbytes : smuggled.bytes = unknownHeader ++ (Frame.encode { type := .bye } ++ []) := by
      simp [smuggled, ChunkStream.bytes]
    rw [← hbytes]
    exact channelOn_holds {} smuggled 0
  obtain ⟨e,next,hresult,hviolation,hnext⟩ :=
    FramedChannel.receive_unknownType hholds unknownHeader_unknown
  obtain ⟨last,hlast,-⟩ := FramedChannel.receive_frame hnext (by decide) (by decide)
  have hframe : (channelOn {} smuggled 0).outcome 1 = .ok { type := .bye } := by
    rw [FramedChannel.outcome_succ hresult]
    exact congrArg Prod.fst hlast
  refine ⟨hframe,fun hcloses => ?_⟩
  have hfirst : (channelOn {} smuggled 0).outcome 0 = .error e := congrArg Prod.fst hresult
  exact (hcloses 0 e (by decide) hfirst hviolation).2 1 (by decide) (by decide) _ hframe

/-- Twenty bytes that are no header, and a frame behind them. -/
def garbageAndBye : ChunkStream where
  chunks := [List.replicate kFrameHeaderBytes 0 ++ Frame.encode { type := .bye }]
  nonempty := by decide +kernel

/-- Where the platform holds the twenty bytes behind the shutdown, they are received as
a frame. -/
theorem frame_behind_garbage_received : ¬ (channelOn {} garbageAndBye 20).ClosesOnViolation 2 := by
  refine FramedChannel.not_closesOnViolation_of_revives (channelOn_holds {} garbageAndBye 20)
    (by decide) ⟨[],List.replicate kFrameHeaderBytes 0,Frame.encode { type := .bye },?_,?_,?_,?_⟩
  · simp [garbageAndBye, ChunkStream.bytes]
  · simp
  · exact .magic (by decide) (by decide)
  · exact ⟨[],{ type := .bye },[],by decide,by decide +kernel,by simp,by decide⟩

end PathObservatory
