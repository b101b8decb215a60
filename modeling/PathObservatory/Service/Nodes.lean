import PathObservatory.Service.Answers

/-! # The program of an observing process

A process sends one frame for each source, one for each evidence record and a goodbye.
It asks for an answer behind each record, so that at most one record is unanswered.
-/
namespace PathObservatory
open Interleaving

/-- What a process streams. -/
structure NodeInput where
  sources : List SourceDescriptor
  evidence : List ObservedPathEvidence

namespace NodeInput

def program (node : NodeInput) : List NodeOp := nodeProgram node.sources node.evidence

/-- The frames of the whole program. -/
def frames (node : NodeInput) : List Frame :=
  node.sources.map (fun descriptor =>
    { type := .hello, payload := Codec.encodeSource descriptor }) ++
  node.evidence.map (fun record =>
    { type := .evidence, payload := Codec.encodeEvidence record }) ++ [{ type := .bye }]

/-- No operation is refused for its size. -/
def Fits (limits : Limits) (node : NodeInput) : Prop :=
  ∀ op ∈ node.program, ¬ op.TooLarge limits

instance (limits : Limits) (node : NodeInput) : Decidable (node.Fits limits) :=
  inferInstanceAs (Decidable (∀ op ∈ node.program, ¬ op.TooLarge limits))

end NodeInput

/-- The frame of an operation. -/
def NodeOp.frames : NodeOp → List Frame
  | .send type payload => [{ type := type, payload := payload }]
  | .raw _ | .awaitReply => []

/-- The operation hands over whole frames. -/
def NodeOp.Framed : NodeOp → Prop
  | .send _ _ | .awaitReply => True
  | .raw _ => False

def Frame.isEvidence (f : Frame) : Bool := f.type = .evidence

theorem bytes_eq_frames {ops : List NodeOp} (h : ∀ op ∈ ops, op.Framed) :
    ops.flatMap NodeOp.bytes = (ops.flatMap NodeOp.frames).flatMap Frame.encode := by
  induction ops with
  | nil => rfl
  | cons op rest ih =>
    obtain ⟨hop,hrest⟩ := List.forall_mem_cons.mp h
    rw [List.flatMap_cons, List.flatMap_cons, List.flatMap_append, ih hrest]
    cases op with
    | send type payload =>
      simp only [NodeOp.bytes, NodeOp.frames, List.flatMap_cons, List.flatMap_nil, List.append_nil]
      rfl
    | raw bytes => exact hop.elim
    | awaitReply => rfl

/-- An operation that fits sends frames within the bound. -/
theorem bounded_of_fits {limits : Limits} {ops : List NodeOp}
    (h : ∀ op ∈ ops, ¬ op.TooLarge limits) :
    ∀ f ∈ ops.flatMap NodeOp.frames, f.payload.length ≤ limits.maxFrameBytes := by
  intro f hf
  obtain ⟨op,hop,hf⟩ := List.mem_flatMap.mp hf
  have hfits := h op hop
  cases op with
  | send type payload =>
    obtain rfl := List.mem_singleton.mp hf
    exact not_lt.mp hfits
  | raw bytes => cases hf
  | awaitReply => cases hf

namespace NodeInput
variable {node : NodeInput} {limits : Limits}

theorem framed (node : NodeInput) : ∀ op ∈ node.program, op.Framed := by
  intro op hop
  simp only [program, nodeProgram, List.mem_append, List.mem_map, List.mem_flatMap,
    List.mem_singleton] at hop
  rcases hop with (⟨descriptor,-,rfl⟩ | ⟨record,-,hop⟩) | rfl
  · trivial
  · rcases List.mem_pair.mp hop with rfl | rfl <;> trivial
  · trivial

theorem frames_program (node : NodeInput) : node.program.flatMap NodeOp.frames = node.frames := by
  have hsources : ∀ sources : List SourceDescriptor,
      (sources.map fun descriptor =>
        (.send .hello (Codec.encodeSource descriptor) : NodeOp)).flatMap NodeOp.frames =
      sources.map fun descriptor =>
        ({ type := .hello, payload := Codec.encodeSource descriptor } : Frame) := by
    intro sources
    induction sources with
    | nil => rfl
    | cons descriptor rest ih =>
      rw [List.map_cons, List.flatMap_cons, ih]
      rfl
  have hevidence : ∀ evidence : List ObservedPathEvidence,
      (evidence.flatMap fun record =>
        ([.send .evidence (Codec.encodeEvidence record),.awaitReply] : List NodeOp)).flatMap
          NodeOp.frames =
      evidence.map fun record =>
        ({ type := .evidence, payload := Codec.encodeEvidence record } : Frame) := by
    intro evidence
    induction evidence with
    | nil => rfl
    | cons record rest ih =>
      rw [List.flatMap_cons, List.flatMap_append, ih]
      rfl
  rw [program, nodeProgram, List.flatMap_append, List.flatMap_append, hsources, hevidence]
  rfl

/-- The frames of the operations begun. -/
theorem frames_take_prefix (node : NodeInput) (position : ℕ) :
    (node.program.take position).flatMap NodeOp.frames <+: node.frames := by
  have hsplit := node.frames_program
  rw [← List.take_append_drop position node.program, List.flatMap_append] at hsplit
  exact ⟨_,hsplit⟩

/-- Goodbye is said at the end only. -/
theorem frames_eq_concat (node : NodeInput) : ∃ talk : List Frame,
    node.frames = talk ++ [{ type := .bye }] ∧ ∀ f ∈ talk, f.type ≠ .bye := by
  refine ⟨_,rfl,fun f hf => ?_⟩
  simp only [List.mem_append, List.mem_map] at hf
  rcases hf with ⟨descriptor,-,rfl⟩ | ⟨record,-,rfl⟩ <;> exact nofun

/-- A first part of the frames that contains the goodbye is all of them. -/
theorem eq_frames_of_bye {frames : List Frame} (h : frames <+: node.frames) {f : Frame}
    (hf : f ∈ frames) (hbye : f.type = .bye) : frames = node.frames := by
  obtain ⟨talk,heq,htalk⟩ := node.frames_eq_concat
  rw [heq] at h ⊢
  rcases List.prefix_concat_iff.mp h with hall | hpart
  · exact hall
  · exact absurd hbye (htalk f (hpart.subset hf))

/-- The operations that have sent every frame are all there are. -/
theorem length_le_of_frames {position : ℕ}
    (h : (node.program.take position).flatMap NodeOp.frames = node.frames) :
    node.program.length ≤ position := by
  by_contra hshort
  obtain ⟨talk,hprogram⟩ : ∃ talk, node.program = talk ++ [.send .bye []] := ⟨_,rfl⟩
  have hwhole := node.frames_program
  have htake : node.program.take position <+: talk := by
    rw [hprogram] at hshort ⊢
    rw [List.length_append, List.length_singleton] at hshort
    exact List.prefix_of_prefix_length_le (List.take_prefix _ _) (List.prefix_append _ _)
      (by rw [List.length_take]; omega)
  obtain ⟨rest,rfl⟩ := htake
  rw [hprogram, List.append_assoc, List.flatMap_append, h] at hwhole
  have hnil := List.append_right_eq_self.mp hwhole
  rw [List.flatMap_append] at hnil
  exact absurd (List.append_eq_nil_iff.mp hnil).2 (by simp [NodeOp.frames])

end NodeInput

/-! ### One record at a time -/

/-- Before a record every earlier record was asked about, and an answer is asked for
right behind its record. -/
def Alternates (ops : List NodeOp) : Prop :=
  ∀ i op, ops[i]? = some op →
    (op = .awaitReply → (ops.take i).count .awaitReply + 1 =
      ((ops.take i).flatMap NodeOp.frames).countP Frame.isEvidence) ∧
    (op.frames.countP Frame.isEvidence ≠ 0 → (ops.take i).count .awaitReply =
      ((ops.take i).flatMap NodeOp.frames).countP Frame.isEvidence)

theorem Alternates.cons_hello {ops : List NodeOp} (h : Alternates ops) (payload : ByteString) :
    Alternates (.send .hello payload :: ops) := by
  intro i op hi
  cases i with
  | zero =>
    obtain rfl : NodeOp.send .hello payload = op := by simpa using hi
    exact ⟨nofun,fun hevidence => absurd rfl hevidence⟩
  | succ i =>
    have hrest := h i op hi
    simpa [NodeOp.frames, Frame.isEvidence] using hrest

theorem Alternates.cons_evidence {ops : List NodeOp} (h : Alternates ops) (payload : ByteString) :
    Alternates (.send .evidence payload :: .awaitReply :: ops) := by
  intro i op hi
  rcases i with - | - | i
  · obtain rfl : NodeOp.send .evidence payload = op := by simpa using hi
    exact ⟨nofun,fun _ => rfl⟩
  · obtain rfl : NodeOp.awaitReply = op := by simpa using hi
    exact ⟨fun _ => rfl,fun hevidence => absurd rfl hevidence⟩
  · have hrest := h i op hi
    have hone : ({ type := .evidence, payload := payload } : Frame).isEvidence = true := rfl
    simp only [List.take_succ_cons, List.count_cons, List.flatMap_cons, NodeOp.frames,
      List.countP_append, List.nil_append, List.countP_singleton, hone, if_true]
    simp only [beq_self_eq_true, if_true, reduceCtorEq, beq_iff_eq, if_false, Nat.add_zero]
    refine ⟨fun hawait => ?_,fun hevidence => ?_⟩
    · have hnow := hrest.1 hawait
      omega
    · have hnow := hrest.2 hevidence
      omega

theorem NodeInput.alternates (node : NodeInput) : Alternates node.program := by
  have hend : Alternates [.send .bye []] := by
    intro i op hi
    cases i with
    | zero =>
      obtain rfl : NodeOp.send .bye [] = op := by simpa using hi
      exact ⟨nofun,fun hevidence => absurd rfl hevidence⟩
    | succ i => simp at hi
  have hevidence : ∀ evidence : List ObservedPathEvidence, Alternates
      (evidence.flatMap (fun record =>
        [.send .evidence (Codec.encodeEvidence record),.awaitReply]) ++ [.send .bye []]) := by
    intro evidence
    induction evidence with
    | nil => exact hend
    | cons record rest ih => exact ih.cons_evidence _
  rw [program, nodeProgram, List.append_assoc]
  induction node.sources with
  | nil => exact hevidence _
  | cons descriptor rest ih => exact ih.cons_hello _

/-- There are as many answers to wait for as records to send. -/
theorem NodeInput.count_awaitReply (node : NodeInput) :
    node.program.count .awaitReply = node.evidence.length ∧
      node.frames.countP Frame.isEvidence = node.evidence.length := by
  obtain ⟨sources,evidence⟩ := node
  constructor
  · have hsources : ∀ sources : List SourceDescriptor,
        (sources.map fun descriptor =>
          (.send .hello (Codec.encodeSource descriptor) : NodeOp)).count .awaitReply = 0 := by
      intro sources
      induction sources with
      | nil => rfl
      | cons descriptor rest ih => simpa using ih
    simp only [program, nodeProgram, List.count_append, hsources]
    induction evidence with
    | nil => simp
    | cons record rest ih => simpa using ih
  · simp [frames, Frame.isEvidence, List.countP_append, List.countP_map, Function.comp_def]

end PathObservatory
