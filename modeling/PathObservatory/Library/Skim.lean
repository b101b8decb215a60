import PathObservatory.Library.ByteReader
import PathObservatory.Library.LittleEndian

/-! # Walking a byte string by its shape

A skim passes over one field by the width of its bytes, without reading a value, and stops
at a field of the wrong shape. It follows a reader whose encoding is known when it passes
over what is written for the value the reader returned, and stops where something else
stands there. -/

abbrev Skim := List UInt8 → Option (List UInt8)

namespace Skim

def fixed (width : ℕ) : Skim := fun input =>
  if width ≤ input.length then some (input.drop width) else none

def times (n : ℕ) (skim : Skim) : Skim :=
  match n with
  | 0 => some
  | n + 1 => fun input => (skim input).bind (times n skim)

/-- As many fields as the number in front of them says. -/
def counted (width : ℕ) (skim : Skim) : Skim := fun input =>
  (fixed width input).bind (times (LittleEndian.ofBytes (input.take width)) skim)

/-- As many bytes as the number in front of them says. -/
def prefixed (width : ℕ) : Skim := fun input =>
  (fixed width input).bind (fixed (LittleEndian.ofBytes (input.take width)))

/-- The fields of a layout in turn. -/
def walk : List Skim → Skim
  | [] => some
  | skim :: layout => fun input => (skim input).bind (walk layout)

/-- What a skim did at an input of which `rest` is left to a reader: it passed over the
written bytes, or something else stands there. -/
inductive Passes (input written rest : List UInt8) : Option (List UInt8) → Prop
  | passed : input = written ++ rest → Passes input written rest (some rest)
  | stops : (∀ more, input ≠ written ++ more) → Passes input written rest none

namespace Passes
variable {input left rest first second : List UInt8}

theorem nil : Passes rest [] rest (some rest) := .passed rfl

theorem bind {skim next : Skim} (hfirst : Passes input first left (skim input))
    (hsecond : Passes left second rest (next left)) :
    Passes input (first ++ second) rest ((skim input).bind next) := by
  cases hskim : skim input with
  | none =>
    rw [hskim] at hfirst
    obtain ⟨⟩ | ⟨hother⟩ := hfirst
    refine .stops (fun more heq => hother (second ++ more) ?_)
    rw [heq, List.append_assoc]
  | some after =>
    rw [hskim] at hfirst
    obtain ⟨rfl⟩ | ⟨⟩ := hfirst
    dsimp only [Option.bind_some]
    cases hnext : next left with
    | none =>
      rw [hnext] at hsecond
      obtain ⟨⟩ | ⟨hother⟩ := hsecond
      refine .stops (fun more heq => hother more ?_)
      rwa [List.append_assoc, List.append_cancel_left_eq] at heq
    | some tail =>
      rw [hnext] at hsecond
      obtain ⟨rfl⟩ | ⟨⟩ := hsecond
      exact .passed (List.append_assoc _ _ _).symm

theorem walk {skim : Skim} {layout : List Skim} (hfirst : Passes input first left (skim input))
    (hrest : Passes left second rest (Skim.walk layout left)) :
    Passes input (first ++ second) rest (Skim.walk (skim :: layout) input) :=
  hfirst.bind hrest

/-- A walk comes to the end exactly where the input is what is written. -/
theorem eq_iff {left : Option (List UInt8)} (h : Passes input first [] left) :
    first = input ↔ left = some [] := by
  cases h with
  | passed heq =>
    rw [List.append_nil] at heq
    exact ⟨fun _ => rfl,fun _ => heq.symm⟩
  | stops hother =>
    constructor
    · rintro rfl
      exact absurd (List.append_nil _).symm (hother [])
    · intro h
      cases h

theorem fixed {width : ℕ} (heq : input = first ++ rest) (hwidth : first.length = width) :
    Passes input first rest (Skim.fixed width input) := by
  subst heq hwidth
  have hfits : first.length ≤ (first ++ rest).length := by
    rw [List.length_append]
    exact Nat.le_add_right _ _
  rw [Skim.fixed, if_pos hfits, List.drop_left]
  exact .passed rfl

theorem prefixed {width : ℕ} {value : List UInt8} (hwidth : value.length < 256 ^ width) :
    Passes (LittleEndian.toBytes width value.length ++ value ++ rest)
      (LittleEndian.toBytes width value.length ++ value) rest
      (Skim.prefixed width (LittleEndian.toBytes width value.length ++ value ++ rest)) := by
  rw [List.append_assoc, Skim.prefixed, List.take_left' (LittleEndian.length_toBytes _ _),
    LittleEndian.ofBytes_toBytes_of_lt hwidth]
  exact (Passes.fixed rfl (LittleEndian.length_toBytes _ _)).bind (Passes.fixed rfl rfl)

end Passes

/-- The skim follows a reader of what `encode` writes, and the reader reads that again. -/
def Follows {ε α : Type} (skim : Skim) (reader : ByteReader ε α) (encode : α → List UInt8) : Prop :=
  ∀ input a rest, reader.run input = .ok (a,rest) →
    Passes input (encode a) rest (skim input) ∧ ByteReader.Reads reader (encode a) a

section Follows
variable {ε α : Type} {skim : Skim} {reader : ByteReader ε α} {encode : α → List UInt8}

theorem Follows.times (h : Follows skim reader encode) (n : ℕ) :
    Follows (times n skim) (ByteReader.many n reader) (List.flatMap encode) := by
  induction n with
  | zero =>
    intro input values rest hrun
    obtain ⟨rfl,rfl⟩ := ByteReader.run_pure_eq_ok.mp hrun
    exact ⟨.nil,.pure []⟩
  | succ n ih =>
    intro input values rest hrun
    obtain ⟨head,left,hhead,hrun⟩ := ByteReader.run_bind_eq_ok.mp hrun
    obtain ⟨tail,left,htail,hrun⟩ := ByteReader.run_bind_eq_ok.mp hrun
    obtain ⟨rfl,rfl⟩ := ByteReader.run_pure_eq_ok.mp hrun
    obtain ⟨hpasses,hreads⟩ := h _ _ _ hhead
    obtain ⟨hmore,hagain⟩ := ih _ _ _ htail
    rw [List.flatMap_cons]
    refine ⟨hpasses.bind hmore,hreads.bind ?_⟩
    rw [← List.append_nil (List.flatMap encode tail)]
    exact hagain.bind (.pure _)

/-- A sequence behind the digits of its length. -/
theorem Follows.counted (h : Follows skim reader encode) {width n : ℕ} {values : List α}
    {left rest : List UInt8} (hn : n < 256 ^ width)
    (hrun : (ByteReader.many n reader).run left = .ok (values,rest)) :
    Passes (LittleEndian.toBytes width n ++ left)
      (LittleEndian.toBytes width n ++ values.flatMap encode) rest
      (Skim.counted width skim (LittleEndian.toBytes width n ++ left)) := by
  have htake : (LittleEndian.toBytes width n ++ left).take width = LittleEndian.toBytes width n :=
    List.take_left' (LittleEndian.length_toBytes width n)
  rw [Skim.counted, htake, LittleEndian.ofBytes_toBytes_of_lt hn]
  exact (Passes.fixed rfl (LittleEndian.length_toBytes width n)).bind (h.times n _ _ _ hrun).1

end Follows

/-- The skim follows a reader whose value is written behind bytes that were read before. -/
def FollowsAfter {ε β : Type} (before : List UInt8) (skim : Skim) (reader : ByteReader ε β)
    (total : β → List UInt8) : Prop :=
  ∀ input b rest, reader.run input = .ok (b,rest) → ∃ written, total b = before ++ written ∧
    Passes input written rest (skim input) ∧ ByteReader.Reads reader written b

namespace FollowsAfter
variable {ε α β : Type} {before : List UInt8} {total : β → List UInt8} {layout : List Skim}

theorem bind {skim : Skim} {reader : ByteReader ε α} {encode : α → List UInt8}
    {next : α → ByteReader ε β} (h : Follows skim reader encode)
    (hnext : ∀ a, FollowsAfter (before ++ encode a) (walk layout) (next a) total) :
    FollowsAfter before (walk (skim :: layout)) (reader >>= next) total := by
  intro input b rest hrun
  obtain ⟨a,left,ha,hrun⟩ := ByteReader.run_bind_eq_ok.mp hrun
  obtain ⟨hpasses,hreads⟩ := h _ _ _ ha
  obtain ⟨written,htotal,hmore,hagain⟩ := hnext a left b rest hrun
  refine ⟨encode a ++ written,?_,hpasses.walk hmore,hreads.bind hagain⟩
  rw [htotal, List.append_assoc]

theorem pure {b : β} (h : total b = before) :
    FollowsAfter before (walk []) (Pure.pure b : ByteReader ε β) total := by
  intro input found rest hrun
  obtain ⟨rfl,rfl⟩ := ByteReader.run_pure_eq_ok.mp hrun
  refine ⟨[],?_,.nil,.pure b⟩
  rw [h, List.append_nil]

theorem lift {check : Except ε β} (h : ∀ b, check = .ok b → total b = before) :
    FollowsAfter before (walk []) (liftM check : ByteReader ε β) total := by
  intro input b rest hrun
  obtain ⟨rfl,rfl⟩ := ByteReader.run_lift_eq_ok.mp hrun
  refine ⟨[],?_,.nil,fun _ => rfl⟩
  rw [h b rfl, List.append_nil]

theorem follows {skim : Skim} {reader : ByteReader ε β} (h : FollowsAfter [] skim reader total) :
    Follows skim reader total := by
  intro input b rest hrun
  obtain ⟨written,htotal,hpasses,hreads⟩ := h input b rest hrun
  rw [htotal]
  exact ⟨hpasses,hreads⟩

end FollowsAfter

end Skim
