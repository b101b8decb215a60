import Mathlib.Data.Set.Basic
import PathObservatory.Library.ByteReader

/-! # Prefix codes

An encoding is a prefix code on a set when a word that begins with what is written for a
value of the set determines the value and the rest of the word. Codes of fields written one
after the other are then told apart field by field. -/

def PrefixCodeOn {α β : Type} (encode : α → List β) (good : Set α) : Prop :=
  ∀ a ∈ good, ∀ b ∈ good, ∀ s t, encode a ++ s = encode b ++ t → a = b ∧ s = t

namespace PrefixCodeOn
variable {α β : Type} {encode : α → List β} {good : Set α} {s t : List β}

/-- Sequences of one length, element by element. -/
theorem flatMap (h : PrefixCodeOn encode good) {as bs : List α} (hlength : as.length = bs.length)
    (has : ∀ a ∈ as, a ∈ good) (hbs : ∀ b ∈ bs, b ∈ good)
    (heq : as.flatMap encode ++ s = bs.flatMap encode ++ t) : as = bs ∧ s = t := by
  induction as generalizing bs with
  | nil =>
    obtain rfl := List.length_eq_zero_iff.mp hlength.symm
    exact ⟨rfl,heq⟩
  | cons a as ih =>
    obtain ⟨b,bs,rfl⟩ := List.exists_cons_of_length_eq_add_one hlength.symm
    rw [List.forall_mem_cons] at has hbs
    rw [List.flatMap_cons, List.flatMap_cons, List.append_assoc, List.append_assoc] at heq
    obtain ⟨rfl,hrest⟩ := h a has.1 b hbs.1 _ _ heq
    obtain ⟨rfl,rfl⟩ := ih (Nat.succ_inj.mp hlength) has.2 hbs.2 hrest
    exact ⟨rfl,rfl⟩

/-- A word that begins like a message has the first word of the message. -/
theorem cons_of_flatMap (h : PrefixCodeOn encode good) {a : α} {bs : List α} (ha : a ∈ good)
    (hne : encode a ≠ []) (hbs : ∀ b ∈ bs, b ∈ good) (heq : encode a ++ s = bs.flatMap encode) :
    ∃ rest, bs = a :: rest ∧ s = rest.flatMap encode := by
  cases bs with
  | nil => exact absurd (List.append_eq_nil_iff.mp heq).1 hne
  | cons b rest =>
    rw [List.flatMap_cons] at heq
    obtain ⟨rfl,hrest⟩ := h a ha b (hbs b List.mem_cons_self) _ _ heq
    exact ⟨rest,rfl,hrest⟩

/-- A message that is a first part of another is so word by word. -/
theorem prefix_of_flatMap (h : PrefixCodeOn encode good) (hne : ∀ a ∈ good, encode a ≠ [])
    {as bs : List α} (has : ∀ a ∈ as, a ∈ good) (hbs : ∀ b ∈ bs, b ∈ good)
    (heq : as.flatMap encode <+: bs.flatMap encode) : as <+: bs := by
  obtain ⟨s,heq⟩ := heq
  induction as generalizing bs with
  | nil => exact List.nil_prefix
  | cons a as ih =>
    rw [List.forall_mem_cons] at has
    rw [List.flatMap_cons, List.append_assoc] at heq
    obtain ⟨rest,rfl,hrest⟩ := h.cons_of_flatMap has.1 (hne a has.1) hbs heq
    exact List.cons_prefix_cons.mpr
      ⟨rfl,ih has.2 (fun b hb => hbs b (List.mem_cons_of_mem a hb)) hrest⟩

/-- A sequence behind a code word for its length. -/
theorem counted {count : ℕ → List β} {sizes : Set ℕ} (hcount : PrefixCodeOn count sizes)
    (h : PrefixCodeOn encode good) :
    PrefixCodeOn (fun as : List α => count as.length ++ as.flatMap encode)
      {as | as.length ∈ sizes ∧ ∀ a ∈ as, a ∈ good} := by
  intro as has bs hbs s t heq
  rw [List.append_assoc, List.append_assoc] at heq
  obtain ⟨hlength,heq⟩ := hcount _ has.1 _ hbs.1 _ _ heq
  exact h.flatMap hlength has.2 hbs.2 heq

end PrefixCodeOn

/-- What one reader reads back for every value is a prefix code. -/
theorem ByteReader.Reads.prefixCodeOn {ε α : Type} {reader : ByteReader ε α}
    {encode : α → List UInt8} {good : Set α} (h : ∀ a ∈ good, Reads reader (encode a) a) :
    PrefixCodeOn encode good :=
  fun a ha b hb _ _ heq => (h a ha).cancel (h b hb) heq
