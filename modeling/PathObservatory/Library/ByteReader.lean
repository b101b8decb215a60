import Mathlib.Data.Nat.Notation
import Mathlib.Data.List.Basic

/-! # Sequential readers of byte strings

A reader consumes a prefix of its input or fails. `Reads r bytes a` says that the
reader accepts exactly these bytes with value `a`, whatever follows them, so that
the round trip of a composite encoding is the composition of its parts' round
trips. -/

/-- A reader of byte strings failing with `ε`. -/
abbrev ByteReader (ε α : Type) := StateT (List UInt8) (Except ε) α

namespace ByteReader
variable {ε α β : Type}

/-- Read exactly `n` values in sequence. -/
def many (n : ℕ) (reader : ByteReader ε α) : ByteReader ε (List α) :=
  match n with
  | 0 => pure []
  | n + 1 => do
    let head ← reader
    let tail ← many n reader
    return head :: tail

/-- The reader consumes exactly `bytes` and returns `a`. -/
def Reads (reader : ByteReader ε α) (bytes : List UInt8) (a : α) : Prop :=
  ∀ rest, reader.run (bytes ++ rest) = .ok (a, rest)

theorem Reads.pure (a : α) : Reads (Pure.pure a : ByteReader ε α) [] a := by
  intro rest
  rfl

theorem Reads.bind {reader : ByteReader ε α} {next : α → ByteReader ε β}
    {first second : List UInt8} {a : α} {b : β}
    (hr : Reads reader first a) (hn : Reads (next a) second b) :
    Reads (reader >>= next) (first ++ second) b := by
  intro rest
  have hfirst := hr (second ++ rest)
  simp only [StateT.run_bind, List.append_assoc, hfirst]
  exact hn rest

/-- A reader returns one value for one input, so that what it reads stands at the front of
an input in one way only. -/
theorem Reads.cancel {reader : ByteReader ε α} {first second s t : List UInt8} {a b : α}
    (ha : Reads reader first a) (hb : Reads reader second b) (heq : first ++ s = second ++ t) :
    a = b ∧ s = t := by
  have hread := ha s
  rw [heq, hb t] at hread
  obtain ⟨rfl,rfl⟩ := Prod.mk.inj (Except.ok.inj hread)
  exact ⟨rfl,rfl⟩

/-- A check that passes consumes nothing. -/
theorem Reads.check_bind {check : Except ε Unit} {next : Unit → ByteReader ε β}
    {bytes : List UInt8} {b : β} (hc : check = .ok ()) (hn : Reads (next ()) bytes b) :
    Reads ((liftM check : ByteReader ε Unit) >>= next) bytes b := by
  subst hc
  exact hn

/-- A list of values is read back from the concatenation of their encodings. -/
theorem Reads.many {reader : ByteReader ε α} {encode : α → List UInt8} (values : List α)
    (h : ∀ a ∈ values, Reads reader (encode a) a) :
    Reads (many values.length reader) (values.flatMap encode) values := by
  induction values with
  | nil => exact Reads.pure []
  | cons a values ih =>
    have hhead := h a List.mem_cons_self
    have htail := ih (fun b hb => h b (List.mem_cons_of_mem a hb))
    have hcons : Reads (do
        let tail ← ByteReader.many values.length reader
        return a :: tail) (values.flatMap encode) (a :: values) := by
      rw [← List.append_nil (values.flatMap encode)]
      exact htail.bind (Reads.pure (a :: values))
    exact hhead.bind hcons

/-! What a reader that succeeded has done. -/

theorem run_bind_eq_ok {reader : ByteReader ε α} {next : α → ByteReader ε β}
    {input rest : List UInt8} {b : β} : (reader >>= next).run input = .ok (b,rest) ↔
      ∃ a left, reader.run input = .ok (a,left) ∧ (next a).run left = .ok (b,rest) := by
  rw [StateT.run_bind]
  cases hrun : reader.run input with
  | error e => exact ⟨nofun,fun ⟨_,_,hread,_⟩ => nomatch hread⟩
  | ok result =>
    obtain ⟨a,left⟩ := result
    constructor
    · intro hnext
      exact ⟨a,left,rfl,hnext⟩
    · rintro ⟨_,_,hread,hnext⟩
      cases hread
      exact hnext

theorem run_pure_eq_ok {a b : α} {input rest : List UInt8} :
    (pure a : ByteReader ε α).run input = .ok (b,rest) ↔ a = b ∧ input = rest := by
  constructor
  · intro h
    exact Prod.mk.inj (Except.ok.inj h)
  · rintro ⟨rfl,rfl⟩
    rfl

theorem run_lift_eq_ok {check : Except ε α} {a : α} {input rest : List UInt8} :
    (liftM check : ByteReader ε α).run input = .ok (a,rest) ↔ check = .ok a ∧ input = rest := by
  cases check with
  | error e => exact ⟨nofun,fun ⟨hcheck,_⟩ => nomatch hcheck⟩
  | ok value =>
    constructor
    · intro h
      obtain ⟨rfl,rfl⟩ := Prod.mk.inj (Except.ok.inj h)
      exact ⟨rfl,rfl⟩
    · rintro ⟨hcheck,rfl⟩
      cases hcheck
      rfl

/-- Every value that the reader returns is good. -/
def Returns (reader : ByteReader ε α) (good : α → Prop) : Prop :=
  ∀ input a rest, reader.run input = .ok (a,rest) → good a

theorem Returns.bind {reader : ByteReader ε α} {next : α → ByteReader ε β} {good : β → Prop}
    (h : ∀ a, Returns (next a) good) : Returns (reader >>= next) good := by
  intro input b rest hrun
  obtain ⟨a,left,-,hnext⟩ := run_bind_eq_ok.mp hrun
  exact h a left b rest hnext

theorem Returns.lift {check : Except ε α} {good : α → Prop} (h : ∀ a, check = .ok a → good a) :
    Returns (liftM check : ByteReader ε α) good :=
  fun _ a _ hrun => h a (run_lift_eq_ok.mp hrun).1

/-- A sequence has its length, and what every reading gives its values have. -/
theorem forall_of_many {reader : ByteReader ε α} {good : α → Prop}
    (h : Returns reader good) {n : ℕ}
    {input rest : List UInt8} {values : List α}
    (hrun : (many n reader).run input = .ok (values,rest)) :
    values.length = n ∧ ∀ a ∈ values, good a := by
  induction n generalizing input rest values with
  | zero =>
    obtain ⟨rfl,-⟩ := run_pure_eq_ok.mp hrun
    exact ⟨rfl,nofun⟩
  | succ n ih =>
    obtain ⟨head,left,hhead,hrun⟩ := run_bind_eq_ok.mp hrun
    obtain ⟨tail,left,htail,hrun⟩ := run_bind_eq_ok.mp hrun
    obtain ⟨rfl,-⟩ := run_pure_eq_ok.mp hrun
    obtain ⟨hlength,hgood⟩ := ih htail
    refine ⟨congrArg (· + 1) hlength,?_⟩
    intro a ha
    rcases List.mem_cons.mp ha with rfl | ha
    · exact h _ _ _ hhead
    · exact hgood a ha

/-- What one reader returns the other returns as well. -/
def Within (small large : ByteReader ε α) : Prop :=
  ∀ input value rest, small.run input = .ok (value,rest) → large.run input = .ok (value,rest)

theorem Within.refl (reader : ByteReader ε α) : Within reader reader := fun _ _ _ => id

theorem Within.bind {small large : ByteReader ε α} {next after : α → ByteReader ε β}
    (h : Within small large) (hnext : ∀ value, Within (next value) (after value)) :
    Within (small >>= next) (large >>= after) := by
  intro input value rest hrun
  obtain ⟨first,middle,hfirst,hrest⟩ := run_bind_eq_ok.mp hrun
  exact run_bind_eq_ok.mpr ⟨first,middle,h _ _ _ hfirst,hnext _ _ _ _ hrest⟩

end ByteReader
