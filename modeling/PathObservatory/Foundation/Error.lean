import Mathlib.Logic.Basic
import Mathlib.Data.Nat.Notation

/-! # Error and result vocabulary

Every fallible operation of the observatory reports failure through a result
that carries a stable code, a message and an optional detail. Checks are written
with `require`, so that a validation is the conjunction of its checks.
-/
namespace PathObservatory

inductive ErrorCode
  | none
  | invalidArgument
  | outOfRange
  | capacityExceeded
  | notSupported
  | internal
  | invalidIdentity
  | unknownIdentity
  | duplicateIdentity
  | invalidFormat
  | truncatedInput
  | integrityFailure
  | unsupportedVersion
  | unknownGeneration
  | fencedEvidence
  | insufficientEvidence
  | ioFailure
  | corruptStore
  | readOnlyStore
  | transportFailure
  | protocolViolation
  | connectionClosed
  | invalidState
  | cancelled
  | shuttingDown
deriving DecidableEq, Repr

structure Error where
  code : ErrorCode
  message : String
  detail : String := ""
deriving DecidableEq, Repr

abbrev Result (α : Type) := Except Error α
abbrev Status := Result Unit

/-- Fail with the given error unless the condition holds. -/
def require (condition : Bool) (error : Error) : Status :=
  if condition then .ok () else .error error

@[simp] theorem require_eq_ok {condition : Bool} {error : Error} :
    require condition error = .ok () ↔ condition = true := by
  unfold require
  split <;> simp_all

/-- A computation in the error monad succeeds exactly when its parts do. -/
theorem bind_eq_ok {α β : Type} {x : Result α} {f : α → Result β} {b : β} :
    (x >>= f) = .ok b ↔ ∃ a, x = .ok a ∧ f a = .ok b := by
  cases x with
  | error e => simp [bind, Except.bind]
  | ok a => simp [bind, Except.bind]

theorem map_eq_ok {α β : Type} {x : Result α} {f : α → β} {b : β} :
    x.map f = .ok b ↔ ∃ a, x = .ok a ∧ f a = b := by
  cases x with
  | error e => simp [Except.map]
  | ok a => simp [Except.map]

theorem require_bind_eq_ok {α : Type} {condition : Bool} {error : Error}
    {rest : Unit → Result α} {a : α} :
    (require condition error >>= rest) = .ok a ↔ condition = true ∧ rest () = .ok a := by
  rw [bind_eq_ok]
  constructor
  · rintro ⟨_,h,hr⟩
    exact ⟨require_eq_ok.mp h,hr⟩
  · rintro ⟨h,hr⟩
    exact ⟨(),require_eq_ok.mpr h,hr⟩

theorem toOption_eq_some_iff {α : Type} {x : Result α} {a : α} :
    x.toOption = some a ↔ x = .ok a := by
  cases x <;> simp [Except.toOption]

theorem pure_eq_ok {α : Type} {a b : α} : (pure a : Result α) = .ok b ↔ a = b := by
  rw [← Except.ok.injEq a b]
  rfl

end PathObservatory
