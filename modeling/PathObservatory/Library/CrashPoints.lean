import Mathlib.Logic.Basic

/-! # Where a process that writes files may die

Operations are performed one after the other. A process that dies has performed some
of them, and the next one at most in part.
-/
namespace PathObservatory
namespace CrashPoints
variable {Op State : Type}

def performAll (apply : Op → State → State) (operations : List Op) (s : State) : State :=
  operations.foldl (fun s op => apply op s) s

theorem performAll_append (apply : Op → State → State) (first second : List Op) (s : State) :
    performAll apply (first ++ second) s = performAll apply second (performAll apply first s) :=
  List.foldl_append

/-- The states a process may leave behind that dies while it performs the
operations. -/
inductive Interrupted (apply : Op → State → State) (part : Op → State → State → Prop) :
    List Op → State → State → Prop
  | stopped (operations : List Op) (s : State) : Interrupted apply part operations s s
  | torn {op : Op} {operations : List Op} {s t : State} (h : part op s t) :
      Interrupted apply part (op :: operations) s t
  | later {op : Op} {operations : List Op} {s t : State}
      (h : Interrupted apply part operations (apply op s) t) :
      Interrupted apply part (op :: operations) s t

variable {apply : Op → State → State} {part : Op → State → State → Prop}

/-- Dying in a sequence of operations is dying in its first part, or behind it. -/
theorem Interrupted.append_cases {first second : List Op} {s t : State}
    (h : Interrupted apply part (first ++ second) s t) :
    Interrupted apply part first s t ∨
      Interrupted apply part second (performAll apply first s) t := by
  induction first generalizing s with
  | nil => exact Or.inr h
  | cons op rest ih =>
    rw [List.cons_append] at h
    cases h with
    | stopped => exact Or.inl (.stopped _ _)
    | torn hpart => exact Or.inl (.torn hpart)
    | later hlater =>
      rcases ih hlater with hfirst | hsecond
      · exact Or.inl (.later hfirst)
      · exact Or.inr hsecond

/-- What every operation keeps, in full and in part, a process keeps that dies. -/
theorem Interrupted.invariant (Good : State → Prop) {operations : List Op} {s t : State}
    (happly : ∀ op ∈ operations, ∀ s, Good s → Good (apply op s))
    (hpart : ∀ op ∈ operations, ∀ s t, Good s → part op s t → Good t)
    (h : Interrupted apply part operations s t) (hs : Good s) : Good t := by
  induction h with
  | stopped => exact hs
  | torn htorn => exact hpart _ List.mem_cons_self _ _ hs htorn
  | later _ ih =>
    refine ih (fun op hop => happly op (List.mem_cons_of_mem _ hop))
      (fun op hop => hpart op (List.mem_cons_of_mem _ hop)) ?_
    exact happly _ List.mem_cons_self _ hs

end CrashPoints

end PathObservatory
