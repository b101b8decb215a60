import Mathlib.Logic.Function.Basic
import Mathlib.Order.Basic

/-! # Cells that are written in turn

A value is kept in several cells, each write going to a cell other than the one that
holds the greatest key. A write that is torn empties its own cell only, so the cell
with the greatest key stays readable.
-/
namespace PathObservatory
namespace LeadingCell
variable {ι α κ : Type} [DecidableEq ι] [Preorder κ] {key : α → κ} {cells : ι → Option α}

/-- The cell holds the value, and every other value has a smaller key. -/
structure Leads (key : α → κ) (cells : ι → Option α) (i : ι) (a : α) : Prop where
  holds : cells i = some a
  below : ∀ j, j ≠ i → ∀ b, cells j = some b → key b < key a

/-- A value with a greater key than those of the other cells leads once it is
written. -/
theorem leads_update {i : ι} {a : α}
    (h : ∀ j, j ≠ i → ∀ b, cells j = some b → key b < key a) :
    Leads key (Function.update cells i (some a)) i a := by
  refine ⟨Function.update_self i (some a) cells,?_⟩
  intro j hj b hb
  rw [Function.update_of_ne hj] at hb
  exact h j hj b hb

/-- A torn write of another cell does not touch the leading one. -/
theorem Leads.tear {i j : ι} {a : α} (h : Leads key cells i a) (hne : j ≠ i) :
    Leads key (Function.update cells j none) i a := by
  refine ⟨(Function.update_of_ne hne.symm none cells).trans h.holds,?_⟩
  intro other hother b hb
  by_cases hsame : other = j
  · subst hsame
    rw [Function.update_self] at hb
    cases hb
  · rw [Function.update_of_ne hsame] at hb
    exact h.below other hother b hb

/-- Writes with ever greater keys that lead from one value to another. -/
def Ascends (key : α → κ) : α → List α → α → Prop
  | a, [], b => a = b
  | a, w :: rest, b => key a < key w ∧ Ascends key w rest b

theorem Ascends.append {a b c : α} {first second : List α} (h : Ascends key a first b)
    (k : Ascends key b second c) : Ascends key a (first ++ second) c := by
  induction first generalizing a with
  | nil =>
    obtain rfl : a = b := h
    exact k
  | cons w rest ih => exact ⟨h.1,ih h.2⟩

theorem Ascends.pairwise {a b : α} {writes : List α} (h : Ascends key a writes b) :
    (a :: writes).Pairwise (fun x y => key x < key y) := by
  induction writes generalizing a with
  | nil => exact List.pairwise_singleton _ a
  | cons w rest ih =>
    have hrest := ih h.2
    refine List.Pairwise.cons ?_ hrest
    intro x hx
    rcases List.mem_cons.mp hx with rfl | hlater
    · exact h.1
    · exact lt_trans h.1 (List.rel_of_pairwise_cons hrest hlater)

theorem Ascends.getLast? {a b : α} {writes : List α} (h : Ascends key a writes b) :
    (a :: writes).getLast? = some b := by
  induction writes generalizing a with
  | nil =>
    obtain rfl : a = b := h
    rfl
  | cons w rest ih =>
    rw [List.getLast?_cons_cons]
    exact ih h.2

end LeadingCell

end PathObservatory
