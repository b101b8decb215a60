import Mathlib.Data.List.Induction
import Mathlib.Order.Interval.Finset.Nat

/-! # Numbers that an ascending list leaves out

The numbers between the first and the largest of a list that are not in it. A list that
grows upwards leaves out in each step the numbers it jumps over.
-/
namespace Gaps
variable {l : List ℕ} {n : ℕ}

def highest (l : List ℕ) : ℕ := l.foldr max 0

/-- The numbers between the first and the largest of the list that are not in it. -/
def missed (l : List ℕ) : Finset ℕ :=
  (Finset.Icc (l.head?.getD 1) (highest l)).filter (· ∉ l)

@[simp] theorem missed_nil : missed [] = ∅ := rfl

theorem le_highest {a : ℕ} (ha : a ∈ l) : a ≤ highest l := by
  induction l with
  | nil => cases ha
  | cons b l ih =>
    rcases List.mem_cons.mp ha with rfl | ha
    · exact le_max_left _ _
    · exact (ih ha).trans (le_max_right _ _)

theorem highest_mem (hl : l ≠ []) : highest l ∈ l := by
  induction l with
  | nil => exact absurd rfl hl
  | cons a l ih =>
    by_cases hrest : l = []
    · subst hrest
      exact List.mem_singleton.mpr (max_eq_left (Nat.zero_le a))
    · rcases max_choice a (highest l) with hmax | hmax
      · exact List.mem_cons.mpr (Or.inl hmax)
      · refine List.mem_cons_of_mem a ?_
        have hhighest : highest (a :: l) = highest l := hmax
        rw [hhighest]
        exact ih hrest

@[simp] theorem highest_singleton (n : ℕ) : highest [n] = n := max_eq_left (Nat.zero_le n)

/-- A number above all others is the largest from then on. -/
theorem highest_concat (hn : highest l < n) : highest (l ++ [n]) = n := by
  refine le_antisymm ?_ (le_highest (List.mem_append_right _ (List.mem_singleton_self n)))
  rcases List.mem_append.mp (highest_mem (l := l ++ [n]) (by simp)) with hold | hnew
  · exact (le_highest hold).trans hn.le
  · rw [List.mem_singleton.mp hnew]

@[simp] theorem missed_singleton (n : ℕ) : missed [n] = ∅ := by
  refine Finset.filter_eq_empty_iff.mpr fun a ha => ?_
  rw [highest_singleton, List.head?_singleton, Option.getD_some, Finset.Icc_self] at ha
  exact not_not.mpr (List.mem_singleton.mpr (Finset.mem_singleton.mp ha))

/-- Growing upwards leaves out the numbers jumped over. -/
theorem card_missed_concat (hl : l ≠ []) (hn : highest l < n) :
    (missed (l ++ [n])).card = (missed l).card + (n - highest l - 1) := by
  obtain ⟨first,hfirst⟩ := Option.ne_none_iff_exists'.mp (mt List.head?_eq_none_iff.mp hl)
  have hle : first ≤ highest l := le_highest (List.mem_of_head? hfirst)
  have hsplit : missed (l ++ [n]) = missed l ∪ Finset.Ioo (highest l) n := by
    ext a
    have hin : a ∈ l → a ≤ highest l := le_highest
    simp only [missed, highest_concat hn, List.head?_append_of_ne_nil l hl, hfirst,
      Option.getD_some, Finset.mem_filter, Finset.mem_Icc, Finset.mem_union, Finset.mem_Ioo,
      List.mem_append, List.mem_singleton]
    by_cases hmem : a ∈ l
    · have hbound := hin hmem
      simp only [hmem, true_or, not_true, and_false, false_or, false_iff]
      omega
    · simp only [hmem, false_or, not_false_iff, and_true]
      omega
  rw [hsplit, Finset.card_union_of_disjoint, Nat.card_Ioo]
  refine Finset.disjoint_left.mpr fun a ha hjumped => ?_
  have hbelow := (Finset.mem_Icc.mp (Finset.mem_filter.mp ha).1).2
  exact not_lt.mpr hbelow (Finset.mem_Ioo.mp hjumped).1

/-- What is left out lies below the largest. -/
theorem card_missed_le (l : List ℕ) : (missed l).card ≤ highest l := by
  have hsub : missed l ⊆ Finset.range (highest l) := by
    intro a ha
    obtain ⟨hbetween,hnot⟩ := Finset.mem_filter.mp ha
    refine Finset.mem_range.mpr (lt_of_le_of_ne (Finset.mem_Icc.mp hbetween).2 ?_)
    rintro rfl
    refine hnot (highest_mem ?_)
    rintro rfl
    rw [missed_nil] at ha
    exact absurd ha (Finset.notMem_empty _)
  exact (Finset.card_le_card hsub).trans_eq (Finset.card_range _)

end Gaps
