import Mathlib.Data.List.Induction
import Mathlib.Data.Nat.Basic
import Mathlib.Order.Basic

/-! # The first of the largest elements above a threshold

A scan keeps the first element whose measure is above the threshold and above the
measure of everything before it, with its position.
-/
namespace Peaks
variable {α : Type} (threshold : ℕ) (measure : α → ℕ)

/-- One step of the scan: the largest measure so far, with its position. -/
def keepLarger (found : ℕ × Option ℕ) (entry : α × ℕ) : ℕ × Option ℕ :=
  if threshold < measure entry.1 ∧ found.1 < measure entry.1 then
    (measure entry.1,some entry.2)
  else found

def scan (l : List α) : ℕ × Option ℕ :=
  l.zipIdx.foldl (keepLarger threshold measure) (0,none)

theorem scan_concat (l : List α) (a : α) :
    scan threshold measure (l ++ [a]) =
      keepLarger threshold measure (scan threshold measure l) (a,l.length) := by
  unfold scan
  rw [List.zipIdx_append, List.foldl_append]
  simp

/-- Nothing before the element is as large, and nothing behind it larger. -/
structure Peak (l front back : List α) (a : α) : Prop where
  split : l = front ++ a :: back
  above : threshold < measure a
  front_lt : ∀ b ∈ front, measure b < measure a
  back_le : ∀ b ∈ back, measure b ≤ measure a

/-- The scan finds the peak, or there is nothing above the threshold. -/
theorem scan_cases (l : List α) :
    (scan threshold measure l = (0,none) ∧ ∀ a ∈ l, measure a ≤ threshold) ∨
    ∃ front a back, Peak threshold measure l front back a ∧
      scan threshold measure l = (measure a,some front.length) := by
  induction l using List.reverseRecOn with
  | nil => exact Or.inl ⟨rfl,nofun⟩
  | append_singleton l last ih =>
    rw [scan_concat]
    rcases ih with ⟨hscan,hall⟩ | ⟨front,a,back,hpeak,hscan⟩
    · rw [hscan]
      by_cases habove : threshold < measure last
      · refine Or.inr ⟨l,last,[],⟨rfl,habove,fun b hb => (hall b hb).trans_lt habove,nofun⟩,?_⟩
        exact if_pos ⟨habove,Nat.zero_lt_of_lt habove⟩
      · refine Or.inl ⟨if_neg fun h => habove h.1,fun b hb => ?_⟩
        rcases List.mem_append.mp hb with hb | hb
        · exact hall b hb
        · rw [List.mem_singleton.mp hb]
          exact not_lt.mp habove
    · rw [hscan]
      by_cases hlarger : measure a < measure last
      · refine Or.inr ⟨l,last,[],⟨rfl,hpeak.above.trans hlarger,fun b hb => ?_,nofun⟩,?_⟩
        · rw [hpeak.split] at hb
          rcases List.mem_append.mp hb with hb | hb
          · exact (hpeak.front_lt b hb).trans hlarger
          · rcases List.mem_cons.mp hb with rfl | hb
            · exact hlarger
            · exact (hpeak.back_le b hb).trans_lt hlarger
        · exact if_pos ⟨hpeak.above.trans hlarger,hlarger⟩
      · refine Or.inr ⟨front,a,back ++ [last],⟨?_,hpeak.above,hpeak.front_lt,fun b hb => ?_⟩,?_⟩
        · rw [hpeak.split, List.append_assoc, List.cons_append]
        · rcases List.mem_append.mp hb with hb | hb
          · exact hpeak.back_le b hb
          · rw [List.mem_singleton.mp hb]
            exact not_lt.mp hlarger
        · exact if_neg fun h => hlarger h.2

theorem scan_eq_none_iff {l : List α} :
    (scan threshold measure l).2 = none ↔ ∀ a ∈ l, measure a ≤ threshold := by
  rcases scan_cases threshold measure l with ⟨hscan,hall⟩ | ⟨front,a,back,hpeak,hscan⟩
  · rw [hscan]
    exact ⟨fun _ => hall,fun _ => rfl⟩
  · rw [hscan]
    refine ⟨nofun,fun hall => ?_⟩
    have hmem : a ∈ l := hpeak.split ▸ List.mem_append_right _ List.mem_cons_self
    exact absurd (hall a hmem) (not_le.mpr hpeak.above)

end Peaks
