import Mathlib.Algebra.BigOperators.Group.List.Basic
import Mathlib.Algebra.Ring.Nat
import PathObservatory.Library.OrderedMap

/-! # Totals over a map

What the entries of an ordered map weigh together, and how one insertion changes it. -/
namespace MapTotals
variable {κ α : Type} [LinearOrder κ] {m : OrderedMap κ α} {key : κ}

/-- The weights of all entries together. -/
def total (weight : α → ℕ) (m : OrderedMap κ α) : ℕ :=
  (m.toList.map fun entry => weight entry.2).sum

/-- The entries under the other keys. -/
def others (m : OrderedMap κ α) (key : κ) : List (κ × α) := m.toList.filter (·.1 ≠ key)

theorem toList_nodup (m : OrderedMap κ α) : m.toList.Nodup := by
  refine (Std.ExtTreeMap.distinct_keys_toList (t := m)).imp ?_
  intro a b h heq
  exact h (compare_eq_iff_eq.mpr (congrArg Prod.fst heq))

theorem mem_toList {entry : κ × α} : entry ∈ m.toList ↔ m[entry.1]? = some entry.2 :=
  Std.ExtTreeMap.mem_toList_iff_getElem?_eq_some

theorem mem_others {entry : κ × α} :
    entry ∈ others m key ↔ m[entry.1]? = some entry.2 ∧ entry.1 ≠ key := by
  simp [others, mem_toList]

theorem others_nodup (m : OrderedMap κ α) (key : κ) : (others m key).Nodup :=
  (toList_nodup m).filter _

/-- A map is one of its entries and the others. -/
theorem toList_perm {v : α} (h : m[key]? = some v) :
    m.toList.Perm ((key,v) :: others m key) := by
  have hothers : ((key,v) :: others m key).Nodup :=
    List.nodup_cons.mpr ⟨fun hmem => (mem_others.mp hmem).2 rfl,others_nodup m key⟩
  refine (List.perm_ext_iff_of_nodup (toList_nodup m) hothers).mpr fun entry => ?_
  rw [List.mem_cons, mem_others, mem_toList]
  by_cases hkey : entry.1 = key
  · rw [hkey, h]
    constructor
    · intro hv
      exact Or.inl (Prod.ext hkey (Option.some.inj hv).symm)
    · rintro (rfl | ⟨-,hne⟩)
      · rfl
      · exact absurd rfl hne
  · constructor
    · exact fun hfound => Or.inr ⟨hfound,hkey⟩
    · rintro (rfl | ⟨hfound,-⟩)
      · exact absurd rfl hkey
      · exact hfound

theorem others_insert (m : OrderedMap κ α) (key : κ) (v : α) :
    (others (m.insert key v) key).Perm (others m key) := by
  refine (List.perm_ext_iff_of_nodup (others_nodup _ key) (others_nodup m key)).mpr
    fun entry => ?_
  rw [mem_others, mem_others, OrderedMap.getElem?_insert]
  by_cases hkey : key = entry.1
  · simp [hkey]
  · simp [hkey]

theorem others_of_absent (h : m[key]? = none) : others m key = m.toList := by
  refine List.filter_eq_self.mpr fun entry hentry => decide_eq_true fun hkey => ?_
  have hfound := mem_toList.mp hentry
  rw [hkey, h] at hfound
  cases hfound

theorem total_of_found (weight : α → ℕ) {v : α} (h : m[key]? = some v) :
    total weight m = weight v + ((others m key).map fun entry => weight entry.2).sum :=
  ((toList_perm h).map _).sum_eq

/-- An insertion puts the weight of the new entry in the place of that of the old one. -/
theorem total_insert (weight : α → ℕ) (m : OrderedMap κ α) (key : κ) (v : α) :
    total weight (m.insert key v) + (m[key]?).elim 0 weight = total weight m + weight v := by
  have hinserted : (m.insert key v)[key]? = some v := by
    rw [OrderedMap.getElem?_insert, if_pos rfl]
  have hothers : ((others (m.insert key v) key).map fun entry => weight entry.2).sum =
      ((others m key).map fun entry => weight entry.2).sum :=
    ((others_insert m key v).map _).sum_eq
  rw [total_of_found weight hinserted, hothers]
  cases hheld : m[key]? with
  | none =>
    rw [others_of_absent hheld, Option.elim_none, total]
    omega
  | some w =>
    rw [total_of_found weight hheld, Option.elim_some]
    omega

end MapTotals
