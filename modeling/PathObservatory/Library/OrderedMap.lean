import Mathlib.Data.List.Perm.Subperm
import Mathlib.Data.List.Sort
import Mathlib.Order.Compare

/-! # Ordered maps with canonical representatives

Maps iterate in key order and are equal as soon as their lookups are. -/

/-- A finite map ordered by its keys. -/
abbrev OrderedMap (κ α : Type) [LinearOrder κ] := Std.ExtTreeMap κ α compare

namespace OrderedMap
variable {κ α : Type} [LinearOrder κ]

instance transCmp : Std.TransCmp (compare : κ → κ → Ordering) := inferInstance

instance lawfulEqCmp : Std.LawfulEqCmp (compare : κ → κ → Ordering) where
  eq_of_compare := compare_eq_iff_eq.mp

theorem getElem?_insert (m : OrderedMap κ α) (k a : κ) (v : α) :
    (m.insert k v)[a]? = if k = a then some v else m[a]? := by
  rw [Std.ExtTreeMap.getElem?_insert]
  simp only [compare_eq_iff_eq]

/-- Of two entries under one key the later one stays. -/
theorem insert_insert (m : OrderedMap κ α) (k : κ) (v w : α) :
    (m.insert k v).insert k w = m.insert k w := by
  refine Std.ExtTreeMap.ext_getElem? fun a => ?_
  simp only [getElem?_insert]
  split_ifs <;> rfl

theorem getElem?_erase (m : OrderedMap κ α) (k a : κ) :
    (m.erase k)[a]? = if k = a then none else m[a]? := by
  rw [Std.ExtTreeMap.getElem?_erase]
  simp only [compare_eq_iff_eq]

/-- What every entry of the map has. -/
def All (good : κ → α → Prop) (m : OrderedMap κ α) : Prop := ∀ k v, m[k]? = some v → good k v

section All
variable {good : κ → α → Prop} {m : OrderedMap κ α}

theorem All.insert (h : All good m) {k : κ} {v : α} (hv : good k v) : All good (m.insert k v) := by
  intro other found hfound
  rw [getElem?_insert] at hfound
  split_ifs at hfound with heq
  · rw [← heq, ← Option.some.inj hfound]
    exact hv
  · exact h other found hfound

theorem All.erase (h : All good m) (k : κ) : All good (m.erase k) := by
  intro other found hfound
  rw [getElem?_erase] at hfound
  split_ifs at hfound
  exact h other found hfound

theorem All.map (h : All good m) {change : α → α} (hchange : ∀ k v, good k v → good k (change v)) :
    All good (m.map (fun _ v => change v)) := by
  intro k found hfound
  rw [Std.ExtTreeMap.getElem?_map] at hfound
  obtain ⟨v,hv,rfl⟩ := Option.map_eq_some_iff.mp hfound
  exact hchange k v (h k v hv)

end All

theorem keys_nodup (m : OrderedMap κ α) : m.keys.Nodup := by
  refine (Std.ExtTreeMap.distinct_keys (t := m)).imp ?_
  intro a b h heq
  exact h (compare_eq_iff_eq.mpr heq)

theorem mem_iff_getElem? {m : OrderedMap κ α} {k : κ} : k ∈ m ↔ ∃ v, m[k]? = some v := by
  rw [Std.ExtTreeMap.mem_iff_isSome_getElem?, Option.isSome_iff_exists]

/-- A map whose keys are among those of another, but not all of them, is smaller. -/
theorem size_lt_of_subset {m : OrderedMap κ α} {n : OrderedMap κ α} (h : ∀ k, k ∈ m → k ∈ n)
    {key : κ} (hm : key ∉ m) (hn : key ∈ n) : m.size < n.size := by
  rw [← Std.ExtTreeMap.length_keys, ← Std.ExtTreeMap.length_keys]
  have hnodup : (key :: m.keys).Nodup :=
    List.nodup_cons.mpr ⟨fun hk => hm (Std.ExtTreeMap.mem_keys.mp hk),m.keys_nodup⟩
  refine Nat.lt_of_succ_le (hnodup.subperm ?_).length_le
  intro k hk
  rcases List.mem_cons.mp hk with rfl | hk
  · exact Std.ExtTreeMap.mem_keys.mpr hn
  · exact Std.ExtTreeMap.mem_keys.mpr (h k (Std.ExtTreeMap.mem_keys.mp hk))

/-- The first key with a property is the least one. -/
theorem le_of_find?_keys {m : OrderedMap κ α} {p : κ → Bool} {first key : κ}
    (h : m.keys.find? p = some first) (hmem : key ∈ m) (hkey : p key = true) : first ≤ key := by
  have hordered : m.keys.Pairwise (· < ·) :=
    (Std.ExtTreeMap.ordered_keys (t := m)).imp compare_lt_iff_lt.mp
  obtain ⟨-,front,back,hkeys,hfront⟩ := List.find?_eq_some_iff_append.mp h
  have hmem := Std.ExtTreeMap.mem_keys.mpr hmem
  rw [hkeys] at hordered hmem
  rcases List.mem_append.mp hmem with hk | hk
  · have hnot := hfront key hk
    rw [hkey] at hnot
    cases hnot
  · rcases List.mem_cons.mp hk with rfl | hk
    · exact le_refl _
    · exact (List.rel_of_pairwise_cons (List.pairwise_append.mp hordered).2.1 hk).le

theorem find?_keys_eq_some {m : OrderedMap κ α} {p : κ → Bool} {key : κ} :
    m.keys.find? p = some key ↔ key ∈ m ∧ p key = true ∧ ∀ k ∈ m, p k = true → key ≤ k := by
  constructor
  · intro h
    exact ⟨Std.ExtTreeMap.mem_keys.mp (List.mem_of_find?_eq_some h),List.find?_some h,
      fun k hk hp => le_of_find?_keys h hk hp⟩
  · rintro ⟨hmem,hp,hleast⟩
    cases hfind : m.keys.find? p with
    | none => exact absurd hp (List.find?_eq_none.mp hfind key (Std.ExtTreeMap.mem_keys.mpr hmem))
    | some first =>
      have hfirst : first ∈ m := Std.ExtTreeMap.mem_keys.mp (List.mem_of_find?_eq_some hfind)
      rw [le_antisymm (le_of_find?_keys hfind hmem hp) (hleast first hfirst (List.find?_some hfind))]

end OrderedMap
