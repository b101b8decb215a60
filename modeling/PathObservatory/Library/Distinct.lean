import Mathlib.Data.List.Nodup

/-! # Appending what is new

Elements are appended one after the other, except those under whose key something stands
already.
-/
namespace PathObservatory.Distinct
variable {α κ : Type} [DecidableEq κ] (key : α → κ)

def addNew (xs : List α) (x : α) : List α :=
  if xs.any (fun y => key y = key x) then xs else xs ++ [x]

variable {key} {xs ys : List α} {x : α}

theorem addNew_of_mem (h : key x ∈ xs.map key) : addNew key xs x = xs := by
  obtain ⟨y,hy,hkey⟩ := List.mem_map.mp h
  exact if_pos (List.any_eq_true.mpr ⟨y,hy,decide_eq_true hkey⟩)

theorem addNew_of_not_mem (h : key x ∉ xs.map key) : addNew key xs x = xs ++ [x] := by
  refine if_neg fun hany => h ?_
  obtain ⟨y,hy,hkey⟩ := List.any_eq_true.mp hany
  exact List.mem_map.mpr ⟨y,hy,of_decide_eq_true hkey⟩

theorem nodup_addNew (h : (xs.map key).Nodup) : ((addNew key xs x).map key).Nodup := by
  by_cases hx : key x ∈ xs.map key
  · rwa [addNew_of_mem hx]
  · rw [addNew_of_not_mem hx, List.map_append]
    refine List.nodup_append.mpr ⟨h,List.nodup_singleton _,?_⟩
    intro a ha b hb hab
    rw [List.map_singleton, List.mem_singleton] at hb
    exact hx (hb ▸ hab ▸ ha)

theorem length_addNew_le : (addNew key xs x).length ≤ xs.length + 1 := by
  unfold addNew
  split_ifs <;> simp

/-- The keys of what was appended are distinct. -/
theorem nodup_foldl_addNew (h : (xs.map key).Nodup) :
    ((ys.foldl (addNew key) xs).map key).Nodup := by
  induction ys generalizing xs with
  | nil => exact h
  | cons y rest ih => exact ih (nodup_addNew h)

theorem length_foldl_addNew_le :
    (ys.foldl (addNew key) xs).length ≤ xs.length + ys.length := by
  induction ys generalizing xs with
  | nil => exact Nat.le_refl _
  | cons y rest ih =>
    have hfirst : (addNew key xs y).length ≤ xs.length + 1 := length_addNew_le
    rw [List.foldl_cons, List.length_cons]
    exact Nat.le_trans ih (by omega)

/-- Where a key stands for one element only, everything that was appended is there. -/
theorem mem_foldl_addNew (h : ∀ a ∈ xs ++ ys, ∀ b ∈ xs ++ ys, key a = key b → a = b) {a : α} :
    a ∈ ys.foldl (addNew key) xs ↔ a ∈ xs ∨ a ∈ ys := by
  induction ys generalizing xs with
  | nil => simp
  | cons y rest ih =>
    have hmem : ∀ {b}, b ∈ addNew key xs y ↔ b ∈ xs ∨ b = y := by
      intro b
      by_cases hy : key y ∈ xs.map key
      · obtain ⟨c,hc,hkey⟩ := List.mem_map.mp hy
        have hsame := h c (by simp [hc]) y (by simp) hkey
        rw [addNew_of_mem hy]
        constructor
        · exact Or.inl
        · rintro (hb | rfl)
          · exact hb
          · exact hsame ▸ hc
      · rw [addNew_of_not_mem hy]
        simp
    rw [List.foldl_cons, ih, hmem, List.mem_cons, or_assoc]
    intro b hb c hc
    simp only [List.mem_append, hmem] at hb hc
    refine h b ?_ c ?_ <;> simp only [List.mem_append, List.mem_cons] <;> tauto

/-- A part of the state that every step extends by the same operation is extended by all
that the steps produce. -/
theorem foldl_part {σ ι β γ : Type} {step : σ → ι → σ} (part : σ → γ) (extend : γ → β → γ)
    (produce : ι → List β) (h : ∀ s i, part (step s i) = (produce i).foldl extend (part s))
    (is : List ι) (s : σ) :
    part (is.foldl step s) = (is.flatMap produce).foldl extend (part s) := by
  induction is generalizing s with
  | nil => rfl
  | cons i rest ih => rw [List.foldl_cons, ih, h, List.flatMap_cons, List.foldl_append]

end PathObservatory.Distinct
