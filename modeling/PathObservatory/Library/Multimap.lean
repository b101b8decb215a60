import PathObservatory.Library.OrderedMap

/-! # Values listed under their keys

A map to lists is filled one entry after the other. What it holds under a key is
the values of the entries with that key, in their order; it holds no empty list.
-/
namespace OrderedMap
variable {κ α : Type} [LinearOrder κ]

/-- List a value under a key, behind those that are there. -/
def listUnder (m : OrderedMap κ (List α)) (entry : κ × α) : OrderedMap κ (List α) :=
  m.insert entry.1 ((m[entry.1]?).getD [] ++ [entry.2])

/-- The values of the entries with a key. -/
def valuesUnder (key : κ) (entries : List (κ × α)) : List α :=
  (entries.filter (·.1 = key)).map Prod.snd

theorem mem_valuesUnder {key : κ} {entries : List (κ × α)} {v : α} :
    v ∈ valuesUnder key entries ↔ (key,v) ∈ entries := by
  simp only [valuesUnder, List.mem_map, List.mem_filter, decide_eq_true_eq]
  constructor
  · rintro ⟨⟨k,w⟩,⟨hmem,rfl⟩,rfl⟩
    exact hmem
  · intro h
    exact ⟨(key,v),⟨h,rfl⟩,rfl⟩

/-- Before an entry with the key comes, nothing is listed under it; afterwards
what was there and the values of the entries. -/
theorem getElem?_foldl_listUnder (entries : List (κ × α)) (m : OrderedMap κ (List α)) (key : κ) :
    (entries.foldl listUnder m)[key]? =
      if valuesUnder key entries = [] then m[key]?
      else some ((m[key]?).getD [] ++ valuesUnder key entries) := by
  induction entries generalizing m with
  | nil => simp [valuesUnder]
  | cons entry rest ih =>
    rw [List.foldl_cons, ih, listUnder, getElem?_insert]
    by_cases hkey : entry.1 = key
    · have hvalues : valuesUnder key (entry :: rest) = entry.2 :: valuesUnder key rest := by
        simp [valuesUnder, hkey]
      subst hkey
      by_cases hrest : valuesUnder entry.1 rest = [] <;> simp [hvalues, hrest]
    · have hvalues : valuesUnder key (entry :: rest) = valuesUnder key rest := by
        simp [valuesUnder, hkey]
      simp only [hvalues, if_neg hkey]

theorem getElem?_foldl_listUnder_empty (entries : List (κ × α)) (key : κ) :
    (entries.foldl listUnder ∅)[key]? =
      if valuesUnder key entries = [] then none else some (valuesUnder key entries) := by
  rw [getElem?_foldl_listUnder]
  simp

end OrderedMap
