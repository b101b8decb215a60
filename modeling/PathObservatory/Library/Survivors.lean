import PathObservatory.Library.Ranking

/-! # Survivors of a ranking and of its restriction

Dropping the elements outside a predicate before a ranking or after it gives the
same survivors, whatever the sort does with ties, exactly when no dropped element
takes part in a removal and no survivor has a rival of its rank.
-/
namespace Ranking
variable {α κ ι : Type} [LinearOrder κ] {before : α → α → Bool} {key : α → κ} {name : α → ι}
  {p : α → Bool} {l : List α}

/-- The elements outside `p` take no part in the removal of repeats, and no
survivor in `p` has a rival of its rank. -/
def Undisturbed (key : α → κ) (name : α → ι) (p : α → Bool) (l : List α) : Prop :=
  ∀ x ∈ l, p x = true →
    (Shielded key name l x ↔ Shielded key name (l.filter p) x) ∧
    (¬ Shielded key name l x → ∀ y ∈ l, key y = key x → y = x)

/-- Nothing is disturbed in a list without repeated names. -/
theorem Undisturbed.of_names_inj (h : ∀ x ∈ l, ∀ y ∈ l, name x = name y → x = y)
    (hk : NamedByRank key name) : Undisturbed key name p l := by
  have hfree : ∀ x ∈ l, ∀ m : List α, m ⊆ l → ¬ Shielded key name m x := by
    rintro x hx m hm ⟨y,hy,hlt,hname,-⟩
    rw [h y (hm hy) x hx hname] at hlt
    exact lt_irrefl _ hlt
  intro x hx _
  refine ⟨iff_of_false (hfree x hx l (List.Subset.refl l))
    (hfree x hx _ (List.filter_subset_self l)),fun _ y hy hyx => h y hy x hx (hk y x hyx)⟩

variable [DecidableEq α]

/-- A sorter that puts `x` before its rivals. -/
def Sorter.prefer (h : RanksBy before key) (x : α) : Sorter before where
  sort l := (Sorter.insertion h).sort (if x ∈ l then x :: l.erase x else l)
  perm l := by
    refine ((Sorter.insertion h).perm _).trans ?_
    split_ifs with hx
    · exact (List.perm_cons_erase hx).symm
    · exact List.Perm.refl l
  sorted l := (Sorter.insertion h).sorted _

/-- A sorter that treats one list in its own way. -/
def Sorter.on (special : List α) (s t : Sorter before) : Sorter before where
  sort l := if l = special then s.sort l else t.sort l
  perm l := by
    split_ifs
    · exact s.perm l
    · exact t.perm l
  sorted l := by
    split_ifs
    · exact s.sorted l
    · exact t.sorted l

theorem Sorter.on_sort_self {special : List α} {s t : Sorter before} :
    (Sorter.on special s t).sort special = s.sort special := if_pos rfl

theorem Sorter.on_sort_of_ne {special : List α} {s t : Sorter before} (h : l ≠ special) :
    (Sorter.on special s t).sort l = t.sort l := if_neg h

theorem Sorter.prefer_split (h : RanksBy before key) {x : α} (hx : x ∈ l) :
    ∃ low high, (Sorter.prefer h x).sort l = low ++ x :: high ∧ ∀ a ∈ low, key a < key x := by
  have hsort : (Sorter.prefer h x).sort l =
      (x :: l.erase x).insertionSort (fun a b => before b a = false) := by
    simp [Sorter.prefer, Sorter.insertion, hx]
  rw [hsort, List.insertionSort_cons_eq_take_drop]
  refine ⟨_,_,rfl,fun a ha => ?_⟩
  have hlow := List.mem_takeWhile_imp ha
  rw [decide_eq_true_eq, h.before_eq_false] at hlow
  exact not_le.mp hlow

variable [DecidableEq ι]

theorem Sorter.mem_destutter_prefer (h : RanksBy before key) {x : α} (hx : x ∈ l)
    (hsh : ¬ Shielded key name l x) :
    x ∈ ((Sorter.prefer h x).sort l).destutter (fun a b => name a ≠ name b) := by
  have hsorted := Sorter.sort_pairwise h (Sorter.prefer h x) l
  have hsh' : ¬ Shielded key name ((Sorter.prefer h x).sort l) x := by
    rwa [shielded_congr (fun a => (Sorter.prefer h x).mem_sort)]
  obtain ⟨low,high,hsplit,hlow⟩ := Sorter.prefer_split h hx
  rw [hsplit] at hsorted hsh' ⊢
  exact mem_destutter_of_split hsorted hlow hsh'

/-- In an undisturbed list the survivors within `p` are those of the restriction,
for any two sorters. -/
theorem Undisturbed.survivors_eq (h : RanksBy before key) (hk : NamedByRank key name)
    (hu : Undisturbed key name p l) (s t : Sorter before) :
    ((s.sort l).destutter (fun a b => name a ≠ name b)).filter p =
      (t.sort (l.filter p)).destutter (fun a b => name a ≠ name b) := by
  have hl := Sorter.sort_pairwise h s l
  have hm := Sorter.sort_pairwise h t (l.filter p)
  refine eq_of_pairwise_lt ((destutter_pairwise_lt hk hl).filter p) (destutter_pairwise_lt hk hm)
    (fun z => ?_)
  have hsurvives : ∀ {m : List α} (r : Sorter before),
      z ∈ (r.sort m).destutter (fun a b => name a ≠ name b) → z ∈ m := fun r hz =>
    r.mem_sort.mp ((List.destutter_sublist _ _).subset hz)
  rw [List.mem_filter]
  by_cases hz : z ∈ l ∧ p z = true
  · obtain ⟨hshield,htie⟩ := hu z hz.1 hz.2
    by_cases hsh : Shielded key name l z
    · refine iff_of_false (fun hs => ?_) (fun ht => ?_)
      · refine not_shielded_of_mem_destutter hk hl hs.1 ?_
        rwa [shielded_congr (fun a => s.mem_sort)]
      · refine not_shielded_of_mem_destutter hk hm ht ?_
        rw [shielded_congr (fun a => t.mem_sort)]
        exact hshield.mp hsh
    · refine iff_of_true ⟨?_,hz.2⟩ ?_
      · refine (mem_destutter_iff_not_shielded hk hl
          (fun y hy => htie hsh y (s.mem_sort.mp hy))).mpr ⟨s.mem_sort.mpr hz.1,?_⟩
        rwa [shielded_congr (fun a => s.mem_sort)]
      · refine (mem_destutter_iff_not_shielded hk hm
          (fun y hy => htie hsh y (List.mem_filter.mp (t.mem_sort.mp hy)).1)).mpr
            ⟨t.mem_sort.mpr (List.mem_filter.mpr hz),?_⟩
        rw [shielded_congr (fun a => t.mem_sort)]
        exact mt hshield.mpr hsh
  · exact iff_of_false (fun hs => hz ⟨hsurvives s hs.1,hs.2⟩)
      (fun ht => hz (List.mem_filter.mp (hsurvives t ht)))

/-- When something is dropped, restricting before and after every ranking agree
exactly on the undisturbed lists. -/
theorem undisturbed_iff (h : RanksBy before key) (hk : NamedByRank key name)
    (hne : l.filter p ≠ l) :
    (∀ s : Sorter before, ((s.sort l).destutter (fun a b => name a ≠ name b)).filter p =
      (s.sort (l.filter p)).destutter (fun a b => name a ≠ name b)) ↔
      Undisturbed key name p l := by
  constructor
  · intro hall
    have hpair : ∀ s t : Sorter before,
        ((s.sort l).destutter (fun a b => name a ≠ name b)).filter p =
          (t.sort (l.filter p)).destutter (fun a b => name a ≠ name b) := by
      intro s t
      have hon := hall (Sorter.on l s t)
      rwa [Sorter.on_sort_self, Sorter.on_sort_of_ne hne] at hon
    intro x hx hp
    have hxp : x ∈ l.filter p := List.mem_filter.mpr ⟨hx,hp⟩
    have hshield : Shielded key name l x ↔ Shielded key name (l.filter p) x := by
      constructor
      · intro hsh
        by_contra hfree
        have hkept := Sorter.mem_destutter_prefer h hxp hfree
        rw [← hpair (Sorter.prefer h x)] at hkept
        refine not_shielded_of_mem_destutter hk (Sorter.sort_pairwise h _ l)
          (List.mem_filter.mp hkept).1 ?_
        rwa [shielded_congr (fun a => (Sorter.prefer h x).mem_sort)]
      · intro hsh
        by_contra hfree
        have hkept := List.mem_filter.mpr ⟨Sorter.mem_destutter_prefer h hx hfree,hp⟩
        rw [hpair _ (Sorter.prefer h x)] at hkept
        refine not_shielded_of_mem_destutter hk (Sorter.sort_pairwise h _ _) hkept ?_
        rwa [shielded_congr (fun a => (Sorter.prefer h x).mem_sort)]
    refine ⟨hshield,fun hfree y hy hyx => ?_⟩
    -- Two rivals cannot both survive, yet each does when its sorter prefers it.
    have hyfree : ¬ Shielded key name l y := by
      rintro ⟨z,hz,hlt,hsame,hgap⟩
      exact hfree ⟨z,hz,hyx ▸ hlt,hsame.trans (hk y x hyx),hyx ▸ hgap⟩
    have hy' := Sorter.mem_destutter_prefer h hy hyfree
    have hx' := Sorter.mem_destutter_prefer h hxp (mt hshield.mpr hfree)
    rw [← hpair (Sorter.prefer h y)] at hx'
    have hdistinct := (destutter_pairwise_lt hk
      (Sorter.sort_pairwise h (Sorter.prefer h y) l)).imp (fun {a b} hlt => ne_of_lt hlt)
    have hsymm : Std.Symm (fun a b : α => key a ≠ key b) := ⟨fun _ _ hab => hab.symm⟩
    by_contra hneq
    exact hdistinct.forall hy' (List.mem_filter.mp hx').1 hneq hyx
  · intro hu s
    exact hu.survivors_eq h hk s s

end Ranking
