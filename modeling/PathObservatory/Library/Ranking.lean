import Mathlib.Data.List.Sort
import Mathlib.Data.List.Destutter
import Mathlib.Data.List.Nodup
import Mathlib.Data.List.TakeWhile

/-! # Rankings by a comparator and removal of adjacent repeats

A sorter is any function that returns a sorted permutation; nothing is assumed
about the order of elements that the comparator cannot tell apart. Which elements
survive the removal of adjacent repeats is a matter of the set of elements as soon
as elements of one rank are equal.
-/
namespace Ranking
variable {α κ ι : Type}

/-- A sorting routine for the comparator `before`. -/
structure Sorter (before : α → α → Bool) where
  sort : List α → List α
  perm : ∀ l, (sort l).Perm l
  sorted : ∀ l, (sort l).Pairwise (fun a b => before b a = false)

/-- The routine learns of the elements only what the comparator tells. -/
def Sorter.Oblivious {before : α → α → Bool} (s : Sorter before) : Prop :=
  ∀ (f : α → α) (l : List α), (∀ a ∈ l, ∀ b ∈ l, before (f a) (f b) = before a b) →
    s.sort (l.map f) = (s.sort l).map f

theorem Sorter.mem_sort {before : α → α → Bool} (s : Sorter before) {l : List α} {a : α} :
    a ∈ s.sort l ↔ a ∈ l := (s.perm l).mem_iff

section Keyed
variable [LinearOrder κ] {before : α → α → Bool} {key : α → κ}

/-- The comparator is the strict order of a key. -/
def RanksBy (before : α → α → Bool) (key : α → κ) : Prop :=
  ∀ a b, before a b = true ↔ key a < key b

theorem RanksBy.before_eq_false (h : RanksBy before key) {a b : α} :
    before b a = false ↔ key a ≤ key b := by
  rw [← Bool.not_eq_true, h b a, not_lt]

theorem Sorter.sort_pairwise (h : RanksBy before key) (s : Sorter before) (l : List α) :
    (s.sort l).Pairwise (fun a b => key a ≤ key b) :=
  (s.sorted l).imp h.before_eq_false.mp

/-- Insertion sort is a sorter; it keeps the given order of equal elements. -/
def Sorter.insertion (h : RanksBy before key) : Sorter before where
  sort l := l.insertionSort (fun a b => before b a = false)
  perm l := List.perm_insertionSort _ l
  sorted l := by
    have ht : Std.Total (fun a b : α => before b a = false) := ⟨by
      intro a b
      rw [h.before_eq_false, h.before_eq_false]
      exact le_total _ _⟩
    have hr : IsTrans α (fun a b : α => before b a = false) := ⟨by
      intro a b c hab hbc
      rw [h.before_eq_false] at hab hbc ⊢
      exact hab.trans hbc⟩
    exact List.pairwise_insertionSort _ l

theorem Sorter.insertion_oblivious (h : RanksBy before key) : (Sorter.insertion h).Oblivious := by
  intro f l hsame
  symm
  refine List.map_insertionSort _ _ f l fun a ha b hb => ?_
  rw [hsame b hb a ha]

theorem Sorter.insertion_pair (h : RanksBy before key) {a b : α} (hab : before b a = false) :
    (Sorter.insertion h).sort [a,b] = [a,b] := by
  simp [Sorter.insertion, hab]

/-- A list whose keys are those of a list sorted by its key is sorted. -/
theorem insertionSort_of_keys {key : α → κ} {l m : List α}
    (h : m.map key = (l.insertionSort (fun a b => key a ≤ key b)).map key) :
    m.insertionSort (fun a b => key a ≤ key b) = m := by
  have ht : Std.Total (fun a b => key a ≤ key b) := ⟨fun _ _ => le_total _ _⟩
  have hr : IsTrans α (fun a b => key a ≤ key b) := ⟨fun _ _ _ => le_trans⟩
  have hsorted : (m.map key).Pairwise (· ≤ ·) := by
    rw [h]
    exact List.pairwise_map.mpr (List.pairwise_insertionSort _ l)
  exact (List.pairwise_map.mp hsorted).insertionSort_eq

theorem insertionSort_idem (key : α → κ) (l : List α) :
    (l.insertionSort (fun a b => key a ≤ key b)).insertionSort (fun a b => key a ≤ key b) =
      l.insertionSort (fun a b => key a ≤ key b) := insertionSort_of_keys rfl

/-- Sorting a list and removing the repeats keeps its set of elements and nothing else. -/
theorem destutter_insertionSort_eq_iff [DecidableEq α] {r : α → α → Prop} [DecidableRel r]
    [Std.Total r] [IsTrans α r] [Std.Antisymm r] {l m : List α} :
    (l.insertionSort r).destutter (· ≠ ·) = (m.insertionSort r).destutter (· ≠ ·) ↔
      ∀ a, a ∈ l ↔ a ∈ m := by
  have hsorted : ∀ l : List α, (l.insertionSort r).Pairwise r := List.pairwise_insertionSort r
  have hunique : ∀ l : List α, (l.insertionSort r).destutter (· ≠ ·) = (l.insertionSort r).dedup :=
    fun l => (hsorted l).destutter_eq_dedup
  have hmem : ∀ (l : List α) (a : α), a ∈ (l.insertionSort r).dedup ↔ a ∈ l := by
    intro l a
    rw [List.mem_dedup, List.mem_insertionSort]
  rw [hunique, hunique]
  constructor
  · intro heq a
    rw [← hmem l, ← hmem m, heq]
  · intro hsame
    refine List.Perm.eq_of_pairwise' ((hsorted l).sublist (List.dedup_sublist _))
      ((hsorted m).sublist (List.dedup_sublist _)) ?_
    refine (List.perm_ext_iff_of_nodup (List.nodup_dedup _) (List.nodup_dedup _)).mpr fun a => ?_
    rw [hmem, hmem]
    exact hsame a

/-- The first element of a sorted list at or after the wanted key, if it has it. -/
def lookupSorted (key : α → κ) (wanted : κ) (l : List α) : Option α :=
  match l.dropWhile (fun a => key a < wanted) with
  | a :: _ => if key a = wanted then some a else none
  | [] => none

theorem mem_of_lookupSorted {wanted : κ} {l : List α} {a : α}
    (h : lookupSorted key wanted l = some a) : a ∈ l ∧ key a = wanted := by
  unfold lookupSorted at h
  split at h
  · rename_i b rest hdrop
    split at h
    · rename_i hkey
      cases h
      have hmem : a ∈ l.dropWhile (fun a => key a < wanted) := hdrop ▸ List.mem_cons_self
      exact ⟨(List.dropWhile_sublist _).subset hmem,hkey⟩
    · cases h
  · cases h

/-- In a list with strictly increasing keys every element is found. -/
theorem lookupSorted_of_mem {l : List α} (hs : l.Pairwise (fun a b => key a < key b)) {a : α}
    (ha : a ∈ l) : lookupSorted key (key a) l = some a := by
  induction l with
  | nil => cases ha
  | cons b l ih =>
    obtain ⟨hhead,htail⟩ := List.pairwise_cons.mp hs
    rcases List.mem_cons.mp ha with rfl | hmem
    · simp [lookupSorted]
    · have hrest := ih htail hmem
      unfold lookupSorted at hrest ⊢
      rw [List.dropWhile_cons, if_pos (decide_eq_true (hhead a hmem))]
      exact hrest

theorem lookupSorted_eq_some_iff {l : List α} (hs : l.Pairwise (fun a b => key a < key b))
    {wanted : κ} {a : α} : lookupSorted key wanted l = some a ↔ a ∈ l ∧ key a = wanted := by
  constructor
  · exact mem_of_lookupSorted
  · rintro ⟨ha,rfl⟩
    exact lookupSorted_of_mem hs ha

end Keyed

/-! A pass over a list that remembers the key before, checks each element and refuses
one that repeats it. -/

section Pass

/-- The pass stamps every element, in order, when all are good and no key follows
itself. -/
theorem stamping_pass {γ : Type} (pass : Option κ → List α → List γ → Prop) {good : α → Prop}
    {key : α → κ} {stamp : α → γ} (hnil : ∀ previous out, pass previous [] out ↔ out = [])
    (hcons : ∀ previous a rest out, pass previous (a :: rest) out ↔
      good a ∧ previous ≠ some (key a) ∧ ∃ tail, pass (some (key a)) rest tail ∧
        out = stamp a :: tail) {previous : Option κ} {l : List α} {out : List γ} :
    pass previous l out ↔ (∀ a ∈ l, good a) ∧ (previous.toList ++ l.map key).IsChain (· ≠ ·) ∧
      out = l.map stamp := by
  induction l generalizing previous out with
  | nil => cases previous <;> simp [hnil]
  | cons a l ih =>
    have hchain : (previous.toList ++ (a :: l).map key).IsChain (· ≠ ·) ↔
        previous ≠ some (key a) ∧ ((some (key a)).toList ++ l.map key).IsChain (· ≠ ·) := by
      cases previous <;> simp
    rw [hcons, hchain, List.forall_mem_cons, List.map_cons]
    constructor
    · rintro ⟨hgood,hnew,tail,htail,rfl⟩
      obtain ⟨hall,hrest,rfl⟩ := ih.mp htail
      exact ⟨⟨hgood,hall⟩,⟨hnew,hrest⟩,rfl⟩
    · rintro ⟨⟨hgood,hall⟩,⟨hnew,hrest⟩,rfl⟩
      exact ⟨hgood,hnew,l.map stamp,ih.mpr ⟨hall,hrest,rfl⟩,rfl⟩

/-- A pass that only checks. -/
theorem checking_pass (pass : Option κ → List α → Prop) {good : α → Prop} {key : α → κ}
    (hnil : ∀ previous, pass previous [])
    (hcons : ∀ previous a rest, pass previous (a :: rest) ↔
      good a ∧ previous ≠ some (key a) ∧ pass (some (key a)) rest) {previous : Option κ}
    {l : List α} :
    pass previous l ↔ (∀ a ∈ l, good a) ∧ (previous.toList ++ l.map key).IsChain (· ≠ ·) := by
  have hpass : pass previous l ∧ l = l ↔ (∀ a ∈ l, good a) ∧
      (previous.toList ++ l.map key).IsChain (· ≠ ·) ∧ l = l.map id := by
    refine stamping_pass (fun previous l out => pass previous l ∧ out = l) (fun previous out => ?_)
      fun previous a rest out => ?_
    · exact and_iff_right (hnil previous)
    · rw [hcons]
      aesop
  simpa using hpass

end Pass

section Survivors
variable [DecidableEq ι] {name : α → ι}

theorem mem_destutter'_iff {a z : α} {l : List α} :
    z ∈ l.destutter' (fun a b => name a ≠ name b) a ↔
      z = a ∨ ∃ before after, l = before ++ z :: after ∧
        name (before.getLast?.getD a) ≠ name z := by
  induction l generalizing a with
  | nil => simp
  | cons b l ih =>
    have hsplit : ∀ P : List α → Prop, (∃ before after, b :: l = before ++ z :: after ∧ P before) ↔
        (b = z ∧ P []) ∨ ∃ before after, l = before ++ z :: after ∧ P (b :: before) := by
      intro P
      simp only [List.cons_eq_append_iff]
      aesop
    rw [hsplit]
    have hlast : ∀ before : List α, (b :: before).getLast?.getD a = before.getLast?.getD b := by
      intro before
      cases before <;> simp [List.getLast?_cons]
    simp only [hlast, List.getLast?_nil, Option.getD_none]
    by_cases hab : name a ≠ name b
    · rw [List.destutter'_cons, if_pos hab, List.mem_cons, ih]
      aesop
    · rw [List.destutter'_cons, if_neg hab, ih]
      have hname : name a = name b := not_not.mp hab
      have hcongr : ∀ before : List α,
          name (before.getLast?.getD a) = name (before.getLast?.getD b) := by
        intro before
        cases before.getLast? <;> simp [hname]
      simp only [hcongr]
      aesop

/-- An element survives exactly when some occurrence of it does not directly
follow one of the same name. -/
theorem mem_destutter_iff {z : α} {l : List α} :
    z ∈ l.destutter (fun a b => name a ≠ name b) ↔
      ∃ before after, l = before ++ z :: after ∧ ∀ y ∈ before.getLast?, name y ≠ name z := by
  cases l with
  | nil => simp
  | cons a l =>
    rw [List.destutter_cons', mem_destutter'_iff]
    constructor
    · rintro (rfl | ⟨before,after,rfl,hname⟩)
      · exact ⟨[],l,rfl,by simp⟩
      · refine ⟨a :: before,after,rfl,?_⟩
        simpa [List.getLast?_cons] using hname
    · rintro ⟨before,after,heq,hname⟩
      rcases List.cons_eq_append_iff.mp heq with ⟨rfl,htail⟩ | ⟨rest,rfl,rfl⟩
      · exact Or.inl (List.cons.inj htail).1
      · exact Or.inr ⟨rest,after,rfl,by simpa [List.getLast?_cons] using hname⟩

end Survivors

section Rank
variable [LinearOrder κ] {key : α → κ}

/-- Elements of one rank share their name. -/
def NamedByRank (key : α → κ) (name : α → ι) : Prop := ∀ a b, key a = key b → name a = name b

/-- The elements ranked directly before `z` share its name. -/
def Shielded (key : α → κ) (name : α → ι) (l : List α) (z : α) : Prop :=
  ∃ y ∈ l, key y < key z ∧ name y = name z ∧ ∀ x ∈ l, ¬ (key y < key x ∧ key x < key z)

theorem shielded_congr {name : α → ι} {l m : List α} (h : ∀ a, a ∈ l ↔ a ∈ m) (z : α) :
    Shielded key name l z ↔ Shielded key name m z := by
  simp only [Shielded, h]

theorem key_le_getLast? {l : List α} (hs : l.Pairwise (fun a b => key a ≤ key b)) {u y : α}
    (hu : l.getLast? = some u) (hy : y ∈ l) : key y ≤ key u := by
  obtain ⟨init,rfl⟩ := List.getLast?_eq_some_iff.mp hu
  rcases List.mem_append.mp hy with hy | hy
  · exact (List.pairwise_append.mp hs).2.2 y hy u (List.mem_singleton_self u)
  · rw [List.mem_singleton.mp hy]

theorem isChain_and {R S : α → α → Prop} {l : List α} (hr : l.IsChain R) (hs : l.IsChain S) :
    l.IsChain (fun a b => R a b ∧ S a b) := by
  induction l with
  | nil => exact .nil
  | cons a l ih =>
    cases l with
    | nil => exact .singleton a
    | cons b l =>
      rw [List.isChain_cons_cons] at hr hs ⊢
      exact ⟨⟨hr.1,hs.1⟩,ih hr.2 hs.2⟩

/-- A list in strict rank order is determined by its elements. -/
theorem eq_of_pairwise_lt {l m : List α} (hl : l.Pairwise (fun a b => key a < key b))
    (hm : m.Pairwise (fun a b => key a < key b)) (h : ∀ a, a ∈ l ↔ a ∈ m) : l = m := by
  have hnodup : ∀ {l : List α}, l.Pairwise (fun a b => key a < key b) → l.Nodup := by
    intro l hl
    refine hl.imp (fun {a b} hlt heq => ?_)
    rw [heq] at hlt
    exact lt_irrefl _ hlt
  have hperm : l.Perm m := (List.perm_ext_iff_of_nodup (hnodup hl) (hnodup hm)).mpr h
  exact hperm.eq_of_pairwise (fun a b _ _ hab hba => absurd hba (lt_asymm hab)) hl hm

theorem insertionSort_pairwise_le (key : α → κ) (l : List α) :
    (l.insertionSort (fun a b => key a ≤ key b)).Pairwise (fun a b => key a ≤ key b) := by
  have ht : Std.Total (fun a b => key a ≤ key b) := ⟨fun _ _ => le_total _ _⟩
  have hr : IsTrans α (fun a b => key a ≤ key b) := ⟨fun _ _ _ => le_trans⟩
  exact List.pairwise_insertionSort _ l

/-- Sorting a list makes its keys strictly increasing exactly when no two are equal. -/
theorem insertionSort_pairwise_lt_iff {l : List α} :
    (l.insertionSort (fun a b => key a ≤ key b)).Pairwise (fun a b => key a < key b) ↔
      (l.map key).Nodup := by
  rw [← ((List.perm_insertionSort (fun a b => key a ≤ key b) l).map key).nodup_iff, List.Nodup,
    List.pairwise_map]
  constructor
  · exact fun h => h.imp fun hab => ne_of_lt hab
  · exact fun h => ((insertionSort_pairwise_le key l).and h).imp
      fun hab => lt_of_le_of_ne hab.1 hab.2

/-- In a sorted list a repeated key stands next to itself. -/
theorem insertionSort_isChain_ne_iff {l : List α} :
    ((l.insertionSort (fun a b => key a ≤ key b)).map key).IsChain (· ≠ ·) ↔
      (l.map key).Nodup := by
  have htrans : IsTrans α (fun a b => key a < key b) := ⟨fun _ _ _ => lt_trans⟩
  rw [← insertionSort_pairwise_lt_iff, ← List.isChain_iff_pairwise, List.isChain_map]
  constructor
  · intro h
    refine (isChain_and (insertionSort_pairwise_le key l).isChain h).imp ?_
    exact fun _ _ hab => lt_of_le_of_ne hab.1 hab.2
  · exact fun h => h.imp fun _ _ hab => ne_of_lt hab

/-- Without equal keys a sorted list depends on the elements only. -/
theorem insertionSort_eq_of_perm {l m : List α} (h : l.Perm m) (hk : (l.map key).Nodup) :
    l.insertionSort (fun a b => key a ≤ key b) = m.insertionSort (fun a b => key a ≤ key b) := by
  refine eq_of_pairwise_lt (insertionSort_pairwise_lt_iff.mpr hk)
    (insertionSort_pairwise_lt_iff.mpr ((h.map key).nodup_iff.mp hk)) fun a => ?_
  rw [List.mem_insertionSort, List.mem_insertionSort, h.mem_iff]

variable [DecidableEq ι] {name : α → ι}

/-- Survivors of a ranking have strictly increasing keys. -/
theorem destutter_pairwise_lt (hk : NamedByRank key name) {l : List α}
    (hs : l.Pairwise (fun a b => key a ≤ key b)) :
    (l.destutter (fun a b => name a ≠ name b)).Pairwise (fun a b => key a < key b) := by
  have hle := (hs.sublist (List.destutter_sublist (fun a b => name a ≠ name b) l)).isChain
  have hname := List.isChain_destutter (fun a b => name a ≠ name b) l
  have htrans : IsTrans α (fun a b => key a < key b) := ⟨fun _ _ _ => lt_trans⟩
  rw [← List.isChain_iff_pairwise]
  exact (isChain_and hle hname).imp
    (fun a b h => lt_of_le_of_ne h.1 (fun heq => h.2 (hk a b heq)))

/-- A survivor is not shielded. -/
theorem not_shielded_of_mem_destutter (hk : NamedByRank key name) {l : List α}
    (hs : l.Pairwise (fun a b => key a ≤ key b)) {z : α}
    (hz : z ∈ l.destutter (fun a b => name a ≠ name b)) : ¬ Shielded key name l z := by
  obtain ⟨before,after,rfl,hname⟩ := mem_destutter_iff.mp hz
  obtain ⟨hbefore,hafter,hcross⟩ := List.pairwise_append.mp hs
  rintro ⟨y,hy,hlt,hsame,hgap⟩
  have hyb : y ∈ before := by
    rcases List.mem_append.mp hy with hy | hy
    · exact hy
    · have hle : key z ≤ key y := by
        rcases List.mem_cons.mp hy with rfl | hy
        · exact le_rfl
        · exact List.rel_of_pairwise_cons hafter hy
      exact absurd hlt (not_lt.mpr hle)
  obtain ⟨u,hu⟩ := Option.ne_none_iff_exists'.mp
    (mt List.getLast?_eq_none_iff.mp (List.ne_nil_of_mem hyb))
  have hub : u ∈ before := List.mem_of_getLast? hu
  have hyu : key y ≤ key u := key_le_getLast? hbefore hu hyb
  have hne := hname u hu
  rcases (hcross u hub z List.mem_cons_self).lt_or_eq with huz | huz
  · have huy : key u = key y := le_antisymm
      (not_lt.mp (fun h => hgap u (List.mem_append_left _ hub) ⟨h,huz⟩)) hyu
    exact hne ((hk u y huy).trans hsame)
  · exact hne (hk u z huz)

/-- An element ranked strictly after all that precede it survives unless it is
shielded. -/
theorem mem_destutter_of_split {before after : List α} {z : α}
    (hs : (before ++ z :: after).Pairwise (fun a b => key a ≤ key b))
    (hlt : ∀ a ∈ before, key a < key z)
    (hz : ¬ Shielded key name (before ++ z :: after) z) :
    z ∈ (before ++ z :: after).destutter (fun a b => name a ≠ name b) := by
  refine mem_destutter_iff.mpr ⟨before,after,rfl,fun u hu hsame => hz ?_⟩
  obtain ⟨hbefore,hafter,-⟩ := List.pairwise_append.mp hs
  have hub : u ∈ before := List.mem_of_getLast? hu
  refine ⟨u,List.mem_append_left _ hub,hlt u hub,hsame,?_⟩
  rintro x hx ⟨hux,hxz⟩
  rcases List.mem_append.mp hx with hx | hx
  · exact absurd hux (not_lt.mpr (key_le_getLast? hbefore hu hx))
  · rcases List.mem_cons.mp hx with rfl | hx
    · exact lt_irrefl _ hxz
    · exact absurd hxz (not_lt.mpr (List.rel_of_pairwise_cons hafter hx))

/-- A rank that is not shielded has a survivor. -/
theorem exists_mem_destutter {l : List α} (hs : l.Pairwise (fun a b => key a ≤ key b))
    (hk : NamedByRank key name) {z : α} (hz : z ∈ l) (hsh : ¬ Shielded key name l z) :
    ∃ y ∈ l.destutter (fun a b => name a ≠ name b), key y = key z := by
  have hsplit := List.takeWhile_append_dropWhile (p := fun a => decide (key a < key z)) (l := l)
  cases hdrop : l.dropWhile (fun a => decide (key a < key z)) with
  | nil =>
    rw [hdrop, List.append_nil] at hsplit
    have hall := List.mem_takeWhile_imp (hsplit.symm ▸ hz)
    simp at hall
  | cons y rest =>
    rw [hdrop] at hsplit
    have hlow : ∀ a ∈ l.takeWhile (fun a => decide (key a < key z)), key a < key z :=
      fun a ha => by simpa using List.mem_takeWhile_imp ha
    have hhigh : key z ≤ key y := by
      have hhead := List.head?_dropWhile_not (fun a => decide (key a < key z)) l
      simpa [hdrop] using hhead
    have hyz : key y = key z := by
      rw [← hsplit] at hz hs
      rcases List.mem_append.mp hz with hz | hz
      · exact absurd (hlow z hz) (lt_irrefl _)
      · rcases List.mem_cons.mp hz with rfl | hz
        · rfl
        · exact le_antisymm
            (List.rel_of_pairwise_cons (List.pairwise_append.mp hs).2.1 hz) hhigh
    refine ⟨y,?_,hyz⟩
    have hshy : ¬ Shielded key name l y := by
      rintro ⟨x,hx,hlt,hsame,hgap⟩
      exact hsh ⟨x,hx,hyz ▸ hlt,hsame.trans (hk y z hyz),hyz ▸ hgap⟩
    rw [← hsplit] at hs hshy ⊢
    exact mem_destutter_of_split hs (fun a ha => hyz ▸ hlow a ha) hshy

/-- An element without rivals of its rank survives exactly when it is not
shielded. -/
theorem mem_destutter_iff_not_shielded (hk : NamedByRank key name) {l : List α}
    (hs : l.Pairwise (fun a b => key a ≤ key b)) {z : α}
    (htie : ∀ y ∈ l, key y = key z → y = z) :
    z ∈ l.destutter (fun a b => name a ≠ name b) ↔ z ∈ l ∧ ¬ Shielded key name l z := by
  constructor
  · intro h
    exact ⟨(List.destutter_sublist _ l).subset h,not_shielded_of_mem_destutter hk hs h⟩
  · rintro ⟨hz,hsh⟩
    obtain ⟨y,hy,hyz⟩ := exists_mem_destutter hs hk hz hsh
    rw [← htie y ((List.destutter_sublist _ l).subset hy) hyz]
    exact hy

/-- Without ties the survivors of a ranking depend on the set of elements only. -/
theorem destutter_eq_of_mem_iff (hk : NamedByRank key name) {l m : List α}
    (hl : l.Pairwise (fun a b => key a ≤ key b)) (hm : m.Pairwise (fun a b => key a ≤ key b))
    (h : ∀ a, a ∈ l ↔ a ∈ m) (htie : ∀ a ∈ l, ∀ b ∈ l, key a = key b → a = b) :
    l.destutter (fun a b => name a ≠ name b) = m.destutter (fun a b => name a ≠ name b) := by
  refine eq_of_pairwise_lt (destutter_pairwise_lt hk hl) (destutter_pairwise_lt hk hm) (fun z => ?_)
  by_cases hz : z ∈ l
  · rw [mem_destutter_iff_not_shielded hk hl (fun y hy => htie y hy z hz),
      mem_destutter_iff_not_shielded hk hm (fun y hy => htie y ((h y).mpr hy) z hz), h,
      shielded_congr h]
  · refine iff_of_false (fun hz' => hz ((List.destutter_sublist _ l).subset hz')) (fun hz' => hz ?_)
    exact (h z).mpr ((List.destutter_sublist _ m).subset hz')

/-! Removing adjacent repeats leaves each name once exactly when nothing of another
name is ranked between two elements of one. -/

theorem exists_least {l : List α} (hs : l.Pairwise (fun a b => key a ≤ key b)) {P : α → Prop}
    {x : α} (hx : x ∈ l) (hP : P x) : ∃ y ∈ l, P y ∧ ∀ z ∈ l, P z → key y ≤ key z := by
  induction l with
  | nil => cases hx
  | cons a l ih =>
    obtain ⟨hhead,htail⟩ := List.pairwise_cons.mp hs
    by_cases ha : P a
    · refine ⟨a,List.mem_cons_self,ha,fun z hz _ => ?_⟩
      rcases List.mem_cons.mp hz with rfl | hz
      · exact le_rfl
      · exact hhead z hz
    · have hxl : x ∈ l := (List.mem_cons.mp hx).resolve_left (fun h => ha (h ▸ hP))
      obtain ⟨y,hy,hPy,hmin⟩ := ih htail hxl
      refine ⟨y,List.mem_cons_of_mem _ hy,hPy,fun z hz hPz => ?_⟩
      exact hmin z ((List.mem_cons.mp hz).resolve_left (fun h => ha (h ▸ hPz))) hPz

/-- Every name has a survivor. -/
theorem exists_survivor (hk : NamedByRank key name) {l : List α}
    (hs : l.Pairwise (fun a b => key a ≤ key b)) {x : α} (hx : x ∈ l) :
    ∃ y ∈ l.destutter (fun a b => name a ≠ name b), name y = name x := by
  obtain ⟨first,hfirst,hname,hmin⟩ := exists_least hs (P := fun a => name a = name x) hx rfl
  have hfree : ¬ Shielded key name l first := by
    rintro ⟨w,hw,hlt,hsame,-⟩
    exact absurd hlt (not_lt.mpr (hmin w hw (hsame.trans hname)))
  obtain ⟨y,hy,hyx⟩ := exists_mem_destutter hs hk hfirst hfree
  exact ⟨y,hy,(hk y first hyx).trans hname⟩

/-- An element of another name is ranked between two of one name. -/
def Separated (key : α → κ) (name : α → ι) (l : List α) : Prop :=
  ∃ x ∈ l, ∃ y ∈ l, ∃ z ∈ l, name x = name y ∧ name z ≠ name x ∧ key x < key z ∧ key z < key y

/-- Two elements of one name around one of another leave two survivors. -/
theorem Separated.exists_survivors (hk : NamedByRank key name) {l : List α}
    (hs : l.Pairwise (fun a b => key a ≤ key b)) (h : Separated key name l) :
    ∃ a ∈ l.destutter (fun a b => name a ≠ name b),
      ∃ b ∈ l.destutter (fun a b => name a ≠ name b), name a = name b ∧ key a < key b := by
  obtain ⟨x,hx,y,hy,z,hz,hxy,hzx,hxz,hzy⟩ := h
  obtain ⟨first,hfirst,hfname,hfmin⟩ := exists_least hs (P := fun a => name a = name x) hx rfl
  obtain ⟨second,hsecond,⟨hsname,hzs⟩,hsmin⟩ :=
    exists_least hs (P := fun a => name a = name x ∧ key z < key a) hy ⟨hxy.symm,hzy⟩
  have hfree : ¬ Shielded key name l first := by
    rintro ⟨w,hw,hlt,hname,-⟩
    exact absurd hlt (not_lt.mpr (hfmin w hw (hname.trans hfname)))
  have hopen : ¬ Shielded key name l second := by
    rintro ⟨w,hw,hlt,hname,hgap⟩
    rcases lt_trichotomy (key w) (key z) with hwz | hwz | hwz
    · exact hgap z hz ⟨hwz,hzs⟩
    · exact hzx ((hk w z hwz).symm.trans (hname.trans hsname))
    · exact absurd hlt (not_lt.mpr (hsmin w hw ⟨hname.trans hsname,hwz⟩))
  obtain ⟨a,ha,hakey⟩ := exists_mem_destutter hs hk hfirst hfree
  obtain ⟨b,hb,hbkey⟩ := exists_mem_destutter hs hk hsecond hopen
  refine ⟨a,ha,b,hb,?_,?_⟩
  · rw [hk a first hakey, hk b second hbkey, hfname, hsname]
  · rw [hakey, hbkey]
    exact ((hfmin x hx rfl).trans_lt hxz).trans hzs

/-- Between two survivors of one name an element of another is ranked. -/
theorem separated_of_survivors (hk : NamedByRank key name) {l : List α}
    (hs : l.Pairwise (fun a b => key a ≤ key b)) {a b : α}
    (ha : a ∈ l.destutter (fun a b => name a ≠ name b))
    (hb : b ∈ l.destutter (fun a b => name a ≠ name b)) (hname : name a = name b)
    (hlt : key a < key b) : Separated key name l := by
  have hal := (List.destutter_sublist _ l).subset ha
  have hbl := (List.destutter_sublist _ l).subset hb
  have hbelow : a ∈ l.filter (fun x => key x < key b) :=
    List.mem_filter.mpr ⟨hal,decide_eq_true hlt⟩
  obtain ⟨u,hu⟩ := Option.ne_none_iff_exists'.mp
    (mt List.getLast?_eq_none_iff.mp (List.ne_nil_of_mem hbelow))
  obtain ⟨hul,hub⟩ := List.mem_filter.mp (List.mem_of_getLast? hu)
  have hub : key u < key b := of_decide_eq_true hub
  have hmax : ∀ x ∈ l, key x < key b → key x ≤ key u := fun x hx hxb =>
    key_le_getLast? (hs.filter _) hu (List.mem_filter.mpr ⟨hx,decide_eq_true hxb⟩)
  have hother : name u ≠ name b := by
    intro hsame
    refine not_shielded_of_mem_destutter hk hs hb ⟨u,hul,hub,hsame,?_⟩
    rintro x hx ⟨hux,hxb⟩
    exact absurd hux (not_lt.mpr (hmax x hx hxb))
  refine ⟨a,hal,b,hbl,u,hul,hname,fun h => hother (h.trans hname),?_,hub⟩
  exact lt_of_le_of_ne (hmax a hal hlt) (fun h => hother ((hk a u h).symm.trans hname))

/-- Adjacent removal leaves every name once exactly when no name is separated. -/
theorem destutter_names_nodup_iff (hk : NamedByRank key name) {l : List α}
    (hs : l.Pairwise (fun a b => key a ≤ key b)) :
    ((l.destutter (fun a b => name a ≠ name b)).map name).Nodup ↔ ¬ Separated key name l := by
  constructor
  · intro hnodup hseparated
    obtain ⟨a,ha,b,hb,hname,hlt⟩ := hseparated.exists_survivors hk hs
    have heq := List.inj_on_of_nodup_map hnodup ha hb hname
    rw [heq] at hlt
    exact lt_irrefl _ hlt
  · intro hnone
    refine List.pairwise_map.mpr ((destutter_pairwise_lt hk hs).imp_of_mem ?_)
    intro a b ha hb hlt hname
    exact hnone (separated_of_survivors hk hs ha hb hname hlt)

end Rank

end Ranking
