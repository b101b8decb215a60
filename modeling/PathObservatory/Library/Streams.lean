import Mathlib.Data.List.Basic
import Mathlib.Data.List.Perm.Basic
import Mathlib.Order.Basic

/-! # Lists whose elements belong to streams

The streams of a list may interleave. The list ascends when no element ranks below an
earlier one of its own stream. Two lists with the same streams differ in how these are
merged. -/

namespace Streams
variable {γ σ ρ : Type} [Preorder ρ] {stream : γ → σ} {rank : γ → ρ} {l : List γ} {g : γ}

def Ascending (stream : γ → σ) (rank : γ → ρ) (l : List γ) : Prop :=
  l.Pairwise (fun a b => stream a = stream b → rank a ≤ rank b)

/-- No element of the stream of `g` ranks above it. -/
def Tops (stream : γ → σ) (rank : γ → ρ) (l : List γ) (g : γ) : Prop :=
  ∀ a ∈ l, stream a = stream g → rank a ≤ rank g

theorem ascending_concat :
    Ascending stream rank (l ++ [g]) ↔ Ascending stream rank l ∧ Tops stream rank l g := by
  unfold Ascending
  rw [List.pairwise_append]
  constructor
  · rintro ⟨hl,-,h⟩
    exact ⟨hl,fun a ha => h a ha g (List.mem_singleton_self g)⟩
  · rintro ⟨hl,h⟩
    refine ⟨hl,List.pairwise_singleton _ _,fun a ha b hb => ?_⟩
    obtain rfl := List.mem_singleton.mp hb
    exact h a ha

/-- An element that continues the stream of the last one need not look further
back. -/
theorem Ascending.tops {last : γ} (h : Ascending stream rank l) (hlast : l.getLast? = some last)
    (hstream : stream last = stream g) (hrank : rank last ≤ rank g) : Tops stream rank l g := by
  obtain ⟨front,rfl⟩ := List.getLast?_eq_some_iff.mp hlast
  have htops := (ascending_concat.mp h).2
  intro a ha hsame
  rcases List.mem_append.mp ha with ha | ha
  · exact (htops a ha (hsame.trans hstream.symm)).trans hrank
  · obtain rfl := List.mem_singleton.mp ha
    exact hrank

/-- What became current: the new value where it is another one. -/
def news [DecidableEq γ] (old new : Option γ) : List γ := if new = old then [] else new.toList

theorem news_self [DecidableEq γ] (value : Option γ) : news value value = [] := if_pos rfl

theorem news_of_ne [DecidableEq γ] {old : Option γ} (h : some g ≠ old) : news old (some g) = [g] :=
  if_neg h

/-! ### Streams that are merged

A run takes its elements from several streams. As far as one stream goes it does not
matter how the others are merged with it, when their steps do not touch what belongs to
it. -/

section Merged
variable {θ α ι : Type} [DecidableEq ι] {step : θ → α → θ} {allowed : θ → α → Prop}
  {source : α → ι} {i : ι} {s t : θ}

/-- Every element of the run is allowed when its turn comes. -/
def Along (step : θ → α → θ) (allowed : θ → α → Prop) (s : θ) : List α → Prop
  | [] => True
  | a :: rest => allowed s a ∧ Along step allowed (step s a) rest

theorem along_append {l m : List α} : Along step allowed s (l ++ m) ↔
    Along step allowed s l ∧ Along step allowed (l.foldl step s) m := by
  induction l generalizing s with
  | nil => exact ⟨fun h => ⟨trivial,h⟩,And.right⟩
  | cons a l ih =>
    rw [List.cons_append, Along, Along, ih, and_assoc]
    rfl

theorem Along.and_mem {P : α → Prop} {l : List α} (hl : Along step allowed s l)
    (hP : ∀ a ∈ l, P a) : Along step (fun s a => allowed s a ∧ P a) s l := by
  induction l generalizing s with
  | nil => trivial
  | cons a l ih =>
    obtain ⟨ha,hrest⟩ := List.forall_mem_cons.mp hP
    exact ⟨⟨hl.1,ha⟩,ih hl.2 hrest⟩

/-- What an allowed step keeps a run keeps. -/
theorem Along.invariant {P : θ → Prop} (hstep : ∀ s a, allowed s a → P s → P (step s a))
    {l : List α} (hl : Along step allowed s l) (hs : P s) : P (l.foldl step s) := by
  induction l generalizing s with
  | nil => exact hs
  | cons a l ih => exact ih hl.2 (hstep s a hl.1 hs)

/-- Two runs with the same elements of one stream, in the same order, end in states that
agree about it. -/
theorem Along.agrees (agrees : θ → θ → Prop)
    (hleft : ∀ s t a, source a ≠ i → allowed s a → agrees s t → agrees (step s a) t)
    (hright : ∀ s t a, source a ≠ i → allowed t a → agrees s t → agrees s (step t a))
    (hboth : ∀ s t a, source a = i → allowed s a → allowed t a → agrees s t →
      agrees (step s a) (step t a)) {l m : List α}
    (hsame : l.filter (source · = i) = m.filter (source · = i))
    (hl : Along step allowed s l) (hm : Along step allowed t m) (h : agrees s t) :
    agrees (l.foldl step s) (m.foldl step t) := by
  have hothers : ∀ {s t : θ} {m : List α}, (∀ a ∈ m, source a ≠ i) → Along step allowed t m →
      agrees s t → agrees s (m.foldl step t) := by
    intro s t m hm hrun h
    induction m generalizing t with
    | nil => exact h
    | cons a m ih =>
      obtain ⟨ha,hm⟩ := List.forall_mem_cons.mp hm
      exact ih hm hrun.2 (hright s t a ha hrun.1 h)
  induction l generalizing s t m with
  | nil =>
    refine hothers (fun a ha hai => ?_) hm h
    have hnone := List.filter_eq_nil_iff.mp hsame.symm a ha
    exact hnone (decide_eq_true hai)
  | cons a l ih =>
    by_cases ha : source a = i
    · rw [List.filter_cons_of_pos (by simpa using ha)] at hsame
      -- the other run reaches the same element after elements of other streams
      obtain ⟨before,after,rfl,hbefore,-,hafter⟩ := List.filter_eq_cons_iff.mp hsame.symm
      obtain ⟨hbeforeRun,hrest⟩ := along_append.mp hm
      have hreached := hothers (fun b hb hbi => hbefore b hb (decide_eq_true hbi)) hbeforeRun h
      rw [List.foldl_append, List.foldl_cons, List.foldl_cons]
      exact ih hafter.symm hl.2 hrest.2 (hboth _ _ a ha hl.1 hrest.1 hreached)
    · rw [List.filter_cons_of_neg (by simpa using ha)] at hsame
      exact ih hsame hl.2 hm (hleft s t a ha hl.1 h)

/-- Two elements of different streams may change places. -/
theorem filter_pair {a b : α} (h : source a ≠ source b) (i : ι) :
    [a,b].filter (source · = i) = [b,a].filter (source · = i) := by
  by_cases ha : source a = i
  · have hb : source b ≠ i := fun hb => h (ha.trans hb.symm)
    simp [ha, hb]
  · by_cases hb : source b = i <;> simp [ha, hb]

/-- A stream that belongs to one author is what that author has of it. -/
theorem filter_of_author {β : Type} [DecidableEq β] (author : β) {l : List (β × α)}
    (h : ∀ x ∈ l, source x.2 = i → x.1 = author) :
    (l.map Prod.snd).filter (source · = i) =
      ((l.filter (·.1 = author)).map Prod.snd).filter (source · = i) := by
  induction l with
  | nil => rfl
  | cons x l ih =>
    obtain ⟨hx,hrest⟩ := List.forall_mem_cons.mp h
    by_cases hi : source x.2 = i
    · simp [hx hi, hi, ih hrest]
    · by_cases hx : x.1 = author <;> simp [hx, hi, ih hrest]

/-- A stream of one block is not in the others. -/
theorem filter_flatten_of_apart {blocks : List (List α)}
    (hapart : blocks.Pairwise fun b c => ∀ x ∈ b, ∀ y ∈ c, source x ≠ source y)
    {block : List α} (hblock : block ∈ blocks) {x : α} (hx : x ∈ block) (hi : source x = i) :
    blocks.flatten.filter (source · = i) = block.filter (source · = i) := by
  have hnone : ∀ c : List α, (∀ y ∈ c, source y ≠ i) → c.filter (source · = i) = [] :=
    fun c hc => List.filter_eq_nil_iff.mpr fun y hy heq => hc y hy (of_decide_eq_true heq)
  induction blocks with
  | nil => cases hblock
  | cons first rest ih =>
    obtain ⟨hfirst,hrest⟩ := List.pairwise_cons.mp hapart
    rw [List.flatten_cons, List.filter_append]
    rcases List.mem_cons.mp hblock with rfl | hlater
    · have hothers : ∀ y ∈ rest.flatten, source y ≠ i := by
        intro y hy hyi
        obtain ⟨c,hc,hyc⟩ := List.mem_flatten.mp hy
        exact hfirst c hc x hx y hyc (hi.trans hyi.symm)
      rw [hnone _ hothers, List.append_nil]
    · rw [hnone first fun y hy hyi => hfirst block hlater y hy x hx (hyi.trans hi.symm),
        List.nil_append]
      exact ih hrest hlater

/-- Lists with the same elements of every stream differ in their order only. -/
theorem perm_of_streams [DecidableEq α] {l m : List α}
    (h : ∀ i, l.filter (source · = i) = m.filter (source · = i)) : l.Perm m := by
  refine List.perm_iff_count.mpr fun a => ?_
  have hcount : ∀ l : List α, (l.filter (source · = source a)).count a = l.count a :=
    fun l => List.count_filter (decide_eq_true rfl)
  rw [← hcount l, ← hcount m, h]

end Merged

end Streams
