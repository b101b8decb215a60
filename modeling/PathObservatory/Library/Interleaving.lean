import Mathlib.Algebra.Ring.Nat
import Mathlib.Data.List.Nodup
import Mathlib.Data.List.Perm.Basic

/-! # Interleavings of atomic steps

A system takes one enabled step after another, in any order that a guard allows. What
one step preserves holds in every state reached. Threads are kept in a row; what they
hold together is counted through the replacement of one of them.
-/
namespace PathObservatory
namespace Interleaving

section Runs
variable {σ α : Type} {step : σ → α → Option σ} {allowed : σ → α → Prop} {s t u : σ}

/-- The states that allowed steps lead to. -/
inductive Run (step : σ → α → Option σ) (allowed : σ → α → Prop) (s : σ) : σ → Prop
  | refl : Run step allowed s s
  | tail {t u : σ} {a : α} (h : Run step allowed s t) (hallowed : allowed t a)
      (hstep : step t a = some u) : Run step allowed s u

/-- Any step may be taken. -/
def anything : σ → α → Prop := fun _ _ => True

theorem Run.trans (h : Run step allowed s t) (k : Run step allowed t u) :
    Run step allowed s u := by
  induction k with
  | refl => exact h
  | tail _ hallowed hstep ih => exact ih.tail hallowed hstep

theorem Run.mono {weaker : σ → α → Prop} (hweaker : ∀ s a, allowed s a → weaker s a)
    (h : Run step allowed s t) : Run step weaker s t := by
  induction h with
  | refl => exact .refl
  | tail _ hallowed hstep ih => exact ih.tail (hweaker _ _ hallowed) hstep

/-- What the allowed steps preserve holds in every state reached. -/
theorem Run.invariant {P : σ → Prop} (hstart : P s)
    (hpreserve : ∀ t a u, allowed t a → step t a = some u → P t → P u)
    (h : Run step allowed s t) : P t := by
  induction h with
  | refl => exact hstart
  | tail _ hallowed hstep ih => exact hpreserve _ _ _ hallowed hstep ih

/-- The actions of a list, one after the other. -/
def performs (step : σ → α → Option σ) : σ → List α → Option σ
  | s, [] => some s
  | s, a :: rest => (step s a).bind fun t => performs step t rest

/-- Where every step makes a quantity smaller, it bounds the length of all runs. -/
theorem length_add_le_of_performs {P : σ → Prop} {work : σ → ℕ} {actions : List α}
    (hpreserve : ∀ s, ∀ a ∈ actions, ∀ t, step s a = some t → P s → P t ∧ work t < work s)
    (hs : P s) (h : performs step s actions = some t) : actions.length + work t ≤ work s := by
  induction actions generalizing s with
  | nil =>
    obtain rfl : s = t := Option.some.inj h
    simp
  | cons a rest ih =>
    obtain ⟨v,hstep,hrest⟩ := Option.bind_eq_some_iff.mp h
    obtain ⟨hv,hless⟩ := hpreserve s a List.mem_cons_self v hstep hs
    have hbound := ih (fun s b hb => hpreserve s b (List.mem_cons_of_mem a hb)) hv hrest
    rw [List.length_cons]
    omega

/-- A list of actions that are all enabled is a run. -/
theorem Run.of_performs {actions : List α} (hallowed : ∀ t, ∀ a ∈ actions, allowed t a)
    (h : performs step s actions = some t) : Run step allowed s t := by
  induction actions generalizing s with
  | nil =>
    obtain rfl : s = t := Option.some.inj h
    exact .refl
  | cons a rest ih =>
    obtain ⟨v,hstep,hrest⟩ := Option.bind_eq_some_iff.mp h
    have hfirst : Run step allowed s v := Run.refl.tail (hallowed s a List.mem_cons_self) hstep
    exact hfirst.trans (ih (fun w b hb => hallowed w b (List.mem_cons_of_mem a hb)) hrest)

end Runs

section Threads
variable {ω ε : Type} {threads : List ω} {i : ℕ} {before after : ω} {holds : ω → List ε}

/-- A row of threads with one of them singled out, before and after its step. -/
theorem split_thread (h : threads[i]? = some before) (after : ω) :
    ∃ left right, threads = left ++ before :: right ∧
      threads.set i after = left ++ after :: right := by
  obtain ⟨hi,rfl⟩ := List.getElem?_eq_some_iff.mp h
  refine ⟨threads.take i,threads.drop (i+1),?_,?_⟩
  · exact (List.take_append_drop i threads).symm.trans (by rw [List.drop_eq_getElem_cons hi])
  · exact List.set_eq_take_append_cons_drop.trans (if_pos hi)

/-- What the threads hold together changes by what the thread that moves holds. -/
theorem count_holds_set [DecidableEq ε] (holds : ω → List ε) (h : threads[i]? = some before)
    (after : ω) (e : ε) :
    ((threads.set i after).flatMap holds).count e + (holds before).count e =
      (threads.flatMap holds).count e + (holds after).count e := by
  obtain ⟨left,right,hbefore,hafter⟩ := split_thread h after
  rw [hafter, hbefore]
  simp only [List.flatMap_append, List.flatMap_cons, List.count_append]
  omega

theorem length_holds_set (holds : ω → List ε) (h : threads[i]? = some before) (after : ω) :
    ((threads.set i after).flatMap holds).length + (holds before).length =
      (threads.flatMap holds).length + (holds after).length := by
  obtain ⟨left,right,hbefore,hafter⟩ := split_thread h after
  rw [hafter, hbefore]
  simp only [List.flatMap_append, List.flatMap_cons, List.length_append]
  omega

theorem sum_map_set (f : ω → ℕ) (h : threads[i]? = some before) (after : ω) :
    ((threads.set i after).map f).sum + f before = (threads.map f).sum + f after := by
  obtain ⟨left,right,hbefore,hafter⟩ := split_thread h after
  rw [hafter, hbefore]
  simp only [List.map_append, List.map_cons, List.sum_append, List.sum_cons]
  omega

/-- A thread of the row after a step is the one that moved or an old one. -/
theorem mem_set_thread {w : ω} (h : w ∈ threads.set i after) : w = after ∨ w ∈ threads :=
  (List.mem_or_eq_of_mem_set h).symm

/-- What the thread that moves meets at its place, and every other at its own. -/
theorem forall_set {P : ℕ → ω → Prop} (h : ∀ j w, threads[j]? = some w → j ≠ i → P j w)
    (hafter : P i after) : ∀ j w, (threads.set i after)[j]? = some w → P j w := by
  intro j w hw
  rw [List.getElem?_set] at hw
  split_ifs at hw with hij hi
  · obtain rfl := Option.some.inj hw
    exact hij ▸ hafter
  · exact h j w hw (Ne.symm hij)

/-- A thread that holds the same after its step changes nothing of what all hold. -/
theorem holds_set_of_eq (h : threads[i]? = some before) (hsame : holds after = holds before) :
    (threads.set i after).flatMap holds = threads.flatMap holds := by
  obtain ⟨left,right,hbefore,hafter⟩ := split_thread h after
  rw [hafter, hbefore]
  simp only [List.flatMap_append, List.flatMap_cons, hsame]

theorem map_set_of_eq {β : Type} {f : ω → β} (h : threads[i]? = some before)
    (hsame : f after = f before) : (threads.set i after).map f = threads.map f := by
  obtain ⟨left,right,hbefore,hafter⟩ := split_thread h after
  rw [hafter, hbefore]
  simp only [List.map_append, List.map_cons, hsame]

/-- What a thread adds comes last when the threads behind it hold nothing. -/
theorem holds_set_append {more : List ε} (h : threads[i]? = some before)
    (hmore : holds after = holds before ++ more)
    (hbehind : ∀ j w, threads[j]? = some w → i < j → holds w = []) :
    (threads.set i after).flatMap holds = threads.flatMap holds ++ more := by
  induction threads generalizing i with
  | nil => simp at h
  | cons first rest ih =>
    cases i with
    | zero =>
      obtain rfl : first = before := by simpa using h
      have hrest : rest.flatMap holds = [] := by
        refine List.flatMap_eq_nil_iff.mpr fun w hw => ?_
        obtain ⟨j,hj⟩ := List.mem_iff_getElem?.mp hw
        exact hbehind (j + 1) w hj (Nat.succ_pos j)
      simp only [List.set_cons_zero, List.flatMap_cons, hrest, hmore, List.append_nil]
    | succ i =>
      have hrest := ih h fun j w hw hij => hbehind (j + 1) w hw (Nat.succ_lt_succ hij)
      simp only [List.set_cons_succ, List.flatMap_cons, hrest, List.append_assoc]

/-- What is held once is held in one place. -/
theorem place_unique {w v : ω} {e : ε} {j : ℕ} (h : (threads.flatMap holds).Nodup)
    (hi : threads[i]? = some w) (hj : threads[j]? = some v) (hw : e ∈ holds w)
    (hv : e ∈ holds v) : i = j := by
  have hapart := (List.nodup_flatMap.mp h).2
  have hbetween : ∀ {i j : ℕ} {w v : ω}, threads[i]? = some w → threads[j]? = some v →
      e ∈ holds w → e ∈ holds v → ¬ i < j := by
    intro i j w v hi hj hw hv hij
    obtain ⟨hiBound,rfl⟩ := List.getElem?_eq_some_iff.mp hi
    obtain ⟨hjBound,rfl⟩ := List.getElem?_eq_some_iff.mp hj
    exact List.pairwise_iff_getElem.mp hapart i j hiBound hjBound hij hw hv
  exact Nat.le_antisymm (Nat.le_of_not_lt (hbetween hj hi hv hw))
    (Nat.le_of_not_lt (hbetween hi hj hw hv))

theorem mem_holds {w : ω} {e : ε} (hthread : w ∈ threads) (he : e ∈ holds w) :
    e ∈ threads.flatMap holds :=
  List.mem_flatMap.mpr ⟨w,hthread,he⟩

end Threads

end Interleaving

end PathObservatory
