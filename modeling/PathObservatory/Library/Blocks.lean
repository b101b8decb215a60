import Mathlib.Data.List.Basic
import Mathlib.Data.Nat.ModEq

/-! # Folding a stream block by block

A stream is cut into blocks of one size and every whole block is folded into a state;
what is left over is shorter than a block. Where the stream comes in pieces, the state
and the rest after a piece are those of the whole stream so far.
-/
namespace Blocks

variable {σ α : Type*} (step : σ → List α → σ) (size : ℕ)

/-- Fold the first blocks of a list. -/
def feed : ℕ → σ → List α → σ
  | 0, state, _ => state
  | count + 1, state, data => feed count (step state (data.take size)) (data.drop size)

/-- Fold every whole block. -/
def absorb (state : σ) (data : List α) : σ := feed step size (data.length / size) state data

/-- What does not fill a block. -/
def rest (data : List α) : List α := data.drop (size * (data.length / size))

variable {step size} {state : σ} {data more : List α}

theorem feed_add (first second : ℕ) (state : σ) (data : List α) :
    feed step size (first + second) state data =
      feed step size second (feed step size first state data) (data.drop (size * first)) := by
  induction first generalizing state data with
  | zero => simp [feed]
  | succ first ih =>
    have hdrop : (data.drop size).drop (size * first) = data.drop (size * (first + 1)) := by
      rw [List.drop_drop, Nat.mul_succ, Nat.add_comm]
    rw [Nat.succ_add, feed, ih, feed, hdrop]

/-- Blocks that are whole are not changed by what comes after. -/
theorem feed_append {count : ℕ} (h : size * count ≤ data.length) (state : σ) (more : List α) :
    feed step size count state (data ++ more) = feed step size count state data := by
  induction count generalizing state data with
  | zero => rfl
  | succ count ih =>
    rw [Nat.mul_succ] at h
    have hfirst : size ≤ data.length := by omega
    have hothers : size * count ≤ (data.drop size).length := by
      rw [List.length_drop]
      omega
    rw [feed, feed, List.take_append_of_le_length hfirst, List.drop_append_of_le_length hfirst,
      ih hothers]

theorem length_rest (data : List α) : (rest size data).length = data.length % size := by
  rw [rest, List.length_drop, Nat.mod_eq_sub_mul_div]

theorem length_rest_lt (hsize : 0 < size) (data : List α) : (rest size data).length < size := by
  rw [length_rest]
  exact Nat.mod_lt _ hsize

theorem whole_le (size : ℕ) (data : List α) : size * (data.length / size) ≤ data.length :=
  Nat.mul_div_le _ _

theorem drop_whole_append (data more : List α) :
    (data ++ more).drop (size * (data.length / size)) = rest size data ++ more :=
  List.drop_append_of_le_length (whole_le size data)

/-- Blocks of a stream that goes on: the whole ones so far, then those of the rest with
what follows. -/
theorem div_length_append (hsize : 0 < size) (data more : List α) :
    (data ++ more).length / size =
      data.length / size + (rest size data ++ more).length / size := by
  have hsplit := Nat.mod_add_div data.length size
  have hlength : (data ++ more).length =
      (rest size data ++ more).length + size * (data.length / size) := by
    rw [List.length_append, List.length_append, length_rest]
    omega
  rw [hlength, Nat.add_mul_div_left _ _ hsize, Nat.add_comm]

theorem absorb_append (hsize : 0 < size) (state : σ) (data more : List α) :
    absorb step size state (data ++ more) =
      absorb step size (absorb step size state data) (rest size data ++ more) := by
  rw [absorb, div_length_append hsize, feed_add, feed_append (whole_le size data),
    drop_whole_append]
  rfl

theorem rest_append (hsize : 0 < size) (data more : List α) :
    rest size (data ++ more) = rest size (rest size data ++ more) := by
  rw [rest, div_length_append hsize, Nat.mul_add, ← List.drop_drop, drop_whole_append]
  rfl

/-- A list shorter than a block is left over. -/
theorem absorb_of_lt (h : data.length < size) : absorb step size state data = state := by
  rw [absorb, Nat.div_eq_of_lt h]
  rfl

theorem rest_of_lt (h : data.length < size) : rest size data = data := by
  rw [rest, Nat.div_eq_of_lt h]
  rfl

/-- A single block is folded and leaves nothing. -/
theorem absorb_of_length (hsize : 0 < size) (h : data.length = size) :
    absorb step size state data = step state data := by
  rw [absorb, h, Nat.div_self hsize, feed, feed, ← h, List.take_length]

theorem rest_of_length (hsize : 0 < size) (h : data.length = size) : rest size data = [] := by
  rw [rest, h, Nat.div_self hsize, Nat.mul_one, ← h, List.drop_length]

/-- Folds whose steps agree along a relation agree along it. -/
theorem absorb_rel {τ : Type*} {other : τ → List α → τ} {R : σ → τ → Prop}
    (hstep : ∀ s t block, block.length = size → R s t → R (step s block) (other t block))
    {s : σ} {t : τ} (h : R s t) (data : List α) :
    R (absorb step size s data) (absorb other size t data) := by
  have hfeed : ∀ (count : ℕ) (s : σ) (t : τ) (data : List α), size * count ≤ data.length →
      R s t → R (feed step size count s data) (feed other size count t data) := by
    intro count
    induction count with
    | zero => exact fun _ _ _ _ h => h
    | succ count ih =>
      intro s t data hcount h
      rw [Nat.mul_succ] at hcount
      refine ih _ _ _ ?_ (hstep s t _ ?_ h)
      · rw [List.length_drop]
        omega
      · rw [List.length_take]
        omega
  exact hfeed _ s t data (whole_le size data) h

end Blocks
