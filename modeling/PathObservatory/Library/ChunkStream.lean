import Mathlib.Data.Nat.Notation
import Mathlib.Data.List.Basic
import Mathlib.Algebra.Order.Group.Nat

/-! # Reliable byte streams that arrive in chunks

A stream is what is still to come, cut into the non-empty chunks in which it will
arrive. One delivery hands out bytes of the first chunk only; what is delivered and
what is left make up the stream, wherever it was cut. A stream that is cut off keeps
a prefix of its bytes. -/

/-- The bytes still to come, in the chunks in which they arrive. -/
structure ChunkStream where
  chunks : List (List UInt8) := []
  nonempty : [] ∉ chunks := by simp

namespace ChunkStream

def bytes (s : ChunkStream) : List UInt8 := s.chunks.flatten

/-- Hand out at most `count` bytes of the first chunk; the rest of it stays. -/
def deliver (count : ℕ) (s : ChunkStream) : List UInt8 × ChunkStream :=
  match s with
  | ⟨[],_⟩ => ([],s)
  | ⟨chunk :: rest,h⟩ =>
    if hcut : count < chunk.length then
      (chunk.take count,⟨chunk.drop count :: rest,by
        simp only [List.mem_cons, not_or] at h ⊢
        exact ⟨fun hnil => absurd (List.drop_eq_nil_iff.mp hnil.symm) (not_le.mpr hcut),h.2⟩⟩)
    else (chunk,⟨rest,fun hmem => h (List.mem_cons_of_mem _ hmem)⟩)

/-- The chunks of the first `count` bytes. -/
def keep : ℕ → List (List UInt8) → List (List UInt8)
  | _,[] => []
  | count,chunk :: rest =>
    if count = 0 then [] else chunk.take count :: keep (count - chunk.length) rest

theorem flatten_keep (count : ℕ) (chunks : List (List UInt8)) :
    (keep count chunks).flatten = chunks.flatten.take count := by
  induction chunks generalizing count with
  | nil => simp [keep]
  | cons chunk rest ih =>
    rw [keep, List.flatten_cons, List.take_append]
    split_ifs with hzero
    · simp [hzero]
    · rw [List.flatten_cons, ih]

theorem nil_not_mem_keep {count : ℕ} {chunks : List (List UInt8)} (h : [] ∉ chunks) :
    [] ∉ keep count chunks := by
  induction chunks generalizing count with
  | nil => exact h
  | cons chunk rest ih =>
    simp only [List.mem_cons, not_or] at h
    rw [keep]
    split_ifs with hzero
    · exact List.not_mem_nil
    · simp only [List.mem_cons, not_or]
      refine ⟨fun hnil => ?_,ih h.2⟩
      rcases List.take_eq_nil_iff.mp hnil.symm with hcount | hchunk
      · exact hzero hcount
      · exact h.1 hchunk.symm

/-- Cut the stream off behind its first `count` bytes. -/
def truncate (count : ℕ) (s : ChunkStream) : ChunkStream :=
  ⟨keep count s.chunks,nil_not_mem_keep s.nonempty⟩

theorem bytes_truncate (count : ℕ) (s : ChunkStream) :
    (s.truncate count).bytes = s.bytes.take count := flatten_keep count s.chunks

/-- Nothing is lost and nothing is reordered. -/
theorem deliver_append (count : ℕ) (s : ChunkStream) :
    (s.deliver count).1 ++ (s.deliver count).2.bytes = s.bytes := by
  obtain ⟨chunks,h⟩ := s
  cases chunks with
  | nil => rfl
  | cons chunk rest =>
    simp only [deliver, bytes]
    split_ifs
    · simp only [List.flatten_cons, ← List.append_assoc, List.take_append_drop]
    · rfl

theorem length_deliver_le (count : ℕ) (s : ChunkStream) : (s.deliver count).1.length ≤ count := by
  obtain ⟨chunks,h⟩ := s
  cases chunks with
  | nil => exact Nat.zero_le count
  | cons chunk rest =>
    simp only [deliver]
    split_ifs with hcut
    · exact List.length_take_le count chunk
    · exact not_lt.mp hcut

/-- A delivery comes back empty at the end of the stream only. -/
theorem deliver_eq_nil_iff {count : ℕ} (hcount : 0 < count) (s : ChunkStream) :
    (s.deliver count).1 = [] ↔ s.bytes = [] := by
  obtain ⟨chunks,h⟩ := s
  cases chunks with
  | nil => exact ⟨fun _ => rfl,fun _ => rfl⟩
  | cons chunk rest =>
    have hchunk : chunk ≠ [] := fun hnil => h (hnil ▸ List.mem_cons_self)
    simp only [deliver, bytes, List.flatten_cons, List.append_eq_nil_iff]
    split_ifs
    · simp [hchunk, hcount.ne']
    · simp [hchunk]

end ChunkStream
