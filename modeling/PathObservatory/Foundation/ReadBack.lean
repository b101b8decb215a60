import PathObservatory.Foundation.RoundTrip

/-! # What the reader primitives have read

The converse of the round trips: whatever a primitive returned, its input begins with what
the writer primitive of its name writes for it. Optional fields and digest identities are
the exceptions, and stand elsewhere.
-/
namespace PathObservatory
open ByteReader

namespace CanonicalReader
variable {input rest : ByteString}

theorem take_eq_ok {count : ℕ} {data : ByteString} :
    (take count).run input = .ok (data,rest) ↔ data.length = count ∧ input = data ++ rest := by
  unfold take StateT.run
  dsimp only
  split_ifs with hshort
  · constructor
    · intro h
      cases h
    · rintro ⟨rfl,rfl⟩
      rw [List.length_append] at hshort
      omega
  · constructor
    · intro h
      obtain ⟨rfl,rfl⟩ := Prod.mk.inj (Except.ok.inj h)
      exact ⟨List.length_take_of_le (not_lt.mp hshort),(List.take_append_drop _ _).symm⟩
    · rintro ⟨rfl,rfl⟩
      rw [List.take_left, List.drop_left]

/-- The input was what is written for the value, and then the rest. -/
def Wrote {α : Type} (reader : CanonicalReader α) (encode : α → ByteString) : Prop :=
  ∀ input value rest, reader.run input = .ok (value,rest) → input = encode value ++ rest

/-- A field of fixed width is the digits of its number. -/
theorem wrote_fixed {β : Type} {width : ℕ} {f : ℕ → β} {g : β → ℕ}
    (h : ∀ n < 256 ^ width, g (f n) = n) :
    Wrote (do let cursor ← take width; return f (LittleEndian.ofBytes cursor) : CanonicalReader β)
      (fun value => LittleEndian.toBytes width (g value)) := by
  intro input value rest hrun
  obtain ⟨cursor,_,htake,hrun⟩ := run_bind_eq_ok.mp hrun
  obtain ⟨rfl,rfl⟩ := run_pure_eq_ok.mp hrun
  obtain ⟨rfl,rfl⟩ := take_eq_ok.mp htake
  dsimp only
  rw [h _ (LittleEndian.ofBytes_lt cursor), LittleEndian.toBytes_ofBytes]

theorem wrote_u8 : Wrote u8 CanonicalWriter.u8 := by
  have hfixed : Wrote u8 (fun value => LittleEndian.toBytes 1 value.toNat) :=
    wrote_fixed (fun n hn => by rw [UInt8.toNat_ofNat']; omega)
  intro input value rest hrun
  rw [hfixed input value rest hrun]
  simp [LittleEndian.toBytes, CanonicalWriter.u8]

theorem wrote_u32 : Wrote u32 CanonicalWriter.u32 :=
  wrote_fixed (fun n hn => by rw [UInt32.toNat_ofNat']; omega)

theorem wrote_u64 : Wrote u64 CanonicalWriter.u64 :=
  wrote_fixed (fun n hn => by rw [UInt64.toNat_ofNat']; omega)

theorem wrote_i64 : Wrote i64 CanonicalWriter.i64 := by
  intro input value rest hrun
  obtain ⟨raw,_,hraw,hrun⟩ := run_bind_eq_ok.mp hrun
  obtain ⟨rfl,rfl⟩ := run_pure_eq_ok.mp hrun
  rw [wrote_u64 _ _ _ hraw, CanonicalWriter.i64, UInt64.toUInt64_toInt64]

theorem wrote_id {tag : IdTag} : Wrote (id tag) CanonicalWriter.id := by
  intro input value rest hrun
  obtain ⟨raw,_,hraw,hrun⟩ := run_bind_eq_ok.mp hrun
  obtain ⟨rfl,rfl⟩ := run_pure_eq_ok.mp hrun
  exact wrote_u64 _ _ _ hraw

theorem wrote_boolean : Wrote boolean CanonicalWriter.boolean := by
  intro input value rest hrun
  unfold boolean at hrun
  simp only [run_bind_eq_ok, run_lift_eq_ok, run_pure_eq_ok] at hrun
  obtain ⟨raw,_,hraw,_,_,⟨hbound,rfl⟩,rfl,rfl⟩ := hrun
  have hle : raw ≤ 1 := of_decide_eq_true (require_eq_ok.mp hbound)
  rw [wrote_u8 _ _ _ hraw, CanonicalWriter.boolean]
  have hcases : raw = 0 ∨ raw = 1 := by
    have hnat : raw.toNat ≤ 1 := UInt8.le_iff_toNat_le.mp hle
    rcases Nat.le_one_iff_eq_zero_or_eq_one.mp hnat with hzero | hone
    · exact Or.inl (UInt8.toNat_inj.mp hzero)
    · exact Or.inr (UInt8.toNat_inj.mp hone)
  rcases hcases with rfl | rfl <;> rfl

theorem text_eq_ok {maxBytes : ℕ} {value : ByteString}
    (h : (text maxBytes).run input = .ok (value,rest)) :
    value.length ≤ maxBytes ∧ value.length < 2 ^ 32 ∧
      input = CanonicalWriter.text value ++ rest := by
  unfold text at h
  simp only [run_bind_eq_ok, run_lift_eq_ok] at h
  obtain ⟨length,_,hlength,_,_,⟨hbound,rfl⟩,htake⟩ := h
  obtain ⟨hvalue,rfl⟩ := take_eq_ok.mp htake
  rw [wrote_u32 _ _ _ hlength, CanonicalWriter.text, hvalue, UInt32.ofNat_toNat, List.append_assoc]
  exact ⟨of_decide_eq_true (require_eq_ok.mp hbound),length.toNat_lt,rfl⟩

theorem bytes_eq_ok {maxBytes : ℕ} {value : ByteString}
    (h : (bytes maxBytes).run input = .ok (value,rest)) :
    value.length < 2 ^ 32 ∧ input = CanonicalWriter.bytes value ++ rest := by
  unfold bytes at h
  simp only [run_bind_eq_ok, run_lift_eq_ok] at h
  obtain ⟨length,_,hlength,_,_,⟨-,rfl⟩,htake⟩ := h
  obtain ⟨hvalue,rfl⟩ := take_eq_ok.mp htake
  rw [wrote_u32 _ _ _ hlength, CanonicalWriter.bytes, hvalue, UInt32.ofNat_toNat, List.append_assoc]
  exact ⟨length.toNat_lt,rfl⟩

theorem count_eq_ok {maxCount value : ℕ} (h : (count maxCount).run input = .ok (value,rest)) :
    value ≤ maxCount ∧ value < 2 ^ 32 ∧ input = CanonicalWriter.count value ++ rest := by
  unfold count at h
  simp only [run_bind_eq_ok, run_lift_eq_ok, run_pure_eq_ok] at h
  obtain ⟨raw,_,hraw,_,_,⟨hbound,rfl⟩,rfl,rfl⟩ := h
  rw [wrote_u32 _ _ _ hraw, CanonicalWriter.count, UInt32.ofNat_toNat]
  exact ⟨of_decide_eq_true (require_eq_ok.mp hbound),raw.toNat_lt,rfl⟩

theorem wrote_digest : Wrote digest CanonicalWriter.digest := by
  intro input value rest hrun
  obtain ⟨cursor,_,htake,hrun⟩ := run_bind_eq_ok.mp hrun
  obtain ⟨rfl,rfl⟩ := run_pure_eq_ok.mp hrun
  obtain ⟨hlength,rfl⟩ := take_eq_ok.mp htake
  show cursor ++ _ = (cursor ++ List.replicate kDigestBytes 0).take kDigestBytes ++ _
  rw [List.take_left' hlength]

theorem expectEnd_eq_ok : expectEnd.run input = .ok ((),rest) ↔ input = [] ∧ rest = [] := by
  unfold expectEnd StateT.run
  dsimp only
  split_ifs with hend
  · constructor
    · intro h
      obtain ⟨-,rfl⟩ := Prod.mk.inj (Except.ok.inj h)
      exact ⟨hend,hend⟩
    · rintro ⟨rfl,rfl⟩
      rfl
  · exact ⟨nofun,fun h => absurd h.1 hend⟩

end CanonicalReader

end PathObservatory
