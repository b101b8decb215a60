import PathObservatory.Store.Persistence

/-! # The layout of a store file

A header slot and a record header read as they were written, and writing a slot
leaves the other slot and the records alone.
-/
namespace PathObservatory

@[simp] theorem CanonicalWriter.length_i64 (value : Int64) :
    (CanonicalWriter.i64 value).length = 8 := CanonicalWriter.length_u64 _

theorem getU16_skip {first rest : ByteString} {offset : ℕ} (h : first.length ≤ offset) :
    getU16 (first ++ rest) offset = getU16 rest (offset - first.length) := by
  simp only [getU16, List.drop_append, List.drop_eq_nil_of_le h, List.nil_append]

theorem getU32_skip {first rest : ByteString} {offset : ℕ} (h : first.length ≤ offset) :
    getU32 (first ++ rest) offset = getU32 rest (offset - first.length) := by
  simp only [getU32, List.drop_append, List.drop_eq_nil_of_le h, List.nil_append]

theorem getU64_skip {first rest : ByteString} {offset : ℕ} (h : first.length ≤ offset) :
    getU64 (first ++ rest) offset = getU64 rest (offset - first.length) := by
  simp only [getU64, List.drop_append, List.drop_eq_nil_of_le h, List.nil_append]

theorem getU16_head (value : UInt16) (rest : ByteString) :
    getU16 (CanonicalWriter.u16 value ++ rest) 0 = value := by
  have h := @LittleEndian.ofBytes_toBytes_of_lt 2 _ value.toNat_lt
  simp [getU16, CanonicalWriter.u16, h]

theorem getU32_head (value : UInt32) (rest : ByteString) :
    getU32 (CanonicalWriter.u32 value ++ rest) 0 = value := by
  have h := @LittleEndian.ofBytes_toBytes_of_lt 4 _ value.toNat_lt
  simp [getU32, CanonicalWriter.u32, h]

theorem getU64_head (value : UInt64) (rest : ByteString) :
    getU64 (CanonicalWriter.u64 value ++ rest) 0 = value := by
  have h := @LittleEndian.ofBytes_toBytes_of_lt 8 _ value.toNat_lt
  simp [getU64, CanonicalWriter.u64, h]

namespace HeaderSlot

@[simp] theorem length_covered (s : HeaderSlot) : s.covered.length = 56 := by
  simp [covered, kMagic]

@[simp] theorem length_bytes (s : HeaderSlot) : s.bytes.length = kStoreHeaderSlotBytes := by
  simp [bytes, kStoreHeaderSlotBytes]

/-- The bytes of the slot at an index. -/
def slotAt (file : ByteString) (index : ℕ) : ByteString :=
  (file.drop (index * kStoreHeaderSlotBytes)).take kStoreHeaderSlotBytes

theorem read_congr {file other : ByteString} {i j : ℕ} (h : slotAt file i = slotAt other j) :
    read file i = read other j := by
  unfold slotAt at h
  simp only [read, h]

/-- A slot reads as it was written. -/
theorem read_of_slotAt {file : ByteString} {index : ℕ} {s : HeaderSlot}
    (h : slotAt file index = s.bytes) : read file index = some s := by
  have hcovered : s.bytes.take 56 = s.covered := by
    rw [bytes, List.append_assoc, List.take_append_of_le_length (by simp),
      List.take_of_length_le (by simp)]
  have hmagic : s.bytes.take kMagic.length = kMagic := by
    simp only [bytes, covered, List.append_assoc]
    exact List.take_left
  have hcrc : getU32 s.bytes 56 = crc32c s.covered := by
    rw [bytes, List.append_assoc, getU32_skip (by simp)]
    simpa using getU32_head _ _
  have hfields : getU32 s.bytes 8 = s.formatVersion ∧
      getU32 s.bytes 12 = UInt32.ofNat kStoreHeaderSlotBytes ∧
      getU32 s.bytes 16 = kEndianMarker ∧ getU32 s.bytes 20 = s.flags ∧
      getU64 s.bytes 24 = s.created.unixNanos.toUInt64 ∧
      getU64 s.bytes 32 = s.opened.unixNanos.toUInt64 ∧
      getU32 s.bytes 40 = s.restartCount ∧ getU64 s.bytes 48 = s.generation := by
    have hlength : kMagic.length = 8 := rfl
    simp only [bytes, covered, CanonicalWriter.i64, List.append_assoc, getU32_skip, getU64_skip,
      getU32_head, getU64_head, hlength, CanonicalWriter.length_u32, CanonicalWriter.length_u64,
      Nat.reduceSub, Nat.reduceLeDiff, le_refl, Nat.sub_self, and_self]
  obtain ⟨h8,h12,h16,h20,h24,h32,h40,h48⟩ := hfields
  unfold slotAt at h
  simp only [read, h, length_bytes, hmagic, hcovered, hcrc, h8, h12, h16, h20, h24, h32, h40, h48,
    ne_eq, not_true, if_false, Int64.toInt64_toUInt64]

/-- What the reader has seen of a valid slot. -/
theorem of_read_eq_some {file : ByteString} {index : ℕ} {s : HeaderSlot}
    (h : read file index = some s) :
    getU32 (slotAt file index) 16 = kEndianMarker ∧
      getU32 (slotAt file index) 8 = s.formatVersion ∧
      getU32 (slotAt file index) 20 = s.flags := by
  unfold read at h
  simp only [ne_eq, ite_not] at h
  split_ifs at h with _ _ _ hmarker _
  exact ⟨hmarker,congrArg HeaderSlot.formatVersion (Option.some.inj h),
    congrArg HeaderSlot.flags (Option.some.inj h)⟩

theorem getU32_fields (s : HeaderSlot) :
    getU32 s.bytes 8 = s.formatVersion ∧ getU32 s.bytes 20 = s.flags := by
  have hslot : slotAt s.bytes 0 = s.bytes := by
    rw [slotAt, Nat.zero_mul, List.drop_zero, List.take_of_length_le s.length_bytes.le]
  obtain ⟨-,hversion,hflags⟩ := of_read_eq_some (read_of_slotAt hslot)
  rw [hslot] at hversion hflags
  exact ⟨hversion,hflags⟩

/-- What is left in the place of zeros by a write of a slot that got no further than
some of its bytes. -/
def torn (s : HeaderSlot) (written : ℕ) : ByteString :=
  s.bytes.take written ++ List.replicate (kStoreHeaderSlotBytes - written) 0

@[simp] theorem length_torn (s : HeaderSlot) (written : ℕ) :
    (s.torn written).length = kStoreHeaderSlotBytes := by
  rw [torn, List.length_append, List.length_take, length_bytes, List.length_replicate]
  omega

/-- A torn slot that is valid all the same has its version: the endian marker behind
the version ends with a byte that is not zero. -/
theorem version_of_torn {s t : HeaderSlot} {written : ℕ} {file : ByteString} {index : ℕ}
    (hslot : slotAt file index = s.torn written) (h : read file index = some t) :
    t.formatVersion = s.formatVersion := by
  obtain ⟨hmarker,hversion,-⟩ := of_read_eq_some h
  rw [hslot] at hmarker hversion
  have hlength : (s.bytes.take written).length = min written kStoreHeaderSlotBytes := by
    rw [List.length_take, length_bytes]
  have hwritten : 20 ≤ written := by
    by_contra hfew
    have hzero : ((s.torn written).drop 16)[3]? = some 0 := by
      rw [List.getElem?_drop, torn, List.getElem?_append_right (by rw [hlength]; omega), hlength,
        List.getElem?_replicate, if_pos]
      simp only [kStoreHeaderSlotBytes]
      omega
    have hlast : ((s.torn written).drop 16).take 4 =
        ((s.torn written).drop 16).take 3 ++ [0] := by
      rw [List.take_add_one, hzero]
      rfl
    have hsmall := LittleEndian.ofBytes_lt (((s.torn written).drop 16).take 3)
    have hthree : (((s.torn written).drop 16).take 3).length ≤ 3 := List.length_take_le _ _
    have hbound := hsmall.trans_le (Nat.pow_le_pow_right (by decide) hthree)
    rw [getU32, hlast, LittleEndian.ofBytes_concat_zero] at hmarker
    have hvalue := congrArg UInt32.toNat hmarker
    rw [UInt32.toNat_ofNat', Nat.mod_eq_of_lt (hbound.trans (by decide))] at hvalue
    rw [hvalue] at hbound
    exact absurd hbound (by decide)
  have hsame : ((s.torn written).drop 8).take 4 = (s.bytes.drop 8).take 4 := by
    have hinside : 12 ≤ (s.bytes.take written).length := by
      rw [hlength, kStoreHeaderSlotBytes]
      omega
    rw [torn, List.drop_append_of_le_length (by omega),
      List.take_append_of_le_length (by rw [List.length_drop]; omega), List.drop_take,
      List.take_take, min_eq_left (by omega)]
  rw [← hversion, ← s.getU32_fields.1, getU32, hsame, getU32]

/-- Flags that are not set are not set by a torn write over zeros. -/
theorem flags_of_torn {s t : HeaderSlot} (hflags : s.flags = 0) {written : ℕ}
    {file : ByteString} {index : ℕ} (hslot : slotAt file index = s.torn written)
    (h : read file index = some t) : t.flags = 0 := by
  obtain ⟨-,-,hread⟩ := of_read_eq_some h
  rw [hslot] at hread
  have hblank : (s.bytes.drop 20).take 4 = List.replicate 4 0 := by
    obtain ⟨rest,hsplit⟩ : ∃ rest, s.bytes = (kMagic ++ (CanonicalWriter.u32 s.formatVersion ++
        (CanonicalWriter.u32 (UInt32.ofNat kStoreHeaderSlotBytes) ++
          CanonicalWriter.u32 kEndianMarker))) ++ (CanonicalWriter.u32 s.flags ++ rest) := by
      simp only [bytes, covered, List.append_assoc]
      exact ⟨_,rfl⟩
    rw [hsplit, List.drop_left' (by simp [kMagic]), List.take_left' (CanonicalWriter.length_u32 _),
      hflags]
    rfl
  have htorn : ((s.torn written).drop 20).take 4 = List.replicate 4 0 := by
    refine List.ext_getElem ?_ ?_
    · simp [kStoreHeaderSlotBytes]
    · intro i hi hzero
      have hfew : i < 4 := by simpa using hzero
      have hbyte : ∀ hin : 20 + i < s.bytes.length, s.bytes[20 + i] = 0 := by
        intro hin
        have hlocal := congrArg (fun bytes => bytes[i]?) hblank
        simp only [List.getElem?_take, List.getElem?_drop, List.getElem?_replicate, hfew, if_true,
          List.getElem?_eq_getElem hin] at hlocal
        exact Option.some.inj hlocal
      rw [List.getElem_take, List.getElem_drop, List.getElem_replicate]
      simp only [torn, List.getElem_append, List.getElem_take, List.getElem_replicate]
      split_ifs with hin
      · exact hbyte _
      · rfl
  rw [← hread, getU32, htorn]
  rfl

/-- The file with other bytes in place of a slot. -/
def overwrite (file : ByteString) (index : ℕ) (slot : ByteString) : ByteString :=
  file.take (index * kStoreHeaderSlotBytes) ++ slot ++
    file.drop ((index + 1) * kStoreHeaderSlotBytes)

theorem length_take_slot {file : ByteString} {index : ℕ}
    (h : (index + 1) * kStoreHeaderSlotBytes ≤ file.length) :
    (file.take (index * kStoreHeaderSlotBytes)).length = index * kStoreHeaderSlotBytes := by
  rw [List.length_take]
  rw [add_mul] at h
  omega

section Overwrite
variable {file slot : ByteString} {index : ℕ}

theorem length_overwrite (h : (index + 1) * kStoreHeaderSlotBytes ≤ file.length)
    (hslot : slot.length = kStoreHeaderSlotBytes) :
    (overwrite file index slot).length = file.length := by
  simp only [overwrite, List.length_append, List.length_take, List.length_drop, hslot]
  rw [add_mul] at h ⊢
  omega

theorem slotAt_overwrite (h : (index + 1) * kStoreHeaderSlotBytes ≤ file.length)
    (hslot : slot.length = kStoreHeaderSlotBytes) :
    slotAt (overwrite file index slot) index = slot := by
  have htake := length_take_slot h
  rw [slotAt, overwrite, List.append_assoc, List.drop_append_of_le_length (by rw [htake]),
    List.drop_of_length_le (by rw [htake]), List.nil_append,
    List.take_append_of_le_length (by rw [hslot]), List.take_of_length_le (by rw [hslot])]

theorem slotAt_overwrite_ne (h : (index + 1) * kStoreHeaderSlotBytes ≤ file.length)
    (hslot : slot.length = kStoreHeaderSlotBytes) {other : ℕ} (hne : other ≠ index) :
    slotAt (overwrite file index slot) other = slotAt file other := by
  have htake := length_take_slot h
  rcases Nat.lt_or_gt_of_ne hne with hlt | hgt
  · have hbefore : (other + 1) * kStoreHeaderSlotBytes ≤ index * kStoreHeaderSlotBytes :=
      Nat.mul_le_mul_right _ hlt
    rw [add_mul, one_mul] at hbefore
    rw [slotAt, overwrite, List.append_assoc, List.drop_append_of_le_length (by omega),
      List.take_append_of_le_length (by rw [List.length_drop]; omega), List.drop_take,
      List.take_take, min_eq_left (by omega), slotAt]
  · have hafter : (index + 1) * kStoreHeaderSlotBytes ≤ other * kStoreHeaderSlotBytes :=
      Nat.mul_le_mul_right _ hgt
    have hfront : (file.take (index * kStoreHeaderSlotBytes) ++ slot).length =
        (index + 1) * kStoreHeaderSlotBytes := by
      rw [List.length_append, htake, hslot, add_mul, one_mul]
    rw [slotAt, overwrite, List.drop_append, List.drop_of_length_le (by rw [hfront]; exact hafter),
      List.nil_append, hfront, List.drop_drop, Nat.add_sub_cancel' hafter, slotAt]

/-- Bytes in place of a slot of the header leave what follows the header alone. -/
theorem overwrite_append (h : (index + 1) * kStoreHeaderSlotBytes ≤ file.length)
    (rest : ByteString) : overwrite (file ++ rest) index slot = overwrite file index slot ++ rest := by
  have hindex : index * kStoreHeaderSlotBytes ≤ file.length := by
    rw [add_mul] at h
    omega
  rw [overwrite, overwrite, List.take_append_of_le_length hindex,
    List.drop_append_of_le_length h]
  simp only [List.append_assoc]

end Overwrite

theorem length_write {s : HeaderSlot} {file : ByteString} {index : ℕ}
    (h : (index + 1) * kStoreHeaderSlotBytes ≤ file.length) :
    (s.write file index).length = file.length := length_overwrite h s.length_bytes

theorem slotAt_write {s : HeaderSlot} {file : ByteString} {index : ℕ}
    (h : (index + 1) * kStoreHeaderSlotBytes ≤ file.length) :
    slotAt (s.write file index) index = s.bytes := slotAt_overwrite h s.length_bytes

theorem slotAt_write_ne {s : HeaderSlot} {file : ByteString} {index other : ℕ}
    (h : (index + 1) * kStoreHeaderSlotBytes ≤ file.length) (hne : other ≠ index) :
    slotAt (s.write file index) other = slotAt file other :=
  slotAt_overwrite_ne h s.length_bytes hne

/-- Writing a slot of the header leaves what follows the header alone. -/
theorem write_append {s : HeaderSlot} {header : ByteString} {index : ℕ}
    (h : (index + 1) * kStoreHeaderSlotBytes ≤ header.length) (rest : ByteString) :
    s.write (header ++ rest) index = s.write header index ++ rest := overwrite_append h rest

end HeaderSlot

namespace StoredRecord

@[simp] theorem length_covered (r : StoredRecord) : r.covered.length = 20 := by
  simp [covered]

@[simp] theorem length_header (r : StoredRecord) : r.header.length = kStoreRecordHeaderBytes := by
  simp [header, kStoreRecordHeaderBytes]

theorem length_bytes (r : StoredRecord) :
    r.bytes.length = kStoreRecordHeaderBytes + r.payload.length := by
  simp [bytes]

/-- A record header reads as it was written. -/
theorem read_header (r : StoredRecord) :
    RecordHeader.read r.header =
      { payloadBytes := (UInt32.ofNat r.payload.length).toNat
        typeRaw := r.type.toUInt16
        sequence := r.sequence
        payloadCrc := crc32c r.payload
        headerCrc := crc32c r.covered
        computedCrc := crc32c r.covered } := by
  have htake : r.header.take 20 = r.covered := by
    rw [header, List.append_assoc, List.take_append_of_le_length (by simp),
      List.take_of_length_le (by simp)]
  have hcrc : getU32 r.header 20 = crc32c r.covered := by
    rw [header, List.append_assoc, getU32_skip (by simp)]
    simpa using getU32_head _ _
  simp only [RecordHeader.read, htake, hcrc]
  simp only [header, covered, List.append_assoc, getU16_skip, getU32_skip, getU64_skip,
    getU16_head, getU32_head, getU64_head, CanonicalWriter.length_u16,
    CanonicalWriter.length_u32, CanonicalWriter.length_u64, List.length_cons, List.length_nil,
    Nat.reduceAdd, Nat.reduceSub, Nat.reduceLeDiff, le_refl, Nat.sub_self]

/-- The bounds an append enforces on a record. -/
def Fits (limits : Limits) (r : StoredRecord) : Prop :=
  r.payload.length ≤ limits.maxStoreRecordBytes ∧ r.payload.length < 2 ^ 32

theorem read_front {limits : Limits} {r : StoredRecord} (h : r.Fits limits) (rest : ByteString) :
    RecordHeader.read ((r.bytes ++ rest).take kStoreRecordHeaderBytes) =
      { payloadBytes := r.payload.length
        typeRaw := r.type.toUInt16
        sequence := r.sequence
        payloadCrc := crc32c r.payload
        headerCrc := crc32c r.covered
        computedCrc := crc32c r.covered } := by
  have hlength : (UInt32.ofNat r.payload.length).toNat = r.payload.length := by
    simpa using Nat.mod_eq_of_lt h.2
  rw [bytes, List.append_assoc, List.take_append_of_le_length (by simp),
    List.take_of_length_le (by simp), read_header, hlength]

theorem drop_front (r : StoredRecord) (rest : ByteString) :
    (r.bytes ++ rest).drop kStoreRecordHeaderBytes = r.payload ++ rest := by
  rw [bytes, List.append_assoc, List.drop_append_of_le_length (by simp),
    List.drop_of_length_le (by simp), List.nil_append]

end StoredRecord

end PathObservatory
