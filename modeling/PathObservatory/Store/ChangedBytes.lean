import PathObservatory.Foundation.Checksums
import PathObservatory.Store.AnyFile

/-! # A changed byte ends the scan

The header checksum covers the first 20 bytes of a record header and stands in the next
four; the payload checksum is one of the covered bytes. So a change of one of these
bytes, or of one byte of the payload, makes the record invalid, and a scan that comes to
it ends there. The last eight bytes of the header are not looked at.
-/
namespace PathObservatory

/-- The byte at a place is another one afterwards. -/
theorem crc32c_set_ne {data : ByteString} {i : ℕ} {value : UInt8} (hi : i < data.length)
    (h : data[i]? ≠ some value) : crc32c (data.set i value) ≠ crc32c data := by
  have hne : value ≠ data[i] := by
    rintro rfl
    exact h (List.getElem?_eq_getElem hi)
  have hsplit : data = data.take i ++ data[i] :: data.drop (i + 1) := by
    rw [List.getElem_cons_drop, List.take_append_drop]
  rw [List.set_eq_take_append_cons_drop, if_pos hi]
  conv_rhs => rw [hsplit]
  exact crc32c_ne hne _ _

/-- Strings of one length that differ in a single place. -/
theorem crc32c_ne_of_unique {a b : ByteString} (hlength : a.length = b.length)
    (h : ∃! i : ℕ, a[i]? ≠ b[i]?) : crc32c a ≠ crc32c b := by
  obtain ⟨i,hi,hunique⟩ := h
  have hlt : i < b.length := by
    by_contra hge
    refine hi ?_
    rw [List.getElem?_eq_none (by omega), List.getElem?_eq_none (by omega)]
  have hset : b = a.set i b[i] := by
    refine List.ext_getElem? fun j => ?_
    rw [List.getElem?_set]
    split_ifs with hij hjlt
    · rw [← hij, List.getElem?_eq_getElem hlt]
    · omega
    · by_contra hj
      exact hij (hunique j (Ne.symm hj)).symm
  rw [hset]
  refine (crc32c_set_ne (hlength.symm ▸ hlt) ?_).symm
  rwa [← List.getElem?_eq_getElem hlt]

namespace PersistentStore
open StoredRecord
variable {limits : Limits}

/-- A field of four bytes tells its bytes apart. -/
theorem take_eq_of_getU32 {a b : ByteString} {offset : ℕ}
    (ha : ((a.drop offset).take 4).length = 4) (hb : ((b.drop offset).take 4).length = 4)
    (h : getU32 a offset = getU32 b offset) :
    (a.drop offset).take 4 = (b.drop offset).take 4 := by
  have hbounda := LittleEndian.ofBytes_lt ((a.drop offset).take 4)
  have hboundb := LittleEndian.ofBytes_lt ((b.drop offset).take 4)
  have hsize : 256 ^ 4 = 2 ^ 32 := rfl
  rw [ha, hsize] at hbounda
  rw [hb, hsize] at hboundb
  have hvalue := congrArg UInt32.toNat h
  rw [getU32, getU32, UInt32.toNat_ofNat', UInt32.toNat_ofNat', Nat.mod_eq_of_lt hbounda,
    Nat.mod_eq_of_lt hboundb] at hvalue
  rw [← LittleEndian.toBytes_ofBytes ((a.drop offset).take 4), hvalue, ha.trans hb.symm]
  exact LittleEndian.toBytes_ofBytes _

/-- A change of one of the first 24 bytes of a valid header shows: the checksum is over the first
20 of them, and is the other four. -/
theorem invalid_of_header {header payload : ByteString}
    (hheader : header.length = kStoreRecordHeaderBytes)
    (hvalid : recordIsValid limits (RecordHeader.read header) payload = true) {i : ℕ}
    {value : UInt8} (hi : i < 24) (hvalue : header[i]? ≠ some value) (rest : ByteString) :
    recordIsValid limits (RecordHeader.read (header.set i value)) rest = false := by
  have hlength : header.length = 32 := hheader
  have hcrc : getU32 header 20 = crc32c (header.take 20) := by
    simp only [recordIsValid, Bool.and_eq_true, decide_eq_true_eq] at hvalid
    exact hvalid.1.1.1.1
  have hbroken : getU32 (header.set i value) 20 ≠ crc32c ((header.set i value).take 20) := by
    rcases Nat.lt_or_ge i 20 with hcovered | hstored
    · have hsame : getU32 (header.set i value) 20 = getU32 header 20 := by
        rw [getU32, List.drop_set_of_lt hcovered]
        rfl
      rw [hsame, hcrc, List.take_set]
      refine (crc32c_set_ne ?_ ?_).symm
      · rw [List.length_take]
        omega
      · rwa [List.getElem?_take_of_lt hcovered]
    · rw [List.take_set_of_le hstored, ← hcrc]
      intro hsame
      have hbytes := take_eq_of_getU32 (by simp [hlength]) (by simp [hlength]) hsame
      have hbyte := congrArg (fun bytes : ByteString => bytes[i - 20]?) hbytes
      simp only [List.getElem?_take_of_lt (by omega : i - 20 < 4), List.getElem?_drop,
        Nat.add_sub_cancel' hstored] at hbyte
      rw [List.getElem?_set_self (by omega)] at hbyte
      exact hvalue hbyte.symm
  unfold recordIsValid RecordHeader.read
  simp only [hbroken, decide_false, Bool.false_and]

theorem invalid_of_payload {header payload : ByteString}
    (hlength : (RecordHeader.read header).payloadBytes = payload.length)
    (hvalid : recordIsValid limits (RecordHeader.read header) payload = true) {i : ℕ}
    {value : UInt8} (hi : i < payload.length) (hvalue : payload[i]? ≠ some value)
    (rest : ByteString) :
    recordIsValid limits (RecordHeader.read header) (payload.set i value ++ rest) = false := by
  have hcrc : crc32c payload = (RecordHeader.read header).payloadCrc := by
    simp only [recordIsValid, Bool.and_eq_true, decide_eq_true_eq] at hvalid
    rw [hlength, List.take_of_length_le le_rfl] at hvalid
    exact hvalid.2
  have hbroken : crc32c (payload.set i value) ≠ (RecordHeader.read header).payloadCrc :=
    hcrc ▸ crc32c_set_ne hi hvalue
  rw [recordIsValid_append (by rw [hlength, List.length_set])]
  unfold recordIsValid
  rw [hlength, List.take_of_length_le (by rw [List.length_set])]
  simp [hbroken]

/-- A record that is not valid ends the scan. -/
theorem scanFrom_invalid {data : ByteString} (hlong : kStoreRecordHeaderBytes ≤ data.length)
    (hinvalid : recordIsValid limits (RecordHeader.read (data.take kStoreRecordHeaderBytes))
      (data.drop kStoreRecordHeaderBytes) = false) {rounds : ℕ} (hrounds : data.length ≤ rounds)
    (truncate : Bool) (valid offset : ℕ) :
    scanFrom limits truncate rounds data valid offset =
      endScan truncate valid offset "record failed its integrity check"
        { code := .corruptStore, message := "store contains an invalid record",
          detail := "offset " ++ toString offset } := by
  have hpositive : 0 < kStoreRecordHeaderBytes := by decide
  have hnonempty : data ≠ [] := List.length_pos_iff.mp (hpositive.trans_le hlong)
  obtain ⟨rounds,rfl⟩ : ∃ n, rounds = n + 1 := ⟨rounds - 1,by omega⟩
  rw [scanFrom, if_neg hnonempty, if_neg (not_lt.mpr hlong)]
  simp only [hinvalid]
  rfl

/-- These bytes are a valid record of the file, at this offset and behind so many others. -/
def StandsAt (limits : Limits) (file : ByteString) (index offset : ℕ) (block : ByteString) :
    Prop :=
  ∃ before records record after, file.drop kStoreHeaderBytes = before ++ (block ++ after) ∧
    WholeRecords limits before records ∧ WholeRecords limits block [record] ∧
    records.length = index ∧ offset = kStoreHeaderBytes + before.length

/-- Whole records fall into those before one of them, this one, and the rest. -/
theorem WholeRecords.split {data : ByteString} {records : List StoredRecord}
    (h : WholeRecords limits data records) {index : ℕ} (hindex : index < records.length) :
    ∃ before earlier block record after, data = before ++ (block ++ after) ∧
      WholeRecords limits before earlier ∧ earlier.length = index ∧
      WholeRecords limits block [record] := by
  induction h generalizing index with
  | nil => cases hindex
  | @cons header payload rest type records hheader hlength hvalid htype hrest ih =>
    cases index with
    | zero =>
      refine ⟨[],[],header ++ (payload ++ []),_,rest,?_,.nil,rfl,
        .cons hheader hlength hvalid htype .nil⟩
      simp only [List.nil_append, List.append_nil, List.append_assoc]
    | succ index =>
      obtain ⟨before,earlier,block,record,after,rfl,hbefore,hearlier,hblock⟩ :=
        ih (Nat.lt_of_succ_lt_succ hindex)
      refine ⟨_,_,block,record,after,?_,.cons hheader hlength hvalid htype hbefore,
        congrArg Nat.succ hearlier,hblock⟩
      simp only [List.append_assoc]

/-- A place in the record that is looked at. -/
def Checked (block : ByteString) (i : ℕ) : Prop :=
  i < 24 ∨ kStoreRecordHeaderBytes ≤ i ∧ i < block.length

/-- The record with a byte changed is not valid, whatever follows it. -/
theorem invalid_of_changed {block : ByteString} {record : StoredRecord}
    (h : WholeRecords limits block [record]) {i : ℕ} {value : UInt8}
    (hi : Checked block i) (hvalue : block[i]? ≠ some value) (after : ByteString) :
    kStoreRecordHeaderBytes ≤ (block.set i value ++ after).length ∧
      recordIsValid limits
        (RecordHeader.read ((block.set i value ++ after).take kStoreRecordHeaderBytes))
        ((block.set i value ++ after).drop kStoreRecordHeaderBytes) = false := by
  cases h with
  | @cons header payload rest type _ hheader hlength hvalid htype hrest =>
    cases hrest
    rw [List.append_nil] at hi hvalue ⊢
    rcases hi with hi | ⟨hi,hlt⟩
    · have hin : i < header.length := by
        rw [hheader]
        exact hi.trans (by decide)
      have hset : (header.set i value).length = kStoreRecordHeaderBytes := by
        rw [List.length_set, hheader]
      rw [List.getElem?_append_left hin] at hvalue
      obtain ⟨-,hlong,htake,hdrop⟩ := front_cases payload hset after
      rw [List.set_append_left _ _ hin, List.append_assoc, htake]
      exact ⟨hlong,invalid_of_header hheader hvalid hi hvalue _⟩
    · have hin : i - header.length < payload.length := by
        rw [List.length_append] at hlt
        omega
      have hbehind : header.length ≤ i := hheader.trans_le hi
      rw [List.getElem?_append_right hbehind] at hvalue
      obtain ⟨-,hlong,htake,hdrop⟩ := front_cases (payload.set (i - header.length) value) hheader
        after
      rw [List.set_append_right _ _ hbehind, List.append_assoc, htake, hdrop]
      exact ⟨hlong,invalid_of_payload hlength hvalid hin hvalue after⟩

/-- The change is made to the record alone. -/
theorem drop_changed {file before block after : ByteString}
    (hfile : file.drop kStoreHeaderBytes = before ++ (block ++ after)) {i : ℕ} (value : UInt8)
    (hi : i < block.length) :
    (file.set (kStoreHeaderBytes + before.length + i) value).drop kStoreHeaderBytes =
      before ++ (block.set i value ++ after) := by
  have hplace : kStoreHeaderBytes + before.length + i - kStoreHeaderBytes =
      before.length + i := by omega
  rw [List.drop_set, if_neg (by omega), hfile, hplace,
    List.set_append_right _ _ (Nat.le_add_right _ _), Nat.add_sub_cancel_left,
    List.set_append_left _ _ hi]

theorem StandsAt.lt_length {file block : ByteString} {index offset i : ℕ}
    (h : StandsAt limits file index offset block) (hi : Checked block i) : i < block.length := by
  obtain ⟨_,_,_,_,-,-,hblock,-,-⟩ := h
  have hheader : kStoreRecordHeaderBytes ≤ block.length := by
    cases hblock with
    | cons hheader => simp [hheader]
  rcases hi with hi | ⟨-,hi⟩
  · exact (hi.trans (by decide)).trans_le hheader
  · exact hi

/-- The records before the changed one are passed over, and the scan ends. -/
theorem scan_changed {file block : ByteString} {index offset : ℕ}
    (h : StandsAt limits file index offset block) (hcount : index ≤ limits.maxStoreRecords)
    {i : ℕ} {value : UInt8} (hi : Checked block i) (hvalue : block[i]? ≠ some value)
    (truncate : Bool) :
    scan limits truncate (file.set (offset + i) value) =
      endScan truncate index offset "record failed its integrity check"
        { code := .corruptStore, message := "store contains an invalid record",
          detail := "offset " ++ toString offset } := by
  have hlt := h.lt_length hi
  obtain ⟨before,records,record,after,hfile,hbefore,hblock,rfl,rfl⟩ := h
  obtain ⟨hlong,hinvalid⟩ := invalid_of_changed hblock hi hvalue after
  have hchanged := drop_changed hfile value hlt
  obtain ⟨left,hleft,hscan⟩ := scanFrom_whole hbefore truncate (block.set i value ++ after)
    kStoreHeaderBytes le_rfl ((Nat.zero_add _).trans_le hcount)
  unfold scan
  rw [hchanged, hscan, scanFrom_invalid hlong hinvalid hleft, Nat.zero_add]

/-- Behind too many records nothing is looked at: the file is refused as it is, and with the
change. -/
theorem scan_overfull {file block : ByteString} {index offset : ℕ}
    (h : StandsAt limits file index offset block) (hcount : limits.maxStoreRecords < index)
    {i : ℕ} (hi : Checked block i) (value : UInt8) (truncate : Bool) :
    (∃ e, scan limits truncate file = .error e) ∧
      ∃ e, scan limits truncate (file.set (offset + i) value) = .error e := by
  have hlt := h.lt_length hi
  obtain ⟨before,records,record,after,hfile,hbefore,-,rfl,rfl⟩ := h
  have hchanged := drop_changed hfile value hlt
  exact ⟨scan_fails_of_overfull ⟨before,_,records,hfile,hbefore,hcount⟩ truncate,
    scan_fails_of_overfull ⟨before,_,records,hchanged,hbefore,hcount⟩ truncate⟩

/-- The checksum is the bitwise cyclic redundancy check and tells apart strings that differ in
one byte. So a record of which one of the first 24 bytes, or a byte of the payload, was changed
ends the scan with the records before it, or fails it where the file may not be cut; only a
file with more records than the bound is refused before that. -/
theorem single_changes_detected :
    (∀ data, (crc32c data).toBitVec = ReflectedCrc.crc 0x82f63b78#32 data) ∧
    (∀ a b : ByteString, a.length = b.length → (∃! i : ℕ, a[i]? ≠ b[i]?) →
      crc32c a ≠ crc32c b) ∧
    ∀ (limits : Limits) (file block : ByteString) (index offset : ℕ),
      StandsAt limits file index offset block →
        ∀ (i : ℕ) (value : UInt8), Checked block i → block[i]? ≠ some value →
          (index ≤ limits.maxStoreRecords →
            scan limits true (file.set (offset + i) value) =
              .ok { valid := index, tail := some (offset,"record failed its integrity check") } ∧
            scan limits false (file.set (offset + i) value) =
              .error { code := .corruptStore, message := "store contains an invalid record",
                       detail := "offset " ++ toString offset }) ∧
          (limits.maxStoreRecords < index → ∀ truncate,
            (∃ e, scan limits truncate file = .error e) ∧
              ∃ e, scan limits truncate (file.set (offset + i) value) = .error e) := by
  refine ⟨crc32c_eq_crc,fun _ _ hlength h => crc32c_ne_of_unique hlength h,?_⟩
  intro limits file block index offset h i value hi hvalue
  refine ⟨fun hcount => ?_,fun hcount truncate => scan_overfull h hcount hi value truncate⟩
  exact ⟨scan_changed h hcount hi hvalue true,scan_changed h hcount hi hvalue false⟩

def firstMarker : StoredRecord := { type := .marker, sequence := 1, payload := [1,2,3] }

def secondMarker : StoredRecord := { type := .marker, sequence := 2, payload := [4,5,6] }

/-- A new store with two records. -/
def twoMarkers : ByteString :=
  (createHeader ⟨1⟩).file ++ (firstMarker.bytes ++ (secondMarker.bytes ++ []))

/-- A byte of the second payload is changed; the first record stays. -/
theorem changed_payload_detected :
    StandsAt {} twoMarkers 1 163 secondMarker.bytes ∧
      scan {} true (twoMarkers.set (163 + 33) 9) =
        .ok { valid := 1, tail := some (163,"record failed its integrity check") } := by
  have hstands : StandsAt {} twoMarkers 1 163 secondMarker.bytes := by
    refine ⟨firstMarker.bytes,[firstMarker],secondMarker,[],?_,?_,?_,rfl,?_⟩
    · exact List.drop_left' (by decide +kernel)
    · exact wholeRecords_bytes ⟨by decide,by decide⟩
    · exact wholeRecords_bytes ⟨by decide,by decide⟩
    · rw [StoredRecord.length_bytes]
      rfl
  obtain ⟨-,-,hdetected⟩ := single_changes_detected
  have hplace : Checked secondMarker.bytes 33 := by
    refine Or.inr ⟨by decide,?_⟩
    rw [StoredRecord.length_bytes]
    decide
  obtain ⟨hcut,-⟩ := (hdetected {} twoMarkers secondMarker.bytes 1 163 hstands 33 9 hplace
    (by decide +kernel)).1 (by decide)
  exact ⟨hstands,hcut⟩

end PersistentStore

end PathObservatory
