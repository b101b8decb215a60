import PathObservatory.Store.Layout

/-! # Whole records before a stub

The bytes behind a store header are whole valid records up to a stub: too short for
a header, or a header whose record does not validate. A scan that may cut the file
finds exactly this decomposition, whatever the bytes are, and an open keeps the
whole records.
-/
namespace PathObservatory
namespace PersistentStore
open StoredRecord
variable {limits : Limits}

/-- Bytes that are whole valid records, and what they are read as. -/
inductive WholeRecords (limits : Limits) : ByteString → List StoredRecord → Prop
  | nil : WholeRecords limits [] []
  | cons {header payload rest : ByteString} {type : RecordType} {records : List StoredRecord}
      (hheader : header.length = kStoreRecordHeaderBytes)
      (hlength : (RecordHeader.read header).payloadBytes = payload.length)
      (hvalid : recordIsValid limits (RecordHeader.read header) payload = true)
      (htype : RecordType.parse (RecordHeader.read header).typeRaw = .ok type)
      (hrest : WholeRecords limits rest records) :
      WholeRecords limits (header ++ (payload ++ rest))
        ({ type := type, sequence := (RecordHeader.read header).sequence, payload := payload } ::
          records)

/-- Bytes that do not begin with a valid record. -/
def Stub (limits : Limits) (data : ByteString) : Prop :=
  data.length < kStoreRecordHeaderBytes ∨
    recordIsValid limits (RecordHeader.read (data.take kStoreRecordHeaderBytes))
      (data.drop kStoreRecordHeaderBytes) = false

theorem stub_nil (limits : Limits) : Stub limits [] := Or.inl (by decide)

theorem WholeRecords.append {first second : ByteString} {records more : List StoredRecord}
    (h : WholeRecords limits first records) (k : WholeRecords limits second more) :
    WholeRecords limits (first ++ second) (records ++ more) := by
  induction h with
  | nil => exact k
  | cons hheader hlength hvalid htype _ ih =>
    rw [List.append_assoc, List.append_assoc, List.cons_append]
    exact .cons hheader hlength hvalid htype ih

/-- What an append writes is a whole record. -/
theorem wholeRecords_bytes {r : StoredRecord} (h : r.Fits limits) :
    WholeRecords limits r.bytes [r] := by
  have hread : RecordHeader.read r.header =
      { payloadBytes := r.payload.length, typeRaw := r.type.toUInt16, sequence := r.sequence,
        payloadCrc := crc32c r.payload, headerCrc := crc32c r.covered,
        computedCrc := crc32c r.covered } := by
    have hfront := read_front h []
    rwa [List.append_nil, bytes, List.take_append_of_le_length (by simp),
      List.take_of_length_le (by simp)] at hfront
  have hvalid : recordIsValid limits (RecordHeader.read r.header) r.payload = true := by
    rw [hread]
    simp [recordIsValid, RecordType.parse_toUInt16, h.1, Except.toBool]
  have htype : RecordType.parse (RecordHeader.read r.header).typeRaw = .ok r.type := by
    rw [hread]
    exact RecordType.parse_toUInt16 r.type
  have hwhole := WholeRecords.cons (length_header r) (by rw [hread]) hvalid htype .nil
  rw [List.append_nil, hread] at hwhole
  exact hwhole

theorem wholeRecords_flatMap {records : List StoredRecord}
    (h : ∀ r ∈ records, r.Fits limits) :
    WholeRecords limits (records.flatMap StoredRecord.bytes) records := by
  induction records with
  | nil => exact .nil
  | cons r records ih =>
    rw [List.flatMap_cons]
    exact (wholeRecords_bytes (h r List.mem_cons_self)).append
      (ih (fun s hs => h s (List.mem_cons_of_mem r hs)))

/-- Validity of a record is decided by its own bytes. -/
theorem recordIsValid_append {header : RecordHeader} {payload : ByteString}
    (hlength : header.payloadBytes = payload.length) (rest : ByteString) :
    recordIsValid limits header (payload ++ rest) = recordIsValid limits header payload := by
  unfold recordIsValid
  rw [hlength, List.take_left, List.take_of_length_le le_rfl]
  simp

/-- A record that is cut short is a stub: its header announces more bytes than
there are. -/
theorem stub_torn {r : StoredRecord} (h : r.Fits limits) {written : ℕ}
    (hwritten : written < r.bytes.length) : Stub limits (r.bytes.take written) := by
  rw [length_bytes] at hwritten
  by_cases hshort : written < kStoreRecordHeaderBytes
  · refine Or.inl ?_
    rw [List.length_take]
    omega
  · refine Or.inr ?_
    have hhead : (r.bytes.take written).take kStoreRecordHeaderBytes =
        (r.bytes ++ []).take kStoreRecordHeaderBytes := by
      rw [List.take_take, List.append_nil, min_eq_left (not_lt.mp hshort)]
    have hrest : (r.bytes.take written).drop kStoreRecordHeaderBytes =
        r.payload.take (written - kStoreRecordHeaderBytes) := by
      rw [List.drop_take, ← List.append_nil r.bytes, drop_front, List.append_nil]
    have hlength : decide (r.payload.length ≤
        (r.payload.take (written - kStoreRecordHeaderBytes)).length) = false := by
      rw [decide_eq_false_iff_not, List.length_take]
      omega
    rw [hhead, hrest, read_front h]
    simp only [recordIsValid, hlength, Bool.and_false, Bool.false_and]

/-- A whole record in front of other bytes. -/
theorem front_cases {header : ByteString} (payload : ByteString)
    (hheader : header.length = kStoreRecordHeaderBytes) (rest : ByteString) :
    header ++ (payload ++ rest) ≠ [] ∧
      kStoreRecordHeaderBytes ≤ (header ++ (payload ++ rest)).length ∧
      (header ++ (payload ++ rest)).take kStoreRecordHeaderBytes = header ∧
      (header ++ (payload ++ rest)).drop kStoreRecordHeaderBytes = payload ++ rest := by
  have hlong : kStoreRecordHeaderBytes ≤ (header ++ (payload ++ rest)).length := by
    rw [List.length_append]
    omega
  refine ⟨fun hnil => ?_,hlong,List.take_left' hheader,List.drop_left' hheader⟩
  rw [hnil] at hlong
  exact absurd hlong (by decide)

/-- A stub ends the scan, where the file may be cut. -/
theorem scanFrom_stub {data : ByteString} (h : Stub limits data) {rounds : ℕ}
    (hrounds : data.length ≤ rounds) (valid offset : ℕ) :
    ∃ detail, scanFrom limits true rounds data valid offset =
      .ok { valid := valid, tail := if data = [] then none else some (offset,detail) } := by
  by_cases hnil : data = []
  · subst hnil
    refine ⟨"",?_⟩
    cases rounds <;> simp [scanFrom]
  · have hpositive : 0 < data.length := List.length_pos_iff.mpr hnil
    obtain ⟨rounds,rfl⟩ : ∃ n, rounds = n + 1 := ⟨rounds - 1,by omega⟩
    rw [scanFrom, if_neg hnil]
    simp only [if_neg hnil]
    by_cases hshort : data.length < kStoreRecordHeaderBytes
    · rw [if_pos hshort]
      exact ⟨_,rfl⟩
    · rw [if_neg hshort]
      have hinvalid := h.resolve_left hshort
      simp only [hinvalid]
      exact ⟨_,rfl⟩

/-- One round of the scan passes over a whole record. -/
theorem scanFrom_front {header payload : ByteString}
    (hheader : header.length = kStoreRecordHeaderBytes)
    (hlength : (RecordHeader.read header).payloadBytes = payload.length)
    (hvalid : recordIsValid limits (RecordHeader.read header) payload = true)
    (truncate : Bool) (rounds : ℕ) (rest : ByteString) {valid : ℕ}
    (hcount : valid + 1 ≤ limits.maxStoreRecords) (offset : ℕ) :
    scanFrom limits truncate (rounds + 1) (header ++ (payload ++ rest)) valid offset =
      scanFrom limits truncate rounds rest (valid + 1)
        (offset + kStoreRecordHeaderBytes + payload.length) := by
  obtain ⟨hnonempty,hlong,htake,hdrop⟩ := front_cases payload hheader rest
  rw [scanFrom, if_neg hnonempty, if_neg (not_lt.mpr hlong)]
  simp only [htake, hdrop]
  rw [if_pos ((recordIsValid_append hlength rest).trans hvalid), hlength, List.drop_left]
  simp only [require, decide_eq_true hcount, if_true]
  rfl

/-- The scan passes over whole records and goes on behind them. -/
theorem scanFrom_whole {first : ByteString} {records : List StoredRecord}
    (h : WholeRecords limits first records) (truncate : Bool) (data : ByteString)
    {rounds valid : ℕ} (offset : ℕ) (hrounds : (first ++ data).length ≤ rounds)
    (hcount : valid + records.length ≤ limits.maxStoreRecords) :
    ∃ left, data.length ≤ left ∧ scanFrom limits truncate rounds (first ++ data) valid offset =
      scanFrom limits truncate left data (valid + records.length) (offset + first.length) := by
  induction h generalizing rounds valid offset with
  | nil => exact ⟨rounds,hrounds,rfl⟩
  | @cons header payload rest type records hheader hlength hvalid htype hrest ih =>
    rw [List.length_cons] at hcount
    rw [List.append_assoc, List.append_assoc] at hrounds ⊢
    rw [List.length_append, List.length_append, hheader, kStoreRecordHeaderBytes] at hrounds
    obtain ⟨rounds,rfl⟩ : ∃ n, rounds = n + 1 := ⟨rounds - 1,by omega⟩
    obtain ⟨left,hleft,hscan⟩ := @ih rounds (valid + 1)
      (offset + kStoreRecordHeaderBytes + payload.length) (by omega) (by omega)
    refine ⟨left,hleft,?_⟩
    rw [scanFrom_front hheader hlength hvalid truncate rounds _ (by omega), hscan,
      List.length_cons, List.length_append, List.length_append, hheader, add_assoc valid,
      add_comm 1, add_assoc offset, add_assoc offset, add_assoc kStoreRecordHeaderBytes]

/-- The scan of whole records finds all of them, whether the file may be cut or not. -/
theorem scan_dropped {file : ByteString} {records : List StoredRecord}
    (h : WholeRecords limits (file.drop kStoreHeaderBytes) records)
    (hcount : records.length ≤ limits.maxStoreRecords) (truncate : Bool) :
    scan limits truncate file = .ok { valid := records.length } := by
  obtain ⟨left,-,hscan⟩ := scanFrom_whole h truncate [] kStoreHeaderBytes le_rfl
    ((Nat.zero_add records.length).trans_le hcount)
  have hend : scanFrom limits truncate left [] (0 + records.length) (kStoreHeaderBytes +
      (file.drop kStoreHeaderBytes).length) = .ok { valid := 0 + records.length } := by
    cases left <;> simp [scanFrom]
  rw [List.append_nil] at hscan
  rw [hend, Nat.zero_add] at hscan
  exact hscan

theorem scan_whole {header first : ByteString} (hheader : header.length = kStoreHeaderBytes)
    {records : List StoredRecord} (h : WholeRecords limits first records)
    (hcount : records.length ≤ limits.maxStoreRecords) (truncate : Bool) :
    scan limits truncate (header ++ first) = .ok { valid := records.length } := by
  refine scan_dropped ?_ hcount truncate
  rwa [List.drop_left' hheader]

/-- Whole records before a stub are all valid. -/
theorem scanFrom_stubbed {first data : ByteString} {records : List StoredRecord}
    (h : WholeRecords limits first records) (hstub : Stub limits data) {rounds valid : ℕ}
    (offset : ℕ) (hrounds : (first ++ data).length ≤ rounds)
    (hcount : valid + records.length ≤ limits.maxStoreRecords) :
    ∃ detail, scanFrom limits true rounds (first ++ data) valid offset = .ok
      { valid := valid + records.length
        tail := if data = [] then none else some (offset + first.length,detail) } := by
  obtain ⟨left,hleft,hscan⟩ := scanFrom_whole h true data offset hrounds hcount
  obtain ⟨detail,hstubbed⟩ := scanFrom_stub hstub hleft (valid + records.length)
    (offset + first.length)
  exact ⟨detail,hscan.trans hstubbed⟩

/-- What a valid record at the front of bytes consists of. -/
theorem exists_front {data : ByteString} (hlong : ¬ data.length < kStoreRecordHeaderBytes)
    (hvalid : recordIsValid limits (RecordHeader.read (data.take kStoreRecordHeaderBytes))
      (data.drop kStoreRecordHeaderBytes) = true) :
    ∃ header payload rest type, data = header ++ (payload ++ rest) ∧
      header.length = kStoreRecordHeaderBytes ∧
      (RecordHeader.read header).payloadBytes = payload.length ∧
      recordIsValid limits (RecordHeader.read header) payload = true ∧
      RecordType.parse (RecordHeader.read header).typeRaw = .ok type := by
  obtain ⟨header,body,rfl,hheader⟩ : ∃ header body, data = header ++ body ∧
      header.length = kStoreRecordHeaderBytes := by
    refine ⟨data.take kStoreRecordHeaderBytes,data.drop kStoreRecordHeaderBytes,
      (List.take_append_drop _ _).symm,?_⟩
    rw [List.length_take]
    omega
  rw [List.take_left' hheader, List.drop_left' hheader] at hvalid
  have hparts := hvalid
  simp only [recordIsValid, Bool.and_eq_true, decide_eq_true_eq] at hparts
  obtain ⟨⟨⟨-,htype⟩,hfits⟩,-⟩ := hparts
  obtain ⟨payload,rest,rfl,hlength⟩ : ∃ payload rest, body = payload ++ rest ∧
      (RecordHeader.read header).payloadBytes = payload.length := by
    refine ⟨body.take (RecordHeader.read header).payloadBytes,
      body.drop (RecordHeader.read header).payloadBytes,(List.take_append_drop _ _).symm,?_⟩
    rw [List.length_take, min_eq_left hfits]
  rw [recordIsValid_append hlength] at hvalid
  cases hparse : RecordType.parse (RecordHeader.read header).typeRaw with
  | error e =>
    rw [hparse] at htype
    cases htype
  | ok type => exact ⟨header,payload,rest,type,rfl,hheader,hlength,hvalid,hparse⟩

/-- Where the file may not be cut, a scan that succeeds has met no stub. -/
theorem eq_nil_of_strict {data : ByteString} (h : Stub limits data) {rounds : ℕ}
    (hrounds : data.length ≤ rounds) {valid offset : ℕ} {found : Scan}
    (hscan : scanFrom limits false rounds data valid offset = .ok found) : data = [] := by
  by_contra hnil
  have hpositive : 0 < data.length := List.length_pos_iff.mpr hnil
  obtain ⟨rounds,rfl⟩ : ∃ n, rounds = n + 1 := ⟨rounds - 1,by omega⟩
  rw [scanFrom, if_neg hnil] at hscan
  by_cases hshort : data.length < kStoreRecordHeaderBytes
  · rw [if_pos hshort] at hscan
    cases hscan
  · rw [if_neg hshort] at hscan
    have hinvalid := h.resolve_left hshort
    simp only [hinvalid] at hscan
    cases hscan

/-- A scan that succeeds has found whole records before a stub, and no stub where
the file may not be cut. -/
theorem exists_wholeRecords {truncate : Bool} {rounds : ℕ} {data : ByteString}
    {valid offset : ℕ} {found : Scan} (hrounds : data.length ≤ rounds)
    (hvalid : valid ≤ limits.maxStoreRecords)
    (h : scanFrom limits truncate rounds data valid offset = .ok found) :
    ∃ first records stub, data = first ++ stub ∧ WholeRecords limits first records ∧
      Stub limits stub ∧ valid + records.length ≤ limits.maxStoreRecords ∧
      (truncate = false → stub = []) := by
  induction rounds generalizing data valid offset with
  | zero =>
    obtain rfl := List.length_eq_zero_iff.mp (Nat.le_zero.mp hrounds)
    exact ⟨[],[],[],rfl,.nil,stub_nil limits,hvalid,fun _ => rfl⟩
  | succ rounds ih =>
    by_cases hstub : Stub limits data
    · refine ⟨[],[],data,rfl,.nil,hstub,hvalid,fun hstrict => ?_⟩
      subst hstrict
      exact eq_nil_of_strict hstub hrounds h
    · obtain ⟨hlong,hfront⟩ := not_or.mp hstub
      obtain ⟨header,payload,rest,type,rfl,hheader,hlength,hrecord,htype⟩ :=
        exists_front hlong (Bool.not_eq_false _ ▸ hfront)
      obtain ⟨hnonempty,-,htake,hdrop⟩ := front_cases payload hheader rest
      rw [scanFrom, if_neg hnonempty, if_neg hlong] at h
      simp only [htake, hdrop] at h
      rw [if_pos ((recordIsValid_append hlength rest).trans hrecord), hlength,
        List.drop_left] at h
      simp only [↓require_bind_eq_ok, decide_eq_true_eq] at h
      obtain ⟨hroom,hscan⟩ := h
      rw [List.length_append, List.length_append, hheader, kStoreRecordHeaderBytes] at hrounds
      obtain ⟨first,records,stub,rfl,hwhole,hstubbed,hcount,hstrict⟩ :=
        ih (by omega) hroom hscan
      refine ⟨_,_,stub,?_,.cons hheader hlength hrecord htype hwhole,hstubbed,?_,hstrict⟩
      · simp only [List.append_assoc]
      · rw [List.length_cons]
        omega

/-- Whole records are read back in order. -/
theorem readFrom_whole {first : ByteString} {records : List StoredRecord}
    (h : WholeRecords limits first records) {rounds held : ℕ} (hrounds : first.length ≤ rounds)
    (hcount : held + records.length ≤ limits.maxStoreRecords) :
    readFrom limits rounds first held = .ok records := by
  induction h generalizing rounds held with
  | nil => cases rounds <;> simp [readFrom]
  | @cons header payload rest type records hheader hlength hvalid htype hrest ih =>
    rw [List.length_cons] at hcount
    rw [List.length_append, List.length_append, hheader, kStoreRecordHeaderBytes] at hrounds
    obtain ⟨rounds,rfl⟩ : ∃ n, rounds = n + 1 := ⟨rounds - 1,by omega⟩
    obtain ⟨hnonempty,hlong,htake,hdrop⟩ := front_cases payload hheader rest
    have hparts := hvalid
    simp only [recordIsValid, Bool.and_eq_true, decide_eq_true_eq] at hparts
    obtain ⟨⟨⟨⟨hcrc,hbytes⟩,-⟩,-⟩,hpayload⟩ := hparts
    rw [hlength, List.take_of_length_le le_rfl] at hpayload
    rw [readFrom, if_neg hnonempty]
    simp only [htake, hdrop, ↓require_bind_eq_ok, bind_eq_ok, decide_eq_true_eq, hlength,
      List.take_left, List.drop_left]
    refine ⟨hlong,hcrc.symm,hlength ▸ hbytes,type,htype,?_,hpayload,by omega,records,?_,rfl⟩
    · rw [List.length_append]
      omega
    · exact ih (by omega) (by omega)

end PersistentStore

end PathObservatory
