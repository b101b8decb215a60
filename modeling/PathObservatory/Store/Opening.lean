import PathObservatory.Store.Recovery

/-! # What a writable open keeps

Whatever the file was, a writable open that succeeds leaves a usable header and
whole records, and cuts off the stub behind them. Appends keep the store so, as
long as nothing is left behind by one that failed.
-/
namespace PathObservatory
namespace PersistentStore
variable {limits : Limits}

/-- A writable store whose file is a usable header, whole records and what failed
appends left behind. -/
structure Keeps (s : PersistentStore) (limits : Limits) (first : ByteString)
    (records : List StoredRecord) (debris : ByteString) : Prop where
  options : s.options = { limits := limits }
  file : ∃ header, UsableHeader header ∧ s.file = header ++ (first ++ debris)
  whole : WholeRecords limits first records
  stub : Stub limits debris
  size : s.sizeBytes = kStoreHeaderBytes + first.length
  count : s.recordCount = records.length
  bounded : records.length ≤ limits.maxStoreRecords

/-- What the scan of a file reports of whole records before a stub. -/
def stubbedScan (first data : ByteString) (records : List StoredRecord) (detail : String) :
    Scan where
  valid := records.length
  tail := if data = [] then none else some (kStoreHeaderBytes + first.length,detail)

theorem scan_stubbed {header first data : ByteString} (husable : UsableHeader header)
    {records : List StoredRecord} (hwhole : WholeRecords limits first records)
    (hcount : records.length ≤ limits.maxStoreRecords) (hstub : Stub limits data) :
    ∃ detail, scan limits true (header ++ (first ++ data)) =
      .ok (stubbedScan first data records detail) := by
  obtain ⟨detail,hscan⟩ := scanFrom_stubbed hwhole hstub kStoreHeaderBytes le_rfl
    ((Nat.zero_add records.length).trans_le hcount)
  refine ⟨detail,?_⟩
  rw [scan, ← husable.length, List.drop_left, husable.length, hscan, Nat.zero_add]
  rfl

/-- The store of such a scan keeps the whole records and cuts the stub off. -/
theorem ofScan_keeps {header first data : ByteString} (husable : UsableHeader header)
    {records : List StoredRecord} (hwhole : WholeRecords limits first records)
    (hcount : records.length ≤ limits.maxStoreRecords) {opened : OpenedHeader}
    (hfile : opened.file = header ++ (first ++ data)) (path detail : String) :
    (ofScan path { limits := limits } opened (stubbedScan first data records detail)).Keeps limits
      first records [] := by
  have hkept : (ofScan path { limits := limits } opened
      (stubbedScan first data records detail)).file = header ++ first := by
    unfold ofScan stubbedScan
    by_cases hnil : data = []
    · simp only [hnil, if_true, hfile, List.append_nil]
    · simp only [if_neg hnil, hfile]
      rw [← List.append_assoc, List.take_left']
      rw [List.length_append, husable.length]
  refine ⟨rfl,⟨header,husable,?_⟩,hwhole,stub_nil limits,?_,rfl,hcount⟩
  · rw [hkept, List.append_nil]
  · exact (congrArg List.length hkept).trans (by rw [List.length_append, husable.length])

/-- A writable open keeps the whole records and cuts the stub off. -/
theorem open_stubbed (hlimits : limits.validate = .ok ()) {now : TimePoint}
    (hnow : now.isSet = true) {header first data : ByteString} (husable : UsableHeader header)
    {records : List StoredRecord} (hwhole : WholeRecords limits first records)
    (hcount : records.length ≤ limits.maxStoreRecords) (hstub : Stub limits data)
    (path : String) :
    ∃ s, open_ path { limits := limits } now (some (header ++ (first ++ data))) =
        (.ok s,some s.file) ∧
      s.Keeps limits first records [] ∧ s.recovery.validRecords = records.length ∧
      (s.recovery.corruptTailTruncated = true ↔ data ≠ []) ∧
      s.nextSequence = UInt64.ofNat records.length + 1 ∧ s.faults = [] := by
  obtain ⟨opened,written,hopened,hwritten,hfile,hslot⟩ := husable.openHeader (first ++ data) now
  obtain ⟨detail,hscan⟩ := scan_stubbed hwritten hwhole hcount hstub
  refine ⟨ofScan path { limits := limits } opened (stubbedScan first data records detail),?_,
    ofScan_keeps hwritten hwhole hcount hfile path detail,rfl,?_,rfl,rfl⟩
  · rw [← hfile] at hscan
    simp only [open_, hlimits, hnow, Option.getD_some, hopened, Bool.not_false, hscan]
  · by_cases hnil : data = []
    · simp [ofScan, stubbedScan, hnil]
    · simp [ofScan, stubbedScan, hnil]

/-- What an open that succeeds has gone through. -/
theorem passed_of_open {path : String} {options : StoreOptions} {now : TimePoint}
    {content : Option ByteString} {s : PersistentStore}
    (h : (open_ path options now content).1 = .ok s) :
    options.limits.validate = .ok () ∧ ∃ header found,
      openHeader options.readOnly now (content.getD []) = .ok header ∧
      scan options.limits (!options.readOnly) header.file = .ok found ∧
      s = ofScan path options header found := by
  cases hvalidate : options.limits.validate with
  | error e =>
    simp only [open_, hvalidate] at h
    cases h
  | ok _ =>
    cases hset : now.isSet with
    | false =>
      simp only [open_, hvalidate, hset] at h
      cases h
    | true =>
      unfold open_ at h
      rw [hvalidate, hset] at h
      split at h
      · cases h
      · cases h
      · cases h
      · split at h
        · cases h
        · rename_i header hheader
          split at h
          · cases h
          · rename_i found hfound
            exact ⟨rfl,header,found,hheader,hfound,(Except.ok.inj h).symm⟩

theorem open_eq_ok {path : String} {now : TimePoint} {content : Option ByteString}
    {s : PersistentStore} (h : (open_ path { limits := limits } now content).1 = .ok s) :
    limits.validate = .ok () ∧ ∃ header found,
      openHeader false now (content.getD []) = .ok header ∧
      scan limits true header.file = .ok found ∧
      s = ofScan path { limits := limits } header found := passed_of_open h

/-- What a writable open does with a file, its arguments being in order. -/
theorem open_of_valid (hlimits : limits.validate = .ok ()) {now : TimePoint}
    (hnow : now.isSet = true) (path : String) (content : ByteString) :
    open_ path { limits := limits } now (some content) =
      match openHeader false now content with
      | .error e => (.error e,some content)
      | .ok header =>
        match scan limits true header.file with
        | .error e => (.error e,some header.file)
        | .ok found =>
          (.ok (ofScan path { limits := limits } header found),
            some (ofScan path { limits := limits } header found).file) := by
  have hvalid : ({ limits := limits } : StoreOptions).limits.validate = .ok () := hlimits
  unfold open_
  rw [hvalid, hnow]
  rfl

/-- An open whose arguments are not in order leaves the file alone. -/
theorem open_of_invalid {options : StoreOptions} {now : TimePoint} (path : String)
    (content : ByteString) (h : ¬ (options.limits.validate = .ok () ∧ now.isSet = true)) :
    ∃ e, open_ path options now (some content) = (.error e,some content) := by
  unfold open_
  cases hlimits : options.limits.validate with
  | error e => exact ⟨e,rfl⟩
  | ok _ =>
    cases hnow : now.isSet with
    | false => exact ⟨_,rfl⟩
    | true => exact absurd ⟨hlimits,hnow⟩ h

theorem isSet_of_open {path : String} {options : StoreOptions} {now : TimePoint}
    {content : Option ByteString} {s : PersistentStore}
    (h : (open_ path options now content).1 = .ok s) : now.isSet = true := by
  cases hset : now.isSet with
  | true => rfl
  | false =>
    unfold open_ at h
    rw [hset] at h
    cases hvalidate : options.limits.validate with
    | error e =>
      rw [hvalidate] at h
      cases h
    | ok _ =>
      rw [hvalidate] at h
      cases h

theorem chooseSlot_cases {primary secondary : Option HeaderSlot} {chosen : HeaderSlot} {slot : ℕ}
    (h : chooseSlot primary secondary = some (chosen,slot)) :
    (slot = 0 ∧ primary = some chosen) ∨ (slot = 1 ∧ secondary = some chosen) := by
  unfold chooseSlot at h
  split at h
  · split_ifs at h <;> simp_all
  · simp_all
  · simp_all
  · cases h

/-- The slot that is chosen is one of the two, and is the one that is read there. -/
theorem read_of_chooseSlot {file : ByteString} {chosen : HeaderSlot} {slot : ℕ}
    (h : chooseSlot (HeaderSlot.read file 0) (HeaderSlot.read file 1) = some (chosen,slot)) :
    slot < 2 ∧ HeaderSlot.read file slot = some chosen := by
  rcases chooseSlot_cases h with ⟨rfl,hread⟩ | ⟨rfl,hread⟩
  · exact ⟨by decide,hread⟩
  · exact ⟨by decide,hread⟩

/-- A file that is long enough has a header in front. -/
theorem exists_header {file : ByteString} (hlong : kStoreHeaderBytes ≤ file.length) :
    ∃ header rest, file = header ++ rest ∧ header.length = kStoreHeaderBytes := by
  refine ⟨file.take kStoreHeaderBytes,file.drop kStoreHeaderBytes,
    (List.take_append_drop _ _).symm,?_⟩
  rw [List.length_take, min_eq_left hlong]

/-- A header that opens is new in a file without one, or reopened from the newest slot. -/
theorem openHeader_eq_ok {readOnly : Bool} {now : TimePoint} {file : ByteString}
    {opened : OpenedHeader} (h : openHeader readOnly now file = .ok opened) :
    (file.length < kStoreHeaderBytes ∧ readOnly = false ∧ opened = createHeader now) ∨
    (kStoreHeaderBytes ≤ file.length ∧ ∃ chosen slot,
      chooseSlot (HeaderSlot.read file 0) (HeaderSlot.read file 1) = some (chosen,slot) ∧
      chosen.formatVersion = kStoreFormatVersion ∧
      opened = reopenHeader readOnly now file chosen slot (HeaderSlot.read file 0).isNone) := by
  unfold openHeader at h
  split_ifs at h with hshort
  · simp only [↓require_bind_eq_ok, decide_eq_true_eq, Bool.not_eq_true] at h
    obtain ⟨hwritable,hcreated⟩ := h
    exact Or.inl ⟨hshort,hwritable,(Except.ok.inj hcreated).symm⟩
  · split at h
    · cases h
    · rename_i chosen slot hchoose
      simp only [↓require_bind_eq_ok, decide_eq_true_eq] at h
      obtain ⟨hversion,hreopened⟩ := h
      exact Or.inr ⟨not_lt.mp hshort,chosen,slot,hchoose,hversion,
        (Except.ok.inj hreopened).symm⟩

/-- Whatever the file was, a writable open leaves a usable header in front. -/
theorem openHeader_usable {now : TimePoint} {file : ByteString} {opened : OpenedHeader}
    (h : openHeader false now file = .ok opened) :
    ∃ header rest, UsableHeader header ∧ opened.file = header ++ rest := by
  rcases openHeader_eq_ok h with ⟨-,-,rfl⟩ | ⟨hlong,chosen,slot,hchoose,hversion,rfl⟩
  · exact ⟨_,[],createHeader_usable now,(List.append_nil _).symm⟩
  · obtain ⟨header,rest,rfl,hheader⟩ := exists_header hlong
    obtain ⟨hbound,hread⟩ := read_of_chooseSlot hchoose
    rw [read_append hheader hbound] at hread
    have hother : (if slot = 0 then 1 else 0) < 2 := by split_ifs <;> decide
    refine ⟨_,rest,UsableHeader.write hheader (newSlot_version _ _ _ _ _) hother ?_,
      HeaderSlot.write_append (slot_inside hheader hother) _⟩
    intro i t hi hne ht
    obtain rfl : i = slot := by split_ifs at hne <;> omega
    rw [hread] at ht
    rwa [← Option.some.inj ht]

/-- Whatever the file was, a writable open that succeeds keeps whole records. -/
theorem keeps_of_open {path : String} {now : TimePoint} {content : Option ByteString}
    {s : PersistentStore} (h : (open_ path { limits := limits } now content).1 = .ok s) :
    limits.validate = .ok () ∧ ∃ first records, s.Keeps limits first records [] := by
  obtain ⟨hlimits,opened,found,hheader,hfound,rfl⟩ := open_eq_ok h
  obtain ⟨header,rest,husable,hfile⟩ := openHeader_usable hheader
  have hscan := hfound
  rw [hfile, scan, ← husable.length, List.drop_left] at hscan
  obtain ⟨first,records,stub,rfl,hwhole,hstub,hcount,-⟩ :=
    exists_wholeRecords le_rfl (Nat.zero_le _) hscan
  rw [Nat.zero_add] at hcount
  obtain ⟨detail,hstubbed⟩ := scan_stubbed husable hwhole hcount hstub
  rw [← hfile, hfound] at hstubbed
  rw [Except.ok.inj hstubbed]
  exact ⟨hlimits,first,records,ofScan_keeps husable hwhole hcount hfile path detail⟩

section Keeps
variable {s : PersistentStore} {first debris : ByteString} {records : List StoredRecord}

theorem Keeps.readAll (h : s.Keeps limits first records []) : s.readAll = .ok records := by
  obtain ⟨header,husable,hfile⟩ := h.file
  rw [PersistentStore.readAll, h.options, hfile, ← husable.length, List.drop_left,
    List.append_nil]
  exact readFrom_whole h.whole le_rfl ((Nat.zero_add _).trans_le h.bounded)

/-- Where nothing was left behind the file is as long as the store takes it to
be. -/
theorem Keeps.length_file (h : s.Keeps limits first records debris) :
    s.file.length = s.sizeBytes + debris.length := by
  obtain ⟨header,husable,hfile⟩ := h.file
  rw [h.size, hfile, List.length_append, List.length_append, husable.length, add_assoc]

theorem Keeps.debris_eq (h : s.Keeps limits first records debris) :
    s.file.drop s.sizeBytes = debris := by
  obtain ⟨header,husable,hfile⟩ := h.file
  rw [h.size, hfile, ← husable.length, ← List.append_assoc, List.drop_left']
  rw [List.length_append]

/-- The bounds an append has checked. -/
theorem Keeps.fits (h : s.Keeps limits first records debris)
    (hlimits : limits.maxStoreRecordBytes < 2 ^ 32) {payload : ByteString}
    (hcheck : s.checkAppend payload = .ok ()) (type : RecordType) (sequence : UInt64) :
    StoredRecord.Fits limits { type := type, sequence := sequence, payload := payload } ∧
      records.length + 1 ≤ limits.maxStoreRecords := by
  unfold checkAppend at hcheck
  simp only [↓require_bind_eq_ok, decide_eq_true_eq, h.options, h.count] at hcheck
  obtain ⟨-,hpayload,hcount,-⟩ := hcheck
  exact ⟨⟨hpayload,hpayload.trans_lt hlimits⟩,hcount⟩

/-- A write that succeeds adds a whole record where nothing was left behind. -/
theorem Keeps.written (h : s.Keeps limits first records [])
    (hlimits : limits.maxStoreRecordBytes < 2 ^ 32) {payload : ByteString}
    (hcheck : s.checkAppend payload = .ok ()) (type : RecordType) (t : PersistentStore)
    (ht : t.options = s.options ∧ t.file = s.file ++ StoredRecord.bytes
        { type := type, sequence := s.nextSequence, payload := payload } ∧
      t.recordCount = s.recordCount + 1 ∧
      t.sizeBytes = s.sizeBytes + (kStoreRecordHeaderBytes + payload.length)) :
    t.Keeps limits (first ++ StoredRecord.bytes
        { type := type, sequence := s.nextSequence, payload := payload })
      (records ++ [{ type := type, sequence := s.nextSequence, payload := payload }]) [] := by
  obtain ⟨header,husable,hfile⟩ := h.file
  obtain ⟨hfits,hcount⟩ := h.fits hlimits hcheck type s.nextSequence
  obtain ⟨hoptions,hwritten,hrecords,hsize⟩ := ht
  refine ⟨hoptions.trans h.options,⟨header,husable,?_⟩,h.whole.append (wholeRecords_bytes hfits),
    stub_nil limits,?_,?_,?_⟩
  · rw [hwritten, hfile]
    simp only [List.append_assoc, List.append_nil]
  · rw [hsize, h.size, List.length_append, StoredRecord.length_bytes, add_assoc]
  · rw [hrecords, h.count, List.length_append, List.length_singleton]
  · rwa [List.length_append, List.length_singleton]

/-- A store that was opened and not given faults goes on behind its records. -/
theorem Keeps.append (h : s.Keeps limits first records []) (hhealthy : s.faults = [])
    (hlimits : limits.maxStoreRecordBytes < 2 ^ 32) {type : RecordType} {payload : ByteString}
    (hok : (s.append type payload).1 = .ok ()) :
    (s.append type payload).2.Keeps limits (first ++ StoredRecord.bytes
        { type := type, sequence := s.nextSequence, payload := payload })
      (records ++ [{ type := type, sequence := s.nextSequence, payload := payload }]) [] := by
  unfold PersistentStore.append at hok ⊢
  cases hcheck : s.checkAppend payload with
  | error e =>
    rw [hcheck] at hok
    cases hok
  | ok _ =>
    rw [hhealthy]
    exact h.written hlimits hcheck type _ ⟨rfl,rfl,rfl,rfl⟩

theorem Keeps.markClean (h : s.Keeps limits first records debris) (now : TimePoint) :
    (s.markClean now).2.Keeps limits first records debris ∧
      (s.markClean now).2.faults = s.faults := by
  obtain ⟨header,husable,hfile⟩ := h.file
  have hwritable : s.options.readOnly = false := by rw [h.options]
  obtain ⟨written,slot,recovery,hwritten,-,hmarked⟩ := husable.markClean hwritable hfile now
  rw [hmarked]
  exact ⟨⟨h.options,⟨written,hwritten,rfl⟩,h.whole,h.stub,h.size,h.count,h.bounded⟩,rfl⟩

end Keeps

/-- A writable store without planned faults that keeps these records. -/
structure Retains (s : PersistentStore) (limits : Limits) (records : List StoredRecord) :
    Prop where
  keeps : ∃ first, s.Keeps limits first records []
  healthy : s.faults = []

theorem retains_of_open {path : String} {now : TimePoint} {content : Option ByteString}
    {s : PersistentStore} (h : (open_ path { limits := limits } now content).1 = .ok s) :
    limits.validate = .ok () ∧ ∃ records, s.Retains limits records := by
  obtain ⟨hlimits,first,records,hkeeps⟩ := keeps_of_open h
  obtain ⟨-,header,found,-,-,rfl⟩ := open_eq_ok h
  exact ⟨hlimits,records,⟨first,hkeeps⟩,rfl⟩

section Retains
variable {s : PersistentStore} {records : List StoredRecord}

theorem Retains.readAll (h : s.Retains limits records) : s.readAll = .ok records := by
  obtain ⟨first,hkeeps⟩ := h.keeps
  exact hkeeps.readAll

/-- An append writes one more record or changes nothing. -/
theorem Retains.append_cases (h : s.Retains limits records)
    (hlimits : limits.maxStoreRecordBytes < 2 ^ 32) (type : RecordType) (payload : ByteString) :
    (∃ e, s.append type payload = (.error e,s)) ∨
    ((s.append type payload).1 = .ok () ∧ (s.append type payload).2.Retains limits
      (records ++ [{ type := type, sequence := s.nextSequence, payload := payload }])) := by
  obtain ⟨first,hkeeps⟩ := h.keeps
  cases hcheck : s.checkAppend payload with
  | error e => exact Or.inl ⟨e,by rw [PersistentStore.append, hcheck]⟩
  | ok _ =>
    have hok : (s.append type payload).1 = .ok () := by
      rw [PersistentStore.append, hcheck, h.healthy]
    have hhealthy : (s.append type payload).2.faults = [] := by
      rw [PersistentStore.append, hcheck, h.healthy]
      rfl
    exact Or.inr ⟨hok,⟨⟨_,hkeeps.append h.healthy hlimits hok⟩,hhealthy⟩⟩

theorem Retains.markClean (h : s.Retains limits records) (now : TimePoint) :
    (s.markClean now).2.Retains limits records := by
  obtain ⟨first,hkeeps⟩ := h.keeps
  obtain ⟨hmarked,hfaults⟩ := hkeeps.markClean now
  exact ⟨⟨first,hmarked⟩,hfaults.trans h.healthy⟩

/-- The file is opened again with the same records. -/
theorem Retains.reopen (h : s.Retains limits records) (hlimits : limits.validate = .ok ())
    {now : TimePoint} (hnow : now.isSet = true) (path : String) :
    ∃ t, open_ path { limits := limits } now (some s.file) = (.ok t,some t.file) ∧
      t.Retains limits records := by
  obtain ⟨first,hkeeps⟩ := h.keeps
  obtain ⟨header,husable,hfile⟩ := hkeeps.file
  obtain ⟨t,hopen,hreopened,-,-,-,hhealthy⟩ :=
    open_stubbed hlimits hnow husable hkeeps.whole hkeeps.bounded hkeeps.stub path
  exact ⟨t,hfile ▸ hopen,⟨first,hreopened⟩,hhealthy⟩

end Retains

/-- A new store. -/
def newStore : Result PersistentStore := (open_ "store" {} ⟨1⟩ none).1

end PersistentStore

end PathObservatory
