import PathObservatory.Store.WholeRecords

/-! # Reading a store back

A file that consists of a usable header and whole records is scanned to its end
and read back record by record; writing a header slot or appending a record keeps
it such a file.
-/
namespace PathObservatory

namespace PersistentStore

/-- A header a store can be opened from. -/
structure UsableHeader (header : ByteString) : Prop where
  length : header.length = kStoreHeaderBytes
  slot : ∃ i s, i < 2 ∧ HeaderSlot.read header i = some s
  version : ∀ i s, i < 2 → HeaderSlot.read header i = some s →
    s.formatVersion = kStoreFormatVersion

theorem slot_inside {header : ByteString} (h : header.length = kStoreHeaderBytes) {i : ℕ}
    (hi : i < 2) : (i + 1) * kStoreHeaderSlotBytes ≤ header.length := by
  rw [h, kStoreHeaderBytes, mul_comm kStoreHeaderSlotBytes]
  exact Nat.mul_le_mul_right _ hi

theorem read_append {header : ByteString} (h : header.length = kStoreHeaderBytes) {i : ℕ}
    (hi : i < 2) (rest : ByteString) :
    HeaderSlot.read (header ++ rest) i = HeaderSlot.read header i := by
  have hinside := slot_inside h hi
  rw [add_mul, one_mul] at hinside
  refine HeaderSlot.read_congr ?_
  rw [HeaderSlot.slotAt, HeaderSlot.slotAt, List.drop_append_of_le_length (by omega),
    List.take_append_of_le_length (by rw [List.length_drop]; omega)]

namespace UsableHeader

/-- Writing a slot makes a header usable whose other slot is invalid or
supported. -/
theorem write {header : ByteString} (hlength : header.length = kStoreHeaderBytes)
    {s : HeaderSlot} (hs : s.formatVersion = kStoreFormatVersion) {index : ℕ}
    (hindex : index < 2)
    (hversion : ∀ i t, i < 2 → i ≠ index → HeaderSlot.read header i = some t →
      t.formatVersion = kStoreFormatVersion) : UsableHeader (s.write header index) := by
  have hinside := slot_inside hlength hindex
  have hsame : HeaderSlot.read (s.write header index) index = some s :=
    HeaderSlot.read_of_slotAt (HeaderSlot.slotAt_write hinside)
  refine ⟨(HeaderSlot.length_write hinside).trans hlength,⟨index,s,hindex,hsame⟩,?_⟩
  intro i t hi ht
  by_cases heq : i = index
  · subst heq
    rw [hsame] at ht
    rwa [← Option.some.inj ht]
  · rw [HeaderSlot.read_congr (HeaderSlot.slotAt_write_ne hinside heq)] at ht
    exact hversion i t hi heq ht

/-- One of the slots is chosen, and its version is supported. -/
theorem choose {header : ByteString} (h : UsableHeader header) :
    ∃ chosen slot, chooseSlot (HeaderSlot.read header 0) (HeaderSlot.read header 1) =
      some (chosen,slot) ∧ chosen.formatVersion = kStoreFormatVersion := by
  have hzero := h.version 0
  have hone := h.version 1
  obtain ⟨i,s,hi,hs⟩ := h.slot
  cases hp : HeaderSlot.read header 0 with
  | some p =>
    cases hq : HeaderSlot.read header 1 with
    | some q =>
      by_cases hle : p.generation ≤ q.generation
      · exact ⟨q,1,by simp [chooseSlot, hle],hone q (by decide) hq⟩
      · exact ⟨p,0,by simp [chooseSlot, hle],hzero p (by decide) hp⟩
    | none => exact ⟨p,0,rfl,hzero p (by decide) hp⟩
  | none =>
    cases hq : HeaderSlot.read header 1 with
    | some q => exact ⟨q,1,rfl,hone q (by decide) hq⟩
    | none =>
      obtain rfl | rfl : i = 0 ∨ i = 1 := by omega
      · rw [hp] at hs
        cases hs
      · rw [hq] at hs
        cases hs

end UsableHeader

theorem newSlot_version (generation : UInt64) (restartCount : UInt32) (clean : Bool)
    (created opened : TimePoint) :
    (newSlot generation restartCount clean created opened).formatVersion = kStoreFormatVersion :=
  rfl

/-- A header of zeros with a supported first slot is usable. -/
theorem usable_of_blank {s : HeaderSlot} (hs : s.formatVersion = kStoreFormatVersion) :
    UsableHeader (s.write (List.replicate kStoreHeaderBytes 0) 0) := by
  have hblank : ∀ i < 2, HeaderSlot.read (List.replicate kStoreHeaderBytes 0) i = none := by
    decide
  refine UsableHeader.write (by simp) hs (by decide) ?_
  intro i s hi _ hs
  rw [hblank i hi] at hs
  cases hs

theorem createHeader_usable (now : TimePoint) : UsableHeader (createHeader now).file :=
  usable_of_blank (newSlot_version 1 0 false now now)

/-- The file is a usable header followed by these records, all within the
bounds. -/
structure FileHolds (limits : Limits) (file : ByteString) (records : List StoredRecord) : Prop where
  shape : ∃ header, UsableHeader header ∧ file = header ++ records.flatMap StoredRecord.bytes
  fits : ∀ r ∈ records, r.Fits limits
  count : records.length ≤ limits.maxStoreRecords

theorem FileHolds.scan {limits : Limits} {file : ByteString} {records : List StoredRecord}
    (h : FileHolds limits file records) (truncate : Bool) :
    scan limits truncate file = .ok { valid := records.length } := by
  obtain ⟨header,husable,rfl⟩ := h.shape
  exact scan_whole husable.length (wholeRecords_flatMap h.fits) h.count truncate

/-- Opening a file with a usable header writes a slot of it and nothing else. -/
theorem UsableHeader.openHeader {header : ByteString} (h : UsableHeader header)
    (rest : ByteString) (now : TimePoint) :
    ∃ opened written, openHeader false now (header ++ rest) = .ok opened ∧
      UsableHeader written ∧ opened.file = written ++ rest ∧ opened.activeSlot < 2 := by
  obtain ⟨chosen,slot,hchoose,hversion⟩ := h.choose
  have hlong : ¬ (header ++ rest).length < kStoreHeaderBytes := by
    rw [List.length_append, h.length]
    omega
  have hother : (if slot = 0 then 1 else 0) < 2 := by split_ifs <;> decide
  refine ⟨reopenHeader false now (header ++ rest) chosen slot
    (HeaderSlot.read header 0).isNone,_,?_,UsableHeader.write h.length
      (newSlot_version (chosen.generation + 1) (chosen.restartCount + 1) false chosen.created now)
      hother (fun i t hi _ => h.version i t hi),
    HeaderSlot.write_append (slot_inside h.length hother) _,hother⟩
  rw [PersistentStore.openHeader, if_neg hlong, read_append h.length (by decide),
    read_append h.length (by decide), hchoose]
  simp only [require, decide_eq_true hversion, if_true]
  rfl

theorem FileHolds.openHeader {limits : Limits} {file : ByteString} {records : List StoredRecord}
    (h : FileHolds limits file records) (now : TimePoint) :
    ∃ header, openHeader false now file = .ok header ∧ FileHolds limits header.file records ∧
      header.activeSlot < 2 := by
  obtain ⟨header,husable,rfl⟩ := h.shape
  obtain ⟨opened,written,hopened,hwritten,hfile,hslot⟩ :=
    husable.openHeader (records.flatMap StoredRecord.bytes) now
  exact ⟨opened,hopened,⟨⟨written,hwritten,hfile⟩,h.fits,h.count⟩,hslot⟩

theorem createHeader_holds (limits : Limits) (now : TimePoint) :
    FileHolds limits (createHeader now).file [] where
  shape := ⟨_,createHeader_usable now,(List.append_nil _).symm⟩
  fits := by simp
  count := Nat.zero_le _

theorem FileHolds.append {limits : Limits} {file : ByteString} {records : List StoredRecord}
    (h : FileHolds limits file records) {record : StoredRecord} (hfits : record.Fits limits)
    (hcount : records.length + 1 ≤ limits.maxStoreRecords) :
    FileHolds limits (file ++ record.bytes) (records ++ [record]) := by
  obtain ⟨header,husable,rfl⟩ := h.shape
  refine ⟨⟨header,husable,by simp⟩,?_,by simpa using hcount⟩
  intro r hr
  rcases List.mem_append.mp hr with hr | hr
  · exact h.fits r hr
  · rwa [List.mem_singleton.mp hr]

/-- The contents of a disk: no file yet, or a file that holds these records. -/
def DiskHolds (limits : Limits) (content : Option ByteString) (records : List StoredRecord) :
    Prop :=
  (content = none ∧ records = []) ∨ ∃ file, content = some file ∧ FileHolds limits file records

/-- A writable store without planned faults whose file holds these records. -/
structure Holds (s : PersistentStore) (limits : Limits) (records : List StoredRecord) : Prop where
  options : s.options = { limits := limits }
  healthy : s.faults = []
  file : FileHolds limits s.file records
  count : s.recordCount = records.length
  slot : s.activeSlot < 2

/-- Opening a disk that holds records succeeds and keeps them. -/
theorem open_holds {limits : Limits} (hlimits : limits.validate = .ok ()) {now : TimePoint}
    (hnow : now.isSet = true) {content : Option ByteString} {records : List StoredRecord}
    (h : DiskHolds limits content records) (path : String) :
    ∃ store, open_ path { limits := limits } now content = (.ok store,some store.file) ∧
      store.Holds limits records := by
  obtain ⟨header,hheader,hfile,hslot⟩ : ∃ header,
      openHeader false now (content.getD []) = .ok header ∧ FileHolds limits header.file records ∧
        header.activeSlot < 2 := by
    rcases h with ⟨rfl,rfl⟩ | ⟨file,rfl,hfile⟩
    · exact ⟨createHeader now,rfl,createHeader_holds limits now,Nat.zero_lt_two⟩
    · exact hfile.openHeader now
  refine ⟨ofScan path { limits := limits } header { valid := records.length },?_,?_⟩
  · simp only [open_, hlimits, hnow, hheader, hfile.scan]
  · exact ⟨rfl,rfl,hfile,rfl,hslot⟩

theorem Holds.readAll {s : PersistentStore} {limits : Limits} {records : List StoredRecord}
    (h : s.Holds limits records) : s.readAll = .ok records := by
  obtain ⟨header,husable,hfile⟩ := h.file.shape
  rw [PersistentStore.readAll, h.options, hfile, ← husable.length, List.drop_left]
  exact readFrom_whole (wholeRecords_flatMap h.file.fits) le_rfl
    ((Nat.zero_add _).trans_le h.file.count)

/-- An append writes one more record or changes nothing. -/
theorem Holds.append_cases {s : PersistentStore} {limits : Limits} {records : List StoredRecord}
    (h : s.Holds limits records) (hlimits : limits.maxStoreRecordBytes < 2 ^ 32)
    (type : RecordType) (payload : ByteString) :
    (∃ e, s.append type payload = (.error e,s)) ∨
    ((s.append type payload).1 = .ok () ∧ (s.append type payload).2.Holds limits
      (records ++ [{ type := type, sequence := s.nextSequence, payload := payload }])) := by
  unfold append
  cases hcheck : s.checkAppend payload with
  | error e => exact Or.inl ⟨e,rfl⟩
  | ok _ =>
    unfold checkAppend at hcheck
    simp only [↓require_bind_eq_ok, decide_eq_true_eq, h.options, h.count] at hcheck
    obtain ⟨-,hpayload,hcount,-⟩ := hcheck
    rw [h.healthy]
    refine Or.inr ⟨rfl,h.options,rfl,?_,?_,h.slot⟩
    · exact h.file.append ⟨hpayload,hpayload.trans_lt hlimits⟩ hcount
    · simp [h.count]

/-- Marking a clean shutdown writes a slot of the header and nothing else. -/
theorem UsableHeader.markClean {s : PersistentStore} {header rest : ByteString}
    (h : UsableHeader header) (hwritable : s.options.readOnly = false)
    (hfile : s.file = header ++ rest) (now : TimePoint) :
    ∃ written slot recovery, UsableHeader written ∧ slot < 2 ∧ s.markClean now = (.ok (),
      { s with file := written ++ rest, activeSlot := slot, recovery := recovery }) := by
  have hother : (if s.activeSlot = 0 then 1 else 0) < 2 := by split_ifs <;> decide
  have hwritten := UsableHeader.write h.length
    (newSlot_version (s.recovery.headerGeneration + 1) s.recovery.restartCount true
      s.recovery.createdAt now) hother (fun i t hi _ => h.version i t hi)
  let generation := s.recovery.headerGeneration + 1
  refine ⟨_,_,{ s.recovery with headerGeneration := generation, incarnation := ⟨generation⟩ },
    hwritten,hother,?_⟩
  rw [← HeaderSlot.write_append (slot_inside h.length hother), ← hfile]
  unfold PersistentStore.markClean
  rw [hwritable]
  rfl

theorem Holds.markClean {s : PersistentStore} {limits : Limits} {records : List StoredRecord}
    (h : s.Holds limits records) (now : TimePoint) :
    (s.markClean now).1 = .ok () ∧ (s.markClean now).2.Holds limits records := by
  obtain ⟨header,husable,hfile⟩ := h.file.shape
  have hwritable : s.options.readOnly = false := by rw [h.options]
  obtain ⟨written,slot,recovery,hwritten,hslot,hmarked⟩ := husable.markClean hwritable hfile now
  rw [hmarked]
  exact ⟨rfl,h.options,h.healthy,⟨⟨written,hwritten,rfl⟩,h.file.fits,h.file.count⟩,h.count,hslot⟩

end PersistentStore

end PathObservatory
