import PathObservatory.Foundation.Canonical
import PathObservatory.Foundation.Limits
import PathObservatory.Foundation.Time

/-! # The persistent store

A file of two alternating header slots and length prefixed records, checksummed
in header and payload. Opening reads the newer valid slot, writes the other one
and validates the records one at a time; the first invalid record cuts the file
at its boundary.
-/
namespace PathObservatory

def kStoreHeaderSlotBytes : ℕ := 64
def kStoreHeaderBytes : ℕ := kStoreHeaderSlotBytes * 2
def kStoreRecordHeaderBytes : ℕ := 32

def kMagic : ByteString := [0x50,0x41,0x54,0x48,0x4f,0x42,0x53,0x01]
def kEndianMarker : UInt32 := 0x01020304
def kFlagCleanShutdown : UInt32 := 0x00000001
def kStoreFormatVersion : UInt32 := 1

inductive RecordType
  | source
  | topologyGeneration
  | routeGeneration
  | evidence
  | comparison
  | finding
  | marker
deriving DecidableEq, Repr, Inhabited

namespace RecordType

def toUInt16 : RecordType → UInt16
  | source => 1
  | topologyGeneration => 2
  | routeGeneration => 3
  | evidence => 4
  | comparison => 5
  | finding => 6
  | marker => 7

def toString : RecordType → String
  | source => "source"
  | topologyGeneration => "topology_generation"
  | routeGeneration => "route_generation"
  | evidence => "evidence"
  | comparison => "comparison"
  | finding => "finding"
  | marker => "marker"

def parse (raw : UInt16) : Result RecordType :=
  match raw with
  | 1 => .ok source
  | 2 => .ok topologyGeneration
  | 3 => .ok routeGeneration
  | 4 => .ok evidence
  | 5 => .ok comparison
  | 6 => .ok finding
  | 7 => .ok marker
  | _ => .error { code := .invalidFormat, message := "unknown record type",
                  detail := ToString.toString raw.toNat }

theorem parse_toUInt16 (type : RecordType) : parse type.toUInt16 = .ok type := by
  cases type <;> rfl

end RecordType

structure StoredRecord where
  type : RecordType := .marker
  sequence : UInt64 := 0
  payload : ByteString := []
deriving DecidableEq, Repr

def getU16 (data : ByteString) (offset : ℕ) : UInt16 :=
  UInt16.ofNat (LittleEndian.ofBytes ((data.drop offset).take 2))

def getU32 (data : ByteString) (offset : ℕ) : UInt32 :=
  UInt32.ofNat (LittleEndian.ofBytes ((data.drop offset).take 4))

def getU64 (data : ByteString) (offset : ℕ) : UInt64 :=
  UInt64.ofNat (LittleEndian.ofBytes ((data.drop offset).take 8))

/-- A header slot that passed its checks. -/
structure HeaderSlot where
  formatVersion : UInt32 := 0
  flags : UInt32 := 0
  created : TimePoint := {}
  opened : TimePoint := {}
  restartCount : UInt32 := 0
  generation : UInt64 := 0
deriving DecidableEq, Repr

namespace HeaderSlot

/-- The bytes of a slot that its checksum covers. -/
def covered (s : HeaderSlot) : ByteString :=
  kMagic ++
  CanonicalWriter.u32 s.formatVersion ++
  CanonicalWriter.u32 (UInt32.ofNat kStoreHeaderSlotBytes) ++
  CanonicalWriter.u32 kEndianMarker ++
  CanonicalWriter.u32 s.flags ++
  CanonicalWriter.i64 s.created.unixNanos ++
  CanonicalWriter.i64 s.opened.unixNanos ++
  CanonicalWriter.u32 s.restartCount ++
  CanonicalWriter.u32 0 ++
  CanonicalWriter.u64 s.generation

def bytes (s : HeaderSlot) : ByteString :=
  s.covered ++ CanonicalWriter.u32 (crc32c s.covered) ++ CanonicalWriter.u32 0

/-- The slot at the given index, if it is valid. -/
def read (file : ByteString) (index : ℕ) : Option HeaderSlot :=
  let slot := (file.drop (index * kStoreHeaderSlotBytes)).take kStoreHeaderSlotBytes
  if slot.length ≠ kStoreHeaderSlotBytes then none
  else if slot.take kMagic.length ≠ kMagic then none
  else if getU32 slot 12 ≠ UInt32.ofNat kStoreHeaderSlotBytes then none
  else if getU32 slot 16 ≠ kEndianMarker then none
  else if getU32 slot 56 ≠ crc32c (slot.take 56) then none
  else
    some { formatVersion := getU32 slot 8, flags := getU32 slot 20,
           created := ⟨(getU64 slot 24).toInt64⟩, opened := ⟨(getU64 slot 32).toInt64⟩,
           restartCount := getU32 slot 40, generation := getU64 slot 48 }

/-- Overwrite one slot of the file. -/
def write (s : HeaderSlot) (file : ByteString) (index : ℕ) : ByteString :=
  file.take (index * kStoreHeaderSlotBytes) ++ s.bytes ++
    file.drop ((index + 1) * kStoreHeaderSlotBytes)

end HeaderSlot

namespace StoredRecord

/-- The part of a record header that its checksum covers. -/
def covered (r : StoredRecord) : ByteString :=
  CanonicalWriter.u32 (UInt32.ofNat r.payload.length) ++
  CanonicalWriter.u16 r.type.toUInt16 ++ [0,0] ++
  CanonicalWriter.u64 r.sequence ++
  CanonicalWriter.u32 (crc32c r.payload)

/-- `write_record_header`. -/
def header (r : StoredRecord) : ByteString :=
  r.covered ++ CanonicalWriter.u32 (crc32c r.covered) ++ CanonicalWriter.u64 0

def bytes (r : StoredRecord) : ByteString := r.header ++ r.payload

end StoredRecord

/-- The fields of a record header as they stand in a file. -/
structure RecordHeader where
  payloadBytes : ℕ
  typeRaw : UInt16
  sequence : UInt64
  payloadCrc : UInt32
  headerCrc : UInt32
  computedCrc : UInt32
deriving DecidableEq, Repr

def RecordHeader.read (data : ByteString) : RecordHeader where
  payloadBytes := (getU32 data 0).toNat
  typeRaw := getU16 data 4
  sequence := getU64 data 8
  payloadCrc := getU32 data 16
  headerCrc := getU32 data 20
  computedCrc := crc32c (data.take 20)

structure RecoveryReport where
  created : Bool := false
  usedSecondaryHeaderSlot : Bool := false
  uncleanPreviousShutdown : Bool := false
  corruptTailTruncated : Bool := false
  truncateOffset : ℕ := 0
  truncateDetail : String := ""
  validRecords : ℕ := 0
  bytes : ℕ := 0
  restartCount : UInt32 := 0
  headerGeneration : UInt64 := 0
  incarnation : StoreIncarnationId := {}
  createdAt : TimePoint := {}
  openedAt : TimePoint := {}
deriving DecidableEq, Repr

structure StoreOptions where
  limits : Limits := {}
  readOnly : Bool := false
deriving DecidableEq, Repr

structure PersistentStore where
  path : String := ""
  options : StoreOptions := {}
  /-- The contents of the file. -/
  file : ByteString := []
  /-- How many bytes of the coming records reach the file before a write of them
  fails; where nothing is planned writes succeed. -/
  faults : List (Option ℕ) := []
  recovery : RecoveryReport := {}
  recordCount : ℕ := 0
  sizeBytes : ℕ := 0
  nextSequence : UInt64 := 1
  activeSlot : ℕ := 0
deriving DecidableEq, Repr

namespace PersistentStore

/-- How many records are valid, and where and why the valid part ends if it ends
before the file does. -/
structure Scan where
  valid : ℕ := 0
  tail : Option (ℕ × String) := none
deriving DecidableEq, Repr

/-- A record that does not validate ends the scan, or fails it when the file may
not be cut. -/
def endScan (truncate : Bool) (valid offset : ℕ) (detail : String) (error : Error) :
    Result Scan :=
  if truncate then .ok { valid := valid, tail := some (offset,detail) } else .error error

def recordIsValid (limits : Limits) (header : RecordHeader) (rest : ByteString) : Bool :=
  header.headerCrc = header.computedCrc &&
  header.payloadBytes ≤ limits.maxStoreRecordBytes &&
  (RecordType.parse header.typeRaw).toBool &&
  header.payloadBytes ≤ rest.length &&
  crc32c (rest.take header.payloadBytes) = header.payloadCrc

/-- Validate the records of the rest of a file. A record has more bytes than one,
so the length of the rest bounds the number of rounds. -/
def scanFrom (limits : Limits) (truncate : Bool) : ℕ → ByteString → ℕ → ℕ → Result Scan
  | 0, _, valid, _ => .ok { valid := valid }
  | rounds + 1, data, valid, offset =>
    if data = [] then .ok { valid := valid }
    else if data.length < kStoreRecordHeaderBytes then
      endScan truncate valid offset "store ends inside a record header"
        { code := .truncatedInput, message := "store ends inside a record header" }
    else
      let header := RecordHeader.read (data.take kStoreRecordHeaderBytes)
      let rest := data.drop kStoreRecordHeaderBytes
      if recordIsValid limits header rest then do
        require (valid + 1 ≤ limits.maxStoreRecords)
          { code := .capacityExceeded,
            message := "store holds more records than the configured bound" }
        scanFrom limits truncate rounds (rest.drop header.payloadBytes) (valid + 1)
          (offset + kStoreRecordHeaderBytes + header.payloadBytes)
      else
        endScan truncate valid offset "record failed its integrity check"
          { code := .corruptStore, message := "store contains an invalid record",
            detail := "offset " ++ toString offset }

def scan (limits : Limits) (truncate : Bool) (file : ByteString) : Result Scan :=
  let data := file.drop kStoreHeaderBytes
  scanFrom limits truncate data.length data 0 kStoreHeaderBytes

/-- The slot a store is opened from: the newer valid one. -/
def chooseSlot (primary secondary : Option HeaderSlot) : Option (HeaderSlot × ℕ) :=
  match primary, secondary with
  | some p, some s => if p.generation ≤ s.generation then some (s,1) else some (p,0)
  | some p, none => some (p,0)
  | none, some s => some (s,1)
  | none, none => none

/-- The file after its header was read and, unless read only, written. -/
structure OpenedHeader where
  file : ByteString
  recovery : RecoveryReport
  activeSlot : ℕ
deriving DecidableEq, Repr

def newSlot (generation : UInt64) (restartCount : UInt32) (clean : Bool)
    (created opened : TimePoint) : HeaderSlot where
  formatVersion := kStoreFormatVersion
  flags := if clean then kFlagCleanShutdown else 0
  created := created
  opened := opened
  restartCount := restartCount
  generation := generation

/-- A file shorter than a header becomes a new store. -/
def createHeader (now : TimePoint) : OpenedHeader where
  file := (newSlot 1 0 false now now).write (List.replicate kStoreHeaderBytes 0) 0
  recovery := { created := true, createdAt := now, openedAt := now, headerGeneration := 1 }
  activeSlot := 0

/-- Reopen from a valid slot; a writable store writes the other one. -/
def reopenHeader (readOnly : Bool) (now : TimePoint) (file : ByteString) (chosen : HeaderSlot)
    (slot : ℕ) (secondaryOnly : Bool) : OpenedHeader :=
  let recovery : RecoveryReport :=
    { usedSecondaryHeaderSlot := secondaryOnly, createdAt := chosen.created, openedAt := now,
      uncleanPreviousShutdown := chosen.flags &&& kFlagCleanShutdown = 0 }
  if readOnly then
    { file := file, activeSlot := slot,
      recovery := { recovery with restartCount := chosen.restartCount,
                                  headerGeneration := chosen.generation } }
  else
    let other := if slot = 0 then 1 else 0
    { file := (newSlot (chosen.generation + 1) (chosen.restartCount + 1) false chosen.created
        now).write file other
      activeSlot := other
      recovery := { recovery with restartCount := chosen.restartCount + 1,
                                  headerGeneration := chosen.generation + 1 } }

def openHeader (readOnly : Bool) (now : TimePoint) (file : ByteString) : Result OpenedHeader :=
  if file.length < kStoreHeaderBytes then do
    require (¬ readOnly)
      { code := .corruptStore, message := "store is too short to contain a header" }
    return createHeader now
  else
    match chooseSlot (HeaderSlot.read file 0) (HeaderSlot.read file 1) with
    | none =>
      .error { code := .corruptStore,
               message := "neither header slot is valid; refusing to guess at the store contents" }
    | some (chosen,slot) => do
      require (chosen.formatVersion = kStoreFormatVersion)
        { code := .unsupportedVersion, message := "store format version is not supported",
          detail := toString chosen.formatVersion.toNat }
      return reopenHeader readOnly now file chosen slot (HeaderSlot.read file 0).isNone

/-- The store of an opened header whose records were scanned. -/
def ofScan (path : String) (options : StoreOptions) (header : OpenedHeader) (found : Scan) :
    PersistentStore :=
  let file := match found.tail with
    | none => header.file
    | some (offset,_) => header.file.take offset
  { path := path
    options := options
    file := file
    recordCount := found.valid
    sizeBytes := file.length
    nextSequence := UInt64.ofNat found.valid + 1
    activeSlot := header.activeSlot
    recovery := { header.recovery with
      incarnation := ⟨if header.recovery.headerGeneration = 0 then 1
        else header.recovery.headerGeneration⟩
      corruptTailTruncated := found.tail.isSome
      truncateOffset := (found.tail.map (·.1)).getD 0
      truncateDetail := (found.tail.map (·.2)).getD ""
      validRecords := found.valid
      bytes := file.length } }

/-- Open the store whose file has the given contents. Returns the contents the
file is left with. -/
def open_ (path : String) (options : StoreOptions) (now : TimePoint)
    (content : Option ByteString) : Result PersistentStore × Option ByteString :=
  match options.limits.validate, now.isSet, content, options.readOnly with
  | .error e, _, _, _ => (.error e,content)
  | .ok (), false, _, _ =>
    (.error { code := .invalidArgument,
              message := "opening a store requires an evaluation time" },content)
  | .ok (), true, none, true =>
    (.error { code := .ioFailure, message := "fopen failed for " ++ path },none)
  | .ok (), true, content, readOnly =>
    match openHeader readOnly now (content.getD []) with
    | .error e => (.error e,some (content.getD []))
    | .ok header =>
      match scan options.limits (!readOnly) header.file with
      | .error e => (.error e,some header.file)
      | .ok found =>
        let store := ofScan path options header found
        (.ok store,some store.file)

def checkAppend (s : PersistentStore) (payload : ByteString) : Status := do
  require (¬ s.options.readOnly)
    { code := .readOnlyStore, message := "append on a read only store" }
  require (payload.length ≤ s.options.limits.maxStoreRecordBytes)
    { code := .capacityExceeded, message := "record exceeds the configured record bound" }
  require (s.recordCount + 1 ≤ s.options.limits.maxStoreRecords)
    { code := .capacityExceeded, message := "store has reached its configured record bound" }
  require (s.sizeBytes ≤ s.options.limits.maxStoreBytes ∧
      kStoreRecordHeaderBytes + payload.length ≤ s.options.limits.maxStoreBytes - s.sizeBytes)
    { code := .capacityExceeded, message := "store has reached its configured byte bound" }

def kStreamBufferBytes : ℕ := 4096

/-- How many bytes of a record `fwrite` hands on before the flush: whole buffers, where
the record does not fit into one. -/
def handedOn (length : ℕ) : ℕ :=
  if length ≤ kStreamBufferBytes then 0 else length / kStreamBufferBytes * kStreamBufferBytes

/-- Append one record at the end of the file. A write that fails leaves some of
its bytes behind. -/
def append (s : PersistentStore) (type : RecordType) (payload : ByteString) :
    Status × PersistentStore :=
  match s.checkAppend payload with
  | .error e => (.error e,s)
  | .ok () =>
    let record : StoredRecord := { type := type, sequence := s.nextSequence, payload := payload }
    match s.faults with
    | some written :: faults =>
      (.error { code := .ioFailure,
                message := (if written < handedOn record.bytes.length then "fwrite" else "fflush") ++
                  " failed for " ++ s.path },
        { s with file := s.file ++ record.bytes.take written, faults := faults })
    | faults =>
      (.ok (),
        { s with
          file := s.file ++ record.bytes
          faults := faults.tail
          recordCount := s.recordCount + 1
          sizeBytes := s.sizeBytes + (kStoreRecordHeaderBytes + payload.length)
          nextSequence := s.nextSequence + 1 })

/-- The store has no room for the payload, or the write of its record fails. -/
def Refuses (s : PersistentStore) (payload : ByteString) : Prop :=
  (∃ e, s.checkAppend payload = .error e) ∨ ∃ written faults, s.faults = some written :: faults

theorem append_eq_error_iff {s : PersistentStore} {type : RecordType} {payload : ByteString} :
    (∃ e, (s.append type payload).1 = .error e) ↔ s.Refuses payload := by
  unfold append Refuses
  cases hcheck : s.checkAppend payload with
  | error e => simp
  | ok _ =>
    cases hfaults : s.faults with
    | nil => simp
    | cons fault faults => cases fault <;> simp

/-- Read and validate the records of the rest of a file. -/
def readFrom (limits : Limits) : ℕ → ByteString → ℕ → Result (List StoredRecord)
  | 0, _, _ => .ok []
  | rounds + 1, data, held =>
    if data = [] then .ok []
    else do
      require (kStoreRecordHeaderBytes ≤ data.length)
        { code := .truncatedInput, message := "store ends inside a record header" }
      let header := RecordHeader.read (data.take kStoreRecordHeaderBytes)
      let rest := data.drop kStoreRecordHeaderBytes
      require (header.computedCrc = header.headerCrc)
        { code := .corruptStore, message := "record header failed its integrity check" }
      require (header.payloadBytes ≤ limits.maxStoreRecordBytes)
        { code := .capacityExceeded, message := "record exceeds the configured record bound" }
      let type ← RecordType.parse header.typeRaw
      require (header.payloadBytes ≤ rest.length)
        { code := .truncatedInput, message := "store ends inside a record payload" }
      let payload := rest.take header.payloadBytes
      require (crc32c payload = header.payloadCrc)
        { code := .corruptStore, message := "record payload failed its integrity check" }
      require (held + 1 ≤ limits.maxStoreRecords)
        { code := .capacityExceeded, message := "store holds more records than the bound" }
      let records ← readFrom limits rounds (rest.drop header.payloadBytes) (held + 1)
      return { type := type, sequence := header.sequence, payload := payload } :: records

def readAll (s : PersistentStore) : Result (List StoredRecord) :=
  let data := s.file.drop kStoreHeaderBytes
  readFrom s.options.limits data.length data 0

/-- Record a clean shutdown in the other header slot. -/
def markClean (s : PersistentStore) (now : TimePoint) : Status × PersistentStore :=
  if s.options.readOnly then (.ok (),s)
  else
    let other := if s.activeSlot = 0 then 1 else 0
    let generation := s.recovery.headerGeneration + 1
    (.ok (),
      { s with
        file := (newSlot generation s.recovery.restartCount true s.recovery.createdAt now).write
          s.file other
        activeSlot := other
        recovery := { s.recovery with headerGeneration := generation,
                                      incarnation := ⟨generation⟩ } })

end PersistentStore

end PathObservatory
