import PathObservatory.Store.TornTail

/-! # The store object and its compaction

A store object holds a handle that is open or closed. Compaction writes the newest
records to a temporary file, closes the handle, renames the temporary file over the
store and opens it again.
-/
namespace PathObservatory

namespace HeaderSlot

/-- The file after a write of the slot that got no further than some of its bytes. -/
def writePart (s : HeaderSlot) (written : ℕ) (file : ByteString) (index : ℕ) : ByteString :=
  let part := s.bytes.take written
  file.take (index * kStoreHeaderSlotBytes) ++ part ++
    file.drop (index * kStoreHeaderSlotBytes + part.length)

end HeaderSlot

/-- The file operation of a compaction that fails. The seek to the header slot of the
temporary file writes out what is buffered; where only some bytes get there, nobody
looks. A reopen fails to open the file, or to write all bytes of the header slot. -/
inductive CompactionFault
  | openTemporary
  | writeTemporary
  | seekTemporary (written : ℕ)
  | flushTemporary
  | rename (detail : String)
  | reopen (written : Option ℕ)
deriving DecidableEq, Repr

/-- A store whose handle is open or closed. The file of the store is what stands at
its path, whether the handle is open or not. -/
structure StoreObject where
  store : PersistentStore := {}
  isOpen : Bool := false
deriving DecidableEq, Repr

namespace StoreObject
open PersistentStore

def limits (o : StoreObject) : Limits := o.store.options.limits

def close (o : StoreObject) : StoreObject := { o with isOpen := false }

/-- The object without a handle, other contents standing at its path. -/
def closedOver (o : StoreObject) (file : ByteString) : StoreObject where
  store := { o.store with file := file }
  isOpen := false

def append (o : StoreObject) (type : RecordType) (payload : ByteString) : Status × StoreObject :=
  if o.isOpen then
    let result := o.store.append type payload
    (result.1,{ o with store := result.2 })
  else
    (.error { code := .invalidState, message := "append on a closed store" },o)

def readAll (o : StoreObject) : Result (List StoredRecord) :=
  if o.isOpen then o.store.readAll
  else .error { code := .invalidState, message := "read_all on a closed store" }

def markClean (o : StoreObject) (now : TimePoint) : Status × StoreObject :=
  if o.store.options.readOnly then (.ok (),o)
  else if o.isOpen then
    let result := o.store.markClean now
    (result.1,{ o with store := result.2 })
  else
    (.error { code := .invalidState, message := "mark_clean on a closed store" },o)

/-- Open the file at the path of the object. An open that fails leaves no handle. -/
def reopen (o : StoreObject) (options : StoreOptions) (now : TimePoint) : Status × StoreObject :=
  match open_ o.store.path options now (some o.store.file) with
  | (.ok store,_) => (.ok (),{ store := store, isOpen := true })
  | (.error e,left) => (.error e,o.closedOver (left.getD []))

def temporaryPath (o : StoreObject) : String := o.store.path ++ ".compact"

def ioError (what path : String) : Error :=
  { code := .ioFailure, message := what ++ " failed for " ++ path }

/-- The records under sequence numbers that count from one. -/
def renumbered (records : List StoredRecord) : List StoredRecord :=
  numbered (records.map fun r => (r.type,r.payload))

/-- The header slot of the temporary file. -/
def compactedSlot (o : StoreObject) : HeaderSlot :=
  newSlot (o.store.recovery.headerGeneration + 1) o.store.recovery.restartCount false
    o.store.recovery.createdAt o.store.recovery.openedAt

/-- The header slot the reopened store writes. -/
def reopenedSlot (o : StoreObject) : HeaderSlot :=
  newSlot (o.store.recovery.headerGeneration + 1 + 1) (o.store.recovery.restartCount + 1) false
    o.store.recovery.createdAt o.store.recovery.openedAt

/-- What goes to the temporary file before the first slot: a header of zeros and the
records. -/
def unheaded (kept : List StoredRecord) : ByteString :=
  List.replicate kStoreHeaderBytes 0 ++ (renumbered kept).flatMap StoredRecord.bytes

/-- The temporary file, its first slot written last. -/
def compacted (o : StoreObject) (kept : List StoredRecord) : ByteString :=
  o.compactedSlot.write (unheaded kept) 0

/-- The temporary file where the seek to the first slot failed: the buffer is empty
then, and the slot goes where the file ends. -/
def misplaced (o : StoreObject) (kept : List StoredRecord) (written : ℕ) : ByteString :=
  (unheaded kept).take written ++ o.compactedSlot.bytes

/-- Put the kept records in the place of the store. A fault is met by the operation
it names. -/
def replace (o : StoreObject) (kept : List StoredRecord) :
    Option CompactionFault → Status × StoreObject
  | some .openTemporary => (.error (ioError "fopen" o.temporaryPath),o)
  | some .writeTemporary => (.error (ioError "fwrite" o.temporaryPath),o)
  | some (.seekTemporary written) =>
    (o.closedOver (o.misplaced kept written)).reopen o.store.options o.store.recovery.openedAt
  | some .flushTemporary => (.error (ioError "fflush" o.temporaryPath),o)
  | some (.rename detail) =>
    (.error { code := .ioFailure, message := "compaction could not replace the store",
              detail := detail },o.close)
  | some (.reopen none) =>
    (.error (ioError "fopen" o.store.path),o.closedOver (o.compacted kept))
  | some (.reopen (some written)) =>
    (.error (ioError "fflush" o.store.path),
      o.closedOver (o.reopenedSlot.writePart written (o.compacted kept) 1))
  | none =>
    (o.closedOver (o.compacted kept)).reopen o.store.options o.store.recovery.openedAt

/-- How many records a compaction keeps. -/
def keptCount (keepNewest : ℕ) (records : List StoredRecord) : ℕ :=
  if keepNewest = 0 then 0 else min keepNewest records.length

/-- The records a compaction keeps. -/
def newestOf (keepNewest : ℕ) (records : List StoredRecord) : List StoredRecord :=
  records.drop (records.length - keptCount keepNewest records)

/-- Keep the newest records only. -/
def compact (o : StoreObject) (keepNewest : ℕ) (fault : Option CompactionFault) :
    Result ℕ × StoreObject :=
  if o.store.options.readOnly then
    (.error { code := .readOnlyStore, message := "compaction of a read only store" },o)
  else
    match o.readAll with
    | .error e => (.error e,o)
    | .ok records =>
      let replaced := o.replace (newestOf keepNewest records) fault
      (replaced.1.map fun _ => keptCount keepNewest records,replaced.2)

/-- What an owner does with a store object. It lets go of the handle before it opens
the store again. -/
inductive Operation
  | open_ (options : StoreOptions) (now : TimePoint)
  | append (type : RecordType) (payload : ByteString) (fault : Option ℕ)
  | markClean (now : TimePoint)
  | compact (keepNewest : ℕ) (fault : Option CompactionFault)
  | close
deriving DecidableEq, Repr

/-- An append whose write fails after some bytes, if there is a fault. -/
def attempt (o : StoreObject) (type : RecordType) (payload : ByteString) (fault : Option ℕ) :
    Status × StoreObject :=
  let result := { o with store := { o.store with faults := [fault] } }.append type payload
  (result.1,{ result.2 with store := { result.2.store with faults := [] } })

/-- The object after an operation, whether it succeeded or not. -/
def perform (o : StoreObject) : Operation → StoreObject
  | .open_ options now => (o.reopen options now).2
  | .append type payload fault => (o.attempt type payload fault).2
  | .markClean now => (o.markClean now).2
  | .compact keepNewest fault => (o.compact keepNewest fault).2
  | .close => o.close

def performAll (o : StoreObject) (operations : List Operation) : StoreObject :=
  operations.foldl perform o

/-- The store objects an owner can come to, whatever the file was in the beginning. -/
inductive Reachable : StoreObject → Prop
  | opened {path : String} {options : StoreOptions} {now : TimePoint}
      {content : Option ByteString} {s : PersistentStore}
      (h : (open_ path options now content).1 = .ok s) :
      Reachable { store := s, isOpen := true }
  | performed {o : StoreObject} (h : Reachable o) (operation : Operation) :
      Reachable (o.perform operation)

end StoreObject

end PathObservatory
