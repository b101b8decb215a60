import PathObservatory.Library.LeadingCell
import PathObservatory.Store.StoreObject

/-! # The alternation of the header slots

The newest header is in one slot, and every write goes to the other one with the next
generation. The bytes of a torn write cost the older header only.
-/
namespace PathObservatory
namespace StoreObject
open PersistentStore LeadingCell
variable {limits : Limits}

theorem read_outside {header : ByteString} (hlength : header.length = kStoreHeaderBytes) {i : ℕ}
    (hi : 2 ≤ i) : HeaderSlot.read header i = none := by
  have hbeyond : header.length ≤ i * kStoreHeaderSlotBytes := by
    rw [hlength, kStoreHeaderBytes, mul_comm kStoreHeaderSlotBytes]
    exact Nat.mul_le_mul_right _ hi
  have hmissing : ((header.drop (i * kStoreHeaderSlotBytes)).take kStoreHeaderSlotBytes).length ≠
      kStoreHeaderSlotBytes := by
    rw [List.drop_of_length_le hbeyond]
    decide
  simp only [HeaderSlot.read, if_pos hmissing]

/-- The slots of a header after one of them was overwritten. -/
theorem read_overwrite {header slot : ByteString} (hlength : header.length = kStoreHeaderBytes)
    (hslot : slot.length = kStoreHeaderSlotBytes) {index : ℕ} (hindex : index < 2) :
    HeaderSlot.read (HeaderSlot.overwrite header index slot) =
      Function.update (HeaderSlot.read header) index
        (HeaderSlot.read (HeaderSlot.overwrite header index slot) index) := by
  funext other
  by_cases hsame : other = index
  · subst hsame
    rw [Function.update_self]
  · rw [Function.update_of_ne hsame]
    exact HeaderSlot.read_congr
      (HeaderSlot.slotAt_overwrite_ne (slot_inside hlength hindex) hslot hsame)

theorem read_write {header : ByteString} (hlength : header.length = kStoreHeaderBytes)
    (s : HeaderSlot) {index : ℕ} (hindex : index < 2) :
    HeaderSlot.read (s.write header index) =
      Function.update (HeaderSlot.read header) index (some s) := by
  have hwritten : HeaderSlot.read (s.write header index) index = some s :=
    HeaderSlot.read_of_slotAt (HeaderSlot.slotAt_write (slot_inside hlength hindex))
  rw [← hwritten]
  exact read_overwrite hlength s.length_bytes hindex

/-- A header whose newest slot is at the given index. -/
structure Alternating (header : ByteString) (slot : ℕ) (newest : HeaderSlot) : Prop where
  length : header.length = kStoreHeaderBytes
  leads : Leads (fun s : HeaderSlot => s.generation.toNat) (HeaderSlot.read header) slot newest
  supported : ∀ i s, HeaderSlot.read header i = some s → s.formatVersion = kStoreFormatVersion

/-- A header over the slot that was not read, and newer than the one that was, is the
newest. -/
theorem alternating_of_rewrite {header : ByteString} (hlength : header.length = kStoreHeaderBytes)
    {slot : ℕ} (hslot : slot < 2) {chosen : HeaderSlot}
    (hread : HeaderSlot.read header slot = some chosen)
    (hchosen : chosen.formatVersion = kStoreFormatVersion) {s : HeaderSlot}
    (hversion : s.formatVersion = kStoreFormatVersion)
    (hnewer : chosen.generation.toNat < s.generation.toNat) {index : ℕ} (hindex : index < 2)
    (hne : index ≠ slot) : Alternating (s.write header index) index s := by
  have hwritten := read_write hlength s hindex
  have hother : ∀ i, i ≠ index → ∀ t, HeaderSlot.read header i = some t → t = chosen := by
    intro i hi t ht
    by_cases hlt : i < 2
    · obtain rfl : i = slot := by omega
      exact Option.some.inj (ht.symm.trans hread)
    · rw [read_outside hlength (not_lt.mp hlt)] at ht
      cases ht
  refine ⟨(HeaderSlot.length_write (slot_inside hlength hindex)).trans hlength,?_,?_⟩
  · rw [hwritten]
    refine leads_update ?_
    intro i hi t ht
    rw [hother i hi t ht]
    exact hnewer
  · intro i t ht
    rw [hwritten] at ht
    by_cases hsame : i = index
    · subst hsame
      rw [Function.update_self] at ht
      rwa [← Option.some.inj ht]
    · rw [Function.update_of_ne hsame] at ht
      rwa [hother i hsame t ht]

namespace Alternating
variable {header : ByteString} {slot : ℕ} {newest : HeaderSlot}

theorem slot_lt (h : Alternating header slot newest) : slot < 2 := by
  by_contra hge
  have hholds := h.leads.holds
  rw [read_outside h.length (not_lt.mp hge)] at hholds
  cases hholds

/-- The other slot. -/
theorem other_slot (h : Alternating header slot newest) :
    (if slot = 0 then 1 else 0) < 2 ∧ (if slot = 0 then 1 else 0) ≠ slot := by
  have hlt := h.slot_lt
  split_ifs <;> omega

theorem usable (h : Alternating header slot newest) : UsableHeader header :=
  ⟨h.length,⟨slot,newest,h.slot_lt,h.leads.holds⟩,fun i s _ => h.supported i s⟩

/-- An open chooses the newest slot. -/
theorem choose (h : Alternating header slot newest) :
    chooseSlot (HeaderSlot.read header 0) (HeaderSlot.read header 1) = some (newest,slot) := by
  have hlt := h.slot_lt
  have hholds := h.leads.holds
  obtain rfl | rfl : slot = 0 ∨ slot = 1 := by omega
  · cases hother : HeaderSlot.read header 1 with
    | none => rw [hholds]; rfl
    | some s =>
      have hbelow := h.leads.below 1 (by decide) s hother
      have hle : ¬ newest.generation ≤ s.generation := by
        rw [UInt64.le_iff_toNat_le]
        exact not_le.mpr hbelow
      rw [hholds, chooseSlot, if_neg hle]
  · cases hother : HeaderSlot.read header 0 with
    | none => rw [hholds]; rfl
    | some s =>
      have hbelow := h.leads.below 0 (by decide) s hother
      have hle : s.generation ≤ newest.generation := by
        rw [UInt64.le_iff_toNat_le]
        exact hbelow.le
      rw [hholds, chooseSlot, if_pos hle]

/-- A newer header in the other slot becomes the newest. -/
theorem write (h : Alternating header slot newest) {s : HeaderSlot}
    (hversion : s.formatVersion = kStoreFormatVersion)
    (hnewer : newest.generation.toNat < s.generation.toNat) {index : ℕ} (hindex : index < 2)
    (hne : index ≠ slot) : Alternating (s.write header index) index s :=
  alternating_of_rewrite h.length h.slot_lt h.leads.holds (h.supported slot newest h.leads.holds)
    hversion hnewer hindex hne

/-- A torn write of the other slot leaves the newest header. -/
theorem tear (h : Alternating header slot newest) {junk : ByteString}
    (hjunk : junk.length = kStoreHeaderSlotBytes) {index : ℕ} (hindex : index < 2)
    (hne : index ≠ slot)
    (htorn : HeaderSlot.read (HeaderSlot.overwrite header index junk) index = none) :
    Alternating (HeaderSlot.overwrite header index junk) slot newest := by
  have hread := read_overwrite h.length hjunk hindex
  rw [htorn] at hread
  refine ⟨(HeaderSlot.length_overwrite (slot_inside h.length hindex) hjunk).trans h.length,?_,?_⟩
  · rw [hread]
    exact h.leads.tear hne
  · intro i t ht
    rw [hread] at ht
    by_cases hsame : i = index
    · subst hsame
      rw [Function.update_self] at ht
      cases ht
    · rw [Function.update_of_ne hsame] at ht
      exact h.supported i t ht

/-- An open reads the newest header. -/
theorem openHeader (h : Alternating header slot newest) (readOnly : Bool) (now : TimePoint)
    (rest : ByteString) : ∃ secondaryOnly,
    openHeader readOnly now (header ++ rest) =
      .ok (reopenHeader readOnly now (header ++ rest) newest slot secondaryOnly) := by
  have hlong : ¬ (header ++ rest).length < kStoreHeaderBytes := by
    rw [List.length_append, h.length]
    omega
  refine ⟨(HeaderSlot.read header 0).isNone,?_⟩
  have hversion := h.supported slot newest h.leads.holds
  rw [PersistentStore.openHeader, if_neg hlong, read_append h.length (by decide),
    read_append h.length (by decide), h.choose]
  simp only [require, decide_eq_true hversion, if_true]
  rfl

end Alternating

/-- A blank header becomes one whose newest slot is the first. -/
theorem alternating_of_blank {s : HeaderSlot} (hversion : s.formatVersion = kStoreFormatVersion) :
    Alternating (s.write (List.replicate kStoreHeaderBytes 0) 0) 0 s := by
  have hlength : (List.replicate kStoreHeaderBytes (0 : UInt8)).length = kStoreHeaderBytes :=
    List.length_replicate
  have hblank : ∀ i, HeaderSlot.read (List.replicate kStoreHeaderBytes 0) i = none := by
    intro i
    by_cases hi : i < 2
    · revert i
      decide
    · exact read_outside hlength (not_lt.mp hi)
  have hread := read_write hlength s Nat.zero_lt_two
  refine ⟨(HeaderSlot.length_write (slot_inside hlength Nat.zero_lt_two)).trans hlength,?_,?_⟩
  · rw [hread]
    refine leads_update ?_
    intro j _ b hb
    rw [hblank] at hb
    cases hb
  · intro i t ht
    rw [hread] at ht
    by_cases hsame : i = 0
    · subst hsame
      rw [Function.update_self] at ht
      rwa [← Option.some.inj ht]
    · rw [Function.update_of_ne hsame, hblank] at ht
      cases ht

/-- A store file: a header whose newest slot is known, and whole records within the
bound. -/
structure StoreFile (limits : Limits) where
  header : ByteString
  first : ByteString
  slot : ℕ
  newest : HeaderSlot
  records : List StoredRecord
  alternating : Alternating header slot newest
  whole : WholeRecords limits first records
  bounded : records.length ≤ limits.maxStoreRecords

namespace StoreFile

def bytes (f : StoreFile limits) : ByteString := f.header ++ f.first

/-- The slot the next header write goes to. -/
def other (f : StoreFile limits) : ℕ := if f.slot = 0 then 1 else 0

/-- The file after a write of a newer header. -/
def rehead (f : StoreFile limits) (s : HeaderSlot)
    (hversion : s.formatVersion = kStoreFormatVersion)
    (hnewer : f.newest.generation.toNat < s.generation.toNat) : StoreFile limits :=
  { f with
    header := s.write f.header f.other
    slot := f.other
    newest := s
    alternating := f.alternating.write hversion hnewer f.alternating.other_slot.1
      f.alternating.other_slot.2 }

/-- The file after a header write that was torn. -/
def tear (f : StoreFile limits) (junk : ByteString) (hjunk : junk.length = kStoreHeaderSlotBytes)
    (htorn : HeaderSlot.read (HeaderSlot.overwrite f.header f.other junk) f.other = none) :
    StoreFile limits :=
  { f with
    header := HeaderSlot.overwrite f.header f.other junk
    alternating := f.alternating.tear hjunk f.alternating.other_slot.1
      f.alternating.other_slot.2 htorn }

/-- The file after an append. -/
def extend (f : StoreFile limits) (r : StoredRecord) (hfits : r.Fits limits)
    (hcount : f.records.length + 1 ≤ limits.maxStoreRecords) : StoreFile limits :=
  { f with
    first := f.first ++ r.bytes
    records := f.records ++ [r]
    whole := f.whole.append (wholeRecords_bytes hfits)
    bounded := by rwa [List.length_append, List.length_singleton] }

/-- A file that was written anew: these records behind a header in the first slot. -/
def fresh (s : HeaderSlot) (hversion : s.formatVersion = kStoreFormatVersion)
    (records : List StoredRecord) (hfits : ∀ r ∈ records, r.Fits limits)
    (hcount : records.length ≤ limits.maxStoreRecords) : StoreFile limits where
  header := s.write (List.replicate kStoreHeaderBytes 0) 0
  first := records.flatMap StoredRecord.bytes
  slot := 0
  newest := s
  records := records
  alternating := alternating_of_blank hversion
  whole := wholeRecords_flatMap hfits
  bounded := hcount

theorem bytes_rehead (f : StoreFile limits) (s : HeaderSlot) (hversion hnewer) :
    (f.rehead s hversion hnewer).bytes = s.write f.bytes f.other :=
  (HeaderSlot.write_append (slot_inside f.alternating.length f.alternating.other_slot.1) _).symm

theorem bytes_tear (f : StoreFile limits) (junk : ByteString) (hjunk htorn) :
    (f.tear junk hjunk htorn).bytes = HeaderSlot.overwrite f.bytes f.other junk :=
  (HeaderSlot.overwrite_append
    (slot_inside f.alternating.length f.alternating.other_slot.1) _).symm

/-- The scan of the file finds its records, whether it may be cut or not. -/
theorem scan (f : StoreFile limits) (truncate : Bool) :
    scan limits truncate f.bytes = .ok { valid := f.records.length } :=
  scan_whole f.alternating.length f.whole f.bounded truncate

theorem readAll {f : StoreFile limits} {s : PersistentStore} (hfile : s.file = f.bytes)
    (hlimits : s.options.limits = limits) : s.readAll = .ok f.records := by
  rw [PersistentStore.readAll, hlimits, hfile, bytes, ← f.alternating.length, List.drop_left]
  exact readFrom_whole f.whole le_rfl ((Nat.zero_add _).trans_le f.bounded)

end StoreFile

/-- An open handle on the file: what it keeps in memory agrees with what the file
holds. -/
structure Handle (s : PersistentStore) (f : StoreFile limits) : Prop where
  options : s.options = { limits := limits }
  healthy : s.faults = []
  file : s.file = f.bytes
  slot : s.activeSlot = f.slot
  generation : s.recovery.headerGeneration = f.newest.generation
  created : s.recovery.createdAt = f.newest.created
  restart : s.recovery.restartCount = f.newest.restartCount
  opened : s.recovery.openedAt.isSet = true
  size : s.sizeBytes = f.bytes.length
  count : s.recordCount = f.records.length

theorem Handle.keeps {s : PersistentStore} {f : StoreFile limits} (h : Handle s f) :
    s.Keeps limits f.first f.records [] where
  options := h.options
  file := ⟨f.header,f.alternating.usable,by rw [h.file, List.append_nil, StoreFile.bytes]⟩
  whole := f.whole
  stub := stub_nil limits
  size := by rw [h.size, StoreFile.bytes, List.length_append, f.alternating.length]
  count := h.count
  bounded := f.bounded

/-- A read only open of the file. -/
theorem StoreFile.open_readOnly (f : StoreFile limits) (hlimits : limits.validate = .ok ())
    {now : TimePoint} (hnow : now.isSet = true) (path : String) :
    ∃ t, open_ path { limits := limits, readOnly := true } now (some f.bytes) =
        (.ok t,some f.bytes) ∧ t.readAll = .ok f.records ∧
      t.recovery.headerGeneration = f.newest.generation ∧
      t.recovery.createdAt = f.newest.created ∧
      t.recovery.restartCount = f.newest.restartCount := by
  obtain ⟨secondaryOnly,hheader⟩ := f.alternating.openHeader true now f.first
  refine ⟨ofScan path { limits := limits, readOnly := true }
    (reopenHeader true now f.bytes f.newest f.slot secondaryOnly) { valid := f.records.length },
    ?_,f.readAll rfl rfl,rfl,rfl,rfl⟩
  have hscan := f.scan false
  unfold bytes at hscan ⊢
  simp only [open_, hlimits, hnow, Option.getD_some, hheader, Bool.not_true]
  rw [show (reopenHeader true now (f.header ++ f.first) f.newest f.slot secondaryOnly).file =
    f.header ++ f.first from rfl, hscan]
  rfl

/-- The header a writable open of the file writes. -/
def StoreFile.opening (f : StoreFile limits) (now : TimePoint) : HeaderSlot :=
  newSlot (f.newest.generation + 1) (f.newest.restartCount + 1) false f.newest.created now

theorem newer_of_short {generation : UInt64} (h : generation.toNat + 1 < 2 ^ 64) :
    generation.toNat < (generation + 1).toNat := by
  rw [UInt64.toNat_add]
  have hsum : (generation.toNat + (1 : UInt64).toNat) % 2 ^ 64 = generation.toNat + 1 :=
    Nat.mod_eq_of_lt h
  omega

/-- The file after a writable open. -/
def StoreFile.opened (f : StoreFile limits) (now : TimePoint)
    (hshort : f.newest.generation.toNat + 1 < 2 ^ 64) : StoreFile limits :=
  f.rehead (f.opening now) (newSlot_version _ _ _ _ _) (newer_of_short hshort)

/-- A writable open of the file. -/
theorem StoreFile.open_writable (f : StoreFile limits) (hlimits : limits.validate = .ok ())
    {now : TimePoint} (hnow : now.isSet = true) (path : String)
    (hshort : f.newest.generation.toNat + 1 < 2 ^ 64) :
    ∃ t, open_ path { limits := limits } now (some f.bytes) = (.ok t,some t.file) ∧
      Handle t (f.opened now hshort) := by
  obtain ⟨secondaryOnly,hheader⟩ := f.alternating.openHeader false now f.first
  have hwritten : (reopenHeader false now f.bytes f.newest f.slot secondaryOnly).file =
      (f.opened now hshort).bytes :=
    (f.bytes_rehead (f.opening now) (newSlot_version _ _ _ _ _) (newer_of_short hshort)).symm
  have hscan := (f.opened now hshort).scan true
  rw [← hwritten] at hscan
  refine ⟨ofScan path { limits := limits } (reopenHeader false now f.bytes f.newest f.slot
    secondaryOnly) { valid := f.records.length },?_,?_⟩
  · unfold StoreFile.bytes at hscan ⊢
    rw [open_of_valid hlimits hnow, hheader]
    simp only [hscan]
    rfl
  · exact ⟨rfl,rfl,hwritten,rfl,rfl,rfl,rfl,hnow,congrArg List.length hwritten,rfl⟩

/-- The header a clean mark of the file writes. -/
def StoreFile.closing (f : StoreFile limits) (now : TimePoint) : HeaderSlot :=
  newSlot (f.newest.generation + 1) f.newest.restartCount true f.newest.created now

/-- The file after a clean mark. -/
def StoreFile.cleaned (f : StoreFile limits) (now : TimePoint)
    (hshort : f.newest.generation.toNat + 1 < 2 ^ 64) : StoreFile limits :=
  f.rehead (f.closing now) (newSlot_version _ _ _ _ _) (newer_of_short hshort)

section Handle
variable {s : PersistentStore} {f : StoreFile limits}

theorem Handle.writable (h : Handle s f) : s.options.readOnly = false := by rw [h.options]

theorem Handle.markClean (h : Handle s f) (now : TimePoint)
    (hshort : f.newest.generation.toNat + 1 < 2 ^ 64) :
    (s.markClean now).1 = .ok () ∧ Handle (s.markClean now).2 (f.cleaned now hshort) := by
  have hbytes : (f.cleaned now hshort).bytes = (f.closing now).write f.bytes f.other :=
    f.bytes_rehead (f.closing now) (newSlot_version _ _ _ _ _) (newer_of_short hshort)
  have hfile : (newSlot (s.recovery.headerGeneration + 1) s.recovery.restartCount true
      s.recovery.createdAt now).write s.file (if s.activeSlot = 0 then 1 else 0) =
      (f.cleaned now hshort).bytes := by
    rw [h.generation, h.restart, h.created, h.file, h.slot, hbytes]
    rfl
  have hlength : (f.cleaned now hshort).bytes.length = f.bytes.length := by
    rw [hbytes]
    refine HeaderSlot.length_write ?_
    rw [StoreFile.bytes, List.length_append]
    exact (slot_inside f.alternating.length f.alternating.other_slot.1).trans
      (Nat.le_add_right _ _)
  unfold PersistentStore.markClean
  rw [h.writable]
  refine ⟨rfl,h.options,h.healthy,hfile,?_,?_,h.created,h.restart,h.opened,?_,h.count⟩
  · exact congrArg (fun slot => if slot = 0 then 1 else 0) h.slot
  · exact congrArg (· + 1) h.generation
  · exact h.size.trans hlength.symm

/-- An append writes one more record or changes nothing. -/
theorem Handle.append_cases (h : Handle s f) (hlimits : limits.maxStoreRecordBytes < 2 ^ 32)
    (type : RecordType) (payload : ByteString) :
    ((∃ e, (s.append type payload).1 = .error e) ∧ (s.append type payload).2 = s) ∨
    ((s.append type payload).1 = .ok () ∧
      ∃ hfits hcount, Handle (s.append type payload).2
        (f.extend { type := type, sequence := s.nextSequence, payload := payload } hfits
          hcount)) := by
  unfold PersistentStore.append
  cases hcheck : s.checkAppend payload with
  | error e => exact Or.inl ⟨⟨e,rfl⟩,rfl⟩
  | ok _ =>
    obtain ⟨hfits,hcount⟩ := h.keeps.fits hlimits hcheck type s.nextSequence
    rw [h.healthy]
    refine Or.inr ⟨rfl,hfits,hcount,h.options,rfl,?_,h.slot,h.generation,h.created,h.restart,
      h.opened,?_,?_⟩
    · simp only [h.file, StoreFile.bytes, StoreFile.extend, List.append_assoc]
    · simp only [h.size, StoreFile.bytes, StoreFile.extend, List.length_append,
        StoredRecord.length_bytes]
      omega
    · simp only [h.count, StoreFile.extend, List.length_append, List.length_singleton]

end Handle

end StoreObject

end PathObservatory
