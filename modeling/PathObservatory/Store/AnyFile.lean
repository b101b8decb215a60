import PathObservatory.Store.Opening

/-! # Opening any file

Opening and reading parse the records of a file separately, and agree on every file.
A writable open takes a file for a new store by its length alone, and rewrites a
header slot before it counts the records.
-/
namespace PathObservatory
namespace PersistentStore
variable {limits : Limits}

/-- A scan that may not cut the file finds whole records only. -/
theorem scan_strict {file : ByteString} {found : Scan} (h : scan limits false file = .ok found) :
    ∃ records, WholeRecords limits (file.drop kStoreHeaderBytes) records ∧
      records.length ≤ limits.maxStoreRecords ∧ found.valid = records.length ∧
      found.tail = none := by
  unfold scan at h
  obtain ⟨first,records,stub,hfile,hwhole,-,hcount,hstrict⟩ :=
    exists_wholeRecords le_rfl (Nat.zero_le _) h
  obtain rfl := hstrict rfl
  rw [List.append_nil] at hfile
  rw [Nat.zero_add] at hcount
  rw [← hfile] at hwhole
  refine ⟨records,hwhole,hcount,?_⟩
  have hscan := scan_dropped hwhole hcount false
  unfold scan at hscan
  rw [hscan] at h
  rw [← Except.ok.inj h]
  exact ⟨rfl,rfl⟩

/-- A read only open takes the file as it is. -/
theorem openHeader_readOnly {now : TimePoint} {file : ByteString} {opened : OpenedHeader}
    (h : openHeader true now file = .ok opened) : opened.file = file := by
  rcases openHeader_eq_ok h with ⟨-,hwritable,-⟩ | ⟨-,chosen,slot,-,-,rfl⟩
  · cases hwritable
  · rfl

/-- What an open that succeeds leaves is the file of the store. -/
theorem left_of_open {path : String} {options : StoreOptions} {now : TimePoint}
    {content : Option ByteString} {s : PersistentStore}
    (h : (open_ path options now content).1 = .ok s) :
    open_ path options now content = (.ok s,some s.file) := by
  unfold open_ at h ⊢
  split at h
  · cases h
  · cases h
  · cases h
  · split at h
    · cases h
    · split at h
      · cases h
      · rw [← Except.ok.inj h]

/-- A read only open that succeeds found whole records, and keeps the file. -/
theorem whole_of_open_readOnly {path : String} {limits : Limits} {now : TimePoint}
    {content : ByteString} {s : PersistentStore}
    (h : (open_ path { limits := limits, readOnly := true } now (some content)).1 = .ok s) :
    ∃ records, s.options.limits = limits ∧ s.file = content ∧
      s.recordCount = records.length ∧ records.length ≤ limits.maxStoreRecords ∧
      WholeRecords limits (content.drop kStoreHeaderBytes) records := by
  obtain ⟨-,header,found,hheader,hfound,hstore⟩ := passed_of_open h
  obtain ⟨records,hwhole,hcount,hvalid,htail⟩ := scan_strict hfound
  have hsame : header.file = content := openHeader_readOnly hheader
  rw [hsame] at hwhole
  rw [hstore]
  refine ⟨records,rfl,?_,hvalid,hcount,hwhole⟩
  rw [ofScan, htail]
  exact hsame

/-- Recovery and reading agree: whatever the file was, a store that opens reads back
exactly the records its recovery counted, and a read only one leaves the file
alone. -/
theorem read_all_agrees_with_recovery {path : String} {options : StoreOptions}
    {now : TimePoint} {content : ByteString} {s : PersistentStore}
    (h : (open_ path options now (some content)).1 = .ok s) :
    ∃ records, s.readAll = .ok records ∧ records.length = s.recovery.validRecords ∧
      s.recordCount = s.recovery.validRecords ∧
      (options.readOnly = true →
        s.file = content ∧ open_ path options now (some content) = (.ok s,some content)) := by
  obtain ⟨limits,readOnly⟩ := options
  obtain ⟨-,header,found,hheader,hfound,hstore⟩ := passed_of_open h
  have hcounted : s.recordCount = s.recovery.validRecords := by rw [hstore]; rfl
  cases readOnly with
  | false =>
    obtain ⟨-,first,records,hkeeps⟩ := keeps_of_open h
    refine ⟨records,hkeeps.readAll,?_,hcounted,?_⟩
    · rw [← hcounted, hkeeps.count]
    · intro hreadOnly
      cases hreadOnly
  | true =>
    obtain ⟨records,hlimits,hfile,hvalid,hcount,hwhole⟩ := whole_of_open_readOnly h
    have hread : s.readAll = .ok records := by
      rw [readAll, hlimits, hfile]
      exact readFrom_whole hwhole le_rfl ((Nat.zero_add _).trans_le hcount)
    refine ⟨records,hread,hvalid.symm.trans hcounted,hcounted,fun _ => ⟨hfile,?_⟩⟩
    rw [left_of_open h, hfile]

/-- A new store with one record. -/
def markedFile : ByteString :=
  (createHeader ⟨1⟩).file ++
    StoredRecord.bytes { type := .marker, sequence := 1, payload := [1,2,3] }

theorem read_all_agrees_read_only : ∃ s records,
    (open_ "store" { readOnly := true } ⟨2⟩ (some markedFile)).1 = .ok s ∧
      s.readAll = .ok records ∧ records.length = s.recovery.validRecords ∧
      s.recordCount = s.recovery.validRecords ∧ s.file = markedFile := by
  have hevaluated : ((open_ "store" { readOnly := true } ⟨2⟩ (some markedFile)).1).toBool =
      true := by decide +kernel
  cases hopen : (open_ "store" { readOnly := true } ⟨2⟩ (some markedFile)).1 with
  | error e =>
    rw [hopen] at hevaluated
    cases hevaluated
  | ok s =>
    obtain ⟨records,hread,hlength,hcount,hfile⟩ := read_all_agrees_with_recovery hopen
    exact ⟨s,records,rfl,hread,hlength,hcount,(hfile rfl).1⟩

section Refusal

/-- One of the header slots of the content is valid. -/
def HasValidSlot (content : ByteString) : Prop :=
  (HeaderSlot.read content 0).isSome ∨ (HeaderSlot.read content 1).isSome

instance (content : ByteString) : Decidable (HasValidSlot content) :=
  inferInstanceAs (Decidable (_ ∨ _))

/-- A writable open that succeeds found a valid header slot, and one that does not
leaves the file alone. -/
def RefusesOthers (path : String) (limits : Limits) (now : TimePoint) (content : ByteString) :
    Prop :=
  match open_ path { limits := limits } now (some content) with
  | (.ok _,_) => HasValidSlot content
  | (.error _,left) => left = some content

/-- The content is too short for a header and its first slot is not valid. -/
def Headless (content : ByteString) : Prop :=
  content.length < kStoreHeaderBytes ∧ HeaderSlot.read content 0 = none

/-- Behind the header stand more whole valid records than the bound allows. -/
def Overfull (limits : Limits) (content : ByteString) : Prop :=
  ∃ first rest records, content.drop kStoreHeaderBytes = first ++ rest ∧
    WholeRecords limits first records ∧ limits.maxStoreRecords < records.length

/-- A supported slot is chosen, and the other one does not hold yet what a writable
open writes there. -/
def Reheaded (now : TimePoint) (content : ByteString) : Prop :=
  ∃ chosen slot, chooseSlot (HeaderSlot.read content 0) (HeaderSlot.read content 1) =
      some (chosen,slot) ∧ chosen.formatVersion = kStoreFormatVersion ∧
    HeaderSlot.slotAt content (if slot = 0 then 1 else 0) ≠
      (newSlot (chosen.generation + 1) (chosen.restartCount + 1) false chosen.created now).bytes

/-- Whole records stand before a stub in one way, so bytes begin with no more of them
than stand before the stub. -/
theorem WholeRecords.length_le_of_stubbed {first rest other stub : ByteString}
    {records all : List StoredRecord} (h : WholeRecords limits first records)
    (k : WholeRecords limits other all) (hstub : Stub limits stub)
    (heq : first ++ rest = other ++ stub) : records.length ≤ all.length := by
  induction h generalizing other all with
  | nil => exact Nat.zero_le _
  | @cons header payload tail type records hheader hlength hvalid htype hrest ih =>
    rw [List.append_assoc, List.append_assoc] at heq
    obtain ⟨-,hlong,htake,hdrop⟩ := front_cases payload hheader (tail ++ rest)
    cases k with
    | nil =>
      rw [List.nil_append] at heq
      rw [← heq] at hstub
      rcases hstub with hshort | hinvalid
      · exact absurd hshort (not_lt.mpr hlong)
      · rw [htake, hdrop, recordIsValid_append hlength, hvalid] at hinvalid
        cases hinvalid
    | @cons header' payload' tail' type' all' hheader' hlength' hvalid' htype' hrest' =>
      rw [List.append_assoc, List.append_assoc] at heq
      obtain ⟨rfl,hbehind⟩ := List.append_inj heq (hheader.trans hheader'.symm)
      obtain ⟨-,hbehind⟩ := List.append_inj hbehind (hlength.symm.trans hlength')
      have hle := ih hrest' hbehind
      rw [List.length_cons, List.length_cons]
      omega

/-- A scan that may cut the file fails only over the bound on its records. -/
theorem exists_of_scanFrom_error {rounds : ℕ} {data : ByteString} {valid offset : ℕ}
    {error : Error} (hrounds : data.length ≤ rounds)
    (h : scanFrom limits true rounds data valid offset = .error error) :
    ∃ first rest records, data = first ++ rest ∧ WholeRecords limits first records ∧
      limits.maxStoreRecords < valid + records.length := by
  induction rounds generalizing data valid offset with
  | zero => cases h
  | succ rounds ih =>
    by_cases hstub : Stub limits data
    · obtain ⟨detail,hscan⟩ := scanFrom_stub hstub hrounds valid offset
      rw [hscan] at h
      cases h
    · obtain ⟨hlong,hfront⟩ := not_or.mp hstub
      obtain ⟨header,payload,rest,type,rfl,hheader,hlength,hrecord,htype⟩ :=
        exists_front hlong (Bool.not_eq_false _ ▸ hfront)
      by_cases hcount : valid + 1 ≤ limits.maxStoreRecords
      · rw [scanFrom_front hheader hlength hrecord true rounds rest hcount] at h
        rw [List.length_append, List.length_append, hheader, kStoreRecordHeaderBytes] at hrounds
        obtain ⟨first,behind,records,rfl,hwhole,hmany⟩ := ih (by omega) h
        refine ⟨_,behind,_,?_,.cons hheader hlength hrecord htype hwhole,?_⟩
        · simp only [List.append_assoc]
        · rw [List.length_cons]
          omega
      · refine ⟨_,rest,_,?_,.cons hheader hlength hrecord htype .nil,?_⟩
        · simp only [List.append_assoc, List.nil_append]
        · rw [List.length_singleton]
          omega

/-- Too many records fail a scan, whether the file may be cut or not. -/
theorem scan_fails_of_overfull {file : ByteString} (h : Overfull limits file) (truncate : Bool) :
    ∃ e, scan limits truncate file = .error e := by
  obtain ⟨first,rest,records,hfile,hwhole,hmany⟩ := h
  cases hscan : scan limits truncate file with
  | error e => exact ⟨e,rfl⟩
  | ok found =>
    obtain ⟨other,all,stub,hother,hall,hstub,hcount,-⟩ :=
      exists_wholeRecords le_rfl (Nat.zero_le _) hscan
    have hle := hwhole.length_le_of_stubbed hall hstub (hfile.symm.trans hother)
    omega

theorem scan_error_iff {file : ByteString} :
    (∃ e, scan limits true file = .error e) ↔ Overfull limits file := by
  constructor
  · rintro ⟨e,herror⟩
    obtain ⟨first,rest,records,hfile,hwhole,hmany⟩ := exists_of_scanFrom_error le_rfl herror
    rw [Nat.zero_add] at hmany
    exact ⟨first,rest,records,hfile,hwhole,hmany⟩
  · exact fun h => scan_fails_of_overfull h true

theorem drop_write {s : HeaderSlot} {file : ByteString}
    (hlong : kStoreHeaderBytes ≤ file.length) {index : ℕ} (hindex : index < 2) :
    (s.write file index).drop kStoreHeaderBytes = file.drop kStoreHeaderBytes := by
  obtain ⟨header,rest,rfl,hheader⟩ := exists_header hlong
  have hinside := slot_inside hheader hindex
  rw [HeaderSlot.write_append hinside, List.drop_left' hheader,
    List.drop_left' ((HeaderSlot.length_write hinside).trans hheader)]

theorem write_eq_self_iff {s : HeaderSlot} {file : ByteString} {index : ℕ}
    (hinside : (index + 1) * kStoreHeaderSlotBytes ≤ file.length) :
    s.write file index = file ↔ HeaderSlot.slotAt file index = s.bytes := by
  constructor
  · intro h
    have hwritten := HeaderSlot.slotAt_write (s := s) hinside
    rwa [h] at hwritten
  · intro h
    have hbehind : file.drop ((index + 1) * kStoreHeaderSlotBytes) =
        (file.drop (index * kStoreHeaderSlotBytes)).drop kStoreHeaderSlotBytes := by
      rw [List.drop_drop, add_mul, one_mul]
    unfold HeaderSlot.slotAt at h
    rw [HeaderSlot.write, ← h, hbehind, List.append_assoc, List.take_append_drop,
      List.take_append_drop]

/-- The header of a long enough file is refused, or one slot of it is written. -/
theorem openHeader_cases (now : TimePoint) {content : ByteString}
    (hlong : kStoreHeaderBytes ≤ content.length) :
    ((∃ e, openHeader false now content = .error e) ∧ ¬ Reheaded now content) ∨
    (∃ opened, openHeader false now content = .ok opened ∧ HasValidSlot content ∧
      opened.file.drop kStoreHeaderBytes = content.drop kStoreHeaderBytes ∧
      (opened.file ≠ content ↔ Reheaded now content)) := by
  rw [openHeader, if_neg (not_lt.mpr hlong)]
  cases hchoose : chooseSlot (HeaderSlot.read content 0) (HeaderSlot.read content 1) with
  | none =>
    refine Or.inl ⟨⟨_,rfl⟩,?_⟩
    rintro ⟨chosen,slot,hchosen,-⟩
    rw [hchoose] at hchosen
    cases hchosen
  | some entry =>
    obtain ⟨chosen,slot⟩ := entry
    by_cases hversion : chosen.formatVersion = kStoreFormatVersion
    · have hvalid : HasValidSlot content := by
        rcases chooseSlot_cases hchoose with ⟨-,hread⟩ | ⟨-,hread⟩
        · exact Or.inl (by rw [hread]; rfl)
        · exact Or.inr (by rw [hread]; rfl)
      have hother : (if slot = 0 then 1 else 0) < 2 := by split_ifs <;> decide
      have hinside : ((if slot = 0 then 1 else 0) + 1) * kStoreHeaderSlotBytes ≤
          content.length := (Nat.mul_le_mul_right _ hother).trans hlong
      refine Or.inr ⟨reopenHeader false now content chosen slot
        (HeaderSlot.read content 0).isNone,?_,hvalid,drop_write hlong hother,
        (write_eq_self_iff hinside).not.trans ?_⟩
      · simp only [require, decide_eq_true hversion, if_true]
        rfl
      constructor
      · intro hchanged
        exact ⟨chosen,slot,hchoose,hversion,hchanged⟩
      · rintro ⟨other,index,hother,-,hchanged⟩
        rw [hchoose] at hother
        cases hother
        exact hchanged
    · refine Or.inl ⟨⟨_,by simp only [require, decide_eq_false hversion]; rfl⟩,?_⟩
      rintro ⟨other,index,hother,hsupported,-⟩
      rw [hchoose] at hother
      cases hother
      exact hversion hsupported

/-- A file shorter than a header becomes a new store. -/
theorem open_short (hlimits : limits.validate = .ok ()) {now : TimePoint}
    (hnow : now.isSet = true) (path : String) {content : ByteString}
    (hshort : ¬ kStoreHeaderBytes ≤ content.length) :
    open_ path { limits := limits } now (some content) =
      (.ok (ofScan path { limits := limits } (createHeader now) {}),
        some (createHeader now).file) := by
  have hheader : openHeader false now content = .ok (createHeader now) := by
    rw [openHeader, if_pos (not_le.mp hshort)]
    rfl
  rw [open_of_valid hlimits hnow, hheader]
  simp only [(createHeader_holds limits now).scan]
  rfl

/-- A short file has no second slot. -/
theorem read_short {content : ByteString} (hshort : ¬ kStoreHeaderBytes ≤ content.length) :
    HeaderSlot.read content 1 = none := by
  have hmissing : ((content.drop (1 * kStoreHeaderSlotBytes)).take
      kStoreHeaderSlotBytes).length ≠ kStoreHeaderSlotBytes := by
    rw [List.length_take, List.length_drop]
    simp only [kStoreHeaderBytes] at hshort
    omega
  simp only [HeaderSlot.read, if_pos hmissing]

theorem headless_iff {content : ByteString} (hshort : ¬ kStoreHeaderBytes ≤ content.length) :
    Headless content ↔ ¬ HasValidSlot content := by
  rw [Headless, HasValidSlot, read_short hshort]
  simp [not_le.mp hshort]

/-- A writable open refuses what is not a store and leaves it alone, except that it
makes a new store of a short file without a first slot, and writes the header of one
that holds too many records before it refuses it. -/
theorem open_refuses_iff {path : String} {now : TimePoint} {content : ByteString} :
    RefusesOthers path limits now content ↔
      (limits.validate = .ok () → now.isSet = true →
        ¬ Headless content ∧ ¬ (Reheaded now content ∧ Overfull limits content)) := by
  by_cases harguments : limits.validate = .ok () ∧ now.isSet = true
  · obtain ⟨hlimits,hnow⟩ := harguments
    simp only [hlimits, hnow, forall_const]
    by_cases hlong : kStoreHeaderBytes ≤ content.length
    · have hheaded : ¬ Headless content := fun h => absurd hlong (not_le.mpr h.1)
      rw [RefusesOthers, open_of_valid hlimits hnow]
      rcases openHeader_cases now hlong with
        ⟨⟨e,herror⟩,hkept⟩ | ⟨opened,hopened,hvalid,hdrop,hchanged⟩
      · simp only [herror]
        exact ⟨fun _ => ⟨hheaded,fun h => hkept h.1⟩,fun _ => trivial⟩
      · have hsame : scan limits true opened.file = scan limits true content := by
          rw [scan, hdrop, scan]
        simp only [hopened, hsame]
        cases hscan : scan limits true content with
        | ok found =>
          refine ⟨fun _ => ⟨hheaded,fun h => ?_⟩,fun _ => hvalid⟩
          obtain ⟨e,herror⟩ := scan_error_iff.mpr h.2
          rw [hscan] at herror
          cases herror
        | error e =>
          have hfull : Overfull limits content := scan_error_iff.mp ⟨e,hscan⟩
          simp only [Option.some.injEq, and_iff_left hfull, and_iff_right hheaded, ← hchanged,
            not_not]
    · have hopen := open_short hlimits hnow path hlong
      have hcount : ¬ Overfull limits content := by
        rintro ⟨first,rest,records,hbehind,hwhole,hmany⟩
        rw [List.drop_of_length_le (not_le.mp hlong).le, eq_comm, List.append_eq_nil_iff]
          at hbehind
        obtain ⟨rfl,-⟩ := hbehind
        have hle := hwhole.length_le_of_stubbed .nil (stub_nil limits) rfl
        simp only [List.length_nil] at hle
        omega
      rw [RefusesOthers, hopen, headless_iff hlong]
      simp [hcount]
  · obtain ⟨e,herror⟩ := @open_of_invalid { limits := limits } now path content harguments
    rw [RefusesOthers, herror]
    exact ⟨fun _ hlimits hnow => absurd ⟨hlimits,hnow⟩ harguments,fun _ => rfl⟩

/-- A text of two bytes becomes a new store. -/
theorem short_text_overwritten :
    ¬ RefusesOthers "store" {} ⟨1⟩ [0x68,0x69] ∧
      ∃ s, open_ "store" {} ⟨1⟩ (some [0x68,0x69]) = (.ok s,some s.file) ∧
        s.file = (createHeader ⟨1⟩).file := by
  have hopen : open_ "store" {} ⟨1⟩ (some [0x68,0x69]) =
      (.ok (ofScan "store" {} (createHeader ⟨1⟩) {}),some (createHeader ⟨1⟩).file) :=
    open_short (by decide) (by decide) "store" (by decide)
  have hslots : ¬ HasValidSlot [0x68,0x69] := by decide
  refine ⟨?_,_,hopen,rfl⟩
  rw [RefusesOthers, hopen]
  exact hslots

end Refusal

end PersistentStore

end PathObservatory
