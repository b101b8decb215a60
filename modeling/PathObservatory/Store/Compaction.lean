import PathObservatory.Library.CrashPoints
import PathObservatory.Store.StoreObject

/-! # Compaction

The temporary file is complete before it takes the place of the store, and opens by
itself. So wherever a compaction is interrupted by a crash, all records or exactly
the kept ones are there. A failure behind the close of the handle leaves the object
closed.
-/
namespace PathObservatory

namespace PersistentStore
variable {limits : Limits}

/-- Bytes that are read to their end are whole records. -/
theorem wholeRecords_of_readFrom {rounds held : ℕ} {data : ByteString}
    {records : List StoredRecord} (hrounds : data.length ≤ rounds)
    (hheld : held ≤ limits.maxStoreRecords) (h : readFrom limits rounds data held = .ok records) :
    WholeRecords limits data records ∧ held + records.length ≤ limits.maxStoreRecords := by
  induction rounds generalizing data held records with
  | zero =>
    obtain rfl := List.length_eq_zero_iff.mp (Nat.le_zero.mp hrounds)
    obtain rfl := Except.ok.inj h
    exact ⟨.nil,hheld⟩
  | succ rounds ih =>
    rw [readFrom] at h
    split_ifs at h with hnil
    · subst hnil
      obtain rfl := Except.ok.inj h
      exact ⟨.nil,hheld⟩
    · simp only [↓require_bind_eq_ok, bind_eq_ok, decide_eq_true_eq] at h
      obtain ⟨hlong,hcrc,hbytes,type,htype,hpayload,hsum,hcount,more,hmore,hrecords⟩ := h
      have hvalid : recordIsValid limits (RecordHeader.read (data.take kStoreRecordHeaderBytes))
          (data.drop kStoreRecordHeaderBytes) = true := by
        simp only [recordIsValid, Bool.and_eq_true, decide_eq_true_eq, htype]
        exact ⟨⟨⟨⟨hcrc.symm,hbytes⟩,rfl⟩,hpayload⟩,hsum⟩
      obtain ⟨header,payload,rest,type,rfl,hheader,hlength,hrecord,hparsed⟩ :=
        exists_front (not_lt.mpr hlong) hvalid
      obtain ⟨-,-,htake,hdrop⟩ := front_cases payload hheader rest
      rw [htake, hdrop, hlength, List.drop_left] at hmore
      rw [htake, hdrop, hlength, List.take_left] at hrecords
      rw [htake, hparsed] at htype
      obtain rfl := Except.ok.inj htype
      rw [List.length_append, List.length_append, hheader, kStoreRecordHeaderBytes] at hrounds
      obtain ⟨hwhole,hfew⟩ := ih (by omega) hcount hmore
      rw [← Except.ok.inj hrecords]
      refine ⟨.cons hheader hlength hrecord hparsed hwhole,?_⟩
      rw [List.length_cons]
      omega

/-- Whole records keep the bounds an append enforces. -/
theorem WholeRecords.fits {data : ByteString} {records : List StoredRecord}
    (h : WholeRecords limits data records) : ∀ r ∈ records, r.Fits limits := by
  induction h with
  | nil => simp
  | @cons header payload rest type records hheader hlength hvalid htype hrest ih =>
    intro r hr
    rcases List.mem_cons.mp hr with rfl | hr
    · have hparts := hvalid
      simp only [recordIsValid, Bool.and_eq_true, decide_eq_true_eq] at hparts
      obtain ⟨⟨⟨⟨-,hbytes⟩,-⟩,-⟩,-⟩ := hparts
      have hsmall : (RecordHeader.read header).payloadBytes < 2 ^ 32 := UInt32.toNat_lt _
      rw [hlength] at hbytes hsmall
      exact ⟨hbytes,hsmall⟩
    · exact ih r hr

/-- What reads back is a header and whole records. -/
theorem wholeRecords_of_readAll {s : PersistentStore} {header rest : ByteString}
    (hheader : header.length = kStoreHeaderBytes) (hfile : s.file = header ++ rest)
    {records : List StoredRecord} (h : s.readAll = .ok records) :
    WholeRecords s.options.limits rest records ∧
      records.length ≤ s.options.limits.maxStoreRecords := by
  rw [PersistentStore.readAll, hfile, ← hheader, List.drop_left] at h
  have hwhole := wholeRecords_of_readFrom le_rfl (Nat.zero_le _) h
  rwa [Nat.zero_add] at hwhole

/-- An open of a usable header, in either mode. -/
theorem UsableHeader.openHeader_either {header : ByteString} (h : UsableHeader header)
    (rest : ByteString) (readOnly : Bool) (now : TimePoint) :
    ∃ opened written, PersistentStore.openHeader readOnly now (header ++ rest) = .ok opened ∧
      UsableHeader written ∧ opened.file = written ++ rest := by
  cases readOnly with
  | false =>
    obtain ⟨opened,written,hopened,hwritten,hfile,-⟩ := h.openHeader rest now
    exact ⟨opened,written,hopened,hwritten,hfile⟩
  | true =>
    obtain ⟨chosen,slot,hchoose,hversion⟩ := h.choose
    have hlong : ¬ (header ++ rest).length < kStoreHeaderBytes := by
      rw [List.length_append, h.length]
      omega
    refine ⟨reopenHeader true now (header ++ rest) chosen slot
      (HeaderSlot.read header 0).isNone,header,?_,h,rfl⟩
    rw [PersistentStore.openHeader, if_neg hlong, read_append h.length (by decide),
      read_append h.length (by decide), hchoose]
    simp only [require, decide_eq_true hversion, if_true]
    rfl

/-- A usable header and whole records open and read back, in either mode. -/
theorem open_whole {options : StoreOptions} (hlimits : options.limits.validate = .ok ())
    {now : TimePoint} (hnow : now.isSet = true) {header first : ByteString}
    (husable : UsableHeader header) {records : List StoredRecord}
    (hwhole : WholeRecords options.limits first records)
    (hcount : records.length ≤ options.limits.maxStoreRecords) (path : String) :
    ∃ t, open_ path options now (some (header ++ first)) = (.ok t,some t.file) ∧
      t.readAll = .ok records ∧ t.recordCount = records.length ∧
      t.nextSequence = UInt64.ofNat records.length + 1 := by
  obtain ⟨limits,readOnly⟩ := options
  obtain ⟨opened,written,hopened,hwritten,hfile⟩ := husable.openHeader_either first readOnly now
  have hfound : scan limits (!readOnly) opened.file = .ok { valid := records.length } := by
    rw [hfile]
    exact scan_whole hwritten.length hwhole hcount (!readOnly)
  refine ⟨ofScan path ⟨limits,readOnly⟩ opened { valid := records.length },?_,?_,rfl,rfl⟩
  · unfold open_
    rw [hlimits, hnow]
    simp only [Option.getD_some, hopened, hfound]
  · have hkept : (ofScan path ⟨limits,readOnly⟩ opened { valid := records.length }).file =
        written ++ first := hfile
    rw [PersistentStore.readAll, hkept, ← hwritten.length, List.drop_left]
    exact readFrom_whole hwhole le_rfl ((Nat.zero_add _).trans_le hcount)

end PersistentStore

namespace StoreObject
open PersistentStore

/-- What a writable object with an open handle stands on. -/
structure Working (o : StoreObject) : Prop where
  valid : o.limits.validate = .ok ()
  headed : ∃ header rest, UsableHeader header ∧ o.store.file = header ++ rest
  opened : o.store.recovery.openedAt.isSet = true

theorem openedAt_of_openHeader {readOnly : Bool} {now : TimePoint} {file : ByteString}
    {opened : OpenedHeader} (h : openHeader readOnly now file = .ok opened) :
    opened.recovery.openedAt = now := by
  rcases openHeader_eq_ok h with ⟨-,-,rfl⟩ | ⟨-,chosen,slot,-,-,rfl⟩
  · rfl
  · rw [reopenHeader]
    split_ifs <;> rfl

theorem working_of_open {path : String} {options : StoreOptions} {now : TimePoint}
    {content : Option ByteString} {s : PersistentStore}
    (h : (open_ path options now content).1 = .ok s) (hwritable : options.readOnly = false) :
    Working { store := s, isOpen := true } := by
  obtain ⟨limits,readOnly⟩ := options
  obtain rfl : readOnly = false := hwritable
  obtain ⟨hlimits,first,records,hkeeps⟩ := keeps_of_open h
  obtain ⟨header,husable,hfile⟩ := hkeeps.file
  obtain ⟨-,opened,found,hopened,-,hstore⟩ := open_eq_ok h
  refine ⟨?_,⟨header,first ++ [],husable,hfile⟩,?_⟩
  · show s.options.limits.validate = .ok ()
    rw [hkeeps.options]
    exact hlimits
  · have hnow : s.recovery.openedAt = now := by
      rw [hstore]
      exact openedAt_of_openHeader hopened
    show s.recovery.openedAt.isSet = true
    rw [hnow]
    exact isSet_of_open h

theorem options_of_open {path : String} {options : StoreOptions} {now : TimePoint}
    {content : Option ByteString} {s : PersistentStore}
    (h : (open_ path options now content).1 = .ok s) : s.options = options := by
  obtain ⟨-,header,found,-,-,rfl⟩ := passed_of_open h
  rfl

theorem reopen_cases (o : StoreObject) (options : StoreOptions) (now : TimePoint) :
    (∃ e, (o.reopen options now).1 = .error e ∧ (o.reopen options now).2.isOpen = false) ∨
    (o.reopen options now).1 = .ok () ∧ ∃ s,
      (open_ o.store.path options now (some o.store.file)).1 = .ok s ∧
        (o.reopen options now).2 = { store := s, isOpen := true } := by
  unfold reopen
  obtain ⟨result,left⟩ := open_ o.store.path options now (some o.store.file)
  cases result with
  | error e => exact Or.inl ⟨e,rfl,rfl⟩
  | ok s => exact Or.inr ⟨rfl,s,rfl,rfl⟩

/-- How the replacement of the store leaves the object: as it was, without a handle,
or opened again. -/
theorem replace_cases (o : StoreObject) (kept : List StoredRecord)
    (fault : Option CompactionFault) :
    (∃ e, o.replace kept fault = (.error e,o)) ∨
    (∃ e left, o.replace kept fault = (.error e,left) ∧ left.isOpen = false) ∨
    ∃ content s, (open_ o.store.path o.store.options o.store.recovery.openedAt
        (some content)).1 = .ok s ∧
      o.replace kept fault = (.ok (),{ store := s, isOpen := true }) := by
  have hreopens : ∀ content, o.replace kept fault =
      (o.closedOver content).reopen o.store.options o.store.recovery.openedAt →
      (∃ e left, o.replace kept fault = (.error e,left) ∧ left.isOpen = false) ∨
      ∃ content s, (open_ o.store.path o.store.options o.store.recovery.openedAt
          (some content)).1 = .ok s ∧
        o.replace kept fault = (.ok (),{ store := s, isOpen := true }) := by
    intro content hreplace
    rw [hreplace]
    rcases (o.closedOver content).reopen_cases o.store.options o.store.recovery.openedAt with
      ⟨e,herror,hclosed⟩ | ⟨hok,s,hopen,hobject⟩
    · exact Or.inl ⟨e,_,Prod.ext herror rfl,hclosed⟩
    · exact Or.inr ⟨content,s,hopen,Prod.ext hok hobject⟩
  cases fault with
  | none => exact Or.inr (hreopens _ rfl)
  | some fault =>
    cases fault with
    | openTemporary => exact Or.inl ⟨_,rfl⟩
    | writeTemporary => exact Or.inl ⟨_,rfl⟩
    | seekTemporary written => exact Or.inr (hreopens _ rfl)
    | flushTemporary => exact Or.inl ⟨_,rfl⟩
    | rename detail => exact Or.inr (Or.inl ⟨_,_,rfl,rfl⟩)
    | reopen written =>
      cases written with
      | none => exact Or.inr (Or.inl ⟨_,_,rfl,rfl⟩)
      | some written => exact Or.inr (Or.inl ⟨_,_,rfl,rfl⟩)

theorem keptCount_eq (keepNewest : ℕ) (records : List StoredRecord) :
    keptCount keepNewest records = min keepNewest records.length := by
  unfold keptCount
  split_ifs with hzero
  · rw [hzero, Nat.zero_min]
  · rfl

@[simp] theorem length_newestOf (keepNewest : ℕ) (records : List StoredRecord) :
    (newestOf keepNewest records).length = keptCount keepNewest records := by
  rw [newestOf, List.length_drop, keptCount_eq]
  omega

theorem compact_of_readAll {o : StoreObject} (hwritable : o.store.options.readOnly = false)
    {records : List StoredRecord} (hread : o.readAll = .ok records) (keepNewest : ℕ)
    (fault : Option CompactionFault) :
    o.compact keepNewest fault =
      ((o.replace (newestOf keepNewest records) fault).1.map
          (fun _ => keptCount keepNewest records),
        (o.replace (newestOf keepNewest records) fault).2) := by
  unfold compact
  rw [hwritable, hread]
  rfl

/-- How a compaction leaves the object. -/
theorem compact_cases (o : StoreObject) (keepNewest : ℕ) (fault : Option CompactionFault) :
    (o.compact keepNewest fault).2 = o ∨ (o.compact keepNewest fault).2.isOpen = false ∨
      ∃ content s, (open_ o.store.path o.store.options o.store.recovery.openedAt
        content).1 = .ok s ∧ (o.compact keepNewest fault).2 = { store := s, isOpen := true } := by
  unfold compact
  split_ifs
  · exact Or.inl rfl
  · cases o.readAll with
    | error e => exact Or.inl rfl
    | ok records =>
      rcases o.replace_cases (newestOf keepNewest records) fault with
        ⟨e,hsame⟩ | ⟨e,left,hleft,hclosed⟩ | ⟨content,s,hopen,hreopened⟩
      · simp only [hsame]
        exact Or.inl trivial
      · simp only [hleft]
        exact Or.inr (Or.inl hclosed)
      · simp only [hreopened]
        exact Or.inr (Or.inr ⟨_,s,hopen,rfl⟩)

/-- Bytes were written behind the file, if any, and nothing else has changed. -/
structure Extends (s t : PersistentStore) : Prop where
  options : t.options = s.options
  recovery : t.recovery = s.recovery
  activeSlot : t.activeSlot = s.activeSlot
  file : s.file <+: t.file

theorem Extends.refl (s : PersistentStore) : Extends s s := ⟨rfl,rfl,rfl,List.prefix_rfl⟩

theorem Extends.trans {s t u : PersistentStore} (h : Extends s t) (k : Extends t u) :
    Extends s u :=
  ⟨k.options.trans h.options,k.recovery.trans h.recovery,k.activeSlot.trans h.activeSlot,
    h.file.trans k.file⟩

theorem append_extends (s : PersistentStore) (type : RecordType) (payload : ByteString) :
    Extends s (s.append type payload).2 := by
  unfold PersistentStore.append
  split
  · exact .refl s
  · dsimp only
    split
    · exact ⟨rfl,rfl,rfl,List.prefix_append _ _⟩
    · exact ⟨rfl,rfl,rfl,List.prefix_append _ _⟩

theorem attempt_extends (o : StoreObject) (type : RecordType) (payload : ByteString)
    (fault : Option ℕ) :
    ∃ s, Extends o.store s ∧
      (o.attempt type payload fault).2 = { store := s, isOpen := o.isOpen } := by
  obtain ⟨store,isOpen⟩ := o
  cases isOpen with
  | false => exact ⟨{ store with faults := [] },⟨rfl,rfl,rfl,List.prefix_rfl⟩,rfl⟩
  | true =>
    obtain ⟨hoptions,hrecovery,hslot,hfile⟩ :=
      append_extends { store with faults := [fault] } type payload
    exact ⟨{ ({ store with faults := [fault] }.append type payload).2 with faults := [] },
      ⟨hoptions,hrecovery,hslot,hfile⟩,rfl⟩

theorem Working.extends {o : StoreObject} (h : Working o) {s : PersistentStore}
    (hextends : Extends o.store s) (isOpen : Bool) : Working { store := s, isOpen := isOpen } := by
  obtain ⟨header,rest,husable,hfile⟩ := h.headed
  obtain ⟨tail,hextended⟩ := hextends.file
  refine ⟨?_,⟨header,rest ++ tail,husable,?_⟩,?_⟩
  · show s.options.limits.validate = .ok ()
    rw [hextends.options]
    exact h.valid
  · rw [← List.append_assoc, ← hfile]
    exact hextended.symm
  · show s.recovery.openedAt.isSet = true
    rw [hextends.recovery]
    exact h.opened

theorem markClean_of_open {o : StoreObject} (hopen : o.isOpen = true)
    (hwritable : o.store.options.readOnly = false) (now : TimePoint) :
    o.markClean now = ((o.store.markClean now).1,
      { store := (o.store.markClean now).2, isOpen := true }) := by
  unfold markClean
  rw [hwritable, hopen]
  rfl

theorem Working.markClean {o : StoreObject} (h : Working o) (hopen : o.isOpen = true)
    (hwritable : o.store.options.readOnly = false) (now : TimePoint) :
    Working (o.markClean now).2 := by
  obtain ⟨header,rest,husable,hfile⟩ := h.headed
  have hmarked : (o.store.markClean now).2.options = o.store.options ∧
      (o.store.markClean now).2.recovery.openedAt = o.store.recovery.openedAt := by
    unfold PersistentStore.markClean
    rw [hwritable]
    exact ⟨rfl,rfl⟩
  obtain ⟨written,slot,recovery,hwritten,-,hstore⟩ := husable.markClean hwritable hfile now
  rw [markClean_of_open hopen hwritable]
  refine ⟨?_,⟨written,rest,hwritten,?_⟩,?_⟩
  · show (o.store.markClean now).2.options.limits.validate = .ok ()
    rw [hmarked.1]
    exact h.valid
  · show (o.store.markClean now).2.file = written ++ rest
    rw [hstore]
  · show (o.store.markClean now).2.recovery.openedAt.isSet = true
    rw [hmarked.2]
    exact h.opened

/-- Every writable object with an open handle is a working one. -/
theorem Reachable.working {o : StoreObject} (h : Reachable o) (hopen : o.isOpen = true)
    (hwritable : o.store.options.readOnly = false) : Working o := by
  induction h with
  | opened hopened =>
    rw [options_of_open hopened] at hwritable
    exact working_of_open hopened hwritable
  | @performed o hreach operation ih =>
    cases operation with
    | open_ options now =>
      rcases o.reopen_cases options now with ⟨e,-,hclosed⟩ | ⟨-,s,hs,hobject⟩
      · rw [perform, hclosed] at hopen
        cases hopen
      · rw [perform, hobject] at hwritable ⊢
        rw [options_of_open hs] at hwritable
        exact working_of_open hs hwritable
    | append type payload fault =>
      obtain ⟨s,hextends,hobject⟩ := o.attempt_extends type payload fault
      rw [perform, hobject] at hopen hwritable ⊢
      exact (ih hopen (hextends.options ▸ hwritable)).extends hextends o.isOpen
    | markClean now =>
      have hbefore : o.isOpen = true ∧ o.store.options.readOnly = false := by
        rw [perform] at hopen hwritable
        unfold StoreObject.markClean at hopen hwritable
        split_ifs at hopen hwritable with hreadOnly hhandle
        · exact absurd hreadOnly (by rw [hwritable]; decide)
        · exact ⟨hhandle,Bool.eq_false_iff.mpr hreadOnly⟩
        · exact absurd hopen hhandle
      exact (ih hbefore.1 hbefore.2).markClean hbefore.1 hbefore.2 now
    | compact keepNewest fault =>
      rcases o.compact_cases keepNewest fault with hsame | hclosed | ⟨content,s,hs,hobject⟩
      · rw [perform, hsame] at hopen hwritable ⊢
        exact ih hopen hwritable
      · rw [perform, hclosed] at hopen
        cases hopen
      · rw [perform, hobject] at hwritable ⊢
        rw [options_of_open hs] at hwritable
        exact working_of_open hs hwritable
    | close => cases hopen

@[simp] theorem length_renumbered (records : List StoredRecord) :
    (renumbered records).length = records.length := by
  rw [renumbered, length_numbered, List.length_map]

/-- Renumbering keeps types and payloads, in order. -/
theorem map_renumbered (records : List StoredRecord) :
    (renumbered records).map (fun r => (r.type,r.payload)) =
      records.map (fun r => (r.type,r.payload)) := by
  unfold renumbered numbered
  rw [List.map_map]
  exact List.zipIdx_map_fst 0 _

theorem fits_renumbered {limits : Limits} {records : List StoredRecord}
    (h : ∀ r ∈ records, r.Fits limits) : ∀ r ∈ renumbered records, r.Fits limits := by
  intro r hr
  have hentry : (r.type,r.payload) ∈ (renumbered records).map (fun r => (r.type,r.payload)) :=
    List.mem_map_of_mem hr
  rw [map_renumbered] at hentry
  obtain ⟨s,hs,heq⟩ := List.mem_map.mp hentry
  have hpayload : s.payload = r.payload := congrArg Prod.snd heq
  have hfits := h s hs
  rwa [StoredRecord.Fits, hpayload] at hfits

/-- The header of the temporary file. -/
def compactedHeader (o : StoreObject) : ByteString :=
  o.compactedSlot.write (List.replicate kStoreHeaderBytes 0) 0

theorem compactedHeader_usable (o : StoreObject) : UsableHeader o.compactedHeader :=
  usable_of_blank (newSlot_version _ _ _ _ _)

theorem compacted_eq (o : StoreObject) (kept : List StoredRecord) :
    o.compacted kept = o.compactedHeader ++ (renumbered kept).flatMap StoredRecord.bytes :=
  HeaderSlot.write_append (slot_inside List.length_replicate Nat.zero_lt_two) _

/-- What a replacement of the store needs of the kept records. -/
structure Keepable (o : StoreObject) (kept : List StoredRecord) : Prop where
  fits : ∀ r ∈ kept, r.Fits o.limits
  count : kept.length ≤ o.limits.maxStoreRecords

theorem Keepable.whole {o : StoreObject} {kept : List StoredRecord} (h : Keepable o kept) :
    WholeRecords o.limits ((renumbered kept).flatMap StoredRecord.bytes) (renumbered kept) ∧
      (renumbered kept).length ≤ o.limits.maxStoreRecords :=
  ⟨wholeRecords_flatMap (fits_renumbered h.fits),(length_renumbered kept).trans_le h.count⟩

/-- The reopened store writes the second slot of the temporary file. -/
theorem openHeader_compacted (o : StoreObject) (kept : List StoredRecord) :
    ∃ opened, openHeader false o.store.recovery.openedAt (o.compacted kept) = .ok opened ∧
      opened.file = o.reopenedSlot.write (o.compacted kept) 1 := by
  have hinside : (0 + 1) * kStoreHeaderSlotBytes ≤
      (List.replicate kStoreHeaderBytes (0 : UInt8)).length :=
    slot_inside List.length_replicate Nat.zero_lt_two
  have hfirst : HeaderSlot.read (o.compacted kept) 0 = some o.compactedSlot := by
    rw [compacted_eq, read_append o.compactedHeader_usable.length (by decide)]
    exact HeaderSlot.read_of_slotAt (HeaderSlot.slotAt_write hinside)
  have hsecond : HeaderSlot.read (o.compacted kept) 1 = none := by
    rw [compacted_eq, read_append o.compactedHeader_usable.length (by decide)]
    exact (HeaderSlot.read_congr (HeaderSlot.slotAt_write_ne hinside Nat.one_ne_zero)).trans
      (by decide)
  have hlong : ¬ (o.compacted kept).length < kStoreHeaderBytes := by
    rw [compacted_eq, List.length_append, o.compactedHeader_usable.length]
    omega
  refine ⟨reopenHeader false o.store.recovery.openedAt (o.compacted kept) o.compactedSlot 0 false,
    ?_,rfl⟩
  rw [openHeader, if_neg hlong, hfirst, hsecond]
  rfl

/-- A replacement that meets no fault opens the store again, with the kept records. -/
theorem Working.replace {o : StoreObject} (h : Working o)
    (hwritable : o.store.options.readOnly = false) {kept : List StoredRecord}
    (hkept : Keepable o kept) :
    ∃ t, o.replace kept none = (.ok (),{ store := t, isOpen := true }) ∧
      open_ o.store.path o.store.options o.store.recovery.openedAt (some (o.compacted kept)) =
        (.ok t,some t.file) ∧
      t.readAll = .ok (renumbered kept) ∧ t.recordCount = kept.length ∧
      t.nextSequence = UInt64.ofNat kept.length + 1 ∧
      t.file = o.reopenedSlot.write (o.compacted kept) 1 := by
  obtain ⟨hwhole,hcount⟩ := hkept.whole
  obtain ⟨t,hopen,hread,hrecords,hsequence⟩ := open_whole h.valid h.opened
    o.compactedHeader_usable hwhole hcount o.store.path
  rw [← compacted_eq] at hopen
  rw [length_renumbered] at hrecords hsequence
  refine ⟨t,?_,hopen,hread,hrecords,hsequence,?_⟩
  · rw [StoreObject.replace, reopen]
    simp only [closedOver, hopen]
  · obtain ⟨-,opened,found,hopened,hfound,hstore⟩ := passed_of_open (congrArg Prod.fst hopen)
    obtain ⟨other,hother,hfile⟩ := o.openHeader_compacted kept
    rw [hwritable, Option.getD_some, hother] at hopened
    obtain rfl := Except.ok.inj hopened
    have hlength : (o.reopenedSlot.write o.compactedHeader 1).length = kStoreHeaderBytes :=
      (HeaderSlot.length_write (slot_inside o.compactedHeader_usable.length (by decide))).trans
        o.compactedHeader_usable.length
    have hscan := scan_whole hlength hwhole hcount (!o.store.options.readOnly)
    rw [← HeaderSlot.write_append (slot_inside o.compactedHeader_usable.length (by decide)),
      ← compacted_eq, ← hfile] at hscan
    have hsame := hfound.symm.trans hscan
    rw [hstore, Except.ok.inj hsame]
    exact hfile

/-- The files at the path of the store and at the temporary path. -/
structure Disk where
  store : Option ByteString := none
  temporary : Option ByteString := none
deriving DecidableEq, Repr

/-- The file operations of a compaction. -/
inductive FileOperation
  | openTemporary
  | appendTemporary (bytes : ByteString)
  | writeTemporary (slot : HeaderSlot) (index : ℕ)
  | rename
  | blankStore
  | writeStore (slot : HeaderSlot) (index : ℕ)
deriving DecidableEq, Repr

namespace FileOperation

def apply : FileOperation → Disk → Disk
  | openTemporary, d => { d with temporary := some [] }
  | appendTemporary bytes, d => { d with temporary := d.temporary.map (· ++ bytes) }
  | writeTemporary slot index, d =>
    { d with temporary := d.temporary.map (fun file => slot.write file index) }
  | rename, d => { store := d.temporary, temporary := none }
  | blankStore, d =>
    { d with store := d.store.map (fun file =>
        List.replicate kStoreHeaderBytes 0 ++ file.drop kStoreHeaderBytes) }
  | writeStore slot index, d =>
    { d with store := d.store.map (fun file => slot.write file index) }

/-- The operation got as far as some bytes of its write. Opening a file and renaming
one are not done in part. -/
def applyPart (written : ℕ) : FileOperation → Disk → Disk
  | openTemporary, d => d
  | appendTemporary bytes, d =>
    { d with temporary := d.temporary.map (· ++ bytes.take written) }
  | writeTemporary slot index, d =>
    { d with temporary := d.temporary.map (fun file => slot.writePart written file index) }
  | rename, d => d
  | blankStore, d =>
    let blank : ByteString := (List.replicate kStoreHeaderBytes 0).take written
    { d with store := d.store.map (fun file => blank ++ file.drop blank.length) }
  | writeStore slot index, d =>
    { d with store := d.store.map (fun file => slot.writePart written file index) }

def Torn (operation : FileOperation) (before after : Disk) : Prop :=
  ∃ written, after = operation.applyPart written before

end FileOperation

def recordWrites (r : StoredRecord) : List FileOperation :=
  .appendTemporary r.header :: if r.payload = [] then [] else [.appendTemporary r.payload]

/-- The operations before the handle is closed: they touch the temporary file only. -/
def temporaryWrites (o : StoreObject) (kept : List StoredRecord) : List FileOperation :=
  [.openTemporary,.appendTemporary (List.replicate kStoreHeaderBytes 0)] ++
    (renumbered kept).flatMap recordWrites ++ [.writeTemporary o.compactedSlot 0]

/-- The operations of a compaction, in their order. -/
def fileOperations (o : StoreObject) (kept : List StoredRecord) : List FileOperation :=
  o.temporaryWrites kept ++ [.rename,.writeStore o.reopenedSlot 1]

open CrashPoints

/-- A process that dies while it performs the operations of a compaction. -/
def Dies (o : StoreObject) (kept : List StoredRecord) (before after : Disk) : Prop :=
  Interrupted FileOperation.apply FileOperation.Torn (o.fileOperations kept) before after

theorem performAll_recordWrites (records : List StoredRecord) (store : Option ByteString)
    (file : ByteString) :
    CrashPoints.performAll FileOperation.apply (records.flatMap recordWrites)
        { store := store, temporary := some file } =
      { store := store, temporary := some (file ++ records.flatMap StoredRecord.bytes) } := by
  induction records generalizing file with
  | nil => simp [CrashPoints.performAll]
  | cons r records ih =>
    have hone : CrashPoints.performAll FileOperation.apply (recordWrites r)
        { store := store, temporary := some file } =
        { store := store, temporary := some (file ++ r.bytes) } := by
      unfold recordWrites
      split_ifs with hempty
      · rw [StoredRecord.bytes, hempty, List.append_nil]
        rfl
      · rw [StoredRecord.bytes, ← List.append_assoc]
        rfl
    rw [List.flatMap_cons, performAll_append, hone, ih, List.flatMap_cons, List.append_assoc]

/-- The temporary file is complete before it takes the place of the store. -/
theorem performAll_temporaryWrites (o : StoreObject) (kept : List StoredRecord) (d : Disk) :
    CrashPoints.performAll FileOperation.apply (o.temporaryWrites kept) d =
      { store := d.store, temporary := some (o.compacted kept) } := by
  have hblank : CrashPoints.performAll FileOperation.apply
      [.openTemporary,.appendTemporary (List.replicate kStoreHeaderBytes 0)] d =
      { store := d.store, temporary := some (List.replicate kStoreHeaderBytes 0) } := rfl
  rw [temporaryWrites, performAll_append, performAll_append, hblank, performAll_recordWrites]
  rfl

theorem temporaryWrites_apart {o : StoreObject} {kept : List StoredRecord}
    {operation : FileOperation} (h : operation ∈ o.temporaryWrites kept) (d : Disk) :
    (operation.apply d).store = d.store ∧
      ∀ written, (operation.applyPart written d).store = d.store := by
  have happend : ∀ r, operation ∈ recordWrites r →
      ∃ bytes, operation = .appendTemporary bytes := by
    intro r hr
    unfold recordWrites at hr
    rcases List.mem_cons.mp hr with rfl | hr
    · exact ⟨_,rfl⟩
    · split_ifs at hr
      · cases hr
      · exact ⟨_,List.mem_singleton.mp hr⟩
  unfold temporaryWrites at h
  rcases List.mem_append.mp h with h | h
  · rcases List.mem_append.mp h with h | h
    · rcases List.mem_cons.mp h with rfl | h
      · exact ⟨rfl,fun _ => rfl⟩
      · obtain rfl := List.mem_singleton.mp h
        exact ⟨rfl,fun _ => rfl⟩
    · obtain ⟨r,-,hr⟩ := List.mem_flatMap.mp h
      obtain ⟨bytes,rfl⟩ := happend r hr
      exact ⟨rfl,fun _ => rfl⟩
  · obtain rfl := List.mem_singleton.mp h
    exact ⟨rfl,fun _ => rfl⟩

theorem temporaryWrites_keep_store {o : StoreObject} {kept : List StoredRecord}
    {before after : Disk}
    (h : Interrupted FileOperation.apply FileOperation.Torn (o.temporaryWrites kept) before
      after) : after.store = before.store := by
  refine Interrupted.invariant (fun d => d.store = before.store) ?_ ?_ h rfl
  · intro operation hop d hd
    exact (temporaryWrites_apart hop d).1.trans hd
  · rintro operation hop d _ hd ⟨written,rfl⟩
    exact ((temporaryWrites_apart hop d).2 written).trans hd

/-- Wherever the process dies, the store is as it was, or the temporary file stands in
its place, with some bytes of its second slot written. -/
theorem Dies.cases {o : StoreObject} {kept : List StoredRecord} {before after : Disk}
    (h : o.Dies kept before after) :
    after.store = before.store ∨ after.store = some (o.compacted kept) ∨
      (∃ written, after.store =
        some (o.reopenedSlot.writePart written (o.compacted kept) 1)) ∨
      after.store = some (o.reopenedSlot.write (o.compacted kept) 1) := by
  rcases Interrupted.append_cases h with hfirst | hsecond
  · exact Or.inl (temporaryWrites_keep_store hfirst)
  · rw [performAll_temporaryWrites] at hsecond
    cases hsecond with
    | stopped => exact Or.inl rfl
    | torn hrename =>
      obtain ⟨written,rfl⟩ := hrename
      exact Or.inl rfl
    | later hreopen =>
      cases hreopen with
      | stopped => exact Or.inr (Or.inl rfl)
      | torn hslot =>
        obtain ⟨written,rfl⟩ := hslot
        exact Or.inr (Or.inr (Or.inl ⟨written,rfl⟩))
      | later hend =>
        cases hend with
        | stopped => exact Or.inr (Or.inr (Or.inr rfl))

/-- The reopened store writes the second slot of the header and leaves the records. -/
theorem write_compacted (o : StoreObject) (kept : List StoredRecord) :
    o.reopenedSlot.write (o.compacted kept) 1 = o.reopenedSlot.write o.compactedHeader 1 ++
      (renumbered kept).flatMap StoredRecord.bytes := by
  rw [compacted_eq]
  exact HeaderSlot.write_append
    (slot_inside o.compactedHeader_usable.length (by decide)) _

theorem reopenedHeader_usable (o : StoreObject) :
    UsableHeader (o.reopenedSlot.write o.compactedHeader 1) :=
  UsableHeader.write o.compactedHeader_usable.length (newSlot_version _ _ _ _ _) (by decide)
    (fun i t hi _ => o.compactedHeader_usable.version i t hi)

/-- A torn write of the second slot of the temporary file leaves its first slot and its
records. -/
theorem writePart_compacted (o : StoreObject) (kept : List StoredRecord) (written : ℕ) :
    o.reopenedSlot.writePart written (o.compacted kept) 1 =
      HeaderSlot.overwrite o.compactedHeader 1 (o.reopenedSlot.torn written) ++
        (renumbered kept).flatMap StoredRecord.bytes := by
  have hheader : o.compactedHeader =
      o.compactedSlot.bytes ++ List.replicate kStoreHeaderSlotBytes 0 := rfl
  have hfirst : o.compactedSlot.bytes.length = 1 * kStoreHeaderSlotBytes :=
    o.compactedSlot.length_bytes.trans (Nat.one_mul _).symm
  have hpart : (o.reopenedSlot.bytes.take written).length ≤ kStoreHeaderSlotBytes := by
    rw [List.length_take, HeaderSlot.length_bytes]
    exact Nat.min_le_right _ _
  have hleft : kStoreHeaderSlotBytes - (o.reopenedSlot.bytes.take written).length =
      kStoreHeaderSlotBytes - written := by
    rw [List.length_take, HeaderSlot.length_bytes]
    omega
  have hrest : (o.compactedHeader ++ (renumbered kept).flatMap StoredRecord.bytes).drop
      (1 * kStoreHeaderSlotBytes + (o.reopenedSlot.bytes.take written).length) =
      List.replicate (kStoreHeaderSlotBytes - written) 0 ++
        (renumbered kept).flatMap StoredRecord.bytes := by
    rw [hheader, ← List.drop_drop, ← hfirst, List.append_assoc, List.drop_left,
      List.drop_append_of_le_length (by rwa [List.length_replicate]), List.drop_replicate, hleft]
  have htake : (o.compactedHeader ++ (renumbered kept).flatMap StoredRecord.bytes).take
      (1 * kStoreHeaderSlotBytes) = o.compactedSlot.bytes := by
    rw [hheader, ← hfirst, List.append_assoc, List.take_left]
  have hover : HeaderSlot.overwrite o.compactedHeader 1 (o.reopenedSlot.torn written) =
      o.compactedSlot.bytes ++ o.reopenedSlot.torn written := by
    have hend : o.compactedHeader.drop ((1 + 1) * kStoreHeaderSlotBytes) = [] :=
      List.drop_of_length_le o.compactedHeader_usable.length.le
    have hfront : o.compactedHeader.take (1 * kStoreHeaderSlotBytes) =
        o.compactedSlot.bytes := by
      rw [hheader, ← hfirst, List.take_left]
    rw [HeaderSlot.overwrite, hend, hfront, List.append_nil]
  rw [compacted_eq, HeaderSlot.writePart, htake, hrest, hover, HeaderSlot.torn]
  simp only [List.append_assoc]

/-- A torn slot in the place of zeros does not make a header unusable whose other slot
is valid. -/
theorem usable_of_torn {header : ByteString} (hlength : header.length = kStoreHeaderBytes)
    {index other : ℕ} (hindex : index < 2) (hother : other < 2) (hne : other ≠ index)
    {s t : HeaderSlot} (hread : HeaderSlot.read header other = some t)
    (ht : t.formatVersion = kStoreFormatVersion) (hs : s.formatVersion = kStoreFormatVersion)
    (written : ℕ) : UsableHeader (HeaderSlot.overwrite header index (s.torn written)) := by
  have hinside := slot_inside hlength hindex
  have htorn := HeaderSlot.slotAt_overwrite hinside (s.length_torn written)
  have hkept : HeaderSlot.read (HeaderSlot.overwrite header index (s.torn written)) other =
      some t :=
    (HeaderSlot.read_congr (HeaderSlot.slotAt_overwrite_ne hinside (s.length_torn written)
      hne)).trans hread
  refine ⟨(HeaderSlot.length_overwrite hinside (s.length_torn written)).trans hlength,
    ⟨other,t,hother,hkept⟩,?_⟩
  intro i u hi hu
  obtain rfl | rfl : i = other ∨ i = index := by omega
  · rw [hkept] at hu
    rw [← Option.some.inj hu]
    exact ht
  · rw [HeaderSlot.version_of_torn htorn hu]
    exact hs

theorem torn_usable (o : StoreObject) (written : ℕ) :
    UsableHeader (HeaderSlot.overwrite o.compactedHeader 1 (o.reopenedSlot.torn written)) :=
  usable_of_torn o.compactedHeader_usable.length (by decide) (by decide) Nat.zero_ne_one
    (HeaderSlot.read_of_slotAt (HeaderSlot.slotAt_write
      (slot_inside List.length_replicate Nat.zero_lt_two)))
    (newSlot_version _ _ _ _ _) (newSlot_version _ _ _ _ _) written

/-- Wherever the process dies, a usable header and all records stand at the path of the
store, or a usable header and the kept ones. -/
theorem Dies.whole {o : StoreObject} (h : Working o) {records kept : List StoredRecord}
    (hread : o.store.readAll = .ok records) (hkept : Keepable o kept) {stale : Option ByteString}
    {after : Disk}
    (hdies : o.Dies kept { store := some o.store.file, temporary := stale } after) :
    ∃ header first found, UsableHeader header ∧ after.store = some (header ++ first) ∧
      WholeRecords o.limits first found ∧ found.length ≤ o.limits.maxStoreRecords ∧
      (found = records ∨ found = renumbered kept) := by
  obtain ⟨hwhole,hcount⟩ := hkept.whole
  rcases hdies.cases with hsame | hcompacted | ⟨written,htorn⟩ | hreopened
  · obtain ⟨header,rest,husable,hfile⟩ := h.headed
    obtain ⟨hall,hbound⟩ := wholeRecords_of_readAll husable.length hfile hread
    exact ⟨header,rest,records,husable,by rw [hsame, hfile],hall,hbound,Or.inl rfl⟩
  · exact ⟨_,_,_,o.compactedHeader_usable,by rw [hcompacted, compacted_eq],hwhole,hcount,
      Or.inr rfl⟩
  · exact ⟨_,_,_,o.torn_usable written,by rw [htorn, writePart_compacted],hwhole,hcount,
      Or.inr rfl⟩
  · exact ⟨_,_,_,o.reopenedHeader_usable,by rw [hreopened, write_compacted],hwhole,hcount,
      Or.inr rfl⟩

theorem readAll_of_open {o : StoreObject} (hopen : o.isOpen = true) :
    o.readAll = o.store.readAll := by
  rw [readAll, hopen, if_pos rfl]

theorem newestOf_eq (keepNewest : ℕ) (records : List StoredRecord) :
    newestOf keepNewest records =
      records.drop (records.length - min keepNewest records.length) := by
  rw [newestOf, keptCount_eq]

/-- The newest records of a store can take its place. -/
theorem Working.keepable {o : StoreObject} (h : Working o) {records : List StoredRecord}
    (hread : o.store.readAll = .ok records) (keepNewest : ℕ) :
    Keepable o (newestOf keepNewest records) := by
  obtain ⟨header,rest,husable,hfile⟩ := h.headed
  obtain ⟨hwhole,hcount⟩ := wholeRecords_of_readAll husable.length hfile hread
  refine ⟨fun r hr => hwhole.fits r (List.mem_of_mem_drop hr),?_⟩
  have hkept := keptCount_eq keepNewest records
  rw [length_newestOf]
  exact (hkept.trans_le (Nat.min_le_right _ _)).trans hcount

/-- What is kept is numbered from one. -/
theorem Keepable.sequences {o : StoreObject} {kept : List StoredRecord} (h : Keepable o kept)
    (hvalid : o.limits.validate = .ok ()) :
    (renumbered kept).map (·.sequence.toNat) = List.range' 1 kept.length := by
  have hsmall : (kept.map fun r => (r.type,r.payload)).length < 2 ^ 64 := by
    have hbound := h.count
    have hrecords := Limits.maxStoreRecords_lt_of_validate hvalid
    rw [List.length_map]
    omega
  rw [renumbered, sequences_numbered hsmall, List.length_map]

/-- What stands at the path where the process dies opens, in either mode, and reads as all
records or as the kept ones. -/
theorem Dies.opens {o : StoreObject} (h : Working o) {records kept : List StoredRecord}
    (hread : o.store.readAll = .ok records) (hkept : Keepable o kept) {stale : Option ByteString}
    {after : Disk} (hdies : o.Dies kept { store := some o.store.file, temporary := stale } after)
    (readOnly : Bool) {later : TimePoint} (hlater : later.isSet = true) :
    ∃ file t, after.store = some file ∧
      (open_ o.store.path { limits := o.limits, readOnly := readOnly } later (some file)).1 =
        .ok t ∧
      (t.readAll = .ok records ∨ t.readAll = .ok (renumbered kept)) := by
  obtain ⟨header,first,found,husable,hstore,hwhole,hcount,hfound⟩ := hdies.whole h hread hkept
  have hopens := @open_whole { limits := o.limits, readOnly := readOnly } h.valid later
    hlater header first husable found hwhole hcount o.store.path
  obtain ⟨u,hopened,hreadBack,-,-⟩ := hopens
  refine ⟨_,u,hstore,congrArg Prod.fst hopened,?_⟩
  rcases hfound with rfl | rfl
  · exact Or.inl hreadBack
  · exact Or.inr hreadBack

end StoreObject

end PathObservatory
