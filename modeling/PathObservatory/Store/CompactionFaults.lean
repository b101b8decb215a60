import PathObservatory.Store.AnyFile
import PathObservatory.Store.Compaction

/-! # Faults of a compaction

A fault that is noticed leaves the store as it was, or without a handle. The seek to
the header slot of the temporary file is not looked at: where it fails, the slot stands
behind what was written so far, and the file takes the place of the store all the same.
-/
namespace PathObservatory

/-- A slot that begins with a zero is not valid. -/
theorem HeaderSlot.read_of_zero {file : ByteString} {index : ℕ}
    (h : file[index * kStoreHeaderSlotBytes]? = some 0) : read file index = none := by
  have hmagic : ((file.drop (index * kStoreHeaderSlotBytes)).take kStoreHeaderSlotBytes).take
      kMagic.length ≠ kMagic := by
    intro heq
    have hfirst : (((file.drop (index * kStoreHeaderSlotBytes)).take kStoreHeaderSlotBytes).take
        kMagic.length)[0]? = some 0 := by
      rw [List.getElem?_take_of_lt (by decide), List.getElem?_take_of_lt (by decide),
        List.getElem?_drop, Nat.add_zero, h]
    rw [heq] at hfirst
    exact absurd hfirst (by decide)
  unfold read
  simp only [ne_eq, hmagic, not_false_eq_true, if_true]
  split_ifs <;> rfl

namespace StoreObject
open PersistentStore CrashPoints

section Misplaced
variable {o : StoreObject} {kept : List StoredRecord} {written : ℕ}

theorem le_length_unheaded (kept : List StoredRecord) :
    kStoreHeaderBytes ≤ (unheaded kept).length := by
  rw [unheaded, List.length_append, List.length_replicate]
  exact Nat.le_add_right _ _

theorem getElem_unheaded (kept : List StoredRecord) {i : ℕ} (hi : i < kStoreHeaderBytes) :
    (unheaded kept)[i]? = some 0 := by
  rw [unheaded, List.getElem?_append_left (by rwa [List.length_replicate]),
    List.getElem?_replicate, if_pos hi]

/-- The slot is read where it was written to, if that is the place of a slot. -/
theorem read_misplaced (o : StoreObject) (kept : List StoredRecord) (written : ℕ) {i : ℕ}
    (hi : i < 2) : HeaderSlot.read (o.misplaced kept written) i =
      if i * kStoreHeaderSlotBytes = written then some o.compactedSlot else none := by
  have hroom : i * kStoreHeaderSlotBytes < kStoreHeaderBytes := by
    rw [kStoreHeaderBytes, mul_comm kStoreHeaderSlotBytes]
    exact Nat.mul_lt_mul_of_pos_right hi (by decide)
  have hlong := le_length_unheaded kept
  rcases lt_trichotomy (i * kStoreHeaderSlotBytes) written with hbefore | rfl | hbehind
  · rw [if_neg hbefore.ne]
    refine HeaderSlot.read_of_zero ?_
    have hpart : i * kStoreHeaderSlotBytes < ((unheaded kept).take written).length := by
      rw [List.length_take]
      omega
    rw [misplaced, List.getElem?_append_left hpart, List.getElem?_take_of_lt hbefore,
      getElem_unheaded kept hroom]
  · rw [if_pos rfl]
    refine HeaderSlot.read_of_slotAt ?_
    have hpart : ((unheaded kept).take (i * kStoreHeaderSlotBytes)).length =
        i * kStoreHeaderSlotBytes := by
      rw [List.length_take]
      omega
    rw [HeaderSlot.slotAt, misplaced, List.drop_left' hpart,
      List.take_of_length_le o.compactedSlot.length_bytes.le]
  · rw [if_neg hbehind.ne']
    obtain rfl | rfl : i = 0 ∨ i = 1 := by omega
    · omega
    · refine read_short ?_
      rw [misplaced, List.length_append, HeaderSlot.length_bytes, List.length_take]
      simp only [kStoreHeaderBytes]
      omega

theorem length_misplaced (o : StoreObject) (kept : List StoredRecord) (written : ℕ) :
    (o.misplaced kept written).length =
      min written (unheaded kept).length + kStoreHeaderSlotBytes := by
  rw [misplaced, List.length_append, HeaderSlot.length_bytes, List.length_take]

theorem long_misplaced (o : StoreObject) (kept : List StoredRecord)
    (hwritten : kStoreHeaderSlotBytes < written) :
    kStoreHeaderBytes ≤ (o.misplaced kept written).length := by
  have hbody := le_length_unheaded kept
  rw [length_misplaced]
  simp only [kStoreHeaderBytes] at hbody ⊢
  omega

/-- Where half a header was written the slot has become the second one. -/
theorem misplaced_half (o : StoreObject) (kept : List StoredRecord) :
    o.misplaced kept kStoreHeaderSlotBytes =
      o.compactedSlot.write (List.replicate kStoreHeaderBytes 0) 1 := by
  rw [misplaced, unheaded, List.take_append_of_le_length (by rw [List.length_replicate]; decide)]
  exact (List.append_nil _).symm

/-- The header of that file. -/
theorem misplaced_usable (o : StoreObject) (kept : List StoredRecord) :
    UsableHeader (o.misplaced kept kStoreHeaderSlotBytes) := by
  rw [misplaced_half]
  refine UsableHeader.write List.length_replicate (newSlot_version _ _ _ _ _) (by decide) ?_
  intro i t hi hne ht
  obtain rfl : i = 0 := by omega
  have hblank : HeaderSlot.read (List.replicate kStoreHeaderBytes 0) 0 = none := by decide
  rw [hblank] at ht
  cases ht

/-- Behind half a header the slot is lost, and no open takes the file. -/
theorem open_misplaced_refused (o : StoreObject) (kept : List StoredRecord)
    (hwritten : kStoreHeaderSlotBytes < written) (path : String) (options : StoreOptions)
    (now : TimePoint) :
    ∃ e, open_ path options now (some (o.misplaced kept written)) =
      (.error e,some (o.misplaced kept written)) := by
  have hlong := not_lt.mpr (o.long_misplaced kept hwritten)
  obtain ⟨e,hheader⟩ : ∃ e, openHeader options.readOnly now (o.misplaced kept written) =
      .error e := by
    rw [openHeader, if_neg hlong, read_misplaced o kept written (by decide),
      read_misplaced o kept written (by decide), if_neg (by omega), if_neg (by omega)]
    exact ⟨_,rfl⟩
  by_cases harguments : options.limits.validate = .ok () ∧ now.isSet = true
  · obtain ⟨hlimits,hnow⟩ := harguments
    refine ⟨e,?_⟩
    unfold open_
    rw [hlimits, hnow]
    simp only [Option.getD_some, hheader]
  · exact open_of_invalid path _ harguments

/-- Nothing of a shorter file is taken for a store that may not be written. -/
theorem open_misplaced_short (o : StoreObject) (kept : List StoredRecord)
    (hwritten : written < kStoreHeaderSlotBytes) (path : String) (limits : Limits)
    (now : TimePoint) :
    ∃ e, (open_ path { limits := limits, readOnly := true } now
      (some (o.misplaced kept written))).1 = .error e := by
  cases hopen : (open_ path { limits := limits, readOnly := true } now
      (some (o.misplaced kept written))).1 with
  | error e => exact ⟨e,rfl⟩
  | ok t =>
    obtain ⟨-,header,found,hheader,-⟩ := passed_of_open hopen
    have hshort : (o.misplaced kept written).length < kStoreHeaderBytes := by
      rw [length_misplaced]
      simp only [kStoreHeaderBytes]
      omega
    rw [Option.getD_some, openHeader, if_pos hshort] at hheader
    cases hheader

/-- The reopen of half a header writes its first slot. -/
theorem openHeader_half (o : StoreObject) (kept : List StoredRecord) :
    ∃ opened, openHeader false o.store.recovery.openedAt
        (o.misplaced kept kStoreHeaderSlotBytes) = .ok opened ∧
      opened.file = o.reopenedSlot.write (o.misplaced kept kStoreHeaderSlotBytes) 0 := by
  have hlong : ¬ (o.misplaced kept kStoreHeaderSlotBytes).length < kStoreHeaderBytes := by
    rw [(o.misplaced_usable kept).length]
    exact lt_irrefl _
  refine ⟨reopenHeader false o.store.recovery.openedAt (o.misplaced kept kStoreHeaderSlotBytes)
    o.compactedSlot 1 true,?_,rfl⟩
  rw [openHeader, if_neg hlong, read_misplaced o kept _ (by decide),
    read_misplaced o kept _ (by decide), if_neg (by decide), if_pos (Nat.one_mul _)]
  rfl

/-- What stands at the path when a compaction has opened the misplaced slot. -/
def reopenedFile (o : StoreObject) (kept : List StoredRecord) (written : ℕ) : ByteString :=
  if written < kStoreHeaderSlotBytes then (createHeader o.store.recovery.openedAt).file
  else o.reopenedSlot.write (o.misplaced kept written) 0

/-- Up to half a header the file opens, without a record. -/
theorem Working.open_misplaced (h : Working o) (hwritable : o.store.options.readOnly = false)
    (kept : List StoredRecord) (hwritten : written ≤ kStoreHeaderSlotBytes) :
    ∃ t, open_ o.store.path o.store.options o.store.recovery.openedAt
        (some (o.misplaced kept written)) = (.ok t,some t.file) ∧
      t.readAll = .ok [] ∧ t.recordCount = 0 ∧ t.nextSequence = 1 ∧
      t.file = o.reopenedFile kept written := by
  have hoptions : o.store.options = { limits := o.limits } := by
    rw [limits, ← hwritable]
  rw [hoptions]
  rcases Nat.lt_or_eq_of_le hwritten with hshort | rfl
  · have hlength : ¬ kStoreHeaderBytes ≤ (o.misplaced kept written).length := by
      rw [length_misplaced]
      simp only [kStoreHeaderBytes]
      omega
    refine ⟨_,open_short h.valid h.opened o.store.path hlength,?_,rfl,rfl,?_⟩
    · exact Holds.readAll ⟨rfl,rfl,createHeader_holds o.limits _,rfl,Nat.zero_lt_two⟩
    · rw [reopenedFile, if_pos hshort]
      rfl
  · have husable := o.misplaced_usable kept
    obtain ⟨t,hopen,hread,hcount,hnext⟩ := @open_whole { limits := o.limits } h.valid _ h.opened _ _
      husable _ .nil (Nat.zero_le _) o.store.path
    rw [List.append_nil] at hopen
    refine ⟨t,hopen,hread,hcount,hnext,?_⟩
    obtain ⟨-,opened,found,hopened,hfound,hstore⟩ := passed_of_open (congrArg Prod.fst hopen)
    obtain ⟨other,hother,hfile⟩ := o.openHeader_half kept
    rw [Option.getD_some, hother] at hopened
    obtain rfl := Except.ok.inj hopened
    have hlength : (o.reopenedSlot.write (o.misplaced kept kStoreHeaderSlotBytes) 0).length =
        kStoreHeaderBytes :=
      (HeaderSlot.length_write (slot_inside husable.length (by decide))).trans husable.length
    have hscan := @scan_whole o.limits _ _ hlength _ .nil (Nat.zero_le _) true
    rw [List.append_nil, ← hfile] at hscan
    have hsame := hfound.symm.trans hscan
    rw [hstore, Except.ok.inj hsame, reopenedFile, if_neg (lt_irrefl _), ← hfile]
    rfl

/-- A compaction whose seek failed early returns as if it had succeeded. -/
theorem Working.replace_early (h : Working o) (hwritable : o.store.options.readOnly = false)
    (kept : List StoredRecord) (hwritten : written ≤ kStoreHeaderSlotBytes) :
    ∃ t, o.replace kept (some (.seekTemporary written)) =
        (.ok (),{ store := t, isOpen := true }) ∧
      t.readAll = .ok [] ∧ t.recordCount = 0 ∧ t.nextSequence = 1 ∧
      t.file = o.reopenedFile kept written := by
  obtain ⟨t,hopen,hkept⟩ := h.open_misplaced hwritable kept hwritten
  refine ⟨t,?_,hkept⟩
  rw [StoreObject.replace, reopen]
  simp only [closedOver, hopen]

/-- One whose seek failed later cannot open what it has put in the place of the store. -/
theorem replace_late (o : StoreObject) (kept : List StoredRecord)
    (hwritten : kStoreHeaderSlotBytes < written) :
    ∃ e, o.replace kept (some (.seekTemporary written)) =
      (.error e,o.closedOver (o.misplaced kept written)) := by
  obtain ⟨e,hopen⟩ := open_misplaced_refused o kept hwritten o.store.path o.store.options
    o.store.recovery.openedAt
  refine ⟨e,?_⟩
  rw [replace, reopen]
  simp only [closedOver, hopen]
  rfl

end Misplaced

/-- What the reopen of the misplaced slot writes. -/
def reopenWrites (o : StoreObject) (written : ℕ) : List FileOperation :=
  if written < kStoreHeaderSlotBytes then
    [.blankStore,.writeStore
      (newSlot 1 0 false o.store.recovery.openedAt o.store.recovery.openedAt) 0]
  else if written = kStoreHeaderSlotBytes then [.writeStore o.reopenedSlot 0]
  else []

/-- The operations on the temporary file around a seek that fails. -/
def misplacedWrites (o : StoreObject) (kept : List StoredRecord) (written : ℕ) :
    List FileOperation :=
  [.openTemporary,.appendTemporary ((unheaded kept).take written),
    .appendTemporary o.compactedSlot.bytes]

/-- The operations of a compaction that meets the fault. A fault that is noticed ends
them early. -/
def operationsUnder (o : StoreObject) (kept : List StoredRecord) :
    Option CompactionFault → List FileOperation
  | some (.seekTemporary written) =>
    o.misplacedWrites kept written ++ .rename :: o.reopenWrites written
  | _ => o.fileOperations kept

/-- A process that dies while it performs the operations that are left by a fault. -/
def DiesUnder (o : StoreObject) (kept : List StoredRecord) (fault : Option CompactionFault)
    (before after : Disk) : Prop :=
  Interrupted FileOperation.apply FileOperation.Torn (o.operationsUnder kept fault) before after

theorem diesUnder_iff {o : StoreObject} {kept : List StoredRecord}
    {fault : Option CompactionFault} (h : ∀ written, fault ≠ some (.seekTemporary written))
    {before after : Disk} : o.DiesUnder kept fault before after ↔ o.Dies kept before after := by
  have hsame : o.operationsUnder kept fault = o.fileOperations kept := by
    unfold operationsUnder
    split
    · rename_i written
      exact absurd rfl (h written)
    · rfl
  rw [DiesUnder, hsame, Dies]

/-- The operations leave at the path what the compaction leaves there. -/
theorem performAll_seek {o : StoreObject} (h : Working o)
    (hwritable : o.store.options.readOnly = false) (kept : List StoredRecord) (written : ℕ)
    (d : Disk) :
    CrashPoints.performAll FileOperation.apply
        (o.operationsUnder kept (some (.seekTemporary written))) d =
      { store := some (o.replace kept (some (.seekTemporary written))).2.store.file,
        temporary := none } := by
  have hrename : CrashPoints.performAll FileOperation.apply
      (o.misplacedWrites kept written ++ [.rename]) d =
      { store := some (o.misplaced kept written), temporary := none } := rfl
  rw [operationsUnder, List.append_cons, performAll_append, hrename, reopenWrites]
  rcases lt_trichotomy written kStoreHeaderSlotBytes with hshort | rfl | hlate
  · obtain ⟨t,hreplace,-,-,-,hfile⟩ := h.replace_early hwritable kept hshort.le
    have hend : (o.misplaced kept written).drop kStoreHeaderBytes = [] := by
      refine List.drop_of_length_le ?_
      rw [length_misplaced]
      simp only [kStoreHeaderBytes]
      omega
    rw [if_pos hshort, hreplace, hfile, reopenedFile, if_pos hshort]
    simp only [CrashPoints.performAll, List.foldl_cons, List.foldl_nil, FileOperation.apply,
      Option.map_some, hend, List.append_nil]
    rfl
  · obtain ⟨t,hreplace,-,-,-,hfile⟩ := h.replace_early hwritable kept le_rfl
    rw [if_neg (lt_irrefl _), if_pos rfl, hreplace, hfile, reopenedFile, if_neg (lt_irrefl _)]
    rfl
  · obtain ⟨e,hreplace⟩ := o.replace_late kept hlate
    rw [if_neg (by omega), if_neg (by omega), hreplace]
    rfl

/-- The records are the newest ones, in their order, under the numbers from one. -/
structure AreNewest (keepNewest : ℕ) (records kept : List StoredRecord) : Prop where
  entries : kept.map (fun r => (r.type,r.payload)) =
    (records.drop (records.length - min keepNewest records.length)).map
      (fun r => (r.type,r.payload))
  numbers : kept.map (·.sequence.toNat) = List.range' 1 (min keepNewest records.length)

/-- A compaction that succeeds has kept exactly the newest records and returns how many.
Wherever a process dies on the way, the store opens with all records or with these. -/
def KeepsNewest (o : StoreObject) (records : List StoredRecord) (keepNewest : ℕ)
    (fault : Option CompactionFault) : Prop :=
  ∃ kept, AreNewest keepNewest records kept ∧
    (fault = none → (o.compact keepNewest fault).1 = .ok (min keepNewest records.length)) ∧
    (∀ n, (o.compact keepNewest fault).1 = .ok n →
      n = min keepNewest records.length ∧
      (o.compact keepNewest fault).2.isOpen = true ∧
      (o.compact keepNewest fault).2.readAll = .ok kept ∧
      (o.compact keepNewest fault).2.store.recordCount = n ∧
      (o.compact keepNewest fault).2.store.nextSequence = UInt64.ofNat n + 1) ∧
    ∀ stale after, o.DiesUnder (newestOf keepNewest records) fault
        { store := some o.store.file, temporary := stale } after →
      ∀ readOnly later, later.isSet = true → ∃ file t, after.store = some file ∧
        (open_ o.store.path { limits := o.limits, readOnly := readOnly } later
          (some file)).1 = .ok t ∧
        (t.readAll = .ok records ∨ t.readAll = .ok kept)

/-- Only the fault that nobody looks at lets a replacement succeed. -/
theorem fault_of_replace {o : StoreObject} {kept : List StoredRecord}
    {fault : Option CompactionFault} (h : (o.replace kept fault).1 = .ok ()) :
    fault = none ∨ ∃ written, fault = some (.seekTemporary written) := by
  cases fault with
  | none => exact Or.inl rfl
  | some fault =>
    cases fault with
    | openTemporary => cases h
    | writeTemporary => cases h
    | seekTemporary written => exact Or.inr ⟨written,rfl⟩
    | flushTemporary => cases h
    | rename detail => cases h
    | reopen written => cases written <;> cases h

section Newest
variable {o : StoreObject} {records : List StoredRecord} {keepNewest : ℕ}
  {fault : Option CompactionFault}

/-- The kept records are the newest ones. -/
theorem Working.areNewest (h : Working o) (hread : o.store.readAll = .ok records)
    (keepNewest : ℕ) : AreNewest keepNewest records (renumbered (newestOf keepNewest records)) where
  entries := by rw [map_renumbered, newestOf_eq]
  numbers := by
    rw [(h.keepable hread keepNewest).sequences h.valid, length_newestOf, keptCount_eq]

/-- A compaction keeps the newest records unless a seek fails unnoticed. -/
theorem keepsNewest_of_noticed (h : Working o) (hopen : o.isOpen = true)
    (hwritable : o.store.options.readOnly = false) (hread : o.readAll = .ok records)
    (keepNewest : ℕ) (hfault : ∀ written, fault ≠ some (.seekTemporary written)) :
    o.KeepsNewest records keepNewest fault := by
  have hstored : o.store.readAll = .ok records := (readAll_of_open hopen).symm.trans hread
  have hkept := h.keepable hstored keepNewest
  have hlength : (newestOf keepNewest records).length = min keepNewest records.length :=
    (length_newestOf keepNewest records).trans (keptCount_eq keepNewest records)
  obtain ⟨t,hreplace,-,hreadAgain,hrecords,hsequence,-⟩ := h.replace hwritable hkept
  have hcompact : o.compact keepNewest none =
      (.ok (min keepNewest records.length),{ store := t, isOpen := true }) := by
    rw [compact_of_readAll hwritable hread, hreplace, keptCount_eq]
    rfl
  refine ⟨renumbered (newestOf keepNewest records),h.areNewest hstored keepNewest,?_,?_,?_⟩
  · rintro rfl
    exact congrArg Prod.fst hcompact
  · intro n hok
    have hnone : fault = none := by
      rw [compact_of_readAll hwritable hread] at hok
      cases hresult : (o.replace (newestOf keepNewest records) fault).1 with
      | error e =>
        rw [hresult] at hok
        cases hok
      | ok _ =>
        rcases fault_of_replace hresult with hnone | ⟨written,hseek⟩
        · exact hnone
        · exact absurd hseek (hfault written)
    subst hnone
    rw [hcompact] at hok ⊢
    obtain rfl := Except.ok.inj hok
    rw [hlength] at hrecords hsequence
    exact ⟨rfl,rfl,hreadAgain,hrecords,hsequence⟩
  · intro stale after hdies readOnly later hlater
    exact ((diesUnder_iff hfault).mp hdies).opens h hstored hkept readOnly hlater

/-- The write of the first slot of half a header replaces zeros. -/
theorem writePart_half (o : StoreObject) (kept : List StoredRecord) (written : ℕ) :
    o.reopenedSlot.writePart written (o.misplaced kept kStoreHeaderSlotBytes) 0 =
      HeaderSlot.overwrite (o.misplaced kept kStoreHeaderSlotBytes) 0
        (o.reopenedSlot.torn written) := by
  have hhalf : o.misplaced kept kStoreHeaderSlotBytes =
      List.replicate kStoreHeaderSlotBytes 0 ++ o.compactedSlot.bytes := by
    rw [misplaced, unheaded, List.take_append_of_le_length
      (by rw [List.length_replicate]; decide)]
    rfl
  have hpart : (o.reopenedSlot.bytes.take written).length =
      min written kStoreHeaderSlotBytes := by
    rw [List.length_take, HeaderSlot.length_bytes]
  have hleft : kStoreHeaderSlotBytes - min written kStoreHeaderSlotBytes =
      kStoreHeaderSlotBytes - written := by omega
  rw [hhalf, HeaderSlot.writePart, HeaderSlot.overwrite, HeaderSlot.torn, Nat.zero_mul,
    Nat.zero_add, Nat.one_mul, List.take_zero, List.nil_append, List.nil_append, hpart,
    List.drop_append_of_le_length (by rw [List.length_replicate]; exact Nat.min_le_right _ _),
    List.drop_replicate, hleft, List.drop_left' List.length_replicate, List.append_assoc]

/-- Wherever the process dies, the old file stands at the path or half a header, with
some bytes of its first slot written. -/
theorem DiesUnder.half_cases {kept : List StoredRecord} {before after : Disk}
    (h : o.DiesUnder kept (some (.seekTemporary kStoreHeaderSlotBytes)) before after) :
    after.store = before.store ∨
      ∃ header, after.store = some header ∧ UsableHeader header := by
  have husable := o.misplaced_usable kept
  rw [DiesUnder, operationsUnder, reopenWrites, if_neg (lt_irrefl _), if_pos rfl] at h
  rcases Interrupted.append_cases h with hfirst | hsecond
  · refine Or.inl (Interrupted.invariant (fun d => d.store = before.store) ?_ ?_ hfirst rfl)
    · intro operation hop d hd
      simp only [misplacedWrites, List.mem_cons, List.not_mem_nil, or_false] at hop
      rcases hop with rfl | rfl | rfl <;> exact hd
    · rintro operation hop d _ hd ⟨written,rfl⟩
      simp only [misplacedWrites, List.mem_cons, List.not_mem_nil, or_false] at hop
      rcases hop with rfl | rfl | rfl <;> exact hd
  · cases hsecond with
    | stopped => exact Or.inl rfl
    | torn hrename =>
      obtain ⟨written,rfl⟩ := hrename
      exact Or.inl rfl
    | later hreopen =>
      refine Or.inr ?_
      cases hreopen with
      | stopped => exact ⟨_,rfl,husable⟩
      | torn hslot =>
        obtain ⟨written,rfl⟩ := hslot
        refine ⟨o.reopenedSlot.writePart written (o.misplaced kept kStoreHeaderSlotBytes) 0,rfl,?_⟩
        rw [writePart_half]
        exact usable_of_torn husable.length (by decide) (by decide) Nat.one_ne_zero
          ((read_misplaced o kept _ (by decide)).trans (if_pos (Nat.one_mul _)))
          (newSlot_version _ _ _ _ _) (newSlot_version _ _ _ _ _) written
      | later hend =>
        cases hend with
        | stopped =>
          refine ⟨_,rfl,UsableHeader.write husable.length (newSlot_version _ _ _ _ _)
            (by decide) (fun i t hi _ ht => husable.version i t hi ht)⟩

/-- Half a header stands for no records. -/
theorem keepsNewest_of_half (h : Working o) (hopen : o.isOpen = true)
    (hwritable : o.store.options.readOnly = false) (hread : o.readAll = .ok records)
    (hnone : min keepNewest records.length = 0) :
    o.KeepsNewest records keepNewest (some (.seekTemporary kStoreHeaderSlotBytes)) := by
  have hstored : o.store.readAll = .ok records := (readAll_of_open hopen).symm.trans hread
  obtain ⟨t,hreplace,hreadAgain,hrecords,hsequence,-⟩ :=
    h.replace_early hwritable (newestOf keepNewest records) le_rfl
  have hcompact : o.compact keepNewest (some (.seekTemporary kStoreHeaderSlotBytes)) =
      (.ok 0,{ store := t, isOpen := true }) := by
    rw [compact_of_readAll hwritable hread, hreplace, keptCount_eq, hnone]
    rfl
  refine ⟨[],⟨?_,by rw [hnone]; rfl⟩,?_,?_,?_⟩
  · rw [hnone, Nat.sub_zero, List.drop_length]
  · intro hfault
    cases hfault
  · intro n hok
    rw [hcompact] at hok ⊢
    obtain rfl := Except.ok.inj hok
    exact ⟨hnone.symm,rfl,hreadAgain,hrecords,hsequence⟩
  · intro stale after hdies readOnly later hlater
    rcases hdies.half_cases with hsame | ⟨header,hheader,husable⟩
    · obtain ⟨header,rest,husable,hfile⟩ := h.headed
      obtain ⟨hwhole,hcount⟩ := wholeRecords_of_readAll husable.length hfile hstored
      obtain ⟨u,hopened,hback,-,-⟩ := @open_whole { limits := o.limits, readOnly := readOnly }
        h.valid later hlater header rest husable records hwhole hcount o.store.path
      exact ⟨_,u,hsame.trans (congrArg some hfile),congrArg Prod.fst hopened,Or.inl hback⟩
    · obtain ⟨u,hopened,hback,-,-⟩ := @open_whole { limits := o.limits, readOnly := readOnly }
        h.valid later hlater header [] husable [] .nil (Nat.zero_le _) o.store.path
      rw [List.append_nil] at hopened
      exact ⟨header,u,hheader,congrArg Prod.fst hopened,Or.inr hback⟩

/-- Everywhere else an unnoticed seek loses records: right behind the rename the file
cannot be read, or has none. -/
theorem not_keepsNewest_of_seek (h : Working o) {written : ℕ}
    (hlost : ¬ (written = kStoreHeaderSlotBytes ∧ min keepNewest records.length = 0)) :
    ¬ o.KeepsNewest records keepNewest (some (.seekTemporary written)) := by
  rintro ⟨kept,hnewest,-,-,hcrash⟩
  have hrenamed : o.DiesUnder (newestOf keepNewest records) (some (.seekTemporary written))
      { store := some o.store.file }
      { store := some (o.misplaced (newestOf keepNewest records) written) } :=
    .later (.later (.later (.later (.stopped _ _))))
  obtain ⟨file,t,hfile,hopen,hback⟩ := hcrash none _ hrenamed true ⟨0⟩ (by decide)
  obtain rfl := Option.some.inj hfile
  rcases lt_trichotomy written kStoreHeaderSlotBytes with hshort | rfl | hlate
  · obtain ⟨e,herror⟩ := o.open_misplaced_short (newestOf keepNewest records) hshort o.store.path
      o.limits ⟨0⟩
    rw [herror] at hopen
    cases hopen
  · have hsome : min keepNewest records.length ≠ 0 := fun hnone => hlost ⟨rfl,hnone⟩
    obtain ⟨u,hopened,hnothing,-,-⟩ := @open_whole { limits := o.limits, readOnly := true }
      h.valid ⟨0⟩ (by decide) _ [] (o.misplaced_usable (newestOf keepNewest records)) [] .nil
      (Nat.zero_le _) o.store.path
    rw [List.append_nil] at hopened
    obtain rfl : u = t := Except.ok.inj ((congrArg Prod.fst hopened).symm.trans hopen)
    rcases hback with hall | hkept
    · obtain rfl := Except.ok.inj (hnothing.symm.trans hall)
      exact hsome (Nat.min_zero _)
    · obtain rfl := Except.ok.inj (hnothing.symm.trans hkept)
      have hcount := congrArg List.length hnewest.numbers
      rw [List.length_range'] at hcount
      exact hsome hcount.symm
  · obtain ⟨e,herror⟩ := open_misplaced_refused o (newestOf keepNewest records) hlate o.store.path
      { limits := o.limits, readOnly := true } ⟨0⟩
    rw [herror] at hopen
    cases hopen

end Newest

/-- A new store with two records. -/
def markedTwice : StoreObject :=
  StoreObject.performAll { store := newStore.toOption.getD {}, isOpen := true }
    [.append .marker [1,2,3] none,.append .evidence [] none]

theorem markedTwice_reachable : Reachable markedTwice := by
  have hopened : newStore.toOption.isSome = true := by decide +kernel
  cases hnew : newStore with
  | error e =>
    rw [hnew] at hopened
    cases hopened
  | ok s =>
    have hfirst : Reachable { store := newStore.toOption.getD {}, isOpen := true } := by
      rw [hnew]
      exact Reachable.opened hnew
    exact (hfirst.performed (.append .marker [1,2,3] none)).performed (.append .evidence [] none)

theorem markedTwice_facts :
    markedTwice.isOpen = true ∧ markedTwice.store.options.readOnly = false ∧
      markedTwice.readAll = .ok
        [{ type := .marker, sequence := 1, payload := [1,2,3] },
          { type := .evidence, sequence := 2, payload := [] }] := by
  have hevaluated : markedTwice.isOpen = true ∧ markedTwice.store.options.readOnly = false ∧
      markedTwice.readAll.toOption = some
        [{ type := .marker, sequence := 1, payload := [1,2,3] },
          { type := .evidence, sequence := 2, payload := [] }] := by decide +kernel
  obtain ⟨hopen,hwritable,hread⟩ := hevaluated
  exact ⟨hopen,hwritable,toOption_eq_some_iff.mp hread⟩

/-- The object after a failed operation still works: its handle is open, it reads what
it read before, and what could be appended is appended under the next number. -/
structure Unharmed (before after : StoreObject) : Prop where
  isOpen : after.isOpen = true
  readAll : after.readAll = before.readAll
  append : ∀ type payload, before.store.checkAppend payload = .ok () →
    (after.attempt type payload none).1 = .ok () ∧
      (after.attempt type payload none).2.store.file = before.store.file ++ StoredRecord.bytes
        { type := type, sequence := before.store.nextSequence, payload := payload }

theorem unharmed_refl {o : StoreObject} (hopen : o.isOpen = true) : Unharmed o o := by
  refine ⟨hopen,rfl,?_⟩
  intro type payload hcheck
  have hstore : ({ o.store with faults := [none] } : PersistentStore).checkAppend payload =
      .ok () := hcheck
  unfold attempt append
  simp only [hopen, if_true, PersistentStore.append, hstore]
  exact ⟨trivial,trivial⟩

/-- The faults that are met when the handle has been closed. -/
def ClosesHandle (fault : Option CompactionFault) : Prop :=
  (∃ detail, fault = some (.rename detail)) ∨
    (∃ written, fault = some (.reopen written)) ∨
    ∃ written > kStoreHeaderSlotBytes, fault = some (.seekTemporary written)

/-- The remaining faults are met with the handle open, or are not noticed. -/
theorem Working.replace_closes_or_spares {o : StoreObject} (h : Working o)
    (hwritable : o.store.options.readOnly = false) {kept : List StoredRecord}
    (hkept : Keepable o kept) (fault : Option CompactionFault) :
    ((∃ e, (o.replace kept fault).1 = .error e) ∧ (o.replace kept fault).2.isOpen = false ∧
      ClosesHandle fault) ∨
    (((o.replace kept fault).1 = .ok () ∨ (o.replace kept fault).2 = o) ∧
      ¬ ClosesHandle fault) := by
  cases fault with
  | none =>
    obtain ⟨t,hreplace,-⟩ := h.replace hwritable hkept
    exact Or.inr ⟨Or.inl (congrArg Prod.fst hreplace),by simp [ClosesHandle]⟩
  | some fault =>
    cases fault with
    | openTemporary => exact Or.inr ⟨Or.inr rfl,by simp [ClosesHandle]⟩
    | writeTemporary => exact Or.inr ⟨Or.inr rfl,by simp [ClosesHandle]⟩
    | flushTemporary => exact Or.inr ⟨Or.inr rfl,by simp [ClosesHandle]⟩
    | seekTemporary written =>
      -- The reopen takes the file up to half a header, and refuses it behind.
      rcases Nat.lt_or_ge kStoreHeaderSlotBytes written with hlate | hearly
      · obtain ⟨e,hreplace⟩ := o.replace_late kept hlate
        refine Or.inl ⟨⟨e,congrArg Prod.fst hreplace⟩,?_,Or.inr (Or.inr ⟨written,hlate,rfl⟩)⟩
        rw [hreplace]
        rfl
      · obtain ⟨t,hreplace,-⟩ := h.replace_early hwritable kept hearly
        exact Or.inr ⟨Or.inl (congrArg Prod.fst hreplace),by simpa [ClosesHandle] using hearly⟩
    | rename detail => exact Or.inl ⟨⟨_,rfl⟩,rfl,Or.inl ⟨detail,rfl⟩⟩
    | reopen written =>
      cases written with
      | none => exact Or.inl ⟨⟨_,rfl⟩,rfl,Or.inr (Or.inl ⟨none,rfl⟩)⟩
      | some written => exact Or.inl ⟨⟨_,rfl⟩,rfl,Or.inr (Or.inl ⟨some written,rfl⟩)⟩

/-- A compaction that fails leaves a working object, unless the records were read and the
rename or the reopen is what fails, or the seek did behind half a header, so that the
reopen refuses the file: the handle was closed for these. -/
theorem compact_error_unharmed_iff {o : StoreObject} (hreach : Reachable o)
    (hopen : o.isOpen = true) (hwritable : o.store.options.readOnly = false) (keepNewest : ℕ)
    (fault : Option CompactionFault) :
    (∀ e, (o.compact keepNewest fault).1 = .error e → Unharmed o (o.compact keepNewest fault).2) ↔
      ¬ ((∃ records, o.readAll = .ok records) ∧
        ((∃ detail, fault = some (.rename detail)) ∨
          (∃ written, fault = some (.reopen written)) ∨
          ∃ written > kStoreHeaderSlotBytes, fault = some (.seekTemporary written))) := by
  show _ ↔ ¬ (_ ∧ ClosesHandle fault)
  cases hread : o.readAll with
  | error e =>
    have hsame : (o.compact keepNewest fault).2 = o := by
      unfold compact
      rw [hwritable, hread]
      rfl
    rw [hsame]
    refine ⟨fun _ => ?_,fun _ _ _ => unharmed_refl hopen⟩
    rintro ⟨⟨records,hrecords⟩,-⟩
    cases hrecords
  | ok records =>
    have hworking := hreach.working hopen hwritable
    have hkept := hworking.keepable ((readAll_of_open hopen).symm.trans hread) keepNewest
    have hcompact := compact_of_readAll hwritable hread keepNewest fault
    rcases hworking.replace_closes_or_spares hwritable hkept fault with
      ⟨⟨e,herror⟩,hclosed,hcloses⟩ | ⟨hharmless,hcloses⟩
    · refine iff_of_false (fun hunharmed => ?_) (not_not.mpr ⟨⟨records,rfl⟩,hcloses⟩)
      have hstill := (hunharmed e (by rw [hcompact, herror]; rfl)).isOpen
      rw [hcompact, hclosed] at hstill
      cases hstill
    · refine iff_of_true (fun e herror => ?_) (fun hboth => hcloses hboth.2)
      rcases hharmless with hok | hsame
      · rw [hcompact, hok] at herror
        cases herror
      · rw [hcompact, hsame]
        exact unharmed_refl hopen

/-- A flush of the temporary file that fails does no harm. -/
theorem failed_flush_unharmed :
    (markedTwice.compact 1 (some .flushTemporary)).1.toBool = false ∧
      Unharmed markedTwice (markedTwice.compact 1 (some .flushTemporary)).2 := by
  have hevaluated : markedTwice.isOpen = true ∧ markedTwice.store.options.readOnly = false ∧
      (markedTwice.compact 1 (some .flushTemporary)).1.toBool = false := by
    decide +kernel
  obtain ⟨hopen,hwritable,hfails⟩ := hevaluated
  refine ⟨hfails,?_⟩
  cases hcompact : (markedTwice.compact 1 (some .flushTemporary)).1 with
  | ok report =>
    rw [hcompact] at hfails
    cases hfails
  | error e =>
    refine (compact_error_unharmed_iff markedTwice_reachable hopen hwritable 1
      (some .flushTemporary)).mpr ?_ e hcompact
    rintro ⟨-,⟨detail,hfault⟩ | ⟨written,hfault⟩ | ⟨written,-,hfault⟩⟩
    · cases hfault
    · cases hfault
    · cases hfault

/-- A rename that fails closes the object, whose file is as it was. -/
theorem failed_rename_closes :
    Reachable markedTwice ∧ markedTwice.isOpen = true ∧
      markedTwice.store.options.readOnly = false ∧
      (∃ e, (markedTwice.compact 1 (some (.rename "denied"))).1 = .error e) ∧
      ¬ Unharmed markedTwice (markedTwice.compact 1 (some (.rename "denied"))).2 ∧
      ((markedTwice.compact 1 (some (.rename "denied"))).2.append .marker []).1 =
        .error { code := .invalidState, message := "append on a closed store" } := by
  have hevaluated : markedTwice.isOpen = true ∧ markedTwice.store.options.readOnly = false ∧
      (markedTwice.compact 1 (some (.rename "denied"))).1 =
        .error { code := .ioFailure, message := "compaction could not replace the store",
                 detail := "denied" } ∧
      (markedTwice.compact 1 (some (.rename "denied"))).2.isOpen = false ∧
      ((markedTwice.compact 1 (some (.rename "denied"))).2.append .marker []).1 =
        .error { code := .invalidState, message := "append on a closed store" } := by
    decide +kernel
  obtain ⟨hopen,hwritable,herror,hclosed,happend⟩ := hevaluated
  refine ⟨markedTwice_reachable,hopen,hwritable,⟨_,herror⟩,fun h => ?_,happend⟩
  have hstill := h.isOpen
  rw [hclosed] at hstill
  cases hstill

end StoreObject

end PathObservatory
