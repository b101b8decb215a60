import Mathlib.Data.List.Induction
import PathObservatory.Store.Opening

/-! # Recovery of a store with a torn tail

Cutting a file of whole records anywhere behind its header leaves whole records
and a stub, so that the next open keeps what lies wholly before the cut.
-/
namespace PathObservatory
namespace PersistentStore
variable {limits : Limits}

/-- Append after append, as long as they succeed. -/
def appendAll (s : PersistentStore) : List (RecordType × ByteString) → Result PersistentStore
  | [] => .ok s
  | (type,payload) :: rest =>
    match s.append type payload with
    | (.error e,_) => .error e
    | (.ok (),s) => s.appendAll rest

/-- The records of these appends, numbered from one. -/
def numbered (appends : List (RecordType × ByteString)) : List StoredRecord :=
  appends.zipIdx.map (fun entry =>
    { type := entry.1.1, sequence := UInt64.ofNat (entry.2 + 1), payload := entry.1.2 })

@[simp] theorem length_numbered (appends : List (RecordType × ByteString)) :
    (numbered appends).length = appends.length := by
  simp [numbered]

theorem numbered_concat (appends : List (RecordType × ByteString)) (type : RecordType)
    (payload : ByteString) :
    numbered (appends ++ [(type,payload)]) = numbered appends ++
      [{ type := type, sequence := UInt64.ofNat (appends.length + 1), payload := payload }] := by
  simp [numbered, List.zipIdx_append]

theorem sequences_numbered {appends : List (RecordType × ByteString)}
    (h : appends.length < 2 ^ 64) :
    (numbered appends).map (·.sequence.toNat) = List.range' 1 appends.length := by
  induction appends using List.reverseRecOn with
  | nil => rfl
  | append_singleton appends entry ih =>
    rw [List.length_append, List.length_singleton] at h
    have hlast : (UInt64.ofNat (appends.length + 1)).toNat = appends.length + 1 := by
      rw [UInt64.toNat_ofNat']
      exact Nat.mod_eq_of_lt h
    rw [numbered_concat, List.map_append, ih (by omega), List.length_append,
      List.length_singleton, List.range'_1_concat, List.map_singleton, hlast, add_comm 1]

/-- The numbering of a store continues its records. -/
structure Counts (s : PersistentStore) (limits : Limits)
    (appends : List (RecordType × ByteString)) : Prop where
  holds : s.Holds limits (numbered appends)
  sequence : s.nextSequence = UInt64.ofNat appends.length + 1

theorem Counts.append {s : PersistentStore} {appends : List (RecordType × ByteString)}
    (h : s.Counts limits appends) (hlimits : limits.maxStoreRecordBytes < 2 ^ 32)
    {type : RecordType} {payload : ByteString} (hok : (s.append type payload).1 = .ok ()) :
    (s.append type payload).2.Counts limits (appends ++ [(type,payload)]) := by
  have hsequence : s.nextSequence = UInt64.ofNat (appends.length + 1) := by
    rw [h.sequence, UInt64.ofNat_add]
    rfl
  rcases h.holds.append_cases hlimits type payload with ⟨e,herror⟩ | ⟨-,hholds⟩
  · rw [herror] at hok
    cases hok
  · refine ⟨?_,?_⟩
    · rw [numbered_concat, ← hsequence]
      exact hholds
    · have hnext : (s.append type payload).2.nextSequence = s.nextSequence + 1 := by
        unfold PersistentStore.append at hok ⊢
        split at hok
        · cases hok
        · rw [h.holds.healthy]
      rw [hnext, hsequence, List.length_append, List.length_singleton]

theorem Counts.appendAll {s t : PersistentStore} {done appends : List (RecordType × ByteString)}
    (h : s.Counts limits done) (hlimits : limits.maxStoreRecordBytes < 2 ^ 32)
    (happends : s.appendAll appends = .ok t) : t.Counts limits (done ++ appends) := by
  induction appends generalizing s done with
  | nil =>
    obtain rfl := Except.ok.inj happends
    rwa [List.append_nil]
  | cons entry rest ih =>
    obtain ⟨type,payload⟩ := entry
    rw [PersistentStore.appendAll] at happends
    split at happends
    · cases happends
    · rename_i next happend
      have hok : (s.append type payload).1 = .ok () := by rw [happend]
      have hnext := h.append hlimits hok
      rw [happend] at hnext
      have hrest := ih hnext happends
      rwa [List.append_assoc] at hrest

/-- Only a file shorter than a header becomes a new store. -/
theorem eq_createHeader {now : TimePoint} {file : ByteString} {header : OpenedHeader}
    (h : openHeader false now file = .ok header) (hcreated : header.recovery.created = true) :
    header = createHeader now := by
  rcases openHeader_eq_ok h with ⟨-,-,hcreate⟩ | ⟨-,chosen,slot,-,-,rfl⟩
  · exact hcreate
  · cases hcreated

/-- A store that was created holds nothing yet. -/
theorem eq_of_created {path : String} {now : TimePoint} {content : Option ByteString}
    {s : PersistentStore} (hopen : (open_ path { limits := limits } now content).1 = .ok s)
    (hcreated : s.recovery.created = true) :
    s = ofScan path { limits := limits } (createHeader now) {} := by
  obtain ⟨-,header,found,hheader,hfound,rfl⟩ := open_eq_ok hopen
  obtain rfl := eq_createHeader hheader hcreated
  rw [(createHeader_holds limits now).scan] at hfound
  rw [← Except.ok.inj hfound]
  rfl

theorem counts_of_created {path : String} {now : TimePoint} {content : Option ByteString}
    {s : PersistentStore} (hopen : (open_ path { limits := limits } now content).1 = .ok s)
    (hcreated : s.recovery.created = true) : s.Counts limits [] := by
  rw [eq_of_created hopen hcreated]
  exact ⟨⟨rfl,rfl,createHeader_holds limits now,rfl,Nat.zero_lt_two⟩,rfl⟩

/-- Where the first records of a file end. -/
def boundary (records : List StoredRecord) (n : ℕ) : ℕ :=
  kStoreHeaderBytes + ((records.take n).flatMap StoredRecord.bytes).length

/-- The first records lie wholly before the offset, and no more of them. -/
structure WholeBefore (records : List StoredRecord) (offset count : ℕ) : Prop where
  le : count ≤ records.length
  before : boundary records count ≤ offset
  all : ∀ n ≤ records.length, boundary records n ≤ offset → n ≤ count

/-- Cutting a stream of records leaves whole records and a stub. -/
theorem exists_take_flatMap_bytes {records : List StoredRecord}
    (hfits : ∀ r ∈ records, r.Fits limits) {room : ℕ}
    (hroom : room ≤ (records.flatMap StoredRecord.bytes).length) :
    ∃ count stub, count ≤ records.length ∧ Stub limits stub ∧
      (records.flatMap StoredRecord.bytes).take room =
        (records.take count).flatMap StoredRecord.bytes ++ stub ∧
      (count < records.length →
        room < ((records.take (count + 1)).flatMap StoredRecord.bytes).length) := by
  induction records generalizing room with
  | nil => exact ⟨0,[],le_rfl,stub_nil limits,by simp,fun h => absurd h (Nat.lt_irrefl 0)⟩
  | cons r records ih =>
    rw [List.flatMap_cons, List.length_append] at hroom
    by_cases hwhole : r.bytes.length ≤ room
    · obtain ⟨count,stub,hcount,hstub,htake,hnext⟩ :=
        ih (fun s hs => hfits s (List.mem_cons_of_mem r hs))
          (show room - r.bytes.length ≤ _ by omega)
      refine ⟨count + 1,stub,by simpa using hcount,hstub,?_,fun h => ?_⟩
      · rw [List.flatMap_cons, List.take_append, List.take_of_length_le hwhole, htake,
          List.take_succ_cons, List.flatMap_cons, List.append_assoc]
      · have hbelow := hnext (by simpa using h)
        rw [List.take_succ_cons, List.flatMap_cons, List.length_append]
        omega
    · have htorn := not_le.mp hwhole
      refine ⟨0,r.bytes.take room,Nat.zero_le _,stub_torn (hfits r List.mem_cons_self) htorn,?_,
        fun _ => ?_⟩
      · rw [List.flatMap_cons, List.take_append_of_le_length htorn.le]
        rfl
      · simpa using htorn

theorem boundary_mono (records : List StoredRecord) {m n : ℕ} (h : m ≤ n) :
    boundary records m ≤ boundary records n := by
  obtain ⟨rest,hrest⟩ : records.take m <+: records.take n := List.take_prefix_take_left h
  unfold boundary
  rw [← hrest, List.flatMap_append, List.length_append]
  omega

/-- A file that is cut behind its header keeps its header, the records that lie
wholly before the cut, and a stub. -/
theorem FileHolds.cut {file : ByteString} {records : List StoredRecord}
    (h : FileHolds limits file records) {k : ℕ} (hk : kStoreHeaderBytes ≤ k)
    (hcut : k ≤ file.length) :
    ∃ header m stub, UsableHeader header ∧ WholeBefore records k m ∧ Stub limits stub ∧
      file.take k = header ++ ((records.take m).flatMap StoredRecord.bytes ++ stub) ∧
      k = boundary records m + stub.length := by
  obtain ⟨header,husable,rfl⟩ := h.shape
  have hlong : header.length ≤ k := husable.length.trans_le hk
  have hroom : k - kStoreHeaderBytes ≤ (records.flatMap StoredRecord.bytes).length := by
    rw [List.length_append, husable.length] at hcut
    omega
  obtain ⟨m,stub,hm,hstub,htake,hnext⟩ := exists_take_flatMap_bytes h.fits hroom
  have hlength : k = boundary records m + stub.length := by
    have hsame := congrArg List.length htake
    rw [List.length_take, min_eq_left hroom, List.length_append] at hsame
    rw [boundary]
    omega
  refine ⟨header,m,stub,husable,⟨hm,by omega,fun n hn hbefore => ?_⟩,hstub,?_,hlength⟩
  · by_contra hlt
    have hmono := boundary_mono records (show m + 1 ≤ n by omega)
    have hbeyond := hnext (by omega)
    rw [boundary] at hmono
    omega
  · rw [List.take_append, List.take_of_length_le hlong, husable.length, htake]

/-- The stub is empty where the cut is a record boundary. -/
theorem WholeBefore.stub_ne_nil_iff {records : List StoredRecord} {k m : ℕ} {stub : ByteString}
    (h : WholeBefore records k m) (hk : k = boundary records m + stub.length) :
    stub ≠ [] ↔ ∀ n ≤ records.length, k ≠ boundary records n := by
  rw [← List.length_pos_iff]
  constructor
  · intro hstub n hn heq
    have hmono := boundary_mono records (h.all n hn heq.ge)
    omega
  · intro hnone
    have hbeyond := hnone m h.le
    omega

/-- Torn tail recovery: however a store that only saw succeeding appends is cut off
behind its header, it is opened with exactly the records that lie wholly before the
cut, and goes on from there. -/
theorem torn_tail_recovers (hlimits : limits.validate = .ok ()) {path : String}
    {now : TimePoint} {content : Option ByteString} {s t : PersistentStore}
    (hopen : (open_ path { limits := limits } now content).1 = .ok s)
    (hcreated : s.recovery.created = true) {appends : List (RecordType × ByteString)}
    (happends : s.appendAll appends = .ok t) {k : ℕ} (hk : kStoreHeaderBytes ≤ k)
    (hcut : k ≤ t.file.length) {later : TimePoint} (hlater : later.isSet = true) :
    ∃ m reopened, WholeBefore (numbered appends) k m ∧
      open_ path { limits := limits } later (some (t.file.take k)) =
        (.ok reopened,some reopened.file) ∧
      reopened.recovery.validRecords = m ∧
      reopened.file.length = boundary (numbered appends) m ∧
      (reopened.recovery.corruptTailTruncated = true ↔
        ∀ n ≤ appends.length, k ≠ boundary (numbered appends) n) ∧
      reopened.readAll = .ok ((numbered appends).take m) ∧
      ((numbered appends).take m).map (·.sequence.toNat) = List.range' 1 m ∧
      ∀ type payload, (reopened.append type payload).1 = .ok () →
        (reopened.append type payload).2.readAll = .ok ((numbered appends).take m ++
          [{ type := type, sequence := UInt64.ofNat (m + 1), payload := payload }]) := by
  have hbytes : limits.maxStoreRecordBytes < 2 ^ 32 := (Limits.lt_of_validate hlimits).2.2.2.2
  have hcounts : t.Counts limits appends :=
    (counts_of_created hopen hcreated).appendAll hbytes happends
  have hholds := hcounts.holds.file
  obtain ⟨header,m,stub,husable,hwhole,hstub,hfile,hlength⟩ := hholds.cut hk hcut
  have hm : m ≤ appends.length := hwhole.le.trans_eq (length_numbered appends)
  have hfirst : ((numbered appends).take m).length = m := by
    rw [List.length_take, min_eq_left hwhole.le]
  obtain ⟨reopened,hreopen,hkeeps,hvalid,htorn,hsequence,hhealthy⟩ := open_stubbed hlimits
    hlater husable (wholeRecords_flatMap (fun r hr => hholds.fits r (List.mem_of_mem_take hr)))
    (hfirst.trans_le (hwhole.le.trans hholds.count)) hstub path
  refine ⟨m,reopened,hwhole,hfile ▸ hreopen,hvalid.trans hfirst,?_,?_,hkeeps.readAll,?_,
    fun type payload hok => ?_⟩
  · exact hkeeps.length_file.trans hkeeps.size
  · rw [htorn, hwhole.stub_ne_nil_iff hlength, length_numbered]
  · have hsmall : appends.length < 2 ^ 64 := by
      have hrecords := Limits.maxStoreRecords_lt_of_validate hlimits
      have hcount := hholds.count
      rw [length_numbered] at hcount
      omega
    rw [List.map_take, sequences_numbered hsmall, List.take_range'_of_length_ge hm]
  · rw [(hkeeps.append hhealthy hbytes hok).readAll, hsequence, hfirst, UInt64.ofNat_add]
    rfl

/-- Two records of 35 and 32 bytes. -/
def twoAppends : List (RecordType × ByteString) := [(.marker,[1,2,3]),(.evidence,[])]

/-- Cut inside the header of the second record the store keeps the first. -/
theorem second_header_torn : ∃ s t, newStore = .ok s ∧ s.appendAll twoAppends = .ok t ∧
    ∃ m reopened, WholeBefore (numbered twoAppends) 170 m ∧
      open_ "store" {} ⟨2⟩ (some (t.file.take 170)) = (.ok reopened,some reopened.file) ∧
      reopened.recovery.validRecords = m ∧
      reopened.readAll = .ok ((numbered twoAppends).take m) := by
  have hevaluated : newStore.toOption.map (·.recovery.created) = some true ∧
      (newStore.bind (·.appendAll twoAppends)).toOption.map (·.file.length) = some 195 := by
    decide +kernel
  obtain ⟨hcreated,happended⟩ := hevaluated
  obtain ⟨s,hs,hnew⟩ := Option.map_eq_some_iff.mp hcreated
  obtain ⟨t,ht,hlength⟩ := Option.map_eq_some_iff.mp happended
  rw [toOption_eq_some_iff] at hs ht
  obtain ⟨s',hs',happends⟩ := bind_eq_ok.mp ht
  obtain rfl := Except.ok.inj (hs.symm.trans hs')
  obtain ⟨m,reopened,hwhole,hopened,hvalid,-,-,hread,-⟩ :=
    torn_tail_recovers (by decide) hs hnew happends
      (show kStoreHeaderBytes ≤ 170 by decide) (by omega)
      (show (⟨2⟩ : TimePoint).isSet = true by decide)
  exact ⟨s,t,hs,happends,m,reopened,hwhole,hopened,hvalid,hread⟩

end PersistentStore

end PathObservatory
