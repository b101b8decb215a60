import PathObservatory.Store.CompactionFaults
import PathObservatory.Store.HeaderSlots

/-! # The clean flag

The flag stands in the newest header slot, and an append leaves the header alone. So
the flag tells the truth along a run as long as nothing is appended to a file that is
marked clean.
-/
namespace PathObservatory
namespace StoreObject
open PersistentStore

/-- The newest slot of the file has the clean flag. -/
def MarkedClean (file : ByteString) : Prop :=
  ∃ chosen slot, chooseSlot (HeaderSlot.read file 0) (HeaderSlot.read file 1) =
    some (chosen,slot) ∧ chosen.flags &&& kFlagCleanShutdown ≠ 0

theorem markedClean_iff_any {file : ByteString} : MarkedClean file ↔
    (chooseSlot (HeaderSlot.read file 0) (HeaderSlot.read file 1)).any
      (fun chosen => chosen.1.flags &&& kFlagCleanShutdown ≠ 0) = true := by
  simp [MarkedClean, Option.any_eq_true]

instance (file : ByteString) : Decidable (MarkedClean file) :=
  decidable_of_iff _ markedClean_iff_any.symm

/-- So many more headers can be written before the generations wrap. -/
def Short (headers : ℕ) (file : ByteString) : Prop :=
  ∀ i < 2, ∀ s, HeaderSlot.read file i = some s → s.generation.toNat + headers < 2 ^ 64

theorem short_iff_all {headers : ℕ} {file : ByteString} : Short headers file ↔
    ∀ i < 2, (HeaderSlot.read file i).all
      (fun s => s.generation.toNat + headers < 2 ^ 64) = true := by
  simp [Short, Option.all_eq_true]

instance (headers : ℕ) (file : ByteString) : Decidable (Short headers file) :=
  decidable_of_iff _ short_iff_all.symm

theorem Short.mono {m n : ℕ} {file : ByteString} (h : Short n file) (hle : m ≤ n) :
    Short m file := fun i hi s hs => Nat.lt_of_le_of_lt (Nat.add_le_add_left hle _) (h i hi s hs)

/-- A file whose header is known, with anything behind it. -/
structure Headed (file : ByteString) (slot : ℕ) (newest : HeaderSlot) : Prop where
  split : ∃ header rest, file = header ++ rest ∧ Alternating header slot newest

namespace Headed
variable {file : ByteString} {slot : ℕ} {newest : HeaderSlot}

theorem read (h : Headed file slot newest) : HeaderSlot.read file slot = some newest := by
  obtain ⟨header,rest,rfl,halternating⟩ := h.split
  exact (read_append halternating.length halternating.slot_lt rest).trans
    halternating.leads.holds

theorem choose (h : Headed file slot newest) :
    chooseSlot (HeaderSlot.read file 0) (HeaderSlot.read file 1) = some (newest,slot) := by
  obtain ⟨header,rest,rfl,halternating⟩ := h.split
  rw [read_append halternating.length (by decide), read_append halternating.length (by decide)]
  exact halternating.choose

theorem long (h : Headed file slot newest) : kStoreHeaderBytes ≤ file.length := by
  obtain ⟨header,rest,rfl,halternating⟩ := h.split
  rw [List.length_append, halternating.length]
  exact Nat.le_add_right _ _

theorem markedClean_iff (h : Headed file slot newest) :
    MarkedClean file ↔ newest.flags &&& kFlagCleanShutdown ≠ 0 := by
  constructor
  · rintro ⟨chosen,index,hchosen,hflag⟩
    rw [h.choose] at hchosen
    cases hchosen
    exact hflag
  · intro hflag
    exact ⟨newest,slot,h.choose,hflag⟩

theorem append (h : Headed file slot newest) (tail : ByteString) :
    Headed (file ++ tail) slot newest := by
  obtain ⟨header,rest,rfl,halternating⟩ := h.split
  exact ⟨⟨header,rest ++ tail,by rw [List.append_assoc],halternating⟩⟩

/-- A newer header is written to the other slot, and the file changes. -/
theorem write (h : Headed file slot newest) {s : HeaderSlot}
    (hversion : s.formatVersion = kStoreFormatVersion)
    (hnewer : newest.generation.toNat < s.generation.toNat) :
    Headed (s.write file (if slot = 0 then 1 else 0)) (if slot = 0 then 1 else 0) s ∧
      s.write file (if slot = 0 then 1 else 0) ≠ file := by
  obtain ⟨header,rest,rfl,halternating⟩ := h.split
  obtain ⟨hother,hne⟩ := halternating.other_slot
  have hwritten := halternating.write hversion hnewer hother hne
  have hfile := HeaderSlot.write_append (slot_inside halternating.length hother) rest (s := s)
  have hheaded : Headed (s.write (header ++ rest) (if slot = 0 then 1 else 0))
      (if slot = 0 then 1 else 0) s := ⟨⟨_,rest,hfile,hwritten⟩⟩
  refine ⟨hheaded,fun hsame => ?_⟩
  have hread := hheaded.read
  rw [hsame, read_append halternating.length hother] at hread
  have hbelow := halternating.leads.below _ hne s hread
  exact absurd hbelow (not_lt.mpr hnewer.le)

end Headed

/-- A writable open writes a header that is not clean, whether it succeeds or fails
behind the header. -/
theorem headed_of_openHeader {now : TimePoint} {file : ByteString} {opened : OpenedHeader}
    (h : openHeader false now file = .ok opened) (hshort : Short 1 file) :
    ∃ newest, Headed opened.file opened.activeSlot newest ∧ newest.flags = 0 ∧
      opened.recovery.headerGeneration = newest.generation := by
  rcases openHeader_eq_ok h with ⟨-,-,rfl⟩ | ⟨hlong,chosen,slot,hchoose,hversion,rfl⟩
  · exact ⟨newSlot 1 0 false now now,⟨⟨_,[],(List.append_nil _).symm,
      alternating_of_blank (newSlot_version _ _ _ _ _)⟩⟩,rfl,rfl⟩
  · obtain ⟨header,rest,rfl,hheader⟩ := exists_header hlong
    obtain ⟨hbound,hslot⟩ := read_of_chooseSlot hchoose
    have hroom := hshort slot hbound chosen hslot
    have hread := (read_append hheader hbound rest).symm.trans hslot
    have hother : (if slot = 0 then 1 else 0) < 2 ∧ (if slot = 0 then 1 else 0) ≠ slot := by
      split_ifs <;> omega
    exact ⟨newSlot (chosen.generation + 1) (chosen.restartCount + 1) false chosen.created now,
      ⟨⟨_,rest,HeaderSlot.write_append (slot_inside hheader hother.1) _,
        alternating_of_rewrite hheader hbound hread hversion (newSlot_version _ _ _ _ _)
          (newer_of_short (by omega)) hother.1 hother.2⟩⟩,rfl,rfl⟩

/-- The scan cuts a file behind its header. -/
theorem le_of_scan {limits : Limits} {file : ByteString} {found : Scan} {offset : ℕ}
    {detail : String} (hscan : scan limits true file = .ok found)
    (htail : found.tail = some (offset,detail)) : kStoreHeaderBytes ≤ offset := by
  unfold scan at hscan
  obtain ⟨first,records,stub,hdata,hwhole,hstub,hcount,-⟩ :=
    exists_wholeRecords le_rfl (Nat.zero_le _) hscan
  rw [hdata] at hscan
  obtain ⟨text,hstubbed⟩ := scanFrom_stubbed hwhole hstub kStoreHeaderBytes le_rfl hcount
  rw [hscan] at hstubbed
  rw [Except.ok.inj hstubbed] at htail
  split_ifs at htail
  cases htail
  exact Nat.le_add_right _ _

/-- The handle knows which slot is the newest. -/
structure Aligned (o : StoreObject) : Prop where
  working : Working o
  headed : ∃ newest, Headed o.store.file o.store.activeSlot newest ∧
    o.store.recovery.headerGeneration = newest.generation

/-- A writable open that succeeds leaves a file that is not marked clean. -/
theorem aligned_of_open {path : String} {options : StoreOptions} {now : TimePoint}
    {content : Option ByteString} {s : PersistentStore}
    (h : (open_ path options now content).1 = .ok s) (hwritable : options.readOnly = false)
    (hshort : Short 1 (content.getD [])) :
    Aligned { store := s, isOpen := true } ∧ ¬ MarkedClean s.file ∧
      kStoreHeaderBytes ≤ s.file.length := by
  obtain ⟨-,opened,found,hopened,hfound,hstore⟩ := passed_of_open h
  rw [hwritable] at hopened hfound
  obtain ⟨newest,hheaded,hflags,hgeneration⟩ := headed_of_openHeader hopened hshort
  have hkept : Headed s.file s.activeSlot newest := by
    have hslot : s.activeSlot = opened.activeSlot := by rw [hstore]; rfl
    rw [hslot]
    cases htail : found.tail with
    | none =>
      have hfile : s.file = opened.file := by
        rw [hstore]
        unfold ofScan
        simp only [htail]
      rw [hfile]
      exact hheaded
    | some cut =>
      obtain ⟨offset,detail⟩ := cut
      have hfile : s.file = opened.file.take offset := by
        rw [hstore]
        unfold ofScan
        simp only [htail]
      rw [hfile]
      have hle := le_of_scan hfound htail
      obtain ⟨header,rest,hsplit,halternating⟩ := hheaded.split
      refine ⟨⟨header,rest.take (offset - header.length),?_,halternating⟩⟩
      simp only [hsplit]
      rw [List.take_append, List.take_of_length_le (by rw [halternating.length]; exact hle)]
  refine ⟨⟨working_of_open h hwritable,newest,hkept,?_⟩,?_,hkept.long⟩
  · rw [← hgeneration, hstore]
    rfl
  · rw [hkept.markedClean_iff, hflags]
    decide

/-- An open that fails leaves the file alone or not marked clean. -/
theorem left_of_open_error {path : String} {options : StoreOptions} {now : TimePoint}
    {file : ByteString} {e : Error}
    (h : (open_ path options now (some file)).1 = .error e) (hshort : Short 1 file) :
    ∃ left, (open_ path options now (some file)).2 = some left ∧
      (left = file ∨ ¬ MarkedClean left ∧ kStoreHeaderBytes ≤ left.length) := by
  obtain ⟨limits,readOnly⟩ := options
  by_cases harguments : limits.validate = .ok () ∧ now.isSet = true
  · obtain ⟨hlimits,hnow⟩ := harguments
    unfold open_ at h ⊢
    rw [hlimits, hnow] at h ⊢
    simp only [Option.getD_some] at h ⊢
    cases hopened : openHeader readOnly now file with
    | error e => exact ⟨file,rfl,Or.inl rfl⟩
    | ok opened =>
      rw [hopened] at h
      cases hscan : scan limits (!readOnly) opened.file with
      | error e =>
        simp only [hscan]
        refine ⟨opened.file,rfl,?_⟩
        cases readOnly with
        | true => exact Or.inl (openHeader_readOnly hopened)
        | false =>
          obtain ⟨newest,hheaded,hflags,-⟩ := headed_of_openHeader hopened hshort
          refine Or.inr ⟨?_,hheaded.long⟩
          rw [hheaded.markedClean_iff, hflags]
          decide
      | ok found =>
        simp only [hscan] at h
        cases h
  · obtain ⟨e,herror⟩ := @open_of_invalid ⟨limits,readOnly⟩ now path file harguments
    rw [herror]
    exact ⟨file,rfl,Or.inl rfl⟩

/-- The append writes at least one byte. -/
def Writes (o : StoreObject) (payload : ByteString) (fault : Option ℕ) : Prop :=
  o.isOpen = true ∧ o.store.checkAppend payload = .ok () ∧ fault ≠ some 0

/-- An operation short of wrap that does not append to a file that is marked clean. -/
def Careful (o : StoreObject) (operation : Operation) : Prop :=
  Short 2 o.store.file ∧ ∀ type payload fault, operation = .append type payload fault →
    o.Writes payload fault → ¬ MarkedClean o.store.file

def CarefulRun (o : StoreObject) : List Operation → Prop
  | [] => True
  | operation :: rest => o.Careful operation ∧ (o.perform operation).CarefulRun rest

/-- The last operation that changed the file, if this one changed it or the last one
before it is known. -/
def noted (o : StoreObject) (last : Option Operation) (operation : Operation) :
    Option Operation :=
  if (o.perform operation).store.file = o.store.file then last else some operation

/-- The last operation of a run that changed the file. -/
def lastWriter (o : StoreObject) (last : Option Operation) : List Operation → Option Operation
  | [] => last
  | operation :: rest => (o.perform operation).lastWriter (o.noted last operation) rest

/-- The flag tells the truth about the last operation that changed the file. -/
structure Honest (o : StoreObject) (last : Option Operation) : Prop where
  long : kStoreHeaderBytes ≤ o.store.file.length
  flag : MarkedClean o.store.file → ∃ now, last = some (.markClean now)
  aligned : o.isOpen = true → o.store.options.readOnly = false → Aligned o

section Step
variable {o : StoreObject} {last : Option Operation}

/-- A step that leaves the file, and no other handle on it. -/
theorem Honest.of_same (h : Honest o last) {operation : Operation}
    (hfile : (o.perform operation).store.file = o.store.file)
    (haligned : (o.perform operation).isOpen = true →
      (o.perform operation).store.options.readOnly = false → Aligned (o.perform operation)) :
    Honest (o.perform operation) (o.noted last operation) := by
  rw [noted, if_pos hfile]
  refine ⟨?_,?_,haligned⟩
  · rw [hfile]
    exact h.long
  · rw [hfile]
    exact h.flag

/-- A step that leaves a file that is not marked clean. -/
theorem honest_of_unmarked {after : StoreObject} {writer : Option Operation}
    (hlong : kStoreHeaderBytes ≤ after.store.file.length)
    (hflag : ¬ MarkedClean after.store.file)
    (haligned : after.isOpen = true → after.store.options.readOnly = false → Aligned after) :
    Honest after writer := ⟨hlong,fun h => absurd h hflag,haligned⟩

theorem Honest.performs_open (h : Honest o last) (hshort : Short 1 o.store.file)
    (options : StoreOptions) (now : TimePoint) :
    Honest (o.perform (.open_ options now)) (o.noted last (.open_ options now)) := by
  cases hopen : (open_ o.store.path options now (some o.store.file)).1 with
  | ok s =>
    have hobject : o.perform (.open_ options now) = { store := s, isOpen := true } := by
      rw [perform, reopen, left_of_open hopen]
    cases hreadOnly : options.readOnly with
    | false =>
      obtain ⟨haligned,hflag,hlong⟩ := aligned_of_open hopen hreadOnly hshort
      rw [hobject]
      exact honest_of_unmarked hlong hflag (fun _ _ => haligned)
    | true =>
      obtain ⟨limits,readOnly⟩ := options
      obtain rfl : readOnly = true := hreadOnly
      obtain ⟨-,-,hfile,-⟩ := whole_of_open_readOnly hopen
      refine h.of_same (by rw [hobject, hfile]) ?_
      rw [hobject]
      intro _ hwritable
      rw [options_of_open hopen] at hwritable
      cases hwritable
  | error e =>
    obtain ⟨left,hleft,hcases⟩ := left_of_open_error hopen hshort
    have hobject : o.perform (.open_ options now) = o.closedOver left := by
      have hresult : open_ o.store.path options now (some o.store.file) = (.error e,some left) :=
        Prod.ext hopen hleft
      rw [perform, reopen, hresult]
      rfl
    have hclosed : (o.perform (.open_ options now)).isOpen = true →
        (o.perform (.open_ options now)).store.options.readOnly = false →
        Aligned (o.perform (.open_ options now)) := by
      rw [hobject]
      intro hstill
      cases hstill
    rcases hcases with rfl | ⟨hflag,hlong⟩
    · exact h.of_same (by rw [hobject]; rfl) hclosed
    · rw [hobject] at hclosed ⊢
      exact honest_of_unmarked hlong hflag hclosed

theorem file_of_not_writes {type : RecordType} {payload : ByteString} {fault : Option ℕ}
    (h : ¬ o.Writes payload fault) : (o.attempt type payload fault).2.store.file =
      o.store.file := by
  obtain ⟨store,isOpen⟩ := o
  have hcheck : ({ store with faults := [fault] } : PersistentStore).checkAppend payload =
      store.checkAppend payload := rfl
  cases isOpen with
  | false => rfl
  | true =>
    unfold attempt append
    simp only [if_true, PersistentStore.append, hcheck]
    cases hok : store.checkAppend payload with
    | error e => rfl
    | ok _ =>
      have hnothing : fault = some 0 := by
        by_contra hsome
        exact h ⟨rfl,hok,hsome⟩
      subst hnothing
      exact List.append_nil _

theorem Aligned.extends (h : Aligned o) {s : PersistentStore} (hextends : Extends o.store s)
    (isOpen : Bool) : Aligned { store := s, isOpen := isOpen } := by
  obtain ⟨newest,hheaded,hgeneration⟩ := h.headed
  obtain ⟨tail,hfile⟩ := hextends.file
  refine ⟨h.working.extends hextends isOpen,newest,?_,?_⟩
  · show Headed s.file s.activeSlot newest
    rw [← hfile, hextends.activeSlot]
    exact hheaded.append tail
  · show s.recovery.headerGeneration = newest.generation
    rw [hextends.recovery]
    exact hgeneration

/-- Bytes behind the header leave the flag. -/
theorem Aligned.markedClean_iff (h : Aligned o) {file : ByteString}
    (hfile : o.store.file <+: file) : MarkedClean file ↔ MarkedClean o.store.file := by
  obtain ⟨newest,hheaded,-⟩ := h.headed
  obtain ⟨tail,rfl⟩ := hfile
  rw [(hheaded.append tail).markedClean_iff, hheaded.markedClean_iff]

theorem Honest.performs_append (h : Honest o last) (type : RecordType) (payload : ByteString)
    (fault : Option ℕ) (hmarked : o.Writes payload fault → ¬ MarkedClean o.store.file) :
    Honest (o.perform (.append type payload fault)) (o.noted last (.append type payload fault)) := by
  obtain ⟨s,hextends,hobject⟩ := o.attempt_extends type payload fault
  have haligned : (o.perform (.append type payload fault)).isOpen = true →
      (o.perform (.append type payload fault)).store.options.readOnly = false →
      Aligned (o.perform (.append type payload fault)) := by
    rw [perform, hobject]
    intro hopen hwritable
    exact (h.aligned hopen (hextends.options ▸ hwritable)).extends hextends o.isOpen
  by_cases hwrites : o.Writes payload fault
  · have hwritable : o.store.options.readOnly = false := by
      have hcheck := hwrites.2.1
      unfold checkAppend at hcheck
      simp only [↓require_bind_eq_ok] at hcheck
      obtain ⟨hwritable,-⟩ := hcheck
      simpa using hwritable
    have hbefore := h.aligned hwrites.1 hwritable
    have hfile : o.store.file <+: (o.perform (.append type payload fault)).store.file := by
      rw [perform, hobject]
      exact hextends.file
    refine honest_of_unmarked (h.long.trans hfile.length_le) ?_ haligned
    rw [hbefore.markedClean_iff hfile]
    exact hmarked hwrites
  · exact h.of_same (file_of_not_writes hwrites) haligned

/-- A clean mark writes the other slot, and the file changes. -/
theorem Aligned.marks (h : Aligned o) (hopen : o.isOpen = true)
    (hwritable : o.store.options.readOnly = false) (hshort : Short 1 o.store.file)
    (now : TimePoint) : Aligned { store := (o.store.markClean now).2, isOpen := true } ∧
      (o.store.markClean now).2.file ≠ o.store.file := by
  obtain ⟨hworking,newest,hheaded,hgeneration⟩ := h
  have hnext : newest.generation.toNat + 1 < 2 ^ 64 := by
    obtain ⟨header,rest,-,halternating⟩ := hheaded.split
    exact hshort _ halternating.slot_lt newest hheaded.read
  obtain ⟨hafter,hchanged⟩ := hheaded.write
    (newSlot_version (o.store.recovery.headerGeneration + 1) o.store.recovery.restartCount true
      o.store.recovery.createdAt now)
    (by rw [hgeneration]; exact newer_of_short hnext)
  have hstore : (o.store.markClean now).2.file =
      (newSlot (o.store.recovery.headerGeneration + 1) o.store.recovery.restartCount true
        o.store.recovery.createdAt now).write o.store.file
          (if o.store.activeSlot = 0 then 1 else 0) ∧
      (o.store.markClean now).2.activeSlot = (if o.store.activeSlot = 0 then 1 else 0) ∧
      (o.store.markClean now).2.recovery.headerGeneration =
        o.store.recovery.headerGeneration + 1 := by
    unfold PersistentStore.markClean
    rw [hwritable]
    exact ⟨rfl,rfl,rfl⟩
  obtain ⟨hfile,hslot,hnumber⟩ := hstore
  have hclean := hworking.markClean hopen hwritable now
  rw [markClean_of_open hopen hwritable] at hclean
  rw [← hfile, ← hslot] at hafter
  exact ⟨⟨hclean,_,hafter,hnumber⟩,hfile ▸ hchanged⟩

theorem Honest.performs_markClean (h : Honest o last) (hshort : Short 1 o.store.file)
    (now : TimePoint) :
    Honest (o.perform (.markClean now)) (o.noted last (.markClean now)) := by
  by_cases hwrites : o.isOpen = true ∧ o.store.options.readOnly = false
  · obtain ⟨hopen,hwritable⟩ := hwrites
    obtain ⟨haligned,hchanged⟩ := (h.aligned hopen hwritable).marks hopen hwritable hshort now
    have hobject : o.perform (.markClean now) =
        { store := (o.store.markClean now).2, isOpen := true } := by
      rw [perform, markClean_of_open hopen hwritable]
    have hnew : (o.perform (.markClean now)).store.file ≠ o.store.file := by
      rw [hobject]
      exact hchanged
    obtain ⟨newest,hheaded,-⟩ := haligned.headed
    rw [noted, if_neg hnew, hobject]
    exact ⟨hheaded.long,fun _ => ⟨now,rfl⟩,fun _ _ => haligned⟩
  · have hobject : o.perform (.markClean now) = o := by
      unfold perform markClean
      split_ifs with hreadOnly hopen
      · rfl
      · exact absurd ⟨hopen,Bool.eq_false_iff.mpr hreadOnly⟩ hwrites
      · rfl
    refine h.of_same (by rw [hobject]) ?_
    rw [hobject]
    exact h.aligned

/-- The temporary file is headed and not marked clean. -/
theorem headed_compacted (o : StoreObject) (kept : List StoredRecord) :
    Headed (o.compacted kept) 0 o.compactedSlot :=
  ⟨⟨_,_,compacted_eq o kept,alternating_of_blank (newSlot_version _ _ _ _ _)⟩⟩

/-- Neither is it where the write of its second slot was torn. -/
theorem torn_not_markedClean (o : StoreObject) (kept : List StoredRecord) (written : ℕ) :
    ¬ MarkedClean (o.reopenedSlot.writePart written (o.compacted kept) 1) := by
  rw [writePart_compacted]
  rintro ⟨chosen,slot,hchoose,hflag⟩
  have husable := o.torn_usable written
  have hinside := slot_inside o.compactedHeader_usable.length (show 1 < 2 by decide)
  have htorn := HeaderSlot.slotAt_overwrite hinside (o.reopenedSlot.length_torn written)
  rw [read_append husable.length (by decide), read_append husable.length (by decide)] at hchoose
  have hclear : chosen.flags = 0 := by
    rcases chooseSlot_cases hchoose with ⟨-,hread⟩ | ⟨-,hread⟩
    · have hfirst : HeaderSlot.read o.compactedHeader 0 = some chosen :=
        (HeaderSlot.read_congr (HeaderSlot.slotAt_overwrite_ne hinside
          (o.reopenedSlot.length_torn written) Nat.zero_ne_one)).symm.trans hread
      have halternating : Alternating o.compactedHeader 0 o.compactedSlot :=
        alternating_of_blank (newSlot_version _ _ _ _ _)
      rw [halternating.leads.holds] at hfirst
      rw [← Option.some.inj hfirst]
      rfl
    · exact HeaderSlot.flags_of_torn rfl htorn hread
  rw [hclear] at hflag
  exact hflag (by decide)

/-- There is room for a header behind the one of the temporary file. -/
theorem Aligned.compactedSlot_lt (h : Aligned o) (hshort : Short 2 o.store.file) :
    o.compactedSlot.generation.toNat + 1 < 2 ^ 64 := by
  obtain ⟨newest,hheaded,hgeneration⟩ := h.headed
  have hroom : newest.generation.toNat + 2 < 2 ^ 64 := by
    obtain ⟨header,rest,-,halternating⟩ := hheaded.split
    exact hshort _ halternating.slot_lt newest hheaded.read
  have hnext : o.compactedSlot.generation.toNat = newest.generation.toNat + 1 := by
    show (o.store.recovery.headerGeneration + 1).toNat = newest.generation.toNat + 1
    rw [hgeneration, UInt64.toNat_add]
    exact Nat.mod_eq_of_lt (show newest.generation.toNat + 1 < 2 ^ 64 by omega)
  omega

theorem Aligned.short_compacted (h : Aligned o) (hshort : Short 2 o.store.file)
    (kept : List StoredRecord) : Short 1 (o.compacted kept) := by
  have hroom := h.compactedSlot_lt hshort
  obtain ⟨header,rest,hfile,halternating⟩ := (o.headed_compacted kept).split
  intro i hi s hs
  rw [hfile, read_append halternating.length hi] at hs
  by_cases hfirst : i = 0
  · subst hfirst
    rw [halternating.leads.holds] at hs
    rw [← Option.some.inj hs]
    exact hroom
  · have hbelow := halternating.leads.below i hfirst s hs
    omega

theorem Aligned.short_misplaced (h : Aligned o) (hshort : Short 2 o.store.file)
    (kept : List StoredRecord) (written : ℕ) : Short 1 (o.misplaced kept written) := by
  intro i hi s hs
  rw [read_misplaced o kept written hi] at hs
  split_ifs at hs
  rw [← Option.some.inj hs]
  exact h.compactedSlot_lt hshort

/-- A misplaced slot is not marked clean either. -/
theorem misplaced_not_markedClean (o : StoreObject) (kept : List StoredRecord) (written : ℕ) :
    ¬ MarkedClean (o.misplaced kept written) := by
  rintro ⟨chosen,slot,hchoose,hflag⟩
  have hsame : chosen = o.compactedSlot := by
    obtain ⟨hbound,hread⟩ := read_of_chooseSlot hchoose
    rw [read_misplaced o kept written hbound] at hread
    split_ifs at hread
    exact (Option.some.inj hread).symm
  rw [hsame, show o.compactedSlot.flags = 0 from rfl] at hflag
  exact hflag (by decide)

/-- A reopen over a file that is not marked clean leaves one that is not. -/
theorem aligned_of_reopen (o : StoreObject) (hwritable : o.store.options.readOnly = false)
    {content : ByteString} (hroom : Short 1 content) (hclear : ¬ MarkedClean content)
    (hlong : ∀ e, (open_ o.store.path o.store.options o.store.recovery.openedAt
      (some content)).1 = .error e → kStoreHeaderBytes ≤ content.length) :
    let after := ((o.closedOver content).reopen o.store.options o.store.recovery.openedAt).2
    ¬ MarkedClean after.store.file ∧ kStoreHeaderBytes ≤ after.store.file.length ∧
      (after.isOpen = true → Aligned after) := by
  cases hopen : (open_ o.store.path o.store.options o.store.recovery.openedAt
      (some content)).1 with
  | ok s =>
    have hobject : (o.closedOver content).reopen o.store.options o.store.recovery.openedAt =
        (.ok (),{ store := s, isOpen := true }) := by
      rw [reopen]
      simp only [closedOver, left_of_open hopen]
    obtain ⟨haligned,hflag,hheaded⟩ := aligned_of_open hopen hwritable hroom
    rw [hobject]
    exact ⟨hflag,hheaded,fun _ => haligned⟩
  | error e =>
    obtain ⟨left,hleft,hcases⟩ := left_of_open_error hopen hroom
    have hobject : (o.closedOver content).reopen o.store.options o.store.recovery.openedAt =
        (.error e,o.closedOver left) := by
      have hresult : open_ o.store.path o.store.options o.store.recovery.openedAt
          (some content) = (.error e,some left) := Prod.ext hopen hleft
      rw [reopen]
      simp only [closedOver, hresult, Option.getD_some]
    rw [hobject]
    rcases hcases with rfl | ⟨hflag,hheaded⟩
    · exact ⟨hclear,hlong e hopen,fun hstill => by cases hstill⟩
    · exact ⟨hflag,hheaded,fun hstill => by cases hstill⟩

/-- A replacement of the store leaves the object and its file, or a file that is not
marked clean. -/
theorem Aligned.replace (h : Aligned o) (hshort : Short 2 o.store.file)
    (hwritable : o.store.options.readOnly = false) (kept : List StoredRecord)
    (fault : Option CompactionFault) :
    let after := (o.replace kept fault).2
    (after.store.file = o.store.file ∧ (after.isOpen = true → after = o)) ∨
      (¬ MarkedClean after.store.file ∧ kStoreHeaderBytes ≤ after.store.file.length ∧
        (after.isOpen = true → Aligned after)) := by
  have hcompacted := o.headed_compacted kept
  have hclear : ¬ MarkedClean (o.compacted kept) := by
    rw [hcompacted.markedClean_iff, show o.compactedSlot.flags = 0 from rfl]
    decide
  cases fault with
  | none =>
    exact Or.inr (o.aligned_of_reopen hwritable (h.short_compacted hshort kept) hclear
      fun _ _ => hcompacted.long)
  | some fault =>
    cases fault with
    | openTemporary => exact Or.inl ⟨rfl,fun _ => rfl⟩
    | writeTemporary => exact Or.inl ⟨rfl,fun _ => rfl⟩
    | seekTemporary written =>
      refine Or.inr (o.aligned_of_reopen hwritable (h.short_misplaced hshort kept written)
        (o.misplaced_not_markedClean kept written) fun e herror => ?_)
      rcases Nat.lt_or_ge kStoreHeaderSlotBytes written with hlate | hearly
      · exact o.long_misplaced kept hlate
      · obtain ⟨s,hopen,-⟩ := h.working.open_misplaced hwritable kept hearly
        rw [hopen] at herror
        cases herror
    | flushTemporary => exact Or.inl ⟨rfl,fun _ => rfl⟩
    | rename detail => exact Or.inl ⟨rfl,fun hopen => by cases hopen⟩
    | reopen written =>
      cases written with
      | none => exact Or.inr ⟨hclear,hcompacted.long,fun hopen => by cases hopen⟩
      | some written =>
        refine Or.inr ⟨o.torn_not_markedClean kept written,?_,fun hopen => by cases hopen⟩
        show kStoreHeaderBytes ≤ (o.reopenedSlot.writePart written (o.compacted kept) 1).length
        rw [writePart_compacted, List.length_append, (o.torn_usable written).length]
        exact Nat.le_add_right _ _

theorem Honest.performs_compact (h : Honest o last) (hshort : Short 2 o.store.file)
    (keepNewest : ℕ) (fault : Option CompactionFault) :
    Honest (o.perform (.compact keepNewest fault)) (o.noted last (.compact keepNewest fault)) := by
  by_cases hread : o.store.options.readOnly = false ∧ ∃ records, o.readAll = .ok records
  · obtain ⟨hwritable,records,hrecords⟩ := hread
    have hopen : o.isOpen = true := by
      by_contra hclosed
      rw [readAll, if_neg hclosed] at hrecords
      cases hrecords
    have hobject : o.perform (.compact keepNewest fault) =
        (o.replace (newestOf keepNewest records) fault).2 := by
      rw [perform, compact_of_readAll hwritable hrecords]
    rcases (h.aligned hopen hwritable).replace hshort hwritable (newestOf keepNewest records)
      fault with ⟨hfile,hsame⟩ | ⟨hflag,hlong,haligned⟩
    · refine h.of_same (by rw [hobject, hfile]) ?_
      rw [hobject]
      intro hstill hmode
      rw [hsame hstill]
      exact h.aligned hopen hwritable
    · rw [hobject]
      exact honest_of_unmarked hlong hflag (fun hstill _ => haligned hstill)
  · have hobject : o.perform (.compact keepNewest fault) = o := by
      unfold perform compact
      split_ifs with hreadOnly
      · rfl
      · cases hrecords : o.readAll with
        | error e => rfl
        | ok records => exact absurd ⟨Bool.eq_false_iff.mpr hreadOnly,records,hrecords⟩ hread
    refine h.of_same (by rw [hobject]) ?_
    rw [hobject]
    exact h.aligned

/-- What one careful step preserves. -/
theorem Honest.perform (h : Honest o last) {operation : Operation}
    (hcareful : o.Careful operation) : Honest (o.perform operation) (o.noted last operation) := by
  obtain ⟨hshort,hmarked⟩ := hcareful
  cases operation with
  | open_ options now => exact h.performs_open (hshort.mono (by decide)) options now
  | append type payload fault =>
    exact h.performs_append type payload fault (hmarked type payload fault rfl)
  | markClean now => exact h.performs_markClean (hshort.mono (by decide)) now
  | compact keepNewest fault => exact h.performs_compact hshort keepNewest fault
  | close =>
    refine h.of_same rfl ?_
    intro hopen
    cases hopen

/-- What a careful run preserves. -/
theorem Honest.performAll (h : Honest o last) {operations : List Operation}
    (hcareful : o.CarefulRun operations) :
    Honest (o.performAll operations) (o.lastWriter last operations) := by
  induction operations generalizing o last with
  | nil => exact h
  | cons operation rest ih => exact ih (h.perform hcareful.1) hcareful.2

end Step

/-- A store that was just opened for writing. -/
theorem honest_of_open {path : String} {options : StoreOptions} {now : TimePoint}
    {content : Option ByteString} {s : PersistentStore}
    (hopen : (open_ path options now content).1 = .ok s)
    (hwritable : options.readOnly = false) (hshort : Short 1 (content.getD [])) :
    Honest { store := s, isOpen := true } (some (.open_ options now)) := by
  obtain ⟨haligned,hflag,hlong⟩ := aligned_of_open hopen hwritable hshort
  exact honest_of_unmarked hlong hflag (fun _ _ => haligned)

/-- What the end of a run leaves at the path: the file as it is, or a file in which a
crash tore the header write of an open or of a clean mark. -/
inductive Leaves (o : StoreObject) : ByteString → Prop
  | whole : o.Leaves o.store.file
  | opening {path : String} {options : StoreOptions} {now : TimePoint} {t : PersistentStore}
      {junk : ByteString} (hopen : (open_ path options now (some o.store.file)).1 = .ok t)
      (hwritable : options.readOnly = false) (hjunk : junk.length = kStoreHeaderSlotBytes)
      (htorn : HeaderSlot.read (HeaderSlot.overwrite o.store.file t.activeSlot junk)
        t.activeSlot = none) :
      o.Leaves (HeaderSlot.overwrite o.store.file t.activeSlot junk)
  | marking {now : TimePoint} {junk : ByteString} (hopen : o.isOpen = true)
      (hwritable : o.store.options.readOnly = false) (hjunk : junk.length = kStoreHeaderSlotBytes)
      (htorn : HeaderSlot.read (HeaderSlot.overwrite o.store.file
        (o.markClean now).2.store.activeSlot junk) (o.markClean now).2.store.activeSlot = none) :
      o.Leaves (HeaderSlot.overwrite o.store.file (o.markClean now).2.store.activeSlot junk)

/-- Some open of the file succeeds and reports a clean shutdown. -/
def ReportsClean (file : ByteString) : Prop :=
  ∃ path options now t, (open_ path options now (some file)).1 = .ok t ∧
    t.recovery.uncleanPreviousShutdown = false

/-- A clean report comes from a clean flag. -/
theorem ReportsClean.markedClean {file : ByteString} (h : ReportsClean file)
    (hlong : kStoreHeaderBytes ≤ file.length) : MarkedClean file := by
  obtain ⟨path,options,now,t,hopen,hclean⟩ := h
  obtain ⟨-,opened,found,hopened,-,hstore⟩ := passed_of_open hopen
  have hreport : opened.recovery.uncleanPreviousShutdown = false := by
    rw [hstore] at hclean
    exact hclean
  rcases openHeader_eq_ok hopened with ⟨hshort,-⟩ | ⟨-,chosen,slot,hchoose,-,rfl⟩
  · exact absurd hlong (not_le.mpr hshort)
  · refine ⟨chosen,slot,hchoose,?_⟩
    have hflag : decide (chosen.flags &&& kFlagCleanShutdown = 0) = false := by
      rw [reopenHeader] at hreport
      split_ifs at hreport <;> exact hreport
    exact of_decide_eq_false hflag

/-- Where the slot that is not the newest is torn the flag is the one it was. -/
theorem markedClean_of_torn {file junk : ByteString} {chosen : HeaderSlot} {slot index : ℕ}
    (hlong : kStoreHeaderBytes ≤ file.length)
    (hchoose : chooseSlot (HeaderSlot.read file 0) (HeaderSlot.read file 1) = some (chosen,slot))
    (hindex : index < 2) (hne : index ≠ slot) (hjunk : junk.length = kStoreHeaderSlotBytes)
    (htorn : HeaderSlot.read (HeaderSlot.overwrite file index junk) index = none)
    (h : MarkedClean (HeaderSlot.overwrite file index junk)) : MarkedClean file := by
  obtain ⟨header,rest,rfl,hlength⟩ := exists_header hlong
  have hinside := slot_inside hlength hindex
  have hkept : ∀ i < 2, i ≠ index →
      HeaderSlot.read (HeaderSlot.overwrite (header ++ rest) index junk) i =
        HeaderSlot.read (header ++ rest) i := by
    intro i hi hother
    rw [HeaderSlot.overwrite_append hinside, read_append
      ((HeaderSlot.length_overwrite hinside hjunk).trans hlength) hi, read_append hlength hi,
      read_overwrite hlength hjunk hindex, Function.update_of_ne hother]
  obtain ⟨other,place,hother,hflag⟩ := h
  rcases chooseSlot_cases hchoose with ⟨rfl,hread⟩ | ⟨rfl,hread⟩
  · obtain rfl : index = 1 := by omega
    rw [htorn, hkept 0 (by decide) (by decide), hread] at hother
    cases hother
    exact ⟨chosen,0,hchoose,hflag⟩
  · obtain rfl : index = 0 := by omega
    rw [htorn, hkept 1 (by decide) (by decide), hread] at hother
    cases hother
    exact ⟨chosen,1,hchoose,hflag⟩

/-- A writable open of a whole header writes the slot that is not the newest. -/
theorem other_of_open {path : String} {options : StoreOptions} {now : TimePoint}
    {file : ByteString} {t : PersistentStore} (hlong : kStoreHeaderBytes ≤ file.length)
    (hopen : (open_ path options now (some file)).1 = .ok t)
    (hwritable : options.readOnly = false) : ∃ chosen slot,
      chooseSlot (HeaderSlot.read file 0) (HeaderSlot.read file 1) = some (chosen,slot) ∧
      t.activeSlot < 2 ∧ t.activeSlot ≠ slot := by
  obtain ⟨-,opened,found,hopened,-,hstore⟩ := passed_of_open hopen
  have hslot : t.activeSlot = opened.activeSlot := by rw [hstore]; rfl
  rw [hwritable] at hopened
  rcases openHeader_eq_ok hopened with ⟨hshort,-⟩ | ⟨-,chosen,slot,hchoose,-,rfl⟩
  · exact absurd hlong (not_le.mpr hshort)
  · have hother : t.activeSlot = if slot = 0 then 1 else 0 := hslot
    refine ⟨chosen,slot,hchoose,?_⟩
    rcases chooseSlot_cases hchoose with ⟨rfl,-⟩ | ⟨rfl,-⟩ <;> rw [hother] <;> decide

/-- A crash does not set the flag. -/
theorem markedClean_of_leaves {o : StoreObject} {left : ByteString} (hleaves : o.Leaves left)
    (hlong : kStoreHeaderBytes ≤ o.store.file.length)
    (haligned : o.isOpen = true → o.store.options.readOnly = false → Aligned o)
    (hmarked : MarkedClean left) : MarkedClean o.store.file := by
  cases hleaves with
  | whole => exact hmarked
  | opening hopen hwritable hjunk htorn =>
    obtain ⟨chosen,slot,hchoose,hindex,hne⟩ := other_of_open hlong hopen hwritable
    exact markedClean_of_torn hlong hchoose hindex hne hjunk htorn hmarked
  | @marking now junk hopen hwritable hjunk htorn =>
    obtain ⟨-,newest,hheaded,-⟩ := haligned hopen hwritable
    obtain ⟨header,rest,-,halternating⟩ := hheaded.split
    have hslot : (o.markClean now).2.store.activeSlot =
        if o.store.activeSlot = 0 then 1 else 0 := by
      rw [markClean_of_open hopen hwritable]
      unfold PersistentStore.markClean
      rw [hwritable]
      rfl
    rw [hslot] at htorn hmarked
    exact markedClean_of_torn hlong hheaded.choose halternating.other_slot.1
      halternating.other_slot.2 hjunk htorn hmarked

/-- Neither does it shorten the file. -/
theorem Leaves.le_length {o : StoreObject} {left : ByteString} (h : o.Leaves left) :
    o.store.file.length ≤ left.length := by
  have hoverwritten : ∀ {file junk : ByteString} (index : ℕ),
      junk.length = kStoreHeaderSlotBytes →
      file.length ≤ (HeaderSlot.overwrite file index junk).length := by
    intro file junk index hjunk
    simp only [HeaderSlot.overwrite, List.length_append, List.length_take, List.length_drop, hjunk,
      add_mul]
    omega
  cases h with
  | whole => exact le_rfl
  | opening _ _ hjunk _ => exact hoverwritten _ hjunk
  | marking _ _ hjunk _ => exact hoverwritten _ hjunk

/-- The next open reports a clean shutdown only where the flag tells the truth. -/
theorem Honest.report {o : StoreObject} {last : Option Operation} (h : Honest o last)
    {left : ByteString} (hleaves : o.Leaves left) (hclean : ReportsClean left) :
    ∃ now, last = some (.markClean now) := by
  have hmarked := hclean.markedClean (h.long.trans hleaves.le_length)
  exact h.flag (markedClean_of_leaves hleaves h.long h.aligned hmarked)

end StoreObject

end PathObservatory
