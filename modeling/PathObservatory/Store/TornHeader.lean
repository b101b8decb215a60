import PathObservatory.Store.Compaction
import PathObservatory.Store.HeaderSlots

/-! # Torn header writes

Along any run of a store that was created the handle knows which slot is the newest.
So the next header write, wherever it is torn, costs the older header only, and the
store opens with the newest one and all its records.
-/
namespace PathObservatory
namespace StoreObject
open PersistentStore LeadingCell
variable {limits : Limits}

/-- An operation of an owner that keeps its limits, whose file operations succeed. -/
def Plain (limits : Limits) : Operation → Prop
  | .open_ options _ => options = { limits := limits }
  | .append _ _ fault => fault = none
  | .compact _ fault => fault = none
  | .markClean _ => True
  | .close => True

/-- The header writes an operation has completed, as the file then holds them. -/
def completedWrites (o : StoreObject) (operation : Operation) : List HeaderSlot :=
  let after := o.perform operation
  match operation with
  | .open_ _ _ =>
    if after.isOpen then (HeaderSlot.read after.store.file after.store.activeSlot).toList else []
  | .markClean _ =>
    if o.isOpen then (HeaderSlot.read after.store.file after.store.activeSlot).toList else []
  | .compact keepNewest fault =>
    if (o.compact keepNewest fault).1.toBool then
      (HeaderSlot.read after.store.file 0).toList ++ (HeaderSlot.read after.store.file 1).toList
    else []
  | .append _ _ _ => []
  | .close => []

def headerWrites (o : StoreObject) : List Operation → List HeaderSlot
  | [] => []
  | operation :: rest => o.completedWrites operation ++ (o.perform operation).headerWrites rest

/-- The object keeps a file at its path, and an open handle agrees with it. -/
structure StandsOn (o : StoreObject) (f : StoreFile limits) : Prop where
  options : o.store.options = { limits := limits }
  file : o.store.file = f.bytes
  handle : o.isOpen = true → Handle o.store f

theorem Handle.standsOn {s : PersistentStore} {f : StoreFile limits} (h : Handle s f)
    (isOpen : Bool) : StandsOn { store := s, isOpen := isOpen } f :=
  ⟨h.options,h.file,fun _ => h⟩

theorem StoreFile.read_newest (f : StoreFile limits) :
    HeaderSlot.read f.bytes f.slot = some f.newest :=
  (read_append f.alternating.length f.alternating.slot_lt _).trans f.alternating.leads.holds

/-- The order of the header writes. -/
def gen (s : HeaderSlot) : ℕ := s.generation.toNat

section Step
variable {o : StoreObject} {f : StoreFile limits}

theorem gen_next {generation : UInt64} (hshort : generation.toNat + 1 < 2 ^ 64) :
    (generation + 1).toNat = generation.toNat + 1 := by
  rw [UInt64.toNat_add]
  exact Nat.mod_eq_of_lt hshort

/-- What a step makes of a file: it keeps to a file, and its header writes lead from the
newest header before to the newest one after. -/
def Advances (o : StoreObject) (f : StoreFile limits) (operation : Operation) : Prop :=
  ∃ f' : StoreFile limits, StandsOn (o.perform operation) f' ∧
    Ascends gen f.newest (o.completedWrites operation) f'.newest ∧
    gen f'.newest ≤ gen f.newest + 2

theorem StandsOn.advances_open (h : StandsOn o f) (hlimits : limits.validate = .ok ())
    (hshort : gen f.newest + 1 < 2 ^ 64) (now : TimePoint) :
    Advances o f (.open_ { limits := limits } now) := by
  by_cases hnow : now.isSet = true
  · obtain ⟨t,hopen,hhandle⟩ := f.open_writable hlimits hnow o.store.path hshort
    have hobject : o.perform (.open_ { limits := limits } now) =
        { store := t, isOpen := true } := by
      rw [perform, StoreObject.reopen, h.file, hopen]
    refine ⟨f.opened now hshort,?_,?_,?_⟩
    · rw [hobject]
      exact hhandle.standsOn true
    · rw [completedWrites, hobject]
      simp only [if_true, hhandle.slot, hhandle.file, StoreFile.read_newest]
      exact ⟨newer_of_short hshort,rfl⟩
    · exact (gen_next hshort).le.trans (Nat.le_succ _)
  · obtain ⟨e,herror⟩ : ∃ e, open_ o.store.path { limits := limits } now (some f.bytes) =
        (.error e,some f.bytes) := open_of_invalid o.store.path f.bytes (fun hboth => hnow hboth.2)
    have hobject : o.perform (.open_ { limits := limits } now) = o.closedOver f.bytes := by
      rw [perform, StoreObject.reopen, h.file, herror]
      rfl
    refine ⟨f,?_,?_,Nat.le_add_right _ _⟩
    · rw [hobject]
      refine ⟨h.options,rfl,?_⟩
      intro hopen
      cases hopen
    · rw [completedWrites, hobject]
      rfl

theorem attempt_of_healthy (hhealthy : o.store.faults = []) (type : RecordType)
    (payload : ByteString) : o.attempt type payload none = o.append type payload := by
  obtain ⟨store,isOpen⟩ := o
  have hcheck : ({ store with faults := [none] } : PersistentStore).checkAppend payload =
      store.checkAppend payload := rfl
  have hstore : ({ store with faults := [] } : PersistentStore) = store := by
    rw [← show store.faults = [] from hhealthy]
  unfold attempt append
  cases isOpen with
  | false => exact congrArg (fun s => (_,StoreObject.mk s false)) hstore
  | true =>
    simp only [if_true, PersistentStore.append, hcheck, show store.faults = [] from hhealthy]
    cases store.checkAppend payload with
    | error e => exact congrArg (fun s => (_,StoreObject.mk s true)) hstore
    | ok _ => rfl

theorem StandsOn.advances_append (h : StandsOn o f)
    (hbytes : limits.maxStoreRecordBytes < 2 ^ 32) (type : RecordType) (payload : ByteString) :
    Advances o f (.append type payload none) := by
  cases hopen : o.isOpen with
  | false =>
    have hobject : o.perform (.append type payload none) =
        { o with store := { o.store with faults := [] } } := by
      rw [perform, attempt, append, hopen]
      rfl
    refine ⟨f,?_,rfl,Nat.le_add_right _ _⟩
    rw [hobject]
    refine ⟨h.options,h.file,?_⟩
    intro hstill
    rw [hopen] at hstill
    cases hstill
  | true =>
    have hhandle := h.handle hopen
    have hobject : o.perform (.append type payload none) =
        { store := (o.store.append type payload).2, isOpen := true } := by
      rw [perform, attempt_of_healthy hhandle.healthy, append, hopen]
      rfl
    rw [Advances, hobject]
    rcases hhandle.append_cases hbytes type payload with ⟨-,hsame⟩ | ⟨-,hfits,hcount,hextended⟩
    · rw [hsame]
      exact ⟨f,hhandle.standsOn true,rfl,Nat.le_add_right _ _⟩
    · exact ⟨_,hextended.standsOn true,rfl,Nat.le_add_right _ _⟩

theorem StandsOn.advances_markClean (h : StandsOn o f) (hshort : gen f.newest + 1 < 2 ^ 64)
    (now : TimePoint) : Advances o f (.markClean now) := by
  have hwritable : o.store.options.readOnly = false := by rw [h.options]
  cases hopen : o.isOpen with
  | false =>
    have hobject : o.perform (.markClean now) = o := by
      rw [perform, StoreObject.markClean, hwritable, hopen]
      rfl
    refine ⟨f,?_,?_,Nat.le_add_right _ _⟩
    · rw [hobject]
      exact h
    · rw [completedWrites, hopen]
      rfl
  | true =>
    obtain ⟨-,hhandle⟩ := (h.handle hopen).markClean now hshort
    have hobject : o.perform (.markClean now) =
        { store := (o.store.markClean now).2, isOpen := true } := by
      rw [perform, markClean_of_open hopen hwritable]
    refine ⟨f.cleaned now hshort,?_,?_,?_⟩
    · rw [hobject]
      exact hhandle.standsOn true
    · rw [completedWrites, hobject, hopen]
      simp only [if_true, hhandle.slot, hhandle.file, StoreFile.read_newest]
      exact ⟨newer_of_short hshort,rfl⟩
    · exact (gen_next hshort).le.trans (Nat.le_succ _)

/-- A compaction writes a new file with a newer header and opens it. -/
theorem StandsOn.compacts (h : StandsOn o f) (hopen : o.isOpen = true)
    (hlimits : limits.validate = .ok ()) (hshort : gen f.newest + 2 < 2 ^ 64) (keepNewest : ℕ) :
    ∃ (fresh : StoreFile limits) (now : TimePoint) (hnext : _) (n : ℕ) (t : PersistentStore),
      fresh.slot = 0 ∧ gen fresh.newest = gen f.newest + 1 ∧
      o.compact keepNewest none = (.ok n,{ store := t, isOpen := true }) ∧
      Handle t (fresh.opened now hnext) := by
  have hwritable : o.store.options.readOnly = false := by rw [h.options]
  have hhandle := h.handle hopen
  have hoptions : o.limits = limits := by rw [StoreObject.limits, h.options]
  have hworking : Working o :=
    ⟨hoptions ▸ hlimits,⟨f.header,f.first,f.alternating.usable,h.file⟩,hhandle.opened⟩
  have hread : o.store.readAll = .ok f.records := f.readAll h.file hoptions
  have hkept := hworking.keepable hread keepNewest
  obtain ⟨t,hreplace,hopened,-⟩ := hworking.replace hwritable hkept
  obtain ⟨-,hcount⟩ := hkept.whole
  have hfits := fits_renumbered hkept.fits
  rw [hoptions] at hcount hfits
  have hgen : gen o.compactedSlot = gen f.newest + 1 := by
    have hslot : o.compactedSlot.generation = f.newest.generation + 1 :=
      congrArg (· + 1) hhandle.generation
    rw [gen, hslot]
    exact gen_next (by rw [gen] at hshort; omega)
  let fresh : StoreFile limits := .fresh o.compactedSlot (newSlot_version _ _ _ _ _)
    (renumbered (newestOf keepNewest f.records)) hfits hcount
  have hnext : fresh.newest.generation.toNat + 1 < 2 ^ 64 := by
    show gen o.compactedSlot + 1 < 2 ^ 64
    omega
  obtain ⟨u,hagain,hnew⟩ := fresh.open_writable hlimits hhandle.opened o.store.path hnext
  obtain rfl : t = u := by
    have hbytes : fresh.bytes = o.compacted (newestOf keepNewest f.records) :=
      (compacted_eq o _).symm
    rw [hbytes, ← h.options, hopened] at hagain
    exact Except.ok.inj (congrArg Prod.fst hagain)
  refine ⟨fresh,o.store.recovery.openedAt,hnext,keptCount keepNewest f.records,t,rfl,hgen,?_,
    hnew⟩
  rw [compact_of_readAll hwritable ((readAll_of_open hopen).trans hread), hreplace]
  rfl

/-- The slot before the newest one. -/
theorem StoreFile.read_previous (f : StoreFile limits) (s : HeaderSlot) (hversion hnewer) :
    HeaderSlot.read (f.rehead s hversion hnewer).bytes f.slot = some f.newest := by
  have hother : f.other < 2 ∧ f.other ≠ f.slot := f.alternating.other_slot
  rw [StoreFile.bytes, read_append (f.rehead s hversion hnewer).alternating.length
    f.alternating.slot_lt]
  show HeaderSlot.read (s.write f.header f.other) f.slot = some f.newest
  rw [read_write f.alternating.length s hother.1, Function.update_of_ne hother.2.symm]
  exact f.alternating.leads.holds

theorem StandsOn.advances_compact (h : StandsOn o f) (hlimits : limits.validate = .ok ())
    (hshort : gen f.newest + 2 < 2 ^ 64) (keepNewest : ℕ) :
    Advances o f (.compact keepNewest none) := by
  cases hopen : o.isOpen with
  | false =>
    have hcompact : ∃ e, o.compact keepNewest none = (.error e,o) := by
      rw [compact, h.options, StoreObject.readAll, hopen]
      exact ⟨_,rfl⟩
    obtain ⟨e,hcompact⟩ := hcompact
    have hobject : o.perform (.compact keepNewest none) = o := by rw [perform, hcompact]
    refine ⟨f,?_,?_,Nat.le_add_right _ _⟩
    · rw [hobject]
      exact h
    · rw [completedWrites, hcompact]
      rfl
  | true =>
    obtain ⟨fresh,now,hnext,n,t,hslot,hgen,hcompact,hnew⟩ :=
      h.compacts hopen hlimits hshort keepNewest
    have hobject : o.perform (.compact keepNewest none) = { store := t, isOpen := true } := by
      rw [perform, hcompact]
    have hlast : gen (fresh.opened now hnext).newest = gen fresh.newest + 1 := gen_next hnext
    have hfirst : HeaderSlot.read t.file 0 = some fresh.newest := by
      rw [hnew.file, ← hslot]
      exact fresh.read_previous _ _ _
    have hsecond : HeaderSlot.read t.file 1 = some (fresh.opened now hnext).newest := by
      have hother : (fresh.opened now hnext).slot = 1 := by
        show (if fresh.slot = 0 then 1 else 0) = 1
        rw [if_pos hslot]
      rw [hnew.file, ← hother]
      exact (fresh.opened now hnext).read_newest
    refine ⟨fresh.opened now hnext,?_,?_,?_⟩
    · rw [hobject]
      exact hnew.standsOn true
    · rw [completedWrites, hobject, hcompact]
      simp only [Except.toBool, if_true, hfirst, hsecond]
      exact ⟨by omega,by omega,rfl⟩
    · omega

/-- What one step preserves. -/
theorem StandsOn.advances (h : StandsOn o f) (hlimits : limits.validate = .ok ())
    (hshort : gen f.newest + 2 < 2 ^ 64) {operation : Operation}
    (hplain : Plain limits operation) : Advances o f operation := by
  cases operation with
  | open_ options now =>
    obtain rfl : options = { limits := limits } := hplain
    exact h.advances_open hlimits (by omega) now
  | append type payload fault =>
    obtain rfl : fault = none := hplain
    exact h.advances_append (Limits.lt_of_validate hlimits).2.2.2.2 type payload
  | markClean now => exact h.advances_markClean (by omega) now
  | compact keepNewest fault =>
    obtain rfl : fault = none := hplain
    exact h.advances_compact hlimits hshort keepNewest
  | close =>
    refine ⟨f,⟨h.options,h.file,?_⟩,rfl,Nat.le_add_right _ _⟩
    intro hopen
    cases hopen

/-- What a run preserves. -/
theorem StandsOn.performAll (h : StandsOn o f) (hlimits : limits.validate = .ok ())
    {operations : List Operation} (hplain : ∀ operation ∈ operations, Plain limits operation)
    (hshort : gen f.newest + 2 * operations.length < 2 ^ 64) :
    ∃ f' : StoreFile limits, StandsOn (o.performAll operations) f' ∧
      Ascends gen f.newest (o.headerWrites operations) f'.newest ∧
      gen f'.newest ≤ gen f.newest + 2 * operations.length := by
  induction operations generalizing o f with
  | nil => exact ⟨f,h,rfl,le_rfl⟩
  | cons operation rest ih =>
    rw [List.length_cons] at hshort
    obtain ⟨f',hstands,hwrites,hgen⟩ :=
      h.advances hlimits (by omega) (hplain operation List.mem_cons_self)
    obtain ⟨g,hlast,hmore,hbound⟩ := ih hstands
      (fun other hother => hplain other (List.mem_cons_of_mem _ hother)) (by omega)
    refine ⟨g,hlast,hwrites.append hmore,?_⟩
    rw [List.length_cons]
    omega

end Step

/-- The slot the next header write goes to, by a writable open of the file or by a clean
mark. -/
def NextWrite (o : StoreObject) (slot : ℕ) : Prop :=
  (∃ now t, (open_ o.store.path { limits := o.limits } now (some o.store.file)).1 = .ok t ∧
    t.activeSlot = slot) ∨
  (o.isOpen = true ∧ ∃ now, (o.markClean now).1 = .ok () ∧
    (o.markClean now).2.store.activeSlot = slot)

/-- The next header write goes to the slot that is not the newest. -/
theorem StandsOn.other_of_nextWrite {o : StoreObject} {f : StoreFile limits} (h : StandsOn o f)
    (hlimits : limits.validate = .ok ()) (hshort : gen f.newest + 1 < 2 ^ 64) {slot : ℕ}
    (hnext : o.NextWrite slot) : slot = f.other := by
  rcases hnext with ⟨now,t,hopen,hslot⟩ | ⟨hopen,now,-,hslot⟩
  · have hnow := isSet_of_open hopen
    have hoptions : o.limits = limits := by rw [StoreObject.limits, h.options]
    obtain ⟨u,hagain,hhandle⟩ := f.open_writable hlimits hnow o.store.path hshort
    rw [hoptions, h.file, hagain] at hopen
    obtain rfl : u = t := Except.ok.inj hopen
    exact hslot.symm.trans hhandle.slot
  · have hwritable : o.store.options.readOnly = false := by rw [h.options]
    obtain ⟨-,hhandle⟩ := (h.handle hopen).markClean now hshort
    rw [markClean_of_open hopen hwritable] at hslot
    exact hslot.symm.trans hhandle.slot

/-- The file of a store that was created. -/
theorem standsOn_of_created {path : String} {now : TimePoint} {content : Option ByteString}
    {s : PersistentStore} (hopen : (open_ path { limits := limits } now content).1 = .ok s)
    (hcreated : s.recovery.created = true) :
    ∃ f : StoreFile limits, StandsOn { store := s, isOpen := true } f ∧
      HeaderSlot.read s.file 0 = some f.newest ∧ gen f.newest = 1 := by
  have hnow := isSet_of_open hopen
  let f : StoreFile limits := .fresh (newSlot 1 0 false now now) (newSlot_version _ _ _ _ _) []
    (by simp) (Nat.zero_le _)
  have hbytes : (createHeader now).file = f.bytes := (List.append_nil _).symm
  rw [eq_of_created hopen hcreated]
  have hhandle : Handle (ofScan path { limits := limits } (createHeader now) {}) f :=
    ⟨rfl,rfl,hbytes,rfl,rfl,rfl,rfl,hnow,congrArg List.length hbytes,rfl⟩
  refine ⟨f,hhandle.standsOn true,?_,rfl⟩
  rw [hhandle.file]
  exact f.read_newest

/-- Torn header writes are survived. Along every run of a store that was created the
generations of the header writes ascend, and wherever the next header write leaves bytes
that are not valid, a later open finds the last completed header and all records. -/
theorem torn_header_survived {path : String} {now : TimePoint} {content : Option ByteString}
    {s : PersistentStore} (hopen : (open_ path { limits := limits } now content).1 = .ok s)
    (hcreated : s.recovery.created = true) {operations : List Operation}
    (hplain : ∀ operation ∈ operations, Plain limits operation)
    (hshort : 2 * operations.length + 2 < 2 ^ 64) :
    let o := StoreObject.performAll { store := s, isOpen := true } operations
    let writes := (HeaderSlot.read s.file 0).toList ++
      headerWrites { store := s, isOpen := true } operations
    writes.Pairwise (fun earlier later => earlier.generation < later.generation) ∧
      ∃ newest records, writes.getLast? = some newest ∧ o.store.readAll = .ok records ∧
        ∀ slot junk, o.NextWrite slot → junk.length = kStoreHeaderSlotBytes →
          HeaderSlot.read (HeaderSlot.overwrite o.store.file slot junk) slot = none →
          ∀ later, later.isSet = true →
            (∃ t, (open_ path { limits := limits, readOnly := true } later
                (some (HeaderSlot.overwrite o.store.file slot junk))).1 = .ok t ∧
              t.readAll = .ok records ∧ t.recovery.headerGeneration = newest.generation ∧
              t.recovery.createdAt = newest.created ∧
              t.recovery.restartCount = newest.restartCount) ∧
            (∃ t, (open_ path { limits := limits } later
                (some (HeaderSlot.overwrite o.store.file slot junk))).1 = .ok t ∧
              t.readAll = .ok records ∧ t.recovery.headerGeneration = newest.generation + 1 ∧
              t.recovery.createdAt = newest.created ∧
              t.recovery.restartCount = newest.restartCount + 1) := by
  obtain ⟨hlimits,-⟩ := open_eq_ok hopen
  obtain ⟨first,hfirst,hread,hone⟩ := standsOn_of_created hopen hcreated
  obtain ⟨f,hstands,hwrites,hgen⟩ := hfirst.performAll hlimits hplain (by omega)
  have hroom : gen f.newest + 1 < 2 ^ 64 := by omega
  simp only [hread, Option.toList_some, List.singleton_append]
  refine ⟨?_,f.newest,f.records,hwrites.getLast?,?_,?_⟩
  · exact hwrites.pairwise.imp (fun hlt => UInt64.lt_iff_toNat_lt.mpr hlt)
  · exact f.readAll hstands.file (by rw [hstands.options])
  · intro slot junk hnext hjunk htorn later hlater
    obtain rfl := hstands.other_of_nextWrite hlimits hroom hnext
    have hother : f.other < 2 ∧ f.other ≠ f.slot := f.alternating.other_slot
    have hinside := slot_inside f.alternating.length hother.1
    have hheader : HeaderSlot.read (HeaderSlot.overwrite f.header f.other junk) f.other = none := by
      rw [hstands.file, StoreFile.bytes, HeaderSlot.overwrite_append hinside] at htorn
      rwa [read_append ((HeaderSlot.length_overwrite hinside hjunk).trans f.alternating.length)
        hother.1] at htorn
    rw [hstands.file, ← f.bytes_tear junk hjunk hheader]
    obtain ⟨t,hopened,hreadAll,hgeneration,hmade,hrestart⟩ :=
      (f.tear junk hjunk hheader).open_readOnly hlimits hlater path
    obtain ⟨u,hwritten,hhandle⟩ :=
      (f.tear junk hjunk hheader).open_writable hlimits hlater path hroom
    refine ⟨⟨t,congrArg Prod.fst hopened,hreadAll,hgeneration,hmade,hrestart⟩,u,
      congrArg Prod.fst hwritten,?_,hhandle.generation,hhandle.created,hhandle.restart⟩
    exact StoreFile.readAll (f := (f.tear junk hjunk hheader).opened later hroom) hhandle.file
      (by rw [hhandle.options])

/-- A new store with a record that was marked clean. -/
def markedClean : StoreObject :=
  StoreObject.performAll { store := newStore.toOption.getD {}, isOpen := true }
    [.append .marker [1,2,3] none,.markClean ⟨2⟩]

/-- The write behind a clean mark is torn: zeros are left in its slot. -/
theorem torn_first_slot_survived : ∃ records t, markedClean.store.readAll = .ok records ∧
    (open_ "store" {} ⟨4⟩ (some (HeaderSlot.overwrite markedClean.store.file 0
      (List.replicate kStoreHeaderSlotBytes 0)))).1 = .ok t ∧ t.readAll = .ok records := by
  have hnew : newStore.toOption.map (·.recovery.created) = some true := by decide +kernel
  have hevaluated : markedClean.isOpen = true ∧ (markedClean.markClean ⟨3⟩).1 = .ok () ∧
      (markedClean.markClean ⟨3⟩).2.store.activeSlot = 0 ∧
      HeaderSlot.read (HeaderSlot.overwrite markedClean.store.file 0
        (List.replicate kStoreHeaderSlotBytes 0)) 0 = none := by decide +kernel
  obtain ⟨hopen,hok,hslot,htorn⟩ := hevaluated
  obtain ⟨s,hs,hcreated⟩ := Option.map_eq_some_iff.mp hnew
  have hobject : markedClean = StoreObject.performAll { store := s, isOpen := true }
      [.append .marker [1,2,3] none,.markClean ⟨2⟩] := by rw [markedClean, hs]; rfl
  have hplain : ∀ operation ∈ [Operation.append .marker [1,2,3] none,.markClean ⟨2⟩],
      Plain {} operation := by
    intro operation hoperation
    rcases List.mem_cons.mp hoperation with rfl | hlast
    · rfl
    · rw [List.mem_singleton.mp hlast]
      trivial
  have hsurvived := torn_header_survived (toOption_eq_some_iff.mp hs) hcreated hplain (by decide)
  rw [← hobject] at hsurvived
  obtain ⟨-,newest,records,-,hread,htears⟩ := hsurvived
  obtain ⟨-,t,ht,hreadAgain,-⟩ := htears 0 _ (Or.inr ⟨hopen,⟨3⟩,hok,hslot⟩)
    List.length_replicate htorn ⟨4⟩ (by decide)
  exact ⟨records,t,hread,ht,hreadAgain⟩

end StoreObject

end PathObservatory
