import PathObservatory.Runtime.Runs
import PathObservatory.Runtime.Writes
import PathObservatory.Store.CleanFlag

/-! # Clean stops

A stop marks the store clean, and the runtime goes on serving requests that append to
it. What the flag then says is true along the runs in which nothing is appended to a
store that is marked clean.
-/
namespace PathObservatory
open PersistentStore StoreObject

/-- A store that took records only grew behind its header. -/
theorem Appends.extends {allowed : RecordType → Prop} {before after : Option PersistentStore}
    (h : Appends allowed before after) :
    (before = none ∧ after = none) ∨
      ∃ s t, before = some s ∧ after = some t ∧ StoreObject.Extends s t := by
  induction h with
  | refl =>
    cases before with
    | none => exact Or.inl ⟨rfl,rfl⟩
    | some s => exact Or.inr ⟨s,s,rfl,rfl,.refl s⟩
  | @append written type payload _ _ ih =>
    rcases ih with ⟨-,hnone⟩ | ⟨s,t,hbefore,hwritten,hextends⟩
    · cases hnone
    · obtain rfl := Option.some.inj hwritten
      exact Or.inr ⟨s,_,hbefore,rfl,hextends.trans (append_extends written type payload)⟩

namespace ObservatoryRuntime

/-- A recovery holds the store if the file could be opened. -/
theorem recover_store (r : ObservatoryRuntime) (content : Option ByteString) :
    (∃ e after, open_ r.config.storePath r.storeOptions r.now content = (.error e,after) ∧
      r.recover content = (.error e,r.tick,after)) ∨
    ∃ s, (open_ r.config.storePath r.storeOptions r.now content).1 = .ok s ∧
      (r.recover content).2.1.store = some s ∧ (r.recover content).2.2 = some s.file := by
  unfold recover
  cases hopen : (open_ r.config.storePath r.storeOptions r.now content).1 with
  | error e =>
    have hresult : open_ r.config.storePath r.storeOptions r.now content =
        (.error e,(open_ r.config.storePath r.storeOptions r.now content).2) := Prod.ext hopen rfl
    rw [hresult]
    exact Or.inl ⟨e,_,rfl,rfl⟩
  | ok s =>
    rw [left_of_open hopen]
    dsimp only
    refine Or.inr ⟨s,rfl,?_⟩
    by_cases hload : r.config.loadEvidenceOnStart = true
    · rw [if_pos hload]
      exact ⟨r.restoreFromStore_store s,rfl⟩
    · rw [if_neg hload]
      exact ⟨rfl,rfl⟩

/-- A start leaves the store alone, or it opened the file and holds the store. -/
theorem start_store (r : ObservatoryRuntime) (content : Option ByteString) :
    ((r.start content).2.1.store = r.store ∧ ((r.start content).2.2 = content ∨
      ∃ e, open_ r.config.storePath r.storeOptions r.now content =
        (.error e,(r.start content).2.2))) ∨
    ∃ s, (open_ r.config.storePath r.storeOptions r.now content).1 = .ok s ∧
      (r.start content).2.1.store = some s ∧ (r.start content).2.2 = some s.file := by
  unfold start
  split_ifs
  · exact Or.inl ⟨rfl,Or.inl rfl⟩
  · exact Or.inl ⟨rfl,Or.inl rfl⟩
  · exact Or.inl ⟨rfl,Or.inl rfl⟩
  · rcases r.recover_store content with ⟨e,after,hopen,hrecover⟩ | ⟨s,hopen,hstore,hafter⟩
    · rw [hrecover]
      exact Or.inl ⟨rfl,Or.inr ⟨e,hopen⟩⟩
    · refine Or.inr ⟨s,hopen,?_⟩
      split
      · rename_i hrecover
        rw [hrecover] at hstore hafter
        exact ⟨hstore,hafter⟩
      · rename_i hrecover
        rw [hrecover] at hstore hafter
        exact ⟨hstore,hafter⟩
  · exact Or.inl ⟨rfl,Or.inl rfl⟩

/-- What stands at the path after a request. -/
def fileAfter (r : ObservatoryRuntime) (file : ByteString) (call : Call) : ByteString :=
  (r.perform call).disk.getD file

/-- A request short of wrap that does not append to a file that is marked clean. -/
def CarefulCall (r : ObservatoryRuntime) (file : ByteString) (call : Call) : Prop :=
  Short 1 file ∧ (call ≠ .stop → r.fileAfter file call ≠ file → ¬ MarkedClean file)

/-- Runs of runtimes on one file, one after the other or started again, with the
request that changed the file last: none where a start did. -/
inductive CarefulRun : ObservatoryRuntime → ByteString → Option Call → Prop
  | boot {config : RuntimeConfig} {clock : ℕ → TimePoint} {sorter : Ranking.Sorter ranksBefore}
      {created started : ObservatoryRuntime} {content : Option ByteString} {status : Status}
      {file : ByteString} (hcreate : create config (some clock) sorter = .ok created)
      (hstart : created.start content = (status,started,some file))
      (hopen : started.store.isSome = true) (hshort : Short 1 (content.getD [])) :
      CarefulRun started file none
  | call {r : ObservatoryRuntime} {file : ByteString} {last : Option Call}
      (h : CarefulRun r file last) {call : Call} (hcareful : r.CarefulCall file call) :
      CarefulRun (r.perform call) (r.fileAfter file call)
        (if r.fileAfter file call = file then last else some call)
  | restart {r next started : ObservatoryRuntime} {file after : ByteString} {last : Option Call}
      {status : Status} (h : CarefulRun r file last)
      (hnext : next = r ∨ ∃ config clock sorter, create config (some clock) sorter = .ok next)
      (hstart : next.start (some file) = (status,started,some after))
      (hdisk : started.disk.getD after = after) (hshort : Short 1 file) :
      CarefulRun started after (if after = file then last else none)

/-- What the end of a run leaves at the path: what stands there, or what a crash left of
a header write, or of a request in the middle of its appends. -/
inductive Left (r : ObservatoryRuntime) (file : ByteString) : ByteString → Prop
  | closed {left : ByteString} (h : ({ store := { file := file } } : StoreObject).Leaves left) :
      r.Left file left
  | held {s : PersistentStore} (hstore : r.store = some s) {left : ByteString}
      (h : ({ store := s, isOpen := true } : StoreObject).Leaves left) : r.Left file left
  | amid {call : Call} (hcareful : r.CarefulCall file call) (hstop : call ≠ .stop)
      {left : ByteString} (hfrom : file <+: left) (hto : left <+: r.fileAfter file call) :
      r.Left file left

/-- The flag tells the truth about the request that changed the file last, and a handle
agrees with the file. -/
structure Truthful (r : ObservatoryRuntime) (file : ByteString) (last : Option Call) : Prop where
  long : kStoreHeaderBytes ≤ file.length
  flag : MarkedClean file → last = some .stop
  handle : ∀ s, r.store = some s → s.file = file ∧ s.options.readOnly = false ∧
    Aligned { store := s, isOpen := true }

/-- A request other than a stop writes behind the file, if it writes at all. -/
theorem perform_extends (r : ObservatoryRuntime) {call : Call} (hstop : call ≠ .stop) :
    (r.store = none ∧ (r.perform call).store = none) ∨
      ∃ s t, r.store = some s ∧ (r.perform call).store = some t ∧ StoreObject.Extends s t :=
  (@perform_appends (fun _ => True) (fun _ _ => trivial) r call hstop
    (fun _ _ => trivial)).extends

section Step
variable {r : ObservatoryRuntime} {file : ByteString} {last : Option Call}

/-- A start writes a header that is not clean, or leaves the file. -/
theorem Truthful.starts (h : Truthful r file last) {next started : ObservatoryRuntime}
    {after : ByteString} {status : Status} (hnext : next.store = none ∨ next.store = r.store)
    (hstart : next.start (some file) = (status,started,some after))
    (hdisk : started.disk.getD after = after) (hshort : Short 1 file) :
    Truthful started after (if after = file then last else none) := by
  have hstarted : (next.start (some file)).2.1 = started ∧
      (next.start (some file)).2.2 = some after := by
    rw [hstart]
    exact ⟨rfl,rfl⟩
  have hhandle : started.store = next.store → ∀ s, started.store = some s → s.file = file ∧
      s.options.readOnly = false ∧ Aligned { store := s, isOpen := true } := by
    intro hsame s hs
    rw [hsame] at hs
    rcases hnext with hnone | hkept
    · rw [hnone] at hs
      cases hs
    · exact h.handle s (hkept ▸ hs)
  have hquiet : started.store = next.store → after = file →
      Truthful started after (if after = file then last else none) := by
    intro hsame hfile
    subst hfile
    rw [if_pos rfl]
    exact ⟨h.long,h.flag,hhandle hsame⟩
  have hcases := next.start_store (some file)
  rw [hstarted.1, hstarted.2] at hcases
  rcases hcases with ⟨hsame,hleft | ⟨e,hopen⟩⟩ | ⟨s,hopen,hstore,hafter⟩
  · exact hquiet hsame (Option.some.inj hleft)
  · obtain ⟨left,hleft,hfile⟩ := left_of_open_error (congrArg Prod.fst hopen) hshort
    rw [hopen] at hleft
    obtain rfl := Option.some.inj hleft
    rcases hfile with hfile | ⟨hunmarked,hlong⟩
    · exact hquiet hsame hfile
    · refine ⟨hlong,fun hflag => absurd hflag hunmarked,?_⟩
      intro s hs
      obtain ⟨hfile,hrest⟩ := hhandle hsame s hs
      rw [disk, hs] at hdisk
      exact ⟨hdisk,hrest⟩
  · obtain ⟨haligned,hunmarked,hlong⟩ := aligned_of_open hopen rfl hshort
    obtain rfl := Option.some.inj hafter
    refine ⟨hlong,fun hflag => absurd hflag hunmarked,?_⟩
    rw [hstore]
    rintro _ ⟨⟩
    exact ⟨rfl,congrArg StoreOptions.readOnly (options_of_open hopen),haligned⟩

/-- A stop marks the store, or leaves the file. -/
theorem Truthful.stops (h : Truthful r file last) (hshort : Short 1 file) :
    Truthful (r.perform .stop) (r.fileAfter file .stop)
      (if r.fileAfter file .stop = file then last else some .stop) := by
  rcases r.stop_cases with ⟨state,hstop⟩ | ⟨s,state,hstore,hstop⟩
  · have hsame : (r.perform .stop).store = r.store := by rw [perform, hstop]
    have hfile : r.fileAfter file .stop = file := by
      rw [fileAfter, disk, hsame]
      cases hstore : r.store with
      | none => rfl
      | some s => exact (h.handle s hstore).1
    rw [hfile, if_pos rfl]
    refine ⟨h.long,h.flag,?_⟩
    rw [hsame]
    exact h.handle
  · obtain ⟨rfl,hwritable,haligned⟩ := h.handle s hstore
    have hafter : (r.perform .stop).store = some (s.markClean r.now).2 := by rw [perform, hstop]
    have hfile : r.fileAfter s.file .stop = (s.markClean r.now).2.file := by
      rw [fileAfter, disk, hafter]
      rfl
    obtain ⟨hmarked,hchanged⟩ := haligned.marks rfl hwritable hshort r.now
    obtain ⟨newest,hheaded,-⟩ := hmarked.headed
    rw [hfile, if_neg hchanged]
    refine ⟨hheaded.long,fun _ => rfl,?_⟩
    rw [hafter]
    rintro _ ⟨⟩
    refine ⟨rfl,?_,hmarked⟩
    unfold PersistentStore.markClean
    rw [hwritable]
    exact hwritable

/-- What one careful request preserves. -/
theorem Truthful.performs (h : Truthful r file last) {call : Call}
    (hcareful : r.CarefulCall file call) : Truthful (r.perform call) (r.fileAfter file call)
      (if r.fileAfter file call = file then last else some call) := by
  obtain ⟨hshort,hmarked⟩ := hcareful
  by_cases hstop : call = .stop
  · subst hstop
    exact h.stops hshort
  · rcases r.perform_extends hstop with ⟨hnone,hafter⟩ | ⟨s,t,hstore,hafter,hextends⟩
    · have hfile : r.fileAfter file call = file := by
        rw [fileAfter, disk, hafter]
        rfl
      rw [hfile, if_pos rfl]
      refine ⟨h.long,h.flag,?_⟩
      rw [hafter]
      rintro _ ⟨⟩
    · obtain ⟨rfl,hwritable,haligned⟩ := h.handle s hstore
      have hfile : r.fileAfter s.file call = t.file := by
        rw [fileAfter, disk, hafter]
        rfl
      rw [hfile] at hmarked ⊢
      refine ⟨h.long.trans hextends.file.length_le,?_,?_⟩
      · intro hflag
        rw [haligned.markedClean_iff hextends.file] at hflag
        by_cases hsame : t.file = s.file
        · rw [if_pos hsame]
          exact h.flag hflag
        · exact absurd hflag (hmarked hstop hsame)
      · rw [hafter]
        rintro _ ⟨⟩
        exact ⟨rfl,hextends.options ▸ hwritable,haligned.extends hextends true⟩

end Step

/-- What a run preserves. -/
theorem CarefulRun.truthful {r : ObservatoryRuntime} {file : ByteString} {last : Option Call}
    (h : CarefulRun r file last) : Truthful r file last := by
  induction h with
  | @boot config clock sorter created started content status file hcreate hstart hopen hshort =>
    obtain ⟨-,rfl⟩ := create_eq_ok.mp hcreate
    rcases (fresh config clock sorter).start_store content with
      ⟨hsame,-⟩ | ⟨s,hopened,hstore,hafter⟩
    · rw [hstart] at hsame
      rw [show started.store = none from hsame] at hopen
      cases hopen
    · rw [hstart] at hstore hafter
      obtain ⟨haligned,hunmarked,hlong⟩ := aligned_of_open hopened rfl hshort
      obtain rfl : file = s.file := Option.some.inj hafter
      refine ⟨hlong,fun hflag => absurd hflag hunmarked,?_⟩
      intro t ht
      obtain rfl : s = t := Option.some.inj (hstore.symm.trans ht)
      exact ⟨rfl,congrArg StoreOptions.readOnly (options_of_open hopened),haligned⟩
  | call _ hcareful ih => exact ih.performs hcareful
  | restart _ hnext hstart hdisk hshort ih =>
    refine ih.starts ?_ hstart hdisk hshort
    rcases hnext with rfl | ⟨config,clock,sorter,hcreate⟩
    · exact Or.inr rfl
    · obtain ⟨-,rfl⟩ := create_eq_ok.mp hcreate
      exact Or.inl rfl

section Report
variable {r : ObservatoryRuntime} {file left : ByteString} {last : Option Call}

/-- What the end of a run leaves is marked clean where the file was. -/
theorem Truthful.markedClean_of_left (h : Truthful r file last) (hleft : r.Left file left)
    (hmarked : MarkedClean left) : MarkedClean file := by
  cases hleft with
  | closed hleaves =>
    refine markedClean_of_leaves hleaves h.long ?_ hmarked
    intro hopen
    cases hopen
  | held hstore hleaves =>
    obtain ⟨rfl,-,haligned⟩ := h.handle _ hstore
    exact markedClean_of_leaves hleaves h.long (fun _ _ => haligned) hmarked
  | @amid call hcareful hstop _ hfrom hto =>
    cases hstore : r.store with
    | some s =>
      obtain ⟨rfl,-,haligned⟩ := h.handle s hstore
      exact (haligned.markedClean_iff hfrom).mp hmarked
    | none =>
      have hfile : r.fileAfter file call = file := by
        rcases r.perform_extends hstop with ⟨-,hafter⟩ | ⟨s,t,hsome,-⟩
        · rw [fileAfter, disk, hafter]
          rfl
        · rw [hstore] at hsome
          cases hsome
      rw [hfile] at hto
      rwa [hto.eq_of_length_le hfrom.length_le] at hmarked

theorem Truthful.le_length (h : Truthful r file last) (hleft : r.Left file left) :
    file.length ≤ left.length := by
  cases hleft with
  | closed hleaves => exact hleaves.le_length
  | held hstore hleaves =>
    obtain ⟨rfl,-⟩ := h.handle _ hstore
    exact hleaves.le_length
  | amid _ _ hfrom _ => exact hfrom.length_le

/-- The next open reports a clean shutdown only where a stop changed the file last. -/
theorem Truthful.report (h : Truthful r file last) (hleft : r.Left file left)
    (hclean : ReportsClean left) : last = some .stop :=
  h.flag (h.markedClean_of_left hleft
    (hclean.markedClean (h.long.trans (h.le_length hleft))))

end Report

/-- The clean flag means clean along every run that appends nothing to a file that is
marked clean: where the next open reports a clean shutdown, the operation that changed the
file last is a clean mark, and in the runs of runtimes a stop. -/
theorem clean_flag_means_clean {left : ByteString} (hclean : ReportsClean left) :
    (∀ path options now content s operations,
      (open_ path options now content).1 = .ok s → options.readOnly = false →
      Short 1 (content.getD []) →
      StoreObject.CarefulRun { store := s, isOpen := true } operations →
      Leaves (StoreObject.performAll { store := s, isOpen := true } operations) left →
        ∃ marked, lastWriter { store := s, isOpen := true } (some (.open_ options now))
          operations = some (.markClean marked)) ∧
    ∀ r file last, ObservatoryRuntime.CarefulRun r file last → r.Left file left →
      last = some .stop := by
  constructor
  · intro path options now content s operations hopen hwritable hshort hcareful hleaves
    exact ((honest_of_open hopen hwritable hshort).performAll hcareful).report hleaves hclean
  · intro r file last hrun hleft
    exact hrun.truthful.report hleft hclean

theorem reportsClean_of_evaluates {file : ByteString}
    (h : ((open_ "store" {} ⟨3⟩ (some file)).1.toOption.map
      (·.recovery.uncleanPreviousShutdown)) = some false) : ReportsClean file := by
  obtain ⟨t,ht,hclean⟩ := Option.map_eq_some_iff.mp h
  exact ⟨"store",{},⟨3⟩,t,toOption_eq_some_iff.mp ht,hclean⟩

/-- An owner that goes on after a clean mark. -/
def recordAfterMark : List Operation := [.markClean ⟨2⟩,.append .marker [1] none]

/-- An owner that ends with one. -/
def markAfterRecord : List Operation := [.append .marker [1] none,.markClean ⟨2⟩]

/-- The runtime that was booted and stopped. -/
def stoppedPersistent : ObservatoryRuntime := bootedPersistent.perform .stop

/-- The runtime of a run that was booted and stopped. -/
theorem stoppedPersistent_run : ObservatoryRuntime.CarefulRun stoppedPersistent
    (bootedPersistent.fileAfter (bootedPersistent.disk.getD []) .stop)
    (if bootedPersistent.fileAfter (bootedPersistent.disk.getD []) .stop =
      bootedPersistent.disk.getD [] then none else some .stop) := by
  have hbooted : (createdPersistent.start none).2.2 = some (bootedPersistent.disk.getD []) ∧
      bootedPersistent.store.isSome = true ∧ Short 1 (none.getD []) ∧
      Short 1 (bootedPersistent.disk.getD []) := by decide +kernel
  obtain ⟨hfile,hopen,hnew,hshort⟩ := hbooted
  refine .call (.boot create_persistent (Prod.ext rfl (Prod.ext rfl hfile)) hopen hnew) ?_
  exact ⟨hshort,fun hother => absurd rfl hother⟩

/-- A new store that is marked clean after its only record, and a runtime that is stopped
after its start. -/
theorem clean_mark_reported : ∃ s, newStore = .ok s ∧
    (∃ marked, lastWriter { store := s, isOpen := true } (some (.open_ {} ⟨1⟩))
      markAfterRecord = some (.markClean marked)) ∧
    stoppedPersistent.disk ≠ bootedPersistent.disk := by
  have hstore : newStore.toOption.map (fun s =>
      let opened : StoreObject := { store := s, isOpen := true }
      let extended := opened.perform (.append .marker [1] none)
      (decide (Short 2 s.file ∧ ¬ MarkedClean s.file ∧ Short 2 extended.store.file),
        (open_ "store" {} ⟨3⟩ (some (opened.performAll markAfterRecord).store.file)).1.toOption.map
          (·.recovery.uncleanPreviousShutdown))) = some (true,some false) := by decide +kernel
  have hstopped : ((open_ "store" {} ⟨3⟩ (some (bootedPersistent.fileAfter
      (bootedPersistent.disk.getD []) .stop))).1.toOption.map
        (·.recovery.uncleanPreviousShutdown)) = some false := by decide +kernel
  have hnew : Short 1 ((none : Option ByteString).getD []) := by decide +kernel
  obtain ⟨s,hs,hboth⟩ := Option.map_eq_some_iff.mp hstore
  obtain ⟨hfacts,hclean⟩ := Prod.mk.inj hboth
  obtain ⟨hfirst,hunmarked,hsecond⟩ := of_decide_eq_true hfacts
  have hopen : newStore = .ok s := toOption_eq_some_iff.mp hs
  have hcareful : StoreObject.CarefulRun { store := s, isOpen := true } markAfterRecord := by
    refine ⟨⟨hfirst,?_⟩,⟨hsecond,?_⟩,trivial⟩
    · intro _ _ _ _ _
      exact hunmarked
    · intro _ _ _ hother
      cases hother
  refine ⟨s,hopen,?_,?_⟩
  · exact (clean_flag_means_clean (reportsClean_of_evaluates hclean)).1 "store" {} ⟨1⟩ none s
      markAfterRecord hopen rfl hnew hcareful .whole
  · intro hsame
    have hlast := (clean_flag_means_clean (reportsClean_of_evaluates hstopped)).2 _ _ _
      stoppedPersistent_run (.closed .whole)
    have hfile : bootedPersistent.fileAfter (bootedPersistent.disk.getD []) .stop =
        bootedPersistent.disk.getD [] := by
      show stoppedPersistent.disk.getD (bootedPersistent.disk.getD []) = _
      rw [hsame]
      cases bootedPersistent.disk <;> rfl
    rw [if_pos hfile] at hlast
    cases hlast

/-- A store that was marked clean takes a record, and a runtime that was stopped takes a
source: the next open reports a clean shutdown all the same. -/
theorem clean_flag_outlives_append :
    (∃ s, newStore = .ok s ∧
      ReportsClean (StoreObject.performAll { store := s, isOpen := true }
        recordAfterMark).store.file ∧
      lastWriter { store := s, isOpen := true } (some (.open_ {} ⟨1⟩)) recordAfterMark =
        some (.append .marker [1] none)) ∧
    let served := stoppedPersistent.perform (.registerSource authoritySource)
    served.disk ≠ stoppedPersistent.disk ∧ ReportsClean (served.disk.getD []) := by
  obtain ⟨hserved,hreported⟩ :
      (stoppedPersistent.perform (.registerSource authoritySource)).disk ≠
        stoppedPersistent.disk ∧
      ((open_ "store" {} ⟨3⟩ (some ((stoppedPersistent.perform
        (.registerSource authoritySource)).disk.getD []))).1.toOption.map
          (·.recovery.uncleanPreviousShutdown)) = some false := by decide +kernel
  have hstore : newStore.toOption.map (fun s =>
      ((open_ "store" {} ⟨3⟩ (some (StoreObject.performAll { store := s, isOpen := true }
          recordAfterMark).store.file)).1.toOption.map (·.recovery.uncleanPreviousShutdown),
        lastWriter { store := s, isOpen := true } (some (.open_ {} ⟨1⟩)) recordAfterMark)) =
      some (some false,some (.append .marker [1] none)) := by decide +kernel
  obtain ⟨s,hs,hboth⟩ := Option.map_eq_some_iff.mp hstore
  obtain ⟨hclean,hlast⟩ := Prod.mk.inj hboth
  exact ⟨⟨s,toOption_eq_some_iff.mp hs,reportsClean_of_evaluates hclean,hlast⟩,hserved,
    reportsClean_of_evaluates hreported⟩

end ObservatoryRuntime

end PathObservatory
