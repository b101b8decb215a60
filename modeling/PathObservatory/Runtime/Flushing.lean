import PathObservatory.Runtime.FindingSteps

/-! # A flush and the restart after it

A flush appends every finding to the store, and a restart keeps the newest version of
each. The new runtime holds the findings of the flushed one exactly when the store held
no finding that these lack before, and of every finding the same or an older version.
-/
namespace PathObservatory
open PersistentStore ByteReader CanonicalReader

namespace Codec
variable {limits : Limits} {payload : ByteString} {finding other : Finding}

theorem text_of_le {small large : ℕ} (hle : small ≤ large) {input rest value : ByteString}
    (h : (text small).run input = .ok (value,rest)) :
    (text large).run input = .ok (value,rest) := by
  unfold text at h ⊢
  simp only [run_bind_eq_ok, run_lift_eq_ok] at h ⊢
  obtain ⟨length,after,hlength,_,_,⟨hbound,rfl⟩,htake⟩ := h
  have hle := (of_decide_eq_true (require_eq_ok.mp hbound)).trans hle
  exact ⟨length,after,hlength,(),after,⟨require_eq_ok.mpr (decide_eq_true hle),rfl⟩,htake⟩

/-- A decoder that allows longer texts returns the same. -/
theorem decodeFinding_of_le {bound : ℕ} (hle : limits.maxStringBytes ≤ bound)
    (h : decodeExact (decodeFinding limits) payload = .ok finding) :
    decodeExact (decodeFinding { limits with maxStringBytes := bound }) payload = .ok finding := by
  have hwithin : Within (decodeFinding limits)
      (decodeFinding { limits with maxStringBytes := bound }) := by
    unfold decodeFinding
    iterate 16 refine (Within.refl _).bind fun _ => ?_
    exact Within.bind (fun _ _ _ => text_of_le hle) fun _ => .refl _
  obtain ⟨⟨found,rest⟩,hrun,h⟩ := bind_eq_ok.mp h
  exact bind_eq_ok.mpr ⟨⟨found,rest⟩,hwithin _ _ _ hrun,h⟩

open FindingRegistry in
/-- The decoder reads a finding back when its text is not too long, and not else. -/
theorem decodeFinding_encodeFinding_iff (hlimits : limits.validate = .ok ()) {id : FindingId}
    (hfinding : Presentable limits id finding) :
    decodeExact (decodeFinding limits) (encodeFinding finding) = .ok other ↔
      finding.detail.length ≤ limits.maxStringBytes ∧ other = finding := by
  obtain ⟨hhops,-,hstrings,hevidence,-⟩ := Limits.lt_of_validate hlimits
  obtain ⟨⟨hid,hsealed,hids,hindices⟩,hdetail⟩ := hfinding
  have hreads : ∀ bound, finding.detail.length ≤ bound → bound < 2 ^ 32 →
      decodeExact (decodeFinding { limits with maxStringBytes := bound })
        (encodeFinding finding) = .ok finding := fun bound hlength hbound =>
    decodeExact_of_reads (reads_decodeFinding ⟨hids,hindices,hlength⟩ (hid.trans hsealed.symm)
      hevidence hhops hbound)
  constructor
  · intro h
    have hbound : limits.maxStringBytes ≤ 2 ^ 32 - 1 := by omega
    have hsame := hreads (2 ^ 32 - 1) (by omega) (by norm_num)
    rw [decodeFinding_of_le hbound h] at hsame
    obtain rfl := Except.ok.inj hsame
    exact ⟨(filed_of_decodeFinding h).fits.detail,rfl⟩
  · rintro ⟨hlength,rfl⟩
    exact hreads limits.maxStringBytes hlength hstrings

end Codec

namespace FindingRegistry
variable {limits : Limits} {d r s : FindingRegistry} {finding : Finding}

/-- Restoring a finding offers it to the registry. -/
theorem findings_of_restore (h : d.restore finding = .ok s) :
    s.findings = Versions.take Finding.finderKeepsNewest d.findings (finding.id,finding) := by
  unfold Versions.take
  obtain ⟨-,⟨existing,hexisting,⟨hnewer,rfl⟩ | ⟨hnewer,rfl⟩⟩ | ⟨hnew,-,rfl⟩⟩ := restore_cases h
  · simp only [hexisting, hnewer, if_true]
    rfl
  · simp only [hexisting, hnewer]
    rfl
  · simp only [hnew]
    rfl

theorem findings_of_restoreAll {findings : List Finding} (h : findings.foldlM restore d = .ok s) :
    s.findings = (findings.map fun finding => (finding.id,finding)).foldl
      (Versions.take Finding.finderKeepsNewest) d.findings := by
  induction findings generalizing d with
  | nil => rw [Except.ok.inj h]; rfl
  | cons finding rest ih =>
    obtain ⟨next,hnext,hrest⟩ := bind_eq_ok.mp h
    rw [ih hrest, findings_of_restore hnext]
    rfl

/-- The entries of a registry are its findings under their identities. -/
theorem Presented.entries (h : Presented limits r) :
    (r.all.map fun finding => (finding.id,finding)) = r.findings.toList := by
  unfold FindingRegistry.all
  rw [List.map_map]
  refine (List.map_congr_left fun entry hentry => ?_).trans (List.map_id _)
  have hfound := Std.ExtTreeMap.mem_toList_iff_getElem?_eq_some.mp hentry
  exact Prod.ext (h.all _ _ hfound).countable.id_eq rfl

theorem Presented.of_mem_all (h : Presented limits r) (hmem : finding ∈ r.all) :
    Presentable limits finding.id finding := by
  obtain ⟨⟨id,listed⟩,hentry,rfl⟩ := List.mem_map.mp hmem
  have hlisted := h.all _ _ (Std.ExtTreeMap.mem_toList_iff_getElem?_eq_some.mp hentry)
  rwa [← hlisted.countable.id_eq] at hlisted

/-- Where the texts are short enough the decoder reads every finding back. -/
theorem Presented.sound (h : Presented limits r)
    (htexts : ∀ finding ∈ r.all, finding.detail.length ≤ limits.maxStringBytes) :
    Sound limits r := by
  refine ⟨h.limits_eq,h.size_le,fun id finding hfound => ?_⟩
  obtain ⟨hid,hsealed,hevidence,hhops⟩ := (h.all id finding hfound).countable
  have hmem : finding ∈ r.all := List.mem_map.mpr
    ⟨(id,finding),Std.ExtTreeMap.mem_toList_iff_getElem?_eq_some.mpr hfound,rfl⟩
  exact ⟨hid,hsealed,⟨hevidence,hhops,htexts finding hmem⟩⟩

/-- Restoring all its findings makes a registry the other exactly when it is behind. -/
theorem restoreAll_iff (hd : Sound limits d) (h : Presented limits r)
    (htexts : ∀ finding ∈ r.all, finding.detail.length ≤ limits.maxStringBytes) :
    (∃ s, r.all.foldlM restore d = .ok s ∧ s.findings = r.findings) ↔ d.Behind r := by
  have hkeys : (r.findings.toList.map (·.1)).Nodup := by
    rw [Std.ExtTreeMap.map_fst_toList_eq_keys]
    exact r.findings.keys_nodup
  have hbehind := @Versions.foldl_take_eq_iff _ _ _ Finding.finderKeepsNewest d.findings r.findings
    r.findings.toList hkeys (fun _ _ => Std.ExtTreeMap.mem_toList_iff_getElem?_eq_some.symm)
  rw [← h.entries] at hbehind
  refine Iff.trans ?_ hbehind
  constructor
  · rintro ⟨s,hs,hsame⟩
    rw [← findings_of_restoreAll hs, hsame]
  · intro hall
    have hsound := h.sound htexts
    have hon : ∀ finding ∈ r.all, r.findings[finding.id]? = some finding :=
      fun finding hmem => hsound.getElem?_of_mem_all hmem
    exact ⟨_,restoreAll_of_behind hd hsound (hbehind.mp hall) hon,hall⟩

end FindingRegistry

namespace Durable
open FindingRegistry ObservatoryRuntime
variable {limits : Limits} {d e : Durable}

theorem replay_append {first second : List StoredRecord} :
    replay limits d (first ++ second) = .ok e ↔
      ∃ next, replay limits d first = .ok next ∧ replay limits next second = .ok e := by
  unfold replay
  rw [List.foldlM_append]
  exact bind_eq_ok

/-- These records are what is written for the findings. -/
def RecordsOf (records : List StoredRecord) (findings : List Finding) : Prop :=
  List.Forall₂ (fun record finding =>
    record.type = .finding ∧ record.payload = Codec.encodeFinding finding) records findings

theorem replayRecord_finding_iff (hlimits : limits.validate = .ok ()) {record : StoredRecord}
    {finding : Finding} (hfinding : Presentable limits finding.id finding)
    (htype : record.type = .finding) (hpayload : record.payload = Codec.encodeFinding finding) :
    replayRecord limits d record = .ok e ↔
      finding.detail.length ≤ limits.maxStringBytes ∧
        ∃ s, d.findings.restore finding = .ok s ∧ e = { d with findings := s } := by
  have hdecode : ∀ other, decodeStored (Codec.decodeFinding limits) record = .ok other ↔
      finding.detail.length ≤ limits.maxStringBytes ∧ other = finding := by
    intro other
    rw [← Codec.decodeFinding_encodeFinding_iff hlimits hfinding, ← hpayload]
    constructor
    · exact decodeExact_of_decodeStored
    · intro h
      unfold decodeStored
      rw [h]
  unfold replayRecord
  rw [htype]
  simp only [bind_eq_ok, hdecode]
  constructor
  · rintro ⟨other,⟨hlength,rfl⟩,s,hs,he⟩
    exact ⟨hlength,s,hs,(Except.ok.inj he).symm⟩
  · rintro ⟨hlength,s,hs,rfl⟩
    exact ⟨finding,⟨hlength,rfl⟩,s,hs,rfl⟩

/-- Replaying what was written for findings restores them, when their texts are not too
long. -/
theorem replay_findings_iff (hlimits : limits.validate = .ok ()) {records : List StoredRecord}
    {findings : List Finding} (hrecords : RecordsOf records findings)
    (hfindings : ∀ finding ∈ findings, Presentable limits finding.id finding) :
    replay limits d records = .ok e ↔
      (∀ finding ∈ findings, finding.detail.length ≤ limits.maxStringBytes) ∧
        ∃ s, findings.foldlM restore d.findings = .ok s ∧ e = { d with findings := s } := by
  induction hrecords generalizing d with
  | nil =>
    constructor
    · intro h
      exact ⟨List.forall_mem_nil _,d.findings,rfl,(Except.ok.inj h).symm⟩
    · rintro ⟨-,s,hs,rfl⟩
      rw [← Except.ok.inj hs]
      rfl
  | @cons record finding records findings hone _ ih =>
    obtain ⟨hfinding,hrest⟩ := List.forall_mem_cons.mp hfindings
    have hfirst := fun next => @replayRecord_finding_iff limits d next hlimits record finding
      hfinding hone.1 hone.2
    have hreplay : replay limits d (record :: records) = .ok e ↔
        ∃ next, replayRecord limits d record = .ok next ∧ replay limits next records = .ok e :=
      bind_eq_ok
    rw [hreplay, List.forall_mem_cons]
    constructor
    · rintro ⟨next,hnext,hall⟩
      obtain ⟨hlength,s,hs,rfl⟩ := (hfirst next).mp hnext
      obtain ⟨hlengths,t,ht,rfl⟩ := (ih hrest).mp hall
      exact ⟨⟨hlength,hlengths⟩,t,bind_eq_ok.mpr ⟨s,hs,ht⟩,rfl⟩
    · rintro ⟨⟨hlength,hlengths⟩,t,ht,rfl⟩
      obtain ⟨s,hs,ht⟩ := bind_eq_ok.mp ht
      exact ⟨{ d with findings := s },(hfirst _).mpr ⟨hlength,s,hs,rfl⟩,
        (ih hrest).mpr ⟨hlengths,t,ht,rfl⟩⟩

end Durable

namespace ObservatoryRuntime
open FindingRegistry
variable {config : RuntimeConfig} {r s : ObservatoryRuntime} {limits : Limits}
  {records : List StoredRecord}

def storedFinding (finding : Finding) (sequence : UInt64) : StoredRecord where
  type := .finding
  sequence := sequence
  payload := Codec.encodeFinding finding

/-- Findings that are written add one record each. -/
theorem persistFindings_records (hbytes : limits.maxStoreRecordBytes < 2 ^ 32)
    {findings : List Finding} (hstored : Stored limits r.store records)
    (hok : (r.persistFindings findings).1 = .ok ()) :
    ∃ more, Stored limits (r.persistFindings findings).2.store (records ++ more) ∧
      Durable.RecordsOf more findings := by
  induction findings generalizing r records with
  | nil => exact ⟨[],by rwa [List.append_nil],.nil⟩
  | cons finding rest ih =>
    have hwritten := persistRecord_stored hstored hbytes .finding (Codec.encodeFinding finding)
    rcases r.persistFindings_cons_cases finding rest with
      ⟨e,s,-,hresult⟩ | ⟨s,hpersist,hresult⟩
    · rw [hresult] at hok
      cases hok
    · rw [hpersist] at hwritten
      rw [hresult] at hok ⊢
      rcases hwritten with ⟨⟨e,herror⟩,-⟩ | ⟨-,sequence,hkept⟩
      · cases herror
      · obtain ⟨more,hmore,hrecords⟩ := ih hkept hok
        refine ⟨storedFinding finding sequence :: more,?_,.cons ⟨rfl,rfl⟩ hrecords⟩
        rw [List.append_cons]
        exact hmore

section
variable {clock : ℕ → TimePoint} {sorter : Ranking.Sorter ranksBefore} {store : PersistentStore}
  {findings : OrderedMap FindingId Finding}

/-- A new runtime on a store starts with these findings. -/
def StartsWith (config : RuntimeConfig) (clock : ℕ → TimePoint)
    (sorter : Ranking.Sorter ranksBefore) (disk : Option ByteString)
    (findings : OrderedMap FindingId Finding) : Prop :=
  ∃ started after, (fresh config clock sorter).start disk = (.ok (),started,after) ∧
    started.findings.findings = findings

/-- It does when they are what the records rebuild, or when they are none and the
records are not read. -/
theorem startsWith_iff (hlimits : config.limits.validate = .ok ())
    (hthreads : ¬ BadThreads config) (hpersist : config.persist = true)
    (hclock : (clock 0).isSet = true) (hretains : store.Retains config.limits records) :
    StartsWith config clock sorter (some store.file) findings ↔
      if config.loadEvidenceOnStart then
        ∃ d, Durable.replay config.limits (Durable.empty config.limits) records = .ok d ∧
          d.findings.findings = findings
      else findings = ∅ := by
  obtain ⟨again,hopen,hkept⟩ := hretains.reopen hlimits hclock config.storePath
  split_ifs with hload
  · constructor
    · rintro ⟨started,after,hstart,hfindings⟩
      obtain ⟨-,-,found,⟨held,hheld,hfound⟩,hreplay⟩ :=
        loaded_of_start hlimits hpersist hload hstart
      rcases start_store_of_persist (r := fresh config clock sorter) hpersist (some store.file) with
        ⟨⟨e,herror⟩,-⟩ | ⟨opened,hopened,hstore⟩
      · rw [hstart] at herror
        cases herror
      · rw [hstart] at hstore
        obtain rfl : again = opened :=
          Except.ok.inj ((congrArg Prod.fst hopen).symm.trans hopened)
        obtain rfl := Option.some.inj (hheld.symm.trans hstore)
        obtain rfl := Except.ok.inj (hfound.readAll.symm.trans hkept.readAll)
        exact ⟨started.durable,hreplay,hfindings⟩
    · rintro ⟨d,hreplay,hfindings⟩
      obtain ⟨started,after,hstart,hdurable⟩ :=
        @start_of_retains config clock sorter _ _ _ hlimits hthreads hpersist hload hclock hretains
          hreplay
      have hsame := congrArg (fun d => d.findings.findings) hdurable
      exact ⟨started,after,hstart,hsame.trans hfindings⟩
  · have hopened : open_ (fresh config clock sorter).config.storePath
        (fresh config clock sorter).storeOptions (fresh config clock sorter).now
          (some store.file) = (.ok again,some again.file) := hopen
    have hunread : ¬ (fresh config clock sorter).config.loadEvidenceOnStart = true := hload
    have hstart : (fresh config clock sorter).start (some store.file) = (.ok (),
        { ((fresh config clock sorter).opened again).forgetExpected with state := .running },
        some again.file) := by
      rw [start_fresh hthreads, if_pos hpersist]
      unfold recover
      rw [hopened]
      simp only [hunread]
      rfl
    constructor
    · rintro ⟨started,after,hstarted,rfl⟩
      rw [hstart] at hstarted
      obtain rfl := (Prod.mk.inj (Prod.mk.inj hstarted).2).1
      rfl
    · rintro rfl
      exact ⟨_,_,hstart,rfl⟩

end

theorem PersistentRun.threads (h : PersistentRun config r) : ¬ BadThreads config := by
  induction h with
  | boot hcreate hstart =>
    obtain ⟨hcreatable,rfl⟩ := create_eq_ok.mp hcreate
    exact (checks_of_start hcreatable.1 hstart).1
  | call _ _ ih => exact ih
  | restart _ ih => exact ih

/-- The store holds no finding that the registry lacks, and of every finding the same or
an older version, as far as a restart of what it holds can tell. -/
def StoreBehind (config : RuntimeConfig) (r : ObservatoryRuntime) : Prop :=
  ∃ store records d, r.store = some store ∧ store.readAll = .ok records ∧
    Durable.replay config.limits (Durable.empty config.limits) records = .ok d ∧
      d.findings.Behind r.findings

/-- A flush makes the findings durable: the store is read on a start and is behind, and
every text can be read; or it is not read and there is no finding. -/
def FlushLasts (config : RuntimeConfig) (r : ObservatoryRuntime) : Prop :=
  if config.loadEvidenceOnStart then
    (∀ finding ∈ r.findings.all, finding.detail.length ≤ config.limits.maxStringBytes) ∧
      r.StoreBehind config
  else r.findings.findings = ∅

/-- The records of a flushed store rebuild the findings when it was behind. -/
theorem rebuilds_flushed_iff (hlimits : config.limits.validate = .ok ())
    (hfindings : Presented config.limits r.findings) {more : List StoredRecord}
    (hmore : Durable.RecordsOf more r.findings.all) :
    (∃ d, Durable.replay config.limits (Durable.empty config.limits) (records ++ more) = .ok d ∧
      d.findings.findings = r.findings.findings) ↔
    (∀ finding ∈ r.findings.all, finding.detail.length ≤ config.limits.maxStringBytes) ∧
      ∃ d, Durable.replay config.limits (Durable.empty config.limits) records = .ok d ∧
        d.findings.Behind r.findings := by
  have hflushed := fun d e => @Durable.replay_findings_iff config.limits d e hlimits more
    r.findings.all hmore fun finding hmem => hfindings.of_mem_all hmem
  have hsound : ∀ d, Durable.replay config.limits (Durable.empty config.limits) records = .ok d →
      Sound config.limits d.findings := fun d hd =>
    Durable.sound_of_replay (FindingRegistry.sound_empty config.limits) hd
  constructor
  · rintro ⟨e,he,hsame⟩
    obtain ⟨d,hd,he⟩ := Durable.replay_append.mp he
    obtain ⟨htexts,s,hs,rfl⟩ := (hflushed d e).mp he
    exact ⟨htexts,d,hd,(restoreAll_iff (hsound d hd) hfindings htexts).mp ⟨s,hs,hsame⟩⟩
  · rintro ⟨htexts,d,hd,hbehind⟩
    obtain ⟨s,hs,hsame⟩ := (restoreAll_iff (hsound d hd) hfindings htexts).mpr hbehind
    exact ⟨{ d with findings := s },Durable.replay_append.mpr
      ⟨d,hd,(hflushed d _).mpr ⟨htexts,s,hs,rfl⟩⟩,hsame⟩

theorem flush_findings (r : ObservatoryRuntime) : r.flush.2.findings = r.findings := by
  rcases r.flush_cases with ⟨-,hresult⟩ | ⟨-,hresult⟩
  · rw [hresult]
  · obtain ⟨store,hframe⟩ := r.persistFindings_frame r.findings.all
    rw [hresult, hframe]

/-- A flush writes the findings behind what the store holds. -/
theorem flush_records (hbytes : limits.maxStoreRecordBytes < 2 ^ 32)
    (hstored : Stored limits r.store records) (hflush : r.flush = (.ok (),s)) :
    ∃ more, Stored limits s.store (records ++ more) ∧ Durable.RecordsOf more r.findings.all := by
  have hwrites : r.flush = r.persistFindings r.findings.all := by
    obtain ⟨store,hstore,-⟩ := hstored
    rcases r.flush_cases with ⟨hnone,-⟩ | ⟨-,hwrites⟩
    · cases hnone.symm.trans hstore
    · exact hwrites
  rw [hwrites] at hflush
  have hkept := persistFindings_records hbytes hstored (congrArg Prod.fst hflush)
  rwa [hflush] at hkept

/-- The file that is left holds the records, whether the runtime was stopped or not. -/
theorem disk_of_stored {disk : Option ByteString} (hstored : Stored limits s.store records)
    (hdisk : disk = s.disk ∨ disk = (s.perform .stop).disk) :
    ∃ store : PersistentStore, disk = some store.file ∧ store.Retains limits records := by
  rcases hdisk with rfl | rfl
  · obtain ⟨store,hstore,hretains⟩ := hstored
    exact ⟨store,by rw [ObservatoryRuntime.disk, hstore, Option.map_some],hretains⟩
  · obtain ⟨store,hstore,hretains⟩ := hstored.stop
    exact ⟨store,by rw [ObservatoryRuntime.disk, perform, hstore, Option.map_some],hretains⟩

/-- After any run of a persistent runtime that ends with a flush, a new runtime with the
same configuration, on the store as it is or after a stop, starts with the same findings
exactly when the store was behind them before the flush. -/
theorem flush_durable_iff (hrun : PersistentRun config r) (hpersist : config.persist = true)
    (hflush : r.flush = (.ok (),s)) {disk : Option ByteString}
    (hdisk : disk = s.disk ∨ disk = (s.perform .stop).disk) {clock : ℕ → TimePoint}
    {sorter : Ranking.Sorter ranksBefore} {created : ObservatoryRuntime}
    (hcreate : create config (some clock) sorter = .ok created)
    (hclock : (clock 0).isSet = true) :
    (∃ started after, created.start disk = (.ok (),started,after) ∧
      started.findings.findings = s.findings.findings) ↔ r.FlushLasts config := by
  obtain ⟨-,hlimits,-,hfindings⟩ := hrun.orderly
  obtain ⟨-,rfl⟩ := create_eq_ok.mp hcreate
  obtain ⟨records,before,hbefore,hretained⟩ := hrun.stored hpersist
  have hsame : s.findings = r.findings := by
    have hfindings := r.flush_findings
    rwa [hflush] at hfindings
  obtain ⟨more,hkept,hmore⟩ := flush_records (Limits.lt_of_validate hlimits).2.2.2.2
    ⟨before,hbefore,hretained⟩ hflush
  obtain ⟨store,rfl,hretains⟩ := disk_of_stored hkept hdisk
  refine (startsWith_iff hlimits hrun.threads hpersist hclock hretains).trans ?_
  rw [hsame]
  unfold FlushLasts
  split_ifs
  · rw [rebuilds_flushed_iff hlimits hfindings hmore]
    refine and_congr_right fun _ => ?_
    constructor
    · rintro ⟨d,hd,hbehind⟩
      exact ⟨before,records,d,hbefore,hretained.readAll,hd,hbehind⟩
    · rintro ⟨held,found,d,hheld,hfound,hd,hbehind⟩
      obtain rfl := Option.some.inj (hbefore.symm.trans hheld)
      obtain rfl := Except.ok.inj (hretained.readAll.symm.trans hfound)
      exact ⟨d,hd,hbehind⟩
  · exact Iff.rfl

section Samples
open ComparisonEngine (samplePlan)

/-- An acknowledgement at a later time than the finding was last seen is newer. -/
theorem behind_of_acknowledge {registry acknowledged : FindingRegistry} {id : FindingId}
    {now : TimePoint} (h : registry.acknowledge id now = .ok acknowledged)
    (hlater : ∀ held, registry.findings[id]? = some held → held.lastSeen < now) :
    registry.Behind acknowledged := by
  obtain ⟨finding,hfound,⟨-,rfl⟩ | ⟨-,rfl⟩⟩ := acknowledge_cases h
  · have hnow := hlater finding hfound
    refine behind_insert fun held hheld => ?_
    obtain rfl := Option.some.inj (hfound.symm.trans hheld)
    exact (if_pos hnow.ne').trans (decide_eq_true hnow)
  · exact Versions.Behind.refl _

/-- Findings that are not newer than those on file are restored without effect. -/
theorem restoreAll_of_not_newer {registry : FindingRegistry} {findings : List Finding}
    (h : ∀ finding ∈ findings, finding.computeFindingId = finding.id ∧
      ∃ held, registry.findings[finding.id]? = some held ∧
        held.finderKeepsNewest finding = false) :
    findings.foldlM restore registry = .ok registry := by
  induction findings with
  | nil => rfl
  | cons finding rest ih =>
    obtain ⟨⟨hsealed,held,hheld,hold⟩,hrest⟩ := List.forall_mem_cons.mp h
    refine bind_eq_ok.mpr ⟨registry,?_,ih hrest⟩
    unfold restore
    rw [decide_eq_true hsealed, hheld]
    exact if_neg (by simp [hold])

/-- Replaying what was written for findings that are not newer changes nothing. -/
theorem replay_of_not_newer {registry : FindingRegistry} (hlimits : limits.validate = .ok ())
    (hpresented : Presented limits registry) (hrecords : Durable.RecordsOf records registry.all)
    (htexts : registry.all.all (·.detail.length ≤ limits.maxStringBytes) = true)
    (hold : registry.all.all (fun finding =>
      r.findings.findings[finding.id]?.any (!·.finderKeepsNewest finding)) = true) :
    Durable.replay limits r.durable records = .ok r.durable := by
  have hrestored : registry.all.foldlM restore r.findings = .ok r.findings := by
    refine restoreAll_of_not_newer fun finding hmem => ?_
    obtain ⟨held,hheld,hkeeps⟩ := (Option.any_eq_true _ _).mp (List.all_eq_true.mp hold _ hmem)
    exact ⟨(hpresented.of_mem_all hmem).countable.sealed,held,hheld,by simpa using hkeeps⟩
  refine (Durable.replay_findings_iff hlimits hrecords
    fun finding hmem => hpresented.of_mem_all hmem).mpr ⟨fun finding hmem => ?_,_,hrestored,rfl⟩
  exact of_decide_eq_true (List.all_eq_true.mp htexts finding hmem)

theorem flush_of_fst (h : r.flush.1 = .ok ()) :
    ∃ s, r.flush = (.ok (),s) ∧ s.findings = r.findings :=
  ⟨r.flush.2,Prod.ext h rfl,r.flush_findings⟩

theorem perform_acknowledge_store (r : ObservatoryRuntime) (id : FindingId) :
    (r.perform (.acknowledgeFinding id)).store = r.store := by
  unfold perform acknowledgeFinding
  dsimp only
  split <;> rfl

theorem perform_acknowledge_findings {registry : FindingRegistry} {id : FindingId}
    (h : r.findings.acknowledge id r.now = .ok registry) :
    (r.perform (.acknowledgeFinding id)).findings = registry := by
  rw [perform, acknowledgeFinding, h]

/-- A store whose records rebuild findings that are behind is one that a flush completes. -/
theorem flushLasts_of_behind {held : ObservatoryRuntime} (hload : config.loadEvidenceOnStart = true)
    (htexts : r.findings.all.all (·.detail.length ≤ config.limits.maxStringBytes) = true)
    (hstored : Stored config.limits r.store records)
    (hreplay : Durable.replay config.limits (Durable.empty config.limits) records =
      .ok held.durable)
    (hbehind : held.findings.Behind r.findings) : r.FlushLasts config := by
  obtain ⟨store,hstore,hretains⟩ := hstored
  unfold FlushLasts
  rw [if_pos hload]
  refine ⟨fun finding hmem => of_decide_eq_true (List.all_eq_true.mp htexts finding hmem),?_⟩
  exact ⟨store,records,held.durable,hstore,hretains.readAll,hreplay,hbehind⟩

/-- The trace lies ahead of a clock that stands still. -/
def expecting : ObservatoryRuntime :=
  [Call.registerSource authoritySource,.registerSource probeSource,
    .publishTopology (emptyTopology 1),.publishRoutes samplePlan,
    .ingestEvidence laterEvidence].foldl perform bootedAtWork

def flagged : ObservatoryRuntime := expecting.perform (.compareGroup ⟨1⟩)

def firstFinding (r : ObservatoryRuntime) : FindingId := (r.findings.all.headD default).id

/-- The operator acknowledges the finding at the reading at which it was last seen. -/
def seenTo : ObservatoryRuntime := flagged.perform (.acknowledgeFinding flagged.firstFinding)

/-- The operator acknowledges the finding later than it was last seen. -/
def seenToLater : ObservatoryRuntime :=
  doubtful.perform (.acknowledgeFinding doubtful.firstFinding)

theorem acknowledgements_evaluated :
    (expecting.groupBucket ⟨1⟩ = some awaitedKey ∧ expecting.findings.findings.isEmpty = true ∧
      0 < expecting.findings.limits.maxFindings ∧
      (findingDetail .evidenceUnknown).length ≤ expecting.findings.limits.maxStringBytes ∧
      (expecting.compareBucket awaitedKey true).1.toOption.map
          (fun result => (result.outcome,result.primary)) =
        some (.indeterminate,.evidenceUnknown)) ∧
    (flagged.findings.all.map (·.status) = [.open_] ∧
      seenTo.findings.all.map (·.status) = [.acknowledged] ∧
      seenTo.findings.all.all (fun finding =>
        flagged.findings.findings[finding.id]?.any (!·.finderKeepsNewest finding)) = true ∧
      seenTo.findings.all.all
        (·.detail.length ≤ persistentConfig.limits.maxStringBytes) = true ∧
      seenTo.flush.1 = .ok ()) ∧
    ((doubtful.findings.findings[doubtful.firstFinding]?.all (·.lastSeen < doubtful.now)) = true ∧
      (doubtful.findings.acknowledge doubtful.firstFinding doubtful.now).toBool = true ∧
      seenToLater.findings.all.map (·.status) = [.acknowledged] ∧
      seenToLater.findings.all.all
        (·.detail.length ≤ persistentConfig.limits.maxStringBytes) = true ∧
      seenToLater.flush.1 = .ok ()) := by
  decide +kernel

theorem expecting_lasting : LastingRun persistentConfig expecting := by
  have hok : (createdAtWork.start none).1 = .ok () := by decide
  have hbooted : LastingRun persistentConfig bootedAtWork := .boot create_atWork (Prod.ext hok rfl)
  exact hbooted.supply (by decide) (by decide) (by decide +kernel) (by decide +kernel)

theorem flagged_lasting : LastingRun persistentConfig flagged := by
  obtain ⟨⟨hkey,hempty,hroom,hdetail,hanswer⟩,-⟩ := acknowledgements_evaluated
  exact expecting_lasting.compare hkey hempty hroom hdetail hanswer (by decide)

theorem seenTo_run : PersistentRun persistentConfig seenTo :=
  (bootedAtWork_run.performs _).call _ |>.call _

theorem seenToLater_run : PersistentRun persistentConfig seenToLater := by
  have hok : (createdEarly.start none).1 = .ok () := by decide
  have hbooted : PersistentRun persistentConfig bootedEarly :=
    .boot (rfl : create persistentConfig _ _ = .ok createdEarly) (Prod.ext hok rfl)
  exact ((hbooted.performs _).call _).call _

/-- What a later acknowledgement changed is there after a flush and a restart. -/
theorem later_acknowledgement_survives : ∃ s, seenToLater.flush = (.ok (),s) ∧
    s.findings.all.map (·.status) = [.acknowledged] ∧
    ∃ started after, createdAtWork.start s.disk = (.ok (),started,after) ∧
      started.findings.findings = s.findings.findings := by
  obtain ⟨-,-,hlater,hacknowledged,hstatus,htexts,hflush⟩ := acknowledgements_evaluated
  obtain ⟨-,hremembered⟩ := doubtful_lasting.remembered rfl rfl
  obtain ⟨records,hstored,hreplay⟩ := hremembered.stored
  have hstored : Stored persistentConfig.limits seenToLater.store records :=
    (perform_acknowledge_store doubtful doubtful.firstFinding).symm ▸ hstored
  obtain ⟨registry,hacknowledge⟩ : ∃ registry,
      doubtful.findings.acknowledge doubtful.firstFinding doubtful.now = .ok registry := by
    cases h : doubtful.findings.acknowledge doubtful.firstFinding doubtful.now with
    | ok registry => exact ⟨registry,rfl⟩
    | error e =>
      rw [h] at hacknowledged
      cases hacknowledged
  have hbehind : doubtful.findings.Behind seenToLater.findings := by
    rw [seenToLater, perform_acknowledge_findings hacknowledge]
    refine behind_of_acknowledge hacknowledge fun held hheld => ?_
    exact of_decide_eq_true ((Option.all_eq_true _ _).mp hlater held hheld)
  have hlasts := flushLasts_of_behind rfl htexts hstored hreplay hbehind
  obtain ⟨s,hflushed,hfindings⟩ := flush_of_fst hflush
  refine ⟨s,hflushed,by rw [hfindings, hstatus],?_⟩
  exact (flush_durable_iff seenToLater_run rfl hflushed (Or.inl rfl) create_atWork (by decide)).mpr
    hlasts

/-- The acknowledgement at the same reading is flushed, and lost on the restart. -/
theorem flushed_acknowledgement_lost : PersistentRun persistentConfig seenTo ∧
    ∃ s, seenTo.flush = (.ok (),s) ∧ s.findings.all.map (·.status) = [.acknowledged] ∧
      ∃ started after, createdAtWork.start s.disk = (.ok (),started,after) ∧
        started.findings.all.map (·.status) = [.open_] := by
  obtain ⟨-,⟨hopen,hstatus,hold,htexts,hflush⟩,-⟩ := acknowledgements_evaluated
  obtain ⟨hthreads,hremembered⟩ := flagged_lasting.remembered rfl rfl
  obtain ⟨records,hstored,hreplay⟩ := hremembered.stored
  have hstored : Stored persistentConfig.limits seenTo.store records :=
    (perform_acknowledge_store flagged flagged.firstFinding).symm ▸ hstored
  obtain ⟨s,hflushed,hsame⟩ := flush_of_fst hflush
  have hbytes := (Limits.lt_of_validate hremembered.limits).2.2.2.2
  obtain ⟨more,hkept,hmore⟩ := flush_records hbytes hstored hflushed
  obtain ⟨store,hdisk,hretains⟩ := disk_of_stored hkept (Or.inl rfl)
  have hall : Durable.replay persistentConfig.limits (Durable.empty persistentConfig.limits)
      (records ++ more) = .ok flagged.durable :=
    Durable.replay_append.mpr ⟨flagged.durable,hreplay,
      replay_of_not_newer hremembered.limits seenTo_run.orderly.findings hmore htexts hold⟩
  obtain ⟨started,after,hstart,hdurable⟩ := @start_of_retains persistentConfig (fun _ => ⟨1000⟩)
    (Ranking.Sorter.insertion ranksBefore_ranksBy) _ _ _ hremembered.limits hthreads rfl rfl
    (by decide) hretains hall
  refine ⟨seenTo_run,s,hflushed,by rw [hsame, hstatus],started,after,?_,?_⟩
  · rw [hdisk]
    exact hstart
  · rw [findings_of_durable hdurable]
    exact hopen

end Samples

end ObservatoryRuntime

end PathObservatory
