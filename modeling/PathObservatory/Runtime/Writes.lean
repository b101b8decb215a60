import PathObservatory.Runtime.Buckets
import PathObservatory.Store.Opening

/-! # What the requests write

Whatever a request does to the store, it appends records, and only a stop marks a clean
shutdown. Where no evidence is offered the records of evidence stay what they were.
-/
namespace PathObservatory
open PersistentStore

/-- The store only took records of the allowed kinds. -/
inductive Appends (allowed : RecordType → Prop) (store : Option PersistentStore) :
    Option PersistentStore → Prop
  | refl : Appends allowed store store
  | append {written : PersistentStore} {type : RecordType} (payload : ByteString)
      (h : Appends allowed store (some written)) (htype : allowed type) :
      Appends allowed store (some (written.append type payload).2)

theorem Appends.trans {allowed : RecordType → Prop} {a b c : Option PersistentStore}
    (h : Appends allowed a b) (k : Appends allowed b c) : Appends allowed a c := by
  induction k with
  | refl => exact h
  | append payload _ htype ih => exact .append payload ih htype

/-- The store only took records of other kinds than evidence, and clean marks. -/
inductive Logs (store : Option PersistentStore) : Option PersistentStore → Prop
  | refl : Logs store store
  | append {written : PersistentStore} {type : RecordType} (payload : ByteString)
      (h : Logs store (some written)) (htype : type ≠ .evidence) :
      Logs store (some (written.append type payload).2)
  | clean {written : PersistentStore} (now : TimePoint) (h : Logs store (some written)) :
      Logs store (some (written.markClean now).2)

theorem Appends.logs {a b : Option PersistentStore} (h : Appends (· ≠ .evidence) a b) :
    Logs a b := by
  induction h with
  | refl => exact .refl
  | append payload _ htype ih => exact .append payload ih htype

namespace ObservatoryRuntime

section Appends
variable {allowed : RecordType → Prop}

theorem persistRecord_appends (r : ObservatoryRuntime) {type : RecordType} (htype : allowed type)
    (payload : ByteString) : Appends allowed r.store (r.persistRecord type payload).2.store := by
  unfold persistRecord
  cases hstore : r.store with
  | none =>
    rw [hstore]
    exact .refl
  | some store => exact .append payload .refl htype

variable (hother : ∀ type, type ≠ .evidence → allowed type)
include hother

theorem persistFindings_appends (r : ObservatoryRuntime) (findings : List Finding) :
    Appends allowed r.store (r.persistFindings findings).2.store := by
  induction findings generalizing r with
  | nil => exact .refl
  | cons finding rest ih =>
    have hone := r.persistRecord_appends (hother .finding (by decide))
      (Codec.encodeFinding finding)
    rcases r.persistFindings_cons_cases finding rest with
      ⟨e,s,hpersist,hresult⟩ | ⟨s,hpersist,hresult⟩
    · rw [hpersist] at hone
      rwa [hresult]
    · rw [hpersist] at hone
      rw [hresult]
      exact hone.trans (ih s)

theorem persistComparison_appends (r : ObservatoryRuntime) (result : ComparisonResult) :
    Appends allowed r.store (r.persistComparison result).2.store := by
  have hone := r.persistRecord_appends (hother .comparison (by decide))
    (Codec.encodeComparison result)
  rcases r.persistComparison_cases result with ⟨e,s,hpersist,hresult⟩ | ⟨s,hpersist,hresult⟩
  · rw [hpersist] at hone
    rwa [hresult]
  · rw [hpersist] at hone
    rw [hresult]
    exact hone.trans (persistFindings_appends hother s (s.naming result))

theorem recordComparison_appends (r : ObservatoryRuntime) (result : ComparisonResult) :
    Appends allowed r.store (r.recordComparison result).2.store := by
  rcases r.recordComparison_cases result with ⟨e,-,hresult⟩ | ⟨recorded,-,hresult⟩
  · rw [hresult]
    exact .refl
  · obtain ⟨_,_,hfolded⟩ := r.folded_frame result recorded
    have hwritten := persistComparison_appends hother (r.folded result recorded) result
    rw [hresult]
    rwa [hfolded] at hwritten ⊢

theorem compareBucket_appends (r : ObservatoryRuntime) (key : SubjectKey) (record : Bool) :
    Appends allowed r.store (r.compareBucket key record).2.store := by
  rcases r.compareBucket_cases key record with ⟨e,-,hresult⟩ | ⟨result,-,hresult⟩
  · rw [hresult]
    exact .refl
  · rw [hresult]
    split
    · exact recordComparison_appends hother r.tick result
    · exact .refl

theorem compareKeys_appends (r : ObservatoryRuntime) (keys : List SubjectKey) :
    Appends allowed r.store (r.compareKeys keys).2.store :=
  compareKeys_preserves (P := fun s => Appends allowed r.store s.store)
    (fun s key hs => hs.trans (compareBucket_appends hother s key true)) .refl keys

theorem registerSource_appends (r : ObservatoryRuntime) (descriptor : SourceDescriptor) :
    Appends allowed r.store (r.registerSource descriptor).2.store := by
  have hone := r.persistRecord_appends (hother .source (by decide))
    (Codec.encodeSource descriptor)
  rcases r.registerSource_cases descriptor with ⟨e,s,hpersist,hresult⟩ |
    ⟨s,hpersist,⟨e,-,hresult⟩ | ⟨sources,-,hresult⟩⟩
  · rw [hpersist] at hone
    rwa [hresult]
  · rw [hpersist] at hone
    rwa [hresult]
  · rw [hpersist] at hone
    rwa [hresult]

omit hother in
theorem ingestEvidence_appends (hevidence : allowed .evidence) (r : ObservatoryRuntime)
    (e : ObservedPathEvidence) : Appends allowed r.store (r.ingestEvidence e).2.store := by
  have hwritten := r.persistRecord_appends hevidence (Codec.encodeEvidence e.seal_)
  rcases r.ingestEvidence_keeps e with hnothing | ⟨-,key,hrecord⟩
  · rcases hnothing.store with hsame | ⟨-,hstore⟩
    · rw [hsame]
      exact .refl
    · rwa [hstore]
  · rwa [hrecord.store]

theorem publishTopology_appends (r : ObservatoryRuntime) (g : TopologyGeneration) :
    Appends allowed r.store (r.publishTopology g).2.store := by
  rcases r.publishTopology_cases g with
    ⟨_,hresult⟩ | ⟨_,-,-,hresult⟩ | ⟨admitted,index,-,-,-,hresult⟩
  · rw [hresult]
    exact .refl
  · rw [hresult]
    exact .refl
  · have hwritten := (r.adoptTopology admitted index).persistRecord_appends
      (hother .topologyGeneration (by decide)) (Codec.encodeTopology admitted)
    rw [hresult]
    exact hwritten

theorem publishRoutes_appends (r : ObservatoryRuntime) (g : RouteGeneration) :
    Appends allowed r.store (r.publishRoutes g).2.store := by
  rcases r.publishRoutes_cases g with ⟨_,hresult⟩ | ⟨_,-,-,hresult⟩ | ⟨admitted,-,-,hresult⟩
  · rw [hresult]
    exact .refl
  · rw [hresult]
    exact .refl
  · have hwritten := (r.adoptRoutes admitted).persistRecord_appends
      (hother .routeGeneration (by decide)) (Codec.encodeRoutes admitted)
    rw [hresult]
    exact hwritten

theorem compareGroup_appends (r : ObservatoryRuntime) (group : PathGroupId) :
    Appends allowed r.store (r.compareGroup group).2.store :=
  compareGroup_preserves (P := fun s => Appends allowed r.store s.store) .refl
    fun key _ => compareBucket_appends hother r key true

theorem comparePath_appends (r : ObservatoryRuntime) (path : PathId) :
    Appends allowed r.store (r.comparePath path).2.store :=
  comparePath_preserves (P := fun s => Appends allowed r.store s.store) .refl
    fun key _ => compareBucket_appends hother r key true

omit hother in
theorem acknowledgeFinding_appends (r : ObservatoryRuntime) (id : FindingId) :
    Appends allowed r.store (r.acknowledgeFinding id).2.store := by
  unfold acknowledgeFinding
  split <;> exact .refl

theorem flush_appends (r : ObservatoryRuntime) : Appends allowed r.store r.flush.2.store := by
  rcases r.flush_cases with ⟨-,hresult⟩ | ⟨-,hresult⟩
  · rw [hresult]
    exact .refl
  · rw [hresult]
    exact persistFindings_appends hother r _

/-- A request other than a stop appends records, and evidence only where it is
offered. -/
theorem perform_appends (r : ObservatoryRuntime) {call : Call} (hstop : call ≠ .stop)
    (hevidence : ∀ e, call = .ingestEvidence e → allowed .evidence) :
    Appends allowed r.store (r.perform call).store := by
  cases call with
  | registerSource descriptor => exact registerSource_appends hother r descriptor
  | publishTopology g => exact publishTopology_appends hother r g
  | publishRoutes g => exact publishRoutes_appends hother r g
  | ingestEvidence e => exact ingestEvidence_appends (hevidence e rfl) r e
  | compareGroup group => exact compareGroup_appends hother r group
  | comparePath path => exact comparePath_appends hother r path
  | compareAll => exact compareKeys_appends hother r _
  | acknowledgeFinding id => exact acknowledgeFinding_appends r id
  | pruneHistory =>
    obtain ⟨history,hframe⟩ := r.pruneHistory_frame
    rw [perform, hframe]
    exact .refl
  | flush => exact flush_appends hother r
  | stop => exact absurd rfl hstop

end Appends

theorem stop_logs (r : ObservatoryRuntime) : Logs r.store r.stop.2.store := by
  rcases r.stop_cases with ⟨state,hstop⟩ | ⟨store,state,hstore,hstop⟩
  · rw [hstop]
    exact .refl
  · rw [hstop, hstore]
    exact .clean r.now .refl

/-- A request that offers no evidence writes none. -/
theorem perform_logs (r : ObservatoryRuntime) {call : Call}
    (h : ∀ e, call ≠ .ingestEvidence e) : Logs r.store (r.perform call).store := by
  by_cases hstop : call = .stop
  · subst hstop
    exact r.stop_logs
  · exact (perform_appends (fun _ => id) r hstop (fun e heq => absurd heq (h e))).logs

/-- The store is open, healthy, and keeps these records. -/
def Stored (limits : Limits) (store : Option PersistentStore) (records : List StoredRecord) :
    Prop := ∃ kept, store = some kept ∧ kept.Retains limits records

theorem Stored.logs {limits : Limits} {store after : Option PersistentStore}
    {records : List StoredRecord} (h : Stored limits store records)
    (hlimits : limits.maxStoreRecordBytes < 2 ^ 32) (hlogs : Logs store after) :
    ∃ more, (∀ record ∈ more, record.type ≠ .evidence) ∧
      Stored limits after (records ++ more) := by
  induction hlogs with
  | refl => exact ⟨[],nofun,by rwa [List.append_nil]⟩
  | @append written type payload _ htype ih =>
    obtain ⟨more,hmore,kept,hwritten,hretains⟩ := ih
    obtain rfl := Option.some.inj hwritten
    rcases hretains.append_cases hlimits type payload with ⟨e,herror⟩ | ⟨-,happended⟩
    · rw [herror]
      exact ⟨more,hmore,written,rfl,hretains⟩
    · refine ⟨more ++ [{ type := type, sequence := written.nextSequence, payload := payload }],
        ?_,_,rfl,by rwa [← List.append_assoc]⟩
      intro record hrecord
      rcases List.mem_append.mp hrecord with hold | hnew
      · exact hmore record hold
      · rw [List.mem_singleton.mp hnew]
        exact htype
  | clean now _ ih =>
    obtain ⟨more,hmore,kept,hwritten,hretains⟩ := ih
    obtain rfl := Option.some.inj hwritten
    exact ⟨more,hmore,_,rfl,hretains.markClean now⟩

end ObservatoryRuntime

end PathObservatory
