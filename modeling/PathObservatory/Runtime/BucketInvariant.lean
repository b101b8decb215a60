import PathObservatory.Domain.Lookup
import PathObservatory.Foundation.ReadBack
import PathObservatory.Runtime.Buckets
import PathObservatory.Runtime.CurrentPlan

/-! # The buckets over whole runs

An offer and a restore check a record in code of their own. What both file is one
admissible record with the identity of its content, in a bucket that has room for it,
under a key with a generation. So no comparison of a bucket fails before it is
recorded.
-/
namespace PathObservatory

/-- The record is admissible and has the identity of its content. -/
structure ObservedPathEvidence.Genuine (limits : Limits) (e : ObservedPathEvidence) : Prop where
  valid : e.validate limits = .ok ()
  identified : e.id = e.computeEvidenceId

theorem ObservedPathEvidence.genuine_seal {limits : Limits} {e : ObservedPathEvidence}
    (h : e.validate limits = .ok ()) : e.seal_.Genuine limits :=
  ⟨validate_seal h,rfl⟩

namespace Codec
variable {limits : Limits} {e : ObservedPathEvidence}

/-- The identity that was stated is the one that sealing gives. -/
theorem genuine_of_sealedEvidence {stated : EvidenceId} {value : ObservedPathEvidence}
    (h : sealedEvidence limits stated value = .ok e) : e.Genuine limits := by
  unfold sealedEvidence at h
  simp only [bind_eq_ok, ↓require_bind_eq_ok, pure_eq_ok, decide_eq_true_eq] at h
  obtain ⟨_,hvalid,rfl,rfl⟩ := h
  exact ObservedPathEvidence.genuine_seal hvalid

theorem returns_decodeEvidence : ByteReader.Returns (decodeEvidence limits) (·.Genuine limits) := by
  unfold decodeEvidence
  -- the fields are read one after the other, the identity is compared at the end
  iterate 24 refine ByteReader.Returns.bind fun _ => ?_
  exact ByteReader.Returns.lift fun _ => genuine_of_sealedEvidence

end Codec

theorem genuine_of_decodeStored {limits : Limits} {record : StoredRecord} {e : ObservedPathEvidence}
    (h : ObservatoryRuntime.decodeStored (Codec.decodeEvidence limits) record = .ok e) :
    e.Genuine limits := by
  have hexact := decodeExact_of_decodeStored h
  unfold Codec.decodeExact at hexact
  simp only [bind_eq_ok, pure_eq_ok] at hexact
  obtain ⟨⟨value,rest⟩,hrun,_,-,rfl⟩ := hexact
  exact Codec.returns_decodeEvidence _ _ _ hrun

namespace ObservatoryRuntime
variable {r s t : ObservatoryRuntime}

/-- What filing one record can do to the buckets: nothing, open the bucket of a subject,
or put a record at the end of it. -/
inductive Files (r s : ObservatoryRuntime) : Prop
  | nothing (hsame : s.evidence = r.evidence)
  | opened {key : SubjectKey} {e : ObservedPathEvidence} (hsubject : r.resolveSubject e = .ok key)
      (hopened : s.evidence = r.evidence.insert key (r.bucket key))
  | put {key : SubjectKey} {e : ObservedPathEvidence} (hgenuine : e.Genuine r.config.limits)
      (hplaces : r.Places key e) (hput : s.evidence = r.evidence.insert key (r.bucket key ++ [e]))

/-- Filing looks at the configuration, the plan and the buckets. -/
theorem Files.of_frame (hconfig : t.config = r.config) (hroutes : t.routes = r.routes)
    (hevidence : t.evidence = r.evidence) (h : t.Files s) : r.Files s := by
  have hsubject : t.resolveSubject = r.resolveSubject := by
    funext e
    simp only [resolveSubject, subjectGeneration, hroutes]
  have hbucket : t.bucket = r.bucket := bucket_congr hevidence
  cases h with
  | nothing hsame => exact .nothing (hsame.trans hevidence)
  | opened hkey hopened =>
    rw [hsubject] at hkey
    rw [hevidence, hbucket] at hopened
    exact .opened hkey hopened
  | put hgenuine hplaces hput =>
    obtain ⟨hkey,htakes⟩ := hplaces
    rw [hsubject] at hkey
    rw [Takes, hconfig, hbucket] at htakes
    rw [hevidence, hbucket] at hput
    exact .put (hconfig ▸ hgenuine) ⟨hkey,htakes⟩ hput

theorem keepEvidence_files {e : ObservedPathEvidence} (hgenuine : e.Genuine r.config.limits)
    (result : IngestResult) : r.Files (r.keepEvidence result e).2 := by
  rcases r.keepEvidence_cases result e with ⟨error,-,hkept⟩ | ⟨key,hkey,hkept⟩
  · rw [hkept]
    exact .nothing rfl
  · obtain ⟨store,hframe⟩ := (r.setBucket key (r.bucket key)).persistRecord_frame .evidence
      (Codec.encodeEvidence e)
    rcases hkept with ⟨-,hkept⟩ | ⟨-,-,hkept⟩ | ⟨-,-,error,s,hpersist,hkept⟩ |
      ⟨hroom,hnew,s,hpersist,hkept⟩
    · rw [hkept]
      exact .opened hkey rfl
    · rw [hkept]
      exact .opened hkey rfl
    · rw [hpersist] at hframe
      obtain rfl : s = { r.setBucket key (r.bucket key) with store := store } := hframe
      rw [hkept]
      exact .opened hkey rfl
    · rw [hpersist] at hframe
      obtain rfl : s = { r.setBucket key (r.bucket key) with store := store } := hframe
      rw [hkept]
      exact .put hgenuine ⟨hkey,takes_iff.mpr ⟨hroom,hnew⟩⟩ (OrderedMap.insert_insert _ _ _ _)

theorem ingestEvidence_files (r : ObservatoryRuntime) (e : ObservedPathEvidence) :
    r.Files (r.ingestEvidence e).2 := by
  rcases r.ingestEvidence_cases e with ⟨refused,-,hresult⟩ | ⟨-,-,-,hresult⟩ |
    ⟨hscreened,-,-,result,-,-,hresult⟩
  · rw [hresult]
    exact .nothing rfl
  · rw [hresult]
    exact .nothing rfl
  · obtain ⟨gaps,hframe⟩ := r.noteSequence_frame e
    have hgenuine : e.seal_.Genuine (r.noteSequence e).config.limits := by
      rw [hframe]
      exact ObservedPathEvidence.genuine_seal (validate_of_screened hscreened)
    rw [hresult]
    refine (keepEvidence_files hgenuine result).of_frame ?_ ?_ ?_ <;> rw [hframe]

theorem perform_files (r : ObservatoryRuntime) (call : Call) : r.Files (r.perform call) := by
  by_cases hcall : ∃ e, call = .ingestEvidence e
  · obtain ⟨e,rfl⟩ := hcall
    exact r.ingestEvidence_files e
  · exact .nothing (r.perform_sameObserved fun e heq => hcall ⟨e,heq⟩).evidence

theorem restoreEvidence_files {e : ObservedPathEvidence} (hgenuine : e.Genuine r.config.limits) :
    r.Files (r.restoreEvidence e) := by
  unfold restoreEvidence
  cases hkey : r.resolveSubject e with
  | error error => exact .nothing rfl
  | ok key =>
    simp only
    split_ifs with hrefused
    · exact .opened hkey rfl
    · rw [not_or, not_le, Bool.not_eq_true] at hrefused
      exact .put hgenuine ⟨hkey,takes_iff.mpr hrefused⟩ rfl

theorem restoreRecord_files {record : StoredRecord} (h : r.restoreRecord record = .ok s) :
    r.Files s := by
  rcases restoreRecord_evidence h with ⟨-,hsame⟩ | ⟨-,e,he,rfl⟩
  · exact .nothing hsame
  · exact restoreEvidence_files (genuine_of_decodeStored he)

theorem restoreRecord_same {record : StoredRecord} (h : r.restoreRecord record = .ok s) :
    s.config = r.config ∧ s.routes = r.routes := by
  obtain ⟨_,_,_,_,rfl⟩ := restoreRecord_frame h
  exact ⟨rfl,rfl⟩

/-- The plan in force has an identity. -/
def PlanIdentified (r : ObservatoryRuntime) : Prop :=
  ∀ routes, r.routes = some routes → routes.id.valid = true

theorem PlanIdentified.congr (h : r.PlanIdentified) (hroutes : s.routes = r.routes) :
    s.PlanIdentified :=
  fun routes hs => h routes (hroutes ▸ hs)

theorem PlanIdentified.perform (h : r.PlanIdentified) (call : Call) :
    (r.perform call).PlanIdentified := by
  rcases r.perform_routes call with ⟨hsame,-⟩ | ⟨g,admitted,-,⟨hadmitted,-⟩,hroutes⟩
  · exact h.congr hsame
  · intro routes hs
    obtain rfl := Option.some.inj (hroutes.symm.trans hs)
    exact RouteGeneration.Finalised.id_valid ⟨g,_,admitRoutes_finalize hadmitted⟩

theorem PlanIdentified.start (h : r.PlanIdentified) (content : Option ByteString) :
    (r.start content).2.1.PlanIdentified := by
  rcases r.start_cases content with ⟨e,s,after,hstart,-,hsame⟩ | ⟨s,after,hstart,-,-,hnone⟩
  · rw [hstart]
    exact h.congr hsame.routes
  · rw [hstart]
    intro routes hs
    rw [hnone] at hs
    cases hs

theorem Reachable.planIdentified (h : Reachable r) : r.PlanIdentified := by
  induction h with
  | create hcreate =>
    obtain ⟨-,rfl⟩ := create_eq_ok.mp hcreate
    exact nofun
  | start _ content ih => exact ih.start content
  | call _ call ih => exact ih.perform call

/-- A runtime keeps the configuration that was checked when it was created. -/
theorem Reachable.creatable (h : Reachable r) : Creatable r.config := by
  induction h with
  | create hcreate =>
    obtain ⟨hchecked,rfl⟩ := create_eq_ok.mp hcreate
    exact hchecked
  | start _ content ih =>
    rename_i r _
    rcases r.start_cases content with ⟨e,s,after,hstart,hconfig,-⟩ | ⟨s,after,hstart,hconfig,-⟩
    · rw [hstart]
      exact hconfig ▸ ih
    · rw [hstart]
      exact hconfig ▸ ih
  | call _ call ih => exact (perform_config _ call).symm ▸ ih

/-- The key of a record names a generation, its own or the one in force. -/
theorem generation_valid_of_subject (h : r.PlanIdentified) {e : ObservedPathEvidence}
    {key : SubjectKey} (hkey : r.resolveSubject e = .ok key) : key.generation.valid = true := by
  have hgeneration : r.subjectGeneration e = .ok key.generation := by
    unfold resolveSubject at hkey
    obtain ⟨generation,hgeneration,hkey⟩ := bind_eq_ok.mp hkey
    rw [hgeneration]
    split_ifs at hkey
    · rw [← Except.ok.inj hkey]
    · split at hkey
      · split_ifs at hkey
        · rw [← Except.ok.inj hkey]
        · rw [← Except.ok.inj hkey]
      · rw [← Except.ok.inj hkey]
  unfold subjectGeneration at hgeneration
  split_ifs at hgeneration with hpresent
  · rw [← Except.ok.inj hgeneration]
    exact hpresent
  · split at hgeneration
    · rename_i routes hroutes
      rw [← Except.ok.inj hgeneration]
      exact h routes hroutes
    · cases hgeneration

section Runs
variable {P : ObservatoryRuntime → Prop}
  (hfiles : ∀ r s, P r → r.PlanIdentified → s.config = r.config → r.Files s → P s)
include hfiles

theorem restoreRecords_of_files (hr : P r) (hplan : r.PlanIdentified) (records : List StoredRecord) :
    P (r.restoreRecords records).2 := by
  induction records generalizing r with
  | nil => exact hr
  | cons record rest ih =>
    rw [restoreRecords]
    cases hrecord : r.restoreRecord record with
    | error e => exact hr
    | ok s =>
      obtain ⟨hconfig,hroutes⟩ := restoreRecord_same hrecord
      exact ih (hfiles r s hr hplan hconfig (restoreRecord_files hrecord)) (hplan.congr hroutes)

theorem start_of_files (hr : P r) (hplan : r.PlanIdentified) (content : Option ByteString) :
    P (r.start content).2.1 := by
  -- what a start does beside restoring records leaves the buckets alone
  have hsame : ∀ {s t : ObservatoryRuntime}, P s → s.PlanIdentified → t.config = s.config →
      t.evidence = s.evidence → P t :=
    fun hs hplan hconfig hevidence => hfiles _ _ hs hplan hconfig (.nothing hevidence)
  have hrecover : P (r.recover content).2.1 ∧ (r.recover content).2.1.PlanIdentified := by
    refine ⟨?_,?_⟩
    · unfold recover
      split
      · exact hsame hr hplan rfl rfl
      · rename_i store _ _
        have hopened : P (r.opened store) := hsame hr hplan rfl rfl
        split_ifs
        · unfold restoreFromStore
          simp only [opened]
          split
          · exact hopened
          · exact restoreRecords_of_files hfiles hopened hplan _
        · exact hopened
    · obtain ⟨_,_,_,_,_,_,hframe⟩ := r.recover_frame content
      rw [hframe]
      exact hplan
  unfold start
  split_ifs
  · exact hr
  · exact hr
  · exact hr
  · split
    · rename_i hresult
      rw [hresult] at hrecover
      exact hsame hrecover.1 hrecover.2 rfl rfl
    · rename_i hresult
      rw [hresult] at hrecover
      exact hsame hrecover.1 hrecover.2 rfl rfl
  · exact hsame hr hplan rfl rfl

/-- What holds of empty buckets and survives the filing of a record holds in every run,
with restores in it or not. -/
theorem Reachable.of_files (hempty : ∀ r, r.evidence = ∅ → P r) (h : Reachable r) : P r := by
  induction h with
  | create hcreate =>
    obtain ⟨-,rfl⟩ := create_eq_ok.mp hcreate
    exact hempty _ rfl
  | start hreach content ih => exact start_of_files hfiles ih hreach.planIdentified content
  | call hreach call ih =>
    exact hfiles _ _ ih hreach.planIdentified (perform_config _ call) (perform_files _ call)

end Runs

/-- Every bucket is within the bound and holds distinct genuine records under a key with
a generation. -/
structure SoundBuckets (r : ObservatoryRuntime) : Prop where
  bounded : ∀ key, (r.bucket key).length ≤ r.config.limits.maxEvidencePerComparison
  distinct : r.DistinctEvidence
  genuine : ∀ key, ∀ e ∈ r.bucket key, e.Genuine r.config.limits
  keyed : ∀ key ∈ r.evidence, key.generation.valid = true

theorem SoundBuckets.congr (h : r.SoundBuckets) (hconfig : s.config = r.config)
    (hbucket : s.bucket = r.bucket) (hkeyed : ∀ key ∈ s.evidence, key.generation.valid = true) :
    s.SoundBuckets := by
  refine ⟨fun key => ?_,fun key => ?_,fun key => ?_,hkeyed⟩
  · rw [hconfig, hbucket]
    exact h.bounded key
  · rw [hbucket]
    exact h.distinct key
  · rw [hconfig, hbucket]
    exact h.genuine key

theorem keyed_insert (h : ∀ key ∈ r.evidence, key.generation.valid = true) {key : SubjectKey}
    (hkey : key.generation.valid = true) {records : List ObservedPathEvidence}
    (hevidence : s.evidence = r.evidence.insert key records) :
    ∀ key ∈ s.evidence, key.generation.valid = true := by
  intro other hother
  rw [hevidence, OrderedMap.mem_iff_getElem?] at hother
  obtain ⟨_,hfound⟩ := hother
  rw [OrderedMap.getElem?_insert] at hfound
  split_ifs at hfound with heq
  · exact heq ▸ hkey
  · exact h other (OrderedMap.mem_iff_getElem?.mpr ⟨_,hfound⟩)

theorem bucket_of_insert {key : SubjectKey} {e : ObservedPathEvidence}
    (h : s.evidence = r.evidence.insert key (r.bucket key ++ [e])) :
    s.bucket = Filing.put r.bucket key e :=
  (bucket_congr (r := r.setBucket key (r.bucket key ++ [e])) h).trans (r.bucket_setBucket_put key e)

theorem SoundBuckets.files (h : r.SoundBuckets) (hplan : r.PlanIdentified)
    (hconfig : s.config = r.config) (hfiles : r.Files s) : s.SoundBuckets := by
  cases hfiles with
  | nothing hsame => exact h.congr hconfig (bucket_congr hsame) (hsame.symm ▸ h.keyed)
  | @opened key e hkey hopened =>
    have hbucket : s.bucket = r.bucket :=
      (bucket_congr (r := r.setBucket key (r.bucket key)) hopened).trans (r.bucket_setBucket_self key)
    exact h.congr hconfig hbucket
      (keyed_insert h.keyed (generation_valid_of_subject hplan hkey) hopened)
  | @put key e hgenuine hplaces hput =>
    have hbucket := bucket_of_insert hput
    refine ⟨fun other => ?_,fun other => ?_,fun other f hf => ?_,
      keyed_insert h.keyed (generation_valid_of_subject hplan hplaces.subject) hput⟩
    · rw [hconfig, hbucket, Filing.put]
      split_ifs with heq
      · rw [← heq, List.length_append]
        exact hplaces.takes.1
      · exact h.bounded other
    · rw [hbucket]
      exact h.distinct.put hplaces.takes other
    · rw [hbucket] at hf
      rw [hconfig]
      rcases Filing.mem_put hf with hold | ⟨rfl,-⟩
      · exact h.genuine other f hold
      · exact hgenuine

theorem Reachable.soundBuckets (h : Reachable r) : r.SoundBuckets := by
  refine h.of_files (fun r s hr hplan hconfig hfiles => hr.files hplan hconfig hfiles) ?_
  intro r hempty
  have hbucket : ∀ key, r.bucket key = [] := by
    intro key
    rw [bucket, hempty]
    rfl
  refine ⟨fun key => ?_,fun key => ?_,fun key e he => ?_,fun key hkey => ?_⟩
  · rw [hbucket]
    exact Nat.zero_le _
  · rw [hbucket]
    exact List.nodup_nil
  · rw [hbucket] at he
    cases he
  · rw [hempty] at hkey
    exact absurd hkey Std.ExtTreeMap.not_mem_empty

/-! ### Comparing what the buckets hold -/

theorem SameSubject.soundBuckets (hsame : SameSubject r s) (h : r.SoundBuckets) :
    s.SoundBuckets := by
  obtain ⟨_,_,_,_,_,rfl⟩ := hsame
  exact h.congr rfl (bucket_congr rfl) h.keyed

/-- Nothing that the engine refuses is asked of it. -/
theorem SoundBuckets.compare_ok (h : r.SoundBuckets) (hconfig : Creatable r.config)
    {key : SubjectKey} (hkey : key ∈ r.evidence) :
    ∃ result, r.engine.compare (r.requestFor key) r.makeContext = .ok result := by
  refine ⟨_,bind_eq_ok.mpr ⟨(),?_,rfl⟩⟩
  refine bind_eq_ok.mpr ⟨(),hconfig.2.1,?_⟩
  refine require_bind_eq_ok.mpr ⟨h.keyed key hkey,require_eq_ok.mpr ?_⟩
  exact decide_eq_true (h.bounded key)

/-- The engine says this about the bucket, at some moment of the same runtime. -/
def Evaluates (r : ObservatoryRuntime) (key : SubjectKey) (result : ComparisonResult) : Prop :=
  ∃ s, SameSubject r s ∧ s.engine.compare (s.requestFor key) s.makeContext = .ok result

/-- Recording what the engine said about the bucket fails. -/
def FailsToRecord (r : ObservatoryRuntime) (key : SubjectKey) (e : Error) : Prop :=
  ∃ s result, SameSubject r s ∧
    s.engine.compare (s.requestFor key) s.makeContext = .ok result ∧
    (s.tick.recordComparison result).1 = .error e

theorem Evaluates.of_same {key : SubjectKey} {result : ComparisonResult} (hsame : SameSubject r s)
    (h : s.Evaluates key result) : r.Evaluates key result := by
  obtain ⟨t,ht,hcompare⟩ := h
  exact ⟨t,hsame.trans ht,hcompare⟩

theorem FailsToRecord.of_same {key : SubjectKey} {e : Error} (hsame : SameSubject r s)
    (h : s.FailsToRecord key e) : r.FailsToRecord key e := by
  obtain ⟨t,result,ht,hcompare,hrecord⟩ := h
  exact ⟨t,result,hsame.trans ht,hcompare,hrecord⟩

/-- A bucket is evaluated and recorded, or recording it fails. -/
theorem SoundBuckets.compareBucket (h : r.SoundBuckets) (hconfig : Creatable r.config)
    {key : SubjectKey} (hkey : key ∈ r.evidence) :
    (∃ result, (r.compareBucket key true).1 = .ok result ∧ r.Evaluates key result) ∨
      ∃ e, (r.compareBucket key true).1 = .error e ∧ r.FailsToRecord key e := by
  obtain ⟨result,hcompare⟩ := h.compare_ok hconfig hkey
  rw [compareBucket_of_compare hcompare, if_pos rfl]
  cases hrecord : (r.tick.recordComparison result).1 with
  | error e => exact Or.inr ⟨e,rfl,r,result,.refl r,hcompare,hrecord⟩
  | ok other =>
    rw [recordComparison_eq_ok hrecord]
    exact Or.inl ⟨result,rfl,r,.refl r,hcompare⟩

theorem SoundBuckets.compareKeys (h : r.SoundBuckets) (hconfig : Creatable r.config)
    {keys : List SubjectKey} (hkeys : ∀ key ∈ keys, key ∈ r.evidence) :
    (∃ results, (r.compareKeys keys).1 = .ok results ∧ List.Forall₂ r.Evaluates keys results) ∨
      ∃ e, (r.compareKeys keys).1 = .error e ∧ ∃ key ∈ keys, r.FailsToRecord key e := by
  induction keys generalizing r with
  | nil => exact Or.inl ⟨[],rfl,.nil⟩
  | cons key rest ih =>
    obtain ⟨hkey,hrest⟩ := List.forall_mem_cons.mp hkeys
    have hsame := r.compareBucket_sameSubject key true
    have hone := h.compareBucket hconfig hkey
    rcases r.compareKeys_cons_cases key rest with
      ⟨e,s,hfirst,hanswer⟩ | ⟨result,s,hfirst,hanswer⟩
    · rw [hfirst] at hone
      rw [hanswer]
      rcases hone with ⟨result,hok,-⟩ | ⟨other,herror,hfails⟩
      · cases hok
      · obtain rfl : e = other := Except.error.inj herror
        exact Or.inr ⟨e,rfl,key,List.mem_cons_self,hfails⟩
    · rw [hfirst] at hone hsame
      rw [hanswer]
      have hevaluates : r.Evaluates key result := by
        rcases hone with ⟨other,hok,hevaluates⟩ | ⟨e,herror,-⟩
        · rwa [Except.ok.inj hok]
        · cases herror
      have hs : s.config = r.config ∧ s.evidence = r.evidence := by
        obtain ⟨_,_,_,_,_,rfl⟩ := hsame
        exact ⟨rfl,rfl⟩
      rcases ih (hsame.soundBuckets h) (hs.1.symm ▸ hconfig) (hs.2.symm ▸ hrest) with
        ⟨results,hok,hall⟩ | ⟨e,herror,other,hother,hfails⟩
      · rw [hok]
        exact Or.inl ⟨result :: results,rfl,
          .cons hevaluates (hall.imp fun _ _ => Evaluates.of_same hsame)⟩
      · rw [herror]
        exact Or.inr ⟨e,rfl,other,List.mem_cons_of_mem key hother,hfails.of_same hsame⟩

/-- In every run the buckets are sound, so that the engine never refuses to compare one,
and a comparison of all of them evaluates each unless recording fails. -/
theorem buckets_sound_and_compared (h : Reachable r) :
    r.SoundBuckets ∧
      (∀ key ∈ r.evidence, ∃ result,
        r.engine.compare (r.requestFor key) r.makeContext = .ok result) ∧
      ((∃ results, r.compareAll.1 = .ok results ∧
          List.Forall₂ r.Evaluates r.evidence.keys results) ∨
        ∃ e, r.compareAll.1 = .error e ∧ ∃ key ∈ r.evidence, r.FailsToRecord key e) := by
  have hsound := h.soundBuckets
  have hkeys : ∀ key ∈ r.evidence.keys, key ∈ r.evidence :=
    fun key hkey => Std.ExtTreeMap.mem_keys.mp hkey
  refine ⟨hsound,fun key hkey => hsound.compare_ok h.creatable hkey,?_⟩
  refine (hsound.compareKeys h.creatable hkeys).imp id ?_
  rintro ⟨e,herror,key,hkey,hfails⟩
  exact ⟨e,herror,key,hkeys key hkey,hfails⟩

/-- The one bucket of the run is sound, and it is evaluated. -/
theorem planned_bucket_compared : planned.SoundBuckets ∧
    ∃ results, planned.compareAll.1 = .ok results ∧
      List.Forall₂ planned.Evaluates [⟨⟨1⟩,⟨⟨1⟩⟩⟩] results := by
  obtain ⟨hsound,-,hcompared⟩ := buckets_sound_and_compared planned_reachable
  rw [planned_plan.2] at hcompared
  refine ⟨hsound,hcompared.resolve_right ?_⟩
  rintro ⟨e,herror,-⟩
  have hanswered : planned.compareAll.1.toOption.isSome = true := by decide +kernel
  rw [herror] at hanswered
  cases hanswered

end ObservatoryRuntime

end PathObservatory
