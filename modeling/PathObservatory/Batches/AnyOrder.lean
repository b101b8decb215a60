import PathObservatory.Batches.ExactlyOnce
import PathObservatory.Runtime.CleanStop
import PathObservatory.Runtime.SourceOrder

/-! # The order of the batches does not matter

Without a store, and with batches that share no source, what is known at the end does not
depend on how the workers interleave: the evidence, the ledger and the marks are those of
offering the batches one after the other, in any order.
-/
namespace PathObservatory
open Interleaving
open ObservatoryRuntime (Call)

namespace ObservatoryRuntime
variable {r s t : ObservatoryRuntime} {e : ObservedPathEvidence}

/-- The same runtime with other books. -/
def withBooks (r : ObservatoryRuntime) (readings : ℕ) (history : HistoryStore)
    (findings : FindingRegistry) (state : RuntimeState) : ObservatoryRuntime :=
  { r with readings := readings, history := history, findings := findings, state := state }

theorem keepEvidence_withBooks (hstore : r.store = none) (readings : ℕ) (history : HistoryStore)
    (findings : FindingRegistry) (state : RuntimeState) (result : IngestResult) :
    (r.withBooks readings history findings state).keepEvidence result e =
      ((r.keepEvidence result e).1,
        (r.keepEvidence result e).2.withBooks readings history findings state) := by
  have hkey : (r.withBooks readings history findings state).resolveSubject e = r.resolveSubject e :=
    rfl
  have hbucket : (r.withBooks readings history findings state).bucket = r.bucket := rfl
  unfold keepEvidence
  rw [hkey]
  cases r.resolveSubject e with
  | error error => rfl
  | ok key =>
    have hplain := persistRecord_of_no_store (r := r.setBucket key (r.bucket key)) hstore .evidence
      (Codec.encodeEvidence e)
    have hother := persistRecord_of_no_store
      (r := (r.withBooks readings history findings state).setBucket key (r.bucket key)) hstore
      .evidence (Codec.encodeEvidence e)
    simp only [hbucket, hplain, hother]
    by_cases hfull : (r.setBucket key (r.bucket key)).config.limits.maxEvidencePerComparison ≤
        (r.bucket key).length
    · have hfull' : ((r.withBooks readings history findings state).setBucket key
          (r.bucket key)).config.limits.maxEvidencePerComparison ≤ (r.bucket key).length := hfull
      rw [if_pos hfull, if_pos hfull']
      rfl
    · have hfull' : ¬ ((r.withBooks readings history findings state).setBucket key
          (r.bucket key)).config.limits.maxEvidencePerComparison ≤ (r.bucket key).length := hfull
      rw [if_neg hfull, if_neg hfull']
      split_ifs <;> rfl

theorem ingestEvidence_withBooks (hstore : r.store = none) (readings : ℕ) (history : HistoryStore)
    (findings : FindingRegistry) (state : RuntimeState) :
    (r.withBooks readings history findings state).ingestEvidence e =
      ((r.ingestEvidence e).1,
        (r.ingestEvidence e).2.withBooks readings history findings state) := by
  have hscreen : (r.withBooks readings history findings state).screenEvidence e =
    r.screenEvidence e := rfl
  have hobserve : (r.withBooks readings history findings state).ledger = r.ledger := rfl
  unfold ingestEvidence
  rw [hscreen, hobserve]
  cases r.screenEvidence e with
  | error refused => rfl
  | ok _ =>
    dsimp only
    split_ifs with hreplay
    · rfl
    · have hmark : ∀ (ledger : SourceSequenceLedger) (verdict : SourceSequenceLedger.Verdict),
          ({ r.withBooks readings history findings state with ledger := ledger }).markGap e.source
            verdict = (({ r with ledger := ledger }).markGap e.source verdict).withBooks readings
              history findings state := by
        intro ledger verdict
        cases verdict <;> rfl
      have hnone : ∀ (ledger : SourceSequenceLedger) (verdict : SourceSequenceLedger.Verdict),
          (({ r with ledger := ledger }).markGap e.source verdict).store = none := by
        intro ledger verdict
        cases verdict <;> exact hstore
      rw [hmark]
      exact keepEvidence_withBooks (hnone _ _) readings history findings state _

/-- The runtimes differ in their books at most, and neither has a store. -/
structure Beside (r s : ObservatoryRuntime) : Prop where
  store : r.store = none
  books : ∃ readings history findings state, s = r.withBooks readings history findings state

theorem Beside.refl (hstore : r.store = none) : r.Beside r := ⟨hstore,_,_,_,_,rfl⟩

theorem Beside.right (h : r.Beside s) : s.store = none := by
  obtain ⟨_,_,_,_,rfl⟩ := h.books
  exact h.store

theorem Beside.trans (h : r.Beside s) (k : s.Beside t) : r.Beside t := by
  obtain ⟨_,_,_,_,rfl⟩ := h.books
  obtain ⟨readings,history,findings,state,rfl⟩ := k.books
  exact ⟨h.store,readings,history,findings,state,rfl⟩

/-- A runtime without a store never has one. -/
theorem perform_without_store (hstore : r.store = none) (call : Call) :
    (r.perform call).store = none := by
  by_cases hstop : call = .stop
  · subst hstop
    rcases r.stop_cases with ⟨state,hresult⟩ | ⟨store,state,hsome,-⟩
    · rw [perform, hresult]
      exact hstore
    · rw [hstore] at hsome
      cases hsome
  · have happends : Appends (fun _ => True) r.store (r.perform call).store :=
      perform_appends (fun _ _ => trivial) r hstop fun _ _ => trivial
    rcases happends.extends with ⟨-,hnone⟩ | ⟨store,-,hsome,-⟩
    · exact hnone
    · rw [hstore] at hsome
      cases hsome

theorem Beside.ingestEvidence (h : r.Beside s) (e : ObservedPathEvidence) :
    (r.ingestEvidence e).2.Beside (s.ingestEvidence e).2 := by
  obtain ⟨readings,history,findings,state,rfl⟩ := h.books
  rw [ingestEvidence_withBooks h.store]
  exact ⟨perform_without_store h.store (.ingestEvidence e),readings,history,findings,state,rfl⟩

/-- A request that neither observes nor publishes only keeps books. -/
def KeepsBooks : Call → Prop
  | .registerSource _ | .publishTopology _ | .publishRoutes _ | .ingestEvidence _ => False
  | .compareGroup _ | .comparePath _ | .compareAll | .acknowledgeFinding _ | .pruneHistory | .flush
  | .stop => True

theorem beside_of_keepsBooks {call : Call} (h : KeepsBooks call) (hstore : r.store = none) :
    r.Beside (r.perform call) := by
  have hsame : SameSubject r (r.perform call) := by
    cases call with
    | registerSource => cases h
    | publishTopology => cases h
    | publishRoutes => cases h
    | ingestEvidence => cases h
    | compareGroup group => exact r.compareGroup_sameSubject group
    | comparePath path => exact r.comparePath_sameSubject path
    | compareAll => exact r.compareKeys_sameSubject _
    | acknowledgeFinding id => exact r.acknowledgeFinding_sameSubject id
    | pruneHistory => exact r.pruneHistory_sameSubject
    | flush => exact r.flush_sameSubject
    | stop => exact r.stop_sameSubject
  have hnone := perform_without_store hstore call
  obtain ⟨readings,history,findings,store,state,hframe⟩ := hsame
  rw [hframe] at hnone ⊢
  obtain rfl : store = none := hnone
  refine ⟨hstore,readings,history,findings,state,?_⟩
  rw [withBooks, ← hstore]

/-- Every bucket has room for all the records. -/
def HasRoomForAll (r : ObservatoryRuntime) (count : ℕ) : Prop :=
  ∀ key, (r.bucket key).length + count ≤ r.config.limits.maxEvidencePerComparison

theorem neverFull_of_room {records : List ObservedPathEvidence} (hstore : r.store = none)
    (hroom : r.HasRoomForAll records.length) : r.NeverFull records := by
  induction records generalizing r with
  | nil => trivial
  | cons e rest ih =>
    have hfirst : r.HasRoom e := by
      intro key _
      have hkey := hroom key
      rw [List.length_cons] at hkey
      omega
    have hrest : (r.ingestEvidence e).2.HasRoomForAll rest.length := by
      intro key
      have hlength :
          ((r.ingestEvidence e).2.bucket key).length ≤ (r.bucket key).length + 1 := by
        rcases ingestEvidence_evidence hstore hfirst with ⟨filed,-,hevidence⟩ | ⟨-,hevidence⟩
        · rw [bucket_of_insert hevidence, Filing.put]
          split_ifs
          · rw [List.length_append, List.length_singleton]
          · exact Nat.le_succ _
        · rw [bucket_congr hevidence]
          exact Nat.le_succ _
      have hkey := hroom key
      have hconfig : (r.ingestEvidence e).2.config = r.config :=
        r.perform_config (.ingestEvidence e)
      rw [List.length_cons] at hkey
      rw [hconfig]
      omega
    exact ⟨hfirst,ih (perform_without_store hstore (.ingestEvidence e)) hrest⟩

end ObservatoryRuntime

/-- The record that a request offers. -/
def recordOf : Call → Option ObservedPathEvidence
  | .ingestEvidence e => some e
  | _ => none

/-- An offer with its origin, where the event is one. -/
def offerOf : Option ℕ × RuntimeEvent → Option (Option ℕ × ObservedPathEvidence)
  | (origin,.request call) => (recordOf call).map fun e => (origin,e)
  | (_,.stopping) => none

/-- The offers of evidence, with their origins, in the order of the log. -/
def offersIn (log : List (Option ℕ × RuntimeEvent)) : List (Option ℕ × ObservedPathEvidence) :=
  log.filterMap offerOf

/-- The records that were offered from outside the pool. -/
def outsideOffers (log : List (Option ℕ × RuntimeEvent)) : Batch :=
  ((offersIn log).filter (·.1 = none)).map Prod.snd

namespace BatchedRuntime
variable {r₀ r : ObservatoryRuntime} {s t : BatchedRuntime} {maxQueue : ℕ}
  {log : List (Option ℕ × RuntimeEvent)}

/-- The event neither registers nor publishes anything. -/
def Observing : RuntimeEvent → Prop
  | .request call => ObservatoryRuntime.KeepsBooks call ∨ ∃ e, call = .ingestEvidence e
  | .stopping => True

/-- Up to its books, the runtime is what the offers make of it. -/
theorem beside_of_log {s : ObservatoryRuntime} (h : r.Beside s)
    (hlog : ∀ x ∈ log, Observing x.2) :
    (r.ingestAll ((offersIn log).map Prod.snd)).Beside
      (log.foldl (fun r x => x.2.apply r) s) := by
  induction log generalizing r s with
  | nil => exact h
  | cons x rest ih =>
    obtain ⟨hx,hrest⟩ := List.forall_mem_cons.mp hlog
    obtain ⟨origin,event⟩ := x
    cases event with
    | stopping => exact ih (h.trans ⟨h.right,_,_,_,.stopping,rfl⟩) hrest
    | request call =>
      rcases hx with hbooks | ⟨e,rfl⟩
      · have hoffers : offersIn ((origin,.request call) :: rest) = offersIn rest := by
          cases call with
          | ingestEvidence => cases hbooks
          | _ => rfl
        rw [hoffers]
        exact ih (h.trans (ObservatoryRuntime.beside_of_keepsBooks hbooks h.right)) hrest
      · exact ih (h.ingestEvidence e) hrest

/-- The offers of one task are those among its requests. -/
theorem offersIn_task (source : ℕ) (log : List (Option ℕ × RuntimeEvent)) :
    ((offersIn log).filter (·.1 = some source)).map Prod.snd =
      (requestsOf source log).filterMap recordOf := by
  induction log with
  | nil => rfl
  | cons x rest ih =>
    obtain ⟨origin,event⟩ := x
    unfold offersIn requestsOf at ih ⊢
    cases event with
    | stopping => cases origin <;> exact ih
    | request call =>
      rw [List.filterMap_cons, List.filterMap_cons, offerOf]
      cases origin with
      | none => cases recordOf call <;> simpa [requestOf] using ih
      | some other =>
        by_cases hother : other = source
        · cases hrecord : recordOf call <;> simp [requestOf, hother, hrecord, ih]
        · cases recordOf call <;> simp [requestOf, hother, ih]

theorem records_script {limits : Limits} {batch : Batch}
    (h : batch.length ≤ limits.maxEvidencePerIngestBatch) :
    (script limits batch).filterMap recordOf = batch := by
  rw [script, if_neg (Nat.not_lt.mpr h), List.filterMap_append, List.filterMap_map]
  have hsome : (recordOf ∘ Call.ingestEvidence) = some := rfl
  rw [hsome, List.filterMap_some]
  exact List.append_nil _

/-- Requests from outside neither register nor publish anything. -/
def Observes (_ : BatchedRuntime) : Action → Prop
  | .request call => Observing (.request call)
  | _ => True

theorem observing_of_next {limits : Limits} {cancelled : Bool} {batch : Batch}
    {point after : BatchPoint} {call : Call}
    (h : point.next limits cancelled batch = some (some call,after)) :
    Observing (.request call) := by
  cases point with
  | entered =>
    simp only [BatchPoint.next] at h
    split_ifs at h <;> cases h
  | ingesting left =>
    cases left with
    | nil => cases h
    | cons e rest =>
      obtain ⟨hcall,-⟩ := Prod.mk.inj (Option.some.inj h)
      exact Or.inr ⟨e,(Option.some.inj hcall).symm⟩
  | ingested => cases h
  | comparing =>
    obtain ⟨hcall,-⟩ := Prod.mk.inj (Option.some.inj h)
    obtain rfl := Option.some.inj hcall
    exact Or.inl trivial
  | returned => cases h

theorem observing_of_run (h : Run step Observes (serving r₀) s) : ∀ x ∈ s.log, Observing x.2 := by
  refine Run.invariant (P := fun s => ∀ x ∈ s.log, Observing x.2) ?_
    (fun t a u hallowed hstep hold => ?_) h
  · exact fun x hx => absurd hx List.not_mem_nil
  have hconcat : ∀ {event : RuntimeEvent}, Observing event →
      ∀ x ∈ t.log ++ [(none,event)], Observing x.2 := by
    intro event hevent x hx
    rcases List.mem_append.mp hx with hx | hx
    · exact hold x hx
    · rw [List.mem_singleton.mp hx]
      exact hevent
  cases steps_of_step hstep with
  | request => exact hconcat hallowed
  | body _ hnext =>
    rw [moved_log]
    intro x hx
    rcases List.mem_append.mp hx with hx | hx
    · exact hold x hx
    · obtain ⟨call,hcall,rfl⟩ := List.mem_map.mp hx
      rw [Option.mem_toList.mp hcall] at hnext
      exact observing_of_next hnext
  | beginStop => exact hconcat (show Observing .stopping from trivial)
  | endStop => exact hconcat (show Observing (.request .stop) from Or.inl trivial)
  | refuse => exact hold
  | offer => exact hold
  | submit => exact hold
  | work => exact hold
  | shutdown => exact hold
  | join => exact hold
  | leave => exact hold
  | reads => exact hold

/-- The same is known: the same ledger and marks, and the same records in every bucket. -/
structure KnowsSame (r s : ObservatoryRuntime) : Prop where
  ledger : s.ledger = r.ledger
  sourceHasGap : s.sourceHasGap = r.sourceHasGap
  evidence : ∀ key : SubjectKey, Option.Rel List.Perm r.evidence[key]? s.evidence[key]?

/-- No source has records in both. -/
def Apart (b c : Batch) : Prop := ∀ x ∈ b, ∀ y ∈ c, x.source ≠ y.source

instance (b c : Batch) : Decidable (Apart b c) :=
  inferInstanceAs (Decidable (∀ x ∈ b, ∀ y ∈ c, x.source ≠ y.source))

theorem Apart.symm {b c : Batch} (h : Apart b c) : Apart c b :=
  fun x hx y hy hsame => h y hy x hx hsame.symm

/-- Every accepted batch is done and was within the bound, and no source has records in
two of them or in one of them and among the offers from outside. -/
structure Separate (limits : Limits) (s : BatchedRuntime) : Prop where
  ran : ∀ e ∈ s.use.log.accepted, e ∈ s.use.log.ran
  fit : ∀ e ∈ s.use.log.accepted, e.task.length ≤ limits.maxEvidencePerIngestBatch
  apart : ∀ e ∈ s.use.log.accepted, ∀ f ∈ s.use.log.accepted, e ≠ f → Apart e.task f.task
  outside : ∀ e ∈ s.use.log.accepted, Apart (outsideOffers s.log) e.task

/-- What an author offers: a task its batch, the outside its own records. -/
def authored (s : BatchedRuntime) (author : Option ℕ) : Batch :=
  ((offersIn s.log).filter (·.1 = author)).map Prod.snd

theorem Separate.authored_task (h : Separate r₀.config.limits s)
    (hperforming : Performing r₀ maxQueue s) {e : Entry Batch} (he : e ∈ s.use.log.accepted) :
    s.authored (some e.source) = e.task := by
  rw [authored, offersIn_task, hperforming.ran e (h.ran e he), records_script (h.fit e he)]

theorem mem_authored {x : Option ℕ × ObservedPathEvidence} (hx : x ∈ offersIn s.log) :
    x.2 ∈ s.authored x.1 :=
  List.mem_map.mpr ⟨x,List.mem_filter.mpr ⟨hx,decide_eq_true rfl⟩,rfl⟩

/-- Offers come from outside or from accepted tasks. -/
theorem author_cases (h : Performing r₀ maxQueue s) {x : Option ℕ × ObservedPathEvidence}
    (hx : x ∈ offersIn s.log) : x.1 = none ∨ ∃ e ∈ s.use.log.accepted, x.1 = some e.source := by
  obtain ⟨author,record⟩ := x
  cases author with
  | none => exact Or.inl rfl
  | some source =>
    have hmade : requestsOf source s.log ≠ [] := by
      intro hnone
      have hrecord : record ∈ s.authored (some source) := mem_authored hx
      rw [authored, offersIn_task, hnone] at hrecord
      exact List.not_mem_nil hrecord
    by_contra hnot
    refine hmade (h.fresh source fun e he hsource => hnot (Or.inr ⟨e,?_,?_⟩))
    · exact h.pooled.mem_accepted_of_begun he
    · rw [hsource]

namespace Separate
variable (h : Separate r₀.config.limits s) (hperforming : Performing r₀ maxQueue s)
include h hperforming

/-- Each source has one author. -/
theorem author_unique {x y : Option ℕ × ObservedPathEvidence} (hx : x ∈ offersIn s.log)
    (hy : y ∈ offersIn s.log) (hsource : y.2.source = x.2.source) : y.1 = x.1 := by
  have hxMine := mem_authored hx
  have hyMine := mem_authored hy
  rcases author_cases hperforming hx with hxAuthor | ⟨e,he,hxAuthor⟩
  · rcases author_cases hperforming hy with hyAuthor | ⟨f,hf,hyAuthor⟩
    · rw [hxAuthor, hyAuthor]
    · rw [hxAuthor] at hxMine
      rw [hyAuthor, h.authored_task hperforming hf] at hyMine
      exact absurd hsource.symm (h.outside f hf x.2 hxMine y.2 hyMine)
  · rw [hxAuthor, h.authored_task hperforming he] at hxMine
    rcases author_cases hperforming hy with hyAuthor | ⟨f,hf,hyAuthor⟩
    · rw [hyAuthor] at hyMine
      exact absurd hsource (h.outside e he y.2 hyMine x.2 hxMine)
    · rw [hyAuthor, h.authored_task hperforming hf] at hyMine
      rw [hxAuthor, hyAuthor]
      by_contra hne
      have hdistinct : f ≠ e := fun heq => hne (heq ▸ rfl)
      exact h.apart f hf e he hdistinct y.2 hyMine x.2 hxMine hsource

/-- Every author's offers are one of the blocks. -/
theorem authored_mem {batches : List Batch}
    (hbatches : (s.use.log.accepted.map (·.task)).Perm batches)
    {x : Option ℕ × ObservedPathEvidence} (hx : x ∈ offersIn s.log) :
    s.authored x.1 ∈ outsideOffers s.log :: batches := by
  rcases author_cases hperforming hx with hauthor | ⟨e,he,hauthor⟩
  · rw [hauthor]
    exact List.mem_cons_self
  · rw [hauthor, h.authored_task hperforming he]
    exact List.mem_cons_of_mem _ (hbatches.mem_iff.mp (List.mem_map_of_mem he))

theorem blocks_apart {batches : List Batch}
    (hbatches : (s.use.log.accepted.map (·.task)).Perm batches) :
    (outsideOffers s.log :: batches).Pairwise Apart := by
  have haccepted : s.use.log.accepted.Pairwise fun e f => Apart e.task f.task :=
    hperforming.pooled.kept.numbered.nodup.pairwise_of_forall_ne h.apart
  have htasks := List.pairwise_map.mpr haccepted
  refine List.pairwise_cons.mpr ⟨fun batch hbatch => ?_,?_⟩
  · obtain ⟨e,he,rfl⟩ := List.mem_map.mp (hbatches.mem_iff.mpr hbatch)
    exact h.outside e he
  · exact (hbatches.pairwise_iff fun hbc => hbc.symm).mp htasks

/-- The offers of the run merge the batches: every source's records are in their order. -/
theorem streams_eq {batches : List Batch}
    (hbatches : (s.use.log.accepted.map (·.task)).Perm batches) (source : SourceId) :
    ((outsideOffers s.log :: batches).flatten.filter (·.source = source)) =
      ((offersIn s.log).map Prod.snd).filter (·.source = source) := by
  by_cases hsome : ∃ x ∈ offersIn s.log, x.2.source = source
  · obtain ⟨x,hx,hsource⟩ := hsome
    rw [Streams.filter_of_author x.1 fun y hy hyi =>
      h.author_unique hperforming hx hy (hyi.trans hsource.symm)]
    exact Streams.filter_flatten_of_apart (h.blocks_apart hperforming hbatches)
      (h.authored_mem hperforming hbatches hx) (mem_authored hx) hsource
  · have hnone : ∀ record ∈ (outsideOffers s.log :: batches).flatten,
        ∃ x ∈ offersIn s.log, x.2 = record := by
      intro record hrecord
      obtain ⟨block,hblock,hmem⟩ := List.mem_flatten.mp hrecord
      have hauthored : ∃ author, record ∈ s.authored author := by
        rcases List.mem_cons.mp hblock with rfl | hlater
        · exact ⟨none,hmem⟩
        · obtain ⟨e,he,rfl⟩ := List.mem_map.mp (hbatches.mem_iff.mpr hlater)
          exact ⟨some e.source,(h.authored_task hperforming he).symm ▸ hmem⟩
      obtain ⟨author,hmine⟩ := hauthored
      obtain ⟨x,hx,hvalue⟩ := List.mem_map.mp hmine
      exact ⟨x,(List.mem_filter.mp hx).1,hvalue⟩
    rw [List.filter_eq_nil_iff.mpr, List.filter_eq_nil_iff.mpr]
    · intro record hrecord heq
      obtain ⟨x,hx,rfl⟩ := List.mem_map.mp hrecord
      exact hsome ⟨x,hx,of_decide_eq_true heq⟩
    · intro record hrecord heq
      obtain ⟨x,hx,rfl⟩ := hnone record hrecord
      exact hsome ⟨x,hx,of_decide_eq_true heq⟩

end Separate

/-- Without a store, whatever the workers do in which order: when all accepted batches are
done, the runtime knows what it would know had the offers from outside and the batches been
made one after the other, in any order of the batches. -/
theorem batches_in_any_order (hreachable : r₀.Reachable) (hstore : r₀.store = none)
    (hrun : Run step Observes (serving r₀) s) (h : Separate r₀.config.limits s)
    {batches : List Batch} (hbatches : (s.use.log.accepted.map (·.task)).Perm batches)
    (hfree : ObservedPathEvidence.CollisionFree
      (r₀.collected ++ (outsideOffers s.log :: batches).flatten))
    (hroom : r₀.HasRoomForAll (outsideOffers s.log :: batches).flatten.length) :
    KnowsSame (r₀.ingestAll (outsideOffers s.log :: batches).flatten) s.runtime := by
  have hanything := hrun.mono fun _ _ _ => trivial
  have hperforming := performing_of_run hanything
  have hstreams := h.streams_eq hperforming hbatches
  have hperm := Streams.perm_of_streams hstreams
  have hinTurn := ObservatoryRuntime.neverFull_of_room hstore hroom
  rw [hperm.length_eq] at hroom
  have hmerged := ObservatoryRuntime.neverFull_of_room hstore hroom
  have hpool := hreachable.soundBuckets.drawsOn (outsideOffers s.log :: batches).flatten
  have hsame := ObservatoryRuntime.sameUpToOrder_of_sameFor (hinTurn.grown hstore)
    (hmerged.grown hstore) fun source => ObservatoryRuntime.NeverFull.sameFor hfree hpool hstore
      hstreams (fun e he => List.mem_append_right _ he) hinTurn hmerged source
  have hbeside := beside_of_log (.refl hstore) (observing_of_run hrun)
  rw [← runtime_of_run hanything] at hbeside
  obtain ⟨readings,history,findings,state,hbooks⟩ := hbeside.books
  have hledger := congrArg ObservatoryRuntime.ledger hsame.rest
  have hgaps := congrArg ObservatoryRuntime.sourceHasGap hsame.rest
  rw [hbooks]
  exact ⟨hledger,hgaps,hsame.evidence⟩

/-- A started runtime with two sources. -/
def startedTwo : ObservatoryRuntime :=
  [Call.registerSource ObservatoryRuntime.authoritySource,
    .registerSource ObservatoryRuntime.probeSource].foldl .perform Session.startedDefault

/-- Two workers take a batch each and offer their records in the other order. -/
def crossing : List Action :=
  [.offer [ObservatoryRuntime.sighting ⟨1⟩ .synthetic],
    .offer [ObservatoryRuntime.sighting ⟨2⟩ .real],.submit 0,.submit 0,
    .work 0,.work 1,.work 0,.work 1,.body 0,.body 1,.body 1,.body 0,.body 0,.body 1,.body 0,
    .body 1,.body 0,.body 1,.work 0,.work 1]

theorem startedTwo_reachable : startedTwo.Reachable :=
  Session.startedDefault_reachable.performs _

def firstSighting : ObservedPathEvidence := ObservatoryRuntime.sighting ⟨1⟩ .synthetic

def secondSighting : ObservedPathEvidence := ObservatoryRuntime.sighting ⟨2⟩ .real

theorem entries_injective : Function.Injective fun e : Entry Batch => (e.task,e.source) := by
  rintro ⟨task,source⟩ ⟨other,number⟩ h
  obtain ⟨rfl,rfl⟩ := Prod.mk.inj h
  rfl

/-- The batches of the crossing run, and nothing else, were offered and are done. -/
theorem crossing_separate {s : BatchedRuntime}
    (haccepted : s.use.log.accepted = [⟨[firstSighting],0⟩,⟨[secondSighting],1⟩])
    (hran : s.use.log.ran = s.use.log.accepted) (houtside : outsideOffers s.log = []) :
    Separate startedTwo.config.limits s where
  ran e he := hran ▸ he
  fit := by
    rw [haccepted]
    decide
  apart := by
    rw [haccepted]
    have hapart : Apart [firstSighting] [secondSighting] := by decide
    rintro e he f hf hne
    simp only [List.mem_cons, List.not_mem_nil, or_false] at he hf
    rcases he with rfl | rfl <;> rcases hf with rfl | rfl
    · exact absurd rfl hne
    · exact hapart
    · exact hapart.symm
    · exact absurd rfl hne
  outside := by
    rw [houtside]
    exact fun _ _ _ hx => absurd hx List.not_mem_nil

/-- The workers take turns, and what is known is what either order of the batches
leaves. -/
theorem crossing_knows_same : ∃ s : BatchedRuntime,
    performs step (serving startedTwo) crossing = some s ∧
    KnowsSame (startedTwo.ingestAll [firstSighting,secondSighting]) s.runtime ∧
    KnowsSame (startedTwo.ingestAll [secondSighting,firstSighting]) s.runtime := by
  have hend : ((performs step (serving startedTwo) crossing).map fun s =>
      (s.use.log.accepted.map (fun e => (e.task,e.source)),
        s.use.log.ran.map (fun e => (e.task,e.source)),outsideOffers s.log)) =
      some ([([firstSighting],0),([secondSighting],1)],
        [([firstSighting],0),([secondSighting],1)],[]) := by
    decide +kernel
  obtain ⟨s,hs,hvalue⟩ := Option.map_eq_some_iff.mp hend
  obtain ⟨haccepted,hrest⟩ := Prod.mk.inj hvalue
  obtain ⟨hran,houtside⟩ := Prod.mk.inj hrest
  have haccepted : s.use.log.accepted = [⟨[firstSighting],0⟩,⟨[secondSighting],1⟩] :=
    entries_injective.list_map haccepted
  have hran : s.use.log.ran = [⟨[firstSighting],0⟩,⟨[secondSighting],1⟩] :=
    entries_injective.list_map hran
  have hseparate := crossing_separate haccepted (hran.trans haccepted.symm) houtside
  have hrun : Run step Observes (serving startedTwo) s := by
    refine Run.of_performs (fun t a ha => ?_) hs
    have hkind : crossing.all (fun | .request _ => false | _ => true) = true := rfl
    cases a with
    | request call => exact absurd (List.all_eq_true.mp hkind _ ha) nofun
    | _ => trivial
  have htasks : s.use.log.accepted.map (·.task) = [[firstSighting],[secondSighting]] := by
    rw [haccepted]
    rfl
  have hcontents : firstSighting.id ≠ secondSighting.id ∧ startedTwo.collected = [] := by
    decide +kernel
  have hpair : ObservedPathEvidence.CollisionFree [firstSighting,secondSighting] :=
    .pair (ObservatoryRuntime.sighting_sealed _ _) (ObservatoryRuntime.sighting_sealed _ _)
      hcontents.1
  have hempty : ∀ key, startedTwo.bucket key = [] := fun _ => rfl
  have hboth : ∀ batches : List Batch, [[firstSighting],[secondSighting]].Perm batches →
      batches.flatten.length = 2 →
      ObservedPathEvidence.CollisionFree (startedTwo.collected ++ batches.flatten) →
      KnowsSame (startedTwo.ingestAll batches.flatten) s.runtime := by
    intro batches hperm hlength hfree
    have hroom : startedTwo.HasRoomForAll (outsideOffers s.log :: batches).flatten.length := by
      intro key
      rw [hempty, houtside, List.flatten_cons, List.nil_append, hlength]
      decide
    have hknows := batches_in_any_order startedTwo_reachable rfl hrun hseparate
      (htasks ▸ hperm) (by rw [houtside]; exact hfree) hroom
    rwa [houtside] at hknows
  refine ⟨s,hs,hboth [[firstSighting],[secondSighting]] (.refl _) rfl ?_,
    hboth [[secondSighting],[firstSighting]] (.swap _ _ _) rfl ?_⟩
  · rw [hcontents.2]
    exact hpair
  · rw [hcontents.2]
    exact .pair (ObservatoryRuntime.sighting_sealed _ _) (ObservatoryRuntime.sighting_sealed _ _)
      hcontents.1.symm

end BatchedRuntime

end PathObservatory
