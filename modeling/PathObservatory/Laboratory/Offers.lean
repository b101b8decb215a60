import PathObservatory.Laboratory.Judgement
import PathObservatory.Runtime.SourceOrder

/-! # The offers of the laboratory

A record of the evidence is in order whenever its times, its plan and its sequence are stated.
Offered one after the other the records leave one bucket that holds nothing else, and no gap.
-/
namespace PathObservatory

/-- A trace of whole hops in ascending order passes the checks. -/
theorem ObservedPathEvidence.validateHops_of_ascending {previous : Option UInt32}
    {hops : List ObservedHop}
    (hwhole : ∀ hop ∈ hops, hop.device.valid = true ∧
      (hop.link.valid = true ↔ hop.linkProvenance ≠ .absent))
    (hafter : ∀ hop ∈ hops, ∀ index ∈ previous, index < hop.index)
    (hascending : (hops.map (·.index)).Pairwise (· < ·)) :
    validateHops previous hops = .ok () := by
  induction hops generalizing previous with
  | nil => rfl
  | cons first rest ih =>
    rw [List.map_cons, List.pairwise_cons] at hascending
    obtain ⟨⟨hdevice,hlink⟩,hrest⟩ := List.forall_mem_cons.mp hwhole
    have hlater : ∀ hop ∈ rest, ∀ index ∈ some first.index, index < hop.index := by
      intro hop hhop index hindex
      obtain rfl : first.index = index := Option.mem_some_iff.mp hindex
      exact hascending.1 _ (List.mem_map_of_mem hhop)
    have hrest := ih hrest hlater hascending.2
    simp only [validateHops, ↓require_bind_eq_ok, decide_eq_true_eq]
    refine ⟨hdevice,fun hcase => hlink.mp hcase.1 hcase.2,
      fun hcase => hcase.1 (hlink.mpr hcase.2),?_,hrest⟩
    cases previous with
    | none => rfl
    | some index => exact decide_eq_true (hafter first List.mem_cons_self index rfl)

/-- The largest sequence is not exceeded. -/
theorem SourceSequence.le_of_succ_eq_zero {highest : SourceSequence} (h : highest.value + 1 = 0)
    (sequence : SourceSequence) : sequence ≤ highest := by
  have hnat : (highest.value.toNat + 1) % 2 ^ 64 = 0 := congrArg UInt64.toNat h
  have hbound := sequence.value.toNat_lt
  rw [← not_lt, StrongId.lt_iff]
  omega

theorem SourceSequence.lt_of_succ_eq {highest sequence : SourceSequence}
    (h : highest.value + 1 = sequence.value) (hne : sequence.value ≠ 0) : highest < sequence := by
  have hnat : (highest.value.toNat + 1) % 2 ^ 64 = sequence.value.toNat := congrArg UInt64.toNat h
  have hpos : sequence.value.toNat ≠ 0 := fun hzero => hne (UInt64.toNat_inj.mp hzero)
  have hbound := highest.value.toNat_lt
  rw [StrongId.lt_iff]
  omega

/-- The sequence after the one an entry stands at leaves no gap, and the largest cannot be
followed. -/
theorem SourceSequenceLedger.Entry.observe_ne_gap (entry : Entry)
    (incarnation : SourceIncarnationId) (sequence : SourceSequence)
    (h : entry.incarnation = {} ∨ entry.highest.value + 1 = sequence.value ∨
      entry.highest.value + 1 = 0) :
    (entry.observe incarnation sequence).1.verdict ≠ .gap := by
  unfold observe
  split_ifs with hswitch hvalid hreplay
  · simp
  · simp
  · simp
  · simp only
    rcases h with hnone | hnext | hlargest
    · refine absurd (Or.inl ?_) hswitch
      simp [hnone, StrongId.valid]
    · rw [if_neg]
      · simp
      · rw [← hnext, UInt64.add_comm, UInt64.add_sub_cancel]
        decide
    · exact absurd (SourceSequence.le_of_succ_eq_zero hlargest sequence) hreplay

/-- What is no replay is where the entry stands afterwards. -/
theorem SourceSequenceLedger.Entry.observe_news {entry : Entry} {incarnation : SourceIncarnationId}
    {sequence : SourceSequence}
    (h : ¬ (entry.incarnation = incarnation ∧ sequence ≤ entry.highest)) :
    (entry.observe incarnation sequence).2.incarnation = incarnation ∧
      (entry.observe incarnation sequence).2.highest = sequence := by
  rcases entry.observe_cases incarnation sequence with
    ⟨-,-,hsame⟩ | ⟨-,hincarnation,hle,-⟩ | ⟨-,-,-,-,hsame⟩
  · exact hsame
  · exact absurd ⟨hincarnation,hle⟩ h
  · exact hsame

/-- A replay leaves the entry where it stands. -/
theorem SourceSequenceLedger.Entry.observe_replay {entry : Entry}
    {incarnation : SourceIncarnationId} {sequence : SourceSequence}
    (hvalid : incarnation.valid = true) (hsame : entry.incarnation = incarnation)
    (hle : sequence ≤ entry.highest) :
    (entry.observe incarnation sequence).2.incarnation = incarnation ∧
      (entry.observe incarnation sequence).2.highest = entry.highest := by
  rcases entry.observe_cases incarnation sequence with
    ⟨hswitch,-⟩ | ⟨-,-,-,-,hkept⟩ | ⟨-,-,hlt,-⟩
  · rcases hswitch with hinvalid | hother
    · exact absurd (hsame ▸ hvalid) hinvalid
    · exact absurd hsame hother
  · exact hkept
  · exact absurd hle (not_le.mpr hlt)

theorem ObservatoryRuntime.markGap_unmarked {r : ObservatoryRuntime} {source : SourceId}
    {verdict : SourceSequenceLedger.Verdict} (hgap : verdict ≠ .gap)
    (h : (r.sourceHasGap[source]?).getD false = false) :
    ((r.markGap source verdict).sourceHasGap[source]?).getD false = false := by
  cases verdict with
  | gap => exact absurd rfl hgap
  | newIncarnation => simp [markGap]
  | _ => exact h

namespace Synthetic.LabOptions
variable {options : LabOptions}

theorem observer_source (hbuild : options.Buildable) : options.observerSourceId ≠ 0 := by
  have hvalid := hbuild.observer_valid
  unfold SourceDescriptor.validate at hvalid
  simp only [↓require_bind_eq_ok] at hvalid
  simpa [observer, StrongId.valid] using hvalid.1

theorem observedHop_whole (h : options.Sized) {p : ℕ} (hp : p < options.hops) :
    (options.observedHop p).device.valid = true ∧
      ((options.observedHop p).link.valid = true ↔
        (options.observedHop p).linkProvenance ≠ .absent) := by
  have hdevice := device_valid h h.members_pos hp
  have hlink := link_valid h h.members_pos hp
  unfold observedHop
  simp only
  split_ifs
  · exact ⟨rfl,by simp [hlink]⟩
  · exact ⟨hdevice,by simp [hlink]⟩
  · exact ⟨rfl,by simp [StrongId.valid]⟩
  · exact ⟨hdevice,by simp [StrongId.valid]⟩

theorem validateHops_trace (h : options.Sized) :
    ObservedPathEvidence.validateHops none options.trace = .ok () := by
  have hlength := traceLength_le options h.hops_ge
  have hle := h.hops_le
  apply ObservedPathEvidence.validateHops_of_ascending
  · intro hop hhop
    obtain ⟨p,hp,rfl⟩ := List.mem_map.mp hhop
    rw [List.mem_range] at hp
    exact observedHop_whole h (by omega)
  · intro hop _ index hindex
    cases hindex
  · unfold trace
    rw [List.map_map, List.pairwise_map]
    apply List.pairwise_lt_range.imp_of_mem
    intro p q hp hq hlt
    rw [List.mem_range] at hp hq
    rw [Function.comp_apply, Function.comp_apply, UInt32.lt_iff_toNat_lt,
      observedHop_index options (by omega), observedHop_index options (by omega)]
    exact hlt

/-- The sequence of a record, which starts over after the largest. -/
def sequenceAt (options : LabOptions) (i : ℕ) : UInt64 := options.firstSequence + UInt64.ofNat i

theorem sequenceAt_succ (i : ℕ) : options.sequenceAt (i + 1) = options.sequenceAt i + 1 := by
  unfold sequenceAt
  rw [UInt64.ofNat_add, ← UInt64.add_assoc]
  rfl

/-- The records state when they were made and under which plan. -/
structure Dated (options : LabOptions) : Prop where
  epoch : options.epoch ≠ 0
  revision : options.revision ≠ 0
  observed : options.observed.isSet = true

/-- A record is in order. -/
def InOrder (options : LabOptions) (i : ℕ) : Prop := options.Dated ∧ options.sequenceAt i ≠ 0

theorem offer_validate (hbuild : options.Buildable) (hobserving : options.Observing) (i : ℕ) :
    (options.offer i).validate {} = .ok () ↔ options.InOrder i := by
  constructor
  · intro hvalid
    unfold ObservedPathEvidence.validate at hvalid
    simp only [↓require_bind_eq_ok] at hvalid
    obtain ⟨-,-,hsequence,hepoch,-,hrevision,-,-,-,-,-,hobserved,-⟩ := hvalid
    have hnumbered : (options.offer i).sequence = ⟨options.sequenceAt i⟩ := rfl
    have hmade : (options.offer i).epoch = ⟨options.epoch⟩ := rfl
    have hrevised : (options.offer i).revision = ⟨options.revision⟩ := rfl
    have hseen : (options.offer i).observedAt = options.observed := rfl
    have hreceived : (options.offer i).receivedAt = options.observed := rfl
    refine ⟨⟨?_,?_,?_⟩,?_⟩
    · simpa [hmade, StrongId.valid] using hepoch
    · simpa [hrevised, StrongId.valid] using hrevision
    · simpa [hseen, hreceived] using hobserved
    · simpa [hnumbered, StrongId.valid] using hsequence
  · rintro ⟨hdated,hsequence⟩
    apply ObservedPathEvidence.validate_seal
    have hhops := validateHops_trace hbuild.toSized
    have hlength : options.trace.length ≤ 512 := by
      have hle := traceLength_le options hbuild.hops_ge
      have hbound := hbuild.hops_le
      simp only [trace, List.length_map, List.length_range]
      omega
    have hnote : (bytesOf "laboratory observation").length ≤ 4096 := by decide +kernel
    have hsurface : options.surface ≠ .unknown := by
      rcases hobserving.surface with heq | heq <;> rw [heq] <;> decide
    have hauthority : options.observerAuthority ≠ .none := by
      intro heq
      have hle := hobserving.authority
      rw [heq] at hle
      exact absurd hle (by decide)
    have hends : (deviceFor 0 0 options.hops) ≠ deviceFor 0 (options.hops - 1) options.hops := by
      intro heq
      have hge := hbuild.hops_ge
      have hzero := deviceFor_inj hbuild.toSized hbuild.members_pos (by omega) (by omega) heq
      omega
    unfold ObservedPathEvidence.validate
    simp only [↓require_bind_eq_ok, bind_eq_ok, require_eq_ok, decide_eq_true_eq]
    refine ⟨?_,rfl,?_,?_,?_,?_,hsurface,hauthority,hlength,hnote,?_,Or.inl hdated.observed,
      PUnit.unit,hhops,?_⟩
    · simpa [observation, observer, StrongId.valid] using observer_source hbuild
    · show (options.sequenceAt i != 0) = true
      simpa using hsequence
    · simpa [observation, StrongId.valid] using hdated.epoch
    · simpa [observation, StrongId.valid] using hbuild.incarnation
    · simpa [observation, StrongId.valid] using hdated.revision
    · exact Or.inl (by simp [observation, DigestId.valid])
    · rintro ⟨-,-,heq,-⟩
      exact hends heq

/-- The bucket that all records belong to. -/
def subject (options : LabOptions) : SubjectKey := ⟨options.named,⟨groupId⟩⟩

/-- The plan of the laboratory is in force in a runtime without a store. -/
structure Prepared (options : LabOptions) (now : TimePoint) (r : ObservatoryRuntime) : Prop where
  limits : r.config.limits = {}
  policy : r.config.comparison = {}
  clock : ∀ reading, r.clock reading = now
  store : r.store = none
  findings : r.findings = { limits := {} }
  source : r.sources.find options.observer.id = .ok options.observer
  topology : r.topology = some options.topologyPlan.canonical
  index : ∃ index, r.topologyIndex = some index ∧
    TopologyIndex.build options.topologyPlan.canonical {} = .ok index
  routes : r.routes = some options.routesPlan.canonical
  epoch : r.epoch = ⟨options.planEpoch⟩
  incarnation : r.incarnation = ⟨options.incarnation⟩
  revision : r.routeRevision = ⟨options.planRevision⟩

/-- What a runtime holds after so many offers. -/
structure Gathered (options : LabOptions) (now : TimePoint) (count : ℕ) (r : ObservatoryRuntime) :
    Prop extends Prepared options now r where
  keys : ∀ key ∈ r.evidence, key = options.subject ∧ r.bucket options.subject ≠ []
  records : ∀ e ∈ r.bucket options.subject,
    (∃ i, options.offer i = e) ∧ e.validate {} = .ok ()
  length_le : (r.bucket options.subject).length ≤ count
  gapless : (r.sourceHasGap[options.observer.id]?).getD false = false
  /-- The ledger stands at the sequence before the next one, or at the largest. -/
  follows : (r.ledger.entryOf options.observer.id).incarnation = {} ∧
      (∀ i < count, options.sequenceAt i = 0) ∨
    (r.ledger.entryOf options.observer.id).incarnation = ⟨7⟩ ∧
      ((r.ledger.entryOf options.observer.id).highest.value + 1 = options.sequenceAt count ∨
        (r.ledger.entryOf options.observer.id).highest.value + 1 = 0) ∧
      r.bucket options.subject ≠ []

section Arrival
open ObservatoryRuntime
variable {now : TimePoint} {r s : ObservatoryRuntime} {count i : ℕ}

theorem Prepared.of_sameSetting (h : options.Prepared now r) (hsame : r.SameSetting s) :
    options.Prepared now s := by
  obtain ⟨_,_,_,rfl⟩ := hsame
  exact ⟨h.limits,h.policy,h.clock,h.store,h.findings,h.source,h.topology,h.index,h.routes,h.epoch,
    h.incarnation,h.revision⟩

theorem Prepared.resolveSubject_offer (h : options.Prepared now r) (hbuild : options.Buildable) :
    r.resolveSubject (options.offer i) = .ok options.subject := by
  have hnamed : (options.offer i).routeGeneration =
      if options.unknownGeneration then ⟨⟨options.routeGeneration + 100⟩⟩
      else ⟨⟨options.routeGeneration⟩⟩ := rfl
  have hgeneration : r.subjectGeneration (options.offer i) = .ok options.named := by
    have hid : options.routesPlan.canonical.id = ⟨options.routeGeneration⟩ := rfl
    have hroute := hbuild.routeGeneration
    unfold subjectGeneration named Misnamed
    simp only [hnamed, h.routes, hid]
    by_cases hunknown : options.unknownGeneration = true
    · by_cases hzero : options.routeGeneration + 100 = 0
      · simp [hunknown, hzero, MaybeId.present, StrongId.valid]
      · simp [hunknown, hzero, MaybeId.present, StrongId.valid]
    · simp [hunknown, hroute, MaybeId.present, StrongId.valid]
  have hgroup : (options.offer i).group = ⟨groupId⟩ := rfl
  have hpresent : (⟨groupId⟩ : MaybeId .pathGroup).present = true := rfl
  unfold resolveSubject
  rw [hgeneration]
  simp only [hgroup, hpresent, if_true]
  rfl

/-- A record is turned away exactly when it is not in order. -/
theorem Prepared.screenEvidence_offer (h : options.Prepared now r) (hbuild : options.Buildable)
    (hobserving : options.Observing) :
    r.screenEvidence (options.offer i) = .ok () ↔ options.InOrder i := by
  have hsource : (options.offer i).source = options.observer.id := rfl
  have hauthority : (options.offer i).authority = options.observer.authority := rfl
  have hsurface : (options.offer i).surface = options.observer.surface := rfl
  rw [← offer_validate hbuild hobserving]
  unfold screenEvidence
  rw [h.limits]
  cases hvalid : (options.offer i).validate {} with
  | error e => simp
  | ok u =>
    simp only [hsource, h.source, hauthority, hsurface, lt_irrefl, if_false, ne_eq,
      not_true_eq_false]

theorem Prepared.hasRoom_offer (h : options.Prepared now r) (hbuild : options.Buildable)
    (hroom : (r.bucket options.subject).length < 4096) : r.HasRoom (options.offer i) := by
  intro key hkey
  rw [h.resolveSubject_offer hbuild] at hkey
  rw [← Except.ok.inj hkey, h.limits]
  exact hroom

/-- A record without a sequence changes nothing. -/
theorem Gathered.refused (h : options.Gathered now count r)
    (hzero : options.sequenceAt count = 0) : options.Gathered now (count + 1) r where
  toPrepared := h.toPrepared
  keys := h.keys
  records := h.records
  length_le := h.length_le.trans (Nat.le_succ count)
  gapless := h.gapless
  follows := by
    rcases h.follows with ⟨hnone,hall⟩ | ⟨hseven,hhighest,hheld⟩
    · refine Or.inl ⟨hnone,fun i hi => ?_⟩
      rcases Nat.lt_succ_iff_lt_or_eq.mp hi with hlt | rfl
      · exact hall i hlt
      · exact hzero
    · refine Or.inr ⟨hseven,Or.inr ?_,hheld⟩
      rcases hhighest with hnext | hlargest
      · exact hnext.trans hzero
      · exact hlargest

/-- The ledger after the record. -/
def noted (options : LabOptions) (count : ℕ) (ledger : SourceSequenceLedger) :
    SourceSequenceLedger :=
  (ledger.observe ⟨options.observer.id,⟨7⟩,⟨options.sequenceAt count⟩⟩).2

theorem entryOf_noted (ledger : SourceSequenceLedger) :
    (options.noted count ledger).entryOf options.observer.id =
      ((ledger.entryOf options.observer.id).observe ⟨7⟩ ⟨options.sequenceAt count⟩).2 := by
  unfold noted
  rw [SourceSequenceLedger.entryOf_observe, if_pos rfl]

theorem replays_offer : r.Replays (options.offer i) ↔
    (r.ledger.entryOf options.observer.id).incarnation = ⟨7⟩ ∧
      ⟨options.sequenceAt i⟩ ≤ (r.ledger.entryOf options.observer.id).highest := Iff.rfl

/-- Only once the largest sequence was offered is a record a replay. -/
theorem Gathered.replayed (h : options.Gathered now count r)
    (hsequence : options.sequenceAt count ≠ 0) (hreplays : r.Replays (options.offer count)) :
    options.Gathered now (count + 1) { r with ledger := options.noted count r.ledger } := by
  obtain ⟨hincarnation,hle⟩ := replays_offer.mp hreplays
  obtain ⟨hseven,hkept⟩ := SourceSequenceLedger.Entry.observe_replay rfl hincarnation hle
  refine ⟨h.of_sameSetting ⟨_,_,_,rfl⟩,h.keys,h.records,h.length_le.trans (Nat.le_succ count),
    h.gapless,?_⟩
  rcases h.follows with ⟨hnone,-⟩ | ⟨-,hhighest,hheld⟩
  · exact absurd (hnone.symm.trans hincarnation) (show ({} : SourceIncarnationId) ≠ ⟨7⟩ by decide)
  · refine Or.inr ⟨by rw [entryOf_noted]; exact hseven,Or.inr ?_,hheld⟩
    rw [entryOf_noted, hkept]
    rcases hhighest with hnext | hlargest
    · exact absurd hle (not_le.mpr (SourceSequence.lt_of_succ_eq hnext hsequence))
    · exact hlargest

theorem offer_seal (i : ℕ) : (options.offer i).seal_ = options.offer i := rfl

/-- A record that is news stands in the ledger, without a gap. -/
theorem Gathered.noteSequence (h : options.Gathered now count r)
    (hnews : ¬ r.Replays (options.offer count)) :
    ∃ gaps, r.noteSequence (options.offer count) =
        { r with ledger := options.noted count r.ledger, sourceHasGap := gaps } ∧
      (gaps[options.observer.id]?).getD false = false ∧
      ((options.noted count r.ledger).entryOf options.observer.id).incarnation = ⟨7⟩ ∧
      ((options.noted count r.ledger).entryOf options.observer.id).highest.value + 1 =
        options.sequenceAt (count + 1) := by
  obtain ⟨gaps,hnoted⟩ := r.noteSequence_frame (options.offer count)
  rw [replays_offer] at hnews
  have hseven := SourceSequenceLedger.Entry.observe_news hnews
  have hfollows : (r.ledger.entryOf options.observer.id).incarnation = {} ∨
      (r.ledger.entryOf options.observer.id).highest.value + 1 = options.sequenceAt count ∨
        (r.ledger.entryOf options.observer.id).highest.value + 1 = 0 :=
    h.follows.imp And.left fun hright => hright.2.1
  have hgap := SourceSequenceLedger.Entry.observe_ne_gap _ ⟨7⟩ ⟨options.sequenceAt count⟩ hfollows
  refine ⟨gaps,hnoted,?_,?_,?_⟩
  · have hmarked :=
      markGap_unmarked (r := { r with ledger := options.noted count r.ledger }) hgap h.gapless
    have hgaps : (r.noteSequence (options.offer count)).sourceHasGap = gaps :=
      congrArg ObservatoryRuntime.sourceHasGap hnoted
    rw [← hgaps]
    exact hmarked
  · rw [entryOf_noted]
    exact hseven.1
  · rw [entryOf_noted, hseven.2, sequenceAt_succ]

/-- An offer of a record extends what is held by that record at most. -/
theorem Gathered.ingest (h : options.Gathered now count r) (hbuild : options.Buildable)
    (hobserving : options.Observing) (hdated : options.Dated) (hcount : count < 4096) :
    options.Gathered now (count + 1) (r.ingestEvidence (options.offer count)).2 := by
  have hroom := h.length_le.trans_lt hcount
  have hscreen := h.screenEvidence_offer (i := count) hbuild hobserving
  rcases r.ingestEvidence_cases (options.offer count) with
    ⟨refused,hrefused,hresult⟩ | ⟨hscreened,hreplays,-,hresult⟩ |
    ⟨hscreened,hnews,-,answer,-,-,hresult⟩
  · have hzero : options.sequenceAt count = 0 := by
      by_contra hsequence
      exact absurd (hrefused.symm.trans (hscreen.mpr ⟨hdated,hsequence⟩)) (by simp)
    rw [hresult]
    exact h.refused hzero
  · rw [hresult]
    exact h.replayed (hscreen.mp hscreened).2 hreplays
  · obtain ⟨gaps,hnoted,hgapless,hseven,hnext⟩ := h.noteSequence hnews
    rw [hresult, hnoted, offer_seal]
    set s := { r with ledger := options.noted count r.ledger, sourceHasGap := gaps } with hs
    have hprepared : options.Prepared now s := h.of_sameSetting ⟨_,_,_,rfl⟩
    have hevidence : s.evidence = r.evidence := rfl
    have hbucket : s.bucket = r.bucket := bucket_congr hevidence
    rcases keepEvidence_with_room hprepared.store (hprepared.hasRoom_offer (i := count) hbuild
      (hbucket ▸ hroom)) answer with ⟨key,hkey,-,hkept⟩ | ⟨hpresent,hkept⟩
    · rw [hprepared.resolveSubject_offer hbuild] at hkey
      obtain rfl := Except.ok.inj hkey
      rw [hkept]
      set t : ObservatoryRuntime := { s with
        evidence := s.evidence.insert options.subject
          (s.bucket options.subject ++ [options.offer count]) }
      have hfiled : t.bucket options.subject = r.bucket options.subject ++ [options.offer count] := by
        rw [bucket_of_insert (r := s) (s := t) rfl, Filing.put, if_pos rfl, hbucket]
      refine ⟨hprepared.of_sameSetting ⟨_,_,_,rfl⟩,?_,?_,?_,hgapless,?_⟩
      · intro other hother
        rw [OrderedMap.mem_iff_getElem?] at hother
        obtain ⟨_,hfound⟩ := hother
        rw [OrderedMap.getElem?_insert] at hfound
        rw [hfiled]
        split_ifs at hfound with heq
        · exact ⟨heq.symm,by simp⟩
        · exact ⟨(h.keys other (OrderedMap.mem_iff_getElem?.mpr ⟨_,hfound⟩)).1,by simp⟩
      · rw [hfiled]
        intro e he
        rcases List.mem_append.mp he with hold | hnew
        · exact h.records e hold
        · obtain rfl := List.mem_singleton.mp hnew
          exact ⟨⟨count,rfl⟩,(offer_validate hbuild hobserving count).mpr (hscreen.mp hscreened)⟩
      · rw [hfiled, List.length_append, List.length_singleton]
        exact Nat.succ_le_succ h.length_le
      · rw [hfiled]
        exact Or.inr ⟨hseven,Or.inl hnext,by simp⟩
    · rw [hkept]
      obtain ⟨known,hknown,-⟩ :=
        List.any_eq_true.mp (hpresent _ (hprepared.resolveSubject_offer hbuild))
      refine ⟨hprepared,h.keys,h.records,h.length_le.trans (Nat.le_succ count),hgapless,?_⟩
      exact Or.inr ⟨hseven,Or.inl hnext,List.ne_nil_of_mem hknown⟩

end Arrival

end Synthetic.LabOptions

end PathObservatory
