import PathObservatory.Runtime.FindingRuns
import PathObservatory.Runtime.Identities

/-! # Findings are identified by sets

The identity of a finding is computed from sorted lists without repeats, so the order in
which the evidence was judged is left out of it. The evidence is cut to its bound before
it is sorted: beyond the bound the order decides which records take part.
-/
namespace PathObservatory
open ByteReader CanonicalReader

theorem prefixCode_digestId {tag : DigestTag} :
    PrefixCodeOn (CanonicalWriter.digestId : DigestId tag → ByteString) Set.univ :=
  Reads.prefixCodeOn (fun value _ => reads_digestId value)

/-- The identities of the evidence that the comparison accepted, as they were judged. -/
def ComparisonResult.acceptedIds (result : ComparisonResult) : List EvidenceId :=
  (result.judgements.filter (·.accepted)).map (·.id)

/-- The comparisons show one defect: they agree on what identifies a finding, whatever the
order and the number of their judgements. -/
structure ComparisonResult.SameDefect (a b : ComparisonResult) : Prop where
  primary : a.primary = b.primary
  group : a.group = b.group
  path : a.path = b.path
  matchedPath : a.matchedPath = b.matchedPath
  generation : a.generation = b.generation
  topology : a.topology = b.topology
  evidence : ∀ id, id ∈ a.acceptedIds ↔ id ∈ b.acceptedIds
  hops : ∀ index, index ∈ a.differences.map (·.index) ↔ index ∈ b.differences.map (·.index)

namespace Finding
variable {a b : Finding}

theorem sortedEvidence_eq_iff :
    a.sortedEvidence = b.sortedEvidence ↔ ∀ id, id ∈ a.evidence ↔ id ∈ b.evidence :=
  Ranking.destutter_insertionSort_eq_iff

theorem sortedHops_eq_iff :
    a.sortedHops = b.sortedHops ↔ ∀ index, index ∈ a.hopIndices ↔ index ∈ b.hopIndices :=
  Ranking.destutter_insertionSort_eq_iff

theorem length_digestId (id : EvidenceId) :
    (CanonicalWriter.digestId id).length = 4 + kDigestIdBytes := by
  rw [CanonicalWriter.digestId, CanonicalWriter.bytes, List.length_append,
    CanonicalWriter.length_u32, id.size_eq]

theorem length_digestIds (ids : List EvidenceId) :
    (ids.flatMap CanonicalWriter.digestId).length = (4 + kDigestIdBytes) * ids.length := by
  induction ids with
  | nil => rfl
  | cons id ids ih =>
    rw [List.flatMap_cons, List.length_append, ih, length_digestId, List.length_cons, Nat.mul_succ,
      Nat.add_comm]

/-- What is hashed tells the sets of evidence apart where the rest is the same. -/
theorem identityBytes_eq_iff (hcls : a.cls = b.cls) (hgroup : a.group = b.group)
    (hpath : a.path = b.path) (hgeneration : a.generation = b.generation)
    (htopology : a.topology = b.topology) (hhops : a.sortedHops = b.sortedHops) :
    a.identityBytes = b.identityBytes ↔ a.sortedEvidence = b.sortedEvidence := by
  unfold identityBytes
  rw [hcls, hgroup, hpath, hgeneration, htopology, hhops]
  simp only [List.append_assoc, List.append_cancel_left_eq]
  constructor
  · intro h
    rw [← List.append_assoc, ← List.append_assoc (CanonicalWriter.count _),
      List.append_cancel_right_eq] at h
    have hcount : ∀ n, (CanonicalWriter.count n).length = 4 := fun n => CanonicalWriter.length_u32 _
    obtain ⟨-,hevidence⟩ := List.append_inj h (by rw [hcount, hcount])
    have hlength := congrArg List.length hevidence
    rw [length_digestIds, length_digestIds] at hlength
    refine (prefixCode_digestId.flatMap (Nat.eq_of_mul_eq_mul_left (by decide) hlength)
      (fun _ _ => trivial) (fun _ _ => trivial) (s := []) (t := []) ?_).1
    rw [hevidence]
  · intro h
    rw [h]

end Finding

namespace FindingRegistry
variable {limits : Limits} {a b : ComparisonResult}

/-- The candidates of one defect are hashed alike exactly when the accepted evidence within
the bound is the same set. -/
theorem candidate_identityBytes_iff (h : a.SameDefect b) :
    (findingCandidate limits a).identityBytes = (findingCandidate limits b).identityBytes ↔
      ∀ id, id ∈ a.acceptedIds.take limits.maxFindingEvidence ↔
        id ∈ b.acceptedIds.take limits.maxFindingEvidence := by
  have hpath : (findingCandidate limits a).path = (findingCandidate limits b).path := by
    simp only [findingCandidate, Finding.seal_, h.path, h.matchedPath]
  rw [Finding.identityBytes_eq_iff (congrArg DivergenceClass.toUInt8 h.primary) h.group hpath
    h.generation h.topology (Finding.sortedHops_eq_iff.mpr h.hops), Finding.sortedEvidence_eq_iff]
  rfl

/-- A recorded class is on file under the identity of its candidate. -/
theorem id_of_record {r : FindingRegistry} (hkeyed : Keyed limits r) {result : ComparisonResult}
    {now : TimePoint} {recorded : FindingId × FindingRegistry}
    (hprimary : result.primary ≠ .none) (h : r.record result now = .ok recorded) :
    recorded.1 = (findingCandidate limits result).id ∧
      ∃ finding, recorded.2.findings[recorded.1]? = some finding := by
  rw [← hkeyed.limits_eq]
  rcases record_cases h with ⟨hnone,-⟩ | ⟨-,existing,hexisting,rfl⟩ | ⟨roomy,-,-,-,rfl⟩
  · exact absurd hnone hprimary
  · have hid := (hkeyed.all _ existing hexisting).1
    refine ⟨hid,seenAgain existing result.id now,?_⟩
    rw [hid]
    exact Std.ExtTreeMap.getElem?_insert_self
  · exact ⟨rfl,_,Std.ExtTreeMap.getElem?_insert_self⟩

/-- The comparison is one more occurrence of the finding with this identity. -/
def Persists (registry : FindingRegistry) (id : FindingId) (result : ComparisonResult)
    (now : TimePoint) : Prop :=
  ∃ finding s, registry.findings[id]? = some finding ∧ registry.record result now = .ok (id,s) ∧
    s.findings.size = registry.findings.size ∧
    s.findings[id]? = some (seenAgain finding result.id now)

theorem persists_of_held {r : FindingRegistry} (hkeyed : Keyed limits r) {result : ComparisonResult}
    {finding : Finding} (hprimary : result.primary ≠ .none)
    (hheld : r.findings[(findingCandidate limits result).id]? = some finding) (now : TimePoint) :
    r.Persists (findingCandidate limits result).id result now := by
  obtain rfl := hkeyed.limits_eq
  have hmem : (findingCandidate r.limits result).id ∈ r.findings :=
    OrderedMap.mem_iff_getElem?.mpr ⟨finding,hheld⟩
  have hrecord : r.record result now = .ok (finding.id,r.file (findingCandidate r.limits result).id
      (seenAgain finding result.id now)) := by
    unfold record
    rw [if_neg hprimary]
    simp only [hheld]
    rfl
  rw [(hkeyed.all _ finding hheld).1] at hrecord
  exact ⟨finding,_,hheld,hrecord,Std.ExtTreeMap.size_insert.trans (if_pos hmem),
    Std.ExtTreeMap.getElem?_insert_self⟩

/-- The two comparisons are recorded as one finding: under one identity, and the later one
as one more occurrence where it follows the first. -/
def OneFinding (first second : FindingId × FindingRegistry) (result : ComparisonResult)
    (later : TimePoint) : Prop :=
  first.1 = second.1 ∧ (result.primary ≠ .none → first.2.Persists first.1 result later)

/-- Two comparisons of one defect are one finding exactly when the accepted evidence within
the bound is the same set, in whatever registries they are recorded. -/
theorem one_finding_iff {calls others : List Call} (h : a.SameDefect b)
    (hcollision : (findingCandidate limits a).id = (findingCandidate limits b).id →
      (findingCandidate limits a).identityBytes = (findingCandidate limits b).identityBytes)
    {now later : TimePoint} {first second : FindingId × FindingRegistry}
    (hfirst : (run limits calls).record a now = .ok first)
    (hsecond : (run limits others).record b later = .ok second) :
    OneFinding first second b later ↔ a.primary = .none ∨
      ∀ id, id ∈ a.acceptedIds.take limits.maxFindingEvidence ↔
        id ∈ b.acceptedIds.take limits.maxFindingEvidence := by
  by_cases hprimary : a.primary = .none
  · have hnone : b.primary = .none := h.primary.symm.trans hprimary
    rw [record, if_pos hprimary] at hfirst
    rw [record, if_pos hnone] at hsecond
    rw [← Except.ok.inj hfirst, ← Except.ok.inj hsecond]
    exact iff_of_true ⟨rfl,fun hsome => absurd hnone hsome⟩ (Or.inl hprimary)
  · have hsome : b.primary ≠ .none := h.primary ▸ hprimary
    have hafter : Keyed limits first.2 := by
      refine (run_keyed limits calls).after (c := .record a now) ?_
      rw [after, hfirst]
      rfl
    obtain ⟨hfirstId,finding,hheld⟩ := id_of_record (run_keyed limits calls) hprimary hfirst
    obtain ⟨hsecondId,-⟩ := id_of_record (run_keyed limits others) hsome hsecond
    rw [← candidate_identityBytes_iff h, or_iff_right hprimary]
    constructor
    · rintro ⟨hid,-⟩
      rw [hfirstId, hsecondId] at hid
      exact hcollision hid
    · intro hbytes
      have hid : (findingCandidate limits a).id = (findingCandidate limits b).id :=
        congrArg (fun bytes => DigestId.fromDigest (Digest.ofBytes bytes)) hbytes
      rw [hid] at hfirstId
      refine ⟨hfirstId.trans hsecondId.symm,fun _ => ?_⟩
      rw [hfirstId] at hheld ⊢
      exact persists_of_held hafter hsome hheld later

/-- The first finding of a registry that has room is opened. -/
theorem record_of_empty (limits : Limits) {result : ComparisonResult}
    (hprimary : result.primary ≠ .none) (hroom : 0 < limits.maxFindings) (now : TimePoint) :
    ∃ recorded, (run limits []).record result now = .ok recorded := by
  have hmake : (run limits []).makeRoom = .ok (run limits []) := by
    refine if_pos ?_
    simpa [run] using hroom
  have hnew : (run limits []).findings[(findingCandidate limits result).id]? = none := by
    simp [run]
  refine ⟨((findingCandidate limits result).id,(run limits []).file
    (findingCandidate limits result).id (opened limits result now)),?_⟩
  unfold record
  rw [if_neg hprimary]
  simp only [show (run limits []).limits = limits from rfl, hnew, hmake]
  rfl

/-- At most one evidence record for each finding. -/
def oneRecord : Limits := { maxFindingEvidence := 1 }

def evidenceOf (value : UInt8) : EvidenceId :=
  ⟨List.replicate kDigestIdBytes value,List.length_replicate⟩

def acceptedInOrder : ComparisonResult :=
  { primary := .linkMismatch
    judgements := [{ id := evidenceOf 1, accepted := true }, { id := evidenceOf 2, accepted := true }] }

def acceptedReversed : ComparisonResult :=
  { primary := .linkMismatch
    judgements := [{ id := evidenceOf 2, accepted := true }, { id := evidenceOf 1, accepted := true }] }

theorem reversed_sameDefect : acceptedInOrder.SameDefect acceptedReversed where
  primary := rfl
  group := rfl
  path := rfl
  matchedPath := rfl
  generation := rfl
  topology := rfl
  evidence _ := (List.Perm.swap _ _ _).mem_iff
  hops _ := Iff.rfl

/-- Within the bound the order of the judgements does not matter. -/
theorem one_finding_within_bound : ∃ first second,
    (run {} []).record acceptedInOrder ⟨1⟩ = .ok first ∧
    (run {} []).record acceptedReversed ⟨2⟩ = .ok second ∧
    OneFinding first second acceptedReversed ⟨2⟩ := by
  have hprimary : acceptedInOrder.primary ≠ .none := by decide
  have hreversed : acceptedReversed.primary ≠ .none := by decide
  obtain ⟨first,hfirst⟩ := record_of_empty {} hprimary (by decide) ⟨1⟩
  obtain ⟨second,hsecond⟩ := record_of_empty {} hreversed (by decide) ⟨2⟩
  refine ⟨first,second,hfirst,hsecond,(one_finding_iff reversed_sameDefect
    (fun _ => by decide +kernel) hfirst hsecond).mpr (Or.inr fun _ => ?_)⟩
  exact (List.Perm.swap _ _ _).mem_iff

/-- Of two accepted records the first one judged identifies the finding. -/
theorem two_findings_beyond_bound : acceptedInOrder.SameDefect acceptedReversed ∧
    ∃ first second,
      (run oneRecord []).record acceptedInOrder ⟨1⟩ = .ok first ∧
      (run oneRecord []).record acceptedReversed ⟨2⟩ = .ok second ∧ first.1 ≠ second.1 := by
  have hprimary : acceptedInOrder.primary ≠ .none := by decide
  have hreversed : acceptedReversed.primary ≠ .none := by decide
  obtain ⟨first,hfirst⟩ := record_of_empty oneRecord hprimary (by decide) ⟨1⟩
  obtain ⟨second,hsecond⟩ := record_of_empty oneRecord hreversed (by decide) ⟨2⟩
  refine ⟨reversed_sameDefect,first,second,hfirst,hsecond,?_⟩
  rw [(id_of_record (run_keyed oneRecord []) (by decide) hfirst).1,
    (id_of_record (run_keyed oneRecord []) (by decide) hsecond).1]
  decide +kernel

end FindingRegistry

end PathObservatory
