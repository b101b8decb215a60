import Mathlib.Data.List.Induction
import PathObservatory.Runtime.FindingInvariant

/-! # The finding registry over any sequence of calls

The methods change the registry in place: what one has done before it throws stays. Over
any calls the registry is within its bound and every finding stands under the identity of
its content; a finding leaves the registry only once it is resolved, and its status moves
along the arrows of its lifecycle.
-/
namespace PathObservatory

namespace FindingRegistry

/-- A method of the registry. -/
abbrev Method (α : Type) := ExceptT Error (StateM FindingRegistry) α

namespace Method

/-- A full registry evicts a resolved finding. -/
def makeRoom : Method Unit := do
  let r ← get
  if r.limits.maxFindings ≤ r.findings.size then
    match r.victim with
    | none => throw { code := .capacityExceeded,
                      message := "finding registry is full and holds no resolved finding to evict" }
    | some chosen =>
      set { r with findings := r.findings.erase chosen.1, evicted := r.evicted + 1 }

def record (result : ComparisonResult) (now : TimePoint) : Method FindingId := do
  if result.primary = .none then return {}
  let r ← get
  let candidate := findingCandidate r.limits result
  match r.findings[candidate.id]? with
  | some existing =>
    set (r.file candidate.id (seenAgain existing result.id now))
    return existing.id
  | none =>
    makeRoom
    modify fun r => r.file candidate.id { candidate with
      occurrences := 1, firstSeen := now, lastSeen := now, status := .open_ }
    return candidate.id

def acknowledge (candidate : FindingId) (now : TimePoint) : Method Unit := do
  let r ← get
  match r.findings[candidate]? with
  | none => throw { code := .unknownIdentity, message := "no such finding",
                    detail := candidate.str }
  | some finding =>
    if finding.status = .open_ then
      set (r.file candidate { finding with status := .acknowledged, lastSeen := now })

def resolveFromMatch (result : ComparisonResult) (now : TimePoint) : Method ℕ := do
  if result.outcome ≠ .match_ then return 0
  let r ← get
  modify fun r => { r with findings := r.findings.map (fun _ finding =>
    if resolvedBy result finding then { finding with status := .resolved, lastSeen := now }
    else finding) }
  return (r.findings.toList.filter (fun entry => resolvedBy result entry.2)).length

def restore (finding : Finding) : Method Unit := do
  if finding.computeFindingId ≠ finding.id then
    throw { code := .integrityFailure,
            message := "restored finding identity does not match content" }
  let r ← get
  match r.findings[finding.id]? with
  | some existing =>
    if existing.finderKeepsNewest finding then set (r.file finding.id finding)
  | none =>
    if r.limits.maxFindings ≤ r.findings.size then
      throw { code := .capacityExceeded, message := "finding registry is full" }
    set (r.file finding.id finding)

/-- What the method answers and leaves behind. -/
def on {α : Type} (method : Method α) (r : FindingRegistry) : Result α × FindingRegistry :=
  (method.run.run r : Id _)

theorem on_get (r : FindingRegistry) : (get : Method FindingRegistry).on r = (.ok r,r) := rfl

/-- What comes next starts from what the first part has left, unless that has thrown. -/
theorem on_bind {α β : Type} (method : Method α) (next : α → Method β) (r : FindingRegistry) :
    (method >>= next).on r =
      match method.on r with
      | (.ok a,s) => (next a).on s
      | (.error e,s) => (.error e,s) := by
  rcases hmethod : method.on r with ⟨e | a,s⟩
  · exact congrArg (fun left : Result α × FindingRegistry =>
      ExceptT.bindCont next left.1 left.2) hmethod
  · exact congrArg (fun left : Result α × FindingRegistry =>
      ExceptT.bindCont next left.1 left.2) hmethod

end Method

/-- The answer of a method that changes nothing when it throws. -/
def answered {α : Type} (r : FindingRegistry) : Result (α × FindingRegistry) →
    Result α × FindingRegistry
  | .ok (answer,s) => (.ok answer,s)
  | .error e => (.error e,r)

theorem makeRoom_on (r : FindingRegistry) :
    Method.makeRoom.on r = r.answered (r.makeRoom.map fun s => ((),s)) := by
  rw [Method.makeRoom, makeRoom, Method.on_bind]
  change Method.on (ite _ _ _) r = _
  by_cases hroom : r.findings.size < r.limits.maxFindings
  · rw [if_pos hroom, if_neg (not_le.mpr hroom)]
    rfl
  · rw [if_neg hroom, if_pos (not_lt.mp hroom)]
    cases r.victim <;> rfl

theorem record_on (r : FindingRegistry) (result : ComparisonResult) (now : TimePoint) :
    (Method.record result now).on r = r.answered (r.record result now) := by
  by_cases hprimary : result.primary = .none
  · rw [Method.record, record, if_pos hprimary, if_pos hprimary]
    rfl
  · rw [Method.record, record, if_neg hprimary, if_neg hprimary, Method.on_bind]
    cases hheld : r.findings[(findingCandidate r.limits result).id]? with
    | some existing =>
      simp only [Method.on_get, hheld]
      rfl
    | none =>
      simp only [Method.on_get, hheld]
      rw [Method.on_bind, makeRoom_on]
      cases r.makeRoom with
      | error e => rfl
      | ok roomy => rfl

theorem acknowledge_on (r : FindingRegistry) (id : FindingId) (now : TimePoint) :
    (Method.acknowledge id now).on r =
      r.answered ((r.acknowledge id now).map fun s => ((),s)) := by
  rw [Method.acknowledge, Method.on_bind]
  cases hheld : r.findings[id]? with
  | none =>
    have hunknown : r.acknowledge id now = .error
        { code := .unknownIdentity, message := "no such finding", detail := id.str } := by
      rw [acknowledge, find, hheld]
      rfl
    simp only [Method.on_get, hheld, hunknown]
    rfl
  | some finding =>
    have hknown : r.acknowledge id now =
        if finding.status = .open_ then
          .ok (r.file id { finding with status := .acknowledged, lastSeen := now })
        else .ok r := by
      rw [acknowledge, find, hheld]
      rfl
    simp only [Method.on_get, hheld, hknown]
    split_ifs
    · rfl
    · rfl

theorem resolveFromMatch_on (r : FindingRegistry) (result : ComparisonResult) (now : TimePoint) :
    (Method.resolveFromMatch result now).on r = r.answered (.ok (r.resolveFromMatch result now)) := by
  rw [Method.resolveFromMatch, resolveFromMatch]
  split_ifs <;> rfl

theorem restore_on (r : FindingRegistry) (finding : Finding) :
    (Method.restore finding).on r = r.answered ((r.restore finding).map fun s => ((),s)) := by
  rw [Method.restore, restore]
  by_cases hsealed : finding.computeFindingId = finding.id
  · rw [if_neg (not_not.mpr hsealed), decide_eq_true hsealed, Method.on_bind]
    cases hheld : r.findings[finding.id]? with
    | some existing =>
      simp only [Method.on_get, hheld, require, if_true]
      by_cases hnewer : existing.finderKeepsNewest finding = true
      · simp only [hnewer, if_true]
        rfl
      · simp only [hnewer]
        rfl
    | none =>
      simp only [Method.on_get, hheld, require, if_true]
      by_cases hroom : r.findings.size < r.limits.maxFindings
      · simp only [hroom, not_le.mpr hroom, decide_true, if_true, if_false]
        rfl
      · simp only [hroom, not_lt.mp hroom, decide_false, if_true]
        rfl
  · rw [if_pos hsealed, decide_eq_false hsealed]
    rfl

/-- The method with its value left out. -/
def Method.silent {α : Type} (method : Method α) : Method Unit := do
  let _ ← method

/-- A call of the registry. -/
inductive Call
  | record (result : ComparisonResult) (now : TimePoint)
  | acknowledge (id : FindingId) (now : TimePoint)
  | resolveFromMatch (result : ComparisonResult) (now : TimePoint)
  | restore (finding : Finding)

def Call.method : Call → Method Unit
  | record result now => (Method.record result now).silent
  | acknowledge id now => Method.acknowledge id now
  | resolveFromMatch result now => (Method.resolveFromMatch result now).silent
  | restore finding => Method.restore finding

/-- What the call answers and leaves behind. -/
def call (r : FindingRegistry) (c : Call) : Result Unit × FindingRegistry := c.method.on r

def run (limits : Limits) (calls : List Call) : FindingRegistry :=
  calls.foldl (fun r c => (r.call c).2) { limits := limits }

theorem run_concat (limits : Limits) (calls : List Call) (c : Call) :
    run limits (calls ++ [c]) = ((run limits calls).call c).2 := by
  rw [run, List.foldl_append]
  rfl

/-- The registry after a call that does not throw. -/
def after (r : FindingRegistry) : Call → Result FindingRegistry
  | .record result now => do
    let recorded ← r.record result now
    return recorded.2
  | .acknowledge id now => r.acknowledge id now
  | .resolveFromMatch result now => .ok (r.resolveFromMatch result now).2
  | .restore finding => r.restore finding

theorem silent_on {α : Type} {r : FindingRegistry} {method : Method α}
    {outcome : Result (α × FindingRegistry)} (h : method.on r = r.answered outcome) :
    method.silent.on r = r.answered (outcome.map fun recorded => ((),recorded.2)) := by
  rw [Method.silent, Method.on_bind, h]
  cases outcome with
  | error e => rfl
  | ok recorded => rfl

theorem call_on (r : FindingRegistry) (c : Call) :
    r.call c = r.answered ((r.after c).map fun s => ((),s)) := by
  cases c with
  | record result now =>
    rw [call, Call.method, silent_on (r.record_on result now), after]
    cases r.record result now <;> rfl
  | acknowledge id now => exact r.acknowledge_on id now
  | resolveFromMatch result now => exact silent_on (r.resolveFromMatch_on result now)
  | restore finding => exact r.restore_on finding

/-- A call succeeds and does what it is for, or throws before it has changed anything. -/
theorem call_cases (r : FindingRegistry) (c : Call) :
    (∃ s, r.after c = .ok s ∧ r.call c = (.ok (),s)) ∨ ∃ e, r.call c = (.error e,r) := by
  rw [call_on]
  cases r.after c with
  | error e => exact Or.inr ⟨e,rfl⟩
  | ok s => exact Or.inl ⟨s,rfl,rfl⟩

/-- Within the bound, each finding stands under the identity of its content. -/
structure Keyed (limits : Limits) (r : FindingRegistry) : Prop where
  limits_eq : r.limits = limits
  size_le : r.findings.size ≤ limits.maxFindings
  all : OrderedMap.All (fun id finding => finding.id = id ∧ finding.computeFindingId = id) r.findings

namespace Keyed
variable {limits : Limits} {r s : FindingRegistry}

theorem holds (h : Keyed limits r) : Holds limits
    (fun id finding => finding.id = id ∧ finding.computeFindingId = id) r :=
  ⟨h.limits_eq,h.size_le,h.all⟩

theorem of_holds (h : Holds limits
    (fun id finding => finding.id = id ∧ finding.computeFindingId = id) r) : Keyed limits r :=
  ⟨h.limits_eq,h.size_le,h.all⟩

theorem after (h : Keyed limits r) {c : Call} (hs : r.after c = .ok s) : Keyed limits s := by
  have hgood : Enduring fun id finding => finding.id = id ∧ finding.computeFindingId = id :=
    fun _ _ hfinding _ _ _ _ _ => hfinding
  cases c with
  | record result now =>
    obtain ⟨recorded,hrecord,hs⟩ := bind_eq_ok.mp hs
    obtain rfl := Except.ok.inj hs
    exact .of_holds (h.holds.record hgood ⟨rfl,rfl⟩ hrecord)
  | acknowledge id now => exact .of_holds (h.holds.acknowledge hgood hs)
  | resolveFromMatch result now =>
    rw [← Except.ok.inj hs]
    exact .of_holds (h.holds.resolveFromMatch hgood result now)
  | restore finding => exact .of_holds (h.holds.restore (fun hsealed => ⟨rfl,hsealed⟩) hs)

end Keyed

/-- What the call may make of the finding with this identity. -/
inductive Moves (id : FindingId) (before after : Finding) : Call → Prop
  | stays {c : Call} (hstatus : after.status = before.status) : Moves id before after c
  | acknowledged {now : TimePoint} (hbefore : before.status = .open_)
      (hafter : after.status = .acknowledged) : Moves id before after (.acknowledge id now)
  | resolved {result : ComparisonResult} {now : TimePoint}
      (hbefore : before.status = .open_ ∨ before.status = .acknowledged)
      (hafter : after.status = .resolved) (hmatch : result.outcome = .match_)
      (hsubject : (result.group.present = true ∧ before.group = result.group) ∨
        (result.path.present = true ∧ before.path = result.path))
      (hgeneration : before.generation ≤ result.generation) :
      Moves id before after (.resolveFromMatch result now)
  | reopened {result : ComparisonResult} {now : TimePoint} (hbefore : before.status = .resolved)
      (hafter : after.status = .open_) : Moves id before after (.record result now)
  | restored {finding : Finding} : Moves id before after (.restore finding)

theorem FindingStatus.ne_resolved_iff {status : FindingStatus} :
    status ≠ .resolved ↔ status = .open_ ∨ status = .acknowledged := by
  cases status <;> decide

theorem resolvedBy_eq_true {result : ComparisonResult} {finding : Finding} :
    resolvedBy result finding = true ↔
      (finding.status = .open_ ∨ finding.status = .acknowledged) ∧
      ((result.group.present = true ∧ finding.group = result.group) ∨
        (result.path.present = true ∧ finding.path = result.path)) ∧
      finding.generation ≤ result.generation := by
  have hsame : ∀ {tag : IdTag} {a b : MaybeId tag},
      (a.present = true ∧ b.present = true) ∧ a.value = b.value ↔ a.present = true ∧ b = a := by
    rintro tag ⟨a⟩ ⟨b⟩
    constructor
    · rintro ⟨⟨ha,-⟩,rfl⟩
      exact ⟨ha,rfl⟩
    · rintro ⟨ha,heq⟩
      rw [heq]
      exact ⟨⟨ha,ha⟩,rfl⟩
  unfold resolvedBy Finding.isOpen
  simp only [Bool.and_eq_true, Bool.or_eq_true, decide_eq_true_eq, hsame,
    FindingStatus.ne_resolved_iff, and_assoc]

/-- What a call keeps of the findings: those that are not resolved are kept. -/
structure Steps (c : Call) (r s : FindingRegistry) : Prop where
  unresolved : ∀ id finding, r.findings[id]? = some finding → finding.status ≠ .resolved →
    id ∈ s.findings
  moves : ∀ id before after, r.findings[id]? = some before → s.findings[id]? = some after →
    Moves id before after c

namespace Steps
variable {r s : FindingRegistry} {c : Call}

theorem refl (c : Call) (r : FindingRegistry) : Steps c r r where
  unresolved _ finding hheld _ := OrderedMap.mem_iff_getElem?.mpr ⟨finding,hheld⟩
  moves _ _ _ hbefore hafter := .stays (by rw [Option.some.inj (hbefore.symm.trans hafter)])

/-- Only the finding that is filed can have moved. -/
theorem file {id : FindingId} {finding : Finding}
    (hmoves : ∀ before, r.findings[id]? = some before → Moves id before finding c) :
    Steps c r (r.file id finding) where
  unresolved other held hheld _ := Std.ExtTreeMap.mem_insert.mpr
    (Or.inr (OrderedMap.mem_iff_getElem?.mpr ⟨held,hheld⟩))
  moves other before after hbefore hafter := by
    rw [FindingRegistry.file, OrderedMap.getElem?_insert] at hafter
    split_ifs at hafter with heq
    · subst heq
      rw [← Option.some.inj hafter]
      exact hmoves before hbefore
    · exact .stays (by rw [Option.some.inj (hbefore.symm.trans hafter)])

/-- A finding is opened where there was none, and only a resolved one makes room for it. -/
theorem opened {roomy : FindingRegistry} {id : FindingId} {finding : Finding}
    (hnew : r.findings[id]? = none) (hroomy : r.makeRoom = .ok roomy) :
    Steps c r (roomy.file id finding) := by
  rcases makeRoom_cases hroomy with ⟨-,rfl⟩ | ⟨chosen,-,hchosen,rfl⟩
  · refine file fun before hbefore => ?_
    rw [hnew] at hbefore
    cases hbefore
  · obtain ⟨hevicted,hresolved⟩ := resolved_of_victim hchosen
    refine ⟨fun other held hheld hopen => ?_,fun other before after hbefore hafter => ?_⟩
    · refine Std.ExtTreeMap.mem_insert.mpr (Or.inr (OrderedMap.mem_iff_getElem?.mpr ⟨held,?_⟩))
      rw [OrderedMap.getElem?_erase, if_neg, hheld]
      rintro rfl
      rw [Option.some.inj (hevicted.symm.trans hheld)] at hresolved
      exact hopen hresolved
    · rw [FindingRegistry.file, OrderedMap.getElem?_insert] at hafter
      split_ifs at hafter with heq
      · rw [← heq, hnew] at hbefore
        cases hbefore
      · rw [OrderedMap.getElem?_erase] at hafter
        split_ifs at hafter
        exact .stays (by rw [Option.some.inj (hbefore.symm.trans hafter)])

theorem resolveFromMatch (r : FindingRegistry) (result : ComparisonResult) (now : TimePoint) :
    Steps (.resolveFromMatch result now) r (r.resolveFromMatch result now).2 := by
  unfold FindingRegistry.resolveFromMatch
  split_ifs with hmatch
  · exact refl _ r
  · refine ⟨fun id finding hheld _ => ?_,fun id before after hbefore hafter => ?_⟩
    · exact Std.ExtTreeMap.mem_map.mpr (OrderedMap.mem_iff_getElem?.mpr ⟨finding,hheld⟩)
    · rw [Std.ExtTreeMap.getElem?_map, hbefore] at hafter
      rw [← Option.some.inj hafter]
      dsimp only
      split_ifs with hresolved
      · obtain ⟨hopen,hsubject,hgeneration⟩ := resolvedBy_eq_true.mp hresolved
        exact .resolved hopen rfl (not_not.mp hmatch) hsubject hgeneration
      · exact .stays rfl

theorem after (hs : r.after c = .ok s) : Steps c r s := by
  cases c with
  | record result now =>
    obtain ⟨recorded,hrecord,hs⟩ := bind_eq_ok.mp hs
    obtain rfl := Except.ok.inj hs
    rcases record_cases hrecord with ⟨-,rfl⟩ | ⟨-,existing,hexisting,rfl⟩ | ⟨roomy,-,hnew,hroomy,rfl⟩
    · exact refl _ r
    · refine file fun before hbefore => ?_
      obtain rfl := Option.some.inj (hexisting.symm.trans hbefore)
      by_cases hresolved : existing.status = .resolved
      · exact .reopened hresolved (if_pos hresolved)
      · exact .stays (if_neg hresolved)
    · exact opened hnew hroomy
  | acknowledge id now =>
    obtain ⟨finding,hheld,⟨hopen,rfl⟩ | ⟨-,rfl⟩⟩ := acknowledge_cases hs
    · refine file fun before hbefore => ?_
      obtain rfl := Option.some.inj (hheld.symm.trans hbefore)
      exact .acknowledged hopen rfl
    · exact refl _ s
  | resolveFromMatch result now =>
    rw [← Except.ok.inj hs]
    exact resolveFromMatch r result now
  | restore finding =>
    obtain ⟨-,⟨existing,hexisting,⟨-,rfl⟩ | ⟨-,rfl⟩⟩ | ⟨-,hroom,rfl⟩⟩ := restore_cases hs
    · exact file fun _ _ => .restored
    · exact refl _ s
    · exact file fun _ _ => .restored

end Steps

theorem run_keyed (limits : Limits) (calls : List Call) : Keyed limits (run limits calls) := by
  induction calls using List.reverseRecOn with
  | nil => exact .of_holds (.empty limits _)
  | append_singleton calls c ih =>
    rw [run_concat]
    rcases (run limits calls).call_cases c with ⟨s,hs,hcall⟩ | ⟨e,hcall⟩
    · rw [hcall]
      exact ih.after hs
    · rw [hcall]
      exact ih

/-- Over any calls the registry is within its bound and keyed by content; the next call
keeps every finding that is not resolved, moves a status along its lifecycle only, and
changes nothing when it throws. -/
theorem registry_invariant (limits : Limits) (calls : List Call) :
    (run limits calls).findings.size ≤ limits.maxFindings ∧
    (∀ (id : FindingId) (finding : Finding), (run limits calls).findings[id]? = some finding →
      finding.id = id ∧ finding.computeFindingId = id) ∧
    ∀ c, Steps c (run limits calls) ((run limits calls).call c).2 ∧
      ∀ e, ((run limits calls).call c).1 = .error e →
        ((run limits calls).call c).2 = run limits calls := by
  have hrun := run_keyed limits calls
  refine ⟨hrun.size_le,hrun.all,fun c => ?_⟩
  rcases (run limits calls).call_cases c with ⟨s,hs,hcall⟩ | ⟨e,hcall⟩
  · rw [hcall]
    exact ⟨Steps.after hs,nofun⟩
  · rw [hcall]
    exact ⟨Steps.refl c _,fun _ _ => rfl⟩

end FindingRegistry

end PathObservatory
