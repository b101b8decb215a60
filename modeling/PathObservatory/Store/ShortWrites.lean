import PathObservatory.Store.Opening

/-! # Appends that fail half way

An append that fails leaves the bytes that were written at the end of the file, and
the next append writes behind them. The store recovers every acknowledged record as
long as nothing is written behind such debris and the debris is no valid record.
-/
namespace PathObservatory
namespace PersistentStore
variable {limits : Limits}

/-- An append, and how many bytes of its record reach the file before the write
fails, if it does. -/
structure Attempt where
  type : RecordType
  payload : ByteString
  fault : Option ℕ := none
deriving DecidableEq, Repr

def attempt (s : PersistentStore) (a : Attempt) : Status × PersistentStore :=
  { s with faults := [a.fault] }.append a.type a.payload

/-- The record an attempt would write. -/
def recordOf (s : PersistentStore) (a : Attempt) : StoredRecord where
  type := a.type
  sequence := s.nextSequence
  payload := a.payload

/-- The store after attempt upon attempt. -/
def attempts (s : PersistentStore) (all : List Attempt) : PersistentStore :=
  all.foldl (fun s a => (s.attempt a).2) s

/-- The records of the attempts that were answered with success. -/
def acknowledged (s : PersistentStore) : List Attempt → List StoredRecord
  | [] => []
  | a :: rest =>
    match s.attempt a with
    | (.ok (),t) => s.recordOf a :: t.acknowledged rest
    | (.error _,t) => t.acknowledged rest

/-- An attempt that writes finds nothing left behind, and one whose write fails
leaves no valid record behind. -/
def Uncluttered (s : PersistentStore) (a : Attempt) : Prop :=
  s.checkAppend a.payload = .ok () →
    match a.fault with
    | none => s.file.length = s.sizeBytes
    | some written => Stub s.options.limits
        (s.file.drop s.sizeBytes ++ (s.recordOf a).bytes.take written)

/-- Every attempt of a run is such a one when its turn comes. -/
def AllUncluttered (s : PersistentStore) : List Attempt → Prop
  | [] => True
  | a :: rest => s.Uncluttered a ∧ (s.attempt a).2.AllUncluttered rest

instance (limits : Limits) : DecidablePred (Stub limits) :=
  fun data => inferInstanceAs (Decidable (data.length < kStoreRecordHeaderBytes ∨ _ = false))

instance (s : PersistentStore) : DecidablePred s.Uncluttered
  | { type := _, payload := payload, fault := none } =>
    inferInstanceAs (Decidable (s.checkAppend payload = .ok () → s.file.length = s.sizeBytes))
  | { type := type, payload := payload, fault := some written } =>
    inferInstanceAs (Decidable (s.checkAppend payload = .ok () →
      Stub s.options.limits (s.file.drop s.sizeBytes ++ List.take written
        (s.recordOf { type := type, payload := payload, fault := some written }).bytes)))

instance decidableAllUncluttered (s : PersistentStore) :
    (all : List Attempt) → Decidable (s.AllUncluttered all)
  | [] => inferInstanceAs (Decidable True)
  | a :: rest =>
    have := decidableAllUncluttered (s.attempt a).2 rest
    inferInstanceAs (Decidable (s.Uncluttered a ∧ (s.attempt a).2.AllUncluttered rest))

/-- Everything an attempt can do: be refused, fail half way, or write its record. -/
theorem attempt_cases (s : PersistentStore) (a : Attempt) :
    (∃ e, s.checkAppend a.payload = .error e ∧
      s.attempt a = (.error e,{ s with faults := [a.fault] })) ∨
    (s.checkAppend a.payload = .ok () ∧ ∃ written e, a.fault = some written ∧
      s.attempt a = (.error e,
        { s with file := s.file ++ (s.recordOf a).bytes.take written, faults := [] })) ∨
    (s.checkAppend a.payload = .ok () ∧ a.fault = none ∧
      s.attempt a = (.ok (),
        { s with
          file := s.file ++ (s.recordOf a).bytes
          faults := []
          recordCount := s.recordCount + 1
          sizeBytes := s.sizeBytes + (kStoreRecordHeaderBytes + a.payload.length)
          nextSequence := s.nextSequence + 1 })) := by
  have hsame : { s with faults := [a.fault] }.checkAppend a.payload =
    s.checkAppend a.payload := rfl
  unfold attempt append
  rw [hsame]
  cases hcheck : s.checkAppend a.payload with
  | error e => exact Or.inl ⟨e,rfl,rfl⟩
  | ok _ =>
    cases hfault : a.fault with
    | some written => exact Or.inr (Or.inl ⟨rfl,written,_,rfl,rfl⟩)
    | none => exact Or.inr (Or.inr ⟨rfl,rfl,rfl⟩)

/-- An attempt adds its record where it is answered with success, and otherwise
leaves the records as they were. -/
theorem Keeps.attempt {s : PersistentStore} {first debris : ByteString}
    {records : List StoredRecord} (h : s.Keeps limits first records debris)
    (hlimits : limits.maxStoreRecordBytes < 2 ^ 32) {a : Attempt} (ha : s.Uncluttered a) :
    ∃ first left, (s.attempt a).2.Keeps limits first (records ++ s.acknowledged [a]) left := by
  rcases s.attempt_cases a with ⟨e,-,hattempt⟩ | ⟨hcheck,written,e,hfault,hattempt⟩ |
    ⟨hcheck,hfault,hattempt⟩
  · refine ⟨first,debris,?_⟩
    simp only [acknowledged, hattempt, List.append_nil]
    exact ⟨h.options,h.file,h.whole,h.stub,h.size,h.count,h.bounded⟩
  · have hstub := ha hcheck
    simp only [hfault, h.debris_eq, h.options] at hstub
    obtain ⟨header,husable,hfile⟩ := h.file
    refine ⟨first,debris ++ (s.recordOf a).bytes.take written,?_⟩
    simp only [acknowledged, hattempt, List.append_nil]
    refine ⟨h.options,⟨header,husable,?_⟩,h.whole,hstub,h.size,h.count,h.bounded⟩
    simp only [hfile, List.append_assoc]
  · have hclean := ha hcheck
    simp only [hfault] at hclean
    obtain rfl : debris = [] := by
      rw [← List.length_eq_zero_iff]
      have hlength := h.length_file
      omega
    refine ⟨first ++ (s.recordOf a).bytes,[],?_⟩
    simp only [acknowledged, hattempt]
    exact h.written hlimits hcheck a.type _ ⟨rfl,rfl,rfl,rfl⟩

theorem acknowledged_cons (s : PersistentStore) (a : Attempt) (rest : List Attempt) :
    s.acknowledged (a :: rest) = s.acknowledged [a] ++ (s.attempt a).2.acknowledged rest := by
  simp only [acknowledged]
  split <;> simp_all

/-- So do attempts one after the other. -/
theorem Keeps.attempts {all : List Attempt} {s : PersistentStore} {first debris : ByteString}
    {records : List StoredRecord} (h : s.Keeps limits first records debris)
    (hlimits : limits.maxStoreRecordBytes < 2 ^ 32) (hall : s.AllUncluttered all) :
    ∃ first left, (s.attempts all).Keeps limits first (records ++ s.acknowledged all) left := by
  induction all generalizing s first debris records with
  | nil => exact ⟨first,debris,by rwa [acknowledged, List.append_nil]⟩
  | cons a rest ih =>
    obtain ⟨ha,hrest⟩ := hall
    obtain ⟨first,debris,hnext⟩ := h.attempt hlimits ha
    obtain ⟨last,left,hkeeps⟩ := ih hnext hrest
    refine ⟨last,left,?_⟩
    rw [acknowledged_cons, ← List.append_assoc]
    exact hkeeps

/-- Whatever appends of a store fail half way, reopening it yields its records and
the acknowledged ones behind them, in order, where nothing is written behind what a
failed append left and that is no valid record. -/
theorem acknowledged_appends_survive {path : String} {now : TimePoint}
    {content : Option ByteString} {s : PersistentStore}
    (hopen : (open_ path { limits := limits } now content).1 = .ok s) {all : List Attempt}
    (hall : s.AllUncluttered all) {later : TimePoint} (hlater : later.isSet = true) :
    ∃ held reopened, s.readAll = .ok held ∧
      open_ path { limits := limits } later (some (s.attempts all).file) =
        (.ok reopened,some reopened.file) ∧
      reopened.readAll = .ok (held ++ s.acknowledged all) := by
  obtain ⟨hlimits,first,held,hkeeps⟩ := keeps_of_open hopen
  have hbytes : limits.maxStoreRecordBytes < 2 ^ 32 := (Limits.lt_of_validate hlimits).2.2.2.2
  obtain ⟨last,left,hleft⟩ := hkeeps.attempts hbytes hall
  obtain ⟨header,husable,hfile⟩ := hleft.file
  obtain ⟨reopened,hreopen,hreopened,-⟩ :=
    open_stubbed hlimits hlater husable hleft.whole hleft.bounded hleft.stub path
  exact ⟨held,reopened,hkeeps.readAll,hfile ▸ hreopen,hreopened.readAll⟩

/-- A record, and another one whose write stops inside its header. -/
def wholeThenTorn : List Attempt :=
  [{ type := .marker, payload := [1,2,3] },
    { type := .evidence, payload := [], fault := some 10 }]

/-- The torn record is cut off and the whole one is kept. -/
theorem whole_then_torn_survives : ∃ s, newStore = .ok s ∧ ∃ held reopened,
    s.readAll = .ok held ∧
    open_ "store" {} ⟨2⟩ (some (s.attempts wholeThenTorn).file) =
      (.ok reopened,some reopened.file) ∧
    reopened.readAll = .ok (held ++ s.acknowledged wholeThenTorn) := by
  have hevaluated : newStore.toOption.map (fun s => decide (s.AllUncluttered wholeThenTorn)) =
      some true := by decide +kernel
  obtain ⟨s,hs,hall⟩ := Option.map_eq_some_iff.mp hevaluated
  rw [toOption_eq_some_iff] at hs
  exact ⟨s,hs,acknowledged_appends_survive hs (of_decide_eq_true hall)
    (show (⟨2⟩ : TimePoint).isSet = true by decide)⟩

/-- A write that stops inside the header of its record, and then a whole record. -/
def tornThenWhole : List Attempt :=
  [{ type := .marker, payload := [1,2,3], fault := some 10 },{ type := .evidence, payload := [] }]

/-- The acknowledged record lies behind the torn one and is gone after reopening. -/
theorem torn_append_loses_next : ∃ s reopened, newStore = .ok s ∧ s.readAll = .ok [] ∧
    s.acknowledged tornThenWhole = [{ type := .evidence, sequence := 1, payload := [] }] ∧
    (open_ "store" {} ⟨2⟩ (some (s.attempts tornThenWhole).file)).1 = .ok reopened ∧
    reopened.readAll = .ok [] := by
  have hevaluated : newStore.toOption.map (fun s => (s.readAll.toOption,
      s.acknowledged tornThenWhole,
      (open_ "store" {} ⟨2⟩ (some (s.attempts tornThenWhole).file)).1.toOption.map
        (·.readAll.toOption))) =
      some (some [],[{ type := .evidence, sequence := 1, payload := [] }],some (some [])) := by
    decide +kernel
  obtain ⟨s,hs,hrun⟩ := Option.map_eq_some_iff.mp hevaluated
  simp only [Prod.mk.injEq, Option.map_eq_some_iff, toOption_eq_some_iff] at hs hrun
  obtain ⟨hread,hacknowledged,reopened,hreopened,hempty⟩ := hrun
  exact ⟨s,reopened,hs,hread,hacknowledged,hreopened,hempty⟩

end PersistentStore

end PathObservatory
