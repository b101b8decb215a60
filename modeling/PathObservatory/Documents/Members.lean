import PathObservatory.Documents.Names
import PathObservatory.Documents.Timestamps
import PathObservatory.Json.RoundTrip

/-! # Members of a document

The readers say what they require and what is optional, with a null standing for
an absent member. What a writer sets under a key is what a reader finds there.
-/
namespace PathObservatory

namespace Documents
variable {α : Type} {tag : IdTag}

def requireMember (object : JsonValue) (key : String) : Result JsonValue := do
  require object.isObject
    { code := .invalidFormat, message := "document node is not an object" }
  match object.find (bytesOf key) with
  | some value => return value
  | none =>
    throw { code := .invalidFormat,
            message := "document is missing a required member: " ++ key }

def optionalMember (object : JsonValue) (key : String) : Option JsonValue :=
  if object.isObject then object.find (bytesOf key) else none

def notANumber (key : String) : Error :=
  { code := .invalidFormat, message := "member is not a number: " ++ key }

def notAString (key : String) : Error :=
  { code := .invalidFormat, message := "member is not a string: " ++ key }

/-- Read an optional member; an absent one and a null give the fallback. -/
def optionally (object : JsonValue) (key : String) (fallback : α)
    (read : JsonValue → Result α) : Result α :=
  match optionalMember object key with
  | none => .ok fallback
  | some value => if value.isNull then .ok fallback else read value

def readU64 (key : String) (value : JsonValue) : Result UInt64 := do
  require value.isNumber (notANumber key)
  value.asU64

def readText (key : String) (value : JsonValue) : Result ByteString := do
  require value.isString (notAString key)
  return value.asString

def requireU64 (object : JsonValue) (key : String) : Result UInt64 := do
  readU64 key (← requireMember object key)

def optionalU64 (object : JsonValue) (key : String) (fallback : UInt64) : Result UInt64 :=
  optionally object key fallback (readU64 key)

def requireText (object : JsonValue) (key : String) : Result ByteString := do
  readText key (← requireMember object key)

def optionalText (object : JsonValue) (key : String) (fallback : ByteString) :
    Result ByteString :=
  optionally object key fallback (readText key)

def optionalBoolean (object : JsonValue) (key : String) (fallback : Bool) : Result Bool :=
  optionally object key fallback JsonValue.asBoolChecked

def requireTime (object : JsonValue) (key : String) : Result TimePoint := do
  TimePoint.parseRfc3339 (← requireText object key)

def optionalTime (object : JsonValue) (key : String) (fallback : TimePoint) :
    Result TimePoint :=
  optionally object key fallback fun value => do
    require value.isString
      { code := .invalidFormat, message := "member is not a timestamp: " ++ key }
    TimePoint.parseRfc3339 value.asString

def checkKind (object : JsonValue) (expected : String) : Status := do
  let kind ← requireText object "kind"
  require (kind = bytesOf expected)
    { code := .invalidFormat, message := "document kind does not match",
      detail := Json.spell kind }

def toId (raw : UInt64) (what : String) : Result (StrongId tag) := do
  require (raw ≠ 0)
    { code := .invalidIdentity, message := "identity must not be zero: " ++ what }
  return ⟨raw⟩

/-- A required identity. -/
def requireId (object : JsonValue) (key what : String) : Result (StrongId tag) := do
  toId (← requireU64 object key) what

/-- A referenced identity, where zero is absence. -/
def optionalId (object : JsonValue) (key : String) : Result (MaybeId tag) := do
  let raw ← optionalU64 object key 0
  return if raw ≠ 0 then ⟨⟨raw⟩⟩ else {}

def optionalDevice (object : JsonValue) (key : String) : Result (MaybeId .device) :=
  optionalId object key

/-- The items of an array within a bound. -/
def boundedItems (value : JsonValue) (bound : ℕ) (notArray exceeded : String) :
    Result (List JsonValue) := do
  require value.isArray { code := .invalidFormat, message := notArray }
  require (value.items.length ≤ bound) { code := .capacityExceeded, message := exceeded }
  return value.items

/-- The items of an array that may be absent. -/
def optionalItems (object : JsonValue) (key : String) (bound : ℕ)
    (notArray exceeded : String) : Result (List JsonValue) :=
  match optionalMember object key with
  | none => .ok []
  | some value => boundedItems value bound notArray exceeded

@[simp] def setString (object : JsonValue) (key : String) (value : ByteString) : JsonValue :=
  object.set (bytesOf key) (.string value)

@[simp] def setBool (object : JsonValue) (key : String) (value : Bool) : JsonValue :=
  object.set (bytesOf key) (.boolean value)

@[simp] def setU64 (object : JsonValue) (key : String) (value : UInt64) : JsonValue :=
  object.set (bytesOf key) (JsonValue.makeNumberUnsigned value)

@[simp] def setTime (object : JsonValue) (key : String) (value : TimePoint) : JsonValue :=
  object.set (bytesOf key) (.string value.toRfc3339)

/-- An array that the items are pushed to in turn. -/
def makeArray (items : List JsonValue) : JsonValue := items.foldl JsonValue.pushBack (.array [])

@[simp] def setArray (object : JsonValue) (key : String) (items : List JsonValue) : JsonValue :=
  object.set (bytesOf key) (makeArray items)

/-- A member that is written only under a condition. -/
def setIf (condition : Bool) (object : JsonValue) (key : String) (member : JsonValue) :
    JsonValue :=
  if condition then object.set (bytesOf key) member else object

section Reading
variable {object value : JsonValue} {key : String}

theorem makeArray_eq (items : List JsonValue) : makeArray items = .array items := by
  have hfold : ∀ held, items.foldl JsonValue.pushBack (.array held) = .array (held ++ items) := by
    induction items with
    | nil => intro held; rw [List.append_nil]; rfl
    | cons item items ih =>
      intro held
      rw [List.foldl_cons, JsonValue.pushBack, ih, List.append_assoc, List.singleton_append]
  rw [makeArray, hfold, List.nil_append]

theorem findField_setField (key name : ByteString) (value : JsonValue)
    (fields : List (ByteString × JsonValue)) :
    JsonValue.findField key (JsonValue.setField name value fields) =
      if name = key then some value else JsonValue.findField key fields := by
  induction fields with
  | nil => rfl
  | cons field fields ih =>
    obtain ⟨held,old⟩ := field
    by_cases hname : held = name
    · rw [JsonValue.setField, if_pos hname, JsonValue.findField, JsonValue.findField, hname]
      split_ifs <;> rfl
    · rw [JsonValue.setField, if_neg hname, JsonValue.findField, JsonValue.findField, ih]
      split_ifs with h1 h2
      · exact absurd (h1.trans h2.symm) hname
      · rfl
      · rfl
      · rfl

/-- What is set under a key is found there, and nothing else changes. -/
@[simp] theorem find_set (object value : JsonValue) (name key : String) :
    (object.set (bytesOf name) value).find (bytesOf key) =
      if name = key then some value else object.find (bytesOf key) := by
  have hkey : bytesOf name = bytesOf key ↔ name = key := bytesOf_injective.eq_iff
  cases object with
  | object fields => simp only [JsonValue.set, JsonValue.find, findField_setField, hkey]
  | null | boolean _ | number _ | string _ | array _ =>
    simp only [JsonValue.set, JsonValue.find, JsonValue.findField, hkey]

@[simp] theorem find_setIf (condition : Bool) (object member : JsonValue) (name key : String) :
    (setIf condition object name member).find (bytesOf key) =
      if name = key then (if condition then some member else object.find (bytesOf key))
      else object.find (bytesOf key) := by
  unfold setIf
  split_ifs with hcondition hname hname
  · rw [find_set, if_pos hname]
  · rw [find_set, if_neg hname]
  · rfl
  · rfl

/-- No member is found in an object that has none. -/
@[simp] theorem find_makeObject (key : String) : (JsonValue.object []).find (bytesOf key) = none := rfl

theorem isObject_set (object value : JsonValue) (key : ByteString) :
    (object.set key value).isObject = true := by
  cases object <;> rfl

theorem find_eq_none_of_not_isObject (h : object.isObject = false) (key : ByteString) :
    object.find key = none := by
  cases object with
  | object fields => cases h
  | null | boolean _ | number _ | string _ | array _ => rfl

theorem optionalMember_eq (object : JsonValue) (key : String) :
    optionalMember object key = object.find (bytesOf key) := by
  unfold optionalMember
  split_ifs with h
  · rfl
  · exact (find_eq_none_of_not_isObject (by simpa using h) _).symm

theorem requireMember_of_find (h : object.find (bytesOf key) = some value) :
    requireMember object key = .ok value := by
  have hobject : object.isObject = true := by
    by_contra hobject
    rw [find_eq_none_of_not_isObject (by simpa using hobject)] at h
    cases h
  rw [requireMember, hobject, h]
  rfl

theorem optionally_of_none {read : JsonValue → Result α} {fallback : α}
    (h : object.find (bytesOf key) = none) :
    optionally object key fallback read = .ok fallback := by
  rw [optionally, optionalMember_eq, h]

theorem optionally_of_find {read : JsonValue → Result α} {fallback : α}
    (h : object.find (bytesOf key) = some value) (hnull : value.isNull = false) :
    optionally object key fallback read = read value := by
  rw [optionally, optionalMember_eq, h]
  simp only [hnull, Bool.false_eq_true, if_false]

theorem readU64_makeNumberUnsigned (key : String) (raw : UInt64) :
    readU64 key (JsonValue.makeNumberUnsigned raw) = .ok raw := by
  rw [readU64, JsonValue.asU64_makeNumberUnsigned]
  rfl

theorem requireU64_of_find {raw : UInt64}
    (h : object.find (bytesOf key) = some (JsonValue.makeNumberUnsigned raw)) :
    requireU64 object key = .ok raw := by
  rw [requireU64, requireMember_of_find h]
  exact readU64_makeNumberUnsigned key raw

theorem toId_of_valid {id : StrongId tag} (h : id.valid = true) (what : String) :
    toId id.value what = .ok id := by
  rw [toId, decide_eq_true (bne_iff_ne.mp h)]
  rfl

theorem requireId_of_find {id : StrongId tag} {what : String} (hvalid : id.valid = true)
    (h : object.find (bytesOf key) = some (JsonValue.makeNumberUnsigned id.value)) :
    requireId object key what = .ok id := by
  rw [requireId, requireU64_of_find h]
  exact toId_of_valid hvalid what

theorem optionalU64_of_find {raw fallback : UInt64}
    (h : object.find (bytesOf key) = some (JsonValue.makeNumberUnsigned raw)) :
    optionalU64 object key fallback = .ok raw := by
  rw [optionalU64, optionally_of_find h rfl, readU64_makeNumberUnsigned]

theorem requireText_of_find {text : ByteString}
    (h : object.find (bytesOf key) = some (.string text)) :
    requireText object key = .ok text := by
  rw [requireText, requireMember_of_find h]
  rfl

theorem checkKind_of_find {expected : String}
    (h : object.find (bytesOf "kind") = some (.string (bytesOf expected))) :
    checkKind object expected = .ok () := by
  rw [checkKind, requireText_of_find h]
  exact require_eq_ok.mpr (decide_eq_true rfl)

theorem optionalText_of_find {text fallback : ByteString}
    (h : object.find (bytesOf key) = some (.string text)) :
    optionalText object key fallback = .ok text := by
  rw [optionalText, optionally_of_find h rfl]
  rfl

theorem optionalBoolean_of_find {flag fallback : Bool}
    (h : object.find (bytesOf key) = some (.boolean flag)) :
    optionalBoolean object key fallback = .ok flag := by
  rw [optionalBoolean, optionally_of_find h rfl]
  rfl

theorem requireTime_of_find {text : ByteString}
    (h : object.find (bytesOf key) = some (.string text)) :
    requireTime object key = TimePoint.parseRfc3339 text := by
  rw [requireTime, requireText_of_find h]
  rfl

theorem optionalTime_of_find {text : ByteString} {fallback : TimePoint}
    (h : object.find (bytesOf key) = some (.string text)) :
    optionalTime object key fallback = TimePoint.parseRfc3339 text := by
  rw [optionalTime, optionally_of_find h rfl]
  rfl

/-- A number that is written only when it is not zero is read with zero as its
fallback. -/
theorem optionalU64_of_find_if {raw : UInt64}
    (h : object.find (bytesOf key) =
      if raw != 0 then some (JsonValue.makeNumberUnsigned raw) else none) :
    optionalU64 object key 0 = .ok raw := by
  by_cases hzero : raw = 0
  · subst hzero
    exact optionally_of_none h
  · rw [if_pos (bne_iff_ne.mpr hzero)] at h
    exact optionalU64_of_find h

theorem optionalId_of_find {id : MaybeId tag}
    (h : object.find (bytesOf key) =
      if id.present then some (JsonValue.makeNumberUnsigned id.value.value) else none) :
    optionalId object key = .ok id := by
  rw [optionalId, optionalU64_of_find_if h]
  show Except.ok (if id.value.value ≠ 0 then ⟨⟨id.value.value⟩⟩ else {}) = .ok id
  by_cases hzero : id.value.value = 0
  · have habsent : ¬ id.present = true := by
      rw [MaybeId.present, StrongId.valid, hzero]
      decide
    rw [if_neg (not_not.mpr hzero), MaybeId.eq_absent habsent]
  · rw [if_pos hzero]

/-- An instant that is written only when it is set is read as unset otherwise. -/
theorem optionalTime_of_find_if {point : TimePoint}
    (h : object.find (bytesOf key) =
      if point.isSet then some (.string point.toRfc3339) else none) :
    optionalTime object key {} = .ok point := by
  by_cases hset : point.isSet = true
  · rw [if_pos hset] at h
    rw [optionalTime_of_find h, TimePoint.parse_toRfc3339 hset]
  · rw [if_neg hset] at h
    rw [optionalTime, optionally_of_none h, TimePoint.eq_unset hset]

theorem boundedItems_eq_ok {items read : List JsonValue} {bound : ℕ}
    {notArray exceeded : String} :
    boundedItems (makeArray items) bound notArray exceeded = .ok read ↔
      items.length ≤ bound ∧ items = read := by
  rw [makeArray_eq]
  simp only [boundedItems, ↓require_bind_eq_ok, pure_eq_ok, decide_eq_true_eq]
  exact and_iff_right rfl

theorem optionalItems_eq_ok {items read : List JsonValue} {bound : ℕ}
    {notArray exceeded : String} (h : object.find (bytesOf key) = some (makeArray items)) :
    optionalItems object key bound notArray exceeded = .ok read ↔
      items.length ≤ bound ∧ items = read := by
  rw [optionalItems, optionalMember_eq, h]
  exact boundedItems_eq_ok

end Reading

section Writing
variable {object value : JsonValue} {key : String}

theorem map_fst_setField (key : ByteString) (value : JsonValue)
    (fields : List (ByteString × JsonValue)) :
    (JsonValue.setField key value fields).map Prod.fst =
      if key ∈ fields.map Prod.fst then fields.map Prod.fst
      else fields.map Prod.fst ++ [key] := by
  induction fields with
  | nil => rfl
  | cons field fields ih =>
    obtain ⟨name,held⟩ := field
    by_cases hname : name = key
    · rw [JsonValue.setField, if_pos hname, List.map_cons, List.map_cons,
        if_pos (hname ▸ List.mem_cons_self)]
    · have hmem : key ∈ name :: fields.map Prod.fst ↔ key ∈ fields.map Prod.fst := by
        rw [List.mem_cons, or_iff_right (Ne.symm hname)]
      rw [JsonValue.setField, if_neg hname, List.map_cons, List.map_cons, ih]
      simp only [hmem]
      split_ifs <;> rfl

theorem mem_setField {key : ByteString} {fields : List (ByteString × JsonValue)}
    {field : ByteString × JsonValue} (h : field ∈ JsonValue.setField key value fields) :
    field = (key,value) ∨ field ∈ fields := by
  induction fields with
  | nil => exact Or.inl (List.mem_singleton.mp h)
  | cons entry fields ih =>
    obtain ⟨name,held⟩ := entry
    rw [JsonValue.setField] at h
    split_ifs at h with hname
    · rcases List.mem_cons.mp h with rfl | h
      · exact Or.inl (by rw [hname])
      · exact Or.inr (List.mem_cons_of_mem _ h)
    · rcases List.mem_cons.mp h with rfl | h
      · exact Or.inr List.mem_cons_self
      · exact (ih h).imp_right (List.mem_cons_of_mem _)

theorem built_makeObject : (JsonValue.object []).Built :=
  .object List.nodup_nil (List.forall_mem_nil _) (List.forall_mem_nil _)

theorem built_makeArray {items : List JsonValue} (h : ∀ item ∈ items, item.Built) :
    (makeArray items).Built := by
  rw [makeArray_eq]
  exact .array h

/-- Setting a member keeps a value one that the writer is given. -/
theorem built_set (hobject : object.Built) (hvalue : value.Built) (key : String) :
    (object.set (bytesOf key) value).Built := by
  have hnew : (JsonValue.object [(bytesOf key,value)]).Built :=
    .object (List.nodup_singleton _) (List.forall_mem_singleton.mpr (isValidUtf8_bytesOf key))
      (List.forall_mem_singleton.mpr hvalue)
  cases hobject with
  | @object fields hkeys htexts hfields =>
    refine .object ?_ (fun field hfield => ?_) (fun field hfield => ?_)
    · rw [map_fst_setField]
      split_ifs with hmem
      · exact hkeys
      · exact List.nodup_append.mpr ⟨hkeys,List.nodup_singleton _,
          fun a ha b hb => by rw [List.mem_singleton.mp hb]; exact fun heq => hmem (heq ▸ ha)⟩
    · rcases mem_setField hfield with rfl | hfield
      · exact isValidUtf8_bytesOf key
      · exact htexts field hfield
    · rcases mem_setField hfield with rfl | hfield
      · exact hvalue
      · exact hfields field hfield
  | null | boolean _ | int64 _ | uint64 _ | lexeme _ | string _ | array _ => exact hnew

theorem built_setIf (hobject : object.Built) (hvalue : value.Built) (condition : Bool)
    (key : String) : (setIf condition object key value).Built := by
  unfold setIf
  split_ifs
  · exact built_set hobject hvalue key
  · exact hobject

theorem padded_ascii (width : ℕ) (value : ℤ) :
    ∀ c ∈ Rfc3339.padded width value, c.toNat < 0x80 := by
  have hdecimal : ∀ c ∈ Json.decimal value.natAbs, c.toNat < 0x80 := fun c hc =>
    (UInt8.le_iff_toNat_le.mp (Json.decimal_digits _ c hc).2).trans_lt (by decide)
  have hzeros : ∀ count, ∀ c ∈ List.replicate count (0x30 : UInt8), c.toNat < 0x80 := by
    intro count c hc
    rw [List.eq_of_mem_replicate hc]
    decide
  unfold Rfc3339.padded
  split_ifs
  · exact List.forall_mem_cons.mpr ⟨by decide,List.forall_mem_append.mpr ⟨hzeros _,hdecimal⟩⟩
  · exact List.forall_mem_append.mpr ⟨hzeros _,hdecimal⟩

theorem fractionText_ascii (fraction : ℤ) :
    ∀ c ∈ Rfc3339.fractionText fraction, c.toNat < 0x80 := by
  unfold Rfc3339.fractionText
  split_ifs
  · exact List.forall_mem_nil _
  · refine List.forall_mem_cons.mpr ⟨by decide,fun c hc => ?_⟩
    have hne : Rfc3339.padded 9 fraction ≠ [] := by
      intro hnil
      rw [hnil] at hc
      cases hc
    obtain ⟨-,count,htext⟩ := Rfc3339.exists_trimZeros hne
    exact padded_ascii 9 fraction c (htext ▸ List.mem_append_left _ hc)

theorem isValidUtf8_toRfc3339 (point : TimePoint) :
    Json.isValidUtf8 point.toRfc3339 = true := by
  unfold TimePoint.toRfc3339
  split_ifs
  · refine isValidUtf8_of_ascii ?_
    simp only [Rfc3339.civilText, List.forall_mem_append, List.forall_mem_singleton]
    and_intros
    all_goals first | exact padded_ascii _ _ | exact fractionText_ascii _ | decide
  · exact isValidUtf8_bytesOf _

end Writing

end Documents

end PathObservatory
