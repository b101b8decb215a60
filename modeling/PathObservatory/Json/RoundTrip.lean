import PathObservatory.Json.Decimal
import PathObservatory.Json.Exact

/-! # What is written is read back

Every text that the writer makes of a well formed value is a text of the grammar
that denotes the value, in the compact and in the pretty form.
-/
namespace PathObservatory

namespace Json
variable {text : ByteString} {chars : List Char}

theorem escapeByte_of_ge {b : UInt8} (h : 0x80 ≤ b.toNat) : JsonValue.escapeByte b = [b] := by
  obtain ⟨hcontrol,hquote,hescape⟩ := raw_of_toNat_ge h
  rw [JsonValue.escapeByte, if_neg (not_or.mpr ⟨hquote,hescape⟩),
    if_neg (UInt8.not_lt.mpr hcontrol)]

/-- The digits of a control byte in its long form. -/
theorem hexDigits_control (b : UInt8) (h : b < 0x20) :
    hexDigits 0 [0x30,0x30,JsonValue.hexDigit ((b >>> 4) &&& 0x0F),
      JsonValue.hexDigit (b &&& 0x0F)] = some b.toUInt32 := by
  revert b
  refine forall_byte ?_
  decide +kernel

theorem shortEscape_mem (b short : UInt8) (h : JsonValue.shortEscape b = some short) :
    (short,Char.ofNat b.toNat) ∈ shortEscapes := by
  unfold JsonValue.shortEscape at h
  split_ifs at h with h1 h2 h3 h4 h5
  all_goals
    obtain rfl := Option.some.inj h
    subst b
    decide

/-- An ASCII character is escaped to a text that denotes it. -/
theorem stringChar_escapeByte {c : Char} {b : UInt8} (hbyte : b.toNat = c.toNat)
    (hascii : b.toNat < 0x80) (hc : String.utf8EncodeChar c = [b]) :
    StringChar (JsonValue.escapeByte b) c := by
  have hchar : Char.ofNat b.toNat = c := by rw [hbyte, Char.ofNat_toNat]
  unfold JsonValue.escapeByte
  split_ifs with hspecial hcontrol
  · refine .escaped (.short ?_)
    rcases hspecial with rfl | rfl
    · rw [← hchar]
      decide
    · rw [← hchar]
      decide
  · cases hshort : JsonValue.shortEscape b with
    | some short =>
      have hmem := shortEscape_mem b short hshort
      rw [hchar] at hmem
      exact .escaped (.short hmem)
    | none =>
      have hword := hexDigits_four.mp (hexDigits_control b hcontrol)
      rw [UInt8.toNat_toUInt32, hbyte] at hword
      exact .escaped (.unicode hword)
  · rw [not_or] at hspecial
    rw [← hc]
    have hquote := mt UInt8.toNat_inj.mp hspecial.1
    have hescape := mt UInt8.toNat_inj.mp hspecial.2
    simp only [UInt8.lt_iff_toNat_lt, UInt8.reduceToNat] at hcontrol hquote hescape
    exact .unescaped (by omega) (by omega) (by omega)

theorem stringChar_escape (c : Char) :
    StringChar ((String.utf8EncodeChar c).flatMap JsonValue.escapeByte) c := by
  obtain ⟨lead,rest,heq,-,hrest,hlead⟩ := Utf8.exists_lead c
  rcases hlead with ⟨hascii,rfl,hvalue⟩ | ⟨hlead,hvalue⟩
  · rw [heq, List.flatMap_singleton]
    exact stringChar_escapeByte hvalue hascii heq
  · have hplain : (String.utf8EncodeChar c).flatMap JsonValue.escapeByte =
        String.utf8EncodeChar c := by
      refine (List.flatMap_congr (fun b hb => escapeByte_of_ge ?_)).trans (List.flatMap_singleton' _)
      rw [heq] at hb
      rcases List.mem_cons.mp hb with rfl | hb
      · exact hlead
      · exact (hrest b hb).1
    rw [hplain]
    exact .unescaped (by omega) (by omega) (by omega)

/-- The writer makes of a text a string that denotes it. -/
theorem stringText_escape (chars : List Char) :
    StringText (JsonValue.escape (Utf8.encode chars)) chars := by
  refine .intro ?_
  induction chars with
  | nil => exact .nil
  | cons c chars ih =>
    rw [Utf8.encode_cons, List.flatMap_append]
    exact .cons (stringChar_escape c) ih

theorem whitespace_newline (pretty : Bool) (indent : ℕ) :
    Whitespace (JsonValue.newline pretty indent) := by
  intro c hc
  cases pretty with
  | false => cases hc
  | true =>
    rcases List.mem_cons.mp hc with rfl | hc
    · simp
    · exact Or.inl (List.eq_of_mem_replicate hc)

end Json

namespace JsonValue
variable {pretty : Bool} {indent : ℕ} {text : ByteString}

/-- A value made of what the writer is given. -/
inductive Built : JsonValue → Prop
  | null : Built .null
  | boolean (value : Bool) : Built (.boolean value)
  | int64 (value : Int64) : Built (makeNumber value)
  | uint64 (value : UInt64) : Built (makeNumberUnsigned value)
  | lexeme {text : ByteString} (h : Json.NumberText text) : Built (.number text)
  | string {text : ByteString} (h : Json.isValidUtf8 text = true) : Built (.string text)
  | array {items : List JsonValue} (h : ∀ item ∈ items, Built item) : Built (.array items)
  | object {fields : List (ByteString × JsonValue)} (hkeys : (fields.map Prod.fst).Nodup)
      (htexts : ∀ field ∈ fields, Json.isValidUtf8 field.1 = true)
      (h : ∀ field ∈ fields, Built field.2) : Built (.object fields)

theorem numberText_makeNumber (value : Int64) :
    ∃ text, makeNumber value = .number text ∧ Json.NumberText text := by
  refine ⟨_,rfl,?_⟩
  split_ifs
  · exact Json.numberText_minus_decimal _
  · exact Json.numberText_decimal _

theorem dumpInto_number (h : Json.NumberText text) :
    Json.ValueText (dumpInto pretty indent (.number text)) (.number text) := by
  obtain ⟨c,more,rfl,-⟩ := h.exists_head
  exact .number h

/-- The items of an array, each on a line of its own in the pretty form. -/
theorem separated_dumpItems {item : JsonValue} {items : List JsonValue}
    (h : ∀ v ∈ item :: items,
      Json.ValueText (dumpInto pretty (indent + 2) v) v) :
    Json.Separated Json.ValueText (newline pretty (indent + 2) ++
      dumpInto pretty (indent + 2) item ++
      (dumpItems pretty indent items ++ newline pretty indent)) (item :: items) := by
  have hindent := Json.whitespace_newline pretty (indent + 2)
  induction items generalizing item with
  | nil =>
    exact .last hindent (h item List.mem_cons_self) (Json.whitespace_newline pretty indent)
  | cons next items ih =>
    obtain ⟨hitem,hrest⟩ := List.forall_mem_cons.mp h
    have hcons := Json.Separated.cons hindent hitem Json.whitespace_nil (ih hrest)
    rw [dumpItems]
    simpa only [List.append_assoc, List.nil_append, List.cons_append, List.append_nil] using hcons

theorem memberText_dump {key : ByteString} {value : JsonValue}
    (hkey : Json.isValidUtf8 key = true)
    (hvalue : Json.ValueText (dumpInto pretty (indent + 2) value) value) :
    Json.MemberText Json.ValueText (escape key ++ [0x3A] ++
      (if pretty then [0x20] else []) ++ dumpInto pretty (indent + 2) value) (key,value) := by
  obtain ⟨chars,rfl⟩ := (Json.isValidUtf8_iff key).mp hkey
  have hspace : Json.Whitespace (if pretty then [0x20] else []) := by
    cases pretty with
    | false => exact Json.whitespace_nil
    | true => exact List.forall_mem_singleton.mpr (Or.inl rfl)
  have hmember := Json.MemberText.intro (Json.stringText_escape chars) Json.whitespace_nil hspace
    hvalue
  simpa only [List.append_assoc, List.nil_append, List.cons_append, List.append_nil,
    List.singleton_append] using hmember

theorem separated_dumpFields {key : ByteString} {value : JsonValue}
    {fields : List (ByteString × JsonValue)}
    (hkeys : ∀ field ∈ (key,value) :: fields, Json.isValidUtf8 field.1 = true)
    (h : ∀ field ∈ (key,value) :: fields,
      Json.ValueText (dumpInto pretty (indent + 2) field.2) field.2) :
    Json.Separated (Json.MemberText Json.ValueText) (newline pretty (indent + 2) ++
      (escape key ++ [0x3A] ++ (if pretty then [0x20] else []) ++
        dumpInto pretty (indent + 2) value) ++
      (dumpFields pretty indent fields ++ newline pretty indent)) ((key,value) :: fields) := by
  have hindent := Json.whitespace_newline pretty (indent + 2)
  induction fields generalizing key value with
  | nil =>
    have hmember := memberText_dump (hkeys _ List.mem_cons_self) (h _ List.mem_cons_self)
    exact .last hindent hmember (Json.whitespace_newline pretty indent)
  | cons next fields ih =>
    obtain ⟨name,member⟩ := next
    obtain ⟨hkey,hkeys⟩ := List.forall_mem_cons.mp hkeys
    obtain ⟨hvalue,hrest⟩ := List.forall_mem_cons.mp h
    have hcons := Json.Separated.cons hindent (memberText_dump hkey hvalue) Json.whitespace_nil
      (ih hkeys hrest)
    rw [dumpFields]
    simpa only [List.append_assoc, List.nil_append, List.cons_append, List.append_nil] using hcons

/-- The writer makes of a value a text that denotes it. -/
theorem Built.valueText {value : JsonValue} (h : value.Built) (pretty : Bool) (indent : ℕ) :
    Json.ValueText (dumpInto pretty indent value) value := by
  induction h generalizing indent with
  | null => exact .literalNull
  | boolean value =>
    cases value with
    | false => exact .literalFalse
    | true => exact .literalTrue
  | int64 value =>
    obtain ⟨text,heq,htext⟩ := numberText_makeNumber value
    rw [heq]
    exact dumpInto_number htext
  | uint64 value => exact dumpInto_number (Json.numberText_decimal _)
  | lexeme h => exact dumpInto_number h
  | string h =>
    obtain ⟨chars,rfl⟩ := (Json.isValidUtf8_iff _).mp h
    exact .string (Json.stringText_escape chars)
  | @array items h ih =>
    cases items with
    | nil => exact .emptyArray Json.whitespace_nil
    | cons item items =>
      have harray := Json.ValueText.array
        (separated_dumpItems (fun v hv => ih v hv (indent + 2)))
      rw [dumpInto]
      simpa only [List.append_assoc, List.nil_append, List.cons_append] using harray
  | @object fields hkeys htexts h ih =>
    cases fields with
    | nil => exact .emptyObject Json.whitespace_nil
    | cons field fields =>
      obtain ⟨key,value⟩ := field
      have hobject := Json.ValueText.object
        (separated_dumpFields htexts (fun v hv => ih v hv (indent + 2)))
      rw [dumpInto]
      simpa only [List.append_assoc, List.nil_append, List.cons_append] using hobject

theorem keysDistinct_leaf {value : JsonValue} (hself : value.nodes = [value])
    (hkeys : value.keys = []) : value.KeysDistinct := by
  intro node hnode
  rw [hself, List.mem_singleton] at hnode
  rw [hnode, hkeys]
  exact List.nodup_nil

theorem Built.keysDistinct {value : JsonValue} (h : value.Built) : value.KeysDistinct := by
  induction h with
  | null | boolean _ | int64 _ | uint64 _ | lexeme _ | string _ => exact keysDistinct_leaf rfl rfl
  | array _ ih => exact forall_mem_nodes_array.mpr ⟨List.nodup_nil,ih⟩
  | object hkeys _ _ ih => exact forall_mem_nodes_object.mpr ⟨hkeys,ih⟩

/-- What is written is read back, within the bounds of the reader. -/
theorem parse_dump (value : JsonValue) (pretty : Bool) (limits : Limits) (h : value.Built)
    (hwithin : value.Within limits (value.dump pretty)) :
    parse (value.dump pretty) limits = .ok value := by
  have hdocument := Json.DocumentText.intro Json.whitespace_nil (h.valueText pretty 0)
    Json.whitespace_nil
  rw [List.nil_append, List.append_nil] at hdocument
  exact parse_complete hdocument h.keysDistinct hwithin

/-- An object whose second key needs escaping, with a nested array. -/
def sampleValue : JsonValue :=
  .object [([0x61],makeNumber (-7)),([0x22,0x0A,0xC3,0xA9],.array [.boolean true,.null])]

theorem sampleValue_built : sampleValue.Built := by
  refine .object (by decide) (by decide) ?_
  simp only [List.forall_mem_cons, List.not_mem_nil, false_imp_iff, implies_true, and_true]
  refine ⟨.int64 (-7),.array ?_⟩
  simp only [List.forall_mem_cons, List.not_mem_nil, false_imp_iff, implies_true, and_true]
  exact ⟨.boolean true,.null⟩

theorem sampleValue_within : sampleValue.Within {} (sampleValue.dump true) :=
  ⟨by decide +kernel,by decide,by decide,by decide⟩

theorem parse_dump_sample : parse (sampleValue.dump true) {} = .ok sampleValue :=
  parse_dump sampleValue true {} sampleValue_built sampleValue_within

end JsonValue

end PathObservatory
