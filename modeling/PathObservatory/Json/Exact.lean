import PathObservatory.Json.Containers

/-! # Documents are read exactly

The reader succeeds on the texts of the grammar that are within its bounds and
have no duplicate keys, and on no others, and returns the value they denote.
-/
namespace PathObservatory

namespace JsonValue
variable {limits : Limits} {levels : ℕ} {value : JsonValue}

/-- A value that the reader takes where the given levels of nesting are left. -/
structure Fits (limits : Limits) (levels : ℕ) (value : JsonValue) : Prop where
  depth : value.depth < levels
  keys : value.KeysDistinct
  strings : ∀ node ∈ value.nodes, ∀ s ∈ node.strings, s.length ≤ limits.maxStringBytes

theorem fits_array {items : List JsonValue} :
    (array items).Fits limits (levels + 1) ↔ ∀ item ∈ items, item.Fits limits levels := by
  constructor
  · intro h item hitem
    exact ⟨depth_array_lt.mp h.depth item hitem,(forall_mem_nodes_array.mp h.keys).2 item hitem,
      (forall_mem_nodes_array.mp h.strings).2 item hitem⟩
  · intro h
    exact ⟨depth_array_lt.mpr (fun item hitem => (h item hitem).depth),
      forall_mem_nodes_array.mpr ⟨List.nodup_nil,fun item hitem => (h item hitem).keys⟩,
      forall_mem_nodes_array.mpr ⟨List.forall_mem_nil _,fun item hitem => (h item hitem).strings⟩⟩

/-- The bounds of the members of one object. -/
def FieldsFit (limits : Limits) (levels : ℕ) (fields : List (ByteString × JsonValue)) : Prop :=
  (fields.map Prod.fst).Nodup ∧
  ∀ field ∈ fields, field.1.length ≤ limits.maxStringBytes ∧ field.2.Fits limits levels

theorem fits_object {fields : List (ByteString × JsonValue)} :
    (object fields).Fits limits (levels + 1) ↔ FieldsFit limits levels fields := by
  constructor
  · intro h
    obtain ⟨hdistinct,hkeys⟩ := forall_mem_nodes_object.mp h.keys
    obtain ⟨hlengths,hstrings⟩ := forall_mem_nodes_object.mp h.strings
    exact ⟨hdistinct,fun field hfield => ⟨hlengths _ (List.mem_map_of_mem hfield),
      depth_object_lt.mp h.depth field hfield,hkeys field hfield,hstrings field hfield⟩⟩
  · rintro ⟨hdistinct,h⟩
    refine ⟨depth_object_lt.mpr (fun field hfield => (h field hfield).2.depth),
      forall_mem_nodes_object.mpr ⟨hdistinct,fun field hfield => (h field hfield).2.keys⟩,
      forall_mem_nodes_object.mpr ⟨?_,fun field hfield => (h field hfield).2.strings⟩⟩
    intro s hs
    obtain ⟨field,hfield,rfl⟩ := List.mem_map.mp hs
    exact (h field hfield).1

theorem FieldsFit.prefix {fields more : List (ByteString × JsonValue)}
    (h : FieldsFit limits levels (fields ++ more)) : FieldsFit limits levels fields := by
  obtain ⟨hdistinct,hfields⟩ := h
  rw [List.map_append] at hdistinct
  exact ⟨hdistinct.of_append_left,fun field hfield => hfields field (List.mem_append_left _ hfield)⟩

theorem findField_eq_none {key : ByteString} {fields : List (ByteString × JsonValue)} :
    findField key fields = none ↔ key ∉ fields.map Prod.fst := by
  induction fields with
  | nil => simp [findField]
  | cons field fields ih =>
    obtain ⟨name,held⟩ := field
    rw [findField]
    split_ifs with hname
    · simp [hname]
    · simp [ih, Ne.symm hname]

/-- A new member goes to the end. -/
theorem setField_of_findField {key : ByteString} {fields : List (ByteString × JsonValue)}
    (h : findField key fields = none) : setField key value fields = fields ++ [(key,value)] := by
  induction fields with
  | nil => rfl
  | cons field fields ih =>
    obtain ⟨name,held⟩ := field
    rw [findField] at h
    split_ifs at h with hname
    rw [setField, if_neg hname, ih h]
    rfl

end JsonValue

namespace Json
variable {limits : Limits} {levels : ℕ}
  {value : ParserState → Result (JsonValue × ParserState)}

/-- The reader of one value reads exactly the values that fit. -/
structure ReadsValue (limits : Limits) (levels : ℕ)
    (value : ParserState → Result (JsonValue × ParserState)) : Prop where
  sound : ∀ {state after : ParserState} {v : JsonValue}, value state = .ok (v,after) →
    ∃ text, state.rest = text ++ after.rest ∧ ValueText text v ∧ v.Fits limits levels ∧
      after.nodes = state.nodes + v.nodes.length ∧ after.nodes ≤ limits.maxJsonNodes
  complete : ∀ {text rest : ByteString} {v : JsonValue} {nodes : ℕ}, ValueText text v →
    v.Fits limits levels → nodes + v.nodes.length ≤ limits.maxJsonNodes → EndsNumber rest →
    value ⟨text ++ rest,nodes⟩ = .ok (v,⟨rest,nodes + v.nodes.length⟩)

/-- The byte that opens a value decides what the reader does. -/
theorem ValueText.exists_opening {text : ByteString} {v : JsonValue} (h : ValueText text v) :
    ∃ c more, text = c :: more ∧ isSpace c = false ∧ c ≠ 0x5D := by
  cases h with
  | literalNull | literalTrue | literalFalse => exact ⟨_,_,rfl,rfl,by decide⟩
  | number h =>
    obtain ⟨c,more,rfl,rfl | hdigit⟩ := h.exists_head
    · exact ⟨_,_,rfl,rfl,by decide⟩
    · have hdigit := isDigit_iff.mp hdigit
      refine ⟨c,more,rfl,?_,hdigit.ne (by decide)⟩
      rw [← Bool.not_eq_true, isSpace_iff]
      rintro (rfl | rfl | rfl | rfl) <;> exact absurd hdigit (by decide)
  | string h =>
    obtain ⟨h⟩ := h
    exact ⟨_,_,rfl,rfl,by decide⟩
  | emptyArray _ | array _ | emptyObject _ | object _ => exact ⟨_,_,rfl,rfl,by decide⟩

theorem StringText.exists_opening {text : ByteString} {chars : List Char}
    (h : StringText text chars) : ∃ more, text = 0x22 :: more := by
  obtain ⟨h⟩ := h
  exact ⟨_,rfl⟩

theorem ReadsValue.element (h : ReadsValue limits levels value) :
    ReadsEntry limits 0x5D (parseElement value) ValueText (fun item => item.nodes.length)
      (fun items => ∀ item ∈ items, item.Fits limits levels) where
  sound := by
    intro items state result after hitems hread
    obtain ⟨⟨item,next⟩,hvalue,hresult⟩ := bind_eq_ok.mp hread
    obtain ⟨rfl,rfl⟩ := Prod.mk.inj (pure_eq_ok.mp hresult)
    obtain ⟨text,htext,hrelation,hfits,hnodes,hmax⟩ := h.sound hvalue
    exact ⟨text,item,htext,hrelation,rfl,
      List.forall_mem_append.mpr ⟨hitems,List.forall_mem_singleton.mpr hfits⟩,hnodes,hmax⟩
  complete := by
    intro items text item rest nodes hrelation hitems hnodes hrest
    have hfits := hitems item (by simp)
    exact bind_eq_ok.mpr ⟨_,h.complete hrelation hfits hnodes hrest,rfl⟩
  opens := ValueText.exists_opening
  prefixes := fun hall item hitem => hall item (List.mem_append_left _ hitem)

theorem ReadsValue.member (h : ReadsValue limits levels value) :
    ReadsEntry limits 0x7D (parseMember limits value) (MemberText ValueText)
      (fun field => field.2.nodes.length) (JsonValue.FieldsFit limits levels) where
  sound := by
    intro fields state result after hfields hread
    obtain ⟨hquote,hread⟩ := require_bind_eq_ok.mp hread
    obtain ⟨⟨key,afterKey⟩,hkey,hread⟩ := bind_eq_ok.mp hread
    obtain ⟨hcolon,hread⟩ := require_bind_eq_ok.mp hread
    obtain ⟨⟨member,next⟩,hvalue,hread⟩ := bind_eq_ok.mp hread
    obtain ⟨hnew,hread⟩ := require_bind_eq_ok.mp hread
    obtain ⟨rfl,rfl⟩ := Prod.mk.inj (pure_eq_ok.mp hread)
    obtain ⟨opened,hopened⟩ := (peek_eq_iff (by decide)).mp (of_decide_eq_true hquote)
    obtain ⟨afterColon,hafterColon⟩ := (peek_eq_iff (by decide)).mp (of_decide_eq_true hcolon)
    rw [hopened] at hkey
    obtain ⟨keyText,name,hkeyText,hname,rfl,hlength⟩ := parseString_eq_ok.mp hkey
    obtain ⟨text,htext,hrelation,hfits,hnodes,hmax⟩ := h.sound hvalue
    obtain ⟨before,hbefore,hsplit⟩ := exists_whitespace afterKey
    obtain ⟨gap,hgap,hsplit'⟩ := exists_whitespace afterColon
    dsimp only at hafterColon htext hnodes
    rw [hafterColon] at hsplit htext
    rw [List.drop_succ_cons, List.drop_zero] at htext
    have hfind := Option.isNone_iff_eq_none.mp hnew
    rw [JsonValue.setField_of_findField hfind]
    refine ⟨keyText ++ before ++ 0x3A :: (gap ++ text),(Utf8.encode name,member),?_,
      .intro hname hbefore hgap hrelation,rfl,⟨?_,?_⟩,hnodes,hmax⟩
    · rw [hopened, hkeyText, hsplit, hsplit', htext]
      simp
    · rw [List.map_append]
      exact hfields.1.append (List.nodup_singleton _)
        (List.disjoint_singleton.mpr (JsonValue.findField_eq_none.mp hfind))
    · exact List.forall_mem_append.mpr
        ⟨hfields.2,List.forall_mem_singleton.mpr ⟨hlength,hfits⟩⟩
  complete := by
    intro fields text field rest nodes hrelation hfields hnodes hrest
    obtain ⟨hkey,hbefore,hafter,hvalue⟩ := hrelation
    rename_i key before after text name v
    obtain ⟨hdistinct,hall⟩ := hfields
    obtain ⟨hlength,hfits⟩ := hall (Utf8.encode name,v) (by simp)
    rw [List.map_append] at hdistinct
    have hnew : JsonValue.findField (Utf8.encode name) fields = none :=
      JsonValue.findField_eq_none.mpr
        (List.disjoint_singleton.mp (List.disjoint_of_nodup_append hdistinct))
    obtain ⟨opened,hopened⟩ := hkey.exists_opening
    obtain ⟨c,more,hc,hspace,-⟩ := hvalue.exists_opening
    have hwhole : key ++ before ++ 0x3A :: (after ++ text) ++ rest =
        0x22 :: (opened ++ (before ++ 0x3A :: (after ++ (text ++ rest)))) := by
      rw [hopened]
      simp
    have hread : parseString limits
        (0x22 :: (opened ++ (before ++ 0x3A :: (after ++ (text ++ rest))))) =
        .ok (Utf8.encode name,before ++ 0x3A :: (after ++ (text ++ rest))) :=
      parseString_eq_ok.mpr ⟨key,name,by rw [hopened]; rfl,hkey,rfl,hlength⟩
    have hskip : skipWhitespace (before ++ 0x3A :: (after ++ (text ++ rest))) =
        0x3A :: (after ++ (text ++ rest)) := skipWhitespace_append hbefore rfl
    have hskip' : skipWhitespace (after ++ (text ++ rest)) = text ++ rest :=
      skipWhitespace_append hafter (by rw [hc]; exact hspace)
    have hmember := h.complete hvalue hfits hnodes hrest
    rw [hwhole]
    refine require_bind_eq_ok.mpr ⟨rfl,bind_eq_ok.mpr ⟨_,hread,?_⟩⟩
    simp only [hskip]
    refine require_bind_eq_ok.mpr ⟨rfl,bind_eq_ok.mpr ⟨(v,⟨rest,nodes + v.nodes.length⟩),?_,?_⟩⟩
    · rw [List.drop_succ_cons, List.drop_zero, hskip']
      exact hmember
    · refine require_bind_eq_ok.mpr ⟨Option.isNone_iff_eq_none.mpr hnew,?_⟩
      rw [JsonValue.setField_of_findField hnew]
      rfl
  opens := by
    rintro text field ⟨hkey,-,-,-⟩
    obtain ⟨more,rfl⟩ := hkey.exists_opening
    exact ⟨0x22,_,rfl,rfl,by decide⟩
  prefixes := JsonValue.FieldsFit.prefix

theorem parseLiteral_eq_ok {literal : ByteString} {v result : JsonValue}
    {state after : ParserState} :
    parseLiteral literal v state = .ok (result,after) ↔
      state.rest = literal ++ after.rest ∧ result = v ∧ after.nodes = state.nodes := by
  unfold parseLiteral consumeLiteral
  rw [bind_eq_ok]
  constructor
  · rintro ⟨rest,hrest,h⟩
    obtain ⟨rfl,rfl⟩ := Prod.mk.inj (pure_eq_ok.mp h)
    split_ifs at hrest with hshort htake
    obtain rfl := Except.ok.inj hrest
    refine ⟨?_,rfl,rfl⟩
    have hsplit := List.take_append_drop literal.length state.rest
    rw [not_not.mp htake] at hsplit
    exact hsplit.symm
  · rintro ⟨hrest,rfl,hnodes⟩
    refine ⟨after.rest,?_,?_⟩
    · rw [hrest, if_neg (by simp), if_neg (by simp), List.drop_left]
    · rw [← hnodes]
      rfl

theorem fits_leaf {v : JsonValue} (hdepth : v.depth = 0) (hnodes : v.nodes = [v])
    (hkeys : v.keys = []) (hstrings : ∀ s ∈ v.strings, s.length ≤ limits.maxStringBytes) :
    v.Fits limits (levels + 1) := by
  refine ⟨by omega,fun node hnode => ?_,fun node hnode => ?_⟩
  all_goals
    rw [hnodes, List.mem_singleton] at hnode
    subst hnode
  · rw [hkeys]
    exact List.nodup_nil
  · exact hstrings

section Step
variable {state after : ParserState} {v : JsonValue} {rest text : ByteString} {c : UInt8}

theorem sum_nodes_items (items : List JsonValue) :
    (JsonValue.array items).nodes.length =
      1 + (items.map (fun item => item.nodes.length)).sum := by
  rw [JsonValue.nodes_array, List.length_cons, List.length_flatMap]
  omega

theorem sum_nodes_fields (fields : List (ByteString × JsonValue)) :
    (JsonValue.object fields).nodes.length =
      1 + (fields.map (fun field => field.2.nodes.length)).sum := by
  rw [JsonValue.nodes_object, List.length_cons, List.length_flatMap]
  omega

theorem parseArray_sound (hvalue : ReadsValue limits levels value)
    (hmax : state.nodes + 1 ≤ limits.maxJsonNodes) (hopening : state.rest = 0x5B :: rest)
    (h : parseArray value { state with nodes := state.nodes + 1 } = .ok (v,after)) :
    ∃ text, state.rest = text ++ after.rest ∧ ValueText text v ∧ v.Fits limits (levels + 1) ∧
      after.nodes = state.nodes + v.nodes.length ∧ after.nodes ≤ limits.maxJsonNodes := by
  obtain ⟨⟨items,next⟩,hcontainer,h⟩ := bind_eq_ok.mp h
  obtain ⟨rfl,rfl⟩ := Prod.mk.inj (pure_eq_ok.mp h)
  have hopened : ({ state with nodes := state.nodes + 1 } : ParserState).rest = 0x5B :: rest :=
    hopening
  obtain ⟨text,htext,hrelation,hitems,hnodes,hfinal⟩ := parseContainer_sound closes_bracket
    hvalue.element (List.forall_mem_nil _) hmax hopened hcontainer
  have hcount : next.nodes = state.nodes + (JsonValue.array items).nodes.length := by
    rw [sum_nodes_items, hnodes]
    exact Nat.add_assoc _ _ _
  refine ⟨0x5B :: text ++ [0x5D],by rw [hopening, htext]; simp,?_,JsonValue.fits_array.mpr hitems,
    hcount,hfinal⟩
  rcases hrelation with ⟨rfl,hspace⟩ | hseparated
  · exact .emptyArray hspace
  · exact .array hseparated

theorem parseObject_sound (hvalue : ReadsValue limits levels value)
    (hmax : state.nodes + 1 ≤ limits.maxJsonNodes) (hopening : state.rest = 0x7B :: rest)
    (h : parseObject limits value { state with nodes := state.nodes + 1 } = .ok (v,after)) :
    ∃ text, state.rest = text ++ after.rest ∧ ValueText text v ∧ v.Fits limits (levels + 1) ∧
      after.nodes = state.nodes + v.nodes.length ∧ after.nodes ≤ limits.maxJsonNodes := by
  obtain ⟨⟨fields,next⟩,hcontainer,h⟩ := bind_eq_ok.mp h
  obtain ⟨rfl,rfl⟩ := Prod.mk.inj (pure_eq_ok.mp h)
  have hopened : ({ state with nodes := state.nodes + 1 } : ParserState).rest = 0x7B :: rest :=
    hopening
  obtain ⟨text,htext,hrelation,hfields,hnodes,hfinal⟩ := parseContainer_sound closes_brace
    hvalue.member ⟨List.nodup_nil,List.forall_mem_nil _⟩ hmax hopened hcontainer
  have hcount : next.nodes = state.nodes + (JsonValue.object fields).nodes.length := by
    rw [sum_nodes_fields, hnodes]
    exact Nat.add_assoc _ _ _
  refine ⟨0x7B :: text ++ [0x7D],by rw [hopening, htext]; simp,?_,
    JsonValue.fits_object.mpr hfields,hcount,hfinal⟩
  rcases hrelation with ⟨rfl,hspace⟩ | hseparated
  · exact .emptyObject hspace
  · exact .object hseparated

/-- A value without values inside it. -/
theorem parseLeaf_sound (hmax : state.nodes + 1 ≤ limits.maxJsonNodes)
    (hrest : state.rest = text ++ after.rest) (hnodes : after.nodes = state.nodes + 1)
    (htext : ValueText text v) (hdepth : v.depth = 0) (hself : v.nodes = [v]) (hkeys : v.keys = [])
    (hstrings : ∀ s ∈ v.strings, s.length ≤ limits.maxStringBytes) :
    ∃ text, state.rest = text ++ after.rest ∧ ValueText text v ∧ v.Fits limits (levels + 1) ∧
      after.nodes = state.nodes + v.nodes.length ∧ after.nodes ≤ limits.maxJsonNodes :=
  ⟨text,hrest,htext,fits_leaf hdepth hself hkeys hstrings,by rw [hself]; exact hnodes,
    hnodes ▸ hmax⟩

theorem parseValue_sound (hvalue : ReadsValue limits levels (parseValue limits levels))
    (h : parseValue limits (levels + 1) state = .ok (v,after)) :
    ∃ text, state.rest = text ++ after.rest ∧ ValueText text v ∧ v.Fits limits (levels + 1) ∧
      after.nodes = state.nodes + v.nodes.length ∧ after.nodes ≤ limits.maxJsonNodes := by
  obtain ⟨hmax,h⟩ := require_bind_eq_ok.mp h
  have hmax : state.nodes + 1 ≤ limits.maxJsonNodes := of_decide_eq_true hmax
  dsimp only at h
  split_ifs at h with hobject harray hstring htrue hfalse hnull hnumber
  · obtain ⟨rest,hopening⟩ := (peek_eq_iff (by decide)).mp hobject
    exact parseObject_sound hvalue hmax hopening h
  · obtain ⟨rest,hopening⟩ := (peek_eq_iff (by decide)).mp harray
    exact parseArray_sound hvalue hmax hopening h
  · obtain ⟨rest,hopening⟩ := (peek_eq_iff (by decide)).mp hstring
    obtain ⟨⟨out,tail⟩,hread,h⟩ := bind_eq_ok.mp h
    obtain ⟨rfl,rfl⟩ := Prod.mk.inj (pure_eq_ok.mp h)
    rw [hopening] at hread
    obtain ⟨text,chars,htext,hstringText,rfl,hlength⟩ := parseString_eq_ok.mp hread
    exact parseLeaf_sound hmax (hopening.trans htext) rfl (.string hstringText) rfl rfl rfl
      (List.forall_mem_singleton.mpr hlength)
  · obtain ⟨hrest,rfl,hnodes⟩ := parseLiteral_eq_ok.mp h
    exact parseLeaf_sound hmax hrest hnodes .literalTrue rfl rfl rfl (List.forall_mem_nil _)
  · obtain ⟨hrest,rfl,hnodes⟩ := parseLiteral_eq_ok.mp h
    exact parseLeaf_sound hmax hrest hnodes .literalFalse rfl rfl rfl (List.forall_mem_nil _)
  · obtain ⟨hrest,rfl,hnodes⟩ := parseLiteral_eq_ok.mp h
    exact parseLeaf_sound hmax hrest hnodes .literalNull rfl rfl rfl (List.forall_mem_nil _)
  · obtain ⟨⟨out,tail⟩,hread,h⟩ := bind_eq_ok.mp h
    obtain ⟨rfl,rfl⟩ := Prod.mk.inj (pure_eq_ok.mp h)
    obtain ⟨hrest,hnumberText⟩ := parseNumber_sound hread
    exact parseLeaf_sound hmax hrest rfl (.number hnumberText) rfl rfl rfl (List.forall_mem_nil _)

/-- The dispatch on the byte that opens a value. -/
theorem parseValue_succ {nodes : ℕ} (hmax : nodes + 1 ≤ limits.maxJsonNodes)
    (hopening : peek rest = c) :
    parseValue limits (levels + 1) ⟨rest,nodes⟩ =
      if c = 0x7B then parseObject limits (parseValue limits levels) ⟨rest,nodes + 1⟩
      else if c = 0x5B then parseArray (parseValue limits levels) ⟨rest,nodes + 1⟩
      else if c = 0x22 then do
        let (text,rest) ← parseString limits rest
        return (.string text,⟨rest,nodes + 1⟩)
      else if c = 0x74 then parseLiteral [0x74,0x72,0x75,0x65] (.boolean true) ⟨rest,nodes + 1⟩
      else if c = 0x66 then
        parseLiteral [0x66,0x61,0x6C,0x73,0x65] (.boolean false) ⟨rest,nodes + 1⟩
      else if c = 0x6E then parseLiteral [0x6E,0x75,0x6C,0x6C] .null ⟨rest,nodes + 1⟩
      else if c = 0x2D ∨ isDigit c then do
        let (text,rest) ← parseNumber rest
        return (.number text,⟨rest,nodes + 1⟩)
      else .error (invalidFormat "unexpected character in document") := by
  subst hopening
  rw [parseValue, require, if_pos (decide_eq_true hmax)]
  rfl

theorem enclosed_append (opening close : UInt8) (text rest : ByteString) :
    opening :: text ++ [close] ++ rest = opening :: (text ++ close :: rest) := by simp

theorem parseValue_complete (hvalue : ReadsValue limits levels (parseValue limits levels))
    {nodes : ℕ} (htext : ValueText text v) (hfits : v.Fits limits (levels + 1))
    (hnodes : nodes + v.nodes.length ≤ limits.maxJsonNodes) (hrest : EndsNumber rest) :
    parseValue limits (levels + 1) ⟨text ++ rest,nodes⟩ =
      .ok (v,⟨rest,nodes + v.nodes.length⟩) := by
  cases htext with
  | literalNull =>
    rw [parseValue_succ hnodes rfl]
    exact parseLiteral_eq_ok.mpr ⟨rfl,rfl,rfl⟩
  | literalTrue =>
    rw [parseValue_succ hnodes rfl]
    exact parseLiteral_eq_ok.mpr ⟨rfl,rfl,rfl⟩
  | literalFalse =>
    rw [parseValue_succ hnodes rfl]
    exact parseLiteral_eq_ok.mpr ⟨rfl,rfl,rfl⟩
  | number h =>
    obtain ⟨c,more,rfl,hc⟩ := h.exists_head
    have hdispatch : c ≠ 0x7B ∧ c ≠ 0x5B ∧ c ≠ 0x22 ∧ c ≠ 0x74 ∧ c ≠ 0x66 ∧ c ≠ 0x6E := by
      rcases hc with rfl | hdigit
      · decide
      · have hdigit := isDigit_iff.mp hdigit
        exact ⟨hdigit.ne (by decide),hdigit.ne (by decide),hdigit.ne (by decide),
          hdigit.ne (by decide),hdigit.ne (by decide),hdigit.ne (by decide)⟩
    obtain ⟨h1,h2,h3,h4,h5,h6⟩ := hdispatch
    have hread := parseNumber_complete h hrest
    rw [List.cons_append, parseValue_succ hnodes peek_cons, if_neg h1, if_neg h2, if_neg h3, if_neg h4,
      if_neg h5, if_neg h6, if_pos hc]
    exact bind_eq_ok.mpr ⟨_,hread,rfl⟩
  | @string _ chars h =>
    obtain ⟨more,rfl⟩ := h.exists_opening
    have hlength := hfits.strings _ (JsonValue.mem_nodes_self _) _ List.mem_cons_self
    have hread : parseString limits (0x22 :: (more ++ rest)) = .ok (Utf8.encode chars,rest) :=
      parseString_eq_ok.mpr ⟨_,chars,rfl,h,rfl,hlength⟩
    rw [List.cons_append, parseValue_succ hnodes rfl]
    exact bind_eq_ok.mpr ⟨_,hread,rfl⟩
  | @emptyArray text h =>
    rw [enclosed_append, parseValue_succ hnodes rfl]
    exact bind_eq_ok.mpr ⟨_,parseContainer_empty closes_bracket h,rfl⟩
  | @array text items h =>
    rw [sum_nodes_items, ← Nat.add_assoc] at hnodes ⊢
    rw [enclosed_append, parseValue_succ (Nat.le_of_add_right_le hnodes) rfl]
    exact bind_eq_ok.mpr ⟨_,parseContainer_complete closes_bracket hvalue.element h
      (JsonValue.fits_array.mp hfits) hnodes,rfl⟩
  | @emptyObject text h =>
    rw [enclosed_append, parseValue_succ hnodes rfl]
    exact bind_eq_ok.mpr ⟨_,parseContainer_empty closes_brace h,rfl⟩
  | @object text fields h =>
    rw [sum_nodes_fields, ← Nat.add_assoc] at hnodes ⊢
    rw [enclosed_append, parseValue_succ (Nat.le_of_add_right_le hnodes) rfl]
    exact bind_eq_ok.mpr ⟨_,parseContainer_complete closes_brace hvalue.member h
      (JsonValue.fits_object.mp hfits) hnodes,rfl⟩

end Step

/-- With one level more, a reader of values inside containers reads the
containers too. -/
theorem parseValue_reads (limits : Limits) (levels : ℕ) :
    ReadsValue limits levels (parseValue limits levels) := by
  induction levels with
  | zero =>
    constructor
    · intro state after v h
      cases h
    · intro text rest v nodes _ hfits
      exact absurd hfits.depth (Nat.not_lt_zero _)
  | succ levels ih => exact ⟨parseValue_sound ih,parseValue_complete ih⟩

theorem endsNumber_whitespace {after : ByteString} (h : Whitespace after) : EndsNumber after := by
  have hnil : EndsNumber ([] : ByteString) := ⟨rfl,by simp,by simp⟩
  have happend := hnil.append h
  rwa [List.append_nil] at happend

end Json

namespace JsonValue
variable {text : ByteString} {limits : Limits} {value : JsonValue}

theorem within_iff_fits : value.KeysDistinct ∧ value.Within limits text ↔
    text.length ≤ limits.maxDocumentBytes ∧ value.Fits limits (limits.maxJsonDepth + 1) ∧
      value.nodes.length ≤ limits.maxJsonNodes := by
  constructor
  · rintro ⟨hkeys,hwithin⟩
    exact ⟨hwithin.bytes,⟨Nat.lt_succ_of_le hwithin.depth,hkeys,hwithin.strings⟩,hwithin.nodes⟩
  · rintro ⟨hbytes,hfits,hnodes⟩
    exact ⟨hfits.keys,hbytes,Nat.le_of_lt_succ hfits.depth,hnodes,hfits.strings⟩

theorem parse_sound (h : parse text limits = .ok value) :
    Json.DocumentText text value ∧ value.KeysDistinct ∧ value.Within limits text := by
  obtain ⟨hbytes,h⟩ := require_bind_eq_ok.mp h
  obtain ⟨⟨v,state⟩,hread,h⟩ := bind_eq_ok.mp h
  obtain ⟨hend,h⟩ := require_bind_eq_ok.mp h
  obtain rfl := pure_eq_ok.mp h
  obtain ⟨body,hbody,hvalue,hfits,hnodes,hmax⟩ := (Json.parseValue_reads limits _).sound hread
  obtain ⟨before,hbefore,htext⟩ := Json.exists_whitespace text
  obtain ⟨after,hafter,hrest⟩ := Json.exists_whitespace state.rest
  replace hbody : Json.skipWhitespace text = body ++ state.rest := hbody
  rw [List.isEmpty_iff.mp hend, List.append_nil] at hrest
  rw [hbody, hrest, ← List.append_assoc] at htext
  refine ⟨?_,within_iff_fits.mpr ⟨of_decide_eq_true hbytes,hfits,?_⟩⟩
  · rw [htext]
    exact .intro hbefore hvalue hafter
  · rw [hnodes] at hmax
    exact (Nat.le_add_left _ _).trans hmax

theorem parse_complete (h : Json.DocumentText text value) (hkeys : value.KeysDistinct)
    (hwithin : value.Within limits text) : parse text limits = .ok value := by
  obtain ⟨hbytes,hfits,hnodes⟩ := within_iff_fits.mp ⟨hkeys,hwithin⟩
  obtain ⟨hbefore,hvalue,hafter⟩ := h
  rename_i before body after
  obtain ⟨c,more,hc,hspace,-⟩ := hvalue.exists_opening
  have hskip : Json.skipWhitespace (before ++ body ++ after) = body ++ after := by
    rw [List.append_assoc]
    exact Json.skipWhitespace_append hbefore (by rw [hc]; exact hspace)
  have hend : Json.skipWhitespace after = [] := by
    have hskip' := Json.skipWhitespace_append hafter (show Json.isSpace (Json.peek []) = false from rfl)
    rwa [List.append_nil] at hskip'
  have hread := (Json.parseValue_reads limits _).complete hvalue hfits
    (show 0 + value.nodes.length ≤ limits.maxJsonNodes by omega) (Json.endsNumber_whitespace hafter)
  refine require_bind_eq_ok.mpr ⟨decide_eq_true hbytes,?_⟩
  rw [hskip]
  exact bind_eq_ok.mpr ⟨_,hread,require_bind_eq_ok.mpr ⟨List.isEmpty_iff.mpr hend,rfl⟩⟩

/-- The reader accepts exactly the documents of the grammar whose objects have no
duplicate keys and that are within its bounds, and returns what they denote. -/
theorem parse_eq_ok_iff (text : ByteString) (limits : Limits) (value : JsonValue) :
    parse text limits = .ok value ↔
      Json.DocumentText text value ∧ value.KeysDistinct ∧ value.Within limits text :=
  ⟨parse_sound,fun h => parse_complete h.1 h.2.1 h.2.2⟩

end JsonValue

end PathObservatory
