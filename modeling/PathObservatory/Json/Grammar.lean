import Mathlib.Data.List.Nodup
import PathObservatory.Json.Value
import PathObservatory.Foundation.Limits

/-! # The grammar of documents

RFC 8259 over byte strings, rule by rule, with the value that each text denotes.
A string denotes the encoding of its characters, a number its lexeme, a container
its entries in the order of the text.
-/
namespace PathObservatory

namespace Json

def Whitespace (text : ByteString) : Prop :=
  ∀ c ∈ text, c = 0x20 ∨ c = 0x09 ∨ c = 0x0A ∨ c = 0x0D

def Digit (c : UInt8) : Prop := 0x30 ≤ c ∧ c ≤ 0x39

def Digits (text : ByteString) : Prop := text ≠ [] ∧ ∀ c ∈ text, Digit c

def Minus (text : ByteString) : Prop := text = [] ∨ text = [0x2D]

/-- Zero, or digits that do not start with zero. -/
def IntegerPart (text : ByteString) : Prop :=
  text = [0x30] ∨ Digits text ∧ text.head? ≠ some 0x30

def FractionPart (text : ByteString) : Prop :=
  text = [] ∨ ∃ digits, Digits digits ∧ text = 0x2E :: digits

def ExponentSign (text : ByteString) : Prop := text = [] ∨ text = [0x2B] ∨ text = [0x2D]

def ExponentPart (text : ByteString) : Prop :=
  text = [] ∨ ∃ e sign digits, (e = 0x65 ∨ e = 0x45) ∧ ExponentSign sign ∧ Digits digits ∧
    text = e :: sign ++ digits

inductive NumberText : ByteString → Prop
  | intro {minus integer fraction exponent : ByteString} (hminus : Minus minus)
      (hinteger : IntegerPart integer) (hfraction : FractionPart fraction)
      (hexponent : ExponentPart exponent) :
      NumberText (minus ++ integer ++ fraction ++ exponent)

inductive HexDigit : UInt8 → ℕ → Prop
  | digit {c : UInt8} (h : 0x30 ≤ c ∧ c ≤ 0x39) : HexDigit c (c.toNat - 0x30)
  | lower {c : UInt8} (h : 0x61 ≤ c ∧ c ≤ 0x66) : HexDigit c (c.toNat - 0x61 + 10)
  | upper {c : UInt8} (h : 0x41 ≤ c ∧ c ≤ 0x46) : HexDigit c (c.toNat - 0x41 + 10)

/-- Four hexadecimal digits. -/
inductive HexWord : ByteString → ℕ → Prop
  | intro {a b c d : UInt8} {w x y z : ℕ} (ha : HexDigit a w) (hb : HexDigit b x)
      (hc : HexDigit c y) (hd : HexDigit d z) :
      HexWord [a,b,c,d] (((w * 16 + x) * 16 + y) * 16 + z)

/-- The letters of the short escapes and the characters they stand for. -/
def shortEscapes : List (UInt8 × Char) :=
  [(0x22,Char.ofNat 0x22),(0x5C,Char.ofNat 0x5C),(0x2F,Char.ofNat 0x2F),(0x62,Char.ofNat 0x08),
    (0x66,Char.ofNat 0x0C),(0x6E,Char.ofNat 0x0A),(0x72,Char.ofNat 0x0D),(0x74,Char.ofNat 0x09)]

/-- What follows the backslash of an escape. -/
inductive EscapeText : ByteString → Char → Prop
  | short {kind : UInt8} {c : Char} (h : (kind,c) ∈ shortEscapes) : EscapeText [kind] c
  | unicode {word : ByteString} {c : Char} (h : HexWord word c.toNat) : EscapeText (0x75 :: word) c
  | surrogates {first second : ByteString} {high low : ℕ} {c : Char} (hfirst : HexWord first high)
      (hsecond : HexWord second low) (hhigh : 0xD800 ≤ high ∧ high ≤ 0xDBFF)
      (hlow : 0xDC00 ≤ low ∧ low ≤ 0xDFFF)
      (hvalue : c.toNat = 0x10000 + (high - 0xD800) * 0x400 + (low - 0xDC00)) :
      EscapeText (0x75 :: first ++ 0x5C :: 0x75 :: second) c

/-- One character of a string. -/
inductive StringChar : ByteString → Char → Prop
  | unescaped {c : Char} (hcontrol : 0x20 ≤ c.toNat) (hquote : c.toNat ≠ 0x22)
      (hescape : c.toNat ≠ 0x5C) : StringChar (String.utf8EncodeChar c) c
  | escaped {text : ByteString} {c : Char} (h : EscapeText text c) : StringChar (0x5C :: text) c

inductive StringBody : ByteString → List Char → Prop
  | nil : StringBody [] []
  | cons {first rest : ByteString} {c : Char} {text : List Char} (hfirst : StringChar first c)
      (hrest : StringBody rest text) : StringBody (first ++ rest) (c :: text)

inductive StringText : ByteString → List Char → Prop
  | intro {body : ByteString} {text : List Char} (h : StringBody body text) :
      StringText (0x22 :: body ++ [0x22]) text

section Lists
variable {α : Type} (entry : ByteString → α → Prop)

/-- One or more entries with commas between them. -/
inductive Separated : ByteString → List α → Prop
  | last {before text after : ByteString} {a : α} (hbefore : Whitespace before)
      (h : entry text a) (hafter : Whitespace after) : Separated (before ++ text ++ after) [a]
  | cons {before text after rest : ByteString} {a : α} {entries : List α}
      (hbefore : Whitespace before) (h : entry text a) (hafter : Whitespace after)
      (hrest : Separated rest entries) :
      Separated (before ++ text ++ after ++ 0x2C :: rest) (a :: entries)

end Lists

inductive MemberText (value : ByteString → JsonValue → Prop) :
    ByteString → ByteString × JsonValue → Prop
  | intro {key before after text : ByteString} {name : List Char} {v : JsonValue}
      (hkey : StringText key name) (hbefore : Whitespace before) (hafter : Whitespace after)
      (h : value text v) :
      MemberText value (key ++ before ++ 0x3A :: (after ++ text)) (Utf8.encode name,v)

inductive ValueText : ByteString → JsonValue → Prop
  | literalNull : ValueText [0x6E,0x75,0x6C,0x6C] .null
  | literalTrue : ValueText [0x74,0x72,0x75,0x65] (.boolean true)
  | literalFalse : ValueText [0x66,0x61,0x6C,0x73,0x65] (.boolean false)
  | number {text : ByteString} (h : NumberText text) : ValueText text (.number text)
  | string {text : ByteString} {chars : List Char} (h : StringText text chars) :
      ValueText text (.string (Utf8.encode chars))
  | emptyArray {text : ByteString} (h : Whitespace text) :
      ValueText (0x5B :: text ++ [0x5D]) (.array [])
  | array {text : ByteString} {items : List JsonValue} (h : Separated ValueText text items) :
      ValueText (0x5B :: text ++ [0x5D]) (.array items)
  | emptyObject {text : ByteString} (h : Whitespace text) :
      ValueText (0x7B :: text ++ [0x7D]) (.object [])
  | object {text : ByteString} {fields : List (ByteString × JsonValue)}
      (h : Separated (MemberText ValueText) text fields) :
      ValueText (0x7B :: text ++ [0x7D]) (.object fields)

/-- One value and white space around it. -/
inductive DocumentText : ByteString → JsonValue → Prop
  | intro {before text after : ByteString} {v : JsonValue} (hbefore : Whitespace before)
      (h : ValueText text v) (hafter : Whitespace after) :
      DocumentText (before ++ text ++ after) v

end Json

namespace JsonValue

mutual

/-- The value and all values inside it, in the order of the text. -/
def nodes : JsonValue → List JsonValue
  | .array items => .array items :: nodesOfItems items
  | .object fields => .object fields :: nodesOfFields fields
  | value => [value]

def nodesOfItems : List JsonValue → List JsonValue
  | [] => []
  | item :: items => item.nodes ++ nodesOfItems items

def nodesOfFields : List (ByteString × JsonValue) → List JsonValue
  | [] => []
  | (_,value) :: fields => value.nodes ++ nodesOfFields fields

end

mutual

/-- How deep containers stand inside each other. -/
def depth : JsonValue → ℕ
  | .array items => depthOfItems items
  | .object fields => depthOfFields fields
  | _ => 0

/-- The depth that the items give to the container that holds them. -/
def depthOfItems : List JsonValue → ℕ
  | [] => 0
  | item :: items => max (item.depth + 1) (depthOfItems items)

def depthOfFields : List (ByteString × JsonValue) → ℕ
  | [] => 0
  | (_,value) :: fields => max (value.depth + 1) (depthOfFields fields)

end

/-- The strings of a value itself: its text, or its keys. -/
def strings : JsonValue → List ByteString
  | .string text => [text]
  | .object fields => fields.map Prod.fst
  | _ => []

def keys : JsonValue → List ByteString
  | .object fields => fields.map Prod.fst
  | _ => []

theorem nodesOfItems_eq (items : List JsonValue) : nodesOfItems items = items.flatMap nodes := by
  induction items with
  | nil => rfl
  | cons item items ih => rw [nodesOfItems, ih, List.flatMap_cons]

theorem nodesOfFields_eq (fields : List (ByteString × JsonValue)) :
    nodesOfFields fields = fields.flatMap (fun field => field.2.nodes) := by
  induction fields with
  | nil => rfl
  | cons field fields ih => rw [nodesOfFields, ih, List.flatMap_cons]

theorem nodes_array (items : List JsonValue) :
    (array items).nodes = array items :: items.flatMap nodes := by
  rw [nodes, nodesOfItems_eq]

theorem nodes_object (fields : List (ByteString × JsonValue)) :
    (object fields).nodes = object fields :: fields.flatMap (fun field => field.2.nodes) := by
  rw [nodes, nodesOfFields_eq]

theorem mem_nodes_self (value : JsonValue) : value ∈ value.nodes := by
  cases value <;> simp [nodes]

theorem forall_mem_nodes_array {items : List JsonValue} {P : JsonValue → Prop} :
    (∀ node ∈ (array items).nodes, P node) ↔
      P (array items) ∧ ∀ item ∈ items, ∀ node ∈ item.nodes, P node := by
  rw [nodes_array, List.forall_mem_cons, List.forall_mem_flatMap]

theorem forall_mem_nodes_object {fields : List (ByteString × JsonValue)} {P : JsonValue → Prop} :
    (∀ node ∈ (object fields).nodes, P node) ↔
      P (object fields) ∧ ∀ field ∈ fields, ∀ node ∈ field.2.nodes, P node := by
  rw [nodes_object, List.forall_mem_cons, List.forall_mem_flatMap]

theorem depth_array_lt {items : List JsonValue} {levels : ℕ} :
    (array items).depth < levels + 1 ↔ ∀ item ∈ items, item.depth < levels := by
  show depthOfItems items < levels + 1 ↔ _
  induction items with
  | nil => simp [depthOfItems]
  | cons item items ih => rw [depthOfItems, max_lt_iff, ih, List.forall_mem_cons, add_lt_add_iff_right]

theorem depth_object_lt {fields : List (ByteString × JsonValue)} {levels : ℕ} :
    (object fields).depth < levels + 1 ↔ ∀ field ∈ fields, field.2.depth < levels := by
  show depthOfFields fields < levels + 1 ↔ _
  induction fields with
  | nil => simp [depthOfFields]
  | cons field fields ih =>
    rw [depthOfFields, max_lt_iff, ih, List.forall_mem_cons, add_lt_add_iff_right]

/-- No object in the value has two members with one key. -/
def KeysDistinct (value : JsonValue) : Prop := ∀ node ∈ value.nodes, node.keys.Nodup

/-- The value and its text are within the bounds of the reader. -/
structure Within (limits : Limits) (text : ByteString) (value : JsonValue) : Prop where
  bytes : text.length ≤ limits.maxDocumentBytes
  depth : value.depth ≤ limits.maxJsonDepth
  nodes : value.nodes.length ≤ limits.maxJsonNodes
  strings : ∀ node ∈ value.nodes, ∀ s ∈ node.strings, s.length ≤ limits.maxStringBytes

end JsonValue

end PathObservatory
