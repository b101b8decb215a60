import Mathlib.Data.Nat.Digits.Defs
import PathObservatory.Foundation.Error
import PathObservatory.Json.Text

/-! # Values of a document

Numbers keep the lexeme of the document and objects the order of their members.
-/
namespace PathObservatory

inductive JsonValue
  | null
  | boolean (value : Bool)
  | number (text : ByteString)
  | string (text : ByteString)
  | array (items : List JsonValue)
  | object (fields : List (ByteString × JsonValue))
deriving Repr, Inhabited

namespace Json

def decimalDigit (digit : ℕ) : UInt8 := UInt8.ofNat (0x30 + digit)

/-- The decimal digits of a number, without leading zeros. -/
def decimal (value : ℕ) : ByteString :=
  if value = 0 then [0x30] else (Nat.digits 10 value).reverse.map decimalDigit

def isDigit (byte : UInt8) : Bool := 0x30 ≤ byte && byte ≤ 0x39

/-- The number that a run of digits denotes. -/
def valueOfDigits (text : ByteString) : ℕ :=
  text.foldl (fun value digit => 10 * value + (digit.toNat - 0x30)) 0

/-- The text that well formed bytes spell. -/
def spell (text : ByteString) : String := (String.fromUTF8? ⟨text.toArray⟩).getD ""

end Json

namespace JsonValue

def makeNumber (value : Int64) : JsonValue :=
  .number ((if value < 0 then [0x2D] else []) ++ Json.decimal value.toInt.natAbs)

def makeNumberUnsigned (value : UInt64) : JsonValue := .number (Json.decimal value.toNat)

def isNull : JsonValue → Bool
  | null => true
  | _ => false

def isNumber : JsonValue → Bool
  | number _ => true
  | _ => false

def isString : JsonValue → Bool
  | string _ => true
  | _ => false

def isArray : JsonValue → Bool
  | array _ => true
  | _ => false

def isObject : JsonValue → Bool
  | object _ => true
  | _ => false

def asString : JsonValue → ByteString
  | string text => text
  | number text => text
  | _ => []

def items : JsonValue → List JsonValue
  | array items => items
  | _ => []

/-- The number as an unsigned integer, when its lexeme is one. -/
def asU64 : JsonValue → Result UInt64
  | number text =>
    if text.any (fun c => c = 0x2E || c = 0x65 || c = 0x45 || c = 0x2D || c = 0x2B) then
      .error { code := .invalidFormat, message := "number is not a non negative integer",
               detail := Json.spell text }
    else if text.isEmpty || !text.all Json.isDigit || 2 ^ 64 ≤ Json.valueOfDigits text then
      .error { code := .outOfRange, message := "integer does not fit in 64 unsigned bits",
               detail := Json.spell text }
    else .ok (UInt64.ofNat (Json.valueOfDigits text))
  | _ => .error { code := .invalidFormat, message := "value is not a number" }

def asBoolChecked : JsonValue → Result Bool
  | boolean value => .ok value
  | _ => .error { code := .invalidFormat, message := "value is not a boolean" }

/-- The first member with the given key. -/
def findField (key : ByteString) : List (ByteString × JsonValue) → Option JsonValue
  | [] => none
  | (name,value) :: rest => if name = key then some value else findField key rest

def find (value : JsonValue) (key : ByteString) : Option JsonValue :=
  match value with
  | object fields => findField key fields
  | _ => none

def setField (key : ByteString) (value : JsonValue) :
    List (ByteString × JsonValue) → List (ByteString × JsonValue)
  | [] => [(key,value)]
  | (name,held) :: rest =>
    if name = key then (name,value) :: rest else (name,held) :: setField key value rest

def set (target : JsonValue) (key : ByteString) (value : JsonValue) : JsonValue :=
  match target with
  | object fields => object (setField key value fields)
  | _ => object [(key,value)]

def pushBack (target value : JsonValue) : JsonValue :=
  match target with
  | array items => array (items ++ [value])
  | _ => array [value]

def shortEscape (byte : UInt8) : Option UInt8 :=
  if byte = 0x08 then some 0x62
  else if byte = 0x0C then some 0x66
  else if byte = 0x0A then some 0x6E
  else if byte = 0x0D then some 0x72
  else if byte = 0x09 then some 0x74
  else none

def hexDigit (value : UInt8) : UInt8 := if value < 10 then 0x30 + value else 0x61 + (value - 10)

def escapeByte (byte : UInt8) : ByteString :=
  if byte = 0x22 ∨ byte = 0x5C then [0x5C,byte]
  else if byte < 0x20 then
    match shortEscape byte with
    | some short => [0x5C,short]
    | none => [0x5C,0x75,0x30,0x30,hexDigit ((byte >>> 4) &&& 0x0F),hexDigit (byte &&& 0x0F)]
  else [byte]

/-- The text between quotes, with quotes, backslashes and control bytes escaped. -/
def escape (text : ByteString) : ByteString := 0x22 :: text.flatMap escapeByte ++ [0x22]

/-- A line break and the given indentation, in the pretty form. -/
def newline (pretty : Bool) (indent : ℕ) : ByteString :=
  if pretty then 0x0A :: List.replicate indent 0x20 else []

mutual

def dumpInto (pretty : Bool) (indent : ℕ) : JsonValue → ByteString
  | null => [0x6E,0x75,0x6C,0x6C]
  | boolean true => [0x74,0x72,0x75,0x65]
  | boolean false => [0x66,0x61,0x6C,0x73,0x65]
  | number text => if text.isEmpty then [0x30] else text
  | string text => escape text
  | array [] => [0x5B,0x5D]
  | array (item :: items) =>
    [0x5B] ++ newline pretty (indent + 2) ++ dumpInto pretty (indent + 2) item ++
      dumpItems pretty indent items ++ newline pretty indent ++ [0x5D]
  | object [] => [0x7B,0x7D]
  | object ((key,value) :: fields) =>
    [0x7B] ++ newline pretty (indent + 2) ++ escape key ++ [0x3A] ++
      (if pretty then [0x20] else []) ++ dumpInto pretty (indent + 2) value ++
      dumpFields pretty indent fields ++ newline pretty indent ++ [0x7D]

/-- The items after the first, each behind its comma. -/
def dumpItems (pretty : Bool) (indent : ℕ) : List JsonValue → ByteString
  | [] => []
  | item :: items =>
    [0x2C] ++ newline pretty (indent + 2) ++ dumpInto pretty (indent + 2) item ++
      dumpItems pretty indent items

def dumpFields (pretty : Bool) (indent : ℕ) : List (ByteString × JsonValue) → ByteString
  | [] => []
  | (key,value) :: fields =>
    [0x2C] ++ newline pretty (indent + 2) ++ escape key ++ [0x3A] ++
      (if pretty then [0x20] else []) ++ dumpInto pretty (indent + 2) value ++
      dumpFields pretty indent fields

end

def dump (value : JsonValue) (pretty : Bool) : ByteString := dumpInto pretty 0 value

end JsonValue

end PathObservatory
