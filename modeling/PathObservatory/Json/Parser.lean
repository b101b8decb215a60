import PathObservatory.Foundation.Limits
import PathObservatory.Json.Value

/-! # The document reader

The position of the reader is what is left of the text. Every loop carries a
bound on the bytes that it can still pass, so that the recursion is structural;
the levels of nesting that are left play the same part for values.
-/
namespace PathObservatory

namespace Json

def invalidFormat (message : String) : Error := { code := .invalidFormat, message := message }

def capacityExceeded (message : String) : Error :=
  { code := .capacityExceeded, message := message }

structure ParserState where
  rest : ByteString
  nodes : ℕ := 0

/-- The next byte, zero at the end of the text. -/
def peek (rest : ByteString) : UInt8 := rest.headD 0

def isSpace (c : UInt8) : Bool := c = 0x20 || c = 0x09 || c = 0x0A || c = 0x0D

def skipWhitespace (rest : ByteString) : ByteString := rest.dropWhile isSpace

def consumeLiteral (literal rest : ByteString) : Result ByteString :=
  if rest.length < literal.length then .error (invalidFormat "document ended inside a literal")
  else if rest.take literal.length ≠ literal then .error (invalidFormat "malformed literal")
  else .ok (rest.drop literal.length)

def hexValue (c : UInt8) : Option UInt32 :=
  if 0x30 ≤ c ∧ c ≤ 0x39 then some (c - 0x30).toUInt32
  else if 0x61 ≤ c ∧ c ≤ 0x66 then some (c - 0x61 + 10).toUInt32
  else if 0x41 ≤ c ∧ c ≤ 0x46 then some (c - 0x41 + 10).toUInt32
  else none

def pushHexDigit (value digit : UInt32) : UInt32 := (value <<< 4) ||| digit

/-- Fold hexadecimal digits into a value, most significant first. -/
def hexDigits (value : UInt32) : ByteString → Option UInt32
  | [] => some value
  | c :: rest => (hexValue c).bind fun digit => hexDigits (pushHexDigit value digit) rest

def readHex4 (rest : ByteString) : Result (UInt32 × ByteString) :=
  if rest.length < 4 then .error (invalidFormat "unicode escape is truncated")
  else match hexDigits 0 (rest.take 4) with
    | none => .error (invalidFormat "unicode escape is not hexadecimal")
    | some value => .ok (value,rest.drop 4)

def appendCodePoint (out : ByteString) (codePoint : UInt32) (rest : ByteString) :
    Result (ByteString × ByteString) :=
  match appendUtf8 out codePoint with
  | none => .error (invalidFormat "escape sequence is not a legal scalar value")
  | some out => .ok (out,rest)

/-- The code point of a surrogate pair. -/
def surrogatePair (high low : UInt32) : UInt32 :=
  (0x10000 : UInt32) + ((high - 0xD800) <<< 10) + (low - 0xDC00)

/-- The escape behind `\u`, with the second half of a surrogate pair. -/
def readUnicodeEscape (out rest : ByteString) : Result (ByteString × ByteString) := do
  let (codePoint,rest) ← readHex4 rest
  if 0xD800 ≤ codePoint ∧ codePoint ≤ 0xDBFF then
    require (peek rest = 0x5C && peek (rest.drop 1) = 0x75)
      (invalidFormat "high surrogate is not followed by a low surrogate")
    let (low,rest) ← readHex4 (rest.drop 2)
    require (0xDC00 ≤ low && low ≤ 0xDFFF) (invalidFormat "surrogate pair is malformed")
    appendCodePoint out (surrogatePair codePoint low) rest
  else do
    require (!(0xDC00 ≤ codePoint && codePoint ≤ 0xDFFF)) (invalidFormat "unpaired low surrogate")
    appendCodePoint out codePoint rest

/-- The byte that a one letter escape stands for. -/
def simpleEscape (kind : UInt8) : Option UInt8 :=
  if kind = 0x62 then some 0x08
  else if kind = 0x66 then some 0x0C
  else if kind = 0x6E then some 0x0A
  else if kind = 0x72 then some 0x0D
  else if kind = 0x74 then some 0x09
  else if kind = 0x22 then some 0x22
  else if kind = 0x5C then some 0x5C
  else if kind = 0x2F then some 0x2F
  else none

def readEscape (out : ByteString) : ByteString → Result (ByteString × ByteString)
  | [] => .error (invalidFormat "string ends inside an escape sequence")
  | kind :: rest =>
    if kind = 0x75 then readUnicodeEscape out rest
    else match simpleEscape kind with
      | some byte => .ok (out ++ [byte],rest)
      | none => .error (invalidFormat "unknown escape sequence in string")

/-- One byte of a string or one escape. -/
def passCharacter (out : ByteString) (raw : UInt8) (rest : ByteString) :
    Result (ByteString × ByteString) :=
  if raw ≠ 0x5C then .ok (out ++ [raw],rest) else readEscape out rest

/-- The bytes up to the closing quote. -/
def stringLoop (limits : Limits) : ℕ → ByteString → ByteString → Result (ByteString × ByteString)
  | 0, _, _ => .error (invalidFormat "string is not terminated")
  | _ + 1, _, [] => .error (invalidFormat "string is not terminated")
  | fuel + 1, out, raw :: rest =>
    if raw = 0x22 then
      if isValidUtf8 out then .ok (out,rest)
      else .error (invalidFormat "string is not valid UTF-8")
    else if raw < 0x20 then
      .error (invalidFormat "string contains an unescaped control character")
    else do
      let (out,rest) ← passCharacter out raw rest
      require (out.length ≤ limits.maxStringBytes)
        (capacityExceeded "string exceeds the configured bound")
      stringLoop limits fuel out rest

/-- The string that opens the text. -/
def parseString (limits : Limits) (rest : ByteString) : Result (ByteString × ByteString) :=
  stringLoop limits rest.length [] (rest.drop 1)

def skipDigits (rest : ByteString) : ByteString := rest.dropWhile isDigit

/-- At least one digit, then all that follow. -/
def passDigits (error : Error) (rest : ByteString) : Result ByteString :=
  if isDigit (peek rest) then .ok (skipDigits rest) else .error error

def passSign (rest : ByteString) : Result ByteString :=
  if peek rest = 0x2D then
    if isDigit (peek (rest.drop 1)) then .ok (rest.drop 1)
    else .error (invalidFormat "number has a sign with no digits")
  else .ok rest

def passInteger (rest : ByteString) : Result ByteString :=
  if peek rest = 0x30 then
    if isDigit (peek (rest.drop 1)) then .error (invalidFormat "number has a leading zero")
    else .ok (rest.drop 1)
  else passDigits (invalidFormat "number has no integer part") rest

def passFraction (rest : ByteString) : Result ByteString :=
  if peek rest = 0x2E then
    passDigits (invalidFormat "number has a fraction with no digits") (rest.drop 1)
  else .ok rest

def passExponent (rest : ByteString) : Result ByteString :=
  if peek rest = 0x65 ∨ peek rest = 0x45 then
    let digits := rest.drop 1
    passDigits (invalidFormat "number has an exponent with no digits")
      (if peek digits = 0x2B ∨ peek digits = 0x2D then digits.drop 1 else digits)
  else .ok rest

/-- The lexeme of the number that opens the text. -/
def parseNumber (start : ByteString) : Result (ByteString × ByteString) := do
  let rest ← passSign start
  let rest ← passInteger rest
  let rest ← passFraction rest
  let rest ← passExponent rest
  return (start.take (start.length - rest.length),rest)

section Containers
variable {α : Type} (limits : Limits)
  (value : ParserState → Result (JsonValue × ParserState))

/-- The loop that arrays and objects share: entries, a comma between them and a
closing byte. -/
def parseEntries (close : UInt8) (unterminated : Error)
    (entry : List α → ParserState → Result (List α × ParserState)) :
    ℕ → List α → ParserState → Result (List α × ParserState)
  | 0, _, _ => .error unterminated
  | fuel + 1, entries, state => do
    let (entries,state) ← entry entries { state with rest := skipWhitespace state.rest }
    let rest := skipWhitespace state.rest
    if peek rest = 0x2C then
      parseEntries close unterminated entry fuel entries { state with rest := rest.drop 1 }
    else if peek rest = close then .ok (entries,{ state with rest := rest.drop 1 })
    else .error unterminated

def parseMember (fields : List (ByteString × JsonValue)) (state : ParserState) :
    Result (List (ByteString × JsonValue) × ParserState) := do
  require (peek state.rest = 0x22) (invalidFormat "object key is not a string")
  let (key,rest) ← parseString limits state.rest
  let rest := skipWhitespace rest
  require (peek rest = 0x3A) (invalidFormat "object key is not followed by a colon")
  let (member,state) ← value { state with rest := skipWhitespace (rest.drop 1) }
  require (JsonValue.findField key fields).isNone (invalidFormat "object contains a duplicate key")
  return (JsonValue.setField key member fields,state)

def parseElement (items : List JsonValue) (state : ParserState) :
    Result (List JsonValue × ParserState) := do
  let (item,state) ← value state
  return (items ++ [item],state)

/-- A container: an opening byte, entries and the closing byte, or nothing
between the two. -/
def parseContainer (close : UInt8) (unterminated : Error)
    (entry : List α → ParserState → Result (List α × ParserState)) (state : ParserState) :
    Result (List α × ParserState) :=
  let rest := skipWhitespace (state.rest.drop 1)
  if peek rest = close then .ok ([],{ state with rest := rest.drop 1 })
  else parseEntries close unterminated entry (rest.length + 1) [] { state with rest := rest }

def parseObject (state : ParserState) : Result (JsonValue × ParserState) := do
  let (fields,state) ← parseContainer 0x7D (invalidFormat "object is not terminated")
    (parseMember limits value) state
  return (.object fields,state)

def parseArray (state : ParserState) : Result (JsonValue × ParserState) := do
  let (items,state) ← parseContainer 0x5D (invalidFormat "array is not terminated")
    (parseElement value) state
  return (.array items,state)

end Containers

def parseLiteral (literal : ByteString) (value : JsonValue) (state : ParserState) :
    Result (JsonValue × ParserState) := do
  let rest ← consumeLiteral literal state.rest
  return (value,{ state with rest := rest })

/-- One value, with the levels of nesting that are left for it and the values
inside it. -/
def parseValue (limits : Limits) : ℕ → ParserState → Result (JsonValue × ParserState)
  | 0, _ => .error (invalidFormat "document nesting exceeds the configured depth bound")
  | levels + 1, state => do
    require (state.nodes + 1 ≤ limits.maxJsonNodes)
      (capacityExceeded "document exceeds the configured node bound")
    let state := { state with nodes := state.nodes + 1 }
    let next := peek state.rest
    if next = 0x7B then parseObject limits (parseValue limits levels) state
    else if next = 0x5B then parseArray (parseValue limits levels) state
    else if next = 0x22 then do
      let (text,rest) ← parseString limits state.rest
      return (.string text,{ state with rest := rest })
    else if next = 0x74 then parseLiteral [0x74,0x72,0x75,0x65] (.boolean true) state
    else if next = 0x66 then parseLiteral [0x66,0x61,0x6C,0x73,0x65] (.boolean false) state
    else if next = 0x6E then parseLiteral [0x6E,0x75,0x6C,0x6C] .null state
    else if next = 0x2D ∨ isDigit next then do
      let (text,rest) ← parseNumber state.rest
      return (.number text,{ state with rest := rest })
    else .error (invalidFormat "unexpected character in document")

end Json

/-- A document: one value and nothing around it but white space. -/
def JsonValue.parse (text : ByteString) (limits : Limits) : Result JsonValue := do
  require (text.length ≤ limits.maxDocumentBytes)
    (Json.capacityExceeded "document exceeds the configured byte bound")
  let (value,state) ← Json.parseValue limits (limits.maxJsonDepth + 1)
    { rest := Json.skipWhitespace text }
  require (Json.skipWhitespace state.rest).isEmpty
    (Json.invalidFormat "document has trailing content")
  return value

end PathObservatory
