import PiAgentWeb.Library.JsValue
import PiAgentWeb.Library.InsertionMap
import Mathlib.Data.List.TakeWhile

/-!
# Parsing JSON

`JSON.parse` over the code units of a text, as a recursive descent with fuel. A number is kept as
the literal that `String` gives for it, which the parser gets from the number conversion of the
language. The members of an object come in the order in which the language lists them.
-/

namespace PiAgentWeb

/-- `[0-9]`. -/
def isDigit (u : UInt16) : Bool := 0x30 ≤ u && u ≤ 0x39

/-- The value of a sequence of decimal digits. -/
def decimalValue (digits : JsString) : ℕ :=
  digits.foldl (fun value u => 10 * value + (u.toNat - 0x30)) 0

namespace Json

/-! ## Numbers -/

/-- A character of a number token: a digit, a sign, a point or an exponent mark. -/
def isNumberUnit (u : UInt16) : Bool :=
  isDigit u || u == 0x2D || u == 0x2B || u == 0x2E || u == 0x65 || u == 0x45

/-- The parts of a number token: the sign, the digits before and after the point, and the
exponent with its sign. -/
structure NumberParts where
  negative : Bool
  integer : JsString
  fraction : Option JsString
  exponent : Option (Bool × JsString)
  deriving DecidableEq

/-- The exponent of a number token, after its mark. -/
def exponentPart (rest : JsString) : Bool × JsString :=
  if rest.head? == some 0x2D then (true, rest.tail)
  else if rest.head? == some 0x2B then (false, rest.tail)
  else (false, rest)

/-- A number token is split into its parts. -/
def numberParts (token : JsString) : NumberParts :=
  let negative := token.head? == some 0x2D
  let unsigned := if negative then token.tail else token
  let rest := unsigned.dropWhile isDigit
  let hasFraction := rest.head? == some 0x2E
  let afterFraction := if hasFraction then rest.tail.dropWhile isDigit else rest
  { negative, integer := unsigned.takeWhile isDigit
    fraction := if hasFraction then some (rest.tail.takeWhile isDigit) else none
    exponent := if afterFraction.isEmpty then none
      else if afterFraction.head? == some 0x65 || afterFraction.head? == some 0x45 then
        some (exponentPart afterFraction.tail)
      else some (false, []) }

/-- The integer part of a number token: without leading zeros. -/
def isIntegerPart (digits : JsString) : Bool :=
  digits.all isDigit && !digits.isEmpty && (digits.head? != some 0x30 || digits.length == 1)

/-- The number tokens of JSON. -/
def isJsonNumber (token : JsString) : Bool :=
  let parts := numberParts token
  token.all isNumberUnit && isIntegerPart parts.integer &&
    parts.fraction.all (!·.isEmpty) &&
    parts.exponent.all fun exponent => !exponent.2.isEmpty && exponent.2.all isDigit

/-- The number conversion of the language: `String(Number(token))`, with `-0` for negative zero. -/
structure JsNumbers where
  literal : JsString → JsString
  literal_zero : literal (js "0") = js "0"

/-- The conversion on tokens that are already in the form that it gives. -/
def JsNumbers.exact : JsNumbers where
  literal := id
  literal_zero := rfl

/-! ## The order of the members -/

/-- The member name is an array index. -/
def isArrayIndex (name : JsString) : Bool :=
  isIntegerPart name && decimalValue name < 2 ^ 32 - 1

/-- The own members of an object in the order of the language: array indices first, in ascending
order, then the other names in insertion order. -/
def ownOrder (fields : List (JsString × Json)) : List (JsString × Json) :=
  (fields.filter fun entry => isArrayIndex entry.1).mergeSort
      (fun left right => decimalValue left.1 ≤ decimalValue right.1) ++
    fields.filter fun entry => !isArrayIndex entry.1

/-- The object of the members of a text; the last one of a name counts. -/
def ofMembers (members : List (JsString × Json)) : Json :=
  .obj (ownOrder (members.foldl
    (fun fields member => InsertionMap.assign fields member.1 member.2) []))

/-! ## The parser -/

/-- White space between tokens. -/
def isSpace (u : UInt16) : Bool := u == 0x20 || u == 0x09 || u == 0x0A || u == 0x0D

/-- The value of a hexadecimal digit. -/
def hexValue (u : UInt16) : Option ℕ :=
  if isDigit u then some (u.toNat - 0x30)
  else if 0x61 ≤ u && u ≤ 0x66 then some (u.toNat - 0x61 + 10)
  else if 0x41 ≤ u && u ≤ 0x46 then some (u.toNat - 0x41 + 10)
  else none

/-- The code unit of four hexadecimal digits. -/
def hexUnit (a b c d : UInt16) : Option UInt16 := do
  let a ← hexValue a
  let b ← hexValue b
  let c ← hexValue c
  let d ← hexValue d
  return UInt16.ofNat (0x1000 * a + 0x100 * b + 0x10 * c + d)

/-- The code unit of a short escape. -/
def shortEscape (u : UInt16) : Option UInt16 :=
  if u = 0x22 ∨ u = 0x5C ∨ u = 0x2F then some u
  else if u = 0x62 then some 0x08
  else if u = 0x66 then some 0x0C
  else if u = 0x6E then some 0x0A
  else if u = 0x72 then some 0x0D
  else if u = 0x74 then some 0x09
  else none

/-- A code unit in front of a value that was read. -/
def consUnit (u : UInt16) (read : Option (JsString × JsString)) : Option (JsString × JsString) :=
  read.map fun (value, rest) => (u :: value, rest)

/-- The rest of a string literal after its opening quote. -/
def readString : JsString → Option (JsString × JsString)
  | [] => none
  | u :: rest =>
    if u = 0x22 then some ([], rest)
    else if u = 0x5C then
      match rest with
      | [] => none
      | v :: rest =>
        if v = 0x75 then
          match rest with
          | a :: b :: c :: d :: rest => (hexUnit a b c d).bind (consUnit · (readString rest))
          | _ => none
        else (shortEscape v).bind (consUnit · (readString rest))
    else if u < 0x20 then none
    else consUnit u (readString rest)

/-- A number token. -/
def readNumber (numbers : JsNumbers) (s : JsString) : Option (Json × JsString) :=
  let token := s.takeWhile isNumberUnit
  if isJsonNumber token then some (.num (numbers.literal token), s.dropWhile isNumberUnit)
  else none

/-- A keyword. -/
def readKeyword (keyword : JsString) (value : Json) (s : JsString) : Option (Json × JsString) :=
  if keyword.isPrefixOf s then some (value, s.drop keyword.length) else none

mutual

/-- A value, after white space. -/
def readValue (numbers : JsNumbers) : ℕ → JsString → Option (Json × JsString)
  | 0, _ => none
  | fuel + 1, s =>
    match s.dropWhile isSpace with
    | [] => none
    | u :: rest =>
      if u = 0x22 then (readString rest).map fun (value, rest) => (.str value, rest)
      else if u = 0x5B then
        if (rest.dropWhile isSpace).head? = some 0x5D then
          some (.arr [], (rest.dropWhile isSpace).tail)
        else (readItems numbers fuel rest).map fun (items, rest) => (.arr items, rest)
      else if u = 0x7B then
        if (rest.dropWhile isSpace).head? = some 0x7D then
          some (.obj [], (rest.dropWhile isSpace).tail)
        else (readMembers numbers fuel rest).map fun (members, rest) => (ofMembers members, rest)
      else if u = 0x6E then readKeyword (js "null") .null (u :: rest)
      else if u = 0x74 then readKeyword (js "true") (.bool true) (u :: rest)
      else if u = 0x66 then readKeyword (js "false") (.bool false) (u :: rest)
      else readNumber numbers (u :: rest)

/-- The elements of an array up to its closing bracket. -/
def readItems (numbers : JsNumbers) : ℕ → JsString → Option (List Json × JsString)
  | 0, _ => none
  | fuel + 1, s => do
    let (item, rest) ← readValue numbers fuel s
    let rest := rest.dropWhile isSpace
    if rest.head? = some 0x5D then some ([item], rest.tail)
    else if rest.head? = some 0x2C then do
      let (items, rest) ← readItems numbers fuel rest.tail
      some (item :: items, rest)
    else none

/-- The members of an object up to its closing brace. -/
def readMembers (numbers : JsNumbers) : ℕ → JsString → Option (List (JsString × Json) × JsString)
  | 0, _ => none
  | fuel + 1, s => do
    let s := s.dropWhile isSpace
    if s.head? = some 0x22 then do
      let (name, rest) ← readString s.tail
      let rest := rest.dropWhile isSpace
      if rest.head? = some 0x3A then do
        let (value, rest) ← readValue numbers fuel rest.tail
        let rest := rest.dropWhile isSpace
        if rest.head? = some 0x7D then some ([(name, value)], rest.tail)
        else if rest.head? = some 0x2C then do
          let (members, rest) ← readMembers numbers fuel rest.tail
          some ((name, value) :: members, rest)
        else none
      else none
    else none

end

/-- `JSON.parse`. -/
def parse (numbers : JsNumbers) (text : JsString) : Option Json :=
  (readValue numbers (2 * text.length + 1) text).bind fun (value, rest) =>
    if rest.all isSpace then some value else none

/-! ## Negative zero -/

/-- The literal that `JSON.stringify` prints for a number: negative zero loses its sign. -/
def printedLiteral (literal : JsString) : JsString := if literal = js "-0" then js "0" else literal

mutual

/-- A value without negative zeros. -/
def printed : Json → Json
  | .null => .null
  | .bool value => .bool value
  | .num literal => .num (printedLiteral literal)
  | .str value => .str value
  | .arr items => .arr (printedItems items)
  | .obj fields => .obj (printedFields fields)

/-- Elements without negative zeros. -/
def printedItems : List Json → List Json
  | [] => []
  | item :: rest => printed item :: printedItems rest

/-- Members without negative zeros. -/
def printedFields : List (JsString × Json) → List (JsString × Json)
  | [] => []
  | (name, value) :: rest => (name, printed value) :: printedFields rest

end

/-- `JSON.stringify` of a value that may hold negative zeros. -/
def serialize (value : Json) : JsString := stringify (printed value)

end Json

end PiAgentWeb
