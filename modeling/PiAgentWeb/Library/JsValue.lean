import Mathlib.Algebra.GroupWithZero.Nat
import Mathlib.Data.List.Basic

/-!
# JavaScript strings and JSON values

A JavaScript string is a sequence of UTF-16 code units, lone surrogates included: its length
and its concatenation are those of the list of units. JSON values are finite trees; a number is
kept as its canonical literal, so that serialization needs no floating-point printer.
-/

namespace PiAgentWeb

/-- A JavaScript string: a list of UTF-16 code units. -/
abbrev JsString := List UInt16

instance : LawfulBEq JsString := inferInstance

/-- The UTF-16 code units of one Unicode scalar value. -/
def utf16Units (c : Char) : JsString :=
  let n := c.toNat
  if n < 0x10000 then [UInt16.ofNat n]
  else [UInt16.ofNat (0xD800 + (n - 0x10000) / 0x400),
    UInt16.ofNat (0xDC00 + (n - 0x10000) % 0x400)]

/-- The JavaScript string of a literal. -/
def js (s : String) : JsString := s.toList.flatMap utf16Units

/-- `String(n)` for a natural number. -/
def jsNat (n : ℕ) : JsString := js (toString n)

/-- The code unit is a high surrogate. -/
def isHighSurrogate (u : UInt16) : Bool := 0xD800 ≤ u && u ≤ 0xDBFF

/-- The code unit is a low surrogate. -/
def isLowSurrogate (u : UInt16) : Bool := 0xDC00 ≤ u && u ≤ 0xDFFF

theorem not_low_of_high {u : UInt16} (h : isHighSurrogate u = true) : isLowSurrogate u = false := by
  simp only [isHighSurrogate, isLowSurrogate, Bool.and_eq_true, decide_eq_true_eq,
    UInt16.le_iff_toNat_le, Bool.and_eq_false_iff, decide_eq_false_iff_not] at *
  simp only [UInt16.reduceToNat] at *
  omega

/-- The UTF-8 length of one code unit outside a surrogate pair; a lone surrogate is encoded as
the replacement character. -/
def utf8UnitLength (u : UInt16) : ℕ := if u < 0x80 then 1 else if u < 0x800 then 2 else 3

/-- `Buffer.byteLength`: the length of the UTF-8 encoding. -/
def utf8ByteLength : JsString → ℕ
  | [] => 0
  | [u] => utf8UnitLength u
  | u :: v :: rest =>
    if isHighSurrogate u && isLowSurrogate v then 4 + utf8ByteLength rest
    else utf8UnitLength u + utf8ByteLength (v :: rest)

/-- `Number.isSafeInteger` of a natural number. -/
def isSafeInteger (n : ℕ) : Bool := n ≤ 2 ^ 53 - 1

/-- A JSON value as `JSON.parse` can produce it. -/
inductive Json where
  | null
  | bool (value : Bool)
  | num (literal : JsString)
  | str (value : JsString)
  | arr (items : List Json)
  | obj (fields : List (JsString × Json))

namespace Json

/-- The first field of a record under a name; `none` is `undefined`. -/
def field (fields : List (JsString × Json)) (name : String) : Option Json :=
  (fields.find? fun entry => entry.1 == js name).map (·.2)

/-- The lowercase hexadecimal digit of a nibble. -/
def hexDigit (n : ℕ) : UInt16 := UInt16.ofNat (if n < 10 then 0x30 + n else 0x61 + (n - 10))

/-- The escape `\uXXXX` of one code unit. -/
def unicodeEscape (u : UInt16) : JsString :=
  let n := u.toNat
  [0x5C, 0x75, hexDigit (n / 0x1000), hexDigit (n / 0x100 % 0x10), hexDigit (n / 0x10 % 0x10),
    hexDigit (n % 0x10)]

/-- One code unit inside a JSON string literal, outside a surrogate pair. -/
def escapeUnit (u : UInt16) : JsString :=
  if u = 0x22 then [0x5C, 0x22]
  else if u = 0x5C then [0x5C, 0x5C]
  else if u = 0x08 then [0x5C, 0x62]
  else if u = 0x0C then [0x5C, 0x66]
  else if u = 0x0A then [0x5C, 0x6E]
  else if u = 0x0D then [0x5C, 0x72]
  else if u = 0x09 then [0x5C, 0x74]
  else if u < 0x20 || isHighSurrogate u || isLowSurrogate u then unicodeEscape u
  else [u]

/-- The body of a JSON string literal. A well-formed surrogate pair is kept, a lone surrogate
is escaped. -/
def escape : JsString → JsString
  | [] => []
  | [u] => escapeUnit u
  | u :: v :: rest =>
    if isHighSurrogate u && isLowSurrogate v then u :: v :: escape rest
    else escapeUnit u ++ escape (v :: rest)

/-- A JSON string literal. -/
def quote (s : JsString) : JsString := 0x22 :: escape s ++ [0x22]

/-- Items separated by commas. -/
def joinComma : List JsString → JsString
  | [] => []
  | [item] => item
  | item :: rest => item ++ 0x2C :: joinComma rest

mutual

/-- `JSON.stringify` of a JSON value. -/
def stringify : Json → JsString
  | .null => js "null"
  | .bool true => js "true"
  | .bool false => js "false"
  | .num literal => literal
  | .str value => quote value
  | .arr items => 0x5B :: joinComma (stringifyItems items) ++ [0x5D]
  | .obj fields => 0x7B :: joinComma (stringifyFields fields) ++ [0x7D]

/-- The serialized elements of an array. -/
def stringifyItems : List Json → List JsString
  | [] => []
  | item :: rest => stringify item :: stringifyItems rest

/-- The serialized members of an object, in insertion order. -/
def stringifyFields : List (JsString × Json) → List JsString
  | [] => []
  | (name, value) :: rest => (quote name ++ 0x3A :: stringify value) :: stringifyFields rest

end

/-- The number of UTF-8 bytes of the serialized value. -/
def byteLength (value : Json) : ℕ := utf8ByteLength (stringify value)

example : stringify (.obj [(js "a", .arr [.num (js "1"), .str (js "x\"y"), .null])]) =
    js "\x7b\"a\":[1,\"x\\\"y\",null]\x7d" := by decide +kernel

end Json

end PiAgentWeb
