import PiAgentWeb.Library.JsonSize
import PiAgentWeb.Library.Utf16

/-!
# JavaScript data and its JSON text

Values that are built from `undefined`, primitives, arrays and objects, as a program holds them
before they are serialized. `JSON.stringify` leaves members out that are `undefined` and writes
`null` for what has no JSON text, so that what it writes is the text of a JSON value.
-/

namespace PiAgentWeb

/-- A JavaScript number, as far as JSON goes. -/
structure JsNumber where
  /-- `String(value)`, with `0` for negative zero. -/
  literal : JsString
  /-- `Number.isFinite(value)`. -/
  isFinite : Bool
  /-- `Math.abs(value) <= Number.MAX_SAFE_INTEGER`. -/
  isSafe : Bool
  /-- The value, when it is a natural number that is a safe integer. -/
  safeNat : Option ℕ
  ascii : ∀ u ∈ literal, u < 0x80
  /-- No number prints longer. -/
  short : literal.length ≤ 32

theorem ascii_of_all {s : JsString} (h : (s.all fun u => decide (u < 0x80)) = true) :
    ∀ u ∈ s, u < 0x80 := fun u hu =>
  of_decide_eq_true (List.all_eq_true.mp h u hu)

/-- The number of a natural number that is a safe integer. -/
def JsNumber.ofDigits (literal : String) (n : ℕ) (h : ∀ u ∈ js literal, u < 0x80)
    (hshort : (js literal).length ≤ 32 := by decide) : JsNumber where
  literal := js literal
  isFinite := true
  isSafe := true
  safeNat := some n
  ascii := h
  short := hshort

/-- A JavaScript value without functions, symbols or cycles. The members of an object are listed in
the order of `Object.keys`, each name once. -/
inductive JsData where
  | undefined
  | null
  | bool (value : Bool)
  | num (value : JsNumber)
  | str (value : JsString)
  | arr (items : List JsData)
  | obj (fields : List (JsString × JsData))

namespace JsData

/-- The member of an object under a name; `undefined` when there is none. -/
def get (fields : List (JsString × JsData)) (name : String) : JsData :=
  ((fields.find? fun entry => entry.1 == js name).map (·.2)).getD .undefined

/-- `Object.hasOwn`. -/
def hasOwn (fields : List (JsString × JsData)) (name : String) : Bool :=
  fields.any fun entry => entry.1 == js name

/-- The value is the string. -/
def isString (value : JsData) (literal : String) : Bool :=
  match value with
  | .str value => value == js literal
  | _ => false

/-- `Array.isArray`. -/
def isArray : JsData → Bool
  | .arr _ => true
  | _ => false

/-- The value is `undefined`. -/
def isUndefined : JsData → Bool
  | .undefined => true
  | _ => false

mutual

/-- The JSON value that `JSON.stringify` writes. -/
def toJson : JsData → Json
  | .undefined => .null
  | .null => .null
  | .bool value => .bool value
  | .num value => if value.isFinite then .num value.literal else .null
  | .str value => .str value
  | .arr items => .arr (toJsonItems items)
  | .obj fields => .obj (toJsonFields fields)

/-- The elements of an array. -/
def toJsonItems : List JsData → List Json
  | [] => []
  | item :: rest => toJson item :: toJsonItems rest

/-- The members that are not `undefined`. -/
def toJsonFields : List (JsString × JsData) → List (JsString × Json)
  | [] => []
  | (name, value) :: rest =>
    if value.isUndefined then toJsonFields rest else (name, toJson value) :: toJsonFields rest

end

/-- `JSON.stringify`; `undefined` itself has no text. -/
def stringify (value : JsData) : Option JsString :=
  if value.isUndefined then none else some (Json.stringify (toJson value))

example : stringify (.obj [(js "a", .undefined), (js "b", .arr [.undefined])]) =
    some (js "\x7b\"b\":[null]\x7d") := by decide +kernel

end JsData

/-! ## The sizes of texts -/

theorem not_surrogate_of_ascii {u : UInt16} (hu : u < 0x80) :
    isHighSurrogate u = false ∧ isLowSurrogate u = false := by
  have hvalue : (0x80 : UInt16).toNat = 128 := rfl
  have hhigh : (0xD800 : UInt16).toNat = 55296 := rfl
  have hlow : (0xDC00 : UInt16).toNat = 56320 := rfl
  simp only [isHighSurrogate, isLowSurrogate, Bool.and_eq_false_iff, decide_eq_false_iff_not,
    UInt16.lt_iff_toNat_lt, UInt16.le_iff_toNat_le] at hu ⊢
  constructor <;> left <;> omega

theorem utf8ByteLength_ascii_append {s : JsString} (h : ∀ u ∈ s, u < 0x80) (rest : JsString) :
    utf8ByteLength (s ++ rest) = s.length + utf8ByteLength rest := by
  induction s with
  | nil => simp
  | cons u s ih =>
    have hu : u < 0x80 := h u List.mem_cons_self
    rw [List.cons_append, utf8ByteLength_cons (not_surrogate_of_ascii hu).1,
      ih fun v hv => h v (List.mem_cons_of_mem _ hv), utf8UnitLength, if_pos hu, List.length_cons]
    omega

theorem utf8ByteLength_ascii {s : JsString} (h : ∀ u ∈ s, u < 0x80) :
    utf8ByteLength s = s.length := by
  have := utf8ByteLength_ascii_append h []
  rw [List.append_nil] at this
  simpa [utf8ByteLength] using this

theorem utf8ByteLength_append {first rest : JsString} (h : splitsPair first rest = false) :
    utf8ByteLength (first ++ rest) = utf8ByteLength first + utf8ByteLength rest := by
  rw [← length_utf8Encode, utf8Encode_append h, List.length_append, length_utf8Encode,
    length_utf8Encode]

namespace Json

/-- What a code unit outside a surrogate pair takes inside a JSON string literal. -/
def unitBytes (u : UInt16) : ℕ :=
  if u = 0x22 ∨ u = 0x5C then 2
  else if u ≤ 0x1F then
    if u = 0x08 ∨ u = 0x09 ∨ u = 0x0A ∨ u = 0x0C ∨ u = 0x0D then 2 else 6
  else if isHighSurrogate u ∨ isLowSurrogate u then 6
  else utf8UnitLength u

/-- What a string takes between the quotes of its literal. -/
def bodyBytes : JsString → ℕ
  | [] => 0
  | [u] => unitBytes u
  | u :: v :: rest =>
    if isHighSurrogate u && isLowSurrogate v then 4 + bodyBytes rest
    else unitBytes u + bodyBytes (v :: rest)

theorem hexDigit_ascii {n : ℕ} (h : n < 16) : hexDigit n < 0x80 := by
  have hall : ∀ n < 16, hexDigit n < 0x80 := by decide
  exact hall n h

theorem unicodeEscape_ascii (u : UInt16) : ∀ v ∈ unicodeEscape u, v < 0x80 := by
  have hu := u.toNat_lt
  intro v hv
  simp only [unicodeEscape, List.mem_cons, List.not_mem_nil, or_false] at hv
  rcases hv with rfl | rfl | rfl | rfl | rfl | rfl
  · decide
  · decide
  all_goals exact hexDigit_ascii (by omega)

/-- The control characters, by either bound. -/
theorem control_iff {u : UInt16} : u < 0x20 ↔ u ≤ 0x1F := by
  have h20 : (0x20 : UInt16).toNat = 32 := rfl
  have h1f : (0x1F : UInt16).toNat = 31 := rfl
  rw [UInt16.lt_iff_toNat_lt, UInt16.le_iff_toNat_le]
  omega

theorem utf8ByteLength_escapeUnit (u : UInt16) (rest : JsString) :
    utf8ByteLength (escapeUnit u ++ rest) = unitBytes u + utf8ByteLength rest := by
  have hshort : ∀ v w : UInt16, v < 0x80 → w < 0x80 →
      utf8ByteLength ([v, w] ++ rest) = 2 + utf8ByteLength rest := fun v w hv hw =>
    utf8ByteLength_ascii_append (s := [v, w]) (by simp [hv, hw]) rest
  unfold escapeUnit
  split_ifs with h22 h5c h08 h0c h0a h0d h09 hescape
  · subst h22
    rw [hshort _ _ (by decide) (by decide)]
    rfl
  · subst h5c
    rw [hshort _ _ (by decide) (by decide)]
    rfl
  · subst h08
    rw [hshort _ _ (by decide) (by decide)]
    rfl
  · subst h0c
    rw [hshort _ _ (by decide) (by decide)]
    rfl
  · subst h0a
    rw [hshort _ _ (by decide) (by decide)]
    rfl
  · subst h0d
    rw [hshort _ _ (by decide) (by decide)]
    rfl
  · subst h09
    rw [hshort _ _ (by decide) (by decide)]
    rfl
  · rw [utf8ByteLength_ascii_append (unicodeEscape_ascii u)]
    have hsix : unitBytes u = 6 := by
      simp only [Bool.or_eq_true, decide_eq_true_eq, control_iff, or_assoc] at hescape
      unfold unitBytes
      rw [if_neg (by simp [h22, h5c])]
      split
      · rw [if_neg (by simp [h08, h09, h0a, h0c, h0d])]
      · rename_i hnot
        rw [if_pos (hescape.resolve_left hnot)]
    rw [hsix]
    rfl
  · have hplain : unitBytes u = utf8UnitLength u ∧ isHighSurrogate u = false := by
      simp only [Bool.or_eq_true, decide_eq_true_eq, control_iff, not_or, Bool.not_eq_true]
        at hescape
      obtain ⟨⟨hnot, hhigh⟩, hlow⟩ := hescape
      refine ⟨?_, hhigh⟩
      unfold unitBytes
      rw [if_neg (by simp [h22, h5c]), if_neg hnot, if_neg (by simp [hhigh, hlow])]
    rw [List.singleton_append, utf8ByteLength_cons hplain.2, hplain.1]

theorem utf8ByteLength_escape (s rest : JsString) :
    utf8ByteLength (escape s ++ rest) = bodyBytes s + utf8ByteLength rest := by
  induction s using escape.induct with
  | case1 => simp [escape, bodyBytes]
  | case2 u => rw [escape, utf8ByteLength_escapeUnit, bodyBytes]
  | case3 u v s hpair ih =>
    rw [escape, if_pos hpair, List.cons_append, List.cons_append, utf8ByteLength, if_pos hpair, ih,
      bodyBytes, if_pos hpair]
    omega
  | case4 u v s hpair ih =>
    rw [escape, if_neg hpair, List.append_assoc, utf8ByteLength_escapeUnit, ih, bodyBytes,
      if_neg hpair]
    omega

theorem utf8ByteLength_quote (s : JsString) : utf8ByteLength (quote s) = bodyBytes s + 2 := by
  rw [quote, List.cons_append, utf8ByteLength_cons (by decide),
    utf8ByteLength_escape s [0x22]]
  change 1 + (bodyBytes s + 1) = _
  omega

end Json

end PiAgentWeb
