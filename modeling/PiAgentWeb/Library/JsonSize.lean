import PiAgentWeb.Library.JsValue
import Mathlib.Algebra.BigOperators.Group.List.Basic

/-!
# The size of serialized JSON

The number of UTF-8 bytes is not additive over JavaScript strings, because a surrogate pair may
lie across the seam; it is additive where the seam is at an ASCII character, as it is at every
bracket, comma and colon of a serialized value. So the size of an array or an object is the sum of
the sizes of its parts and separators.
-/

namespace PiAgentWeb

theorem utf8ByteLength_cons {u : UInt16} (hu : isHighSurrogate u = false) (rest : JsString) :
    utf8ByteLength (u :: rest) = utf8UnitLength u + utf8ByteLength rest := by
  cases rest with
  | nil => rfl
  | cons v rest => simp [utf8ByteLength, hu]

theorem utf8ByteLength_append_cons {u : UInt16} (hu : isLowSurrogate u = false)
    (first rest : JsString) :
    utf8ByteLength (first ++ u :: rest) =
      utf8ByteLength first + utf8ByteLength (u :: rest) := by
  induction first using utf8ByteLength.induct with
  | case1 => simp [utf8ByteLength]
  | case2 v => simp [utf8ByteLength, hu]
  | case3 v w first hpair ih =>
    simp only [List.cons_append, utf8ByteLength, hpair, if_true, ih]
    omega
  | case4 v w first hpair ih =>
    simp only [List.cons_append, utf8ByteLength, hpair] at ih ⊢
    simp only [Bool.false_eq_true, if_false]
    omega

theorem utf8ByteLength_join {u : UInt16} (hlow : isLowSurrogate u = false)
    (hhigh : isHighSurrogate u = false) (hascii : utf8UnitLength u = 1) (first rest : JsString) :
    utf8ByteLength (first ++ u :: rest) = utf8ByteLength first + 1 + utf8ByteLength rest := by
  rw [utf8ByteLength_append_cons hlow, utf8ByteLength_cons hhigh, hascii]
  omega

namespace Json

theorem utf8ByteLength_joinComma (parts : List JsString) :
    utf8ByteLength (joinComma parts) =
      (parts.map utf8ByteLength).sum + (parts.length - 1) := by
  induction parts using joinComma.induct with
  | case1 => rfl
  | case2 part => simp [joinComma]
  | case3 part rest hrest ih =>
    have hne : rest ≠ [] := by
      rintro rfl
      exact hrest rfl
    have hlength := List.length_pos_of_ne_nil hne
    rw [joinComma, utf8ByteLength_join (by decide) (by decide) (by decide), ih]
    · simp only [List.map_cons, List.sum_cons, List.length_cons]
      omega
    · exact hrest

theorem utf8ByteLength_brackets {left right : UInt16} (hleft : isHighSurrogate left = false)
    (hone : utf8UnitLength left = 1) (hlow : isLowSurrogate right = false)
    (hhigh : isHighSurrogate right = false) (hascii : utf8UnitLength right = 1) (body : JsString) :
    utf8ByteLength (left :: body ++ [right]) = utf8ByteLength body + 2 := by
  rw [List.cons_append, utf8ByteLength_cons hleft, hone, utf8ByteLength_join hlow hhigh hascii]
  simp only [utf8ByteLength]
  omega

theorem stringifyItems_eq_map (items : List Json) : stringifyItems items = items.map stringify := by
  induction items with
  | nil => rfl
  | cons item rest ih => rw [stringifyItems, ih, List.map_cons]

theorem stringifyFields_eq_map (fields : List (JsString × Json)) :
    stringifyFields fields =
      fields.map fun entry => quote entry.1 ++ 0x3A :: stringify entry.2 := by
  induction fields with
  | nil => rfl
  | cons entry rest ih => rw [stringifyFields, ih, List.map_cons]

theorem byteLength_arr (items : List Json) :
    byteLength (.arr items) = (items.map byteLength).sum + (items.length - 1) + 2 := by
  unfold byteLength
  rw [stringify, utf8ByteLength_brackets (by decide) (by decide) (by decide) (by decide)
    (by decide), utf8ByteLength_joinComma, stringifyItems_eq_map]
  simp [List.map_map, Function.comp_def]

theorem byteLength_obj (fields : List (JsString × Json)) :
    byteLength (.obj fields) =
      (fields.map fun entry =>
        utf8ByteLength (quote entry.1) + 1 + byteLength entry.2).sum +
        (fields.length - 1) + 2 := by
  have hmember : ∀ entry : JsString × Json,
      utf8ByteLength (quote entry.1 ++ 0x3A :: stringify entry.2) =
        utf8ByteLength (quote entry.1) + 1 + utf8ByteLength (stringify entry.2) :=
    fun entry => utf8ByteLength_join (by decide) (by decide) (by decide) _ _
  unfold byteLength
  rw [stringify, utf8ByteLength_brackets (by decide) (by decide) (by decide) (by decide)
    (by decide), utf8ByteLength_joinComma, stringifyFields_eq_map]
  simp [List.map_map, Function.comp_def, hmember]

end Json

end PiAgentWeb
