import PiAgentWeb.Library.JsValue

/-!
# Terminal control sequences

`stripAnsi` of `lib/format.ts` removes control sequences, control strings and formatting controls
from a text that is displayed. The index of the source is the rest of the text here. A text without
control characters is left as it is, and from every other text something is removed.
-/

namespace PiAgentWeb

/-- A character that `hasAnsiControlCharacters` looks for. -/
def isAnsiControl (u : UInt16) : Bool :=
  (u ≤ 0x1F && u != 0x09 && u != 0x0A) || (0x7F ≤ u && u ≤ 0x9F) || u == 0x061C || u == 0x200E ||
    u == 0x200F || (0x202A ≤ u && u ≤ 0x202E) || (0x2066 ≤ u && u ≤ 0x2069)

/-- `hasAnsiControlCharacters`. -/
def hasAnsiControlCharacters (text : JsString) : Bool := text.any isAnsiControl

/-- `consumeControlString`: the text after the terminator. -/
def consumeControlString : JsString → JsString
  | [] => []
  | u :: rest =>
    if u == 0x07 || u == 0x9C then rest
    else if u == 0x1B && rest.head? == some 0x5C then rest.tail
    else consumeControlString rest

/-- `consumeControlSequence`: the text after the final character. -/
def consumeControlSequence : JsString → JsString
  | [] => []
  | u :: rest => if 0x40 ≤ u && u ≤ 0x7E then rest else consumeControlSequence rest

/-- The text after an escape character and what belongs to it. -/
def consumeEscape (rest : JsString) : JsString :=
  if rest.head? == some 0x5B then consumeControlSequence rest.tail
  else if rest.head?.any fun u => u == 0x5D || u == 0x50 || u == 0x58 || u == 0x5E || u == 0x5F then
    consumeControlString rest.tail
  else (rest.dropWhile fun u => 0x20 ≤ u && u ≤ 0x2F).drop 1

/-- The loop of `stripAnsi`. -/
def stripAnsiFrom : ℕ → JsString → JsString
  | 0, _ => []
  | _, [] => []
  | fuel + 1, u :: rest =>
    if u == 0x1B then stripAnsiFrom fuel (consumeEscape rest)
    else if u == 0x9B then stripAnsiFrom fuel (consumeControlSequence rest)
    else if u == 0x90 || u == 0x98 || u == 0x9D || u == 0x9E || u == 0x9F then
      stripAnsiFrom fuel (consumeControlString rest)
    else if isAnsiControl u then stripAnsiFrom fuel rest
    else u :: stripAnsiFrom fuel rest

/-- `stripAnsi`. -/
def stripAnsi (text : JsString) : JsString :=
  if hasAnsiControlCharacters text then stripAnsiFrom text.length text else text

theorem length_consumeControlString_le (text : JsString) :
    (consumeControlString text).length ≤ text.length := by
  fun_induction consumeControlString text with
  | case1 => exact Nat.le_refl _
  | case2 u rest => simp
  | case3 u rest =>
    simp only [List.length_tail, List.length_cons]
    omega
  | case4 u rest _ _ ih =>
    simp only [List.length_cons]
    omega

theorem length_consumeControlSequence_le (text : JsString) :
    (consumeControlSequence text).length ≤ text.length := by
  fun_induction consumeControlSequence text with
  | case1 => exact Nat.le_refl _
  | case2 u rest => simp
  | case3 u rest _ ih =>
    simp only [List.length_cons]
    omega

theorem length_consumeEscape_le (text : JsString) :
    (consumeEscape text).length ≤ text.length := by
  have hsequence := length_consumeControlSequence_le text.tail
  have hstring := length_consumeControlString_le text.tail
  have hdrop := (List.dropWhile_suffix (l := text) fun u => 0x20 ≤ u && u ≤ 0x2F).length_le
  have htail : text.tail.length ≤ text.length := by simp
  unfold consumeEscape
  split_ifs
  · omega
  · omega
  · rw [List.length_drop]
    omega

theorem length_stripAnsiFrom (fuel : ℕ) (text : JsString) :
    (stripAnsiFrom fuel text).length ≤ text.length ∧
      (hasAnsiControlCharacters text = true →
        (stripAnsiFrom fuel text).length < text.length) := by
  induction fuel generalizing text with
  | zero =>
    refine ⟨Nat.zero_le _, fun h => ?_⟩
    cases text with
    | nil => cases h
    | cons u rest => simp [stripAnsiFrom]
  | succ fuel ih =>
    cases text with
    | nil => exact ⟨Nat.le_refl _, fun h => by cases h⟩
    | cons u rest =>
      have hshorter : ∀ rest' : JsString, rest'.length ≤ rest.length →
          (stripAnsiFrom fuel rest').length < (u :: rest).length := by
        intro rest' hle
        have := (ih rest').1
        simp only [List.length_cons]
        omega
      have hremoved : ∀ rest' : JsString, rest'.length ≤ rest.length →
          (stripAnsiFrom fuel rest').length ≤ (u :: rest).length ∧
            (hasAnsiControlCharacters (u :: rest) = true →
              (stripAnsiFrom fuel rest').length < (u :: rest).length) := fun rest' hle =>
        ⟨Nat.le_of_lt (hshorter rest' hle), fun _ => hshorter rest' hle⟩
      unfold stripAnsiFrom
      split_ifs with _ _ _ hcontrol
      · exact hremoved _ (length_consumeEscape_le rest)
      · exact hremoved _ (length_consumeControlSequence_le rest)
      · exact hremoved _ (length_consumeControlString_le rest)
      · exact hremoved _ (Nat.le_refl _)
      · simp only [hasAnsiControlCharacters, List.any_cons, Bool.eq_false_iff.mpr hcontrol,
          Bool.false_or, List.length_cons, Nat.add_le_add_iff_right, Nat.add_lt_add_iff_right]
        exact ih rest

theorem stripAnsi_of_plain {text : JsString} (h : hasAnsiControlCharacters text = false) :
    stripAnsi text = text := by
  rw [stripAnsi, h]
  rfl

theorem stripAnsi_eq_self_iff {text : JsString} :
    stripAnsi text = text ↔ hasAnsiControlCharacters text = false := by
  refine ⟨fun h => ?_, stripAnsi_of_plain⟩
  rw [Bool.eq_false_iff]
  intro hcontrol
  have hlt := (length_stripAnsiFrom text.length text).2 hcontrol
  rw [stripAnsi, if_pos hcontrol] at h
  rw [h] at hlt
  exact Nat.lt_irrefl _ hlt

end PiAgentWeb
