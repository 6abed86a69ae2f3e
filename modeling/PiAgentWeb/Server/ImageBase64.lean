import PiAgentWeb.Library.Base64

/-!
# Base64 texts of images

`canonicalBase64DecodedLength` of `pi-payload-externalizer.ts` admits the base64 text of an image
before anything of it is decoded: a regular expression checks the alphabet and the padding, then the
unused bits of the last character. What it admits are the encodings of non-empty byte strings, and
the length it returns is that of the bytes. The engine keeps a place to go back to for each
character that the repeated group takes, and a text for which these do not fit on its stack makes
the test throw, whatever the text is.
-/

namespace PiAgentWeb

/-- The texts that `/^(?:[A-Za-z0-9+/]{4})*(?:[A-Za-z0-9+/]{2}==|[A-Za-z0-9+/]{3}=)?$/u`
describes. -/
def base64Pattern : JsString → Bool
  | [] => true
  | a :: b :: c :: d :: rest =>
    isBase64Unit a && isBase64Unit b &&
      (isBase64Unit c && isBase64Unit d && base64Pattern rest ||
        (c == 0x3D || isBase64Unit c) && d == 0x3D && rest.isEmpty)
  | _ => false

/-- How many characters the repeated group takes, whole or in part, until the backtracking stack of
the engine (64 MiB, in V8) is full. -/
def base64StackUnits : ℕ := 4473907

/-- The `RangeError` of a regular expression that has no stack left. -/
def stackExceeded : JsString := js "Maximum call stack size exceeded"

/-- `test` of the regular expression. -/
def matchesBase64 (value : JsString) : Except JsString Bool :=
  if base64StackUnits ≤ (value.takeWhile isBase64Unit).length then .error stackExceeded
  else .ok (base64Pattern value)

/-- The number of padding characters at the end of a text. -/
def base64Padding (value : JsString) : ℕ :=
  if js "==" <:+ value then 2 else if js "=" <:+ value then 1 else 0

/-- `canonicalBase64DecodedLength` for what the regular expression says; an error has the message of
`invalid_base64`. -/
def matchedDecodedLength (value : JsString) (matched : Bool) : Except JsString ℕ :=
  if value.length = 0 || value.length % 4 ≠ 0 || !matched then
    .error (js "Pi image base64 is not canonical")
  else
    let padding := base64Padding value
    let finalSextet := base64Sextet (value.getD (value.length - padding - 1) 0)
    if padding = 2 && finalSextet % 16 ≠ 0 || padding = 1 && finalSextet % 4 ≠ 0 then
      .error (js "Pi image base64 has non-zero padding bits")
    else .ok (value.length / 4 * 3 - padding)

/-- `canonicalBase64DecodedLength`; the regular expression is tested behind the two comparisons of
the length. -/
def canonicalBase64DecodedLength (value : JsString) : Except JsString ℕ :=
  if value.length = 0 || value.length % 4 ≠ 0 then matchedDecodedLength value false
  else
    match matchesBase64 value with
    | .error message => .error message
    | .ok matched => matchedDecodedLength value matched

theorem decodedLength_last {a b c d : UInt16} {length : ℕ} :
    matchedDecodedLength [a, b, c, d] (base64Pattern [a, b, c, d]) = .ok length ↔
      CanonicalBase64 [a, b, c, d] ∧ (base64Decode [a, b, c, d]).length = length := by
  have hcanonical : CanonicalBase64 [a, b, c, d] ↔ isBase64Unit a = true ∧ isBase64Unit b = true ∧
      (c = 0x3D ∧ d = 0x3D ∧ base64Sextet b % 16 = 0 ∨
        isBase64Unit c = true ∧ d = 0x3D ∧ base64Sextet c % 4 = 0 ∨
        isBase64Unit c = true ∧ isBase64Unit d = true) := by
    constructor
    · intro h
      cases h with
      | one ha hb hzero => exact ⟨ha, hb, .inl ⟨rfl, rfl, hzero⟩⟩
      | two ha hb hc hzero => exact ⟨ha, hb, .inr (.inl ⟨hc, rfl, hzero⟩)⟩
      | group ha hb hc hd => exact ⟨ha, hb, .inr (.inr ⟨hc, hd⟩)⟩
    · rintro ⟨ha, hb, ⟨rfl, rfl, hzero⟩ | ⟨hc, rfl, hzero⟩ | ⟨hc, hd⟩⟩
      · exact .one ha hb hzero
      · exact .two ha hb hc hzero
      · exact .group ha hb hc hd .nil
  have htwo : js "==" <:+ [a, b, c, d] ↔ c = 0x3D ∧ d = 0x3D := by
    rw [show js "==" = [0x3D, 0x3D] from rfl, List.suffix_iff_eq_drop]
    simp [eq_comm]
  have hone : js "=" <:+ [a, b, c, d] ↔ d = 0x3D := by
    rw [show js "=" = [0x3D] from rfl, List.suffix_iff_eq_drop]
    simp [eq_comm]
  rw [hcanonical]
  simp only [matchedDecodedLength, base64Pattern, base64Padding, htwo, hone]
  have hpadding : isBase64Unit 61 = false := by decide
  by_cases hd : d = 0x3D
  · by_cases hc : c = 0x3D
    · cases ha : isBase64Unit a <;> cases hb : isBase64Unit b <;>
        simp [hc, hd, base64Decode, hpadding]
      split <;> simp [*]
    · cases ha : isBase64Unit a <;> cases hb : isBase64Unit b <;> cases hunit : isBase64Unit c <;>
        simp [hc, hd, base64Decode, hpadding]
      split <;> simp [*]
  · cases ha : isBase64Unit a <;> cases hb : isBase64Unit b <;> cases hunit : isBase64Unit c <;>
      cases hunit' : isBase64Unit d <;> simp [hd, base64Decode]
    rw [if_neg (ne_padding hunit)]
    simp

/-! ## Texts of several groups -/

theorem base64Padding_group (a b c d : UInt16) {rest : JsString} (h : 4 ≤ rest.length) :
    base64Padding (a :: b :: c :: d :: rest) = base64Padding rest := by
  have hsuffix : ∀ t : JsString, t.length ≤ 2 →
      (t <:+ a :: b :: c :: d :: rest ↔ t <:+ rest) := by
    intro t ht
    refine ⟨fun hs => ?_, fun hs => hs.trans (List.suffix_append [a, b, c, d] rest)⟩
    exact List.suffix_of_suffix_length_le hs (List.suffix_append [a, b, c, d] rest) (by omega)
  simp only [base64Padding, hsuffix _ (show (js "==").length ≤ 2 by decide),
    hsuffix _ (show (js "=").length ≤ 2 by decide)]

theorem decodedLength_group {a b c d : UInt16} {rest : JsString} (hrest : rest ≠ []) {length : ℕ} :
    matchedDecodedLength (a :: b :: c :: d :: rest) (base64Pattern (a :: b :: c :: d :: rest)) =
        .ok length ↔
      (isBase64Unit a = true ∧ isBase64Unit b = true ∧ isBase64Unit c = true ∧
        isBase64Unit d = true) ∧
      ∃ decoded, matchedDecodedLength rest (base64Pattern rest) = .ok decoded ∧
        decoded + 3 = length := by
  have hmod : (a :: b :: c :: d :: rest).length % 4 = rest.length % 4 := by
    simp only [List.length_cons]
    omega
  have hmatches : base64Pattern (a :: b :: c :: d :: rest) =
      (isBase64Unit a && isBase64Unit b && (isBase64Unit c && isBase64Unit d &&
        base64Pattern rest)) := by
    rw [base64Pattern, List.isEmpty_eq_false_iff.mpr hrest, Bool.and_false, Bool.or_false]
  unfold matchedDecodedLength
  rw [hmod, hmatches]
  by_cases hshort : rest.length % 4 = 0
  · have hlong : 4 ≤ rest.length := by
      have := List.length_pos_of_ne_nil hrest
      omega
    have hpadding : base64Padding rest ≤ 2 := by
      unfold base64Padding
      split_ifs <;> omega
    have hlast : (a :: b :: c :: d :: rest).getD
        ((a :: b :: c :: d :: rest).length - base64Padding rest - 1) 0 =
        rest.getD (rest.length - base64Padding rest - 1) 0 := by
      have hindex : (a :: b :: c :: d :: rest).length - base64Padding rest - 1 =
          rest.length - base64Padding rest - 1 + 4 := by
        simp only [List.length_cons]
        omega
      rw [hindex]
      rfl
    have hquarter : (a :: b :: c :: d :: rest).length / 4 * 3 - base64Padding rest =
        rest.length / 4 * 3 - base64Padding rest + 3 := by
      simp only [List.length_cons]
      omega
    have hpositive : rest.length ≠ 0 := by omega
    simp only [base64Padding_group a b c d hlong, hlast, hquarter, hshort, hpositive]
    cases ha : isBase64Unit a <;> cases hb : isBase64Unit b <;> cases hc : isBase64Unit c <;>
      cases hd : isBase64Unit d <;> cases hm : base64Pattern rest <;> simp
    split <;> simp
  · simp [hshort]

theorem decodedLength_iff_canonical (value : JsString) (length : ℕ) :
    matchedDecodedLength value (base64Pattern value) = .ok length ↔
      value ≠ [] ∧ CanonicalBase64 value ∧ (base64Decode value).length = length := by
  match value with
  | [] => simp [matchedDecodedLength]
  | [a] | [a, b] | [a, b, c] =>
    refine ⟨by simp [matchedDecodedLength], ?_⟩
    rintro ⟨-, hcanonical, -⟩
    cases hcanonical
  | [a, b, c, d] => simp [decodedLength_last]
  | a :: b :: c :: d :: e :: rest =>
    have ih := decodedLength_iff_canonical (e :: rest)
    rw [decodedLength_group (by simp)]
    constructor
    · rintro ⟨⟨ha, hb, hc, hd⟩, decoded, hrest, rfl⟩
      obtain ⟨-, hcanonical, hlength⟩ := (ih decoded).mp hrest
      refine ⟨by simp, .group ha hb hc hd hcanonical, ?_⟩
      rw [base64Decode, if_neg (ne_padding hc), if_neg (ne_padding hd)]
      simp [hlength]
    · rintro ⟨-, hcanonical, rfl⟩
      cases hcanonical with
      | group ha hb hc hd hcanonical =>
        refine ⟨⟨ha, hb, hc, hd⟩, _, (ih _).mpr ⟨by simp, hcanonical, rfl⟩, ?_⟩
        rw [base64Decode, if_neg (ne_padding hc), if_neg (ne_padding hd)]
        simp

/-- The encodings of non-empty byte strings are the texts that the function is to admit. -/
theorem decodedLength_iff_encoding (value : JsString) (length : ℕ) :
    matchedDecodedLength value (base64Pattern value) = .ok length ↔
      ∃ bytes : List UInt8, bytes ≠ [] ∧ base64Encode bytes = value ∧ bytes.length = length := by
  rw [decodedLength_iff_canonical]
  constructor
  · rintro ⟨hne, hcanonical, rfl⟩
    refine ⟨base64Decode value, fun hempty => hne ?_, base64Encode_decode hcanonical, rfl⟩
    rw [← base64Encode_decode hcanonical, hempty, base64Encode]
  · rintro ⟨bytes, hne, rfl, rfl⟩
    refine ⟨fun hempty => hne ?_, canonical_base64Encode bytes, length_base64Decode_encode bytes⟩
    rcases bytes with _ | ⟨x, _ | ⟨y, _ | ⟨z, rest⟩⟩⟩
    · rfl
    all_goals simp [base64Encode] at hempty

/-! ## The stack of the regular expression -/

/-- While the stack suffices, the regular expression tells the texts that its pattern describes. -/
theorem decodedLength_of_fits {value : JsString}
    (h : (value.takeWhile isBase64Unit).length < base64StackUnits) :
    canonicalBase64DecodedLength value = matchedDecodedLength value (base64Pattern value) := by
  unfold canonicalBase64DecodedLength
  split
  · rename_i hlength
    simp only [matchedDecodedLength, hlength, Bool.true_or, if_true]
  · simp only [matchesBase64, if_neg (Nat.not_le.mpr h)]

/-- When the stack is full, no length is returned. -/
theorem decodedLength_of_full {value : JsString}
    (h : base64StackUnits ≤ (value.takeWhile isBase64Unit).length) (length : ℕ) :
    canonicalBase64DecodedLength value ≠ .ok length := by
  unfold canonicalBase64DecodedLength
  split
  · simp [matchedDecodedLength]
  · simp [matchesBase64, if_pos h]

/-- What the function is to do with a text. -/
def AcceptsCanonically (value : JsString) : Prop :=
  ∀ length, canonicalBase64DecodedLength value = .ok length ↔
    ∃ bytes : List UInt8, bytes ≠ [] ∧ base64Encode bytes = value ∧ bytes.length = length

theorem acceptsCanonically_iff (value : JsString) :
    AcceptsCanonically value ↔
      (CanonicalBase64 value → (value.takeWhile isBase64Unit).length < base64StackUnits) := by
  constructor
  · intro h hcanonical
    by_contra hfull
    have hempty : value ≠ [] := by
      rintro rfl
      exact hfull (by decide)
    have hlength := (decodedLength_iff_canonical value _).mpr ⟨hempty, hcanonical, rfl⟩
    exact decodedLength_of_full (Nat.le_of_not_lt hfull) _
      ((h _).mpr ((decodedLength_iff_encoding value _).mp hlength))
  · intro h length
    by_cases hfits : (value.takeWhile isBase64Unit).length < base64StackUnits
    · rw [decodedLength_of_fits hfits, decodedLength_iff_encoding]
    · refine ⟨fun hok => absurd hok (decodedLength_of_full (Nat.le_of_not_lt hfits) length), ?_⟩
      rintro ⟨bytes, -, rfl, -⟩
      exact absurd (h (canonical_base64Encode bytes)) hfits

/-- `canonicalBase64DecodedLength` returns a length exactly on the encodings of non-empty byte
strings, and it is the length of the byte string, if and only if the text is not an encoding or the
characters before its padding fit on the stack of the regular expression. -/
theorem canonical_base64_acceptance (value : JsString) :
    (∀ length, canonicalBase64DecodedLength value = .ok length ↔
        ∃ bytes : List UInt8, bytes ≠ [] ∧ base64Encode bytes = value ∧ bytes.length = length) ↔
      (CanonicalBase64 value → (value.takeWhile isBase64Unit).length < base64StackUnits) :=
  acceptsCanonically_iff value

/-- The encoding of zero bytes, three by three, is a text of the first character. -/
theorem base64Encode_zeros (groups : ℕ) :
    base64Encode (List.replicate (3 * groups) 0) = List.replicate (4 * groups) (base64Unit 0) := by
  induction groups with
  | zero => rfl
  | succ groups ih =>
    rw [show 3 * (groups + 1) = 3 * groups + 1 + 1 + 1 by omega,
      show 4 * (groups + 1) = 4 * groups + 1 + 1 + 1 + 1 by omega]
    simp only [List.replicate_succ, base64Encode, ih]
    rfl

/-- The encoding of 3355431 zero bytes, well below the size that images may have, gets no length. -/
theorem zero_image_refused : ¬ ∀ value length, canonicalBase64DecodedLength value = .ok length ↔
    ∃ bytes : List UInt8, bytes ≠ [] ∧ base64Encode bytes = value ∧ bytes.length = length := by
  intro h
  have hfits := (acceptsCanonically_iff _).mp (h (base64Encode (List.replicate (3 * 1118477) 0)))
    (canonical_base64Encode _)
  have hunit : isBase64Unit (base64Unit 0) = true := by decide
  rw [base64Encode_zeros, List.takeWhile_replicate, if_pos hunit, List.length_replicate] at hfits
  exact absurd hfits (by decide)

end PiAgentWeb
