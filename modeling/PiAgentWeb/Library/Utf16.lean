import PiAgentWeb.Library.JsValue

/-!
# UTF-16 and UTF-8

A JavaScript string is encoded in UTF-8 through its Unicode scalar values. A lone surrogate has
none and becomes the replacement character. The encoding of joined strings is the joined encoding,
unless a surrogate pair lies across the seam.
-/

namespace PiAgentWeb

/-- The scalar value of a code unit outside a surrogate pair. -/
def scalarOfUnit (u : UInt16) : Char :=
  if isHighSurrogate u || isLowSurrogate u then Char.ofNat 0xFFFD else Char.ofNat u.toNat

/-- The scalar value of a surrogate pair. -/
def scalarOfPair (u v : UInt16) : Char :=
  Char.ofNat (0x10000 + (u.toNat - 0xD800) * 0x400 + (v.toNat - 0xDC00))

/-- The Unicode scalar values of a string. -/
def scalars : JsString → List Char
  | [] => []
  | [u] => [scalarOfUnit u]
  | u :: v :: rest =>
    if isHighSurrogate u && isLowSurrogate v then scalarOfPair u v :: scalars rest
    else scalarOfUnit u :: scalars (v :: rest)

/-- `Buffer.from(s, "utf8")`. -/
def utf8Encode (s : JsString) : List UInt8 := (scalars s).flatMap String.utf8EncodeChar

/-! ## Scalar values -/

theorem isHighSurrogate_iff {u : UInt16} :
    isHighSurrogate u = true ↔ 0xD800 ≤ u.toNat ∧ u.toNat ≤ 0xDBFF := by
  simp [isHighSurrogate, UInt16.le_iff_toNat_le]

theorem isLowSurrogate_iff {u : UInt16} :
    isLowSurrogate u = true ↔ 0xDC00 ≤ u.toNat ∧ u.toNat ≤ 0xDFFF := by
  simp [isLowSurrogate, UInt16.le_iff_toNat_le]

theorem toNat_ofNat {n : ℕ} (h : n.isValidChar) : (Char.ofNat n).toNat = n := by
  rw [Char.ofNat, dif_pos h]
  rfl

theorem toNat_scalarOfUnit {u : UInt16} (hhigh : isHighSurrogate u = false)
    (hlow : isLowSurrogate u = false) : (scalarOfUnit u).toNat = u.toNat := by
  rw [scalarOfUnit, hhigh, hlow]
  refine toNat_ofNat ?_
  rw [Bool.eq_false_iff, ne_eq, isHighSurrogate_iff] at hhigh
  rw [Bool.eq_false_iff, ne_eq, isLowSurrogate_iff] at hlow
  have := u.toNat_lt
  simp only [Nat.isValidChar]
  omega

theorem toNat_scalarOfPair {u v : UInt16} (hhigh : isHighSurrogate u = true)
    (hlow : isLowSurrogate v = true) :
    (scalarOfPair u v).toNat = 0x10000 + (u.toNat - 0xD800) * 0x400 + (v.toNat - 0xDC00) := by
  rw [isHighSurrogate_iff] at hhigh
  rw [isLowSurrogate_iff] at hlow
  refine toNat_ofNat ?_
  simp only [Nat.isValidChar]
  omega

/-! ## Lengths and joins -/

theorem utf8Size_eq (c : Char) :
    c.utf8Size = if c.toNat ≤ 0x7F then 1 else if c.toNat ≤ 0x7FF then 2
      else if c.toNat ≤ 0xFFFF then 3 else 4 := by
  simp only [Char.utf8Size, UInt32.le_iff_toNat_le, UInt32.toNat_ofNatLT]
  rfl

theorem length_utf8EncodeChar_scalarOfUnit (u : UInt16) :
    (String.utf8EncodeChar (scalarOfUnit u)).length = utf8UnitLength u := by
  rw [String.length_utf8EncodeChar]
  by_cases h : isHighSurrogate u || isLowSurrogate u
  · rw [scalarOfUnit, if_pos h, utf8UnitLength]
    rw [Bool.or_eq_true, isHighSurrogate_iff, isLowSurrogate_iff] at h
    rw [if_neg (by rw [UInt16.lt_iff_toNat_lt]; simp; omega),
      if_neg (by rw [UInt16.lt_iff_toNat_lt]; simp; omega)]
    decide
  · simp only [Bool.or_eq_true, not_or, Bool.not_eq_true] at h
    have hnumber := toNat_scalarOfUnit h.1 h.2
    have := u.toNat_lt
    rw [utf8Size_eq, hnumber, utf8UnitLength]
    simp only [UInt16.lt_iff_toNat_lt, UInt16.reduceToNat]
    split_ifs <;> omega

theorem length_utf8EncodeChar_scalarOfPair {u v : UInt16} (hhigh : isHighSurrogate u = true)
    (hlow : isLowSurrogate v = true) :
    (String.utf8EncodeChar (scalarOfPair u v)).length = 4 := by
  have hnumber := toNat_scalarOfPair hhigh hlow
  rw [isHighSurrogate_iff] at hhigh
  rw [isLowSurrogate_iff] at hlow
  rw [String.length_utf8EncodeChar, utf8Size_eq, hnumber]
  split_ifs <;> omega

theorem length_utf8Encode (s : JsString) : (utf8Encode s).length = utf8ByteLength s := by
  unfold utf8Encode
  induction s using scalars.induct with
  | case1 => rfl
  | case2 u =>
    rw [scalars, utf8ByteLength, List.flatMap_singleton, length_utf8EncodeChar_scalarOfUnit]
  | case3 u v rest hpair ih =>
    have hparts := hpair
    rw [Bool.and_eq_true] at hparts
    rw [scalars, if_pos hpair, utf8ByteLength, if_pos hpair, List.flatMap_cons, List.length_append,
      ih, length_utf8EncodeChar_scalarOfPair hparts.1 hparts.2]
  | case4 u v rest hpair ih =>
    rw [scalars, if_neg hpair, utf8ByteLength, if_neg hpair, List.flatMap_cons, List.length_append,
      ih, length_utf8EncodeChar_scalarOfUnit]

/-- A surrogate pair lies across the seam of two strings. -/
def splitsPair (first rest : JsString) : Bool :=
  first.getLast?.any isHighSurrogate && rest.head?.any isLowSurrogate

theorem scalars_append {first rest : JsString} (h : splitsPair first rest = false) :
    scalars (first ++ rest) = scalars first ++ scalars rest := by
  induction first using scalars.induct with
  | case1 => rfl
  | case2 u =>
    cases rest with
    | nil => rfl
    | cons v rest =>
      have hpair : ¬(isHighSurrogate u && isLowSurrogate v) = true := by
        simpa [splitsPair] using h
      change scalars (u :: v :: rest) = scalarOfUnit u :: scalars (v :: rest)
      rw [scalars, if_neg hpair]
  | case3 u v first hpair ih =>
    rw [List.cons_append, List.cons_append, scalars, if_pos hpair, scalars, if_pos hpair,
      List.cons_append]
    refine congrArg _ ?_
    cases first with
    | nil => rfl
    | cons w first => exact ih (by simpa [splitsPair] using h)
  | case4 u v first hpair ih =>
    rw [List.cons_append, List.cons_append, scalars, if_neg hpair, scalars, if_neg hpair,
      List.cons_append, ← List.cons_append]
    exact congrArg _ (ih (by simpa [splitsPair] using h))

theorem utf8Encode_append {first rest : JsString} (h : splitsPair first rest = false) :
    utf8Encode (first ++ rest) = utf8Encode first ++ utf8Encode rest := by
  rw [utf8Encode, scalars_append h, List.flatMap_append]
  rfl

end PiAgentWeb
