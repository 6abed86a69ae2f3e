import PiAgentWeb.Library.JsValue

/-!
# Base64

The padded encoding over the standard alphabet. Three bytes are four characters; the last group is
filled with padding characters. Decoding goes group by group, and encoding gives a text back when
the bits that the last group does not use are zero.
-/

namespace PiAgentWeb

/-- `[A-Za-z0-9+/]`. -/
def isBase64Unit (u : UInt16) : Bool :=
  (0x41 ≤ u && u ≤ 0x5A) || (0x61 ≤ u && u ≤ 0x7A) || (0x30 ≤ u && u ≤ 0x39) || u == 0x2B ||
    u == 0x2F

/-- The value of a character of the alphabet. -/
def base64Sextet (u : UInt16) : ℕ :=
  if 65 ≤ u.toNat && u.toNat ≤ 90 then u.toNat - 65
  else if 97 ≤ u.toNat && u.toNat ≤ 122 then u.toNat - 71
  else if 48 ≤ u.toNat && u.toNat ≤ 57 then u.toNat + 4
  else if u.toNat = 43 then 62
  else 63

/-- The character of a value. -/
def base64Unit (sextet : ℕ) : UInt16 :=
  if sextet < 26 then UInt16.ofNat (sextet + 65)
  else if sextet < 52 then UInt16.ofNat (sextet + 71)
  else if sextet < 62 then UInt16.ofNat (sextet - 4)
  else if sextet = 62 then 0x2B
  else 0x2F

/-- The padded encoding of bytes. -/
def base64Encode : List UInt8 → JsString
  | [] => []
  | [x] => [base64Unit (x.toNat / 4), base64Unit (x.toNat % 4 * 16), 0x3D, 0x3D]
  | [x, y] =>
    [base64Unit (x.toNat / 4), base64Unit (x.toNat % 4 * 16 + y.toNat / 16),
      base64Unit (y.toNat % 16 * 4), 0x3D]
  | x :: y :: z :: rest =>
    base64Unit (x.toNat / 4) :: base64Unit (x.toNat % 4 * 16 + y.toNat / 16) ::
      base64Unit (y.toNat % 16 * 4 + z.toNat / 64) :: base64Unit (z.toNat % 64) ::
      base64Encode rest

/-- The bytes of a padded text, group by group. -/
def base64Decode : JsString → List UInt8
  | a :: b :: c :: d :: rest =>
    let first := UInt8.ofNat (4 * base64Sextet a + base64Sextet b / 16)
    let second := UInt8.ofNat (base64Sextet b % 16 * 16 + base64Sextet c / 4)
    let third := UInt8.ofNat (base64Sextet c % 4 * 64 + base64Sextet d)
    if c = 0x3D then [first]
    else if d = 0x3D then [first, second]
    else first :: second :: third :: base64Decode rest
  | _ => []

/-- A text whose bytes are encoded as this text: groups of the alphabet, the last one of them padded
with unused bits that are zero. -/
inductive CanonicalBase64 : JsString → Prop
  | nil : CanonicalBase64 []
  | one {a b : UInt16} (ha : isBase64Unit a) (hb : isBase64Unit b)
    (hzero : base64Sextet b % 16 = 0) :
    CanonicalBase64 [a, b, 0x3D, 0x3D]
  | two {a b c : UInt16} (ha : isBase64Unit a) (hb : isBase64Unit b) (hc : isBase64Unit c)
    (hzero : base64Sextet c % 4 = 0) : CanonicalBase64 [a, b, c, 0x3D]
  | group {a b c d : UInt16} {rest : JsString} (ha : isBase64Unit a) (hb : isBase64Unit b)
    (hc : isBase64Unit c) (hd : isBase64Unit d) (hrest : CanonicalBase64 rest) :
    CanonicalBase64 (a :: b :: c :: d :: rest)

theorem base64Unit_sextet {u : UInt16} (h : isBase64Unit u = true) :
    base64Sextet u < 64 ∧ base64Unit (base64Sextet u) = u := by
  have hnat : ∀ n, u.toNat = n → UInt16.ofNat n = u := by
    rintro n rfl
    exact UInt16.ofNat_toNat
  simp only [isBase64Unit, Bool.or_eq_true, Bool.and_eq_true, decide_eq_true_eq, beq_iff_eq,
    UInt16.le_iff_toNat_le, ← UInt16.toNat_inj] at h
  simp only [UInt16.reduceToNat] at h
  unfold base64Sextet base64Unit
  rcases h with (((h | h) | h) | h) | h
  · rw [if_pos (by simp; omega)]
    refine ⟨by omega, ?_⟩
    rw [if_pos (by omega)]
    exact hnat _ (by omega)
  · rw [if_neg (by simp; omega), if_pos (by simp; omega)]
    refine ⟨by omega, ?_⟩
    rw [if_neg (by omega), if_pos (by omega)]
    exact hnat _ (by omega)
  · rw [if_neg (by simp; omega), if_neg (by simp; omega), if_pos (by simp; omega)]
    refine ⟨by omega, ?_⟩
    rw [if_neg (by omega), if_neg (by omega), if_pos (by omega)]
    exact hnat _ (by omega)
  · rw [if_neg (by simp; omega), if_neg (by simp; omega), if_neg (by simp; omega), if_pos h]
    refine ⟨by omega, ?_⟩
    rw [if_neg (by omega), if_neg (by omega), if_neg (by omega), if_pos rfl]
    exact hnat 43 h
  · rw [if_neg (by simp; omega), if_neg (by simp; omega), if_neg (by simp; omega),
      if_neg (by omega)]
    refine ⟨by omega, ?_⟩
    rw [if_neg (by omega), if_neg (by omega), if_neg (by omega), if_neg (by omega)]
    exact hnat 47 h

theorem ne_padding {u : UInt16} (h : isBase64Unit u = true) : u ≠ 0x3D := by
  rintro rfl
  exact absurd h (by decide)

theorem base64Encode_decode {s : JsString} (h : CanonicalBase64 s) :
    base64Encode (base64Decode s) = s := by
  have hbyte : ∀ {n : ℕ}, n < 256 → (UInt8.ofNat n).toNat = n := fun hn => by
    rw [UInt8.toNat_ofNat']
    omega
  induction h with
  | nil => rfl
  | @one a b ha hb hzero =>
    obtain ⟨hA, ha'⟩ := base64Unit_sextet ha
    obtain ⟨hB, hb'⟩ := base64Unit_sextet hb
    rw [base64Decode, if_pos rfl, base64Encode, hbyte (by omega)]
    rw [show (4 * base64Sextet a + base64Sextet b / 16) / 4 = base64Sextet a by omega,
      show (4 * base64Sextet a + base64Sextet b / 16) % 4 * 16 = base64Sextet b by omega, ha', hb']
  | @two a b c ha hb hc hzero =>
    obtain ⟨hA, ha'⟩ := base64Unit_sextet ha
    obtain ⟨hB, hb'⟩ := base64Unit_sextet hb
    obtain ⟨hC, hc'⟩ := base64Unit_sextet hc
    rw [base64Decode, if_neg (ne_padding hc), if_pos rfl, base64Encode, hbyte (by omega),
      hbyte (by omega)]
    rw [show (4 * base64Sextet a + base64Sextet b / 16) / 4 = base64Sextet a by omega,
      show (4 * base64Sextet a + base64Sextet b / 16) % 4 * 16 +
        (base64Sextet b % 16 * 16 + base64Sextet c / 4) / 16 = base64Sextet b by omega,
      show (base64Sextet b % 16 * 16 + base64Sextet c / 4) % 16 * 4 = base64Sextet c by omega,
      ha', hb', hc']
  | @group a b c d rest ha hb hc hd hrest ih =>
    obtain ⟨hA, ha'⟩ := base64Unit_sextet ha
    obtain ⟨hB, hb'⟩ := base64Unit_sextet hb
    obtain ⟨hC, hc'⟩ := base64Unit_sextet hc
    obtain ⟨hD, hd'⟩ := base64Unit_sextet hd
    rw [base64Decode, if_neg (ne_padding hc), if_neg (ne_padding hd), base64Encode,
      hbyte (by omega), hbyte (by omega), hbyte (by omega), ih]
    rw [show (4 * base64Sextet a + base64Sextet b / 16) / 4 = base64Sextet a by omega,
      show (4 * base64Sextet a + base64Sextet b / 16) % 4 * 16 +
        (base64Sextet b % 16 * 16 + base64Sextet c / 4) / 16 = base64Sextet b by omega,
      show (base64Sextet b % 16 * 16 + base64Sextet c / 4) % 16 * 4 +
        (base64Sextet c % 4 * 64 + base64Sextet d) / 64 = base64Sextet c by omega,
      show (base64Sextet c % 4 * 64 + base64Sextet d) % 64 = base64Sextet d by omega,
      ha', hb', hc', hd']

theorem base64Sextet_unit {n : ℕ} (h : n < 64) :
    isBase64Unit (base64Unit n) = true ∧ base64Sextet (base64Unit n) = n := by
  revert n
  decide

theorem canonical_base64Encode (bytes : List UInt8) : CanonicalBase64 (base64Encode bytes) := by
  have hunit : ∀ {n : ℕ}, n < 64 → isBase64Unit (base64Unit n) = true := fun h =>
    (base64Sextet_unit h).1
  match bytes with
  | [] => exact .nil
  | [x] =>
    have := x.toNat_lt
    refine .one (hunit (by omega)) (hunit (by omega)) ?_
    rw [(base64Sextet_unit (by omega)).2]
    omega
  | [x, y] =>
    have := x.toNat_lt
    have := y.toNat_lt
    refine .two (hunit (by omega)) (hunit (by omega)) (hunit (by omega)) ?_
    rw [(base64Sextet_unit (by omega)).2]
    omega
  | x :: y :: z :: rest =>
    have := x.toNat_lt
    have := y.toNat_lt
    have := z.toNat_lt
    exact .group (hunit (by omega)) (hunit (by omega)) (hunit (by omega)) (hunit (by omega))
      (canonical_base64Encode rest)

theorem length_base64Decode_encode (bytes : List UInt8) :
    (base64Decode (base64Encode bytes)).length = bytes.length := by
  have hne : ∀ {n : ℕ}, n < 64 → base64Unit n ≠ 0x3D := fun h =>
    ne_padding (base64Sextet_unit h).1
  match bytes with
  | [] => rfl
  | [x] => rfl
  | [x, y] =>
    have := y.toNat_lt
    rw [base64Encode, base64Decode, if_neg (hne (by omega)), if_pos rfl]
    rfl
  | x :: y :: z :: rest =>
    have := y.toNat_lt
    have := z.toNat_lt
    rw [base64Encode, base64Decode, if_neg (hne (by omega)), if_neg (hne (by omega))]
    simp [length_base64Decode_encode rest]

end PiAgentWeb
