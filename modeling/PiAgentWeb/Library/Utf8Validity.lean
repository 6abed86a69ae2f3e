import PiAgentWeb.Library.Utf8Stream

/-!
# Valid UTF-8 and where it is cut

A fatal decoder stops at the first byte that a replacing one would replace. Input that it takes is a
sequence of characters, and a beginning of the input is taken too unless the cut falls inside one of
them, which the byte behind the cut tells.
-/

namespace PiAgentWeb

/-- The byte continues a character. -/
def IsContinuation (byte : UInt8) : Prop := 0x80 ≤ byte.toNat ∧ byte.toNat ≤ 0xBF

instance (byte : UInt8) : Decidable (IsContinuation byte) :=
  inferInstanceAs (Decidable (_ ∧ _))

/-- The cut falls inside a character. -/
def Straddles (bytes : List UInt8) (cut : ℕ) : Prop :=
  ∃ byte, bytes[cut]? = some byte ∧ IsContinuation byte

namespace StringDecoder

/-- The byte is no error. -/
def accepts : StringDecoder → UInt8 → Bool
  | .idle, byte => byte < 0x80 || 0xC2 ≤ byte && byte ≤ 0xF4
  | .inside _ _ lower upper, byte => lower ≤ byte && byte ≤ upper

/-- `write` of a fatal decoder: an error where the other one replaces. -/
def writeFatal (decoder : StringDecoder) : List UInt8 → Option (JsString × StringDecoder)
  | [] => some ([], decoder)
  | byte :: rest =>
    if decoder.accepts byte then
      let head := decoder.writeByte byte
      (head.2.writeFatal rest).map fun tail => (head.1 ++ tail.1, tail.2)
    else none

/-- The text of a file; the last character must be complete. -/
def decodeFatal (bytes : List UInt8) : Option JsString :=
  match (StringDecoder.idle).writeFatal bytes with
  | some (text, .idle) => some text
  | _ => none

variable {bytes : List UInt8}

theorem write_of_writeFatal {decoder : StringDecoder}
    {result : JsString × StringDecoder} (h : decoder.writeFatal bytes = some result) :
    decoder.write bytes = result := by
  induction bytes generalizing decoder result with
  | nil => exact Option.some.inj h
  | cons byte rest ih =>
    rw [writeFatal] at h
    split at h
    · obtain ⟨tail, htail, rfl⟩ := Option.map_eq_some_iff.mp h
      rw [write, ih htail]
    · cases h

theorem writeFatal_append (decoder : StringDecoder) (before after : List UInt8) :
    decoder.writeFatal (before ++ after) = (decoder.writeFatal before).bind fun head =>
      (head.2.writeFatal after).map fun tail => (head.1 ++ tail.1, tail.2) := by
  induction before generalizing decoder with
  | nil => simp [writeFatal]
  | cons byte rest ih =>
    simp only [List.cons_append, writeFatal]
    split
    · rw [ih]
      cases (decoder.writeByte byte).2.writeFatal rest with
      | none => rfl
      | some head =>
        simp only [Option.bind_some, Option.map_some, Option.map_map]
        congr 1
        funext tail
        simp
    · rfl

variable {text : JsString}

theorem writeFatal_append_some {decoder middle : StringDecoder} {before after : List UInt8}
    {result : JsString × StringDecoder} (hbefore : decoder.writeFatal before = some (text, middle))
    (hafter : middle.writeFatal after = some result) :
    decoder.writeFatal (before ++ after) = some (text ++ result.1, result.2) := by
  rw [writeFatal_append, hbefore]
  simp only [Option.bind_some, hafter, Option.map_some]

theorem decodeFatal_eq_some :
    decodeFatal bytes = some text ↔ (StringDecoder.idle).writeFatal bytes = some (text, .idle) := by
  rw [decodeFatal]
  constructor
  · intro h
    split at h
    · rename_i heq
      cases h
      exact heq
    · cases h
  · intro h
    rw [h]

theorem writeFatal_ascii (h : ∀ byte ∈ bytes, byte < 0x80) :
    (StringDecoder.idle).writeFatal bytes =
      some (bytes.map fun byte => UInt16.ofNat byte.toNat, .idle) := by
  induction bytes with
  | nil => rfl
  | cons byte rest ih =>
    have hbyte := h byte List.mem_cons_self
    have haccepts : (StringDecoder.idle).accepts byte = true := by
      rw [accepts, decide_eq_true hbyte, Bool.true_or]
    rw [writeFatal, if_pos haccepts, writeByte, first, if_pos hbyte]
    dsimp only
    rw [ih fun byte' hbyte' => h byte' (List.mem_cons_of_mem _ hbyte')]
    rfl

/-! ## Characters -/

/-- What the first byte of a longer character says about it. -/
structure FirstByte (byte : UInt8) (bits needed : ℕ) (lower upper : UInt8) : Prop where
  lead : 0xC2 ≤ byte.toNat
  lowest : 0x80 ≤ lower.toNat
  highest : upper.toNat ≤ 0xBF
  shape : needed = 1 ∧ bits < 32 ∨ needed = 2 ∧ bits = byte.toNat % 16 ∧ byte.toNat / 16 = 14 ∨
    needed = 3 ∧ (bits = 0 → 0x90 ≤ lower.toNat)

variable {bits needed : ℕ}

theorem FirstByte.needed_pos {byte : UInt8} {lower upper : UInt8}
    (h : FirstByte byte bits needed lower upper) : 0 < needed := by
  rcases h.shape with hshape | hshape | hshape
  · omega
  · omega
  · omega

theorem first_cases {byte : UInt8} (h : (StringDecoder.idle).accepts byte = true) :
    byte.toNat < 0x80 ∧ first byte = ([UInt16.ofNat byte.toNat], .idle) ∨
      ∃ bits needed lower upper, first byte = ([], .inside bits needed lower upper) ∧
        FirstByte byte bits needed lower upper := by
  simp only [accepts, Bool.or_eq_true, Bool.and_eq_true, decide_eq_true_eq, UInt8.lt_iff_toNat_lt,
    UInt8.le_iff_toNat_le] at h
  simp only [first, Bool.and_eq_true, decide_eq_true_eq, UInt8.lt_iff_toNat_lt,
    UInt8.le_iff_toNat_le, ← UInt8.toNat_inj]
  simp only [UInt8.reduceToNat] at h ⊢
  by_cases hascii : byte.toNat < 128
  · rw [if_pos hascii]
    exact .inl ⟨hascii, rfl⟩
  rw [if_neg hascii]
  refine .inr ?_
  split
  · exact ⟨_, _, _, _, rfl, by omega, by decide, by decide, by omega⟩
  split
  · exact ⟨_, _, _, _, rfl, by omega, by decide, by decide, by omega⟩
  split
  · exact ⟨_, _, _, _, rfl, by omega, by decide, by decide, by omega⟩
  split
  · exact ⟨_, _, _, _, rfl, by omega, by decide, by decide, by omega⟩
  split
  · exact ⟨_, _, _, _, rfl, by omega, by decide, by decide, .inr (.inr ⟨rfl, by decide⟩)⟩
  split
  · exact ⟨_, _, _, _, rfl, by omega, by decide, by decide, .inr (.inr ⟨rfl, by decide⟩)⟩
  split
  · exact ⟨_, _, _, _, rfl, by omega, by decide, by decide, .inr (.inr ⟨rfl, by omega⟩)⟩
  · omega

/-- The decoder is inside a character and has not written anything. -/
def Waits (result : Option (JsString × StringDecoder)) : Prop :=
  ∃ bits needed lower upper, result = some ([], .inside bits needed lower upper)

theorem writeFatal_inside_cons {lower upper byte : UInt8} {rest : List UInt8}
    (hlower : lower.toNat ≤ byte.toNat) (hupper : byte.toNat ≤ upper.toNat) :
    (StringDecoder.inside bits (needed + 1) lower upper).writeFatal (byte :: rest) =
      if needed = 0 then
        ((StringDecoder.idle).writeFatal rest).map fun tail =>
          (utf16Units (Char.ofNat (bits * 64 + byte.toNat % 64)) ++ tail.1, tail.2)
      else
        (StringDecoder.inside (bits * 64 + byte.toNat % 64) needed 0x80 0xBF).writeFatal rest := by
  have haccepts : (lower ≤ byte && byte ≤ upper) = true := by
    simp only [Bool.and_eq_true, decide_eq_true_eq, UInt8.le_iff_toNat_le]
    exact ⟨hlower, hupper⟩
  rw [writeFatal, accepts, if_pos haccepts, writeByte, if_pos haccepts]
  by_cases hlast : needed = 0
  · subst hlast
    rfl
  · have hmore : needed + 1 ≠ 1 := fun h => hlast (Nat.succ.inj h)
    simp only [if_neg hlast, if_neg hmore, List.nil_append, Nat.add_sub_cancel]
    exact Option.map_id'

theorem bounds_of_writeFatal {lower upper byte : UInt8} {rest : List UInt8}
    {result : JsString × StringDecoder}
    (h : (StringDecoder.inside bits needed lower upper).writeFatal (byte :: rest) = some result) :
    lower.toNat ≤ byte.toNat ∧ byte.toNat ≤ upper.toNat := by
  rw [writeFatal, accepts] at h
  split at h
  · rename_i haccepts
    simpa only [Bool.and_eq_true, decide_eq_true_eq, UInt8.le_iff_toNat_le] using haccepts
  · cases h

theorem rest_of_inside {lower upper : UInt8}
    (hlowest : 0x80 ≤ lower.toNat) (hhighest : upper.toNat ≤ 0xBF)
    (h : (StringDecoder.inside bits (needed + 1) lower upper).writeFatal bytes =
      some (text, .idle)) :
    ∃ rest after c tail, bytes = rest ++ after ∧ rest.length = needed + 1 ∧
      (StringDecoder.inside bits (needed + 1) lower upper).writeFatal rest =
        some (utf16Units c, .idle) ∧
      (∀ k < rest.length,
        Waits ((StringDecoder.inside bits (needed + 1) lower upper).writeFatal (rest.take k))) ∧
      (∀ byte ∈ rest, IsContinuation byte) ∧
      (StringDecoder.idle).writeFatal after = some (tail, .idle) ∧ text = utf16Units c ++ tail := by
  induction needed generalizing bits lower upper bytes with
  | zero =>
    cases bytes with
    | nil => cases h
    | cons byte more =>
      obtain ⟨hlower, hupper⟩ := bounds_of_writeFatal h
      rw [writeFatal_inside_cons hlower hupper, if_pos rfl] at h
      obtain ⟨⟨tail, last⟩, htail, heq⟩ := Option.map_eq_some_iff.mp h
      cases heq
      refine ⟨[byte], more, _, tail, rfl, rfl, ?_, ?_, ?_, htail, rfl⟩
      · rw [writeFatal_inside_cons hlower hupper, if_pos rfl]
        simp [writeFatal]
      · intro k hk
        cases Nat.lt_one_iff.mp hk
        exact ⟨bits, 1, lower, upper, rfl⟩
      · intro byte' hbyte
        rw [List.mem_singleton.mp hbyte]
        exact ⟨Nat.le_trans hlowest hlower, Nat.le_trans hupper hhighest⟩
  | succ needed ih =>
    cases bytes with
    | nil => cases h
    | cons byte more =>
      obtain ⟨hlower, hupper⟩ := bounds_of_writeFatal h
      rw [writeFatal_inside_cons hlower hupper, if_neg (Nat.succ_ne_zero _)] at h
      obtain ⟨rest, after, c, tail, hmore, hlength, hrest, hwaits, hcontinues, hafter, htext⟩ :=
        ih (by decide) (by decide) h
      have hstep : ∀ bytes,
          (StringDecoder.inside bits (needed + 1 + 1) lower upper).writeFatal (byte :: bytes) =
            (StringDecoder.inside (bits * 64 + byte.toNat % 64) (needed + 1) 0x80 0xBF).writeFatal
              bytes := fun bytes => by
        rw [writeFatal_inside_cons hlower hupper, if_neg (Nat.succ_ne_zero _)]
      refine ⟨byte :: rest, after, c, tail, ?_, ?_, ?_, ?_, ?_, hafter, htext⟩
      · rw [hmore, List.cons_append]
      · rw [List.length_cons, hlength]
      · rw [hstep, hrest]
      · intro k hk
        cases k with
        | zero => exact ⟨bits, needed + 1 + 1, lower, upper, rfl⟩
        | succ k =>
          rw [List.take_succ_cons, hstep]
          exact hwaits k (Nat.lt_of_succ_lt_succ hk)
      · intro byte' hbyte
        rcases List.mem_cons.mp hbyte with rfl | hlater
        · exact ⟨Nat.le_trans hlowest hlower, Nat.le_trans hupper hhighest⟩
        · exact hcontinues byte' hlater

/-- The bytes encode the character: the decoder is inside it after every beginning, and just the
bytes behind the first continue it. -/
structure Encodes (bytes : List UInt8) (c : Char) : Prop where
  positive : 0 < bytes.length
  complete : (StringDecoder.idle).writeFatal bytes = some (utf16Units c, .idle)
  waits : ∀ k, 0 < k → k < bytes.length → Waits ((StringDecoder.idle).writeFatal (bytes.take k))
  straddled : ∀ k < bytes.length, Straddles bytes k ↔ 0 < k

theorem utf16Units_ascii {n : ℕ} (h : n < 0x80) : utf16Units (Char.ofNat n) = [UInt16.ofNat n] := by
  have hvalid : n.isValidChar := .inl (by omega)
  have hnat : (Char.ofNat n).toNat = n := by
    rw [Char.ofNat, dif_pos hvalid]
    rfl
  rw [utf16Units]
  simp only [hnat]
  rw [if_pos (by omega)]

theorem writeFatal_first {byte : UInt8} {lower upper : UInt8}
    (haccepts : (StringDecoder.idle).accepts byte = true)
    (hfirst : first byte = ([], .inside bits needed lower upper)) (rest : List UInt8) :
    (StringDecoder.idle).writeFatal (byte :: rest) =
      (StringDecoder.inside bits needed lower upper).writeFatal rest := by
  rw [writeFatal, if_pos haccepts, writeByte, hfirst]
  exact Option.map_id'

theorem character_of_valid {byte : UInt8} {more : List UInt8}
    (h : (StringDecoder.idle).writeFatal (byte :: more) = some (text, .idle)) :
    ∃ bytes after c tail, byte :: more = bytes ++ after ∧ Encodes bytes c ∧
      (StringDecoder.idle).writeFatal after = some (tail, .idle) ∧ text = utf16Units c ++ tail := by
  have haccepts : (StringDecoder.idle).accepts byte = true := by
    by_contra hnot
    rw [writeFatal, if_neg hnot] at h
    cases h
  rcases first_cases haccepts with ⟨hascii, hfirst⟩ | ⟨bits, needed, lower, upper, hfirst, hbyte⟩
  · have hwrite : ∀ rest, (StringDecoder.idle).writeFatal (byte :: rest) =
        ((StringDecoder.idle).writeFatal rest).map fun tail =>
          (utf16Units (Char.ofNat byte.toNat) ++ tail.1, tail.2) := fun rest => by
      rw [writeFatal, if_pos haccepts, writeByte, hfirst, utf16Units_ascii hascii]
    rw [hwrite] at h
    obtain ⟨⟨tail, last⟩, htail, heq⟩ := Option.map_eq_some_iff.mp h
    cases heq
    refine ⟨[byte], more, _, tail, rfl, ⟨Nat.one_pos, ?_, ?_, ?_⟩, htail, rfl⟩
    · rw [hwrite]
      simp [writeFatal]
    · intro k hpos hk
      rw [List.length_singleton] at hk
      omega
    · intro k hk
      cases Nat.lt_one_iff.mp hk
      refine ⟨?_, fun hpos => absurd hpos (Nat.lt_irrefl 0)⟩
      rintro ⟨byte', hbyte', hlow, -⟩
      cases hbyte'
      omega
  · obtain ⟨needed, rfl⟩ := Nat.exists_eq_succ_of_ne_zero (Nat.ne_of_gt hbyte.needed_pos)
    have hwrite := writeFatal_first haccepts hfirst
    rw [hwrite] at h
    obtain ⟨rest, after, c, tail, hmore, hlength, hrest, hwaits, hcontinues, hafter, htext⟩ :=
      rest_of_inside hbyte.lowest hbyte.highest h
    refine ⟨byte :: rest, after, c, tail, ?_, ⟨Nat.succ_pos _, ?_, ?_, ?_⟩, hafter, htext⟩
    · rw [hmore, List.cons_append]
    · rw [hwrite, hrest]
    · intro k hpos hk
      obtain ⟨k, rfl⟩ : ∃ j, k = j + 1 := ⟨k - 1, by omega⟩
      rw [List.take_succ_cons, hwrite]
      exact hwaits k (Nat.lt_of_succ_lt_succ hk)
    · intro k hk
      cases k with
      | zero =>
        refine ⟨?_, fun hpos => absurd hpos (Nat.lt_irrefl 0)⟩
        rintro ⟨byte', hbyte', -, hhigh⟩
        cases hbyte'
        exact absurd hbyte.lead (by omega)
      | succ k =>
        refine ⟨fun _ => Nat.succ_pos k, fun _ => ?_⟩
        have hlt : k < rest.length := Nat.lt_of_succ_lt_succ hk
        exact ⟨rest[k], List.getElem?_eq_getElem hlt, hcontinues _ (List.getElem_mem hlt)⟩

/-! ## Cuts -/

theorem straddles_append_left {before after : List UInt8} {cut : ℕ} (h : cut < before.length) :
    Straddles (before ++ after) cut ↔ Straddles before cut := by
  rw [Straddles, Straddles, List.getElem?_append_left h]

theorem straddles_append_right {before after : List UInt8} {cut : ℕ} (h : before.length ≤ cut) :
    Straddles (before ++ after) cut ↔ Straddles after (cut - before.length) := by
  rw [Straddles, Straddles, List.getElem?_append_right h]

/-- The cut falls inside a character of the input: what comes before and behind the character, and
their texts. -/
structure CutInside (bytes : List UInt8) (text : JsString) (cut : ℕ) where
  before : List UInt8
  character : List UInt8
  after : List UInt8
  c : Char
  head : JsString
  tail : JsString
  bytes_eq : bytes = before ++ (character ++ after)
  text_eq : text = head ++ (utf16Units c ++ tail)
  encodes : Encodes character c
  lower : before.length < cut
  upper : cut < before.length + character.length
  complete : (StringDecoder.idle).writeFatal before = some (head, .idle)

theorem cut_cases (cut : ℕ) (h : (StringDecoder.idle).writeFatal bytes = some (text, .idle)) :
    (¬ Straddles bytes cut ∧ ∃ head tail, text = head ++ tail ∧
        (StringDecoder.idle).writeFatal (bytes.take cut) = some (head, .idle)) ∨
      Straddles bytes cut ∧ Nonempty (CutInside bytes text cut) := by
  induction hn : bytes.length using Nat.strongRecOn generalizing bytes text cut with
  | ind n ih =>
    cases bytes with
    | nil =>
      refine .inl ⟨?_, [], text, rfl, by rw [List.take_nil]; rfl⟩
      rintro ⟨byte, hbyte, -⟩
      cases hbyte
    | cons byte more =>
      obtain ⟨character, after, c, tail, heq, hencodes, hafter, rfl⟩ := character_of_valid h
      rw [heq] at hn ⊢
      rw [List.length_append] at hn
      have hpositive := hencodes.positive
      rcases Nat.lt_or_ge cut character.length with hlt | hge
      · rw [straddles_append_left hlt, hencodes.straddled cut hlt]
        rcases Nat.eq_zero_or_pos cut with rfl | hpos
        · exact .inl ⟨Nat.lt_irrefl 0, [], _, rfl, rfl⟩
        · refine .inr ⟨hpos, ⟨[], character, after, c, [], tail, rfl, rfl, hencodes, hpos, ?_, rfl⟩⟩
          rwa [List.length_nil, Nat.zero_add]
      · rw [straddles_append_right hge, List.take_append, List.take_of_length_le hge]
        rcases ih after.length (by omega) (cut - character.length) hafter rfl with
          ⟨hnot, head, rest, htail, htake⟩ | ⟨hstraddles, ⟨inside⟩⟩
        · refine .inl ⟨hnot, utf16Units c ++ head, rest, ?_, ?_⟩
          · rw [htail, List.append_assoc]
          · exact writeFatal_append_some hencodes.complete htake
        · refine .inr ⟨hstraddles, ⟨character ++ inside.before, inside.character, inside.after,
            inside.c, utf16Units c ++ inside.head, inside.tail, ?_, ?_, inside.encodes, ?_, ?_,
            writeFatal_append_some hencodes.complete inside.complete⟩⟩
          · rw [List.append_assoc, ← inside.bytes_eq]
          · rw [List.append_assoc, ← inside.text_eq]
          · have hlower := inside.lower
            rw [List.length_append]
            omega
          · have hupper := inside.upper
            rw [List.length_append]
            omega

theorem CutInside.waits {cut : ℕ} (inside : CutInside bytes text cut) : ∃ bits needed lower upper,
      (StringDecoder.idle).writeFatal (bytes.take cut) =
        some (inside.head, .inside bits needed lower upper) := by
  have hlower := inside.lower
  have hupper := inside.upper
  obtain ⟨bits, needed, lower, upper, hwaits⟩ :=
    inside.encodes.waits (cut - inside.before.length) (by omega) (by omega)
  refine ⟨bits, needed, lower, upper, ?_⟩
  have htake : bytes.take cut =
      inside.before ++ inside.character.take (cut - inside.before.length) := by
    refine (congrArg (List.take cut) inside.bytes_eq).trans ?_
    rw [List.take_append, List.take_of_length_le (Nat.le_of_lt hlower),
      List.take_append_of_le_length (by omega)]
  rw [htake, writeFatal_append_some inside.complete hwaits, List.append_nil]

theorem isSome_decodeFatal_take (h : decodeFatal bytes = some text) (cut : ℕ) :
    (decodeFatal (bytes.take cut)).isSome ↔ ¬ Straddles bytes cut := by
  rcases cut_cases cut (decodeFatal_eq_some.mp h) with
    ⟨hnot, head, tail, -, htake⟩ | ⟨hstraddles, ⟨inside⟩⟩
  · rw [decodeFatal_eq_some.mpr htake]
    exact ⟨fun _ => hnot, fun _ => rfl⟩
  · obtain ⟨bits, needed, lower, upper, htake⟩ := inside.waits
    rw [decodeFatal, htake]
    exact ⟨nofun, fun hnot => absurd hstraddles hnot⟩

/-! ## Replaced characters -/

theorem Encodes.unique {first second more rest : List UInt8} {c d : Char}
    (hfirst : Encodes first c) (hsecond : Encodes second d)
    (h : first ++ more = second ++ rest) : first = second := by
  have hshort : ∀ {a b x y : List UInt8} {c d : Char}, Encodes a c → Encodes b d →
      a ++ x = b ++ y → ¬ a.length < b.length := by
    intro a b x y c d ha hb heq hlt
    obtain ⟨bits, needed, lower, upper, hwaits⟩ := hb.waits a.length ha.positive hlt
    have htake : b.take a.length = a := by
      have htaken : (b ++ y).take a.length = b.take a.length :=
        List.take_append_of_le_length (Nat.le_of_lt hlt)
      rw [← htaken, ← heq, List.take_left]
    rw [htake, ha.complete] at hwaits
    simp only [Option.some.injEq, Prod.mk.injEq, reduceCtorEq, and_false] at hwaits
  have hlength : first.length = second.length :=
    Nat.le_antisymm (Nat.not_lt.mp (hshort hsecond hfirst h.symm))
      (Nat.not_lt.mp (hshort hfirst hsecond h))
  exact List.append_inj_left h hlength

theorem Encodes.cases {c : Char} (h : Encodes bytes c) :
    (∃ byte : UInt8, byte.toNat < 0x80 ∧ bytes = [byte] ∧
        utf16Units c = [UInt16.ofNat byte.toNat]) ∨
      ∃ byte rest bits needed lower upper, bytes = byte :: rest ∧
        FirstByte byte bits needed lower upper ∧ rest.length = needed ∧
        (StringDecoder.inside bits needed lower upper).writeFatal rest =
          some (utf16Units c, .idle) := by
  obtain ⟨byte, rest, rfl⟩ := List.exists_cons_of_length_pos h.positive
  have hcomplete := h.complete
  have haccepts : (StringDecoder.idle).accepts byte = true := by
    by_contra hnot
    rw [writeFatal, if_neg hnot] at hcomplete
    cases hcomplete
  rcases first_cases haccepts with ⟨hascii, hfirst⟩ | ⟨bits, needed, lower, upper, hfirst, hbyte⟩
  · have hrest : rest = [] := by
      by_contra hne
      have hpositive := List.length_pos_of_ne_nil hne
      obtain ⟨bits, needed, lower, upper, hwaits⟩ := h.waits 1 Nat.one_pos (by
        rw [List.length_cons]
        omega)
      simp [writeFatal, haccepts, writeByte, hfirst] at hwaits
    subst hrest
    refine .inl ⟨byte, hascii, rfl, ?_⟩
    simpa [writeFatal, haccepts, writeByte, hfirst, eq_comm] using hcomplete
  · refine .inr ⟨byte, rest, bits, needed, lower, upper, rfl, hbyte, ?_, ?_⟩
    · have hwrite := writeFatal_first haccepts hfirst
      rw [hwrite] at hcomplete
      obtain ⟨needed, rfl⟩ := Nat.exists_eq_succ_of_ne_zero (Nat.ne_of_gt hbyte.needed_pos)
      obtain ⟨start, after, d, tail, hrest, hlength, hstart, -⟩ :=
        rest_of_inside hbyte.lowest hbyte.highest hcomplete
      rcases List.eq_nil_or_concat' after with hnil | ⟨others, last, hafter⟩
      · rw [hrest, hnil, List.append_nil, hlength]
      · have hpositive : 0 < after.length := by
          rw [hafter]
          simp
        obtain ⟨bits', needed', lower', upper', hwaits⟩ :=
          h.waits (start.length + 1) (Nat.succ_pos _) (by
            rw [hrest, List.length_cons, List.length_append]
            omega)
        rw [List.take_succ_cons, hrest, List.take_left, hwrite, hstart] at hwaits
        simp only [Option.some.injEq, Prod.mk.injEq, reduceCtorEq, and_false] at hwaits
    · rwa [writeFatal_first haccepts hfirst] at hcomplete

theorem bits_of_inside {lower upper : UInt8} {rest : List UInt8}
    (hlength : rest.length = needed + 1)
    (h : (StringDecoder.inside bits (needed + 1) lower upper).writeFatal rest =
      some (text, .idle)) :
    text = utf16Units
      (Char.ofNat (rest.foldl (fun bits byte => bits * 64 + byte.toNat % 64) bits)) := by
  induction needed generalizing bits lower upper rest with
  | zero =>
    obtain ⟨byte, rfl⟩ := List.length_eq_one_iff.mp hlength
    obtain ⟨hlower, hupper⟩ := bounds_of_writeFatal h
    rw [writeFatal_inside_cons hlower hupper, if_pos rfl] at h
    simp only [writeFatal, Option.map_some, List.append_nil, Option.some.injEq, Prod.mk.injEq,
      and_true] at h
    exact h.symm
  | succ needed ih =>
    cases rest with
    | nil => cases hlength
    | cons byte rest =>
      obtain ⟨hlower, hupper⟩ := bounds_of_writeFatal h
      rw [writeFatal_inside_cons hlower hupper, if_neg (Nat.succ_ne_zero _)] at h
      rw [List.foldl_cons]
      exact ih (by simpa using hlength) h

theorem utf16Units_ne_nil (c : Char) : utf16Units c ≠ [] := by
  rw [utf16Units]
  split
  · exact List.cons_ne_nil _ _
  · exact List.cons_ne_nil _ _

theorem replacement_prefix_iff (c : Char) (tail : JsString) :
    replacement <+: utf16Units c ++ tail ↔ c.toNat = 0xFFFD := by
  have hvalid : c.toNat < 0x110000 := by
    rcases c.valid with h | h
    · exact Nat.lt_trans h (by decide)
    · exact h.2
  have hhead : ∀ unit rest, replacement <+: unit :: rest ↔ unit = 0xFFFD := by
    intro unit rest
    rw [replacement, List.cons_prefix_cons]
    exact ⟨fun h => h.1.symm, fun h => ⟨h.symm, List.nil_prefix⟩⟩
  rw [utf16Units]
  split
  · rename_i hsmall
    rw [List.singleton_append, hhead, ← UInt16.toNat_inj, UInt16.toNat_ofNat']
    change c.toNat % 65536 = 65533 ↔ _
    omega
  · rename_i hlarge
    rw [List.cons_append, hhead, ← UInt16.toNat_inj, UInt16.toNat_ofNat']
    change (0xD800 + (c.toNat - 0x10000) / 0x400) % 65536 = 65533 ↔ _
    omega

theorem eq_of_toNat_ofNat {n : ℕ} (h : (Char.ofNat n).toNat = 0xFFFD) : n = 0xFFFD := by
  by_cases hvalid : n.isValidChar
  · rw [Char.ofNat, dif_pos hvalid] at h
    exact h
  · rw [Char.ofNat, dif_neg hvalid] at h
    cases h

theorem Encodes.continues {byte : UInt8} {rest : List UInt8} {c : Char}
    (h : Encodes (byte :: rest) c) : ∀ other ∈ rest, IsContinuation other := by
  intro other hother
  obtain ⟨k, hk, rfl⟩ := List.mem_iff_getElem.mp hother
  obtain ⟨found, hfound, hcontinuation⟩ :=
    (h.straddled (k + 1) (Nat.succ_lt_succ hk)).mpr (Nat.succ_pos k)
  rw [List.getElem?_cons_succ, List.getElem?_eq_getElem hk, Option.some.injEq] at hfound
  rw [hfound]
  exact hcontinuation

theorem Encodes.bytes_of_replacement {c : Char} (h : Encodes bytes c)
    (hc : c.toNat = 0xFFFD) : bytes = [0xEF, 0xBF, 0xBD] := by
  have hunits : utf16Units c = [0xFFFD] := by
    rw [utf16Units]
    simp only [hc]
    rfl
  rcases h.cases with ⟨byte, hascii, rfl, hbyte⟩ |
    ⟨byte, rest, bits, needed, lower, upper, rfl, hfirst, hlength, hrest⟩
  · rw [hunits, List.singleton_inj, ← UInt16.toNat_inj, UInt16.toNat_ofNat'] at hbyte
    change 65533 = byte.toNat % 65536 at hbyte
    omega
  · have hcontinues := h.continues
    obtain ⟨needed, rfl⟩ := Nat.exists_eq_succ_of_ne_zero (Nat.ne_of_gt hfirst.needed_pos)
    have hchar := (replacement_prefix_iff (Char.ofNat _) []).mp (by
      rw [← bits_of_inside hlength hrest, hunits]
      exact List.prefix_append _ _)
    have hbits := eq_of_toNat_ofNat hchar
    match rest, hlength with
    | [second], hlength =>
      simp only [List.foldl_cons, List.foldl_nil] at hbits
      have hone : needed = 0 := by simpa using hlength.symm
      rcases hfirst.shape with hshape | hshape | hshape
      · omega
      · omega
      · omega
    | [second, third], hlength =>
      simp only [List.foldl_cons, List.foldl_nil] at hbits
      have htwo : needed = 1 := by simpa using hlength.symm
      have hsecond := hcontinues second (by simp)
      have hthird := hcontinues third (by simp)
      simp only [IsContinuation] at hsecond hthird
      rcases hfirst.shape with hshape | hshape | hshape
      · omega
      · have hfirstByte : byte = 0xEF := UInt8.toNat_inj.mp (show byte.toNat = 239 by omega)
        have hsecondByte : second = 0xBF := UInt8.toNat_inj.mp (show second.toNat = 191 by omega)
        have hthirdByte : third = 0xBD := UInt8.toNat_inj.mp (show third.toNat = 189 by omega)
        rw [hfirstByte, hsecondByte, hthirdByte]
      · omega
    | second :: third :: fourth :: more, hlength =>
      have hsecond := hcontinues second (by simp)
      simp only [IsContinuation] at hsecond
      have hlower := (bounds_of_writeFatal hrest).1
      rcases hfirst.shape with hshape | hshape | ⟨hthree, hlowest⟩
      · simp at hlength
        omega
      · simp at hlength
        omega
      · have hnil : more = [] := by
          have : more.length = 0 := by
            simp at hlength
            omega
          exact List.length_eq_zero_iff.mp this
        rw [hnil] at hbits
        simp only [List.foldl_cons, List.foldl_nil] at hbits
        rcases Nat.eq_zero_or_pos bits with hzero | hpositive
        · have := hlowest hzero
          omega
        · omega

theorem encodes_replacement : Encodes [0xEF, 0xBF, 0xBD] (Char.ofNat 0xFFFD) := by
  refine ⟨by decide, by decide, fun k hpos hk => ?_, fun k hk => ?_⟩
  · rw [List.length_cons, List.length_cons, List.length_singleton] at hk
    obtain rfl | rfl : k = 1 ∨ k = 2 := by omega
    · exact ⟨15, 2, 0x80, 0xBF, rfl⟩
    · exact ⟨1023, 1, 0x80, 0xBF, rfl⟩
  · rw [List.length_cons, List.length_cons, List.length_singleton] at hk
    simp only [Straddles]
    obtain rfl | rfl | rfl : k = 0 ∨ k = 1 ∨ k = 2 := by omega
    · simp [IsContinuation]
    · simp [IsContinuation]
    · simp [IsContinuation]

/-- The cut falls inside a replacement character. -/
def CutsReplacement (bytes : List UInt8) (cut : ℕ) : Prop :=
  ∃ start, start < cut ∧ cut < start + 3 ∧ (bytes.drop start).take 3 = [0xEF, 0xBF, 0xBD]

theorem CutInside.replacement_iff {cut : ℕ} (inside : CutInside bytes text cut) :
    inside.c.toNat = 0xFFFD ↔ CutsReplacement bytes cut := by
  have hlower := inside.lower
  have hupper := inside.upper
  constructor
  · intro hc
    have hcharacter := inside.encodes.bytes_of_replacement hc
    rw [hcharacter] at hupper
    refine ⟨inside.before.length, hlower, hupper, ?_⟩
    refine (congrArg (fun bytes => (bytes.drop inside.before.length).take 3)
      inside.bytes_eq).trans ?_
    simp only [List.drop_left, hcharacter]
    rfl
  · rintro ⟨start, hstart, hcut, htake⟩
    have hstraddles : ∀ k, inside.before.length ≤ k →
        k < inside.before.length + inside.character.length →
        (Straddles bytes k ↔ inside.before.length < k) := by
      intro k hk hlt
      have hbytes : Straddles bytes k ↔
          Straddles (inside.before ++ (inside.character ++ inside.after)) k :=
        iff_of_eq (congrArg (Straddles · k) inside.bytes_eq)
      rw [hbytes, straddles_append_right hk, straddles_append_left (by omega),
        inside.encodes.straddled _ (by omega)]
      omega
    have hbyte : ∀ k < 3, bytes[start + k]? = [0xEF, 0xBF, 0xBD][k]? := by
      intro k hk
      rw [← htake, List.getElem?_take, if_pos hk, List.getElem?_drop]
    have hlead : ¬ Straddles bytes start := by
      rintro ⟨byte, hfound, hcontinuation⟩
      cases (hbyte 0 (by decide)).symm.trans hfound
      exact absurd hcontinuation (by decide)
    have hsecond : Straddles bytes (start + 1) := ⟨0xBF, hbyte 1 (by decide), by decide⟩
    have hthird : Straddles bytes (start + 2) := ⟨0xBD, hbyte 2 (by decide), by decide⟩
    have hsame : start = inside.before.length := by
      rcases Nat.lt_trichotomy start inside.before.length with hlt | heq | hgt
      · have hbegin := (hstraddles _ (Nat.le_refl _) (by omega)).not.mpr (Nat.lt_irrefl _)
        obtain heq | heq : inside.before.length = start + 1 ∨
          inside.before.length = start + 2 := by omega
        · exact absurd (heq ▸ hsecond) hbegin
        · exact absurd (heq ▸ hthird) hbegin
      · exact heq
      · exact absurd ((hstraddles start (Nat.le_of_lt hgt) (by omega)).mpr hgt) hlead
    have hdrop : bytes.drop start = inside.character ++ inside.after := by
      rw [hsame]
      exact (congrArg (List.drop _) inside.bytes_eq).trans List.drop_left
    have hpieces : inside.character ++ inside.after =
        [0xEF, 0xBF, 0xBD] ++ (bytes.drop start).drop 3 := by
      rw [← hdrop, ← htake, List.take_append_drop]
    have hcharacter := inside.encodes.unique encodes_replacement hpieces
    have hunits := inside.encodes.complete
    rw [hcharacter, encodes_replacement.complete, Option.some.injEq, Prod.mk.injEq] at hunits
    refine (replacement_prefix_iff inside.c []).mp ?_
    rw [← hunits.1]
    exact List.prefix_append _ _

/-! ## The byte order mark -/

/-- The text without a byte order mark at its begin. -/
def stripMark (text : JsString) : JsString :=
  if text.head? = some 0xFEFF then text.tail else text

theorem stripMark_append {head : JsString} (hne : head ≠ []) (tail : JsString) :
    stripMark (head ++ tail) = stripMark head ++ tail := by
  cases head with
  | nil => exact absurd rfl hne
  | cons unit rest =>
    by_cases hmark : unit = 0xFEFF
    · simp [stripMark, hmark]
    · simp [stripMark, hmark]

/-- `new TextDecoder("utf-8", { fatal: true }).decode(bytes)`. -/
def textDecoderFatal (bytes : List UInt8) : Option JsString := (decodeFatal bytes).map stripMark

/-- `new TextDecoder("utf-8").decode(bytes)`. -/
def textDecoder (bytes : List UInt8) : JsString := stripMark (decode bytes)

theorem eq_nil_of_writeFatal
    (h : (StringDecoder.idle).writeFatal bytes = some ([], .idle)) : bytes = [] := by
  cases bytes with
  | nil => rfl
  | cons byte more =>
    obtain ⟨character, after, c, tail, -, -, -, htext⟩ := character_of_valid h
    exact absurd (List.append_eq_nil_iff.mp htext.symm).1 (utf16Units_ne_nil c)

theorem Encodes.length_le {c : Char} (h : Encodes bytes c) :
    bytes.length ≤ 4 := by
  rcases h.cases with ⟨byte, -, rfl, -⟩ |
    ⟨byte, rest, bits, needed, lower, upper, rfl, hfirst, hlength, -⟩
  · rw [List.length_singleton]
    omega
  · rw [List.length_cons, hlength]
    rcases hfirst.shape with hshape | hshape | hshape
    · omega
    · omega
    · omega

/-- A beginning of a valid file is decoded to a beginning of its text just when the cut falls
between two characters or inside a replacement character. -/
theorem textDecoder_take_prefix_iff
    (h : textDecoderFatal bytes = some text) {cut : ℕ} (hcut : 4 ≤ cut) :
    textDecoder (bytes.take cut) <+: text ↔
      ¬ Straddles bytes cut ∨ CutsReplacement bytes cut := by
  obtain ⟨whole, hwhole, rfl⟩ := Option.map_eq_some_iff.mp h
  rw [textDecoder, decode]
  rcases cut_cases cut (decodeFatal_eq_some.mp hwhole) with
    ⟨hnot, head, tail, rfl, htake⟩ | ⟨hstraddles, ⟨inside⟩⟩
  · rw [write_of_writeFatal htake]
    refine ⟨fun _ => .inl hnot, fun _ => ?_⟩
    simp only [finish, List.append_nil]
    by_cases hne : head = []
    · rw [hne]
      exact List.nil_prefix
    · rw [stripMark_append hne]
      exact List.prefix_append _ _
  · obtain ⟨bits, needed, lower, upper, htake⟩ := inside.waits
    have hne : inside.head ≠ [] := by
      intro hnil
      have hcomplete := inside.complete
      rw [hnil] at hcomplete
      have hlength := congrArg List.length (eq_nil_of_writeFatal hcomplete)
      have hupper := inside.upper
      have hshort := inside.encodes.length_le
      rw [List.length_nil] at hlength
      omega
    rw [write_of_writeFatal htake]
    simp only [finish]
    have htext : stripMark whole =
        stripMark inside.head ++ (utf16Units inside.c ++ inside.tail) :=
      (congrArg stripMark inside.text_eq).trans (stripMark_append hne _)
    rw [htext, stripMark_append hne, List.prefix_append_right_inj, replacement_prefix_iff,
      inside.replacement_iff]
    exact ⟨.inr, fun hor => hor.resolve_left fun hnot => hnot hstraddles⟩

end StringDecoder

end PiAgentWeb
