import PiAgentWeb.Library.JsValue

/-!
# A streaming UTF-8 decoder

The decoder takes its input in pieces of any size. A character that is not complete yet is kept,
and what cannot be part of one is replaced. The output does not depend on where the input is cut.
-/

namespace PiAgentWeb

/-- The state of the decoder between two bytes. -/
inductive StringDecoder where
  /-- No character is begun. -/
  | idle
  /-- A character with the bits so far, the continuation bytes it still needs and the bounds of
  the next one. -/
  | inside (bits needed : ℕ) (lower upper : UInt8)
  deriving DecidableEq

namespace StringDecoder

/-- The replacement character. -/
def replacement : JsString := [0xFFFD]

/-- The first byte of a character. -/
def first (byte : UInt8) : JsString × StringDecoder :=
  if byte < 0x80 then ([UInt16.ofNat byte.toNat], .idle)
  else if 0xC2 ≤ byte && byte ≤ 0xDF then ([], .inside (byte.toNat % 32) 1 0x80 0xBF)
  else if byte = 0xE0 then ([], .inside 0 2 0xA0 0xBF)
  else if byte = 0xED then ([], .inside 13 2 0x80 0x9F)
  else if 0xE1 ≤ byte && byte ≤ 0xEF then ([], .inside (byte.toNat % 16) 2 0x80 0xBF)
  else if byte = 0xF0 then ([], .inside 0 3 0x90 0xBF)
  else if byte = 0xF4 then ([], .inside 4 3 0x80 0x8F)
  else if 0xF1 ≤ byte && byte ≤ 0xF3 then ([], .inside (byte.toNat % 8) 3 0x80 0xBF)
  else (replacement, .idle)

/-- One byte. -/
def writeByte (decoder : StringDecoder) (byte : UInt8) : JsString × StringDecoder :=
  match decoder with
  | .idle => first byte
  | .inside bits needed lower upper =>
    if lower ≤ byte && byte ≤ upper then
      let bits := bits * 64 + byte.toNat % 64
      if needed = 1 then (utf16Units (Char.ofNat bits), .idle)
      else ([], .inside bits (needed - 1) 0x80 0xBF)
    else (replacement ++ (first byte).1, (first byte).2)

/-- `decoder.write`. -/
def write (decoder : StringDecoder) : List UInt8 → JsString × StringDecoder
  | [] => ([], decoder)
  | byte :: rest =>
    let head := decoder.writeByte byte
    let tail := head.2.write rest
    (head.1 ++ tail.1, tail.2)

/-- `decoder.end`. -/
def finish : StringDecoder → JsString
  | .idle => []
  | .inside .. => replacement

/-- The text of a file. -/
def decode (bytes : List UInt8) : JsString :=
  ((StringDecoder.idle).write bytes).1 ++ ((StringDecoder.idle).write bytes).2.finish

theorem write_append (decoder : StringDecoder) (first second : List UInt8) :
    decoder.write (first ++ second) =
      ((decoder.write first).1 ++ ((decoder.write first).2.write second).1,
        ((decoder.write first).2.write second).2) := by
  induction first generalizing decoder with
  | nil => rfl
  | cons byte rest ih =>
    simp only [List.cons_append, write, ih, List.append_assoc]

theorem eq_idle_of_finish {decoder : StringDecoder} (h : decoder.finish = []) :
    decoder = .idle := by
  cases decoder with
  | idle => rfl
  | inside bits needed lower upper => cases h

theorem newline_not_mem_finish (decoder : StringDecoder) : (0x0A : UInt16) ∉ decoder.finish := by
  cases decoder with
  | idle => exact List.not_mem_nil
  | inside bits needed lower upper =>
    rw [finish, replacement]
    decide

theorem write_ascii {bytes : List UInt8} (h : ∀ byte ∈ bytes, byte < 0x80) :
    (StringDecoder.idle).write bytes = (bytes.map fun byte => UInt16.ofNat byte.toNat, .idle) := by
  induction bytes with
  | nil => rfl
  | cons byte rest ih =>
    rw [write, writeByte, first, if_pos (h byte List.mem_cons_self),
      ih fun byte' hbyte => h byte' (List.mem_cons_of_mem _ hbyte)]
    rfl

end StringDecoder

/-! ## Sizes -/

theorem utf8ByteLength_le_append (start rest : JsString) :
    utf8ByteLength start ≤ utf8ByteLength (start ++ rest) := by
  induction start using utf8ByteLength.induct with
  | case1 => exact Nat.zero_le _
  | case2 u =>
    cases rest with
    | nil => exact Nat.le_refl _
    | cons v rest =>
      simp only [List.cons_append, List.nil_append, utf8ByteLength]
      split
      · have hunit : utf8UnitLength u ≤ 3 := by
          unfold utf8UnitLength
          split
          · decide
          · split <;> decide
        omega
      · omega
  | case3 u v rest' hpair ih =>
    simp only [List.cons_append, utf8ByteLength, hpair, if_true]
    omega
  | case4 u v rest' hpair ih =>
    simp only [List.cons_append, utf8ByteLength, hpair] at ih ⊢
    simp only [Bool.false_eq_true, if_false]
    omega

end PiAgentWeb
