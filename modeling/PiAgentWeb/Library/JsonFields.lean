import PiAgentWeb.Library.Utf16
import PiAgentWeb.Library.InsertionMap

/-!
# The names of JSON fields

Names of fields are literals, and different literals are different names: the scalar values of a
literal give it back.
-/

namespace PiAgentWeb

theorem toNat_char_cases (c : Char) :
    c.toNat < 0xD800 ∨ 0xDFFF < c.toNat ∧ c.toNat < 0x110000 := by
  have hvalid := c.valid
  exact hvalid

theorem scalars_utf16Units_append (c : Char) (rest : JsString) :
    scalars (utf16Units c ++ rest) = c :: scalars rest := by
  have hvalid := toNat_char_cases c
  by_cases hsmall : c.toNat < 0x10000
  · have hnat : (UInt16.ofNat c.toNat).toNat = c.toNat := by
      rw [UInt16.toNat_ofNat']
      omega
    have hhigh : isHighSurrogate (UInt16.ofNat c.toNat) = false := by
      rw [Bool.eq_false_iff, ne_eq, isHighSurrogate_iff, hnat]
      omega
    have hlow : isLowSurrogate (UInt16.ofNat c.toNat) = false := by
      rw [Bool.eq_false_iff, ne_eq, isLowSurrogate_iff, hnat]
      omega
    have hunit : scalarOfUnit (UInt16.ofNat c.toNat) = c := by
      rw [scalarOfUnit, hhigh, hlow, hnat]
      exact Char.ofNat_toNat c
    rw [utf16Units, if_pos hsmall, List.singleton_append]
    cases rest with
    | nil => simp only [scalars, hunit]
    | cons v rest => rw [scalars, hhigh, hunit]; rfl
  · have hfirst : (UInt16.ofNat (0xD800 + (c.toNat - 0x10000) / 0x400)).toNat =
        0xD800 + (c.toNat - 0x10000) / 0x400 := by
      rw [UInt16.toNat_ofNat']
      omega
    have hsecond : (UInt16.ofNat (0xDC00 + (c.toNat - 0x10000) % 0x400)).toNat =
        0xDC00 + (c.toNat - 0x10000) % 0x400 := by
      rw [UInt16.toNat_ofNat']
      omega
    have hhigh : isHighSurrogate (UInt16.ofNat (0xD800 + (c.toNat - 0x10000) / 0x400)) = true := by
      rw [isHighSurrogate_iff, hfirst]
      omega
    have hlow : isLowSurrogate (UInt16.ofNat (0xDC00 + (c.toNat - 0x10000) % 0x400)) = true := by
      rw [isLowSurrogate_iff, hsecond]
      omega
    have hpair : scalarOfPair (UInt16.ofNat (0xD800 + (c.toNat - 0x10000) / 0x400))
        (UInt16.ofNat (0xDC00 + (c.toNat - 0x10000) % 0x400)) = c := by
      have hsum : 0x10000 + (0xD800 + (c.toNat - 0x10000) / 0x400 - 0xD800) * 0x400 +
          (0xDC00 + (c.toNat - 0x10000) % 0x400 - 0xDC00) = c.toNat := by omega
      rw [scalarOfPair, hfirst, hsecond, hsum]
      exact Char.ofNat_toNat c
    rw [utf16Units, if_neg hsmall, List.cons_append, List.singleton_append, scalars, hhigh, hlow,
      hpair]
    rfl

theorem scalars_js (s : String) : scalars (js s) = s.toList := by
  rw [js]
  induction s.toList with
  | nil => rfl
  | cons c rest ih => rw [List.flatMap_cons, scalars_utf16Units_append, ih]

@[simp] theorem js_inj {s t : String} : js s = js t ↔ s = t := by
  constructor
  · intro h
    have hscalars := congrArg scalars h
    rw [scalars_js, scalars_js] at hscalars
    exact String.toList_inj.mp hscalars
  · rintro rfl
    rfl

end PiAgentWeb
