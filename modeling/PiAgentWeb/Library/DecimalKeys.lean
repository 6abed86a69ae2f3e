import PiAgentWeb.Library.JsValue

/-!
# Decimal keys

Keys are made of other keys, colons and decimal numbers. A decimal number has no colon, so the last
number of a key can be split off, and two keys that end in a number are equal only if both parts
are.
-/

namespace PiAgentWeb

theorem jsNat_eq_map (n : ℕ) :
    jsNat n = (Nat.toDigits 10 n).map fun c => UInt16.ofNat c.toNat := by
  have hunits : ∀ digits : List Char, (∀ c ∈ digits, c.isDigit = true) →
      digits.flatMap utf16Units = digits.map fun c => UInt16.ofNat c.toNat := by
    intro digits hdigits
    induction digits with
    | nil => rfl
    | cons c rest ih =>
      have hc : c.toNat < 0x10000 := by
        have := Char.isDigit_iff_toNat.mp (hdigits c List.mem_cons_self)
        simp only [Char.reduceToNat] at this
        omega
      have hunit : utf16Units c = [UInt16.ofNat c.toNat] := if_pos hc
      rw [List.flatMap_cons, hunit, ih fun c h => hdigits c (List.mem_cons_of_mem _ h)]
      rfl
  rw [jsNat, js, Nat.toString_eq_repr, Nat.toList_repr]
  exact hunits _ fun c hc => Nat.isDigit_of_mem_toDigits (by omega) (by omega) hc

theorem toNat_digitUnit {c : Char} (h : c.isDigit = true) :
    (UInt16.ofNat c.toNat).toNat = c.toNat := by
  have hc := Char.isDigit_iff_toNat.mp h
  simp only [Char.reduceToNat] at hc
  have hsize : (0x10000 : ℕ) ≤ UInt16.size := by decide
  exact UInt16.toNat_ofNat_of_lt' (by omega)

theorem toDigits_eq_map (n : ℕ) :
    Nat.toDigits 10 n = (jsNat n).map fun u => Char.ofNat u.toNat := by
  rw [jsNat_eq_map, List.map_map]
  refine (List.map_id _).symm.trans (List.map_congr_left fun c hc => ?_)
  have hdigit := Nat.isDigit_of_mem_toDigits (by omega) (by omega) hc
  simp only [id_eq, Function.comp_apply, toNat_digitUnit hdigit, Char.ofNat_toNat]

theorem jsNat_injective : Function.Injective jsNat := by
  intro n m h
  have hchars : Nat.toDigits 10 n = Nat.toDigits 10 m := by
    rw [toDigits_eq_map, toDigits_eq_map, h]
  have hparsed := congrArg (fun digits => Nat.ofDigitChars 10 digits 0) hchars
  simpa using hparsed

theorem colon_notMem_jsNat (n : ℕ) : (0x3A : UInt16) ∉ jsNat n := by
  rw [jsNat_eq_map]
  intro h
  obtain ⟨c, hc, hunit⟩ := List.mem_map.mp h
  have hdigit := Nat.isDigit_of_mem_toDigits (by omega) (by omega) hc
  have hnat := congrArg UInt16.toNat hunit
  rw [toNat_digitUnit hdigit] at hnat
  have hrange := Char.isDigit_iff_toNat.mp hdigit
  simp only [Char.reduceToNat] at hrange
  have hcolon : (0x3A : UInt16).toNat = 0x3A := rfl
  omega

variable {α : Type*}

theorem append_cons_inj_left {sep : α} {first first' rest rest' : List α} (h : sep ∉ first)
    (h' : sep ∉ first') (heq : first ++ sep :: rest = first' ++ sep :: rest') :
    first = first' ∧ rest = rest' := by
  induction first generalizing first' with
  | nil =>
    cases first' with
    | nil => exact ⟨rfl, (List.cons.inj heq).2⟩
    | cons a as => exact absurd ((List.cons.inj heq).1 ▸ List.mem_cons_self) h'
  | cons a as ih =>
    cases first' with
    | nil => exact absurd ((List.cons.inj heq).1 ▸ List.mem_cons_self) h
    | cons b bs =>
      obtain ⟨rfl, htail⟩ := List.cons.inj heq
      obtain ⟨rfl, hrest⟩ := ih (fun hmem => h (List.mem_cons_of_mem _ hmem))
        (fun hmem => h' (List.mem_cons_of_mem _ hmem)) htail
      exact ⟨rfl, hrest⟩

theorem append_cons_inj_right {sep : α} {first first' rest rest' : List α} (h : sep ∉ rest)
    (h' : sep ∉ rest') (heq : first ++ sep :: rest = first' ++ sep :: rest') :
    first = first' ∧ rest = rest' := by
  have hreverse := congrArg List.reverse heq
  simp only [List.reverse_append, List.reverse_cons, List.append_assoc, List.singleton_append]
    at hreverse
  obtain ⟨hrest, hfirst⟩ := append_cons_inj_left (by simpa using h) (by simpa using h') hreverse
  exact ⟨List.reverse_injective hfirst, List.reverse_injective hrest⟩

theorem decimalKey_inj {base base' : JsString} {n n' : ℕ}
    (h : base ++ js ":" ++ jsNat n = base' ++ js ":" ++ jsNat n') : base = base' ∧ n = n' := by
  have hcolon : js ":" = [0x3A] := by decide
  rw [hcolon, List.append_assoc, List.append_assoc, List.singleton_append,
    List.singleton_append] at h
  obtain ⟨hbase, hnat⟩ := append_cons_inj_right (colon_notMem_jsNat n) (colon_notMem_jsNat n') h
  exact ⟨hbase, jsNat_injective hnat⟩

end PiAgentWeb
