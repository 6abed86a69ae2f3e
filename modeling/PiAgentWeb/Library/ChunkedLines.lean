import Mathlib.Algebra.GroupWithZero.Nat
import Mathlib.Data.List.Basic

/-!
# Lines of a text that comes in chunks

A reader that parses every complete line and keeps the unfinished one until the next chunk. The
unfinished line has to stay within a limit after every chunk, so the result depends on where the
text is cut, unless every line with a prefix beyond the limit is also rejected when it is parsed.
-/

namespace PiAgentWeb

namespace ChunkedLines

variable {U S : Type*} [DecidableEq U]

/-- The complete lines of a text, without their newlines, and what follows the last newline. -/
def splitLines (newline : U) : List U → List (List U) × List U
  | [] => ([], [])
  | u :: rest =>
    let parts := splitLines newline rest
    if u = newline then ([] :: parts.1, parts.2)
    else
      match parts.1 with
      | [] => ([], u :: parts.2)
      | line :: lines => ((u :: line) :: lines, parts.2)

theorem splitLines_append (newline : U) (first second : List U) :
    splitLines newline (first ++ second) =
      ((splitLines newline first).1 ++
          (splitLines newline ((splitLines newline first).2 ++ second)).1,
        (splitLines newline ((splitLines newline first).2 ++ second)).2) := by
  induction first with
  | nil => rfl
  | cons u rest ih =>
    by_cases hnewline : u = newline
    · simp only [List.cons_append, splitLines, if_pos hnewline, ih]
    · cases hlines : (splitLines newline rest).1 with
      | nil =>
        simp only [List.cons_append, splitLines, if_neg hnewline, ih, hlines, List.nil_append]
      | cons line lines =>
        simp only [List.cons_append, splitLines, if_neg hnewline, ih, hlines]

theorem prefix_of_splitLines {newline : U} {start : List U} (h : newline ∉ start) (rest : List U) :
    (∃ line lines, (splitLines newline (start ++ rest)).1 = line :: lines ∧ start <+: line) ∨
      (splitLines newline (start ++ rest)).1 = [] ∧
        start <+: (splitLines newline (start ++ rest)).2 := by
  induction start with
  | nil =>
    cases hlines : (splitLines newline rest).1 with
    | nil => exact .inr ⟨hlines, List.nil_prefix⟩
    | cons line lines => exact .inl ⟨line, lines, hlines, List.nil_prefix⟩
  | cons u start ih =>
    rw [List.mem_cons, not_or] at h
    simp only [List.cons_append, splitLines, if_neg (Ne.symm h.1)]
    rcases ih h.2 with ⟨line, lines, hlines, hstart⟩ | ⟨hlines, hstart⟩
    · rw [hlines]
      exact .inl ⟨u :: line, lines, rfl, List.cons_prefix_cons.mpr ⟨rfl, hstart⟩⟩
    · rw [hlines]
      exact .inr ⟨rfl, List.cons_prefix_cons.mpr ⟨rfl, hstart⟩⟩

theorem newline_not_mem (newline : U) (text : List U) :
    newline ∉ (splitLines newline text).2 := by
  induction text with
  | nil => exact List.not_mem_nil
  | cons u rest ih =>
    by_cases hnewline : u = newline
    · simpa only [splitLines, if_pos hnewline] using ih
    · cases hlines : (splitLines newline rest).1 with
      | nil =>
        simp only [splitLines, if_neg hnewline, hlines, List.mem_cons, not_or]
        exact ⟨fun heq => hnewline heq.symm, ih⟩
      | cons line lines => simpa only [splitLines, if_neg hnewline, hlines] using ih

theorem splitLines_of_not_mem {newline : U} {text : List U} (h : newline ∉ text) :
    splitLines newline text = ([], text) := by
  induction text with
  | nil => rfl
  | cons u rest ih =>
    rw [List.mem_cons, not_or] at h
    simp only [splitLines, ih h.2, if_neg (Ne.symm h.1)]

theorem splitLines_line {newline : U} {line : List U} (h : newline ∉ line) (rest : List U) :
    splitLines newline (line ++ newline :: rest) =
      (line :: (splitLines newline rest).1,
        (splitLines newline rest).2) := by
  rw [splitLines_append, splitLines_of_not_mem h]
  induction line with
  | nil => simp [splitLines]
  | cons u line ih =>
    rw [List.mem_cons, not_or] at h
    have hrest := ih h.2
    simp only [List.nil_append, Prod.mk.injEq] at hrest
    simp [splitLines, if_neg (Ne.symm h.1), hrest.1, hrest.2]

section Reader

variable (newline : U) (parse : S → List U → Option S) (fits : List U → Bool)

/-- A chunk of text: its complete lines are parsed, and the unfinished one has to fit. -/
def readChunk (progress : S × List U) (text : List U) : Option (S × List U) :=
  let parts := splitLines newline (progress.2 ++ text)
  (parts.1.foldlM parse progress.1).bind fun s =>
    if fits parts.2 then some (s, parts.2) else none

/-- The end of the text: what is unfinished is a line too, unless it is empty. The flag says that
the text ended with a line. -/
def finish (progress : S × List U) : Option (S × Bool) :=
  if progress.2 = [] then some (progress.1, true)
  else if fits progress.2 then (parse progress.1 progress.2).map fun s => (s, false) else none

/-- The text read at once. -/
def readWhole (progress : S × List U) (text : List U) : Option (S × Bool) :=
  let parts := splitLines newline (progress.2 ++ text)
  (parts.1.foldlM parse progress.1).bind fun s => finish parse fits (s, parts.2)

/-- A line with a prefix that does not fit is rejected when it is parsed. -/
def RejectsLong (line : List U) : Prop :=
  ∀ start, start <+: line → fits start = false → ∀ s, parse s line = none

variable {newline parse fits}

theorem newline_not_mem_foldlM {texts : List (List U)} {progress next : S × List U}
    (h : texts.foldlM (readChunk newline parse fits) progress = some next)
    (hbuffered : newline ∉ progress.2) : newline ∉ next.2 := by
  induction texts generalizing progress with
  | nil =>
    cases h
    exact hbuffered
  | cons text rest ih =>
    rw [List.foldlM_cons, Option.bind_eq_bind, Option.bind_eq_some_iff] at h
    obtain ⟨between, hread, hrest⟩ := h
    refine ih hrest ?_
    rw [readChunk, Option.bind_eq_some_iff] at hread
    obtain ⟨s, -, hfit⟩ := hread
    split at hfit
    · cases hfit
      exact newline_not_mem newline _
    · cases hfit

/-- Where the text is cut does not matter if every complete line that is too long for the buffer
is rejected as a line too. -/
theorem readChunk_foldlM (hfits : ∀ start line, start <+: line → fits line = true →
    fits start = true) (hempty : fits [] = true) (texts : List (List U)) {s : S}
    {buffered : List U} (hbuffered : newline ∉ buffered)
    (hlines : ∀ line ∈ (splitLines newline (buffered ++ texts.flatten)).1,
      RejectsLong parse fits line) :
    (texts.foldlM (readChunk newline parse fits) (s, buffered)).bind (finish parse fits) =
      readWhole newline parse fits (s, buffered) texts.flatten := by
  induction texts generalizing s buffered with
  | nil =>
    simp only [List.foldlM_nil, List.flatten_nil, List.append_nil, readWhole,
      splitLines_of_not_mem hbuffered]
    rfl
  | cons text rest ih =>
    have hsplit := splitLines_append newline (buffered ++ text) rest.flatten
    rw [List.flatten_cons, ← List.append_assoc, hsplit] at hlines
    simp only [List.flatten_cons, List.foldlM_cons, readWhole, ← List.append_assoc, hsplit,
      List.foldlM_append]
    rw [readChunk]
    cases hparsed : List.foldlM parse s (splitLines newline (buffered ++ text)).1 with
    | none => rfl
    | some s' =>
      set unfinished := (splitLines newline (buffered ++ text)).2 with hunfinished
      have hnewline : newline ∉ unfinished := newline_not_mem newline (buffered ++ text)
      have hrest : ∀ line ∈ (splitLines newline (unfinished ++ rest.flatten)).1,
          RejectsLong parse fits line :=
        fun line hline => hlines line (List.mem_append_right _ hline)
      by_cases hfit : fits unfinished = true
      · have htail := ih (s := s') hnewline hrest
        rw [readWhole] at htail
        simp only [Option.bind_some, hfit, if_true]
        exact htail
      · -- the line that begins with the unfinished text is too long as well
        rw [Bool.not_eq_true] at hfit
        simp only [Option.bind_some, hfit, Bool.false_eq_true, if_false]
        rcases prefix_of_splitLines hnewline rest.flatten with
          ⟨line, lines, heq, hstart⟩ | ⟨heq, hstart⟩
        · have hnone : parse s' line = none :=
            hrest line (heq ▸ List.mem_cons_self) unfinished hstart hfit s'
          rw [heq]
          simp only [List.foldlM_cons, Option.bind_eq_bind, Option.bind_some, hnone,
            Option.bind_none]
        · have hlong : fits (splitLines newline (unfinished ++ rest.flatten)).2 = false := by
            rw [Bool.eq_false_iff]
            intro htrue
            rw [hfits _ _ hstart htrue] at hfit
            cases hfit
          have hne : (splitLines newline (unfinished ++ rest.flatten)).2 ≠ [] := by
            intro hnil
            rw [hnil, hempty] at hlong
            cases hlong
          simp only [heq, List.foldlM_nil, finish, if_neg hne, hlong]
          rfl

theorem readWhole_append {s s' : S} {first : List U}
    (h : readWhole newline parse fits (s, []) first = some (s', true)) (second : List U) :
    readWhole newline parse fits (s, []) (first ++ second) =
      readWhole newline parse fits (s', []) second := by
  simp only [readWhole, List.nil_append] at h ⊢
  rw [splitLines_append]
  cases hparsed : List.foldlM parse s (splitLines newline first).1 with
  | none => simp [hparsed] at h
  | some s₁ =>
    rw [hparsed, Option.bind_some] at h
    by_cases hrest : (splitLines newline first).2 = []
    · simp only [finish, hrest, if_true, Option.some.injEq, Prod.mk.injEq, and_true] at h
      simp only [hrest, List.nil_append, List.foldlM_append, hparsed, h, Option.bind_eq_bind,
        Option.bind_some]
    · simp only [finish, if_neg hrest] at h
      split at h
      · simp at h
      · cases h

theorem splitLines_of_readWhole {s s' : S} {text : List U}
    (h : readWhole newline parse fits (s, []) text = some (s', true)) :
    (splitLines newline text).2 = [] := by
  simp only [readWhole, List.nil_append] at h
  cases hparsed : List.foldlM parse s (splitLines newline text).1 with
  | none => simp [hparsed] at h
  | some s₁ =>
    rw [hparsed, Option.bind_some] at h
    by_contra hrest
    simp only [finish, if_neg hrest] at h
    split at h
    · simp at h
    · cases h

end Reader

end ChunkedLines

end PiAgentWeb
