import Mathlib.Data.List.TakeWhile
import PiAgentWeb.Library.ChunkedLines

/-!
# Lines and where they lie

A reader that hands every line to a function together with the position of its first unit. The
text comes in chunks; the unfinished line is kept between two of them and is limited in length.
What the reader does is the same however the text is cut, and every line that is handed over is a
line of the text.
-/

namespace PiAgentWeb

namespace LocatedLines

/-- The variables of the reader between two chunks. -/
structure Progress (U S : Type*) where
  state : S
  /-- The position of the first unit of the unfinished line. -/
  lineStart : ℕ
  line : List U

variable {U S F : Type*} [DecidableEq U] (newline : U) (limit : ℕ) (tooLong : F)
  (process : S → ℕ → List U → Except F S)

/-- The loop through the rest of a chunk: each round reads up to the next newline. -/
def readChunk (progress : Progress U S) (position : ℕ) (rest : List U) :
    Except F (Progress U S) :=
  match rest with
  | [] => .ok progress
  | u :: tail =>
    let part := (u :: tail).takeWhile (· ≠ newline)
    let line := progress.line ++ part
    if limit < line.length then .error tooLong
    else
      match _hafter : (u :: tail).dropWhile (· ≠ newline) with
      | [] => .ok { progress with line }
      | _ :: after =>
        match process progress.state progress.lineStart line with
        | .error failure => .error failure
        | .ok state =>
          readChunk { state, lineStart := position + part.length + 1, line := [] }
            (position + part.length + 1) after
termination_by rest.length
decreasing_by
  have hlength := ((u :: tail).dropWhile_suffix (· ≠ newline)).length_le
  rw [_hafter, List.length_cons] at hlength
  omega

/-- The end of the text: what is unfinished is a line too, unless it is empty. -/
def finish (progress : Progress U S) : Except F S :=
  if progress.line = [] then .ok progress.state
  else process progress.state progress.lineStart progress.line

/-! ## Unit by unit -/

/-- One unit. -/
def readUnit (progress : Progress U S) (position : ℕ) (u : U) : Except F (Progress U S) :=
  if u = newline then
    (process progress.state progress.lineStart progress.line).map fun state =>
      { state, lineStart := position + 1, line := [] }
  else if limit < progress.line.length + 1 then .error tooLong
  else .ok { progress with line := progress.line ++ [u] }

/-- The text unit by unit. -/
def readUnits (progress : Progress U S) (position : ℕ) : List U → Except F (Progress U S)
  | [] => .ok progress
  | u :: rest =>
    (readUnit newline limit tooLong process progress position u).bind fun next =>
      readUnits next (position + 1) rest

variable {newline limit tooLong process} {progress next : Progress U S}

theorem readUnit_cases {position : ℕ} {u : U}
    (h : readUnit newline limit tooLong process progress position u = .ok next) :
    (u = newline ∧ ∃ state, process progress.state progress.lineStart progress.line = .ok state ∧
        next = { state, lineStart := position + 1, line := [] }) ∨
      u ≠ newline ∧ progress.line.length + 1 ≤ limit ∧
        next = { progress with line := progress.line ++ [u] } := by
  rw [readUnit] at h
  split at h
  · rename_i hnewline
    cases hprocess : process progress.state progress.lineStart progress.line with
    | error failure =>
      rw [hprocess] at h
      cases h
    | ok state =>
      rw [hprocess] at h
      cases h
      exact .inl ⟨hnewline, state, rfl, rfl⟩
  · rename_i hnewline
    split at h
    · cases h
    · cases h
      exact .inr ⟨hnewline, by omega, rfl⟩

theorem readUnits_cons {position : ℕ} {u : U} {rest : List U}
    (h : readUnits newline limit tooLong process progress position (u :: rest) = .ok next) :
    ∃ between, readUnit newline limit tooLong process progress position u = .ok between ∧
      readUnits newline limit tooLong process between (position + 1) rest = .ok next := by
  rw [readUnits] at h
  cases hunit : readUnit newline limit tooLong process progress position u with
  | error failure =>
    rw [hunit] at h
    cases h
  | ok between =>
    rw [hunit] at h
    exact ⟨between, rfl, h⟩

theorem readUnits_append (progress : Progress U S) (position : ℕ) (first second : List U) :
    readUnits newline limit tooLong process progress position (first ++ second) =
      (readUnits newline limit tooLong process progress position first).bind fun next =>
        readUnits newline limit tooLong process next (position + first.length) second := by
  induction first generalizing progress position with
  | nil => rfl
  | cons u rest ih =>
    simp only [List.cons_append, readUnits, List.length_cons]
    cases readUnit newline limit tooLong process progress position u with
    | error failure => rfl
    | ok next =>
      have hnext := ih next (position + 1)
      rw [show position + 1 + rest.length = position + (rest.length + 1) by omega] at hnext
      exact hnext

theorem readUnits_part {progress : Progress U S} (hfits : progress.line.length ≤ limit)
    (position : ℕ) {part : List U} (hpart : newline ∉ part) :
    readUnits newline limit tooLong process progress position part =
      if limit < (progress.line ++ part).length then .error tooLong
      else .ok { progress with line := progress.line ++ part } := by
  induction part generalizing progress position with
  | nil =>
    rw [List.append_nil, if_neg (by omega)]
    rfl
  | cons u rest ih =>
    rw [List.mem_cons, not_or] at hpart
    rw [readUnits, readUnit, if_neg (Ne.symm hpart.1)]
    by_cases hlong : limit < progress.line.length + 1
    · rw [if_pos hlong, if_pos (by simp only [List.length_append, List.length_cons]; omega)]
      rfl
    · have hfits' : (progress.line ++ [u]).length ≤ limit := by
        rw [List.length_append, List.length_singleton]
        omega
      have hrest : readUnits newline limit tooLong process
          { progress with line := progress.line ++ [u] } (position + 1) rest = _ :=
        ih (by exact hfits') (position + 1) hpart.2
      rw [if_neg hlong, List.append_cons progress.line u rest]
      exact hrest

theorem readChunk_eq_readUnits {progress : Progress U S} (hfits : progress.line.length ≤ limit)
    (position : ℕ) (chunk : List U) :
    readChunk newline limit tooLong process progress position chunk =
      readUnits newline limit tooLong process progress position chunk := by
  induction hn : chunk.length using Nat.strongRecOn generalizing progress position chunk with
  | _ n ih =>
    cases chunk with
    | nil => rw [readChunk, readUnits]
    | cons u tail =>
      have hsplit := List.takeWhile_append_dropWhile (p := (· ≠ newline)) (l := u :: tail)
      have hpart : newline ∉ (u :: tail).takeWhile (· ≠ newline) := fun hmem => by
        simpa using List.mem_takeWhile_imp hmem
      rw [readChunk]
      conv_rhs => rw [← hsplit, readUnits_append, readUnits_part hfits position hpart]
      split
      · rfl
      · split
        · rename_i hafter
          rw [hafter]
          rfl
        · rename_i v after hafter
          have hv : v = newline := by
            have := List.head?_dropWhile_not (· ≠ newline) (u :: tail)
            rw [hafter] at this
            simpa using this
          have hshort : after.length < n := by
            have := ((u :: tail).dropWhile_suffix (· ≠ newline)).length_le
            rw [hafter, List.length_cons] at this
            omega
          rw [hafter, hv]
          simp only [Except.bind, readUnits, readUnit, if_true]
          split
          · rename_i hprocess
            rw [hprocess]
            rfl
          · rename_i state hprocess
            rw [hprocess]
            exact ih _ hshort (by exact Nat.zero_le _) _ _ rfl

theorem fits_of_readUnits (hfits : progress.line.length ≤ limit) {position : ℕ} {text : List U}
    (h : readUnits newline limit tooLong process progress position text = .ok next) :
    next.line.length ≤ limit := by
  induction text generalizing progress position with
  | nil =>
    cases h
    exact hfits
  | cons u rest ih =>
    obtain ⟨between, hunit, hrest⟩ := readUnits_cons h
    refine ih ?_ hrest
    rcases readUnit_cases hunit with ⟨-, state, -, rfl⟩ | ⟨-, hlong, rfl⟩
    · exact Nat.zero_le _
    · rw [List.length_append, List.length_singleton]
      exact hlong

/-! ## Lines of the text -/

/-- The line is one of the lines of the text, and it begins at the position. -/
def IsLine (newline : U) (text : List U) (position : ℕ) (line : List U) : Prop :=
  newline ∉ line ∧ ∃ before after, text = before ++ line ++ after ∧ before.length = position ∧
    (before = [] ∨ before.getLast? = some newline) ∧ (after = [] ∨ after.head? = some newline)

omit [DecidableEq U] in
theorem IsLine.eq_take {text line : List U} {position : ℕ} (h : IsLine newline text position line) :
    (text.drop position).take line.length = line ∧ position + line.length ≤ text.length := by
  obtain ⟨-, before, after, rfl, rfl, -⟩ := h
  refine ⟨by simp, ?_⟩
  simp only [List.length_append]
  omega

/-- The unfinished line lies right before the position that the reader has come to. -/
def Begun (newline : U) (before : List U) (progress : Progress U S) : Prop :=
  newline ∉ progress.line ∧ ∃ complete, before = complete ++ progress.line ∧
    complete.length = progress.lineStart ∧ (complete = [] ∨ complete.getLast? = some newline)

variable {Inv : S → Prop} {text : List U}

theorem readUnits_rule (hstep : ∀ s s' position line, IsLine newline text position line → Inv s →
      process s position line = .ok s' → Inv s')
    {before rest : List U} (htext : text = before ++ rest)
    (hbegun : Begun newline before progress) (hinv : Inv progress.state)
    (h : readUnits newline limit tooLong process progress before.length rest = .ok next) :
    Begun newline text next ∧ Inv next.state := by
  induction rest generalizing progress before with
  | nil =>
    cases h
    rw [htext, List.append_nil]
    exact ⟨hbegun, hinv⟩
  | cons u rest ih =>
    obtain ⟨hline, complete, hbefore, hstart, hcomplete⟩ := hbegun
    have htext' : text = (before ++ [u]) ++ rest := by simpa using htext
    have hlength : before.length + 1 = (before ++ [u]).length := by simp
    obtain ⟨between, hunit, hrest⟩ := readUnits_cons h
    rw [hlength] at hrest
    rcases readUnit_cases hunit with ⟨hnewline, state, hprocess, rfl⟩ | ⟨hnewline, -, rfl⟩
    · have hisLine : IsLine newline text progress.lineStart progress.line :=
        ⟨hline, complete, u :: rest, by rw [htext, hbefore], hstart, hcomplete,
          .inr (by rw [hnewline]; rfl)⟩
      refine ih htext' ⟨List.not_mem_nil, before ++ [u], ?_, hlength.symm, .inr ?_⟩
        (hstep _ _ _ _ hisLine hinv hprocess) hrest
      · rw [List.append_nil]
      · rw [hnewline, List.getLast?_concat]
    · have hbegun' : Begun newline (before ++ [u])
          { progress with line := progress.line ++ [u] } := by
        refine ⟨?_, complete, ?_, hstart, hcomplete⟩
        · rw [List.mem_append, List.mem_singleton, not_or]
          exact ⟨hline, Ne.symm hnewline⟩
        · rw [hbefore, List.append_assoc]
      exact ih htext' hbegun' (by exact hinv) hrest

omit [DecidableEq U] in
theorem finish_rule (hstep : ∀ s s' position line, IsLine newline text position line → Inv s →
      process s position line = .ok s' → Inv s')
    {progress : Progress U S} {s : S} (hbegun : Begun newline text progress)
    (hinv : Inv progress.state) (h : finish process progress = .ok s) : Inv s := by
  rw [finish] at h
  split at h
  · cases h
    exact hinv
  · obtain ⟨hline, complete, htext, hstart, hcomplete⟩ := hbegun
    exact hstep _ _ _ _ ⟨hline, complete, [], by simpa using htext, hstart, hcomplete, .inl rfl⟩
      hinv h

/-! ## Line by line -/

/-- The lines of a text; what follows the last newline is one too, unless it is empty. -/
def lines (newline : U) (text : List U) : List (List U) :=
  let parts := ChunkedLines.splitLines newline text
  if parts.2 = [] then parts.1 else parts.1 ++ [parts.2]

theorem lines_line {line : List U} (h : newline ∉ line) (rest : List U) :
    lines newline (line ++ newline :: rest) = line :: lines newline rest := by
  rw [lines, lines, ChunkedLines.splitLines_line h]
  dsimp only
  split <;> rfl

theorem prefix_of_lines {start : List U} (h : newline ∉ start) (hne : start ≠ []) (rest : List U) :
    ∃ line others, lines newline (start ++ rest) = line :: others ∧ start <+: line := by
  rw [lines]
  rcases ChunkedLines.prefix_of_splitLines h rest with
    ⟨line, others, heq, hstart⟩ | ⟨heq, hstart⟩
  · rw [heq]
    split
    · exact ⟨line, others, rfl, hstart⟩
    · exact ⟨line, others ++ _, rfl, hstart⟩
  · have hunfinished : (ChunkedLines.splitLines newline (start ++ rest)).2 ≠ [] := by
      intro hnil
      rw [hnil, List.prefix_nil] at hstart
      exact hne hstart
    rw [heq]
    rw [if_neg hunfinished]
    exact ⟨_, [], rfl, hstart⟩

variable (limit tooLong process) in
/-- The lines one after the other, with their positions. -/
def readLines (s : S) (position : ℕ) : List (List U) → Except F S
  | [] => .ok s
  | line :: rest =>
    if limit < line.length then .error tooLong
    else
      match process s position line with
      | .error failure => .error failure
      | .ok next => readLines next (position + line.length + 1) rest

theorem readUnits_eq_readLines {progress : Progress U S} (hline : newline ∉ progress.line)
    (hfits : progress.line.length ≤ limit) (text : List U) :
    (readUnits newline limit tooLong process progress
        (progress.lineStart + progress.line.length) text).bind (finish process) =
      readLines limit tooLong process progress.state progress.lineStart
        (lines newline (progress.line ++ text)) := by
  induction text generalizing progress with
  | nil =>
    rw [List.append_nil, lines, ChunkedLines.splitLines_of_not_mem hline, readUnits]
    dsimp only [Except.bind]
    rw [finish]
    split
    · rfl
    · rw [List.nil_append, readLines, if_neg (by omega)]
      split <;> rename_i hprocess <;> rw [hprocess]
      rfl
  | cons u rest ih =>
    rw [readUnits, readUnit]
    by_cases hnewline : u = newline
    · rw [if_pos hnewline, hnewline, lines_line hline, readLines, if_neg (by omega)]
      cases process progress.state progress.lineStart progress.line with
      | error failure => rfl
      | ok state => exact ih (by exact List.not_mem_nil) (by exact Nat.zero_le _)
    · have hline' : newline ∉ progress.line ++ [u] := by
        rw [List.mem_append, List.mem_singleton, not_or]
        exact ⟨hline, Ne.symm hnewline⟩
      rw [if_neg hnewline, List.append_cons progress.line u rest]
      by_cases hlong : limit < progress.line.length + 1
      · -- the line that begins with the unfinished one is too long as well
        obtain ⟨line, others, heq, hstart⟩ :=
          prefix_of_lines hline' (List.append_ne_nil_of_right_ne_nil _ (List.cons_ne_nil _ _)) rest
        have hlength := hstart.length_le
        rw [List.length_append, List.length_singleton] at hlength
        rw [if_pos hlong, heq, readLines, if_pos (by omega)]
        rfl
      · have hrest : (readUnits newline limit tooLong process
            { progress with line := progress.line ++ [u] }
            (progress.lineStart + (progress.line ++ [u]).length) rest).bind (finish process) = _ :=
          ih (by exact hline') (by rw [List.length_append, List.length_singleton]; omega)
        rw [List.length_append, List.length_singleton, ← Nat.add_assoc] at hrest
        rw [if_neg hlong]
        exact hrest

theorem readUnits_start (s : S) (text : List U) :
    (readUnits newline limit tooLong process { state := s, lineStart := 0, line := [] } 0 text).bind
        (finish process) =
      readLines limit tooLong process s 0 (lines newline text) :=
  readUnits_eq_readLines (by exact List.not_mem_nil) (by exact Nat.zero_le _) text

end LocatedLines

end PiAgentWeb
