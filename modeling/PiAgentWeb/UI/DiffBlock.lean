import PiAgentWeb.Library.DecimalKeys
import PiAgentWeb.Library.JsonParse
import PiAgentWeb.UI.AnsiText
import PiAgentWeb.UI.UserMessagePresentation

/-!
# Unified diffs

`parseUnifiedDiff` of `DiffBlock.tsx` classifies the lines of a diff one by one by their prefixes
and counts the line numbers from the last hunk header; `extractCleanCode` joins the added and the
context lines. A unified diff is file headers and hunks, and rendering it gives its lines. The
parser recovers every hunk unless a body line looks like a file header or has a number that is no
double.
-/

namespace PiAgentWeb

/-! ## The parser -/

/-- `DiffLineKind`. -/
inductive DiffLineKind where
  | add | delete | context | hunk | header
  deriving DecidableEq

/-- A line number: a double that is a natural number, or `Infinity`. -/
inductive LineNumber where
  | finite (n : ℕ)
  | infinity
  deriving DecidableEq

/-- From here on a number is rounded to `Infinity`. -/
@[irreducible] def infinityBound : ℕ := 2 ^ 1024

/-- The double nearest to a natural number; of two that are equally near, the one that is even in
its last place. -/
@[irreducible] def toDouble (n : ℕ) : LineNumber :=
  let ulp := 2 ^ (n.log2 - 52)
  let low := n / ulp
  let roundsDown := 2 * (n % ulp) < ulp || 2 * (n % ulp) = ulp && low % 2 = 0
  let value := (if roundsDown then low else low + 1) * ulp
  if value < infinityBound then .finite value else .infinity

/-- `++`. -/
def LineNumber.next : LineNumber → LineNumber
  | .finite n => toDouble (n + 1)
  | .infinity => .infinity

/-- `ParsedDiffLine`. -/
structure ParsedDiffLine where
  kind : DiffLineKind
  oldLineNumber : Option LineNumber
  newLineNumber : Option LineNumber
  linePrefix : JsString
  content : JsString
  raw : JsString
  deriving DecidableEq

/-- `\d+`: the number and what follows it. -/
def takeNumber (s : JsString) : Option (ℕ × JsString) :=
  if s.head?.any isDigit then some (decimalValue (s.takeWhile isDigit), s.dropWhile isDigit)
  else none

/-- `(?:,\d+)?` and `\s+`. -/
def dropCount (s : JsString) : Option JsString :=
  let rest := ((dropPrefixUnits? (js ",") s).bind takeNumber).elim s Prod.snd
  if rest.head?.any isJsSpace then some (rest.dropWhile isJsSpace) else none

/-- A line terminator of the language, which `.` does not match. -/
def isLineTerminator (u : UInt16) : Bool := u == 0x0A || u == 0x0D || u == 0x2028 || u == 0x2029

/-- `/^@@\s+-(\d+)(?:,\d+)?\s+\+(\d+)(?:,\d+)?\s+@@(.*)$/`: the two starts, as `Number.parseInt`
reads them. -/
def hunkMatch (raw : JsString) : Option (LineNumber × LineNumber) := do
  let s ← dropPrefixUnits? (js "@@") raw
  let s ← if s.head?.any isJsSpace then some (s.dropWhile isJsSpace) else none
  let s ← dropPrefixUnits? (js "-") s
  let (oldStart, s) ← takeNumber s
  let s ← dropCount s
  let s ← dropPrefixUnits? (js "+") s
  let (newStart, s) ← takeNumber s
  let s ← dropCount s
  let s ← dropPrefixUnits? (js "@@") s
  if s.any isLineTerminator then none else some (toDouble oldStart, toDouble newStart)

/-- A line that is taken for a header. -/
def isHeaderLine (raw : JsString) : Bool :=
  [js "---", js "+++", js "diff ", js "index ", js "\\"].any fun lead => lead.isPrefixOf raw

/-- One turn of the loop of `parseUnifiedDiff`: the line and the next line numbers. -/
def parseDiffLine (currentOldLine currentNewLine : LineNumber) (raw : JsString) :
    ParsedDiffLine × LineNumber × LineNumber :=
  if isHeaderLine raw then
    (⟨.header, none, none, [], raw, raw⟩, currentOldLine, currentNewLine)
  else
    match hunkMatch raw with
    | some starts => (⟨.hunk, none, none, js "@@", raw, raw⟩, starts)
    | none =>
      if (js "+").isPrefixOf raw then
        (⟨.add, none, some currentNewLine, js "+", raw.drop 1, raw⟩, currentOldLine,
          currentNewLine.next)
      else if (js "-").isPrefixOf raw then
        (⟨.delete, some currentOldLine, none, js "-", raw.drop 1, raw⟩,
          currentOldLine.next, currentNewLine)
      else
        (⟨.context, some currentOldLine, some currentNewLine, js " ",
          if (js " ").isPrefixOf raw then raw.drop 1 else raw, raw⟩,
          currentOldLine.next, currentNewLine.next)

/-- The loop of `parseUnifiedDiff`. -/
def parseDiffLines : LineNumber → LineNumber → List JsString → List ParsedDiffLine
  | _, _, [] => []
  | currentOldLine, currentNewLine, raw :: rest =>
    (parseDiffLine currentOldLine currentNewLine raw).1 ::
      parseDiffLines (parseDiffLine currentOldLine currentNewLine raw).2.1
        (parseDiffLine currentOldLine currentNewLine raw).2.2 rest

/-- `lines.join("\n")`. -/
def joinLines (lines : List JsString) : JsString := [0x0A].intercalate lines

/-- `parseUnifiedDiff`. -/
def parseUnifiedDiff (diff : JsString) : List ParsedDiffLine :=
  parseDiffLines (.finite 1) (.finite 1) ((stripAnsi diff).splitOn 0x0A)

/-- The content of a line that is part of the new side. -/
def ParsedDiffLine.cleanContent (line : ParsedDiffLine) : Option JsString :=
  if line.kind = .add || line.kind = .context then some line.content else none

/-- `extractCleanCode`. -/
def extractCleanCode (diff : JsString) : JsString :=
  joinLines ((parseUnifiedDiff diff).filterMap ParsedDiffLine.cleanContent)

/-! ## Unified diffs -/

/-- A line in the body of a hunk. -/
inductive DiffBodyLine where
  | context (text : JsString)
  | added (text : JsString)
  | deleted (text : JsString)
  /-- The marker behind a line without a newline. -/
  | noNewline (text : JsString)
  deriving DecidableEq

/-- The text of a body line. -/
def DiffBodyLine.text : DiffBodyLine → JsString
  | .context text | .added text | .deleted text | .noNewline text => text

/-- A body line as it is written. -/
def DiffBodyLine.raw : DiffBodyLine → JsString
  | .context text => 0x20 :: text
  | .added text => 0x2B :: text
  | .deleted text => 0x2D :: text
  | .noNewline text => 0x5C :: text

/-- A hunk. A count of one may be left out; the heading is what follows the second `@@`. -/
structure DiffHunk where
  oldStart : ℕ
  newStart : ℕ
  omitsOne : Bool
  heading : JsString
  body : List DiffBodyLine

/-- The first words of a file header line. -/
def fileHeaderWords : List JsString :=
  [js "--- ", js "+++ ", js "diff ", js "index ", js "old mode ", js "new mode ",
    js "deleted file mode ", js "new file mode ", js "copy from ", js "copy to ",
    js "rename from ", js "rename to ", js "similarity index ", js "dissimilarity index "]

/-- A file header line or a hunk. -/
inductive DiffItem where
  | header (line : JsString)
  | hunk (hunk : DiffHunk)

/-- A line on the old side. -/
def DiffBodyLine.isOld : DiffBodyLine → Bool
  | .context _ | .deleted _ => true
  | _ => false

/-- A line on the new side. -/
def DiffBodyLine.isNew : DiffBodyLine → Bool
  | .context _ | .added _ => true
  | _ => false

/-- The lines on the old side. -/
def DiffHunk.oldCount (hunk : DiffHunk) : ℕ := hunk.body.countP DiffBodyLine.isOld

/-- The lines on the new side. -/
def DiffHunk.newCount (hunk : DiffHunk) : ℕ := hunk.body.countP DiffBodyLine.isNew

/-- A start and a count. -/
def DiffHunk.range (hunk : DiffHunk) (start count : ℕ) : JsString :=
  jsNat start ++ if hunk.omitsOne && count = 1 then [] else js "," ++ jsNat count

/-- The header line of a hunk. -/
def DiffHunk.headerLine (hunk : DiffHunk) : JsString :=
  js "@@ -" ++ hunk.range hunk.oldStart hunk.oldCount ++
    (js " +" ++ hunk.range hunk.newStart hunk.newCount ++ (js " @@" ++ hunk.heading))

/-- The first line of an item. -/
def DiffItem.headLine : DiffItem → JsString
  | .header line => line
  | .hunk part => part.headerLine

/-- The body lines of an item. -/
def DiffItem.body : DiffItem → List DiffBodyLine
  | .header _ => []
  | .hunk part => part.body

/-- The lines of an item. -/
def DiffItem.lines (item : DiffItem) : List JsString :=
  item.headLine :: item.body.map DiffBodyLine.raw

/-- The text of a diff. -/
def renderDiff (diff : List DiffItem) : JsString := joinLines (diff.flatMap DiffItem.lines)

/-- A text within one line, without control characters. -/
def IsPlainText (text : JsString) : Prop := ∀ u ∈ text, isAnsiControl u = false ∧ u ≠ 0x0A

/-- The texts of an item are plain, and a file header starts with the words of one. -/
def DiffItem.Plain : DiffItem → Prop
  | .header line => (∃ word ∈ fileHeaderWords, word <+: line) ∧ IsPlainText line
  | .hunk part => IsPlainText part.heading ∧ ∀ line ∈ part.body, IsPlainText line.text

/-- What the diff says about a body line, and the line numbers behind it. -/
def DiffBodyLine.reading (oldLine newLine : ℕ) : DiffBodyLine → ParsedDiffLine × ℕ × ℕ
  | .context text =>
    (⟨.context, some (.finite oldLine), some (.finite newLine), js " ", text, 0x20 :: text⟩,
      oldLine + 1, newLine + 1)
  | .added text =>
    (⟨.add, none, some (.finite newLine), js "+", text, 0x2B :: text⟩, oldLine, newLine + 1)
  | .deleted text =>
    (⟨.delete, some (.finite oldLine), none, js "-", text, 0x2D :: text⟩, oldLine + 1, newLine)
  | .noNewline text =>
    (⟨.header, none, none, [], 0x5C :: text, 0x5C :: text⟩, oldLine, newLine)

/-- What a hunk says about its body lines, from the line numbers of its header. -/
def expectedBody : ℕ → ℕ → List DiffBodyLine → List ParsedDiffLine
  | _, _, [] => []
  | oldLine, newLine, line :: rest =>
    (line.reading oldLine newLine).1 ::
      expectedBody (line.reading oldLine newLine).2.1 (line.reading oldLine newLine).2.2 rest

/-- The parsed lines of an item, where the diff says what they are: those of the bodies. -/
def DiffItem.expected : DiffItem → List (Option ParsedDiffLine)
  | .header _ => [none]
  | .hunk part => none :: (expectedBody part.oldStart part.newStart part.body).map some

/-- The text of a body line on the new side. -/
def DiffBodyLine.newText : DiffBodyLine → Option JsString
  | .context text | .added text => some text
  | _ => none

/-- The new side of an item. -/
def DiffItem.newSide (item : DiffItem) : List JsString :=
  item.body.filterMap DiffBodyLine.newText

/-- Every body line is parsed as the diff says, and the clean code is the new side of all hunks. -/
def RecoversHunks (diff : List DiffItem) : Prop :=
  (∀ (i : ℕ) (line : ParsedDiffLine), (diff.flatMap DiffItem.expected)[i]? = some (some line) →
    (parseUnifiedDiff (renderDiff diff))[i]? = some line) ∧
  extractCleanCode (renderDiff diff) = joinLines (diff.flatMap DiffItem.newSide)

/-- A body line that does not look like a file header. -/
def DiffBodyLine.Distinct : DiffBodyLine → Prop
  | .added text => ¬js "++" <+: text
  | .deleted text => ¬js "--" <+: text
  | _ => True

/-- The first line of an item is taken for a header: the file header is one that the parser knows,
or the heading of the hunk has no line terminator. -/
def DiffItem.recognized : DiffItem → Bool
  | .header line => isHeaderLine line
  | .hunk part => !part.heading.any isLineTerminator

/-- An item whose lines the parser tells apart. -/
def DiffItem.Distinct (item : DiffItem) : Prop :=
  item.recognized = true ∧ ∀ line ∈ item.body, line.Distinct

/-- A number that is a double. -/
def IsDouble (n : ℕ) : Prop := toDouble n = .finite n

/-- Every line number that the body lines of a hunk have is a double. -/
def DiffItem.NumbersExact : DiffItem → Prop
  | .header _ => True
  | .hunk part =>
    (∀ i < part.oldCount, IsDouble (part.oldStart + i)) ∧
      ∀ i < part.newCount, IsDouble (part.newStart + i)

/-! ## Numbers and hunk headers -/

/-- The natural numbers up to `2 ^ 53` are doubles. -/
theorem isDouble_of_le {n : ℕ} (h : n ≤ 2 ^ 53) : IsDouble n := by
  have hbound : 2 ^ 53 < infinityBound := by decide +kernel
  have hlimit : n < infinityBound := lt_of_le_of_lt h hbound
  rcases Nat.lt_or_eq_of_le h with hlt | rfl
  · have hlog : n.log2 - 52 = 0 := by
      rcases Nat.eq_zero_or_pos n with rfl | hpos
      · rfl
      · have := (Nat.log2_lt (by omega)).mpr hlt
        omega
    rw [IsDouble, toDouble, hlog]
    simp [Nat.mod_one, if_pos hlimit]
  · have hvalue : toDouble (2 ^ 53) = .finite (2 ^ 53) := by decide +kernel
    exact hvalue

/-- Hunks whose starts and counts stay below `2 ^ 53` have line numbers that are doubles. -/
theorem DiffItem.numbersExact_of_le {item : DiffItem}
    (h : ∀ part, item = .hunk part →
      part.oldStart + part.oldCount ≤ 2 ^ 53 ∧ part.newStart + part.newCount ≤ 2 ^ 53) :
    item.NumbersExact := by
  cases item with
  | header line => exact trivial
  | hunk part =>
    obtain ⟨hold, hnew⟩ := h part rfl
    exact ⟨fun i hi => isDouble_of_le (by omega), fun i hi => isDouble_of_le (by omega)⟩

theorem dropPrefixUnits?_append (lead rest : JsString) :
    dropPrefixUnits? lead (lead ++ rest) = some rest := by
  rw [dropPrefixUnits?, if_pos (by simp), List.drop_left]

theorem decimalValue_jsNat (n : ℕ) : decimalValue (jsNat n) = n := by
  have hdigits : ∀ (digits : List Char) (value : ℕ), (∀ c ∈ digits, c.isDigit = true) →
      (digits.map fun c => UInt16.ofNat c.toNat).foldl
        (fun value u => 10 * value + (u.toNat - 0x30)) value =
          Nat.ofDigitChars 10 digits value := by
    intro digits
    induction digits with
    | nil => simp
    | cons c rest ih =>
      intro value h
      rw [List.map_cons, List.foldl_cons, Nat.ofDigitChars_cons,
        toNat_digitUnit (h c List.mem_cons_self), ih _ fun c hc => h c (List.mem_cons_of_mem _ hc)]
      rfl
  rw [decimalValue, jsNat_eq_map, hdigits _ _ fun c hc =>
    Nat.isDigit_of_mem_toDigits (by omega) (by omega) hc]
  simp

theorem isDigit_jsNat (n : ℕ) : (∀ u ∈ jsNat n, isDigit u = true) ∧ jsNat n ≠ [] := by
  rw [jsNat_eq_map]
  constructor
  · intro u hu
    obtain ⟨c, hc, rfl⟩ := List.mem_map.mp hu
    have hdigit := Nat.isDigit_of_mem_toDigits (by omega) (by omega) hc
    have hrange := Char.isDigit_iff_toNat.mp hdigit
    simp only [Char.reduceToNat] at hrange
    simp only [isDigit, Bool.and_eq_true, decide_eq_true_eq, UInt16.le_iff_toNat_le,
      toNat_digitUnit hdigit, UInt16.reduceToNat]
    omega
  · simp

theorem takeNumber_jsNat (n : ℕ) {rest : JsString} (h : rest.head?.any isDigit = false) :
    takeNumber (jsNat n ++ rest) = some (n, rest) := by
  obtain ⟨hdigits, hne⟩ := isDigit_jsNat n
  have hhead : (jsNat n ++ rest).head?.any isDigit = true := by
    rw [List.head?_append_of_ne_nil _ hne]
    cases hn : jsNat n with
    | nil => exact absurd hn hne
    | cons u digits => simpa [hn] using hdigits u (by simp [hn])
  have htake : rest.takeWhile isDigit = [] ∧ rest.dropWhile isDigit = rest := by
    cases rest with
    | nil => exact ⟨rfl, rfl⟩
    | cons u rest =>
      have hu : isDigit u = false := by simpa using h
      simp [hu]
  rw [takeNumber, if_pos hhead, List.takeWhile_append_of_pos hdigits,
    List.dropWhile_append_of_pos hdigits, htake.1, htake.2, List.append_nil, decimalValue_jsNat]

theorem dropCount_range (omits : Bool) (count : ℕ) {u : UInt16} (rest : JsString)
    (h : isJsSpace u = false) :
    dropCount ((if omits then [] else js "," ++ jsNat count) ++ 0x20 :: u :: rest) =
      some (u :: rest) := by
  have hspace : (0x20 :: u :: rest : JsString).head?.any isJsSpace = true := rfl
  have hdrop : (0x20 :: u :: rest : JsString).dropWhile isJsSpace = u :: rest := by
    rw [List.dropWhile_cons_of_pos (by decide), List.dropWhile_cons_of_neg (by simp [h])]
  cases omits with
  | true =>
    have hnone : dropPrefixUnits? (js ",") (0x20 :: u :: rest) = none := by
      simp [dropPrefixUnits?, show js "," = [0x2C] from rfl]
    simp only [if_true, List.nil_append, dropCount, hnone, Option.bind_none, Option.elim_none,
      hspace, hdrop]
  | false =>
    have hdigit : (0x20 :: u :: rest : JsString).head?.any isDigit = false := rfl
    simp only [Bool.false_eq_true, if_false, List.append_assoc, dropCount, dropPrefixUnits?_append,
      Option.bind_some, takeNumber_jsNat count hdigit, Option.elim_some, hspace, hdrop, if_true]

theorem hunkMatch_headerLine (part : DiffHunk) :
    hunkMatch part.headerLine =
      if part.heading.any isLineTerminator then none
      else some (toDouble part.oldStart, toDouble part.newStart) := by
  have hline : part.headerLine = js "@@" ++ (0x20 :: (js "-" ++ (jsNat part.oldStart ++
      ((if part.omitsOne && part.oldCount = 1 then [] else js "," ++ jsNat part.oldCount) ++
        0x20 :: 0x2B :: (jsNat part.newStart ++
          ((if part.omitsOne && part.newCount = 1 then [] else js "," ++ jsNat part.newCount) ++
            0x20 :: 0x40 :: 0x40 :: part.heading)))))) := by
    simp only [DiffHunk.headerLine, DiffHunk.range,
      show js "@@ -" = js "@@" ++ 0x20 :: js "-" from rfl, show js " +" = [0x20, 0x2B] from rfl,
      show js " @@" = [0x20, 0x40, 0x40] from rfl,
      List.append_assoc, List.cons_append, List.nil_append]
  have hrange : ∀ (omits : Bool) (count : ℕ) (rest : JsString),
      ((if omits then [] else js "," ++ jsNat count) ++ 0x20 :: rest).head?.any isDigit =
        false := by
    intro omits count rest
    cases omits <;> rfl
  have hspace : ∀ rest : JsString,
      ((0x20 :: (js "-" ++ rest) : JsString).head?.any isJsSpace = true) ∧
        (0x20 :: (js "-" ++ rest) : JsString).dropWhile isJsSpace = js "-" ++ rest := by
    intro rest
    refine ⟨rfl, ?_⟩
    rw [List.dropWhile_cons_of_pos (by decide)]
    exact List.dropWhile_cons_of_neg (by decide)
  rw [hline, hunkMatch, dropPrefixUnits?_append]
  simp only [Option.bind_eq_bind, Option.bind_some]
  rw [if_pos (hspace _).1, (hspace _).2]
  simp only [Option.bind_some, dropPrefixUnits?_append, takeNumber_jsNat _ (hrange _ _ _)]
  have hplus : ∀ rest : JsString, dropPrefixUnits? (js "+") (0x2B :: rest) = some rest :=
    fun rest => dropPrefixUnits?_append (js "+") rest
  have hclose : ∀ rest : JsString, dropPrefixUnits? (js "@@") (0x40 :: 0x40 :: rest) = some rest :=
    fun rest => dropPrefixUnits?_append (js "@@") rest
  rw [dropCount_range _ _ _ (by decide), Option.bind_some, hplus, Option.bind_some,
    takeNumber_jsNat _ (hrange _ _ _), Option.bind_some, dropCount_range _ _ _ (by decide),
    Option.bind_some, hclose, Option.bind_some]

/-! ## The lines of a diff -/

theorem IsPlainText.append {text rest : JsString} (h : IsPlainText text) (h' : IsPlainText rest) :
    IsPlainText (text ++ rest) := List.forall_mem_append.mpr ⟨h, h'⟩

instance (text : JsString) : Decidable (IsPlainText text) :=
  decidable_of_iff (text.all fun u => !isAnsiControl u && u != 0x0A) (by simp [IsPlainText])

theorem isPlainText_jsNat (n : ℕ) : IsPlainText (jsNat n) := by
  intro u hu
  have hdigit := (isDigit_jsNat n).1 u hu
  simp only [isDigit, Bool.and_eq_true, decide_eq_true_eq, UInt16.le_iff_toNat_le,
    UInt16.reduceToNat] at hdigit
  have hne : ∀ v : UInt16, 57 < v.toNat ∨ v.toNat < 48 → u ≠ v := by
    rintro v hv rfl
    omega
  simp only [isAnsiControl, Bool.or_eq_false_iff, Bool.and_eq_false_iff, decide_eq_false_iff_not,
    UInt16.le_iff_toNat_le, UInt16.reduceToNat, beq_eq_false_iff_ne]
  refine ⟨⟨⟨⟨⟨⟨⟨?_, ?_⟩, hne _ (by decide)⟩, hne _ (by decide)⟩, hne _ (by decide)⟩, ?_⟩, ?_⟩,
    hne _ (by decide)⟩
  · left; left; omega
  · left; omega
  · left; omega
  · left; omega

theorem isPlainText_headerLine {part : DiffHunk} (h : IsPlainText part.heading) :
    IsPlainText part.headerLine := by
  have hrange : ∀ start count : ℕ, IsPlainText (part.range start count) := by
    intro start count
    refine (isPlainText_jsNat start).append ?_
    split_ifs
    · exact List.forall_mem_nil _
    · exact IsPlainText.append (by decide +kernel) (isPlainText_jsNat count)
  exact (IsPlainText.append (by decide +kernel) (hrange _ _)).append ((IsPlainText.append
    (by decide +kernel) (hrange _ _)).append (IsPlainText.append (by decide +kernel) h))

theorem DiffItem.Plain.lines {item : DiffItem} (h : item.Plain) :
    ∀ line ∈ item.lines, IsPlainText line := by
  cases item with
  | header line => exact List.forall_mem_singleton.mpr h.2
  | hunk part =>
    obtain ⟨hheading, hbody⟩ := h
    refine List.forall_mem_cons.mpr ⟨isPlainText_headerLine hheading, ?_⟩
    rw [List.forall_mem_map]
    intro line hline
    have htext := hbody line hline
    cases line <;> exact List.forall_mem_cons.mpr ⟨by decide, htext⟩

theorem mem_joinLines {lines : List JsString} {u : UInt16} (h : u ∈ joinLines lines) :
    u = 0x0A ∨ ∃ line ∈ lines, u ∈ line := by
  induction lines with
  | nil => cases h
  | cons line rest ih =>
    cases rest with
    | nil => exact Or.inr ⟨line, List.mem_cons_self, by simpa [joinLines] using h⟩
    | cons next rest =>
      rw [joinLines, List.intercalate_cons_cons, List.mem_append, List.mem_append] at h
      rcases h with (hline | hnewline) | hrest
      · exact Or.inr ⟨line, List.mem_cons_self, hline⟩
      · exact Or.inl (List.mem_singleton.mp hnewline)
      · refine (ih hrest).imp_right ?_
        rintro ⟨other, hmem, hother⟩
        exact ⟨other, List.mem_cons_of_mem _ hmem, hother⟩

theorem splitOn_renderDiff {diff : List DiffItem} (h : ∀ item ∈ diff, item.Plain)
    (hne : diff ≠ []) :
    (stripAnsi (renderDiff diff)).splitOn 0x0A = diff.flatMap DiffItem.lines := by
  have hline : ∀ line ∈ diff.flatMap DiffItem.lines, IsPlainText line := by
    intro line hline
    obtain ⟨item, hitem, hline⟩ := List.mem_flatMap.mp hline
    exact (h item hitem).lines line hline
  have hplain : hasAnsiControlCharacters (renderDiff diff) = false := by
    rw [hasAnsiControlCharacters, List.any_eq_false]
    intro u hu
    rcases mem_joinLines hu with rfl | ⟨line, hmem, hu⟩
    · decide
    · simp [(hline line hmem u hu).1]
  rw [stripAnsi_of_plain hplain, renderDiff, joinLines]
  have hnewline : ∀ line ∈ diff.flatMap DiffItem.lines, 0x0A ∉ line := fun line hmem hnewline =>
    (hline line hmem _ hnewline).2 rfl
  refine List.splitOn_intercalate _ hnewline ?_
  obtain ⟨item, rest, rfl⟩ := List.exists_cons_of_ne_nil hne
  cases item <;> simp [DiffItem.lines]

/-! ## The lines of a hunk -/

theorem isHeaderLine_mark (text : JsString) :
    isHeaderLine (0x20 :: text) = false ∧ isHeaderLine (0x5C :: text) = true ∧
      isHeaderLine (0x2B :: text) = (js "++").isPrefixOf text ∧
      isHeaderLine (0x2D :: text) = (js "--").isPrefixOf text := by
  simp [isHeaderLine, show js "---" = [0x2D, 0x2D, 0x2D] from rfl,
    show js "+++" = [0x2B, 0x2B, 0x2B] from rfl, show js "\\" = [0x5C] from rfl,
    show js "diff " = [0x64, 0x69, 0x66, 0x66, 0x20] from rfl,
    show js "index " = [0x69, 0x6E, 0x64, 0x65, 0x78, 0x20] from rfl,
    show js "++" = [0x2B, 0x2B] from rfl, show js "--" = [0x2D, 0x2D] from rfl,
    List.isPrefixOf]

theorem hunkMatch_mark {u : UInt16} (h : u ≠ 0x40) (text : JsString) :
    hunkMatch (u :: text) = none := by
  have hnone : dropPrefixUnits? (js "@@") (u :: text) = none := by
    simp [dropPrefixUnits?, show js "@@" = [0x40, 0x40] from rfl, List.isPrefixOf, Ne.symm h]
  rw [hunkMatch, hnone]
  rfl

/-- What the parser says about a body line that does not look like a file header. -/
def DiffBodyLine.parsed (oldLine newLine : LineNumber) :
    DiffBodyLine → ParsedDiffLine × LineNumber × LineNumber
  | .context text =>
    (⟨.context, some oldLine, some newLine, js " ", text, 0x20 :: text⟩, oldLine.next, newLine.next)
  | .added text => (⟨.add, none, some newLine, js "+", text, 0x2B :: text⟩, oldLine, newLine.next)
  | .deleted text =>
    (⟨.delete, some oldLine, none, js "-", text, 0x2D :: text⟩, oldLine.next, newLine)
  | .noNewline text =>
    (⟨.header, none, none, [], 0x5C :: text, 0x5C :: text⟩, oldLine, newLine)

theorem DiffBodyLine.Distinct.parse {line : DiffBodyLine} (h : line.Distinct)
    (oldLine newLine : LineNumber) :
    parseDiffLine oldLine newLine line.raw = line.parsed oldLine newLine := by
  cases line with
  | context text =>
    rw [DiffBodyLine.raw, parseDiffLine, (isHeaderLine_mark text).1, hunkMatch_mark (by decide)]
    rfl
  | added text =>
    have hheader : isHeaderLine (0x2B :: text) = false := by
      rw [(isHeaderLine_mark text).2.2.1, Bool.eq_false_iff]
      exact fun hlead => h (List.isPrefixOf_iff_prefix.mp hlead)
    rw [DiffBodyLine.raw, parseDiffLine, hheader, hunkMatch_mark (by decide)]
    rfl
  | deleted text =>
    have hheader : isHeaderLine (0x2D :: text) = false := by
      rw [(isHeaderLine_mark text).2.2.2, Bool.eq_false_iff]
      exact fun hlead => h (List.isPrefixOf_iff_prefix.mp hlead)
    rw [DiffBodyLine.raw, parseDiffLine, hheader, hunkMatch_mark (by decide)]
    rfl
  | noNewline text =>
    rw [DiffBodyLine.raw, parseDiffLine, (isHeaderLine_mark text).2.1]
    rfl

/-- The numbers that a body line shows are doubles. -/
def DiffBodyLine.NumbersExact (oldLine newLine : ℕ) : DiffBodyLine → Prop
  | .context _ => IsDouble oldLine ∧ IsDouble newLine
  | .added _ => IsDouble newLine
  | .deleted _ => IsDouble oldLine
  | .noNewline _ => True

/-- The parser that has come to the doubles nearest to two line numbers reads a line with these
numbers exactly if they are doubles, and then it comes to the doubles nearest to the next two. -/
theorem DiffBodyLine.parsed_iff {line : DiffBodyLine} {oldLine newLine : ℕ} :
    (line.parsed (toDouble oldLine) (toDouble newLine)).1 = (line.reading oldLine newLine).1 ↔
      line.NumbersExact oldLine newLine := by
  cases line <;> simp [DiffBodyLine.parsed, DiffBodyLine.reading, DiffBodyLine.NumbersExact,
    IsDouble]

theorem DiffBodyLine.NumbersExact.next {line : DiffBodyLine} {oldLine newLine : ℕ}
    (h : line.NumbersExact oldLine newLine) :
    (line.parsed (toDouble oldLine) (toDouble newLine)).2 =
      (toDouble (line.reading oldLine newLine).2.1,
        toDouble (line.reading oldLine newLine).2.2) := by
  have hnext {n : ℕ} (hn : IsDouble n) : (toDouble n).next = toDouble (n + 1) := by
    rw [show toDouble n = .finite n from hn]
    rfl
  cases line with
  | context text => exact Prod.ext (hnext h.1) (hnext h.2)
  | added text => exact Prod.ext rfl (hnext h)
  | deleted text => exact Prod.ext (hnext h) rfl
  | noNewline text => rfl

theorem DiffBodyLine.distinct_of_parse {line : DiffBodyLine} {oldLine newLine : LineNumber}
    {oldRead newRead : ℕ}
    (h : (parseDiffLine oldLine newLine line.raw).1 = (line.reading oldRead newRead).1) :
    line.Distinct := by
  have hkind := congrArg ParsedDiffLine.kind h
  cases line with
  | context text => exact trivial
  | noNewline text => exact trivial
  | added text =>
    intro hlead
    rw [DiffBodyLine.raw, parseDiffLine, (isHeaderLine_mark text).2.2.1,
      if_pos (List.isPrefixOf_iff_prefix.mpr hlead)] at hkind
    cases hkind
  | deleted text =>
    intro hlead
    rw [DiffBodyLine.raw, parseDiffLine, (isHeaderLine_mark text).2.2.2,
      if_pos (List.isPrefixOf_iff_prefix.mpr hlead)] at hkind
    cases hkind

/-- The line numbers behind some lines. -/
def lineNumbersAfter : LineNumber → LineNumber → List JsString → LineNumber × LineNumber
  | oldLine, newLine, [] => (oldLine, newLine)
  | oldLine, newLine, raw :: rest =>
    lineNumbersAfter (parseDiffLine oldLine newLine raw).2.1
      (parseDiffLine oldLine newLine raw).2.2 rest

theorem parseDiffLines_append (oldLine newLine : LineNumber) (lines rest : List JsString) :
    parseDiffLines oldLine newLine (lines ++ rest) =
      parseDiffLines oldLine newLine lines ++
        parseDiffLines (lineNumbersAfter oldLine newLine lines).1
          (lineNumbersAfter oldLine newLine lines).2 rest := by
  induction lines generalizing oldLine newLine with
  | nil => rfl
  | cons raw lines ih => simp only [List.cons_append, parseDiffLines, ih, lineNumbersAfter]

theorem length_parseDiffLines (oldLine newLine : LineNumber) (lines : List JsString) :
    (parseDiffLines oldLine newLine lines).length = lines.length := by
  induction lines generalizing oldLine newLine with
  | nil => rfl
  | cons raw lines ih => rw [parseDiffLines, List.length_cons, ih, List.length_cons]

theorem length_expectedBody (oldLine newLine : ℕ) (body : List DiffBodyLine) :
    (expectedBody oldLine newLine body).length = body.length := by
  induction body generalizing oldLine newLine with
  | nil => rfl
  | cons line rest ih => rw [expectedBody, List.length_cons, ih, List.length_cons]

/-- The parsed lines are what the diff says, where it says something. -/
def Agrees (expected : List (Option ParsedDiffLine)) (parsed : List ParsedDiffLine) : Prop :=
  ∀ (i : ℕ) (line : ParsedDiffLine), expected[i]? = some (some line) → parsed[i]? = some line

theorem agrees_cons (entry : Option ParsedDiffLine) (expected : List (Option ParsedDiffLine))
    (first : ParsedDiffLine) (parsed : List ParsedDiffLine) :
    Agrees (entry :: expected) (first :: parsed) ↔
      (∀ line, entry = some line → first = line) ∧ Agrees expected parsed := by
  constructor
  · intro h
    refine ⟨fun line hline => ?_, fun i line hline => h (i + 1) line hline⟩
    exact Option.some.inj (h 0 line (by rw [hline]; rfl))
  · rintro ⟨hfirst, hrest⟩ i line hline
    cases i with
    | zero => exact congrArg some (hfirst line (Option.some.inj hline))
    | succ i => exact hrest i line hline

theorem agrees_append {expected : List (Option ParsedDiffLine)} {parsed : List ParsedDiffLine}
    (h : expected.length = parsed.length) (expected' : List (Option ParsedDiffLine))
    (parsed' : List ParsedDiffLine) :
    Agrees (expected ++ expected') (parsed ++ parsed') ↔
      Agrees expected parsed ∧ Agrees expected' parsed' := by
  induction expected generalizing parsed with
  | nil =>
    obtain rfl := List.eq_nil_of_length_eq_zero h.symm
    simp [Agrees]
  | cons entry expected ih =>
    obtain ⟨first, parsed, rfl⟩ := List.exists_cons_of_length_eq_add_one h.symm
    rw [List.cons_append, List.cons_append, agrees_cons, agrees_cons,
      ih (Nat.succ.inj h), and_assoc]

/-- Every number that some body lines show is a double. -/
def NumbersExact : ℕ → ℕ → List DiffBodyLine → Prop
  | _, _, [] => True
  | oldLine, newLine, line :: rest =>
    line.NumbersExact oldLine newLine ∧
      NumbersExact (line.reading oldLine newLine).2.1 (line.reading oldLine newLine).2.2 rest

theorem agrees_body_iff {body : List DiffBodyLine} (h : ∀ line ∈ body, line.Distinct)
    (oldLine newLine : ℕ) :
    Agrees ((expectedBody oldLine newLine body).map some)
        (parseDiffLines (toDouble oldLine) (toDouble newLine) (body.map DiffBodyLine.raw)) ↔
      NumbersExact oldLine newLine body := by
  induction body generalizing oldLine newLine with
  | nil => simp [NumbersExact, Agrees, expectedBody]
  | cons line rest ih =>
    obtain ⟨hline, hrest⟩ := List.forall_mem_cons.mp h
    rw [expectedBody, List.map_cons, List.map_cons, parseDiffLines, hline.parse, agrees_cons,
      NumbersExact]
    constructor
    · rintro ⟨hfirst, hagrees⟩
      have hexact := DiffBodyLine.parsed_iff.mp (hfirst _ rfl)
      rw [hexact.next] at hagrees
      exact ⟨hexact, (ih hrest _ _).mp hagrees⟩
    · rintro ⟨hexact, hagrees⟩
      rw [hexact.next]
      refine ⟨fun other hother => ?_, (ih hrest _ _).mpr hagrees⟩
      rw [← Option.some.inj hother]
      exact DiffBodyLine.parsed_iff.mpr hexact

/-- The numbers that the lines of a hunk show go up by one from its starts. -/
theorem numbersExact_iff (oldLine newLine : ℕ) (body : List DiffBodyLine) :
    NumbersExact oldLine newLine body ↔
      (∀ i < body.countP DiffBodyLine.isOld, IsDouble (oldLine + i)) ∧
        ∀ i < body.countP DiffBodyLine.isNew, IsDouble (newLine + i) := by
  have hsucc (start count : ℕ) : (∀ i < count + 1, IsDouble (start + i)) ↔
      IsDouble start ∧ ∀ i < count, IsDouble (start + 1 + i) := by
    rw [Nat.forall_lt_succ_left]
    simp only [Nat.add_zero, Nat.add_assoc, Nat.add_comm 1]
  induction body generalizing oldLine newLine with
  | nil => simp [NumbersExact]
  | cons line rest ih =>
    refine (and_congr_right' (ih _ _)).trans ?_
    cases line with
    | context text =>
      simp only [DiffBodyLine.NumbersExact, DiffBodyLine.reading, List.countP_cons,
        DiffBodyLine.isOld, DiffBodyLine.isNew, if_true, hsucc]
      exact and_and_and_comm
    | added text =>
      simp only [DiffBodyLine.NumbersExact, DiffBodyLine.reading, List.countP_cons,
        DiffBodyLine.isOld, DiffBodyLine.isNew, if_true, hsucc,
        Bool.false_eq_true, if_false, Nat.add_zero]
      exact and_left_comm
    | deleted text =>
      simp only [DiffBodyLine.NumbersExact, DiffBodyLine.reading, List.countP_cons,
        DiffBodyLine.isOld, DiffBodyLine.isNew, if_true, hsucc,
        Bool.false_eq_true, if_false, Nat.add_zero]
      exact and_assoc.symm
    | noNewline text =>
      simp [DiffBodyLine.NumbersExact, DiffBodyLine.reading, DiffBodyLine.isOld,
        DiffBodyLine.isNew]

theorem cleanContent_body {body : List DiffBodyLine} (h : ∀ line ∈ body, line.Distinct)
    (oldLine newLine : LineNumber) :
    (parseDiffLines oldLine newLine (body.map DiffBodyLine.raw)).filterMap
      ParsedDiffLine.cleanContent = body.filterMap DiffBodyLine.newText := by
  induction body generalizing oldLine newLine with
  | nil => rfl
  | cons line rest ih =>
    obtain ⟨hline, hrest⟩ := List.forall_mem_cons.mp h
    have hrest := ih hrest
    rw [List.map_cons, parseDiffLines, hline.parse]
    cases line <;>
      simp [DiffBodyLine.parsed, ParsedDiffLine.cleanContent, DiffBodyLine.newText,
        List.filterMap_cons, hrest]

theorem distinct_of_agrees {body : List DiffBodyLine} {oldLine newLine : LineNumber}
    {oldRead newRead : ℕ}
    (h : Agrees ((expectedBody oldRead newRead body).map some)
      (parseDiffLines oldLine newLine (body.map DiffBodyLine.raw))) :
    ∀ line ∈ body, line.Distinct := by
  induction body generalizing oldLine newLine oldRead newRead with
  | nil => simp
  | cons line rest ih =>
    rw [expectedBody, List.map_cons, List.map_cons, parseDiffLines, agrees_cons] at h
    exact List.forall_mem_cons.mpr ⟨DiffBodyLine.distinct_of_parse (h.1 _ rfl), ih h.2⟩

/-! ## Items -/

theorem fileHeader_unmarked {line : JsString} (h : ∃ word ∈ fileHeaderWords, word <+: line)
    (hheader : isHeaderLine line = false) :
    ∃ u tail, line = u :: tail ∧ u ≠ 0x40 ∧ u ≠ 0x20 ∧ u ≠ 0x2B ∧ u ≠ 0x2D := by
  obtain ⟨word, hword, rest, rfl⟩ := h
  simp only [fileHeaderWords, List.mem_cons, List.not_mem_nil, or_false] at hword
  rcases hword with rfl | rfl | rfl | rfl | hword
  · cases hheader
  · cases hheader
  · cases hheader
  · cases hheader
  · rcases hword with rfl | rfl | rfl | rfl | rfl | rfl | rfl | rfl | rfl | rfl <;>
      exact ⟨_, _, rfl, by decide⟩

theorem cleanContent_of_unmarked {u : UInt16} {tail : JsString}
    (hheader : isHeaderLine (u :: tail) = false) (hhunk : hunkMatch (u :: tail) = none)
    (hmarks : u ≠ 0x20 ∧ u ≠ 0x2B ∧ u ≠ 0x2D) (oldLine newLine : LineNumber) :
    (parseDiffLine oldLine newLine (u :: tail)).1.cleanContent = some (u :: tail) := by
  obtain ⟨hspace, hplus, hminus⟩ := hmarks
  have hlead : (js "+").isPrefixOf (u :: tail) = false ∧ (js "-").isPrefixOf (u :: tail) = false ∧
      (js " ").isPrefixOf (u :: tail) = false := by
    simp [show js "+" = [0x2B] from rfl, show js "-" = [0x2D] from rfl,
      show js " " = [0x20] from rfl, List.isPrefixOf, Ne.symm hspace, Ne.symm hplus, Ne.symm hminus]
  rw [parseDiffLine, hheader, hhunk, hlead.1, hlead.2.1, hlead.2.2]
  rfl

theorem DiffItem.cleanContent_recognized {item : DiffItem} (h : item.recognized = true)
    (oldLine newLine : LineNumber) :
    (parseDiffLine oldLine newLine item.headLine).1.cleanContent = none := by
  cases item with
  | header line =>
    rw [DiffItem.headLine, parseDiffLine, show isHeaderLine line = true from h]
    rfl
  | hunk part =>
    have hheading : part.heading.any isLineTerminator = false := by
      simpa [DiffItem.recognized] using h
    rw [DiffItem.headLine, parseDiffLine, show isHeaderLine part.headerLine = false from rfl,
      hunkMatch_headerLine, hheading]
    rfl

theorem DiffItem.cleanContent_unrecognized {item : DiffItem} (hplain : item.Plain)
    (h : item.recognized = false) (oldLine newLine : LineNumber) :
    (parseDiffLine oldLine newLine item.headLine).1.cleanContent = some item.headLine := by
  cases item with
  | header line =>
    obtain ⟨u, tail, rfl, hat, hmarks⟩ := fileHeader_unmarked hplain.1 h
    exact cleanContent_of_unmarked h (hunkMatch_mark hat _) hmarks _ _
  | hunk part =>
    have hheading : part.heading.any isLineTerminator = true := by
      simpa [DiffItem.recognized] using h
    have hmatch := hunkMatch_headerLine part
    rw [if_pos hheading] at hmatch
    exact cleanContent_of_unmarked (u := 0x40) rfl hmatch (by decide) oldLine newLine

/-- The part of the clean code that does not belong to the new side. -/
def DiffItem.extra (item : DiffItem) : List JsString :=
  if item.recognized then [] else [item.headLine]

theorem DiffItem.filterMap_lines {item : DiffItem} (hplain : item.Plain)
    (h : ∀ line ∈ item.body, line.Distinct) (oldLine newLine : LineNumber) :
    (parseDiffLines oldLine newLine item.lines).filterMap ParsedDiffLine.cleanContent =
      item.extra ++ item.newSide := by
  rw [DiffItem.lines, parseDiffLines, DiffItem.extra, DiffItem.newSide]
  cases hrecognized : item.recognized with
  | true =>
    rw [List.filterMap_cons_none (DiffItem.cleanContent_recognized hrecognized _ _),
      cleanContent_body h]
    rfl
  | false =>
    rw [List.filterMap_cons_some (DiffItem.cleanContent_unrecognized hplain hrecognized _ _),
      cleanContent_body h]
    rfl

theorem DiffItem.Distinct.agrees_iff {item : DiffItem} (h : item.Distinct)
    (oldLine newLine : LineNumber) :
    Agrees item.expected (parseDiffLines oldLine newLine item.lines) ↔ item.NumbersExact := by
  cases item with
  | header line =>
    exact iff_of_true ((agrees_cons none [] _ []).mpr ⟨fun _ h => (by cases h), by simp [Agrees]⟩)
      trivial
  | hunk part =>
    obtain ⟨hrecognized, hbody⟩ := h
    have hheading : part.heading.any isLineTerminator = false := by
      simpa [DiffItem.recognized] using hrecognized
    have hheader : parseDiffLine oldLine newLine (DiffItem.hunk part).headLine =
        (⟨.hunk, none, none, js "@@", part.headerLine, part.headerLine⟩, toDouble part.oldStart,
          toDouble part.newStart) := by
      rw [DiffItem.headLine, parseDiffLine, show isHeaderLine part.headerLine = false from rfl,
        hunkMatch_headerLine, hheading]
      rfl
    refine (agrees_cons none _ _ _).trans ?_
    rw [hheader, and_iff_right fun _ h => (by cases h)]
    exact (agrees_body_iff hbody _ _).trans (numbersExact_iff _ _ _)

theorem DiffItem.distinct_of_agrees {item : DiffItem} {oldLine newLine : LineNumber}
    (h : Agrees item.expected (parseDiffLines oldLine newLine item.lines)) :
    ∀ line ∈ item.body, line.Distinct := by
  cases item with
  | header line => simp [DiffItem.body]
  | hunk part => exact PiAgentWeb.distinct_of_agrees ((agrees_cons none _ _ _).mp h).2

theorem DiffItem.length_expected (item : DiffItem) (oldLine newLine : LineNumber) :
    item.expected.length = (parseDiffLines oldLine newLine item.lines).length := by
  rw [length_parseDiffLines]
  cases item with
  | header line => rfl
  | hunk part =>
    simp only [DiffItem.expected, DiffItem.lines, DiffItem.body, List.length_cons,
      List.length_map, length_expectedBody]

/-! ## Whole diffs -/

variable {diff : List DiffItem}

theorem agrees_iff_of_distinct (h : ∀ item ∈ diff, item.Distinct) (oldLine newLine : LineNumber) :
    Agrees (diff.flatMap DiffItem.expected)
        (parseDiffLines oldLine newLine (diff.flatMap DiffItem.lines)) ↔
      ∀ item ∈ diff, item.NumbersExact := by
  induction diff generalizing oldLine newLine with
  | nil => simp [Agrees]
  | cons item rest ih =>
    obtain ⟨hitem, hrest⟩ := List.forall_mem_cons.mp h
    rw [List.flatMap_cons, List.flatMap_cons, parseDiffLines_append,
      agrees_append (item.length_expected _ _), hitem.agrees_iff, ih hrest, List.forall_mem_cons]

theorem bodies_distinct_of_agrees {oldLine newLine : LineNumber}
    (h : Agrees (diff.flatMap DiffItem.expected)
      (parseDiffLines oldLine newLine (diff.flatMap DiffItem.lines))) :
    ∀ item ∈ diff, ∀ line ∈ item.body, line.Distinct := by
  induction diff generalizing oldLine newLine with
  | nil => simp
  | cons item rest ih =>
    rw [List.flatMap_cons, List.flatMap_cons, parseDiffLines_append,
      agrees_append (item.length_expected _ _)] at h
    exact List.forall_mem_cons.mpr ⟨DiffItem.distinct_of_agrees h.1, ih h.2⟩

theorem filterMap_parseDiffLines (hplain : ∀ item ∈ diff, item.Plain)
    (h : ∀ item ∈ diff, ∀ line ∈ item.body, line.Distinct) (oldLine newLine : LineNumber) :
    (parseDiffLines oldLine newLine (diff.flatMap DiffItem.lines)).filterMap
      ParsedDiffLine.cleanContent = diff.flatMap fun item => item.extra ++ item.newSide := by
  induction diff generalizing oldLine newLine with
  | nil => rfl
  | cons item rest ih =>
    obtain ⟨hitem, hrest⟩ := List.forall_mem_cons.mp h
    obtain ⟨hitemPlain, hrestPlain⟩ := List.forall_mem_cons.mp hplain
    rw [List.flatMap_cons, List.flatMap_cons, parseDiffLines_append, List.filterMap_append,
      DiffItem.filterMap_lines hitemPlain hitem, ih hrestPlain hrest]

/-- The characters of some lines with their newlines. -/
def lineWeight (lines : List JsString) : ℕ := (lines.map fun line => line.length + 1).sum

theorem length_joinLines (lines : List JsString) :
    (joinLines lines).length = lineWeight lines - 1 := by
  induction lines with
  | nil => rfl
  | cons line rest ih =>
    cases rest with
    | nil => simp [joinLines, lineWeight]
    | cons next rest =>
      have hweight : lineWeight (next :: rest) = (next.length + 1) + lineWeight rest := by
        simp [lineWeight]
      have hcons : lineWeight (line :: next :: rest) =
          (line.length + 1) + lineWeight (next :: rest) := by
        simp [lineWeight]
      have hjoin : joinLines (line :: next :: rest) =
          line ++ ([0x0A] ++ joinLines (next :: rest)) := by
        rw [joinLines, List.intercalate_cons_cons, List.append_assoc, joinLines]
      rw [hjoin, List.length_append, List.length_append, ih, hcons, hweight, List.length_singleton]
      omega

theorem lineWeight_le (hplain : ∀ item ∈ diff, item.Plain) :
    lineWeight (diff.flatMap DiffItem.newSide) ≤
        lineWeight (diff.flatMap fun item => item.extra ++ item.newSide) ∧
      ((∃ item ∈ diff, item.recognized = false) →
        lineWeight (diff.flatMap DiffItem.newSide) + 2 ≤
          lineWeight (diff.flatMap fun item => item.extra ++ item.newSide)) := by
  have happend : ∀ lines rest : List JsString,
      lineWeight (lines ++ rest) = lineWeight lines + lineWeight rest := by
    intro lines rest
    simp [lineWeight]
  have hextra : ∀ item : DiffItem, item.Plain → item.recognized = false →
      2 ≤ lineWeight item.extra := by
    intro item hplain hitem
    have hne : item.headLine ≠ [] := by
      cases item with
      | header line =>
        obtain ⟨_, _, rfl, _⟩ := fileHeader_unmarked hplain.1 hitem
        exact List.cons_ne_nil _ _
      | hunk part => exact List.cons_ne_nil _ _
    have := List.length_pos_iff.mpr hne
    simp only [DiffItem.extra, hitem, Bool.false_eq_true, if_false, lineWeight, List.map_cons,
      List.map_nil, List.sum_cons, List.sum_nil]
    omega
  induction diff with
  | nil => simp
  | cons item rest ih =>
    obtain ⟨hitemPlain, hrestPlain⟩ := List.forall_mem_cons.mp hplain
    obtain ⟨hle, hlt⟩ := ih hrestPlain
    simp only [List.flatMap_cons, happend, List.exists_mem_cons_iff]
    refine ⟨by omega, ?_⟩
    rintro (hitem | hrest)
    · have := hextra item hitemPlain hitem
      omega
    · have := hlt hrest
      omega

/-- A diff of plain texts is parsed line by line as it says, with its new side as the clean code,
exactly if no added line starts with two more plus signs, no deleted line with two more minus signs,
every first line of an item is one the parser knows, and the line numbers are doubles. -/
theorem recoversHunks_iff {diff : List DiffItem} (hplain : ∀ item ∈ diff, item.Plain) :
    RecoversHunks diff ↔ ∀ item ∈ diff, item.Distinct ∧ item.NumbersExact := by
  rcases eq_or_ne diff [] with rfl | hne
  · exact ⟨fun _ => by simp, fun _ => ⟨by simp, rfl⟩⟩
  have hparse : parseUnifiedDiff (renderDiff diff) =
      parseDiffLines (.finite 1) (.finite 1) (diff.flatMap DiffItem.lines) := by
    rw [parseUnifiedDiff, splitOn_renderDiff hplain hne]
  rw [RecoversHunks, extractCleanCode, hparse, forall₂_and]
  constructor
  · rintro ⟨hagrees, hclean⟩
    have hbodies := bodies_distinct_of_agrees hagrees
    have hdistinct : ∀ item ∈ diff, item.Distinct := by
      intro item hitem
      refine ⟨?_, hbodies item hitem⟩
      by_contra hrecognized
      have hlength := congrArg List.length hclean
      rw [filterMap_parseDiffLines hplain hbodies, length_joinLines, length_joinLines] at hlength
      have := (lineWeight_le hplain).2 ⟨item, hitem, Bool.eq_false_iff.mpr hrecognized⟩
      omega
    exact ⟨hdistinct, (agrees_iff_of_distinct hdistinct _ _).mp hagrees⟩
  · rintro ⟨hdistinct, hexact⟩
    refine ⟨(agrees_iff_of_distinct hdistinct _ _).mpr hexact, ?_⟩
    have hbodies : ∀ item ∈ diff, ∀ line ∈ item.body, line.Distinct := fun item hitem =>
      (hdistinct item hitem).2
    rw [filterMap_parseDiffLines hplain hbodies]
    congr 1
    refine List.flatMap_congr fun item hitem => ?_
    rw [DiffItem.extra, (hdistinct item hitem).1]
    rfl

/-- A diff with one hunk, whose only added line has the text. -/
def diffAdding (text : JsString) : List DiffItem :=
  [.header (js "+++ b/x.c"), .hunk ⟨1, 1, true, [], [.context (js "\x7b"), .added text]⟩]

theorem plain_diffAdding {text : JsString} (h : IsPlainText text) :
    ∀ item ∈ diffAdding text, item.Plain := by
  simp only [diffAdding, List.forall_mem_cons, DiffItem.Plain]
  exact ⟨by decide +kernel, ⟨by decide +kernel, by decide +kernel, h, by simp⟩, by simp⟩

/-- An added line that starts with one more plus sign is recovered. -/
theorem recoversHunks_iff_adding :
    RecoversHunks (diffAdding (js "+i;")) ↔
      ∀ item ∈ diffAdding (js "+i;"), item.Distinct ∧ item.NumbersExact :=
  recoversHunks_iff (plain_diffAdding (by decide +kernel))

/-- An added line `++i;` is written `+++i;`, which the parser takes for a file header: neither its
kind nor the clean code is what the hunk says. -/
theorem addedLine_takenForHeader :
    (∀ item ∈ diffAdding (js "++i;"), item.Plain) ∧
      (parseUnifiedDiff (renderDiff (diffAdding (js "++i;")))).map ParsedDiffLine.kind =
        [.header, .hunk, .context, .header] ∧
      extractCleanCode (renderDiff (diffAdding (js "++i;"))) = js "\x7b" ∧
      ¬RecoversHunks (diffAdding (js "++i;")) := by
  refine ⟨plain_diffAdding (by decide +kernel), by decide +kernel, by decide +kernel, fun h => ?_⟩
  have hclean := h.2
  revert hclean
  decide +kernel

end PiAgentWeb
