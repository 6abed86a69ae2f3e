import PiAgentWeb.Library.ChunkedLines
import PiAgentWeb.Library.JsonParse
import PiAgentWeb.Library.Utf8Stream
import PiAgentWeb.UI.UserMessagePresentation
import Mathlib.Data.Rat.Init

/-!
# The scan of a native Session file

A Session file is read as a stream of chunks. Every line updates the scan state; the state, the
size and a checkpoint of the first and the last bytes are kept, so that a file that grew can be
scanned from where the last scan ended.
-/

namespace PiAgentWeb

/-- `SESSION_SCAN_MAX_LINE_BYTES`. -/
def sessionScanMaxLineBytes : ℕ := 16 * 1024 * 1024

/-- `SESSION_SCAN_CHECKPOINT_BYTES`. -/
def sessionScanCheckpointBytes : ℕ := 64 * 1024

/-- `NATIVE_SESSION_FIRST_MESSAGE_MAX_CHARS`. -/
def nativeSessionFirstMessageMaxChars : ℕ := 160

/-- The numbers, the dates and the digest of the host. -/
structure SessionScanHost (Digest : Type) where
  numbers : Json.JsNumbers
  /-- The value of a number literal, if it is finite. -/
  finiteNumber : JsString → Option ℚ
  /-- `Date.parse`, if its result is finite. -/
  parseDateMillis : JsString → Option ℚ
  /-- SHA-256. -/
  digest : List UInt8 → Digest

/-- `NativeSessionHeader`. -/
structure NativeSessionHeader where
  id : JsString
  cwd : JsString
  timestamp : Option JsString
  parentSessionPath : Option JsString
  deriving DecidableEq

/-- `NativeSessionScanState`. -/
structure NativeSessionScanState where
  header : Option NativeSessionHeader
  lineNumber : ℕ
  name : Option JsString
  messageCount : ℕ
  firstMessage : Option JsString
  lastActivityTime : Option ℚ
  deriving DecidableEq

/-- The state before the first line. -/
def NativeSessionScanState.initial : NativeSessionScanState where
  header := none
  lineNumber := 0
  name := none
  messageCount := 0
  firstMessage := none
  lastActivityTime := none

namespace NativeSession

/-- A member of a record; an array has none of the names that are asked for. -/
def member (value : Json) (name : String) : Option Json :=
  match value with
  | .obj fields => Json.field fields name
  | _ => none

/-- `isRecord`. -/
def isRecord : Json → Bool
  | .obj _ | .arr _ => true
  | _ => false

/-- A member, if it is a string. -/
def stringMember (value : Json) (name : String) : Option JsString :=
  match member value name with
  | some (.str text) => some text
  | _ => none

/-- `parseNativeSessionHeader`. -/
def parseNativeSessionHeader (value : Json) : Option NativeSessionHeader :=
  match stringMember value "type", stringMember value "id" with
  | some type, some id =>
    if type = js "session" ∧ id ≠ [] then
      some
        { id := id
          cwd := (stringMember value "cwd").getD []
          timestamp := stringMember value "timestamp"
          parentSessionPath := stringMember value "parentSession" }
    else none
  | _, _ => none

/-- The characters of a string, as its iterator gives them. -/
def characters : JsString → List JsString
  | [] => []
  | [u] => [[u]]
  | u :: v :: rest =>
    if isHighSurrogate u && isLowSurrogate v then [u, v] :: characters rest
    else [u] :: characters (v :: rest)

/-- The loop of `sidebarTextFromContent`: runs of white space become one space, and the text ends
after the maximal number of characters. -/
def collapseSpace : List JsString → List JsString → Bool → List JsString
  | [], taken, _ => taken
  | character :: rest, taken, whitespacePending =>
    if character.all isJsSpace then
      collapseSpace rest taken (whitespacePending || !taken.isEmpty)
    else
      let spaced := if whitespacePending then taken ++ [[0x20]] else taken
      if nativeSessionFirstMessageMaxChars ≤ taken.length then taken
      else if nativeSessionFirstMessageMaxChars ≤ spaced.length then spaced
      else collapseSpace rest (spaced ++ [character]) false

/-- `collapseExpandedSkillInvocation`. -/
def collapseExpandedSkillInvocation (text : JsString) : JsString :=
  match matchSkillHeader text with
  | none => text
  | some (name, bodyAndTail) =>
    let arguments := unambiguousSkillArguments bodyAndTail
    js "/skill:" ++ name ++ if arguments.isEmpty then [] else 0x20 :: arguments

/-- The text of a content block. -/
def blockText (block : Json) : Option JsString :=
  if stringMember block "type" = some (js "text") then stringMember block "text" else none

/-- `sidebarTextFromContent`. -/
def sidebarTextFromContent (content : Json) : JsString :=
  let textParts := match content with
    | .str text => [text]
    | .arr blocks => blocks.filterMap blockText
    | _ => []
  (collapseSpace
    (characters (collapseExpandedSkillInvocation
      (List.intercalate [0x0A, 0x0A] textParts))) [] false).flatten

section Scan

variable {Digest : Type} (host : SessionScanHost Digest)

/-- The time of a message: its own, or that of its line. -/
def activityTime (value message : Json) : Option ℚ :=
  match (match member message "timestamp" with
    | some (.num literal) => host.finiteNumber literal
    | _ => none) with
  | some time => some time
  | none => (stringMember value "timestamp").bind host.parseDateMillis

/-- The part of `parseNativeSessionLine` for a message with a role and a content. -/
def withMessage (state : NativeSessionScanState) (value message content : Json) (user : Bool) :
    NativeSessionScanState :=
  { state with
    lastActivityTime := match activityTime host value message with
      | none => state.lastActivityTime
      | some time =>
        let last := state.lastActivityTime.getD 0
        some (if last < time then time else last)
    firstMessage :=
      if state.firstMessage.isNone && user && !(sidebarTextFromContent content).isEmpty then
        some (sidebarTextFromContent content)
      else state.firstMessage }

/-- The part of `parseNativeSessionLine` after the header. -/
def withValue (state : NativeSessionScanState) (value : Json) : NativeSessionScanState :=
  let state := { state with lineNumber := state.lineNumber + 1 }
  match stringMember value "type" with
  | none => state
  | some type =>
    if type = js "session_info" then
      { state with name := ((stringMember value "name").map jsTrim).filter (!·.isEmpty) }
    else if type = js "message" then
      let state := { state with messageCount := state.messageCount + 1 }
      match (member value "message").filter isRecord with
      | none => state
      | some message =>
        let role := stringMember message "role"
        match member message "content" with
        | none => state
        | some content =>
          if role = some (js "user") ∨ role = some (js "assistant") then
            withMessage host state value message content (role = some (js "user"))
          else state
    else state

/-- A line without its carriage return. -/
def stripCarriageReturn (rawLine : JsString) : JsString :=
  if rawLine.getLast? = some 0x0D then rawLine.dropLast else rawLine

/-- `parseNativeSessionLine`; `none` stands for a line that makes the scan fail. -/
def parseNativeSessionLine (state : NativeSessionScanState) (rawLine : JsString) :
    Option NativeSessionScanState :=
  let line := stripCarriageReturn rawLine
  if utf8ByteLength line > sessionScanMaxLineBytes then none
  else
    match Json.parse host.numbers line with
    | none =>
      if state.lineNumber = 0 then none
      else some { state with lineNumber := state.lineNumber + 1 }
    | some value =>
      if state.lineNumber = 0 then
        (parseNativeSessionHeader value).map fun header =>
          { state with header := some header, lineNumber := state.lineNumber + 1 }
      else some (withValue host state value)

/-- The unfinished line is within the limit. -/
def fitsBuffer (buffered : JsString) : Bool := utf8ByteLength buffered ≤ sessionScanMaxLineBytes

/-- The variables of the stream loop. -/
structure ScanProgress where
  decoder : StringDecoder
  state : NativeSessionScanState
  buffered : JsString

/-- The stream loop, for one chunk. -/
def scanChunk (progress : ScanProgress) (bytes : List UInt8) : Option ScanProgress :=
  let text := progress.decoder.write bytes
  (ChunkedLines.readChunk 0x0A (parseNativeSessionLine host) fitsBuffer
    (progress.state, progress.buffered) text.1).map fun next =>
      { decoder := text.2, state := next.1, buffered := next.2 }

/-- The stream from a state: the state at its end and `appendSafe`. -/
def scanStream (state : NativeSessionScanState) (chunks : List (List UInt8)) :
    Option (NativeSessionScanState × Bool) :=
  (chunks.foldlM (scanChunk host) { decoder := .idle, state := state, buffered := [] }).bind
    fun progress =>
      ChunkedLines.finish (parseNativeSessionLine host) fitsBuffer
        (progress.state, progress.buffered ++ progress.decoder.finish)

/-- `readSessionHeader`: the first line, if it ends within the limit. -/
def readSessionHeader (bytes : List UInt8) : Option NativeSessionHeader :=
  let window := bytes.take (sessionScanMaxLineBytes + 1)
  if (0x0A : UInt8) ∈ window then
    (Json.parse host.numbers (StringDecoder.decode (window.takeWhile (· ≠ 0x0A)))).bind
      parseNativeSessionHeader
  else none

end Scan

/-! ## Checkpoints -/

/-- The first and the last bytes of a file. -/
structure CheckpointParts where
  prefixBytes : List UInt8
  suffixBytes : List UInt8
  deriving DecidableEq

/-- `NativeSessionAppendCheckpoint`. -/
structure NativeSessionAppendCheckpoint (Digest : Type) where
  prefixDigest : Digest
  suffixDigest : Digest
  deriving DecidableEq

/-- The last bytes of a file. -/
def lastBytes (count : ℕ) (bytes : List UInt8) : List UInt8 := bytes.drop (bytes.length - count)

/-- `AppendCheckpointAccumulator`, before the first chunk. -/
def CheckpointParts.empty : CheckpointParts := { prefixBytes := [], suffixBytes := [] }

/-- `AppendCheckpointAccumulator.consume`. -/
def CheckpointParts.consume (parts : CheckpointParts) (bytes : List UInt8) : CheckpointParts where
  prefixBytes :=
    if parts.prefixBytes.length < sessionScanCheckpointBytes then
      parts.prefixBytes ++ bytes.take (sessionScanCheckpointBytes - parts.prefixBytes.length)
    else parts.prefixBytes
  suffixBytes := lastBytes sessionScanCheckpointBytes (parts.suffixBytes ++ bytes)

/-- `appendCheckpoint`. -/
def CheckpointParts.checkpoint {Digest : Type} (host : SessionScanHost Digest)
    (parts : CheckpointParts) : NativeSessionAppendCheckpoint Digest where
  prefixDigest := host.digest parts.prefixBytes
  suffixDigest := host.digest parts.suffixBytes

/-- The first and the last bytes. -/
def checkpointParts (bytes : List UInt8) : CheckpointParts where
  prefixBytes := bytes.take sessionScanCheckpointBytes
  suffixBytes := lastBytes sessionScanCheckpointBytes bytes

/-- `readAppendCheckpoint`, which reads the ranges below the size. -/
def readAppendCheckpoint (bytes : List UInt8) (size : ℕ) : Option CheckpointParts :=
  if isSafeInteger size && size ≤ bytes.length then some (checkpointParts (bytes.take size))
  else none

/-! ## The scan of whole bytes -/

section Scan

variable {Digest : Type} (host : SessionScanHost Digest)

/-- The bytes scanned at once. -/
def scanBytes (state : NativeSessionScanState) (bytes : List UInt8) :
    Option (NativeSessionScanState × Bool) :=
  ChunkedLines.readWhole 0x0A (parseNativeSessionLine host) fitsBuffer (state, [])
    (StringDecoder.decode bytes)

/-- A line that is too long for the buffer, but not without its carriage return: the buffer holds
the carriage return, and the line is measured without it. -/
def CarriageReturnAtLimit (line : JsString) : Prop :=
  line.getLast? = some 0x0D ∧ utf8ByteLength line = sessionScanMaxLineBytes + 1

/-- No complete line of the file is such a line. -/
def CleanLines (bytes : List UInt8) : Prop :=
  ∀ line ∈ (ChunkedLines.splitLines (0x0A : UInt16) (StringDecoder.decode bytes)).1,
    ¬CarriageReturnAtLimit line

variable {host}

theorem utf8ByteLength_carriageReturn (line : JsString) :
    utf8ByteLength (line ++ [0x0D]) = utf8ByteLength line + 1 := by
  induction line using utf8ByteLength.induct with
  | case1 => rfl
  | case2 u =>
    have hlow : isLowSurrogate 0x0D = false := by decide
    simp only [List.cons_append, List.nil_append, utf8ByteLength, hlow, Bool.and_false,
      Bool.false_eq_true, if_false]
    rfl
  | case3 u v rest hpair ih =>
    simp only [List.cons_append, utf8ByteLength, hpair, if_true, ih]
    omega
  | case4 u v rest hpair ih =>
    simp only [List.cons_append, utf8ByteLength, hpair] at ih ⊢
    simp only [Bool.false_eq_true, if_false, ih]
    omega

theorem fitsBuffer_of_prefix (start line : JsString) (h : start <+: line)
    (hfits : fitsBuffer line = true) : fitsBuffer start = true := by
  obtain ⟨rest, rfl⟩ := h
  simp only [fitsBuffer, decide_eq_true_eq] at hfits ⊢
  exact Nat.le_trans (utf8ByteLength_le_append start rest) hfits

theorem rejectsLong {line : JsString} (h : ¬CarriageReturnAtLimit line) :
    ChunkedLines.RejectsLong (parseNativeSessionLine host) fitsBuffer line := by
  intro start hstart hlong state
  have hline : sessionScanMaxLineBytes < utf8ByteLength line := by
    by_contra hle
    have hfits := fitsBuffer_of_prefix start line hstart (by simpa [fitsBuffer] using hle)
    rw [hlong] at hfits
    cases hfits
  have hstripped : sessionScanMaxLineBytes < utf8ByteLength (stripCarriageReturn line) := by
    unfold stripCarriageReturn
    split
    · rename_i hlast
      have hsplit : line = line.dropLast ++ [0x0D] := by
        obtain ⟨init, rfl⟩ := List.getLast?_eq_some_iff.mp hlast
        simp
      have hlength := utf8ByteLength_carriageReturn line.dropLast
      rw [← hsplit] at hlength
      have hne : utf8ByteLength line ≠ sessionScanMaxLineBytes + 1 := fun heq => h ⟨hlast, heq⟩
      omega
    · exact hline
  rw [parseNativeSessionLine, if_pos hstripped]

theorem withValue_header (state : NativeSessionScanState)
    (value : Json) : (withValue host state value).header = state.header := by
  unfold withValue withMessage
  simp only
  repeat' split
  all_goals rfl

theorem parseNativeSessionLine_header
    {state : NativeSessionScanState} (hstate : state.lineNumber ≠ 0) {rawLine : JsString}
    (h : utf8ByteLength (stripCarriageReturn rawLine) ≤ sessionScanMaxLineBytes) :
    ∃ next, parseNativeSessionLine host state rawLine = some next ∧
      next.header = state.header := by
  rw [parseNativeSessionLine, if_neg (Nat.not_lt.mpr h)]
  cases Json.parse host.numbers (stripCarriageReturn rawLine) with
  | none => exact ⟨_, if_neg hstate, rfl⟩
  | some value => exact ⟨_, if_neg hstate, withValue_header state value⟩

theorem readSessionHeader_line {line : List UInt8}
    (h : (0x0A : UInt8) ∉ line) (hlength : line.length ≤ sessionScanMaxLineBytes)
    (rest : List UInt8) :
    readSessionHeader host (line ++ 0x0A :: rest) =
      (Json.parse host.numbers (StringDecoder.decode line)).bind parseNativeSessionHeader := by
  have hwindow : (line ++ 0x0A :: rest).take (sessionScanMaxLineBytes + 1) =
      line ++ 0x0A :: rest.take (sessionScanMaxLineBytes - line.length) := by
    rw [List.take_append, List.take_of_length_le (by omega),
      show sessionScanMaxLineBytes + 1 - line.length =
        (sessionScanMaxLineBytes - line.length) + 1 by omega, List.take_succ_cons]
  have htake : (line ++ 0x0A :: rest.take (sessionScanMaxLineBytes - line.length)).takeWhile
      (· ≠ 0x0A) = line := by
    rw [List.takeWhile_append_of_pos]
    · simp
    · intro byte hbyte
      simp only [decide_eq_true_eq]
      rintro rfl
      exact h hbyte
  rw [readSessionHeader, hwindow, if_pos (by simp)]
  rw [htake]

/-- The texts that the decoder makes of the chunks, and the decoder at the end. -/
def chunkTexts (decoder : StringDecoder) : List (List UInt8) → List JsString × StringDecoder
  | [] => ([], decoder)
  | chunk :: rest =>
    let text := decoder.write chunk
    let texts := chunkTexts text.2 rest
    (text.1 :: texts.1, texts.2)

theorem chunkTexts_flatten (decoder : StringDecoder) (chunks : List (List UInt8)) :
    (chunkTexts decoder chunks).1.flatten = (decoder.write chunks.flatten).1 ∧
      (chunkTexts decoder chunks).2 = (decoder.write chunks.flatten).2 := by
  induction chunks generalizing decoder with
  | nil => exact ⟨rfl, rfl⟩
  | cons chunk rest ih =>
    obtain ⟨htexts, hdecoder⟩ := ih (decoder.write chunk).2
    rw [List.flatten_cons, StringDecoder.write_append]
    simp only [chunkTexts, List.flatten_cons, htexts, hdecoder, and_self]

theorem foldlM_scanChunk (chunks : List (List UInt8)) (progress : ScanProgress) :
    chunks.foldlM (scanChunk host) progress =
      ((chunkTexts progress.decoder chunks).1.foldlM
        (ChunkedLines.readChunk 0x0A (parseNativeSessionLine host) fitsBuffer)
        (progress.state, progress.buffered)).map fun next =>
          { decoder := (chunkTexts progress.decoder chunks).2, state := next.1,
            buffered := next.2 } := by
  induction chunks generalizing progress with
  | nil => rfl
  | cons chunk rest ih =>
    simp only [List.foldlM_cons, chunkTexts, scanChunk]
    cases hread : ChunkedLines.readChunk 0x0A (parseNativeSessionLine host) fitsBuffer
        (progress.state, progress.buffered) (progress.decoder.write chunk).1 with
    | none => rfl
    | some next =>
      simp only [Option.map_some, Option.bind_eq_bind, Option.bind_some, ih]

theorem scanStream_eq {chunks : List (List UInt8)} (hclean : CleanLines chunks.flatten)
    (state : NativeSessionScanState) :
    scanStream host state chunks = scanBytes host state chunks.flatten := by
  obtain ⟨htexts, hdecoder⟩ := chunkTexts_flatten .idle chunks
  set texts := (chunkTexts .idle chunks).1 with htextsdef
  set decoder := (chunkTexts .idle chunks).2 with hdecoderdef
  have hempty : fitsBuffer [] = true := by decide
  have hdecode : StringDecoder.decode chunks.flatten =
      (texts ++ [decoder.finish]).flatten := by
    rw [StringDecoder.decode, List.flatten_append, htexts, hdecoder, List.flatten_singleton]
  -- what the decoder adds at the end is one more text, without a newline
  have hlast : ∀ progress : NativeSessionScanState × JsString, (0x0A : UInt16) ∉ progress.2 →
      (ChunkedLines.readChunk 0x0A (parseNativeSessionLine host) fitsBuffer progress
        decoder.finish).bind (ChunkedLines.finish (parseNativeSessionLine host) fitsBuffer) =
      ChunkedLines.finish (parseNativeSessionLine host) fitsBuffer
        (progress.1, progress.2 ++ decoder.finish) := by
    intro progress hbuffered
    have hunfinished : (0x0A : UInt16) ∉ progress.2 ++ decoder.finish := by
      rw [List.mem_append, not_or]
      exact ⟨hbuffered, decoder.newline_not_mem_finish⟩
    have hsplit := ChunkedLines.splitLines_of_not_mem hunfinished
    simp only [ChunkedLines.readChunk, hsplit, List.foldlM_nil]
    by_cases hfits : fitsBuffer (progress.2 ++ decoder.finish) = true
    · simp [hfits]
    · rw [Bool.not_eq_true] at hfits
      have hne : progress.2 ++ decoder.finish ≠ [] := by
        intro hnil
        rw [hnil, hempty] at hfits
        cases hfits
      simp [hfits, ChunkedLines.finish, hne]
  rw [scanBytes, hdecode, ← ChunkedLines.readChunk_foldlM (fun _ _ => fitsBuffer_of_prefix _ _)
    hempty _ List.not_mem_nil (fun line hline => ?_)]
  · rw [scanStream, foldlM_scanChunk]
    simp only [List.foldlM_append, List.foldlM_cons, List.foldlM_nil]
    cases hfold : texts.foldlM
        (ChunkedLines.readChunk 0x0A (parseNativeSessionLine host) fitsBuffer) (state, []) with
    | none => rfl
    | some next =>
      have hnewline := ChunkedLines.newline_not_mem_foldlM hfold List.not_mem_nil
      simp only [Option.map_some, Option.bind_some, Option.bind_eq_bind]
      rw [← hlast next hnewline]
      cases ChunkedLines.readChunk 0x0A (parseNativeSessionLine host) fitsBuffer next
        decoder.finish <;> rfl
  · refine rejectsLong (hclean line ?_)
    rw [hdecode]
    exact hline

theorem decode_append {state state' : NativeSessionScanState} {first : List UInt8}
    (h : scanBytes host state first = some (state', true)) (second : List UInt8) :
    StringDecoder.decode (first ++ second) =
      StringDecoder.decode first ++ StringDecoder.decode second := by
  have hunfinished := ChunkedLines.splitLines_of_readWhole h
  have hidle : ((StringDecoder.idle).write first).2 = .idle := by
    refine StringDecoder.eq_idle_of_finish ?_
    have hlast : (0x0A : UInt16) ∉
        (ChunkedLines.splitLines 0x0A ((StringDecoder.idle).write first).1).2 ++
          ((StringDecoder.idle).write first).2.finish := by
      rw [List.mem_append, not_or]
      exact ⟨ChunkedLines.newline_not_mem _ _, StringDecoder.newline_not_mem_finish _⟩
    have hsplit := ChunkedLines.splitLines_of_not_mem hlast
    rw [StringDecoder.decode, ChunkedLines.splitLines_append, hsplit] at hunfinished
    exact (List.append_eq_nil_iff.mp hunfinished).2
  simp only [StringDecoder.decode, StringDecoder.write_append, hidle, StringDecoder.finish,
    List.append_nil, List.append_assoc]

theorem scanBytes_append {state state' : NativeSessionScanState} {first : List UInt8}
    (h : scanBytes host state first = some (state', true)) (second : List UInt8) :
    scanBytes host state (first ++ second) = scanBytes host state' second := by
  rw [scanBytes, decode_append h]
  exact ChunkedLines.readWhole_append h _

theorem cleanLines_append {state state' : NativeSessionScanState} {first second : List UInt8}
    (h : scanBytes host state first = some (state', true)) (hclean : CleanLines (first ++ second)) :
    CleanLines second := by
  intro line hline
  refine hclean line ?_
  rw [decode_append h, ChunkedLines.splitLines_append, ChunkedLines.splitLines_of_readWhole h,
    List.nil_append]
  exact List.mem_append_right _ hline

theorem lastBytes_append {count : ℕ} (first : List UInt8) {second : List UInt8}
    (h : count ≤ second.length) : lastBytes count (first ++ second) = lastBytes count second := by
  rw [lastBytes, lastBytes, List.length_append,
    show first.length + second.length - count = first.length + (second.length - count) by omega,
    List.drop_append]
  simp

theorem checkpointParts_consume (bytes chunk : List UInt8) :
    (checkpointParts bytes).consume chunk = checkpointParts (bytes ++ chunk) := by
  rw [CheckpointParts.consume, checkpointParts, checkpointParts, CheckpointParts.mk.injEq]
  constructor
  · simp only [List.take_append, List.length_take]
    split
    · rw [show min sessionScanCheckpointBytes bytes.length = bytes.length by omega]
    · rw [show sessionScanCheckpointBytes - bytes.length = 0 by omega, List.take_zero,
        List.append_nil]
  · dsimp only
    by_cases hlong : sessionScanCheckpointBytes ≤ bytes.length
    · have hsplit : bytes.take (bytes.length - sessionScanCheckpointBytes) ++
          lastBytes sessionScanCheckpointBytes bytes = bytes := List.take_append_drop _ _
      have hlast : sessionScanCheckpointBytes ≤
          (lastBytes sessionScanCheckpointBytes bytes ++ chunk).length := by
        rw [List.length_append, lastBytes, List.length_drop]
        omega
      have happend := lastBytes_append
        (bytes.take (bytes.length - sessionScanCheckpointBytes)) hlast
      rw [← List.append_assoc, hsplit] at happend
      rw [happend]
    · have hall : lastBytes sessionScanCheckpointBytes bytes = bytes := by
        rw [lastBytes, show bytes.length - sessionScanCheckpointBytes = 0 by omega, List.drop_zero]
      rw [hall]

theorem checkpointParts_foldl (bytes : List UInt8) (chunks : List (List UInt8)) :
    chunks.foldl CheckpointParts.consume (checkpointParts bytes) =
      checkpointParts (bytes ++ chunks.flatten) := by
  induction chunks generalizing bytes with
  | nil => rw [List.flatten_nil, List.append_nil, List.foldl_nil]
  | cons chunk rest ih =>
    rw [List.foldl_cons, checkpointParts_consume, ih, List.flatten_cons, List.append_assoc]

end Scan

end NativeSession

end PiAgentWeb
