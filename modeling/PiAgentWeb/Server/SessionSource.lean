import PiAgentWeb.Library.LocatedLines
import PiAgentWeb.Library.Utf8Stream
import PiAgentWeb.Server.SessionContext

/-!
# The bytes of a native Session file

The scan of `session-history-reader.ts` on the bytes of the file: it reads them in chunks of any
size, keeps for every entry line where it lies, and `readEntry` reads it again from there. What
the scan makes of a line is `processLine`; the line has the value that `JSON.parse` makes of its
text, and a blank one has none.
-/

namespace PiAgentWeb

/-- `SCAN_BUFFER_BYTES`. -/
def SCAN_BUFFER_BYTES : ℕ := 64 * 1024

/-- An open Session file: its bytes, and how many bytes a read of a length at a position is
willing to return. -/
structure SessionFileHandle where
  content : List UInt8
  bytesRead : ℕ → ℕ → ℕ

/-- `handle.read`: at least one byte and at most as many as asked for, unless the file has
ended. -/
def SessionFileHandle.read (handle : SessionFileHandle) (length position : ℕ) : List UInt8 :=
  (handle.content.drop position).take (min length (max 1 (handle.bytesRead length position)))

/-- A `SessionHistoryRecord` with where its line lies in the file. -/
structure SourceRecord extends SessionHistoryRecord where
  offset : ℕ
  length : ℕ
  deriving DecidableEq

/-- What the scan has kept so far. -/
structure SourceScan where
  headerSeen : Bool := false
  records : List SourceRecord := []
  deriving DecidableEq

/-- The scan without the positions. -/
def SourceScan.toSessionScan (scan : SourceScan) : SessionScan where
  headerSeen := scan.headerSeen
  records := scan.records.map (·.toSessionHistoryRecord)

section Scan

variable (numbers : Json.JsNumbers)

/-- The value of the bytes of a line. `JSON.parse` also rejects every text that is blank. -/
def lineValue (line : List UInt8) : Option Json := Json.parse numbers (StringDecoder.decode line)

variable (canonicalizePath : JsString → JsString) (options : NativeSessionHistoryScanOptions)

/-- `processLine(line, offset)`: a record that the line adds is stored with the offset and the
length of the line. -/
def processLineAt (scan : SourceScan) (offset : ℕ) (line : List UInt8) :
    Except SessionHistoryFailure SourceScan :=
  match processLine canonicalizePath options scan.toSessionScan
      { length := line.length, value := lineValue numbers line } with
  | .error failure => .error failure
  | .ok next =>
    .ok {
      headerSeen := next.headerSeen
      records := scan.records ++ (next.records.drop scan.records.length).map fun record =>
        { toSessionHistoryRecord := record, offset, length := line.length } }

/-- The read loop. -/
def readLoop (handle : SessionFileHandle) (bufferBytes : ℕ)
    (progress : LocatedLines.Progress UInt8 SourceScan) (readOffset : ℕ) :
    Except SessionHistoryFailure (LocatedLines.Progress UInt8 SourceScan) :=
  let chunk := handle.read bufferBytes readOffset
  if _hend : chunk.length = 0 then .ok progress
  else if options.maxSourceBytes < readOffset + chunk.length then .error (.history .tooLarge)
  else
    match LocatedLines.readChunk 0x0A options.maxLineBytes (.history .tooLarge)
        (processLineAt numbers canonicalizePath options) progress readOffset chunk with
    | .error failure => .error failure
    | .ok next => readLoop handle bufferBytes next (readOffset + chunk.length)
termination_by handle.content.length - readOffset
decreasing_by
  have hlength : (handle.read bufferBytes readOffset).length ≤
      handle.content.length - readOffset := by
    rw [SessionFileHandle.read, List.length_take, List.length_drop]
    exact Nat.min_le_right _ _
  have hnonempty : (handle.read bufferBytes readOffset).length ≠ 0 := _hend
  omega

/-- The reading phase of `scanNativeSessionHistory`: the limits, the size of the file, the read
loop, the unfinished line and the header that must have been read. -/
def scanSourceRecords (handle : SessionFileHandle) (bufferBytes : ℕ) :
    Except SessionHistoryFailure (List SourceRecord) :=
  if !options.valid then .error (.history .tooLarge)
  else if options.maxSourceBytes < handle.content.length then .error (.history .tooLarge)
  else
    match readLoop numbers canonicalizePath options handle bufferBytes
        { state := {}, lineStart := 0, line := [] } 0 with
    | .error failure => .error failure
    | .ok progress =>
      match LocatedLines.finish (processLineAt numbers canonicalizePath options) progress with
      | .error failure => .error failure
      | .ok scan => if scan.headerSeen then .ok scan.records else .error (.history .invalidHeader)

/-- The loop of `readEntry`: reads until the buffer is full. -/
def readBytes (handle : SessionFileHandle) (offset length : ℕ) (total : List UInt8) :
    Except SessionHistoryFailure (List UInt8) :=
  if total.length < length then
    let part := handle.read (length - total.length) (offset + total.length)
    if _hend : part.length = 0 then .error (.history .changed)
    else readBytes handle offset length (total ++ part)
  else .ok total
termination_by length - total.length
decreasing_by
  have hnonempty : (handle.read (length - total.length) (offset + total.length)).length ≠ 0 := _hend
  rw [List.length_append]
  omega

/-- `readEntry`. -/
def readEntry (handle : SessionFileHandle) (record : SourceRecord) :
    Except SessionHistoryFailure SessionEntry :=
  match readBytes handle record.offset record.length [] with
  | .error failure => .error failure
  | .ok buffer =>
    match (lineValue numbers buffer).bind sessionEntry? with
    | none => .error (.history .changed)
    | some entry =>
      if entry.id ≠ record.id ∨ entry.parentId ≠ record.parentId ∨ entry.type ≠ record.type then
        .error (.history .changed)
      else .ok entry

end Scan

/-! ## Reads -/

theorem SessionFileHandle.read_append (handle : SessionFileHandle) (length position : ℕ) :
    handle.read length position ++
        handle.content.drop (position + (handle.read length position).length) =
      handle.content.drop position := by
  rw [← List.drop_drop, read, List.length_take, List.take_eq_take_min]
  exact List.take_append_drop _ _

theorem SessionFileHandle.length_read_le (handle : SessionFileHandle) (length position : ℕ) :
    (handle.read length position).length ≤ length ∧
      (handle.read length position).length ≤ handle.content.length - position := by
  rw [read, List.length_take, List.length_drop]
  omega

theorem SessionFileHandle.length_read_pos (handle : SessionFileHandle) {length position : ℕ}
    (hlength : 0 < length) (hposition : position < handle.content.length) :
    0 < (handle.read length position).length := by
  rw [read, List.length_take, List.length_drop]
  omega

section Scan

variable {numbers : Json.JsNumbers} {canonicalizePath : JsString → JsString}
  {options : NativeSessionHistoryScanOptions}

theorem readLoop_eq {handle : SessionFileHandle} {bufferBytes : ℕ} (hbuffer : 0 < bufferBytes)
    (hsize : handle.content.length ≤ options.maxSourceBytes)
    {progress : LocatedLines.Progress UInt8 SourceScan} (readOffset : ℕ)
    (hfits : progress.line.length ≤ options.maxLineBytes) :
    readLoop numbers canonicalizePath options handle bufferBytes progress readOffset =
      LocatedLines.readUnits 0x0A options.maxLineBytes (.history .tooLarge)
        (processLineAt numbers canonicalizePath options) progress readOffset
        (handle.content.drop readOffset) := by
  induction hn : handle.content.length - readOffset using Nat.strongRecOn
    generalizing progress readOffset with
  | _ n ih =>
    have happend := handle.read_append bufferBytes readOffset
    have hlength := handle.length_read_le bufferBytes readOffset
    rw [readLoop]
    split
    · rename_i hend
      have hposition : handle.content.length ≤ readOffset := by
        by_contra hposition
        have := handle.length_read_pos hbuffer (Nat.lt_of_not_le hposition)
        omega
      rw [List.drop_eq_nil_of_le hposition]
      rfl
    · rename_i hend
      rw [if_neg (by omega), LocatedLines.readChunk_eq_readUnits hfits, ← happend,
        LocatedLines.readUnits_append]
      split
      · rename_i hread
        rw [hread]
        rfl
      · rename_i next hread
        rw [hread]
        exact ih _ (by omega) _ (LocatedLines.fits_of_readUnits hfits hread) rfl

theorem readBytes_eq {handle : SessionFileHandle} {offset length : ℕ}
    (hlength : offset + length ≤ handle.content.length) {total : List UInt8}
    (htotal : (handle.content.drop offset).take total.length = total)
    (hle : total.length ≤ length) :
    readBytes handle offset length total =
      .ok ((handle.content.drop offset).take length) := by
  induction hn : length - total.length using Nat.strongRecOn generalizing total with
  | _ n ih =>
    rw [readBytes]
    split
    · rename_i hmore
      have hpart := handle.length_read_le (length - total.length) (offset + total.length)
      have hpos : 0 < (handle.read (length - total.length) (offset + total.length)).length :=
        handle.length_read_pos (by omega) (by omega)
      have hprefix : handle.read (length - total.length) (offset + total.length) <+:
          (handle.content.drop offset).drop total.length := by
        rw [List.drop_drop, ← handle.read_append (length - total.length)]
        exact List.prefix_append _ _
      dsimp only
      rw [dif_neg (by omega)]
      refine ih _ ?_ ?_ ?_ rfl
      · rw [List.length_append]
        omega
      · rw [List.length_append, List.take_add, htotal, ← List.prefix_iff_eq_take.mp hprefix]
      · rw [List.length_append]
        omega
    · rename_i hmore
      rw [show length = total.length by omega, htotal]

end Scan

end PiAgentWeb
