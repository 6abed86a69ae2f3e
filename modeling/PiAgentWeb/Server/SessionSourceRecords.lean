import PiAgentWeb.Server.SessionSource

/-!
# The records of a native Session file

Whatever the reads return, the scan finds the records that the lines of the file have, and each of
them lies where the scan says: `readEntry` reads the bytes of its line and makes the same entry of
them.
-/

namespace PiAgentWeb

section Lines

variable (numbers : Json.JsNumbers) (canonicalizePath : JsString → JsString)
  (options : NativeSessionHistoryScanOptions)

/-- A line as the scan of lines takes it. -/
def sessionLine (line : List UInt8) : SessionLine where
  length := line.length
  value := lineValue numbers line

/-- The reading phase of the scan, line by line. -/
def sourceRecords (content : List UInt8) : Except SessionHistoryFailure (List SourceRecord) :=
  if !options.valid then .error (.history .tooLarge)
  else if options.maxSourceBytes < content.length then .error (.history .tooLarge)
  else
    match LocatedLines.readLines options.maxLineBytes (.history .tooLarge)
        (processLineAt numbers canonicalizePath options) {} 0
        (LocatedLines.lines 0x0A content) with
    | .error failure => .error failure
    | .ok scan => if scan.headerSeen then .ok scan.records else .error (.history .invalidHeader)

variable {numbers canonicalizePath options}

theorem scanSourceRecords_eq (handle : SessionFileHandle) {bufferBytes : ℕ}
    (hbuffer : 0 < bufferBytes) :
    scanSourceRecords numbers canonicalizePath options handle bufferBytes =
      sourceRecords numbers canonicalizePath options handle.content := by
  rw [scanSourceRecords, sourceRecords]
  split
  · rfl
  · split
    · rfl
    · rename_i hsize
      rw [readLoop_eq hbuffer (by omega) 0 (by exact Nat.zero_le _), List.drop_zero,
        ← LocatedLines.readUnits_start]
      cases LocatedLines.readUnits 0x0A options.maxLineBytes (.history .tooLarge)
        (processLineAt numbers canonicalizePath options) _ 0 handle.content with
      | error failure => rfl
      | ok progress => rfl

theorem processLine_entry {scan next : SessionScan} {line : SessionLine}
    (h : processLine canonicalizePath options scan line = .ok next) :
    next.records = scan.records ∨
      ∃ record entry, next.records = scan.records ++ [record] ∧
        line.value.bind sessionEntry? = some entry ∧ entry.id = record.id ∧
        entry.parentId = record.parentId ∧ entry.type = record.type := by
  unfold processLine at h
  split at h
  · exact .inl (by cases h; rfl)
  · rename_i parsed hvalue
    split at h
    · left
      split at h
      · cases h
      · split at h
        · cases h
        · split at h
          · cases h
          · cases h; rfl
    · right
      split at h
      · cases h
      · rename_i entry hentry
        split at h
        · cases h
        · split at h
          · cases h
          · split at h
            · cases h
            · refine ⟨_, entry, by cases h; rfl, ?_, rfl, rfl, rfl⟩
              rw [hvalue, Option.bind_some, hentry]

theorem processLineAt_map (scan : SourceScan) (offset : ℕ) (line : List UInt8) :
    (processLineAt numbers canonicalizePath options scan offset line).map
        SourceScan.toSessionScan =
      processLine canonicalizePath options scan.toSessionScan (sessionLine numbers line) := by
  rw [processLineAt, sessionLine]
  split
  · rename_i hprocess
    rw [hprocess]
    rfl
  · rename_i next hprocess
    rw [hprocess]
    have hrecords : scan.records.map (·.toSessionHistoryRecord) ++
        next.records.drop scan.records.length = next.records := by
      have hlength : scan.records.length = scan.toSessionScan.records.length :=
        (List.length_map _).symm
      rcases processLine_entry hprocess with heq | ⟨record, -, heq, -⟩
      · rw [heq, hlength, List.drop_length, List.append_nil]
        rfl
      · rw [heq, hlength, List.drop_left]
        rfl
    simp only [Except.map, SourceScan.toSessionScan, List.map_append, List.map_map,
      Function.comp_def, List.map_id', hrecords]

theorem readLines_map (scan : SourceScan) (offset : ℕ) (lines : List (List UInt8)) :
    (LocatedLines.readLines options.maxLineBytes (.history .tooLarge)
        (processLineAt numbers canonicalizePath options) scan offset lines).map
        SourceScan.toSessionScan =
      readLines canonicalizePath options scan.toSessionScan (lines.map (sessionLine numbers)) := by
  induction lines generalizing scan offset with
  | nil => rfl
  | cons line rest ih =>
    have hline : (sessionLine numbers line).length = line.length := rfl
    rw [LocatedLines.readLines, List.map_cons, readLines, hline, ← processLineAt_map scan offset]
    split
    · rfl
    · cases processLineAt numbers canonicalizePath options scan offset line with
      | error failure => rfl
      | ok next => exact ih next _

theorem sourceRecords_map (content : List UInt8) :
    (sourceRecords numbers canonicalizePath options content).map
        (·.map (·.toSessionHistoryRecord)) =
      readSessionRecords canonicalizePath options content.length
        ((LocatedLines.lines 0x0A content).map (sessionLine numbers)) := by
  have hlines : _ = readLines canonicalizePath options {} _ :=
    @readLines_map numbers canonicalizePath options {} 0 (LocatedLines.lines 0x0A content)
  rw [sourceRecords, readSessionRecords]
  split
  · rfl
  · split
    · rfl
    · rw [← hlines]
      cases LocatedLines.readLines options.maxLineBytes (.history .tooLarge)
        (processLineAt numbers canonicalizePath options) {} 0
        (LocatedLines.lines 0x0A content) with
      | error failure => rfl
      | ok scan =>
        cases hheader : scan.headerSeen <;>
          simp [Except.map, SourceScan.toSessionScan, hheader]

/-! ## Where the records lie -/

variable (numbers) in
/-- The record is that of the entry in its line, and the line lies at its offset. -/
def Located (content : List UInt8) (record : SourceRecord) : Prop :=
  ∃ line entry, LocatedLines.IsLine 0x0A content record.offset line ∧
    line.length = record.length ∧ (lineValue numbers line).bind sessionEntry? = some entry ∧
    entry.id = record.id ∧ entry.parentId = record.parentId ∧ entry.type = record.type

theorem processLineAt_located {content line : List UInt8} {scan next : SourceScan} {offset : ℕ}
    (hline : LocatedLines.IsLine 0x0A content offset line)
    (hlocated : ∀ record ∈ scan.records, Located numbers content record)
    (h : processLineAt numbers canonicalizePath options scan offset line = .ok next) :
    ∀ record ∈ next.records, Located numbers content record := by
  rw [processLineAt] at h
  split at h
  · cases h
  · rename_i found hprocess
    cases h
    have hlength : scan.records.length = scan.toSessionScan.records.length :=
      (List.length_map _).symm
    intro record hrecord
    rcases List.mem_append.mp hrecord with hold | hnew
    · exact hlocated record hold
    · rcases processLine_entry hprocess with heq | ⟨added, entry, heq, hvalue, hid, hparent, htype⟩
      · rw [heq, hlength, List.drop_length] at hnew
        cases hnew
      · rw [heq, hlength, List.drop_left, List.map_singleton, List.mem_singleton] at hnew
        rw [hnew]
        exact ⟨line, entry, hline, rfl, hvalue, hid, hparent, htype⟩

theorem scanSourceRecords_located {handle : SessionFileHandle} {bufferBytes : ℕ}
    (hbuffer : 0 < bufferBytes) {records : List SourceRecord}
    (h : scanSourceRecords numbers canonicalizePath options handle bufferBytes = .ok records) :
    ∀ record ∈ records, Located numbers handle.content record := by
  rw [scanSourceRecords] at h
  split at h
  · cases h
  · split at h
    · cases h
    · rename_i hsize
      rw [readLoop_eq hbuffer (by omega) 0 (by exact Nat.zero_le _), List.drop_zero] at h
      split at h
      · cases h
      · rename_i progress hread
        split at h
        · cases h
        · rename_i scan hfinish
          have hstep : ∀ (s s' : SourceScan) offset line,
              LocatedLines.IsLine 0x0A handle.content offset line →
              (∀ record ∈ s.records, Located numbers handle.content record) →
              processLineAt numbers canonicalizePath options s offset line = .ok s' →
              ∀ record ∈ s'.records, Located numbers handle.content record :=
            fun s s' offset line hline hlocated => processLineAt_located hline hlocated
          have hstart : LocatedLines.Begun 0x0A ([] : List UInt8)
              ({ state := {}, lineStart := 0, line := [] } :
                LocatedLines.Progress UInt8 SourceScan) :=
            ⟨List.not_mem_nil, [], rfl, rfl, .inl rfl⟩
          obtain ⟨hbegun, hlocated⟩ := LocatedLines.readUnits_rule hstep
            (List.nil_append _).symm hstart (by simp) hread
          have hscan := LocatedLines.finish_rule hstep hbegun hlocated hfinish
          split at h
          · cases h
            exact hscan
          · cases h

theorem readEntry_located {handle : SessionFileHandle} {record : SourceRecord}
    (h : Located numbers handle.content record) :
    ∃ line entry, LocatedLines.IsLine 0x0A handle.content record.offset line ∧
      line.length = record.length ∧
      readBytes handle record.offset record.length [] = .ok line ∧
      (lineValue numbers line).bind sessionEntry? = some entry ∧
      readEntry numbers handle record = .ok entry := by
  obtain ⟨line, entry, hline, hlength, hvalue, hid, hparent, htype⟩ := h
  obtain ⟨htake, hle⟩ := hline.eq_take
  have hbytes : readBytes handle record.offset record.length [] = .ok line := by
    rw [readBytes_eq (by omega) (by rfl) (Nat.zero_le _), ← hlength, htake]
  refine ⟨line, entry, hline, hlength, hbytes, hvalue, ?_⟩
  rw [readEntry, hbytes]
  dsimp only
  rw [hvalue]
  dsimp only
  rw [if_neg (by simp [hid, hparent, htype])]

end Lines

/-- For every file and however it is read: the scan finds the records of its lines, with distinct
ids; each of them lies at its offset with its length, and `readEntry` reads exactly the bytes that
were scanned and makes the same entry of them. The walk over the records ends, also where ids are
repeated: with the lineage of the last record, of which the context is cut at the last compaction
and left without the records that hold no message, or with an error at an ancestor that is its own
ancestor. -/
theorem session_scan_of_source (numbers : Json.JsNumbers) (canonicalizePath : JsString → JsString)
    (options : NativeSessionHistoryScanOptions) {bufferBytes bufferBytes' : ℕ}
    (hbuffer : 0 < bufferBytes) (hbuffer' : 0 < bufferBytes') {handle handle' : SessionFileHandle}
    (hcontent : handle.content = handle'.content) :
    scanSourceRecords numbers canonicalizePath options handle bufferBytes =
        scanSourceRecords numbers canonicalizePath options handle' bufferBytes' ∧
      (∀ records,
        scanSourceRecords numbers canonicalizePath options handle bufferBytes = .ok records →
        (records.map (·.id)).Nodup ∧
        ∀ record ∈ records, ∃ line entry,
          LocatedLines.IsLine 0x0A handle'.content record.offset line ∧
          line.length = record.length ∧
          readBytes handle' record.offset record.length [] = .ok line ∧
          (lineValue numbers line).bind sessionEntry? = some entry ∧
          readEntry numbers handle' record = .ok entry) ∧
      ∀ found : List SessionHistoryRecord,
        (∃ path context, Lineage (parentRecord found) found.getLast? path ∧
            activeContextRecords found = .ok context ∧ IsContextOf path.reverse context) ∨
          (∃ leaf record, found.getLast? = some leaf ∧
              Relation.ReflTransGen (Lineage.IsParent (parentRecord found)) leaf record ∧
              Relation.TransGen (Lineage.IsParent (parentRecord found)) record record) ∧
            (¬∃ path, Lineage (parentRecord found) found.getLast? path) ∧
            activeContextRecords found = .error (.history .invalidEntry) := by
  refine ⟨?_, fun records hrecords => ⟨?_, fun record hrecord => ?_⟩, activeContextRecords_spec⟩
  · rw [scanSourceRecords_eq handle hbuffer, scanSourceRecords_eq handle' hbuffer', hcontent]
  · have hlines := @sourceRecords_map numbers canonicalizePath options handle.content
    rw [← scanSourceRecords_eq handle hbuffer, hrecords] at hlines
    have hindexed := (readSessionRecords_indexed hlines.symm).2.nodup
    rwa [List.map_map] at hindexed
  · exact readEntry_located (hcontent ▸ scanSourceRecords_located hbuffer hrecords record hrecord)

/-- A file with a header, a message and a change of the model. -/
def sampleSessionFile : List UInt8 :=
  utf8Encode (js "\x7b\"type\":\"session\",\"id\":\"s\",\"cwd\":\"/\"\x7d\n\n") ++
    utf8Encode (js "\x7b\"type\":\"message\",\"id\":\"a\",\"parentId\":null,") ++
    utf8Encode (js "\"message\":\x7b\"role\":\"user\"\x7d\x7d\n") ++
    utf8Encode (js "\x7b\"type\":\"model_change\",\"id\":\"b\",\"parentId\":\"a\"\x7d")

/-- The record of the message. -/
def sampleMessageRecord : SourceRecord where
  id := js "a"
  parentId := none
  type := js "message"
  messageCount := 1
  byteLength := 69
  startsTurn := true
  firstKeptEntryId := none
  offset := 39
  length := 69

/-- The record of the change of the model. -/
def sampleModelRecord : SourceRecord where
  id := js "b"
  parentId := some (js "a")
  type := js "model_change"
  messageCount := 0
  byteLength := 47
  startsTurn := false
  firstKeptEntryId := none
  offset := 109
  length := 47

theorem sourceRecords_sample : sourceRecords Json.JsNumbers.exact id {} sampleSessionFile =
    .ok [sampleMessageRecord, sampleModelRecord] := by decide +kernel

/-- The file is read byte by byte, or at once. -/
theorem session_scan_of_sample :
    ∃ records,
      scanSourceRecords Json.JsNumbers.exact id {}
          { content := sampleSessionFile, bytesRead := fun _ _ => 1 } SCAN_BUFFER_BYTES =
        .ok records ∧
      scanSourceRecords Json.JsNumbers.exact id {}
          { content := sampleSessionFile, bytesRead := fun length _ => length } 7 =
        .ok records ∧
      ∀ record ∈ records, ∃ line entry,
        LocatedLines.IsLine 0x0A sampleSessionFile record.offset line ∧
        line.length = record.length ∧
        readBytes { content := sampleSessionFile, bytesRead := fun length _ => length }
          record.offset record.length [] = .ok line ∧
        (lineValue Json.JsNumbers.exact line).bind sessionEntry? = some entry ∧
        readEntry Json.JsNumbers.exact
          { content := sampleSessionFile, bytesRead := fun length _ => length } record =
            .ok entry := by
  have hscan : ∀ bytesRead : ℕ → ℕ → ℕ, ∀ bufferBytes, 0 < bufferBytes →
      scanSourceRecords Json.JsNumbers.exact id {} { content := sampleSessionFile, bytesRead }
        bufferBytes = .ok [sampleMessageRecord, sampleModelRecord] := by
    intro bytesRead bufferBytes hbuffer
    rw [scanSourceRecords_eq _ hbuffer]
    exact sourceRecords_sample
  obtain ⟨hsame, hrecords, -⟩ := session_scan_of_source Json.JsNumbers.exact id {}
    (show 0 < SCAN_BUFFER_BYTES by decide) (show 0 < 7 by decide)
    (show SessionFileHandle.content { content := sampleSessionFile, bytesRead := fun _ _ => 1 } =
      SessionFileHandle.content
        { content := sampleSessionFile, bytesRead := fun length _ => length } from rfl)
  have hfirst := hscan (fun _ _ => 1) SCAN_BUFFER_BYTES (by decide)
  exact ⟨_, hfirst, hsame ▸ hfirst, (hrecords _ hfirst).2⟩

/-- The path from the last record has no compaction, but the context is not the path: the change
of the model holds no message. -/
theorem context_without_model_change :
    ∃ records leaf path context,
      scanSourceRecords Json.JsNumbers.exact id {}
          { content := sampleSessionFile, bytesRead := fun length _ => length }
          SCAN_BUFFER_BYTES = .ok records ∧
      (records.map (·.toSessionHistoryRecord)).getLast? = some leaf ∧
      Lineage (parentRecord (records.map (·.toSessionHistoryRecord))) (some leaf) path ∧
      (∀ record ∈ path, record.type ≠ js "compaction") ∧
      activeContextRecords (records.map (·.toSessionHistoryRecord)) = .ok context ∧
      leaf ∈ path ∧ leaf ∉ context := by
  refine ⟨[sampleMessageRecord, sampleModelRecord], sampleModelRecord.toSessionHistoryRecord,
    [sampleModelRecord.toSessionHistoryRecord, sampleMessageRecord.toSessionHistoryRecord],
    [sampleMessageRecord.toSessionHistoryRecord], ?_, rfl, ?_, by decide +kernel,
    by decide +kernel, by decide +kernel, by decide +kernel⟩
  · rw [scanSourceRecords_eq _ (by decide)]
    exact sourceRecords_sample
  · refine .cons ?_
    rw [show parentRecord _ sampleModelRecord.toSessionHistoryRecord =
      some sampleMessageRecord.toSessionHistoryRecord by decide +kernel]
    refine .cons ?_
    rw [show parentRecord _ sampleMessageRecord.toSessionHistoryRecord = none by decide +kernel]
    exact .nil

end PiAgentWeb
