import PiAgentWeb.Protocol.SessionHistoryFrames

/-!
# The native Session history reader

`session-history-reader.ts`: a scan of the Session file keeps one bounded record for each entry
line, selects the records of the active branch, and pages through them from newest to oldest.
The file is the list of its lines. The cursor text is transparent: a cursor is the pair that its
JSON payload holds. The bytes of an entry are read back unchanged, so that a slice is the list of
the records it was read from.
-/

namespace PiAgentWeb

/-- `SESSION_PI_SNAPSHOT_JSONL_MAX_BYTES`. -/
def SESSION_PI_SNAPSHOT_JSONL_MAX_BYTES : ℕ := 64 * (1024 * 1024)

/-- `DEFAULT_INITIAL_SOURCE_BYTE_LIMIT`, with the snapshot ceiling of 64 MiB. -/
def DEFAULT_INITIAL_SOURCE_BYTE_LIMIT : ℕ := 64 * (1024 * 1024) - 4 * 1024 * 1024

/-- `SessionHistoryErrorCode`. -/
inductive SessionHistoryErrorCode where
  | cancelled
  | changed
  | invalidHeader
  | invalidEntry
  | invalidCursor
  | tooLarge
  deriving DecidableEq

/-- What the reader throws: a `SessionHistoryError`, or the `TypeError` of a property read on
`undefined` or `null`. -/
inductive SessionHistoryFailure where
  | history (code : SessionHistoryErrorCode)
  | typeError
  deriving DecidableEq

/-- `SessionHistoryRecord`, without the offset that only the byte reads use. -/
structure SessionHistoryRecord where
  id : JsString
  parentId : Option JsString
  type : JsString
  messageCount : ℕ
  byteLength : ℕ
  startsTurn : Bool
  firstKeptEntryId : Option JsString
  deriving DecidableEq

/-- One line of the file: its length, and the value `JSON.parse` makes of it. A blank line and a
line that is not JSON have no value. -/
structure SessionLine where
  length : ℕ
  value : Option Json

/-- `NativeSessionHistoryScanOptions` with the defaults of the scan. A bound that is negative or
not an integer is rejected like zero. -/
structure NativeSessionHistoryScanOptions where
  expectedNativeSessionId : Option JsString := none
  expectedCwd : Option JsString := none
  initialMessageLimit : ℕ := 96
  initialSourceByteLimit : ℕ := DEFAULT_INITIAL_SOURCE_BYTE_LIMIT
  maxSourceBytes : ℕ := SESSION_HISTORY_MAX_TOTAL_BYTES
  maxLineBytes : ℕ := SESSION_PI_SNAPSHOT_JSONL_MAX_BYTES
  maxIndexedRecords : ℕ := SESSION_HISTORY_MAX_MESSAGES

/-- The check of the limits that opens the scan. -/
def NativeSessionHistoryScanOptions.valid (options : NativeSessionHistoryScanOptions) : Bool :=
  0 < options.maxSourceBytes && options.maxSourceBytes ≤ SESSION_HISTORY_MAX_TOTAL_BYTES &&
  0 < options.maxLineBytes && options.maxLineBytes ≤ SESSION_PI_SNAPSHOT_JSONL_MAX_BYTES &&
  0 < options.initialMessageLimit &&
  options.initialMessageLimit ≤ SESSION_HISTORY_MAX_CHUNK_MESSAGES &&
  0 < options.initialSourceByteLimit &&
  options.initialSourceByteLimit ≤ SESSION_HISTORY_MAX_CHUNK_BYTES &&
  0 < options.maxIndexedRecords && options.maxIndexedRecords ≤ SESSION_HISTORY_MAX_MESSAGES

/-! ## Entry lines -/

/-- A property of a JSON object that holds a string. -/
def Json.stringField? (fields : List (JsString × Json)) (name : String) : Option JsString :=
  match Json.field fields name with
  | some (.str value) => some value
  | _ => none

/-- `isSessionHeader`, with the id and the working directory it guarantees. -/
def sessionHeader? (value : Json) : Option (JsString × JsString) :=
  match value with
  | .obj fields =>
    match Json.stringField? fields "type", Json.stringField? fields "id",
      Json.stringField? fields "cwd" with
    | some type, some id, some cwd => if type = js "session" ∧ id ≠ [] then some (id, cwd) else none
    | _, _, _ => none
  | _ => none

/-- The fields of an entry that `isSessionEntry` guarantees, beside all fields of the object. -/
structure SessionEntry where
  type : JsString
  id : JsString
  parentId : Option JsString
  fields : List (JsString × Json)

/-- `isSessionEntry`. -/
def sessionEntry? (value : Json) : Option SessionEntry :=
  match value with
  | .obj fields =>
    match Json.stringField? fields "type", Json.stringField? fields "id",
      Json.field fields "parentId" with
    | some type, some id, some .null =>
      if type ≠ js "session" ∧ id ≠ [] then some ⟨type, id, none, fields⟩ else none
    | some type, some id, some (.str parentId) =>
      if type ≠ js "session" ∧ id ≠ [] then some ⟨type, id, some parentId, fields⟩ else none
    | _, _, _ => none
  | _ => none

/-- `sessionEntryMessageCount`. -/
def sessionEntryMessageCount (entry : SessionEntry) : ℕ :=
  if entry.type = js "message" ∨ entry.type = js "custom_message" ∨
      entry.type = js "compaction" then 1
  else if entry.type = js "branch_summary" then
    match Json.stringField? entry.fields "summary" with
    | some summary => if summary = [] then 0 else 1
    | none => 0
  else 0

/-- `sessionEntryStartsTurn`: a message entry without a `message` makes it throw. -/
def sessionEntryStartsTurn (entry : SessionEntry) : Except SessionHistoryFailure Bool :=
  if entry.type = js "message" then
    match Json.field entry.fields "message" with
    | none => .error .typeError
    | some .null => .error .typeError
    | some (.obj message) => .ok (Json.stringField? message "role" == some (js "user"))
    | some _ => .ok false
  else .ok false

/-- What the scan has kept so far: whether the header was seen, and the records in file order. -/
structure SessionScan where
  headerSeen : Bool := false
  records : List SessionHistoryRecord := []

/-- `byId` of the scan: the records under their ids. -/
def recordsById (records : List SessionHistoryRecord) :
    InsertionMap JsString SessionHistoryRecord :=
  records.foldl (fun byId record => byId.insert record.id record) InsertionMap.empty

/-- `processLine`. The canonical form of a path is read from the host. -/
def processLine (canonicalizePath : JsString → JsString)
    (options : NativeSessionHistoryScanOptions) (scan : SessionScan) (line : SessionLine) :
    Except SessionHistoryFailure SessionScan :=
  match line.value with
  | none => .ok scan
  | some parsed =>
    if !scan.headerSeen then
      match sessionHeader? parsed with
      | none => .error (.history .invalidHeader)
      | some (id, cwd) =>
        if options.expectedNativeSessionId.any (· != id) then .error (.history .invalidHeader)
        else if options.expectedCwd.any (· != canonicalizePath cwd) then
          .error (.history .invalidHeader)
        else .ok { scan with headerSeen := true }
    else
      match sessionEntry? parsed with
      | none => .error (.history .invalidEntry)
      | some entry =>
        if ((recordsById scan.records).get? entry.id).isSome then .error (.history .invalidEntry)
        else if options.maxIndexedRecords ≤ scan.records.length then
          .error (.history .tooLarge)
        else
          match sessionEntryStartsTurn entry with
          | .error failure => .error failure
          | .ok startsTurn =>
            .ok { scan with
              records := scan.records ++ [{
                id := entry.id
                parentId := entry.parentId
                type := entry.type
                messageCount := sessionEntryMessageCount entry
                byteLength := line.length
                startsTurn
                firstKeptEntryId :=
                  if entry.type = js "compaction" then
                    Json.stringField? entry.fields "firstKeptEntryId"
                  else none }] }

/-- The read loop: each line is checked against the line limit and then processed. -/
def readLines (canonicalizePath : JsString → JsString)
    (options : NativeSessionHistoryScanOptions) (scan : SessionScan) :
    List SessionLine → Except SessionHistoryFailure SessionScan
  | [] => .ok scan
  | line :: rest =>
    if options.maxLineBytes < line.length then .error (.history .tooLarge)
    else
      match processLine canonicalizePath options scan line with
      | .error failure => .error failure
      | .ok next => readLines canonicalizePath options next rest

/-- The reading phase of the scan: the limits, the size of the file with its line feeds, the
lines, and the header that must have been among them. -/
def readSessionRecords (canonicalizePath : JsString → JsString)
    (options : NativeSessionHistoryScanOptions) (size : ℕ) (lines : List SessionLine) :
    Except SessionHistoryFailure (List SessionHistoryRecord) :=
  if !options.valid then .error (.history .tooLarge)
  else if options.maxSourceBytes < size then .error (.history .tooLarge)
  else
    match readLines canonicalizePath options {} lines with
    | .error failure => .error failure
    | .ok scan => if scan.headerSeen then .ok scan.records else .error (.history .invalidHeader)

/-! ## The active branch -/

/-- The parent walk of `activeContextRecords`, oldest record first; `seen` holds the ids of the
path. The number of further steps bounds the recursion. -/
def parentPath (byId : InsertionMap JsString SessionHistoryRecord) :
    ℕ → List SessionHistoryRecord → Option SessionHistoryRecord →
      Except SessionHistoryFailure (List SessionHistoryRecord)
  | _, path, none => .ok path
  | 0, _, some _ => .error (.history .invalidEntry)
  | steps + 1, path, some current =>
    if path.any (·.id == current.id) then .error (.history .invalidEntry)
    else parentPath byId steps (current :: path) (current.parentId.bind byId.get?)

/-- The index of the last compaction of the path. -/
def compactionIndex? (path : List SessionHistoryRecord) : Option ℕ :=
  path.zipIdx.foldl
    (fun found entry => if entry.1.type = js "compaction" then some entry.2 else found) none

/-- The records of the path that the context keeps: all of them, or the last compaction followed
by what it kept and by what came after it. -/
def keptRecords (path : List SessionHistoryRecord) : List SessionHistoryRecord :=
  match compactionIndex? path with
  | none => path
  | some index =>
    match path[index]? with
    | none => path
    | some compaction =>
      match compaction.firstKeptEntryId with
      | none => compaction :: path.drop (index + 1)
      | some firstKeptEntryId =>
        if firstKeptEntryId = [] then compaction :: path.drop (index + 1)
        else
          match (path.take index).findIdx? (·.id == firstKeptEntryId) with
          | none => compaction :: path.drop (index + 1)
          | some firstKept =>
            compaction :: (path.take index).drop firstKept ++ path.drop (index + 1)

/-- `activeContextRecords`. -/
def activeContextRecords (records : List SessionHistoryRecord) :
    Except SessionHistoryFailure (List SessionHistoryRecord) :=
  match parentPath (recordsById records) records.length [] records.getLast? with
  | .error failure => .error failure
  | .ok path => .ok ((keptRecords path).filter (0 < ·.messageCount))

/-! ## Ranges of records -/

/-- The first loop of a range: records are taken from the newest on, up to the message limit and
the byte limit. A record that is too large on its own makes it throw. -/
def takeMessages (records : List SessionHistoryRecord) (byteLimit : ℕ) :
    ℕ → ℤ → ℕ → Except SessionHistoryFailure (ℕ × ℕ)
  | 0, _, sourceBytes => .ok (0, sourceBytes)
  | start + 1, remaining, sourceBytes =>
    if remaining ≤ 0 then .ok (start + 1, sourceBytes)
    else
      match records[start]? with
      | none => .error .typeError
      | some record =>
        if byteLimit < sourceBytes + record.byteLength then
          if sourceBytes = 0 then .error (.history .tooLarge) else .ok (start + 1, sourceBytes)
        else
          takeMessages records byteLimit start (remaining - record.messageCount)
            (sourceBytes + record.byteLength)

/-- The second loop of a range: it is extended back to the start of a turn while the bytes
allow. -/
def alignTurn (records : List SessionHistoryRecord) (byteLimit : ℕ) :
    ℕ → ℕ → Except SessionHistoryFailure (ℕ × ℕ)
  | 0, sourceBytes => .ok (0, sourceBytes)
  | start + 1, sourceBytes =>
    match records[start + 1]? with
    | none => .error .typeError
    | some first =>
      if first.startsTurn then .ok (start + 1, sourceBytes)
      else
        match records[start]? with
        | none => .error .typeError
        | some record =>
          if byteLimit < sourceBytes + record.byteLength then .ok (start + 1, sourceBytes)
          else alignTurn records byteLimit start (sourceBytes + record.byteLength)

/-- Both loops: the start of the range that ends before `stop`, and its source bytes. -/
def selectRange (records : List SessionHistoryRecord) (byteLimit stop limit : ℕ) :
    Except SessionHistoryFailure (ℕ × ℕ) :=
  match takeMessages records byteLimit stop limit 0 with
  | .error failure => .error failure
  | .ok (start, sourceBytes) => alignTurn records byteLimit start sourceBytes

/-! ## The plan and its pages -/

/-- The payload of a cursor. -/
structure HistoryCursor where
  planId : ℕ
  start : ℤ
  deriving DecidableEq

/-- `NativeSessionHistorySlice`. -/
structure NativeSessionHistorySlice where
  entries : List SessionHistoryRecord
  itemCount : ℕ
  nextCursor : Option HistoryCursor
  deriving DecidableEq

/-- `NativeSessionHistoryPlan`, with the random id of the plan. -/
structure NativeSessionHistoryPlan where
  planId : ℕ
  records : List SessionHistoryRecord
  initialStart : ℕ
  totalMessages : ℕ
  totalBytes : ℕ
  deriving DecidableEq

namespace NativeSessionHistoryPlan

/-- `encodeCursor`. -/
def encodeCursor (plan : NativeSessionHistoryPlan) (start : ℕ) : Option HistoryCursor :=
  if start = 0 then none else some { planId := plan.planId, start }

/-- `decodeCursor`. -/
def decodeCursor (plan : NativeSessionHistoryPlan) (cursor : HistoryCursor) :
    Except SessionHistoryFailure ℕ :=
  if cursor.planId ≠ plan.planId ∨ cursor.start ≤ 0 ∨ (plan.records.length : ℤ) < cursor.start then
    .error (.history .invalidCursor)
  else .ok cursor.start.toNat

/-- `pageRange`: the start, the end and the source bytes of a page. -/
def pageRange (plan : NativeSessionHistoryPlan) (cursor : HistoryCursor) (limit : ℕ) :
    Except SessionHistoryFailure (ℕ × ℕ × ℕ) :=
  if limit = 0 ∨ SESSION_HISTORY_MAX_CHUNK_MESSAGES < limit then
    .error (.history .invalidCursor)
  else
    match plan.decodeCursor cursor with
    | .error failure => .error failure
    | .ok stop =>
      match selectRange plan.records SESSION_HISTORY_MAX_CHUNK_BYTES stop limit with
      | .error failure => .error failure
      | .ok (start, sourceBytes) => .ok (start, stop, sourceBytes)

/-- `readRange` of a source that is unchanged and not cancelled. -/
def readRange (plan : NativeSessionHistoryPlan) (start stop : ℕ) :
    Except SessionHistoryFailure NativeSessionHistorySlice :=
  if stop < start ∨ plan.records.length < stop then .error (.history .invalidCursor)
  else
    let entries := (plan.records.take stop).drop start
    .ok {
      entries
      itemCount := (entries.map (·.messageCount)).sum
      nextCursor := plan.encodeCursor start }

/-- `readInitial`. -/
def readInitial (plan : NativeSessionHistoryPlan) :
    Except SessionHistoryFailure NativeSessionHistorySlice :=
  plan.readRange plan.initialStart plan.records.length

/-- `readPage`. -/
def readPage (plan : NativeSessionHistoryPlan) (cursor : HistoryCursor) (limit : ℕ) :
    Except SessionHistoryFailure NativeSessionHistorySlice :=
  match plan.pageRange cursor limit with
  | .error failure => .error failure
  | .ok (start, stop, _) => plan.readRange start stop

/-- A reader that follows the returned cursors, one page for each limit of the list: the pages,
newest first, and the cursor it is left with. -/
def followCursors (plan : NativeSessionHistoryPlan) :
    Option HistoryCursor → List ℕ →
      Except SessionHistoryFailure (List NativeSessionHistorySlice × Option HistoryCursor)
  | none, _ => .ok ([], none)
  | some cursor, [] => .ok ([], some cursor)
  | some cursor, limit :: limits =>
    match plan.readPage cursor limit with
    | .error failure => .error failure
    | .ok page =>
      match plan.followCursors page.nextCursor limits with
      | .error failure => .error failure
      | .ok (pages, next) => .ok (page :: pages, next)

end NativeSessionHistoryPlan

/-- The end of `scanNativeSessionHistory`: the active context, its message total and the start of
the initial slice. -/
def planHistory (options : NativeSessionHistoryScanOptions) (planId size : ℕ)
    (context : List SessionHistoryRecord) :
    Except SessionHistoryFailure NativeSessionHistoryPlan :=
  let totalMessages := (context.map (·.messageCount)).sum
  if SESSION_HISTORY_MAX_MESSAGES < totalMessages then .error (.history .tooLarge)
  else
    match selectRange context options.initialSourceByteLimit context.length
        options.initialMessageLimit with
    | .error failure => .error failure
    | .ok (initialStart, _) =>
      .ok { planId, records := context, initialStart, totalMessages, totalBytes := size }

/-- `scanNativeSessionHistory`. -/
def scanNativeSessionHistory (canonicalizePath : JsString → JsString)
    (options : NativeSessionHistoryScanOptions) (planId size : ℕ) (lines : List SessionLine) :
    Except SessionHistoryFailure NativeSessionHistoryPlan :=
  match readSessionRecords canonicalizePath options size lines with
  | .error failure => .error failure
  | .ok records =>
    match activeContextRecords records with
    | .error failure => .error failure
    | .ok context => planHistory options planId size context

end PiAgentWeb
