import Mathlib.Algebra.Order.BigOperators.Group.List
import Mathlib.Algebra.Order.Group.Nat
import PiAgentWeb.Library.JsonParse
import PiAgentWeb.Library.JsonSize
import PiAgentWeb.Library.Utf16
import PiAgentWeb.Protocol.Control

/-!
# Session history streams

`session-history.ts` and the history frames of the protocol: the limits of a bounded history
stream, its sizes and integrity markers, and the frames that carry it. A snapshot stream and a page
stream have the same frames, but for the members that their begin frame adds and for the request id
of a page, so that one structure models both.
-/

namespace PiAgentWeb

/-- `SESSION_WS_SERVER_MAX_BYTES`. -/
def SESSION_WS_SERVER_MAX_BYTES : ℕ := 65 * (1024 * 1024)

/-- `SESSION_HISTORY_MAX_CHUNK_BYTES`. -/
def SESSION_HISTORY_MAX_CHUNK_BYTES : ℕ := SESSION_WS_SERVER_MAX_BYTES - 256 * 1024

/-- `SESSION_HISTORY_MAX_CHUNK_MESSAGES`. -/
def SESSION_HISTORY_MAX_CHUNK_MESSAGES : ℕ := 256

/-- `SESSION_HISTORY_MAX_MESSAGES`. -/
def SESSION_HISTORY_MAX_MESSAGES : ℕ := 1000000

/-- `SESSION_HISTORY_MAX_TOTAL_BYTES`. -/
def SESSION_HISTORY_MAX_TOTAL_BYTES : ℕ := 16 * 1024 * 1024 * 1024

/-- `SESSION_HISTORY_MAX_STREAM_BYTES`. -/
def SESSION_HISTORY_MAX_STREAM_BYTES : ℕ := SESSION_HISTORY_MAX_CHUNK_BYTES + 256 * 1024

/-- `SESSION_HISTORY_MAX_CURSOR_BYTES`. -/
def SESSION_HISTORY_MAX_CURSOR_BYTES : ℕ := 1024

/-- `SESSION_HISTORY_MAX_SNAPSHOT_ID_BYTES`. -/
def SESSION_HISTORY_MAX_SNAPSHOT_ID_BYTES : ℕ := 128

/-- The UTF-8 size of what `JSON.stringify` prints. -/
def serializedBytes (value : Json) : ℕ := utf8ByteLength (Json.serialize value)

/-- `sessionHistoryMessagesBytes`. -/
def sessionHistoryMessagesBytes (messages : List Json) : ℕ := serializedBytes (.arr messages)

/-- One round of the checksum. -/
def checksumByte (hash : UInt32) (byte : UInt8) : UInt32 :=
  (hash ^^^ byte.toUInt32) * 0x01000193

/-- `sessionHistoryChecksum`, in eight hexadecimal digits. -/
def sessionHistoryChecksum (value : Json) : JsString :=
  let hash := ((utf8Encode (Json.serialize value)).foldl checksumByte 0x811C9DC5).toNat
  (List.range 8).map fun i => Json.hexDigit (hash / 16 ^ (7 - i) % 16)

/-- `isSessionHistoryChecksum`. -/
def isSessionHistoryChecksum (value : JsString) : Bool :=
  value.length = 8 && value.all fun u => (isDigit u || 0x61 ≤ u && u ≤ 0x66)

/-- `SessionHistoryMetadataDto`. -/
structure SessionHistoryMetadataDto where
  totalMessages : ℕ
  loadedMessages : ℕ
  loadedBytes : ℕ
  totalBytes : ℕ
  nextCursor : Option JsString

/-- `isHistoryCursor`; no cursor is `null`. -/
def isHistoryCursor (cursor : Option JsString) : Bool :=
  cursor.all fun text => text ≠ [] && utf8ByteLength text ≤ SESSION_HISTORY_MAX_CURSOR_BYTES

/-- `isSessionHistoryMetadataDto`. -/
def isSessionHistoryMetadataDto (value : SessionHistoryMetadataDto) : Bool :=
  isSafeInteger value.totalMessages && value.totalMessages ≤ SESSION_HISTORY_MAX_MESSAGES &&
    isSafeInteger value.loadedMessages && value.loadedMessages ≤ value.totalMessages &&
    isSafeInteger value.loadedBytes && value.loadedBytes ≤ SESSION_HISTORY_MAX_STREAM_BYTES &&
    isSafeInteger value.totalBytes && value.totalBytes ≤ SESSION_HISTORY_MAX_TOTAL_BYTES &&
    value.loadedBytes ≤ value.totalBytes && isHistoryCursor value.nextCursor

/-- `SessionHistoryStreamKind`. -/
inductive SessionHistoryStreamKind where
  | snapshot | page
  deriving DecidableEq

/-- What every frame of a stream repeats: the identity of the runtime, the snapshot that the history
belongs to, and the request of a page. -/
structure HistoryStreamFence where
  identity : SessionRuntimeIdentity
  snapshotId : JsString
  requestId : Option JsString
  deriving DecidableEq

/-- `session_snapshot_begin` or `session_history_page_begin`. The members that no other frame has
are kept as they are: the sequence numbers and the state of a snapshot, or the sequence number and
the cursor of a page. -/
structure SessionHistoryStreamBegin where
  kind : SessionHistoryStreamKind
  fence : HistoryStreamFence
  members : List (JsString × Json)
  history : SessionHistoryMetadataDto

/-- `session_snapshot_chunk` or `session_history_page_chunk`. -/
structure SessionHistoryStreamChunk where
  kind : SessionHistoryStreamKind
  fence : HistoryStreamFence
  chunkIndex : ℕ
  messages : List Json
  itemCount : ℕ
  byteCount : ℕ
  checksum : JsString

/-- `session_snapshot_end` or `session_history_page_end`. -/
structure SessionHistoryStreamEnd where
  kind : SessionHistoryStreamKind
  fence : HistoryStreamFence
  chunkCount : ℕ
  itemCount : ℕ
  byteCount : ℕ
  checksum : JsString
  nextCursor : Option JsString

/-- A frame of a history stream. -/
inductive SessionHistoryFrame where
  | begin (frame : SessionHistoryStreamBegin)
  | chunk (frame : SessionHistoryStreamChunk)
  | end (frame : SessionHistoryStreamEnd)

/-- `isString`: a text that is neither empty nor too long. -/
def isIdText (text : JsString) (maxLength : ℕ) : Bool := text ≠ [] && text.length ≤ maxLength

/-- `isHistoryFrameIdentity`, with the ids of the snapshot and of a page's request. -/
def HistoryStreamFence.isValid (fence : HistoryStreamFence) (kind : SessionHistoryStreamKind)
    (serverEpoch : JsString) : Bool :=
  isIdText fence.identity.serverEpoch 128 && fence.identity.serverEpoch = serverEpoch &&
    isIdText fence.identity.sessionHandle 256 && isIdText fence.identity.workspaceId 256 &&
    isSafeInteger fence.identity.generation &&
    isIdText fence.snapshotId SESSION_HISTORY_MAX_SNAPSHOT_ID_BYTES &&
    match kind with
    | .snapshot => fence.requestId = none
    | .page => fence.requestId.any (isIdText · 256)

/-- The guards of a history frame for what other parts of the protocol define: a message of the
product, and the members of a begin frame. -/
structure HistoryFrameGuards where
  serverEpoch : JsString
  isMessage : Json → Bool
  isBeginMembers : SessionHistoryStreamKind → List (JsString × Json) → Bool

/-- The history frames that `isSessionWsServerMessage` admits: `isSessionSnapshotBeginDto`,
`isSessionHistoryPageBeginDto`, `isSessionHistoryChunkDto`, `isSessionSnapshotEndDto` and
`isSessionHistoryPageEndDto`. -/
def isHistoryFrame (guards : HistoryFrameGuards) : SessionHistoryFrame → Bool
  | .begin frame =>
    frame.fence.isValid frame.kind guards.serverEpoch &&
      guards.isBeginMembers frame.kind frame.members && isSessionHistoryMetadataDto frame.history
  | .chunk frame =>
    frame.fence.isValid frame.kind guards.serverEpoch && isSafeInteger frame.chunkIndex &&
      frame.chunkIndex < SESSION_HISTORY_MAX_MESSAGES &&
      frame.messages.length ≤ SESSION_HISTORY_MAX_CHUNK_MESSAGES &&
      frame.messages.all guards.isMessage && isSafeInteger frame.itemCount &&
      frame.itemCount = frame.messages.length && isSafeInteger frame.byteCount &&
      frame.byteCount = sessionHistoryMessagesBytes frame.messages &&
      frame.byteCount ≤ SESSION_HISTORY_MAX_CHUNK_BYTES &&
      isSessionHistoryChecksum frame.checksum &&
      frame.checksum = sessionHistoryChecksum (.arr frame.messages)
  | .end frame =>
    frame.fence.isValid frame.kind guards.serverEpoch && isSafeInteger frame.chunkCount &&
      frame.chunkCount ≤ SESSION_HISTORY_MAX_MESSAGES && isSafeInteger frame.itemCount &&
      frame.itemCount ≤ SESSION_HISTORY_MAX_MESSAGES && isSafeInteger frame.byteCount &&
      frame.byteCount ≤ SESSION_HISTORY_MAX_STREAM_BYTES &&
      isSessionHistoryChecksum frame.checksum && isHistoryCursor frame.nextCursor

/-! ## The text of a frame -/

/-- The `type` of a frame. -/
def historyFrameType (kind : SessionHistoryStreamKind) (part : String) : Json :=
  match kind with
  | .snapshot => .str (js ("session_snapshot_" ++ part))
  | .page => .str (js ("session_history_page_" ++ part))

/-- A count as a JSON number. -/
def countJson (n : ℕ) : Json := .num (jsNat n)

/-- A cursor as a JSON value. -/
def cursorJson (cursor : Option JsString) : Json := (cursor.map Json.str).getD .null

/-- The members of a frame that carry its fence. -/
def HistoryStreamFence.toFields (fence : HistoryStreamFence) : List (JsString × Json) :=
  [(js "serverEpoch", .str fence.identity.serverEpoch),
    (js "sessionHandle", .str fence.identity.sessionHandle),
    (js "workspaceId", .str fence.identity.workspaceId),
    (js "generation", countJson fence.identity.generation)] ++
  (fence.requestId.map fun requestId => (js "requestId", Json.str requestId)).toList ++
  [(js "snapshotId", .str fence.snapshotId)]

/-- The metadata as a JSON value. -/
def SessionHistoryMetadataDto.toJson (history : SessionHistoryMetadataDto) : Json :=
  .obj [(js "totalMessages", countJson history.totalMessages),
    (js "loadedMessages", countJson history.loadedMessages),
    (js "loadedBytes", countJson history.loadedBytes),
    (js "totalBytes", countJson history.totalBytes),
    (js "nextCursor", cursorJson history.nextCursor)]

/-- The members of a chunk frame before and after its messages. -/
def SessionHistoryStreamChunk.toFields (frame : SessionHistoryStreamChunk) :
    List (JsString × Json) :=
  (js "type", historyFrameType frame.kind "chunk") :: frame.fence.toFields ++
    (js "chunkIndex", countJson frame.chunkIndex) :: (js "messages", .arr frame.messages) ::
      [(js "itemCount", countJson frame.itemCount), (js "byteCount", countJson frame.byteCount),
        (js "checksum", .str frame.checksum)]

/-- A frame as a JSON value. -/
def SessionHistoryFrame.toJson : SessionHistoryFrame → Json
  | .begin frame =>
    .obj ((js "type", historyFrameType frame.kind "begin") :: frame.fence.toFields ++
      frame.members ++ [(js "history", frame.history.toJson)])
  | .chunk frame => .obj frame.toFields
  | .end frame =>
    .obj ((js "type", historyFrameType frame.kind "end") :: frame.fence.toFields ++
      [(js "chunkCount", countJson frame.chunkCount), (js "itemCount", countJson frame.itemCount),
        (js "byteCount", countJson frame.byteCount), (js "checksum", .str frame.checksum),
        (js "nextCursor", cursorJson frame.nextCursor)])

/-- The bytes of a frame on the wire. -/
def SessionHistoryFrame.wireBytes (frame : SessionHistoryFrame) : ℕ := serializedBytes frame.toJson

theorem Json.printedFields_eq_map (fields : List (JsString × Json)) :
    Json.printedFields fields = fields.map fun entry => (entry.1, Json.printed entry.2) := by
  induction fields with
  | nil => rfl
  | cons entry rest ih => rw [Json.printedFields, ih, List.map_cons]

theorem serializedBytes_le_of_mem {fields : List (JsString × Json)} (entry : JsString × Json)
    (h : entry ∈ fields) : serializedBytes entry.2 ≤ serializedBytes (.obj fields) := by
  have hsum := List.le_sum_of_mem (List.mem_map_of_mem
    (f := fun entry : JsString × Json =>
      utf8ByteLength (Json.quote entry.1) + 1 + serializedBytes entry.2) h)
  have hsize : serializedBytes (.obj fields) =
      (fields.map fun entry =>
        utf8ByteLength (Json.quote entry.1) + 1 + serializedBytes entry.2).sum +
        (fields.length - 1) + 2 := by
    have := Json.byteLength_obj (Json.printedFields fields)
    rw [Json.printedFields_eq_map, List.map_map, List.length_map] at this
    rw [serializedBytes, Json.serialize, Json.printed, Json.printedFields_eq_map]
    exact this
  omega

theorem messagesBytes_le_wireBytes (frame : SessionHistoryStreamChunk) :
    sessionHistoryMessagesBytes frame.messages ≤ (SessionHistoryFrame.chunk frame).wireBytes :=
  serializedBytes_le_of_mem (js "messages", .arr frame.messages) (by
    simp [SessionHistoryStreamChunk.toFields])

end PiAgentWeb
