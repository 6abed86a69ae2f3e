import PiAgentWeb.Protocol.SessionHistoryFrames

/-!
# Streaming a Session history

`session-ws-bridge.ts`: the messages of a snapshot or of a history page are cut into chunks and
sent as one stream of frames. All frames of a stream are handed to the socket in one turn, and the
callbacks of the socket come later, so that the bytes of a whole stream are queued at once. A stream
is admitted when no message is too large, every frame passes its guard, and the connection takes
every frame without exceeding its outbound limit.
-/

namespace PiAgentWeb

/-- `DEFAULT_SESSION_HISTORY_CHUNK_TARGET_BYTES`. -/
def DEFAULT_SESSION_HISTORY_CHUNK_TARGET_BYTES : ℕ := 4 * 1024 * 1024

/-- What a connection keeps for its history streams. -/
structure HistoryConnection where
  negotiatedMaxServerFrameBytes : ℕ
  outboundHistoryQueuedBytes : ℕ

namespace HistoryConnection

/-- `maxHistoryChunkBytes`. -/
def maxHistoryChunkBytes (connection : HistoryConnection) : ℕ :=
  max 1 (min DEFAULT_SESSION_HISTORY_CHUNK_TARGET_BYTES
    (min SESSION_HISTORY_MAX_CHUNK_BYTES
      (connection.negotiatedMaxServerFrameBytes - 256 * 1024)))

/-- `maxHistorySingleMessageBytes`. -/
def maxHistorySingleMessageBytes (connection : HistoryConnection) : ℕ :=
  max 1 (min SESSION_HISTORY_MAX_CHUNK_BYTES
    (connection.negotiatedMaxServerFrameBytes - 256 * 1024))

end HistoryConnection

/-- The error of a message that fits no chunk. -/
def messageTooLarge : RpcError :=
  { command := "session_history", message := "session_history_message_too_large" }

/-- The chunk that is being filled takes no further message. -/
def isFullChunk (maxBytes : ℕ) (current : List Json) (message : Json) : Bool :=
  current ≠ [] &&
    (SESSION_HISTORY_MAX_CHUNK_MESSAGES ≤ current.length ||
      maxBytes < sessionHistoryMessagesBytes (current ++ [message]))

/-- A message is added to the chunk that is being filled. -/
def addToChunk (maxBytes maxSingleMessageBytes : ℕ) (current : List Json) (message : Json) :
    Except RpcError (List Json) :=
  if current = [] && maxBytes < sessionHistoryMessagesBytes [message] then
    if maxSingleMessageBytes < sessionHistoryMessagesBytes [message] then .error messageTooLarge
    else .ok [message]
  else if maxBytes < sessionHistoryMessagesBytes (current ++ [message]) then .error messageTooLarge
  else .ok (current ++ [message])

/-- The loop of `splitHistoryMessages`, with the chunk that is being filled. -/
def splitHistoryFrom (maxBytes maxSingleMessageBytes : ℕ) :
    List Json → List Json → Except RpcError (List (List Json))
  | current, [] => .ok (if current ≠ [] then [current] else [])
  | current, message :: rest =>
    if isFullChunk maxBytes current message then do
      let next ← addToChunk maxBytes maxSingleMessageBytes [] message
      let chunks ← splitHistoryFrom maxBytes maxSingleMessageBytes next rest
      .ok (current :: chunks)
    else do
      let next ← addToChunk maxBytes maxSingleMessageBytes current message
      splitHistoryFrom maxBytes maxSingleMessageBytes next rest

/-- `splitHistoryMessages`. -/
def splitHistoryMessages (messages : List Json) (maxBytes maxSingleMessageBytes : ℕ) :
    Except RpcError (List (List Json)) :=
  splitHistoryFrom maxBytes maxSingleMessageBytes [] messages

/-- What a stream is made from: the settled messages of a snapshot, or those of the page that a
request asks for, with the totals of the history plan. -/
structure HistoryStreamSource where
  identity : SessionRuntimeIdentity
  snapshotId : JsString
  requestId : Option JsString
  members : List (JsString × Json)
  messages : List Json
  totalMessages : ℕ
  totalBytes : ℕ
  nextCursor : Option JsString

namespace HistoryStreamSource

/-- A page answers a request. -/
def kind (source : HistoryStreamSource) : SessionHistoryStreamKind :=
  if source.requestId.isSome then .page else .snapshot

/-- What the frames of the stream repeat. -/
def fence (source : HistoryStreamSource) : HistoryStreamFence :=
  { identity := source.identity, snapshotId := source.snapshotId, requestId := source.requestId }

/-- The metadata of the stream. -/
def history (source : HistoryStreamSource) : SessionHistoryMetadataDto where
  totalMessages := source.totalMessages
  loadedMessages := source.messages.length
  loadedBytes := sessionHistoryMessagesBytes source.messages
  totalBytes := max source.totalBytes (sessionHistoryMessagesBytes source.messages)
  nextCursor := source.nextCursor

/-- The begin frame. -/
def beginFrame (source : HistoryStreamSource) : SessionHistoryStreamBegin where
  kind := source.kind
  fence := source.fence
  members := source.members
  history := source.history

/-- The frame of a chunk. -/
def chunkFrame (source : HistoryStreamSource) (chunkIndex : ℕ) (chunk : List Json) :
    SessionHistoryStreamChunk where
  kind := source.kind
  fence := source.fence
  chunkIndex := chunkIndex
  messages := chunk
  itemCount := chunk.length
  byteCount := sessionHistoryMessagesBytes chunk
  checksum := sessionHistoryChecksum (.arr chunk)

/-- The end frame. -/
def endFrame (source : HistoryStreamSource) (chunks : List (List Json)) :
    SessionHistoryStreamEnd where
  kind := source.kind
  fence := source.fence
  chunkCount := chunks.length
  itemCount := source.messages.length
  byteCount := sessionHistoryMessagesBytes source.messages
  checksum := sessionHistoryChecksum
    (.arr (chunks.map fun chunk => .str (sessionHistoryChecksum (.arr chunk))))
  nextCursor := source.nextCursor

/-- The frames of the chunks from an index on. -/
def chunkFramesFrom (source : HistoryStreamSource) :
    ℕ → List (List Json) → List SessionHistoryFrame
  | _, [] => []
  | chunkIndex, chunk :: rest =>
    .chunk (source.chunkFrame chunkIndex chunk) :: source.chunkFramesFrom (chunkIndex + 1) rest

/-- The frames of the stream. -/
def frames (source : HistoryStreamSource) (chunks : List (List Json)) :
    List SessionHistoryFrame :=
  .begin source.beginFrame :: source.chunkFramesFrom 0 chunks ++ [.end (source.endFrame chunks)]

end HistoryStreamSource

/-- `sendPayload` for a history frame that passes its guard: the bytes that the connection has
queued afterwards. Of the reasons to close the connection only the limit of its history streams is
modelled; the others admit fewer streams. -/
def sendHistoryFrame (guards : HistoryFrameGuards) (queuedBytes : ℕ)
    (frame : SessionHistoryFrame) : Option ℕ :=
  if isHistoryFrame guards frame then
    if SESSION_HISTORY_MAX_STREAM_BYTES < queuedBytes + frame.wireBytes then none
    else some (queuedBytes + frame.wireBytes)
  else none

/-- The frames that `sendChunkedSnapshot` and `handleHistoryPage` send, as a whole. -/
def streamHistory (guards : HistoryFrameGuards) (connection : HistoryConnection)
    (source : HistoryStreamSource) : Option (List SessionHistoryFrame) :=
  match splitHistoryMessages source.messages connection.maxHistoryChunkBytes
      connection.maxHistorySingleMessageBytes with
  | .error _ => none
  | .ok chunks =>
    ((source.frames chunks).foldlM (sendHistoryFrame guards)
      connection.outboundHistoryQueuedBytes).map fun _ => source.frames chunks

/-! ## Chunks -/

/-- A chunk has messages, not too many, and fits its limit unless it is one message that is admitted
alone. -/
structure IsHistoryChunk (maxBytes maxSingleMessageBytes : ℕ) (chunk : List Json) : Prop where
  nonempty : chunk ≠ []
  length_le : chunk.length ≤ SESSION_HISTORY_MAX_CHUNK_MESSAGES
  bytes_le : sessionHistoryMessagesBytes chunk ≤ maxBytes ∨
    chunk.length = 1 ∧ sessionHistoryMessagesBytes chunk ≤ maxSingleMessageBytes

theorem addToChunk_spec {maxBytes maxSingleMessageBytes : ℕ} {current next : List Json}
    {message : Json} (hlength : current.length < SESSION_HISTORY_MAX_CHUNK_MESSAGES)
    (h : addToChunk maxBytes maxSingleMessageBytes current message = .ok next) :
    next = current ++ [message] ∧ IsHistoryChunk maxBytes maxSingleMessageBytes next := by
  unfold addToChunk at h
  split at h
  · rename_i hlarge
    simp only [Bool.and_eq_true, decide_eq_true_eq] at hlarge
    split at h
    · cases h
    · rename_i hsingle
      obtain rfl := Except.ok.inj h
      exact ⟨by rw [hlarge.1]; rfl, List.cons_ne_nil _ _, Nat.le_add_left 1 255,
        .inr ⟨rfl, by omega⟩⟩
  · split at h
    · cases h
    · rename_i hbytes
      obtain rfl := Except.ok.inj h
      refine ⟨rfl, by simp, ?_, .inl (by omega)⟩
      rw [List.length_append, List.length_singleton]
      omega

theorem splitHistoryFrom_spec {maxBytes maxSingleMessageBytes : ℕ} {current messages : List Json}
    {chunks : List (List Json)}
    (hcurrent : current ≠ [] → IsHistoryChunk maxBytes maxSingleMessageBytes current)
    (h : splitHistoryFrom maxBytes maxSingleMessageBytes current messages = .ok chunks) :
    chunks.flatten = current ++ messages ∧
      ∀ chunk ∈ chunks, IsHistoryChunk maxBytes maxSingleMessageBytes chunk := by
  induction messages generalizing current chunks with
  | nil =>
    obtain rfl := Except.ok.inj h
    by_cases hempty : current = []
    · simp [hempty]
    · simpa [hempty] using hcurrent hempty
  | cons message rest ih =>
    simp only [splitHistoryFrom] at h
    split at h
    · rename_i hfull
      simp only [isFullChunk, Bool.and_eq_true, decide_eq_true_eq] at hfull
      cases hadd : addToChunk maxBytes maxSingleMessageBytes [] message with
      | error => simp only [hadd, bind, Except.bind, reduceCtorEq] at h
      | ok next =>
        cases hrest : splitHistoryFrom maxBytes maxSingleMessageBytes next rest with
        | error => simp only [hadd, hrest, bind, Except.bind, reduceCtorEq] at h
        | ok following =>
          simp only [hadd, hrest, bind, Except.bind] at h
          obtain rfl := Except.ok.inj h
          obtain ⟨rfl, hnext⟩ := addToChunk_spec (by decide) hadd
          obtain ⟨hflatten, hchunks⟩ := ih (fun _ => hnext) hrest
          refine ⟨by rw [List.flatten_cons, hflatten]; rfl, ?_⟩
          rw [List.forall_mem_cons]
          exact ⟨hcurrent hfull.1, hchunks⟩
    · rename_i hroom
      cases hadd : addToChunk maxBytes maxSingleMessageBytes current message with
      | error => simp only [hadd, bind, Except.bind, reduceCtorEq] at h
      | ok next =>
        simp only [hadd, bind, Except.bind] at h
        have hlength : current.length < SESSION_HISTORY_MAX_CHUNK_MESSAGES := by
          by_cases hempty : current = []
          · rw [hempty]
            decide
          · simp only [isFullChunk, Bool.and_eq_true, Bool.or_eq_true, decide_eq_true_eq,
              not_and, not_or] at hroom
            exact Nat.lt_of_not_le (hroom hempty).1
        obtain ⟨rfl, hnext⟩ := addToChunk_spec hlength hadd
        obtain ⟨hflatten, hchunks⟩ := ih (fun _ => hnext) h
        exact ⟨by rw [hflatten, List.append_assoc]; rfl, hchunks⟩

theorem splitHistoryMessages_spec {messages : List Json} {maxBytes maxSingleMessageBytes : ℕ}
    {chunks : List (List Json)}
    (h : splitHistoryMessages messages maxBytes maxSingleMessageBytes = .ok chunks) :
    chunks.flatten = messages ∧
      ∀ chunk ∈ chunks, IsHistoryChunk maxBytes maxSingleMessageBytes chunk :=
  splitHistoryFrom_spec (fun hne => absurd rfl hne) h

end PiAgentWeb
