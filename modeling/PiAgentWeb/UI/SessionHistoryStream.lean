import PiAgentWeb.Protocol.SessionHistoryFrames

/-!
# The history stream assembler

`session-history-stream.ts`: the assembler takes the frames of one stream and completes with its
messages. Both of its users drop the assembler when a frame throws, and take no frame after the end
of the stream.
-/

namespace PiAgentWeb

/-- The codes of `SessionHistoryStreamError`. -/
inductive SessionHistoryStreamErrorCode where
  | invalidBegin | invalidIdentity | chunkOrder | chunkIntegrity | streamLimits | endMismatch
  deriving DecidableEq

/-- `CompletedSessionHistoryStream`. -/
structure CompletedSessionHistoryStream where
  beginFrame : SessionHistoryStreamBegin
  endFrame : SessionHistoryStreamEnd
  messages : List Json

/-- `SessionHistoryStreamAssembler`. -/
structure SessionHistoryStreamAssembler where
  kind : SessionHistoryStreamKind
  beginFrame : Option SessionHistoryStreamBegin
  nextChunkIndex : ℕ
  itemCount : ℕ
  chunkByteCount : ℕ
  checksums : List JsString
  messages : List Json

/-- `assertMetadata`. -/
def assertMetadata (metadata : SessionHistoryMetadataDto) : Bool :=
  isSafeInteger metadata.totalMessages && metadata.totalMessages ≤ SESSION_HISTORY_MAX_MESSAGES &&
    isSafeInteger metadata.loadedMessages && metadata.loadedMessages ≤ metadata.totalMessages &&
    isSafeInteger metadata.loadedBytes &&
    metadata.loadedBytes ≤ SESSION_HISTORY_MAX_STREAM_BYTES &&
    isSafeInteger metadata.totalBytes && metadata.loadedBytes ≤ metadata.totalBytes &&
    metadata.totalBytes ≤ SESSION_HISTORY_MAX_TOTAL_BYTES

namespace SessionHistoryStreamAssembler

/-- A new assembler. -/
def new (kind : SessionHistoryStreamKind) : SessionHistoryStreamAssembler where
  kind := kind
  beginFrame := none
  nextChunkIndex := 0
  itemCount := 0
  chunkByteCount := 0
  checksums := []
  messages := []

/-- `begin`. -/
def begin (assembler : SessionHistoryStreamAssembler) (frame : SessionHistoryStreamBegin) :
    Except SessionHistoryStreamErrorCode SessionHistoryStreamAssembler :=
  if assembler.beginFrame.isSome || assembler.kind ≠ frame.kind || !assertMetadata frame.history ||
      (assembler.kind = .page && frame.fence.requestId.all (· = [])) ||
      (assembler.kind = .snapshot && frame.fence.requestId.isSome) then
    .error .invalidBegin
  else .ok { assembler with beginFrame := some frame }

/-- `chunk`. -/
def chunk (assembler : SessionHistoryStreamAssembler) (frame : SessionHistoryStreamChunk) :
    Except SessionHistoryStreamErrorCode SessionHistoryStreamAssembler :=
  match assembler.beginFrame with
  | none => .error .invalidBegin
  | some begin =>
    let byteCount := sessionHistoryMessagesBytes frame.messages
    if frame.fence ≠ begin.fence then .error .invalidIdentity
    else if frame.chunkIndex ≠ assembler.nextChunkIndex then .error .chunkOrder
    else if frame.itemCount ≠ frame.messages.length then .error .chunkIntegrity
    else if frame.byteCount ≠ byteCount ||
        frame.checksum ≠ sessionHistoryChecksum (.arr frame.messages) then
      .error .chunkIntegrity
    else if !isSafeInteger byteCount || SESSION_HISTORY_MAX_STREAM_BYTES < byteCount ||
        begin.history.loadedMessages < assembler.itemCount + frame.itemCount ||
        SESSION_HISTORY_MAX_STREAM_BYTES < assembler.chunkByteCount + byteCount then
      .error .streamLimits
    else if SESSION_HISTORY_MAX_MESSAGES ≤ assembler.nextChunkIndex then .error .streamLimits
    else
      .ok { assembler with
        messages := assembler.messages ++ frame.messages
        checksums := assembler.checksums ++ [frame.checksum]
        itemCount := assembler.itemCount + frame.itemCount
        chunkByteCount := assembler.chunkByteCount + byteCount
        nextChunkIndex := assembler.nextChunkIndex + 1 }

/-- `end`. -/
def «end» (assembler : SessionHistoryStreamAssembler) (frame : SessionHistoryStreamEnd) :
    Except SessionHistoryStreamErrorCode CompletedSessionHistoryStream :=
  match assembler.beginFrame with
  | none => .error .invalidBegin
  | some begin =>
    if frame.fence ≠ begin.fence then .error .invalidIdentity
    else if assembler.kind ≠ frame.kind then .error .endMismatch
    else if frame.chunkCount ≠ assembler.nextChunkIndex ||
        frame.itemCount ≠ assembler.itemCount ||
        frame.byteCount ≠ sessionHistoryMessagesBytes assembler.messages ||
        frame.byteCount ≠ begin.history.loadedBytes ||
        frame.checksum ≠ sessionHistoryChecksum (.arr (assembler.checksums.map Json.str)) ||
        frame.nextCursor ≠ begin.history.nextCursor then
      .error .endMismatch
    else .ok { beginFrame := begin, endFrame := frame, messages := assembler.messages }

/-- The frames that arrive are fed to the assembler, up to the end of the stream or to the first
error; without an end frame the stream does not complete. -/
def feed (assembler : SessionHistoryStreamAssembler) :
    List SessionHistoryFrame →
      Except SessionHistoryStreamErrorCode (Option CompletedSessionHistoryStream)
  | [] => .ok none
  | .begin frame :: rest => do (← assembler.begin frame).feed rest
  | .chunk frame :: rest => do (← assembler.chunk frame).feed rest
  | .end frame :: _ => some <$> assembler.«end» frame

theorem chunk_ok {assembler next : SessionHistoryStreamAssembler}
    {frame : SessionHistoryStreamChunk} {begin : SessionHistoryStreamBegin}
    (hbegin : assembler.beginFrame = some begin) (h : assembler.chunk frame = .ok next) :
    frame.fence = begin.fence ∧ frame.chunkIndex = assembler.nextChunkIndex ∧
      next.beginFrame = some begin ∧ next.nextChunkIndex = assembler.nextChunkIndex + 1 := by
  simp only [chunk, hbegin] at h
  split at h
  · cases h
  rename_i hfence
  split at h
  · cases h
  rename_i hindex
  split at h
  · cases h
  split at h
  · cases h
  split at h
  · cases h
  split at h
  · cases h
  obtain rfl := Except.ok.inj h
  exact ⟨not_not.mp hfence, not_not.mp hindex, rfl, rfl⟩

theorem end_ok {assembler : SessionHistoryStreamAssembler} {frame : SessionHistoryStreamEnd}
    {completed : CompletedSessionHistoryStream} (h : assembler.«end» frame = .ok completed) :
    frame.chunkCount = assembler.nextChunkIndex := by
  unfold «end» at h
  split at h
  · cases h
  split at h
  · cases h
  split at h
  · cases h
  split at h
  · cases h
  · rename_i hmatches
    simp only [Bool.or_eq_true, decide_eq_true_eq, not_or, ne_eq, not_not] at hmatches
    exact hmatches.1.1.1.1.1

end SessionHistoryStreamAssembler

end PiAgentWeb
