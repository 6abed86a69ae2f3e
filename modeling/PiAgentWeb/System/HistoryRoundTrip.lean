import PiAgentWeb.Server.HistoryStreaming
import PiAgentWeb.UI.SessionHistoryStream

/-!
# History streams between the server and the browser

A stream that the server sends as a whole completes in the browser with the messages it was made
from. The assembler takes the chunk frames of one stream in the order of their indices only, so that
no other sequence of its frames completes, whatever frames of other streams are mixed in.
-/

namespace PiAgentWeb

open SessionHistoryStreamAssembler (new)

/-! ## The frames of an admitted stream -/

theorem sendHistoryFrames_spec {guards : HistoryFrameGuards} {frames : List SessionHistoryFrame}
    {queuedBytes queuedBytes' : ℕ}
    (h : frames.foldlM (sendHistoryFrame guards) queuedBytes = some queuedBytes')
    (hqueued : queuedBytes ≤ SESSION_HISTORY_MAX_STREAM_BYTES) :
    (∀ frame ∈ frames, isHistoryFrame guards frame = true) ∧
      queuedBytes + (frames.map SessionHistoryFrame.wireBytes).sum ≤
        SESSION_HISTORY_MAX_STREAM_BYTES := by
  induction frames generalizing queuedBytes with
  | nil => exact ⟨nofun, by simpa using hqueued⟩
  | cons frame rest ih =>
    rw [List.foldlM_cons] at h
    obtain ⟨queued, hframe, hrest⟩ := Option.bind_eq_some_iff.mp h
    unfold sendHistoryFrame at hframe
    split at hframe
    · rename_i hguard
      split at hframe
      · cases hframe
      · obtain rfl := Option.some.inj hframe
        obtain ⟨hguards, hbytes⟩ := ih hrest (by omega)
        refine ⟨List.forall_mem_cons.mpr ⟨hguard, hguards⟩, ?_⟩
        rw [List.map_cons, List.sum_cons]
        omega
    · cases hframe

/-- A stream that is sent as a whole consists of the frames of its chunks, which pass their guards
and fit the outbound limit together. -/
theorem streamHistory_spec {guards : HistoryFrameGuards} {connection : HistoryConnection}
    {source : HistoryStreamSource} {frames : List SessionHistoryFrame}
    (h : streamHistory guards connection source = some frames) :
    ∃ chunks, splitHistoryMessages source.messages connection.maxHistoryChunkBytes
        connection.maxHistorySingleMessageBytes = .ok chunks ∧
      frames = source.frames chunks ∧ (∀ frame ∈ frames, isHistoryFrame guards frame = true) ∧
      (frames.map SessionHistoryFrame.wireBytes).sum ≤ SESSION_HISTORY_MAX_STREAM_BYTES := by
  unfold streamHistory at h
  cases hsplit : splitHistoryMessages source.messages connection.maxHistoryChunkBytes
      connection.maxHistorySingleMessageBytes with
  | error => rw [hsplit] at h; cases h
  | ok chunks =>
    rw [hsplit] at h
    obtain ⟨queuedBytes, hsent, rfl⟩ := Option.map_eq_some_iff.mp h
    refine ⟨chunks, rfl, rfl, ?_⟩
    -- A connection whose queue exceeds the limit takes not even the begin frame.
    have hqueued : connection.outboundHistoryQueuedBytes ≤ SESSION_HISTORY_MAX_STREAM_BYTES := by
      rw [HistoryStreamSource.frames, List.cons_append, List.foldlM_cons] at hsent
      obtain ⟨queued, hframe, -⟩ := Option.bind_eq_some_iff.mp hsent
      unfold sendHistoryFrame at hframe
      split at hframe
      · split at hframe
        · cases hframe
        · omega
      · cases hframe
    obtain ⟨hguards, hbytes⟩ := sendHistoryFrames_spec hsent hqueued
    exact ⟨hguards, by omega⟩

namespace HistoryStreamSource

variable (source : HistoryStreamSource)

theorem mem_chunkFramesFrom {chunkIndex : ℕ} {chunks : List (List Json)}
    {frame : SessionHistoryFrame} (h : frame ∈ source.chunkFramesFrom chunkIndex chunks) :
    ∃ before chunk after, chunks = before ++ chunk :: after ∧
      frame = .chunk (source.chunkFrame (chunkIndex + before.length) chunk) := by
  induction chunks generalizing chunkIndex with
  | nil => cases h
  | cons chunk rest ih =>
    rcases List.mem_cons.mp h with rfl | hrest
    · exact ⟨[], chunk, rest, rfl, rfl⟩
    · obtain ⟨before, found, after, rfl, rfl⟩ := ih hrest
      refine ⟨chunk :: before, found, after, rfl, ?_⟩
      rw [List.length_cons, Nat.add_assoc, Nat.add_comm 1]

theorem messagesBytes_le_frames (chunkIndex : ℕ) (chunks : List (List Json)) :
    (chunks.map sessionHistoryMessagesBytes).sum ≤
      ((source.chunkFramesFrom chunkIndex chunks).map SessionHistoryFrame.wireBytes).sum := by
  induction chunks generalizing chunkIndex with
  | nil => exact Nat.le_refl _
  | cons chunk rest ih =>
    have hchunk := messagesBytes_le_wireBytes (source.chunkFrame chunkIndex chunk)
    have hrest := ih (chunkIndex + 1)
    simp only [chunkFramesFrom, List.map_cons, List.sum_cons]
    exact Nat.add_le_add hchunk hrest

/-- The assembler after the first chunks of the stream. -/
def assembled (chunks : List (List Json)) : SessionHistoryStreamAssembler where
  kind := source.kind
  beginFrame := some source.beginFrame
  nextChunkIndex := chunks.length
  itemCount := chunks.flatten.length
  chunkByteCount := (chunks.map sessionHistoryMessagesBytes).sum
  checksums := chunks.map fun chunk => sessionHistoryChecksum (.arr chunk)
  messages := chunks.flatten

/-! ## The stream completes -/

theorem assertMetadata_of_guard {history : SessionHistoryMetadataDto}
    (h : isSessionHistoryMetadataDto history = true) : assertMetadata history = true := by
  simp only [isSessionHistoryMetadataDto, assertMetadata, Bool.and_eq_true] at h ⊢
  tauto

theorem begin_accepted {guards : HistoryFrameGuards}
    (h : isHistoryFrame guards (.begin source.beginFrame) = true) :
    (new source.kind).begin source.beginFrame = .ok (source.assembled []) := by
  simp only [isHistoryFrame, beginFrame, Bool.and_eq_true] at h
  have hmetadata := assertMetadata_of_guard h.2
  have hrequest : (source.kind = .page → source.requestId.all (· = []) = false) ∧
      (source.kind = .snapshot → source.requestId.isSome = false) := by
    have hfence := h.1.1
    unfold HistoryStreamFence.isValid fence kind at hfence
    unfold kind
    cases hid : source.requestId with
    | none => simp
    | some requestId =>
      rw [hid] at hfence
      simp only [isIdText, Option.isSome_some, if_true, Option.any_some, Bool.and_eq_true,
        decide_eq_true_eq] at hfence
      simpa using hfence.2.1
  unfold SessionHistoryStreamAssembler.begin
  rw [if_neg]
  · rfl
  · cases hkind : source.kind <;> simp_all [new, beginFrame, fence]

theorem chunk_accepted (chunks : List (List Json)) (chunk : List Json)
    (hcount : chunks.length < SESSION_HISTORY_MAX_MESSAGES)
    (hitems : (chunks ++ [chunk]).flatten.length ≤ source.messages.length)
    (hbytes : ((chunks ++ [chunk]).map sessionHistoryMessagesBytes).sum ≤
      SESSION_HISTORY_MAX_STREAM_BYTES) :
    (source.assembled chunks).chunk (source.chunkFrame chunks.length chunk) =
      .ok (source.assembled (chunks ++ [chunk])) := by
  simp only [List.flatten_append, List.length_append, List.flatten_singleton] at hitems
  simp only [List.map_append, List.sum_append, List.map_cons, List.map_nil, List.sum_cons,
    List.sum_nil, Nat.add_zero] at hbytes
  have hsafe : isSafeInteger (sessionHistoryMessagesBytes chunk) = true := by
    have hlimit : SESSION_HISTORY_MAX_STREAM_BYTES ≤ 2 ^ 53 - 1 := by decide
    simp only [isSafeInteger, decide_eq_true_eq]
    omega
  have hchunk : ¬SESSION_HISTORY_MAX_STREAM_BYTES < sessionHistoryMessagesBytes chunk := by omega
  have hloaded : ¬source.messages.length < chunks.flatten.length + chunk.length := by omega
  have hstream : ¬SESSION_HISTORY_MAX_STREAM_BYTES <
      (chunks.map sessionHistoryMessagesBytes).sum + sessionHistoryMessagesBytes chunk := by omega
  simp only [SessionHistoryStreamAssembler.chunk, assembled, chunkFrame, beginFrame, history, ne_eq,
    not_true_eq_false, if_false, decide_false, Bool.or_self, Bool.false_eq_true, hsafe,
    Bool.not_true, hchunk, hloaded, hstream, Nat.not_le.mpr hcount]
  simp

theorem end_accepted {chunks : List (List Json)} (hchunks : chunks.flatten = source.messages) :
    (source.assembled chunks).«end» (source.endFrame chunks) =
      .ok { beginFrame := source.beginFrame, endFrame := source.endFrame chunks,
            messages := source.messages } := by
  simp [SessionHistoryStreamAssembler.«end», assembled, endFrame, beginFrame, history, hchunks,
    Function.comp_def]

theorem feed_accepted (done left : List (List Json))
    (hcount : (done ++ left).length ≤ SESSION_HISTORY_MAX_MESSAGES)
    (hchunks : (done ++ left).flatten = source.messages)
    (hbytes : ((done ++ left).map sessionHistoryMessagesBytes).sum ≤
      SESSION_HISTORY_MAX_STREAM_BYTES) :
    (source.assembled done).feed (source.chunkFramesFrom done.length left ++
        [.end (source.endFrame (done ++ left))]) =
      .ok (some { beginFrame := source.beginFrame, endFrame := source.endFrame (done ++ left),
                  messages := source.messages }) := by
  induction left generalizing done with
  | nil =>
    rw [List.append_nil] at hchunks ⊢
    rw [chunkFramesFrom, List.nil_append, SessionHistoryStreamAssembler.feed,
      source.end_accepted hchunks]
    rfl
  | cons chunk rest ih =>
    have hassoc : done ++ chunk :: rest = (done ++ [chunk]) ++ rest := by simp
    rw [hassoc] at hcount hchunks hbytes ⊢
    have hlength : (done ++ [chunk]).length = done.length + 1 := by simp
    have haccepted := source.chunk_accepted done chunk
      (by rw [List.length_append, hlength] at hcount; omega)
      (by rw [← hchunks, @List.flatten_append _ (done ++ [chunk]), List.length_append]
          exact Nat.le_add_right _ _)
      (by rw [List.map_append, List.sum_append] at hbytes; omega)
    rw [chunkFramesFrom, List.cons_append, SessionHistoryStreamAssembler.feed, haccepted,
      ← hlength]
    exact ih (done ++ [chunk]) hcount hchunks hbytes

/-! ## No other sequence of frames completes -/

/-- A chunk frame of another runtime, snapshot or request. -/
def IsForeignChunk : SessionHistoryFrame → Prop
  | .chunk frame => frame.fence ≠ source.fence
  | _ => False

theorem isPrefix_of_feed (done left : List (List Json)) {fed : List SessionHistoryFrame}
    {assembler : SessionHistoryStreamAssembler} {completed : CompletedSessionHistoryStream}
    (hbegin : assembler.beginFrame = some source.beginFrame)
    (hindex : assembler.nextChunkIndex = done.length) (hframes : ∀ frame ∈ fed,
      frame ∈ source.frames (done ++ left) ∨ source.IsForeignChunk frame)
    (hfeed : assembler.feed fed = .ok (some completed)) :
    source.chunkFramesFrom done.length left ++ [.end (source.endFrame (done ++ left))] <+: fed := by
  induction fed generalizing assembler done left with
  | nil => cases hfeed
  | cons frame rest ih =>
    obtain ⟨hframe, hrest⟩ := List.forall_mem_cons.mp hframes
    cases frame with
    | begin begin =>
      simp [SessionHistoryStreamAssembler.feed, SessionHistoryStreamAssembler.begin, hbegin, bind,
        Except.bind] at hfeed
    | chunk chunk =>
      rw [SessionHistoryStreamAssembler.feed] at hfeed
      cases hchunk : assembler.chunk chunk with
      | error => rw [hchunk] at hfeed; cases hfeed
      | ok next =>
        rw [hchunk] at hfeed
        obtain ⟨hfence, hnumber, hbegin', hindex'⟩ :=
          SessionHistoryStreamAssembler.chunk_ok hbegin hchunk
        -- A frame of this stream that is accepted is the frame of the next chunk.
        have hsent : SessionHistoryFrame.chunk chunk ∈ source.frames (done ++ left) :=
          hframe.resolve_right fun hforeign => hforeign hfence
        obtain ⟨before, found, after, hsplit, hfound⟩ : ∃ before found after,
            done ++ left = before ++ found :: after ∧
              chunk = source.chunkFrame before.length found := by
          rw [frames, List.cons_append, List.mem_cons, List.mem_append] at hsent
          rcases hsent with hfirst | hmember | hlast
          · cases hfirst
          · obtain ⟨before, found, after, hsplit, hfound⟩ := source.mem_chunkFramesFrom hmember
            rw [Nat.zero_add] at hfound
            exact ⟨before, found, after, hsplit, SessionHistoryFrame.chunk.inj hfound⟩
          · simp at hlast
        have hlength : before.length = done.length := by
          rw [hfound, hindex] at hnumber
          exact hnumber
        obtain ⟨rfl, rfl⟩ := List.append_inj hsplit hlength.symm
        have hassoc : done ++ found :: after = (done ++ [found]) ++ after := by simp
        rw [hassoc] at hrest ⊢
        have hnumber' : next.nextChunkIndex = (done ++ [found]).length := by
          rw [hindex', hindex, List.length_append]
          rfl
        have hprefix := ih _ _ hbegin' hnumber' hrest hfeed
        rw [List.length_append, List.length_singleton] at hprefix
        rw [chunkFramesFrom, List.cons_append, hfound]
        exact (List.prefix_cons_inj _).mpr hprefix
    | «end» last =>
      rw [SessionHistoryStreamAssembler.feed] at hfeed
      cases hend : assembler.«end» last with
      | error => rw [hend] at hfeed; cases hfeed
      | ok =>
        have hcount := SessionHistoryStreamAssembler.end_ok hend
        obtain rfl : last = source.endFrame (done ++ left) := by
          rcases hframe with hsent | hforeign
          · rw [frames, List.cons_append, List.mem_cons, List.mem_append] at hsent
            rcases hsent with hfirst | hmember | hlast
            · cases hfirst
            · obtain ⟨_, _, _, _, hfound⟩ := source.mem_chunkFramesFrom hmember
              cases hfound
            · simpa using hlast
          · exact hforeign.elim
        have hnone : left = [] := by
          rw [hindex, endFrame] at hcount
          simpa using hcount
        subst hnone
        rw [chunkFramesFrom, List.nil_append]
        exact (List.prefix_cons_inj _).mpr List.nil_prefix

end HistoryStreamSource

/-- **History streams arrive unchanged.** The messages of a snapshot or page that is sent as a whole
are cut into chunks that hold them in order, each within its limits or a single admitted message;
the frames complete in the browser with exactly these messages; and among the sequences of these
frames and of chunk frames of other streams, only those that begin with the sent frames complete. -/
theorem history_stream_round_trip (guards : HistoryFrameGuards) (connection : HistoryConnection)
    (source : HistoryStreamSource) (frames : List SessionHistoryFrame)
    (h : streamHistory guards connection source = some frames) :
    (∃ chunks, splitHistoryMessages source.messages connection.maxHistoryChunkBytes
        connection.maxHistorySingleMessageBytes = .ok chunks ∧
      frames = source.frames chunks ∧ chunks.flatten = source.messages ∧
      ∀ chunk ∈ chunks, IsHistoryChunk connection.maxHistoryChunkBytes
        connection.maxHistorySingleMessageBytes chunk) ∧
    (∃ completed, (new source.kind).feed frames = .ok (some completed) ∧
      completed.messages = source.messages) ∧
    ∀ fed completed,
      (∀ frame ∈ fed, frame ∈ frames ∨ source.IsForeignChunk frame) →
      (new source.kind).feed fed = .ok (some completed) → frames <+: fed := by
  obtain ⟨chunks, hsplit, rfl, hguards, hwire⟩ := streamHistory_spec h
  obtain ⟨hflatten, hchunks⟩ := splitHistoryMessages_spec hsplit
  have hbegin := source.begin_accepted (hguards _ (List.mem_cons_self ..))
  refine ⟨⟨chunks, hsplit, rfl, hflatten, hchunks⟩, ?_, ?_⟩
  · have hcount : chunks.length ≤ SESSION_HISTORY_MAX_MESSAGES := by
      have hend := hguards (.end (source.endFrame chunks)) (by simp [HistoryStreamSource.frames])
      simp only [isHistoryFrame, HistoryStreamSource.endFrame, Bool.and_eq_true] at hend
      exact of_decide_eq_true hend.1.1.1.1.1.1.2
    have hbytes : (chunks.map sessionHistoryMessagesBytes).sum ≤
        SESSION_HISTORY_MAX_STREAM_BYTES := by
      have hle := source.messagesBytes_le_frames 0 chunks
      simp only [HistoryStreamSource.frames, List.cons_append, List.map_cons, List.map_append,
        List.sum_cons, List.sum_append] at hwire
      omega
    refine ⟨{ beginFrame := source.beginFrame, endFrame := source.endFrame chunks,
              messages := source.messages }, ?_, rfl⟩
    rw [HistoryStreamSource.frames, List.cons_append, SessionHistoryStreamAssembler.feed, hbegin]
    exact source.feed_accepted [] chunks hcount hflatten hbytes
  · intro fed completed hframes hfeed
    cases fed with
    | nil => cases hfeed
    | cons frame rest =>
      obtain ⟨hframe, hrest⟩ := List.forall_mem_cons.mp hframes
      cases frame with
      | begin first =>
        -- The only begin frame of the stream is the sent one.
        obtain rfl : first = source.beginFrame := by
          rcases hframe with hsent | hforeign
          · rw [HistoryStreamSource.frames, List.cons_append, List.mem_cons,
              List.mem_append] at hsent
            rcases hsent with hfirst | hmember | hlast
            · exact SessionHistoryFrame.begin.inj hfirst
            · obtain ⟨_, _, _, _, hfound⟩ := source.mem_chunkFramesFrom hmember
              cases hfound
            · simp at hlast
          · exact hforeign.elim
        rw [SessionHistoryStreamAssembler.feed, hbegin] at hfeed
        rw [HistoryStreamSource.frames, List.cons_append]
        exact (List.prefix_cons_inj _).mpr
          (source.isPrefix_of_feed [] chunks rfl rfl hrest hfeed)
      | chunk first => cases hfeed
      | «end» last => cases hfeed

/-- Guards that admit every message. -/
def openHistoryGuards : HistoryFrameGuards where
  serverEpoch := js "e"
  isMessage := fun _ => true
  isBeginMembers := fun _ _ => true

/-- A page of two messages that do not fit one chunk together. -/
def sampleHistorySource : HistoryStreamSource where
  identity := { serverEpoch := js "e", sessionHandle := js "s", workspaceId := js "w",
                generation := 1 }
  snapshotId := js "p"
  requestId := some (js "r")
  members := [(js "asOfSeq", countJson 3), (js "cursor", .str (js "c"))]
  messages := [.str (js "one"), .str (js "two")]
  totalMessages := 5
  totalBytes := 90
  nextCursor := none

/-- A connection with room for eight bytes of messages in a chunk. -/
def sampleHistoryConnection : HistoryConnection where
  negotiatedMaxServerFrameBytes := 256 * 1024 + 8
  outboundHistoryQueuedBytes := 0

/-- The page is sent in two chunks and arrives. -/
theorem history_stream_round_trip_page :
    ∃ frames, streamHistory openHistoryGuards sampleHistoryConnection sampleHistorySource =
      some frames ∧
    (∃ chunks, splitHistoryMessages sampleHistorySource.messages
        sampleHistoryConnection.maxHistoryChunkBytes
        sampleHistoryConnection.maxHistorySingleMessageBytes = .ok chunks ∧
      frames = sampleHistorySource.frames chunks ∧
      chunks.flatten = sampleHistorySource.messages ∧
      ∀ chunk ∈ chunks, IsHistoryChunk sampleHistoryConnection.maxHistoryChunkBytes
        sampleHistoryConnection.maxHistorySingleMessageBytes chunk) ∧
    (∃ completed, (new sampleHistorySource.kind).feed frames = .ok (some completed) ∧
      completed.messages = sampleHistorySource.messages) ∧
    ∀ fed completed,
      (∀ frame ∈ fed, frame ∈ frames ∨ sampleHistorySource.IsForeignChunk frame) →
      (new sampleHistorySource.kind).feed fed = .ok (some completed) → frames <+: fed := by
  have hsent : (streamHistory openHistoryGuards sampleHistoryConnection
      sampleHistorySource).isSome = true := by
    decide +kernel
  obtain ⟨frames, hframes⟩ := Option.isSome_iff_exists.mp hsent
  exact ⟨frames, hframes, history_stream_round_trip _ _ _ frames hframes⟩

end PiAgentWeb
