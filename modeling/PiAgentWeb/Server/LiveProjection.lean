import PiAgentWeb.Library.InsertionMap
import PiAgentWeb.UI.ViewModels

/-!
# The live projection of a Session

The server keeps, for one process incarnation, a settled message base and the ordered event
suffix that reconstructs live state. Publication is two-phase: a batch of inputs is reduced to a
candidate on a copy, and the candidate is committed under its token only if no other commit,
phase change or compaction has happened in between. Compatible adjacent deltas are merged as they
enter the suffix.
-/

namespace PiAgentWeb

/-- `SessionLiveRuntimePhase`. -/
inductive SessionLiveRuntimePhase where
  | starting | idle | running | waitingUi | crashed | dormant
  deriving DecidableEq

/-- `SessionLiveProjectionIdentity`. -/
structure SessionLiveProjectionIdentity where
  serverEpoch : JsString
  sessionHandle : JsString
  workspaceId : JsString
  generation : ℕ
  deriving DecidableEq

/-- `SessionLiveProjectionLimits`. -/
structure SessionLiveProjectionLimits where
  maxSettledMessageItems : ℕ
  maxSettledMessageBytes : ℕ
  maxLiveEventItems : ℕ
  maxLiveEventBytes : ℕ
  maxQueueItems : ℕ
  maxExtensionItems : ℕ
  maxExtensionBytes : ℕ
  /-- Projection payload budget, leaving room for the runtime and snapshot envelope. -/
  maxSnapshotBytes : ℕ

/-- The boundary a `SessionLiveProjectionLimitError` names. -/
inductive LimitBoundary where
  | settledMessages | liveEvents | queue | extensionState | snapshot
  deriving DecidableEq

/-- The errors of the projection. -/
inductive SessionLiveProjectionError where
  | identityMismatch
  | limitExceeded (boundary : LimitBoundary)
  | payloadInvalid
  deriving DecidableEq

/-- The product guards and the JSON form of the payloads. -/
structure PayloadCodec (J T : Type) where
  guardMessage : SessionMessage J T → Bool
  guardEvent : SessionEvent J T → Bool
  guardExtensionRequest : ExtensionUiRequest J T → Bool
  messageJson : SessionMessage J T → Json
  eventJson : SessionEvent J T → Json
  extensionRequestJson : ExtensionUiRequest J T → Json

/-- `SessionProjectionProductSchema`, without the guards and the merge that it shares with the
projection. A logical byte count that exceeds its limit is `none`. -/
structure SessionProjectionProductSchema (J T : Type) where
  serverEpoch : Option JsString
  maxNormalizedEventWireBytes : ℕ
  maxProjectionSuffixWireBytes : ℕ
  maxSnapshotCanonicalWireBytes : ℕ
  maxActiveTurnLogicalBytes : ℕ
  activeTurnEventLogicalBytes : SessionEvent J T → Option ℕ
  extensionRequestLogicalBytes : ExtensionUiRequest J T → Option ℕ

variable {J T : Type}

/-- `mergeCompatibleDelta`: the merge of two deltas of one type and content index, if the guard
accepts it. The later event gives everything but the text. -/
def mergeCompatibleDelta (guardEvent : SessionEvent J T → Bool) :
    SessionEvent J T → SessionEvent J T → Option (SessionEvent J T)
  | .messageUpdate previous, .messageUpdate next =>
    match previous.assistantMessageEvent, next.assistantMessageEvent with
    | .delta previousType previousIndex previousDelta, .delta nextType nextIndex nextDelta =>
      if previousType ≠ nextType ∨ previousIndex ≠ nextIndex then none
      else
        let merged : SessionEvent J T := .messageUpdate
          { next with
            assistantMessageEvent := .delta nextType nextIndex (previousDelta ++ nextDelta) }
        if guardEvent merged then some merged else none
    | _, _ => none
  | _, _ => none

/-- `queueUpdate`. -/
def queueUpdate : SessionEvent J T → Option MessageQueue
  | .queueUpdate steering followUp => some { steering := steering, followUp := followUp }
  | _ => none

/-- `SessionLiveProjectionInput`. -/
inductive SessionLiveProjectionInput (J T : Type) where
  | event (event : SessionEvent J T)
  | extensionUiRequest (request : ExtensionUiRequest J T)
  | extensionUiClosed (requestId : JsString)

/-- An event frame of the live suffix; its identity is the projection's. -/
structure SessionLiveProjectionEventFrame (J T : Type) where
  seq : ℕ
  event : SessionEvent J T

/-- `ProjectionCandidate`: the mutable part of a projection. Pending Extension requests are an
insertion-ordered map. -/
structure ProjectionCandidate (J T : Type) where
  asOfSeq : ℕ
  projectionEvents : List (SessionLiveProjectionEventFrame J T)
  projectionEventFrameBytes : List ℕ
  projectionEventBytes : ℕ
  queue : MessageQueue
  pendingExtensionRequests : List (JsString × ExtensionUiRequest J T)
  runtimePhase : SessionLiveRuntimePhase

/-- The `extension_ui_closed` branch of `reduceCandidate`: the request is no longer pending. -/
def ProjectionCandidate.closeExtension (candidate : ProjectionCandidate J T)
    (requestId : JsString) : ProjectionCandidate J T :=
  { candidate with
    pendingExtensionRequests :=
      candidate.pendingExtensionRequests.filter fun entry => entry.1 != requestId }

/-- `PreparedBatchState`. -/
structure PreparedBatchState (J T : Type) where
  revision : ℕ
  firstSeq : ℕ
  lastSeq : ℕ
  count : ℕ
  candidate : ProjectionCandidate J T

/-- `PreparedCompactionState`. -/
structure PreparedCompactionState (J T : Type) where
  revision : ℕ
  settledMessages : List (SessionMessage J T)
  settledMessageBytes : ℕ
  baseSeq : ℕ

/-- A compaction token: the sequence it expects and the revision it was issued at. -/
structure CompactionToken where
  identity : SessionLiveProjectionIdentity
  expectedAsOfSeq : ℕ
  revision : ℕ

/-- `SessionLiveProjection`. A token object is the number under which its state is kept in the
token maps; `nextToken` is the next unused number. -/
structure SessionLiveProjection (J T : Type) where
  identity : SessionLiveProjectionIdentity
  limits : SessionLiveProjectionLimits
  codec : PayloadCodec J T
  schema : Option (SessionProjectionProductSchema J T)
  compactionTokens : InsertionMap ℕ CompactionToken
  preparedBatches : InsertionMap ℕ (PreparedBatchState J T)
  preparedCompactions : InsertionMap ℕ (PreparedCompactionState J T)
  nextToken : ℕ
  revision : ℕ
  baseSeq : ℕ
  settledMessages : List (SessionMessage J T)
  settledMessageBytes : ℕ
  /-- The committed suffix, its queue, its pending requests and the runtime phase. -/
  live : ProjectionCandidate J T

/-- A string field of a record. -/
def strField (name : String) (value : JsString) : JsString × Json := (js name, .str value)

/-- A number field of a record. -/
def natField (name : String) (value : ℕ) : JsString × Json := (js name, .num (jsNat value))

/-- The fields of the identity. -/
def SessionLiveProjectionIdentity.fields (identity : SessionLiveProjectionIdentity) :
    List (JsString × Json) :=
  [strField "serverEpoch" identity.serverEpoch, strField "sessionHandle" identity.sessionHandle,
    strField "workspaceId" identity.workspaceId, natField "generation" identity.generation]

/-- The wire text of a phase. -/
def SessionLiveRuntimePhase.text : SessionLiveRuntimePhase → JsString
  | .starting => js "starting"
  | .idle => js "idle"
  | .running => js "running"
  | .waitingUi => js "waiting_ui"
  | .crashed => js "crashed"
  | .dormant => js "dormant"

/-- The JSON form of the queue. -/
def MessageQueue.json (queue : MessageQueue) : Json :=
  .obj [(js "steering", .arr (queue.steering.map .str)),
    (js "followUp", .arr (queue.followUp.map .str))]

/-- `serializedArrayContentsBytes`. -/
def serializedArrayContentsBytes (serializedArrayBytes : ℕ) : ℕ := serializedArrayBytes - 2

/-- `serializedItemsArrayContentsBytes`. -/
def serializedItemsArrayContentsBytes (serializedItemBytes itemCount : ℕ) : ℕ :=
  if itemCount = 0 then 0 else serializedItemBytes + itemCount - 1

namespace SessionLiveProjection

/-- The JSON form of an event frame. -/
def frameJson (p : SessionLiveProjection J T) (frame : SessionLiveProjectionEventFrame J T) :
    Json :=
  .obj ([strField "type" (js "event")] ++ p.identity.fields ++
    [natField "seq" frame.seq, (js "event", p.codec.eventJson frame.event)])

/-- `maxLiveEventWireBytes`. -/
def maxLiveEventWireBytes (p : SessionLiveProjection J T) : ℕ :=
  match p.schema with
  | some schema => min p.limits.maxLiveEventBytes schema.maxProjectionSuffixWireBytes
  | none => p.limits.maxLiveEventBytes

/-- `maxSnapshotWireBytes`. -/
def maxSnapshotWireBytes (p : SessionLiveProjection J T) : ℕ :=
  match p.schema with
  | some schema => min p.limits.maxSnapshotBytes schema.maxSnapshotCanonicalWireBytes
  | none => p.limits.maxSnapshotBytes

/-- The phase a snapshot reports: an unanswered Extension request waits for the UI. -/
def snapshotPhase (pending : List (JsString × ExtensionUiRequest J T))
    (runtimePhase : SessionLiveRuntimePhase) : SessionLiveRuntimePhase :=
  if pending.isEmpty then runtimePhase else .waitingUi

/-- `snapshotRuntimePhase`. -/
def snapshotRuntimePhase (p : SessionLiveProjection J T) : SessionLiveRuntimePhase :=
  snapshotPhase p.live.pendingExtensionRequests p.live.runtimePhase

/-- The JSON form of the pending requests. -/
def pendingJson (p : SessionLiveProjection J T)
    (pending : List (JsString × ExtensionUiRequest J T)) : Json :=
  .arr (pending.map fun entry => p.codec.extensionRequestJson entry.2)

/-- The size of the snapshot that a candidate and a settled base would give, as
`assertSnapshotFits` estimates it. -/
def estimatedSnapshotBytes (p : SessionLiveProjection J T) (baseSeq settledMessageBytes : ℕ)
    (candidate : ProjectionCandidate J T) : ℕ :=
  let scaffold := Json.obj (p.identity.fields ++
    [natField "baseSeq" baseSeq, natField "asOfSeq" candidate.asOfSeq,
      strField "runtimePhase"
        (snapshotPhase candidate.pendingExtensionRequests candidate.runtimePhase).text,
      (js "settledMessages", .arr []), (js "projectionEvents", .arr []),
      (js "queue", candidate.queue.json), (js "pendingExtensionRequests", .arr []),
      (js "stickyExtensionState", .arr [])])
  scaffold.byteLength + serializedArrayContentsBytes settledMessageBytes +
    serializedItemsArrayContentsBytes candidate.projectionEventBytes
      candidate.projectionEvents.length +
    serializedArrayContentsBytes (p.pendingJson candidate.pendingExtensionRequests).byteLength

/-- `assertSnapshotFits`. -/
def assertSnapshotFits (p : SessionLiveProjection J T) (baseSeq settledMessageBytes : ℕ)
    (candidate : ProjectionCandidate J T) : Except SessionLiveProjectionError Unit :=
  if p.estimatedSnapshotBytes baseSeq settledMessageBytes candidate > p.maxSnapshotWireBytes then
    .error (.limitExceeded .snapshot)
  else .ok ()

/-- `assertExtensionStateFits`. -/
def assertExtensionStateFits (p : SessionLiveProjection J T)
    (pending : List (JsString × ExtensionUiRequest J T)) :
    Except SessionLiveProjectionError Unit :=
  if pending.length > p.limits.maxExtensionItems ∨
      (p.pendingJson pending).byteLength > p.limits.maxExtensionBytes then
    .error (.limitExceeded .extensionState)
  else .ok ()

/-- The event that replaces the last frame when an input event is merged into it: the last frame
must be the last committed input. -/
def mergedEvent (p : SessionLiveProjection J T) (candidate : ProjectionCandidate J T)
    (event : SessionEvent J T) : Option (SessionEvent J T) :=
  match candidate.projectionEvents.getLast? with
  | some previousFrame =>
    if previousFrame.seq = candidate.asOfSeq then
      mergeCompatibleDelta p.codec.guardEvent previousFrame.event event
    else none
  | none => none

/-- The limits one event frame has to meet by itself. -/
def assertFrameFits (p : SessionLiveProjection J T)
    (frame : SessionLiveProjectionEventFrame J T) (frameBytes : ℕ) :
    Except SessionLiveProjectionError Unit :=
  match p.schema with
  | none => .ok ()
  | some schema =>
    if (schema.activeTurnEventLogicalBytes frame.event).isNone ∨
        frameBytes > schema.maxNormalizedEventWireBytes then
      .error (.limitExceeded .liveEvents)
    else .ok ()

/-- The event branch of `reduceCandidate`, before the snapshot check. -/
def reduceEvent (p : SessionLiveProjection J T) (candidate : ProjectionCandidate J T)
    (event : SessionEvent J T) :
    Except SessionLiveProjectionError (ProjectionCandidate J T) := do
  let nextSeq := candidate.asOfSeq + 1
  if !p.codec.guardEvent event then throw .payloadInvalid
  let merged := p.mergedEvent candidate event
  let nextFrame : SessionLiveProjectionEventFrame J T :=
    { seq := nextSeq, event := merged.getD event }
  let frameBytes := (p.frameJson nextFrame).byteLength
  p.assertFrameFits nextFrame frameBytes
  let events :=
    if merged.isSome then candidate.projectionEvents.dropLast else candidate.projectionEvents
  let frameByteList :=
    if merged.isSome then candidate.projectionEventFrameBytes.dropLast
    else candidate.projectionEventFrameBytes
  let previousFrameBytes :=
    if merged.isSome then (candidate.projectionEventFrameBytes.getLast?).getD 0 else 0
  let nextEventBytes := candidate.projectionEventBytes - previousFrameBytes + frameBytes
  if events.length + 1 > p.limits.maxLiveEventItems ∨
      nextEventBytes > p.maxLiveEventWireBytes then
    throw (.limitExceeded .liveEvents)
  let queue := (queueUpdate event).getD candidate.queue
  if queue.steering.length > p.limits.maxQueueItems ∨
      queue.followUp.length > p.limits.maxQueueItems then
    throw (.limitExceeded .queue)
  return { candidate with
    projectionEvents := events ++ [nextFrame]
    projectionEventFrameBytes := frameByteList ++ [frameBytes]
    projectionEventBytes := nextEventBytes
    queue := queue }

/-- The Extension request branch of `reduceCandidate`: a blocking request becomes pending, as the
last one under its id. -/
def reduceExtensionRequest (p : SessionLiveProjection J T) (candidate : ProjectionCandidate J T)
    (request : ExtensionUiRequest J T) :
    Except SessionLiveProjectionError (ProjectionCandidate J T) := do
  if !p.codec.guardExtensionRequest request then throw .payloadInvalid
  if p.schema.any fun schema => (schema.extensionRequestLogicalBytes request).isNone then
    throw (.limitExceeded .extensionState)
  let pending :=
    if request.body.blocking then
      (candidate.pendingExtensionRequests.filter fun entry => entry.1 != request.id) ++
        [(request.id, request)]
    else candidate.pendingExtensionRequests
  p.assertExtensionStateFits pending
  return { candidate with pendingExtensionRequests := pending }

/-- The branch of `reduceCandidate` for the type of the input. -/
def reduceInput (p : SessionLiveProjection J T) (candidate : ProjectionCandidate J T) :
    SessionLiveProjectionInput J T →
      Except SessionLiveProjectionError (ProjectionCandidate J T)
  | .event event => p.reduceEvent candidate event
  | .extensionUiRequest request => p.reduceExtensionRequest candidate request
  | .extensionUiClosed requestId => .ok (candidate.closeExtension requestId)

/-- `reduceCandidate`: one input takes one sequence number. -/
def reduceCandidate (p : SessionLiveProjection J T)
    (runtimePhase : Option SessionLiveRuntimePhase) (candidate : ProjectionCandidate J T)
    (input : SessionLiveProjectionInput J T) :
    Except SessionLiveProjectionError (ProjectionCandidate J T) := do
  let nextSeq := candidate.asOfSeq + 1
  if !isSafeInteger nextSeq then throw (.limitExceeded .liveEvents)
  let reduced ← p.reduceInput candidate input
  let next := { reduced with
    asOfSeq := nextSeq
    runtimePhase := runtimePhase.getD candidate.runtimePhase }
  p.assertSnapshotFits p.baseSeq p.settledMessageBytes next
  return next

/-- The constructor. The identity and sequence checks, the epoch of the schema and the settled
messages come first; the suffix starts empty at the base. -/
def create (identity : SessionLiveProjectionIdentity) (limits : SessionLiveProjectionLimits)
    (codec : PayloadCodec J T) (schema : Option (SessionProjectionProductSchema J T))
    (settledMessages : List (SessionMessage J T)) (baseSeq : ℕ)
    (runtimePhase : SessionLiveRuntimePhase) :
    Except SessionLiveProjectionError (SessionLiveProjection J T) := do
  if identity.serverEpoch.isEmpty || identity.sessionHandle.isEmpty ||
      identity.workspaceId.isEmpty || !isSafeInteger identity.generation then
    throw .identityMismatch
  if !isSafeInteger baseSeq then throw (.limitExceeded .liveEvents)
  if schema.any fun schema => schema.serverEpoch.any fun epoch => epoch != identity.serverEpoch then
    throw .payloadInvalid
  if !settledMessages.all codec.guardMessage then throw .payloadInvalid
  let settledMessageBytes := (Json.arr (settledMessages.map codec.messageJson)).byteLength
  if settledMessages.length > limits.maxSettledMessageItems ∨
      settledMessageBytes > limits.maxSettledMessageBytes then
    throw (.limitExceeded .settledMessages)
  let p : SessionLiveProjection J T :=
    { identity := identity, limits := limits, codec := codec, schema := schema,
      compactionTokens := .empty, preparedBatches := .empty, preparedCompactions := .empty,
      nextToken := 0,
      revision := 0, baseSeq := baseSeq, settledMessages := settledMessages,
      settledMessageBytes := settledMessageBytes,
      live :=
        { asOfSeq := baseSeq, projectionEvents := [], projectionEventFrameBytes := [],
          projectionEventBytes := 0, queue := { steering := [], followUp := [] },
          pendingExtensionRequests := [], runtimePhase := runtimePhase } }
  p.assertSnapshotFits baseSeq settledMessageBytes p.live
  return p

/-- `prepareBatch`: reduces the inputs on a copy and issues a token. `prepareCommit` is the batch
of one input. -/
def prepareBatch (p : SessionLiveProjection J T) (identity : SessionLiveProjectionIdentity)
    (inputs : List (SessionLiveProjectionInput J T))
    (runtimePhase : Option SessionLiveRuntimePhase) :
    Except SessionLiveProjectionError (SessionLiveProjection J T × ℕ) := do
  if identity ≠ p.identity then throw .identityMismatch
  if inputs.isEmpty then throw .payloadInvalid
  if !isSafeInteger (p.live.asOfSeq + 1) || !isSafeInteger (p.live.asOfSeq + inputs.length) then
    throw (.limitExceeded .liveEvents)
  let candidate ← inputs.foldlM (p.reduceCandidate runtimePhase) p.live
  let prepared : PreparedBatchState J T :=
    { revision := p.revision, firstSeq := p.live.asOfSeq + 1, lastSeq := candidate.asOfSeq,
      count := inputs.length, candidate := candidate }
  return ({ p with
    preparedBatches := p.preparedBatches.insert p.nextToken prepared
    nextToken := p.nextToken + 1 }, p.nextToken)

/-- The eligibility test of `eligiblePreparedBatch`. -/
def batchEligible (p : SessionLiveProjection J T) (prepared : PreparedBatchState J T) : Bool :=
  prepared.revision == p.revision && prepared.firstSeq == p.live.asOfSeq + 1 &&
    prepared.lastSeq == prepared.candidate.asOfSeq &&
    prepared.count + prepared.firstSeq == prepared.lastSeq + 1

/-- `commitPreparedBatch`: the candidate becomes live if its token is still eligible; the token is
spent in any case. -/
def commitPreparedBatch (p : SessionLiveProjection J T) (token : ℕ) :
    SessionLiveProjection J T × Option ℕ :=
  match p.preparedBatches.get? token with
  | none => (p, none)
  | some prepared =>
    let spent := { p with preparedBatches := p.preparedBatches.erase token }
    if p.batchEligible prepared then
      ({ spent with live := prepared.candidate, revision := p.revision + 1 },
        some prepared.candidate.asOfSeq)
    else (spent, none)

/-- `setRuntimePhase`. -/
def setRuntimePhase (p : SessionLiveProjection J T) (identity : SessionLiveProjectionIdentity)
    (phase : SessionLiveRuntimePhase) :
    Except SessionLiveProjectionError (SessionLiveProjection J T) := do
  if identity ≠ p.identity then throw .identityMismatch
  let live := { p.live with runtimePhase := phase }
  p.assertSnapshotFits p.baseSeq p.settledMessageBytes live
  return { p with live := live, revision := p.revision + 1 }

/-- `beginIdleBaseCompaction`. -/
def beginIdleBaseCompaction (p : SessionLiveProjection J T) :
    SessionLiveProjection J T × Option ℕ :=
  if p.snapshotRuntimePhase ≠ .idle then (p, none)
  else
    let token : CompactionToken :=
      { identity := p.identity, expectedAsOfSeq := p.live.asOfSeq, revision := p.revision }
    ({ p with
      compactionTokens := p.compactionTokens.insert p.nextToken token
      nextToken := p.nextToken + 1 }, some p.nextToken)

/-- The checks of `prepareIdleBaseCompaction` on a captured token and the settled messages. -/
def compactionCandidate (p : SessionLiveProjection J T) (token : Option CompactionToken)
    (settledMessages : List (SessionMessage J T)) :
    Except SessionLiveProjectionError (Option (PreparedCompactionState J T)) :=
  match token with
  | none => .ok none
  | some captured =>
    if captured.identity ≠ p.identity ∨ captured.revision ≠ p.revision ∨
        captured.expectedAsOfSeq ≠ p.live.asOfSeq ∨ p.snapshotRuntimePhase ≠ .idle then .ok none
    else do
      if !settledMessages.all p.codec.guardMessage then throw .payloadInvalid
      let settledMessageBytes := (Json.arr (settledMessages.map p.codec.messageJson)).byteLength
      if settledMessages.length > p.limits.maxSettledMessageItems ∨
          settledMessageBytes > p.limits.maxSettledMessageBytes then
        throw (.limitExceeded .settledMessages)
      p.assertSnapshotFits p.live.asOfSeq settledMessageBytes
        { p.live with
          projectionEvents := [], projectionEventFrameBytes := [], projectionEventBytes := 0,
          runtimePhase := .idle }
      return some
        { revision := p.revision, settledMessages := settledMessages,
          settledMessageBytes := settledMessageBytes, baseSeq := p.live.asOfSeq }

/-- `prepareIdleBaseCompaction`: the compaction token is spent even when a check throws. -/
def prepareIdleBaseCompaction (p : SessionLiveProjection J T) (token : ℕ)
    (settledMessages : List (SessionMessage J T)) :
    SessionLiveProjection J T × Except SessionLiveProjectionError (Option ℕ) :=
  let spent := { p with compactionTokens := p.compactionTokens.erase token }
  match p.compactionCandidate (p.compactionTokens.get? token) settledMessages with
  | .error error => (spent, .error error)
  | .ok none => (spent, .ok none)
  | .ok (some prepared) =>
    ({ spent with
      preparedCompactions := p.preparedCompactions.insert p.nextToken prepared
      nextToken := p.nextToken + 1 }, .ok (some p.nextToken))

/-- `commitPreparedIdleBaseCompaction`: the settled messages become the base and the suffix
empty, if the token is still eligible. -/
def commitPreparedIdleBaseCompaction (p : SessionLiveProjection J T) (token : ℕ) :
    SessionLiveProjection J T × Bool :=
  match p.preparedCompactions.get? token with
  | none => (p, false)
  | some prepared =>
    let spent := { p with preparedCompactions := p.preparedCompactions.erase token }
    if prepared.revision = p.revision ∧ prepared.baseSeq = p.live.asOfSeq then
      ({ spent with
        settledMessages := prepared.settledMessages
        settledMessageBytes := prepared.settledMessageBytes
        baseSeq := prepared.baseSeq
        live := { p.live with
          projectionEvents := [], projectionEventFrameBytes := [], projectionEventBytes := 0 }
        revision := p.revision + 1 }, true)
    else (spent, false)

/-- The live events of a snapshot, in order. -/
def snapshotEvents (p : SessionLiveProjection J T) : List (SessionEvent J T) :=
  p.live.projectionEvents.map (·.event)

end SessionLiveProjection

end PiAgentWeb
