import PiAgentWeb.Server.RuntimeFrames

/-!
# A Session runtime

The part of `SessionRuntimeCore` that publishes frames: one process incarnation after another, each
generation with its own sequence numbers, live projection and replay ring. An operation that throws
returns the state it leaves behind together with the error. A projection object and a content owner
exist once in a generation, so an identity or a generation stands for the object.
-/

namespace PiAgentWeb

variable {J T : Type}

/-- What an operation of the runtime throws. -/
inductive RuntimeError where
  | rpc (error : RpcError)
  | projection (error : SessionLiveProjectionError)
  deriving DecidableEq

/-- The options of a runtime, with its product schema and adapter. -/
structure SessionRuntimeOptions (J T : Type) where
  codec : PayloadCodec J T
  schema : SessionProjectionProductSchema J T
  projectionLimits : SessionLiveProjectionLimits
  replayLimit : ℕ
  replayMaxBytes : ℕ
  transientBufferMaxBytes : ℕ
  extensionStateMaxBytes : ℕ
  extensionStateMaxItems : ℕ
  pendingDialogLimit : ℕ
  maxReplayFrameWireBytes : ℕ
  maxSnapshotLogicalBytes : ℕ
  /-- `guardSnapshot` and `snapshotLogicalBytes` accept the snapshot of a projection. -/
  snapshotFits : ProjectionCandidate J T → ExtensionState J T → Bool
  /-- The text `""` of a `set_editor_text` request. -/
  emptyText : T

/-- The accumulated size of the active turn. -/
structure TurnBudget where
  items : ℕ
  bytes : ℕ
  logicalBytes : ℕ
  deriving DecidableEq

/-- An active turn without events. -/
def TurnBudget.zero : TurnBudget := { items := 0, bytes := 0, logicalBytes := 0 }

/-- What keeps a runtime busy. A turn reservation is its id. -/
structure OperationalState where
  agentBusy : Bool
  compactionBusy : Bool
  idleBaseCompactionBusy : Bool
  activeQueueDepth : ℕ
  pendingTurnReservations : List ℕ
  nextTurnReservationId : ℕ
  queueReservationReleaseCutoff : ℕ
  activeTurnHeadroomReserved : Bool
  inFlight : ℕ
  deriving DecidableEq

/-- The phases of an identity transition. -/
inductive TransitionPhase where
  | awaitingResponse | verifying | applying
  deriving DecidableEq

/-- `TransitionStage`. The process token and the parent generation identify a stage. -/
structure TransitionStage (J T : Type) where
  phase : TransitionPhase
  frames : List (BufferedFrame J T)
  bytes : ℕ
  processToken : ℕ
  parentGeneration : ℕ

/-- `PreparedActiveEventPublication`. -/
structure PreparedActiveEventPublication (J T : Type) where
  projection : SessionLiveProjectionIdentity
  token : ℕ
  event : SessionEvent J T
  envelope : SessionReplayFrame J T
  turnBudget : TurnBudget
  replay : ReplayRing J T

/-- `ExtensionSemanticPlan`, without timers. -/
structure ExtensionSemanticPlan (J T : Type) where
  frames : List (BufferedFrame J T)
  extension : ExtensionState J T

/-- `PreparedExtensionSemanticOperation`. -/
structure PreparedExtensionSemanticOperation (J T : Type) where
  projection : SessionLiveProjectionIdentity
  token : ℕ
  semanticRevision : ℕ
  envelopes : List (SessionReplayFrame J T)
  replay : ReplayRing J T
  lastTransientSeq : ℕ
  extension : ExtensionState J T
  processToken : ℕ

/-- What `stopPromise` waits for: a manual stop, or the cleanup of a generation that was given
up. -/
inductive PendingStop where
  | stop | cleanup
  deriving DecidableEq

/-- `SessionRuntimeCore`. -/
structure SessionRuntimeCore (J T : Type) where
  identity : SessionLiveProjectionIdentity
  processToken : ℕ
  /-- The process, as the token of its spawn. -/
  proc : Option ℕ
  /-- `proc.running`: the leader of the process has not exited. -/
  leaderRunning : Bool
  stopPromise : Option PendingStop
  /-- `generationContentCleanupFailure` is set. -/
  cleanupFailed : Bool
  /-- `generationContentOwner`, as its generation. -/
  contentOwner : Option ℕ
  startupReady : Bool
  startupFrames : List (BufferedFrame J T)
  startupFrameBytes : ℕ
  transitionStage : Option (TransitionStage J T)
  liveProjection : Option (SessionLiveProjection J T)
  state : SessionLiveRuntimePhase
  lastSeq : ℕ
  lastTransientSeq : ℕ
  replay : ReplayRing J T
  turnBudget : TurnBudget
  operational : OperationalState
  extension : ExtensionState J T
  extensionSemanticRevision : ℕ
  snapshotOverflow : Bool
  /-- The identity of the next request object. -/
  nextObject : ℕ
  /-- History: the frames given out in this generation. -/
  published : List (SessionReplayFrame J T)

namespace SessionRuntimeCore

/-- A state and what the operation that left it returned or threw. -/
abbrev Result (J T A : Type) := SessionRuntimeCore J T × Except RuntimeError A

/-- The runtime goes on with the next operation unless the first one threw. -/
def Result.andThen {A B : Type} (result : Result J T A)
    (next : SessionRuntimeCore J T → A → Result J T B) : Result J T B :=
  match result with
  | (r, .ok value) => next r value
  | (r, .error error) => (r, .error error)

/-- `RpcError`. -/
def rpc (command message : String) : RuntimeError := .rpc ⟨command, message⟩

/-- A runtime before its first start. -/
def initial (identity : SessionLiveProjectionIdentity) : SessionRuntimeCore J T where
  identity := identity
  processToken := 0
  proc := none
  leaderRunning := false
  stopPromise := none
  cleanupFailed := false
  contentOwner := none
  startupReady := false
  startupFrames := []
  startupFrameBytes := 0
  transitionStage := none
  liveProjection := none
  state := .dormant
  lastSeq := 0
  lastTransientSeq := 0
  replay := .empty
  turnBudget := .zero
  operational :=
    { agentBusy := false, compactionBusy := false, idleBaseCompactionBusy := false,
      activeQueueDepth := 0, pendingTurnReservations := [], nextTurnReservationId := 0,
      queueReservationReleaseCutoff := 0, activeTurnHeadroomReserved := false, inFlight := 0 }
  extension := { pendingDialogs := .empty, stickyExtension := .empty }
  extensionSemanticRevision := 0
  snapshotOverflow := false
  nextObject := 0
  published := []

/-- `running`. -/
def running (r : SessionRuntimeCore J T) : Bool :=
  r.stopPromise.isSome || (r.proc.isSome && r.leaderRunning)

/-- `isCurrentGenerationContentOwner`. -/
def isCurrentGenerationContentOwner (r : SessionRuntimeCore J T) (processToken owner : ℕ) : Bool :=
  processToken = r.processToken && r.proc = some processToken && r.contentOwner = some owner &&
    owner = r.identity.generation

/-- `clearReplay`. -/
def clearReplay (r : SessionRuntimeCore J T) : SessionRuntimeCore J T :=
  { r with replay := .empty, lastTransientSeq := 0 }

/-- `closeAllDialogs` without frames: every close raises the semantic revision. -/
def dropDialogs (r : SessionRuntimeCore J T) : SessionRuntimeCore J T :=
  { r with
    extension := { r.extension with pendingDialogs := .empty }
    extensionSemanticRevision :=
      r.extensionSemanticRevision + r.extension.pendingDialogs.entries.length }

/-- `clearOwnedOperationalState` after its dialogs are closed. -/
def clearOwned (r : SessionRuntimeCore J T) : SessionRuntimeCore J T :=
  clearReplay
    { r with
      startupFrames := []
      startupFrameBytes := 0
      transitionStage := none
      extension := { pendingDialogs := .empty, stickyExtension := .empty }
      extensionSemanticRevision := r.extensionSemanticRevision + 1
      turnBudget := .zero
      operational :=
        { r.operational with
          agentBusy := false
          compactionBusy := false
          idleBaseCompactionBusy := false
          activeQueueDepth := 0
          pendingTurnReservations := []
          queueReservationReleaseCutoff := 0
          activeTurnHeadroomReserved := false
          inFlight := 0 } }

/-- `beginTerminalGenerationCleanup`, if there is something to clean up and no stop is pending. -/
def cleanupPromise (r : SessionRuntimeCore J T) (owned : Bool) : Option PendingStop :=
  if owned && r.stopPromise.isNone then some .cleanup else r.stopPromise

/-- `terminalizeProjection`, and the same steps of `terminalizeGenerationContentFailure`: the
process is given up and the generation ends. -/
def terminalizeProjection (r : SessionRuntimeCore J T) : SessionRuntimeCore J T :=
  { (dropDialogs
      { r with
        processToken := r.processToken + 1
        proc := none
        contentOwner := none }).clearOwned with
    startupReady := false
    state := .crashed
    liveProjection := none
    stopPromise := r.cleanupPromise (r.proc.isSome || r.contentOwner.isSome) }

/-- `terminalizeSnapshotOverflow`. -/
def terminalizeSnapshotOverflow (r : SessionRuntimeCore J T) : SessionRuntimeCore J T :=
  if r.snapshotOverflow ∧ r.state = .crashed then r
  else terminalizeProjection { r with snapshotOverflow := true }

/-- `normalizeProjectionError`: a limit of the projection ends the generation. -/
def normalizeProjectionError (r : SessionRuntimeCore J T) :
    SessionLiveProjectionError → SessionRuntimeCore J T × RuntimeError
  | .limitExceeded _ =>
    (if r.startupReady then r.terminalizeSnapshotOverflow else { r with snapshotOverflow := true },
      rpc "session_snapshot" "session_snapshot_overflow")
  | error => (r, .projection error)

/-- An operation that throws an error of the projection. -/
def throwProjection {A : Type} (r : SessionRuntimeCore J T) (error : SessionLiveProjectionError) :
    Result J T A :=
  ((r.normalizeProjectionError error).1, .error (r.normalizeProjectionError error).2)

/-- `eventStartsWork`. -/
def eventStartsWork : SessionEvent J T → Bool
  | .agentStart | .turnStart | .toolExecutionStart .. | .autoRetryStart .. => true
  | _ => false

/-- `eventSettlesWork`. -/
def eventSettlesWork : SessionEvent J T → Bool
  | .agentSettled => true
  | _ => false

/-- `activeTurnEventBytes`. -/
def activeTurnEventBytes (projection : SessionLiveProjection J T) (event : SessionEvent J T) : ℕ :=
  (projection.frameJson ⟨projection.live.asOfSeq + 1, event⟩).byteLength

/-- `activeTurnBudget`: half of what the projection may hold. -/
def activeTurnBudget (projection : SessionLiveProjection J T) : ℕ × ℕ :=
  (max 1 (projection.limits.maxLiveEventItems / 2), max 1 (projection.maxLiveEventWireBytes / 2))

/-- The items and bytes of the active turn with one more event, if they stay within the budget. -/
def turnWithEvent (r : SessionRuntimeCore J T) (projection : SessionLiveProjection J T)
    (event : SessionEvent J T) : Except SessionLiveProjectionError TurnBudget :=
  let reset := !r.operational.agentBusy && eventStartsWork event
  let items := (if reset then 0 else r.turnBudget.items) + 1
  let bytes := (if reset then 0 else r.turnBudget.bytes) + activeTurnEventBytes projection event
  if items > (activeTurnBudget projection).1 ∨ bytes > (activeTurnBudget projection).2 then
    .error (.limitExceeded .liveEvents)
  else .ok { items := items, bytes := bytes, logicalBytes := r.turnBudget.logicalBytes }

/-- The logical bytes of the active turn with one more event. An event without a logical size has
already failed in the projection. -/
def turnLogicalBytes (opts : SessionRuntimeOptions J T) (r : SessionRuntimeCore J T)
    (event : SessionEvent J T) : Except SessionLiveProjectionError ℕ :=
  let reset := !r.operational.agentBusy && eventStartsWork event
  let logicalBase := if reset then 0 else r.turnBudget.logicalBytes
  match opts.schema.activeTurnEventLogicalBytes event with
  | none => .error (.limitExceeded .liveEvents)
  | some logicalContribution =>
    if logicalContribution > opts.schema.maxActiveTurnLogicalBytes - logicalBase then
      .error (.limitExceeded .liveEvents)
    else .ok (logicalBase + logicalContribution)

/-- Published frames enter the ring unless they are transient; then the oldest frames leave. -/
def keep (opts : SessionRuntimeOptions J T) (envelopes : List (SessionReplayFrame J T))
    (ring : ReplayRing J T) (lastTransientSeq : ℕ) : ReplayRing J T × ℕ :=
  let kept := envelopes.foldl (fun (ring, lastTransientSeq) envelope =>
    if isReplayableFrame envelope.frame then
      (ring.push envelope (envelopeBytes opts.codec envelope), lastTransientSeq)
    else (ring, envelope.seq)) (ring, lastTransientSeq)
  (kept.1.trim opts.replayLimit opts.replayMaxBytes, kept.2)

/-- The frames of a batch under their sequence numbers. -/
def envelopesFrom (identity : SessionLiveProjectionIdentity) (firstSeq : ℕ)
    (frames : List (BufferedFrame J T)) : List (SessionReplayFrame J T) :=
  frames.zipIdx.map fun (frame, index) => ⟨frame, identity, firstSeq + index⟩

/-- `emitFrame`. -/
def emitFrame (opts : SessionRuntimeOptions J T) (r : SessionRuntimeCore J T)
    (frame : BufferedFrame J T) (afterProjectionCommit :
      SessionRuntimeCore J T → SessionRuntimeCore J T) :
    Result J T Unit :=
  match r.liveProjection with
  | none => (r, .error (rpc "session_snapshot" "session_snapshot_unavailable"))
  | some projection =>
    match (match frame with
      | .event event => r.turnWithEvent projection event
      | _ => .ok r.turnBudget) with
    | .error error => r.throwProjection error
    | .ok turnBudget =>
      match projection.prepareBatch r.identity [frame.input] (some r.state) with
      | .error error => r.throwProjection error
      | .ok (prepared, token) =>
        match prepared.commitPreparedBatch token with
        | (projection, none) =>
          { r with liveProjection := some projection }.throwProjection (.limitExceeded .snapshot)
        | (projection, some seq) =>
          let r := afterProjectionCommit
            { r with
              liveProjection := some projection
              turnBudget := turnBudget }
          let envelope : SessionReplayFrame J T := ⟨frame, r.identity, seq⟩
          let kept := keep opts [envelope] r.replay r.lastTransientSeq
          ({ r with
            replay := kept.1
            lastTransientSeq := kept.2
            lastSeq := seq
            published := r.published ++ [envelope] }, .ok ())

/-- A dialog entry is taken out, if it is still the one that was looked up. -/
def commitClose (requestId : JsString) (dialog : PendingDialog J T) (r : SessionRuntimeCore J T) :
    SessionRuntimeCore J T :=
  if (r.extension.pendingDialogs.get? requestId).any (·.object = dialog.object) then
    { r with
      extension :=
        { r.extension with pendingDialogs := r.extension.pendingDialogs.erase requestId }
      extensionSemanticRevision := r.extensionSemanticRevision + 1 }
  else r

/-- `closeDialog`, with its frame. -/
def closeDialog (opts : SessionRuntimeOptions J T) (r : SessionRuntimeCore J T)
    (requestId : JsString) (reason : ExtensionUiCloseReason) : Result J T Unit :=
  match r.extension.pendingDialogs.get? requestId with
  | none => (r, .ok ())
  | some dialog =>
    if r.startupReady then
      emitFrame opts r (.extensionUiClosed requestId reason) (commitClose requestId dialog)
    else (commitClose requestId dialog r, .ok ())

/-- `setState`. -/
def setState (r : SessionRuntimeCore J T) (state : SessionLiveRuntimePhase) : Result J T Unit :=
  if r.state = state ∧ state ≠ .starting then (r, .ok ())
  else
    match r.liveProjection with
    | none => ({ r with state := state }, .ok ())
    | some projection =>
      match projection.setRuntimePhase r.identity state with
      | .ok projection => ({ r with state := state, liveProjection := some projection }, .ok ())
      | .error error => ({ r with state := state }, .error (.projection error))

/-- The state that the pending work of the runtime calls for. -/
def busyState (r : SessionRuntimeCore J T) : SessionLiveRuntimePhase :=
  if !r.extension.pendingDialogs.entries.isEmpty then .waitingUi
  else if r.operational.agentBusy || r.operational.compactionBusy ||
      r.operational.idleBaseCompactionBusy ||
      !r.operational.pendingTurnReservations.isEmpty then .running
  else .idle

/-- `refreshOperationalState`. A compaction that becomes possible is a step of its own. -/
def refreshOperationalState (r : SessionRuntimeCore J T) : Result J T Unit :=
  if r.startupReady && r.running then r.setState r.busyState else (r, .ok ())

/-- `releasePendingTurnsThrough`. -/
def releasePendingTurnsThrough (operational : OperationalState) (cutoff : ℕ) : OperationalState :=
  { operational with
    pendingTurnReservations := operational.pendingTurnReservations.filter (cutoff < ·) }

/-- A queue that was seen keeps the reservations made so far from being settled one by one. -/
def queueChanged (operational : OperationalState) (activeQueueDepth : ℕ) : OperationalState :=
  { operational with
    activeQueueDepth := activeQueueDepth
    queueReservationReleaseCutoff :=
      if 0 < activeQueueDepth ∧
          operational.queueReservationReleaseCutoff < operational.nextTurnReservationId then
        operational.nextTurnReservationId
      else operational.queueReservationReleaseCutoff }

/-- Reservations that a queue was waiting for are released. -/
def queueSettled (operational : OperationalState) : OperationalState :=
  { releasePendingTurnsThrough operational operational.queueReservationReleaseCutoff with
    queueReservationReleaseCutoff := 0 }

/-- The queue part of `applyEventState`. -/
def applyQueueUpdate (r : SessionRuntimeCore J T) (activeQueueDepth : ℕ) : Result J T Unit :=
  let operational := queueChanged r.operational activeQueueDepth
  if 0 < r.operational.activeQueueDepth ∧ activeQueueDepth = 0 ∧ !r.operational.agentBusy then
    { r with operational := queueSettled operational }.refreshOperationalState
  else ({ r with operational := operational }, .ok ())

/-- `applyEventState`. -/
def applyEventState (r : SessionRuntimeCore J T) (event : SessionEvent J T) : Result J T Unit :=
  match event with
  | .queueUpdate steering followUp => r.applyQueueUpdate (steering.length + followUp.length)
  | .compactionStart _ =>
    { r with operational := { r.operational with compactionBusy := true } }.setState .running
  | .compactionEnd _ _ willRetry .. =>
    { r with
      operational :=
        { r.operational with
          compactionBusy := false
          agentBusy := r.operational.agentBusy || willRetry } }.refreshOperationalState
  | event =>
    if eventStartsWork event then
      let operational :=
        if r.operational.agentBusy then r.operational
        else
          { r.operational with
            pendingTurnReservations := r.operational.pendingTurnReservations.tail
            activeTurnHeadroomReserved := true }
      { r with operational := { operational with agentBusy := true } }.setState .running
    else if eventSettlesWork event then
      let operational :=
        { r.operational with agentBusy := false, activeTurnHeadroomReserved := false }
      { r with
        turnBudget := .zero
        operational :=
          if operational.activeQueueDepth = 0 ∧ 0 < operational.queueReservationReleaseCutoff then
            queueSettled operational
          else operational }.refreshOperationalState
    else (r, .ok ())

/-- `applyFrameState`. -/
def applyFrameState (r : SessionRuntimeCore J T) : BufferedFrame J T → Result J T Unit
  | .event value => r.applyEventState value
  | .extensionUiClosed _ _ => (r, .ok ())
  | .extensionUiRequest request _ =>
    if request.body.blocking && (r.extension.pendingDialogs.get? request.id).isSome then
      r.setState .waitingUi
    else (r, .ok ())

end SessionRuntimeCore

end PiAgentWeb
