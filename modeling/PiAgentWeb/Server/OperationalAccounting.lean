import PiAgentWeb.Server.TurnHeadroom

/-!
# The operations of a Session runtime

What a runtime counts as work in progress, over the incarnations of its process: commands, identity
transitions, the work of Pi, queued messages, compactions, dialogs and turn reservations. The
process rejects its pending requests before it reports its exit or ends its stop, and the
continuations of rejected requests come before any later callback, so that a rejection and its
continuation are one step, as are the callbacks of a compaction that has settled. An identity
transition also waits for the Supervisor and for cleanup; it ends whenever these end.
-/

namespace PiAgentWeb

/-- A command that was admitted by `send` and has not settled. -/
structure AdmittedCommand where
  id : ℕ
  /-- The process token of its incarnation. -/
  incarnation : ℕ
  turnReservation : Option ℕ
  turnReleaseCutoff : Option ℕ
  deriving DecidableEq

/-- A work command that holds the command tail while it waits for headroom. -/
structure WaitingAdmission where
  expectedGeneration : ℕ
  turnReleaseCutoff : Option ℕ
  carriesConversation : Bool
  deriving DecidableEq

/-- The operational part of a `SessionRuntime`. -/
structure SessionOperations where
  processToken : ℕ
  generation : ℕ
  /-- The process, as the token of its spawn. -/
  proc : Option ℕ
  /-- The leader of the process has not exited. -/
  leaderRunning : Bool
  /-- `unexpectedFinalization` of the process is set. -/
  finalizing : Bool
  /-- What `stopPromise` waits for, with the process that it stops. -/
  stopPromise : Option (PendingStop × Option ℕ)
  startupReady : Bool
  snapshotOverflow : Bool
  state : SessionLiveRuntimePhase
  operational : OperationalState
  /-- The open dialogs, as request objects. -/
  pendingDialogs : List ℕ
  /-- `transitionStage` is set. -/
  transitioning : Bool
  hasConversationIntent : Bool
  /-- The operations of the Supervisor that pin the runtime. -/
  reservations : ℕ
  /-- `idleBaseCompactionPromise`, as the incarnation that it was started in. -/
  idleBaseCompactionPromise : Option ℕ
  /-- The commands that are pending. -/
  commands : List AdmittedCommand
  /-- The identity transition that holds the command tail, as its incarnation. -/
  transition : Option ℕ
  /-- The admission that holds the command tail. -/
  waiting : Option WaitingAdmission
  nextCommand : ℕ
  /-- History: the turn reservations that were removed, one entry for each removal. -/
  released : List ℕ
  deriving DecidableEq

/-- What an event of Pi tells about its work. -/
inductive PiWork where
  | queueUpdate (activeQueueDepth : ℕ)
  | compactionStart
  | compactionEnd (willRetry : Bool)
  | startsWork
  | settlesWork
  deriving DecidableEq

/-- The timer of a turn reservation. -/
structure TurnTimer where
  reservation : ℕ
  generation : ℕ
  processToken : ℕ
  deriving DecidableEq

/-- A step of the runtime. -/
inductive OperationalAction where
  /-- `send`, up to the end of its admission or to the wait for headroom. -/
  | send (expectedGeneration : ℕ) (expectsWork releasesQueuedWork carriesConversation : Bool)
  /-- The wait for headroom ends. -/
  | resumeAdmission (hasHeadroom : Bool)
  /-- The response to a command, or its failure. -/
  | settle (id : ℕ) (success : Bool)
  | beginTransition (expectedGeneration : ℕ)
  /-- The Supervisor commits the identity of the child. -/
  | applyTransition
  /-- A transition that cannot be verified or committed stops the runtime. -/
  | failTransition
  /-- The end of `sendIdentityTransition`. -/
  | endTransition
  | piWork (work : PiWork)
  | openDialog (dialog : ℕ)
  | answerDialog (dialog : ℕ)
  | expireDialog (processToken dialog : ℕ)
  | expireTurn (timer : TurnTimer)
  | beginIdleBaseCompaction
  /-- A compaction settles. `overflow`: it was rejected with a `SessionLiveProjectionLimitError`;
  `cleanup`: content has to be released. -/
  | endIdleBaseCompaction (overflow cleanup : Bool)
  /-- The leader exits. -/
  | leaderExit
  /-- The process finalizes an exit or a protocol failure, and rejects its requests. -/
  | beginFinalization
  /-- The process reports its exit. -/
  | exitReported (cleanup : Bool)
  /-- The start of a process fails, which is stopped. -/
  | startFailed (cleanup : Bool)
  /-- A frame of Pi does not fit the projection. -/
  | projectionOverflow (cleanup : Bool)
  /-- The generation is given up. -/
  | terminalize (cleanup : Bool)
  | stop
  /-- The pending stop or cleanup ends. -/
  | stopped (failed : Bool)
  | spawn
  | ready
  | pin
  | unpin
  deriving DecidableEq

namespace SessionOperations

/-- A runtime before its first start. -/
def initial : SessionOperations where
  processToken := 0
  generation := 0
  proc := none
  leaderRunning := false
  finalizing := false
  stopPromise := none
  startupReady := false
  snapshotOverflow := false
  state := .dormant
  operational :=
    { agentBusy := false, compactionBusy := false, idleBaseCompactionBusy := false,
      activeQueueDepth := 0, pendingTurnReservations := [], nextTurnReservationId := 0,
      queueReservationReleaseCutoff := 0, activeTurnHeadroomReserved := false, inFlight := 0 }
  pendingDialogs := []
  transitioning := false
  hasConversationIntent := false
  reservations := 0
  idleBaseCompactionPromise := none
  commands := []
  transition := none
  waiting := none
  nextCommand := 0
  released := []

/-- `running` of the process: its leader is usable, or its cleanup still owns the lifecycle. -/
def procRunning (s : SessionOperations) : Bool := s.proc.isSome && (s.leaderRunning || s.finalizing)

/-- `running`. -/
def running (s : SessionOperations) : Bool := s.stopPromise.isSome || s.procRunning

/-- `identityTransitionBlocker`. -/
def identityTransitionBlocker (s : SessionOperations) : Option JsString :=
  if !s.running then some (js "process")
  else if s.state ≠ .idle then some s.state.text
  else if s.operational.agentBusy then some (js "agent")
  else if s.operational.compactionBusy || s.operational.idleBaseCompactionBusy then
    some (js "compaction")
  else if 0 < s.operational.activeQueueDepth then some (js "queue")
  else if 0 < s.operational.inFlight then some (js "command")
  else if !s.pendingDialogs.isEmpty then some (js "dialog")
  else if !s.operational.pendingTurnReservations.isEmpty then some (js "turn_reservation")
  else if s.transitioning then some (js "transition")
  else none

/-- `canEvict`, for a runtime that is `recoverable`. -/
def canEvict (s : SessionOperations) (recoverable : Bool) : Bool :=
  s.stopPromise.isNone && recoverable && s.reservations = 0 && s.identityTransitionBlocker.isNone

/-- The state that the pending work calls for. -/
def busyState (s : SessionOperations) : SessionLiveRuntimePhase :=
  if !s.pendingDialogs.isEmpty then .waitingUi
  else if s.operational.agentBusy || s.operational.compactionBusy ||
      s.operational.idleBaseCompactionBusy || !s.operational.pendingTurnReservations.isEmpty then
    .running
  else .idle

/-- `refreshOperationalState`. -/
def refresh (s : SessionOperations) : SessionOperations :=
  if s.startupReady && s.running then { s with state := s.busyState } else s

/-- Turn reservations are deleted from the map, each with `releasePendingTurn`. -/
def removeTurns (s : SessionOperations) (remove : ℕ → Bool) : SessionOperations :=
  { s with
    operational :=
      { s.operational with
        pendingTurnReservations :=
          s.operational.pendingTurnReservations.filter fun reservation => !remove reservation }
    released := s.released ++ s.operational.pendingTurnReservations.filter remove }

/-- `consumePendingTurn`. -/
def consumePendingTurn (s : SessionOperations) : SessionOperations :=
  match s.operational.pendingTurnReservations with
  | [] => s
  | first :: _ => s.removeTurns (· = first)

/-- `clearOwnedOperationalState`. -/
def clearOwnedOperationalState (s : SessionOperations) : SessionOperations :=
  let s := s.removeTurns fun _ => true
  { s with
    pendingDialogs := []
    transitioning := false
    operational :=
      { s.operational with
        agentBusy := false
        compactionBusy := false
        idleBaseCompactionBusy := false
        activeQueueDepth := 0
        queueReservationReleaseCutoff := 0
        activeTurnHeadroomReserved := false
        inFlight := 0 } }

/-- `this.inFlight = Math.max(0, this.inFlight - 1)`. -/
def leaveFlight (s : SessionOperations) : SessionOperations :=
  { s with operational := { s.operational with inFlight := s.operational.inFlight - 1 } }

/-- The end of `send`: the reservation of a failed command is released, queued work that a
successful one gives up, and the command leaves the flight. -/
def finishCommand (s : SessionOperations) (command : AdmittedCommand) (success : Bool) :
    SessionOperations :=
  let s := { s with commands := s.commands.filter fun other => other.id ≠ command.id }
  let s :=
    match command.turnReservation with
    | some reservation => if success then s else (s.removeTurns (· = reservation)).refresh
    | none => s
  let s :=
    match command.turnReleaseCutoff with
    | some cutoff => if success then (s.removeTurns (· ≤ cutoff)).refresh else s
    | none => s
  s.leaveFlight.refresh

/-- The admission of `send` after its checks. A process that finalizes rejects the request at
once. -/
def admitCommand (s : SessionOperations) (expectsWork : Bool) (turnReleaseCutoff : Option ℕ)
    (carriesConversation : Bool) : SessionOperations :=
  let reserved : SessionOperations :=
    if expectsWork then
      { s with operational := SessionRuntimeCore.reservePendingTurn s.operational }
    else s
  let turnReservation :=
    if expectsWork then some reserved.operational.nextTurnReservationId else none
  match s.proc.filter fun _ => s.procRunning with
  | none =>
    match turnReservation with
    | some reservation => reserved.removeTurns (· = reservation)
    | none => reserved
  | some incarnation =>
    let command : AdmittedCommand :=
      { id := s.nextCommand, incarnation := incarnation, turnReservation := turnReservation,
        turnReleaseCutoff := turnReleaseCutoff }
    let admitted : SessionOperations :=
      { reserved with
        operational := { reserved.operational with inFlight := reserved.operational.inFlight + 1 }
        hasConversationIntent := s.hasConversationIntent || carriesConversation
        state := if expectsWork then .running else s.state
        commands := s.commands ++ [command]
        nextCommand := s.nextCommand + 1 }
    if s.finalizing then admitted.finishCommand command false else admitted

/-- `rejectAll` of a process, with the continuations of its requests. -/
def rejectAll (s : SessionOperations) (incarnation : ℕ) : SessionOperations :=
  (s.commands.filter fun command => command.incarnation = incarnation).foldl
    (fun s command => s.finishCommand command false) s

/-- Reservations that a queue was waiting for are released. -/
def settleQueue (s : SessionOperations) : SessionOperations :=
  let removed := s.removeTurns (· ≤ s.operational.queueReservationReleaseCutoff)
  { removed with
    operational := { removed.operational with queueReservationReleaseCutoff := 0 } }.refresh

/-- `applyEventState`. -/
def applyEventState (s : SessionOperations) : PiWork → SessionOperations
  | .queueUpdate activeQueueDepth =>
    let changed : SessionOperations :=
      { s with operational := SessionRuntimeCore.queueChanged s.operational activeQueueDepth }
    if 0 < s.operational.activeQueueDepth ∧ activeQueueDepth = 0 ∧ !s.operational.agentBusy then
      changed.settleQueue
    else changed
  | .compactionStart =>
    { s with operational := { s.operational with compactionBusy := true }, state := .running }
  | .compactionEnd willRetry =>
    { s with
      operational :=
        { s.operational with
          compactionBusy := false
          agentBusy := s.operational.agentBusy || willRetry } }.refresh
  | .startsWork =>
    let s :=
      if s.operational.agentBusy then s
      else
        let consumed := s.consumePendingTurn
        { consumed with
          operational := { consumed.operational with activeTurnHeadroomReserved := true } }
    { s with operational := { s.operational with agentBusy := true }, state := .running }
  | .settlesWork =>
    let settled : SessionOperations :=
      { s with
        operational :=
          { s.operational with agentBusy := false, activeTurnHeadroomReserved := false } }
    if s.operational.activeQueueDepth = 0 ∧ 0 < s.operational.queueReservationReleaseCutoff then
      settled.settleQueue
    else settled.refresh

/-- `stop`, up to the wait for the process. -/
def stop (s : SessionOperations) : SessionOperations :=
  if s.stopPromise.isSome then s
  else
    clearOwnedOperationalState
      { s with
        processToken := s.processToken + 1
        proc := none
        stopPromise := some (.stop, s.proc) }

/-- `terminalizeProjection`, and the same steps of `terminalizeGenerationContentFailure`. -/
def terminalize (s : SessionOperations) (cleanup : Bool) : SessionOperations :=
  clearOwnedOperationalState
    { s with
      processToken := s.processToken + 1
      proc := none
      startupReady := false
      state := .crashed
      stopPromise :=
        if (s.proc.isSome || cleanup) && s.stopPromise.isNone then some (.cleanup, s.proc)
        else s.stopPromise }

/-- `normalizeProjectionError` of a `SessionLiveProjectionLimitError`, with
`terminalizeSnapshotOverflow`. Neither of them asks for the process token. -/
def overflowProjection (s : SessionOperations) (cleanup : Bool) : SessionOperations :=
  if s.startupReady then
    if s.snapshotOverflow && s.state = .crashed then s
    else { s with snapshotOverflow := true }.terminalize cleanup
  else { s with snapshotOverflow := true }

/-- The `finally` callback of an idle base compaction. -/
def finishIdleBaseCompaction (s : SessionOperations) : SessionOperations :=
  { s with
    idleBaseCompactionPromise := none
    operational := { s.operational with idleBaseCompactionBusy := false } }.refresh

/-- `handleFailure`. -/
def handleFailure (s : SessionOperations) (cleanup : Bool) : SessionOperations :=
  clearOwnedOperationalState
    { s with
      proc := none
      state := .crashed
      stopPromise :=
        if cleanup && s.stopPromise.isNone then some (.cleanup, none) else s.stopPromise }

/-- The end of a stop or cleanup: its process has rejected its requests. -/
def endStop (s : SessionOperations) (failed : Bool) : SessionOperations :=
  match s.stopPromise with
  | none => s
  | some (kind, stopped) =>
    let s := stopped.elim s s.rejectAll
    { s with
      stopPromise := none
      state :=
        match kind with
        | .stop => if failed then .crashed else .dormant
        | .cleanup => s.state }

/-- `spawn`, when `start` reaches it. -/
def spawn (s : SessionOperations) : SessionOperations :=
  if s.snapshotOverflow || s.stopPromise.isSome || s.proc.isSome then s
  else
    { s with
      processToken := s.processToken + 1
      generation := s.generation + 1
      proc := some (s.processToken + 1)
      leaderRunning := true
      finalizing := false
      startupReady := false
      state := .starting }

/-- `adoptTransitionTarget`, for the transition of the current process. -/
def adoptTransitionTarget (s : SessionOperations) : SessionOperations :=
  if s.transitioning && s.transition.isSome && s.proc = s.transition && s.procRunning then
    let s := s.removeTurns fun _ => true
    { s with
      generation := s.generation + 1
      operational :=
        { s.operational with
          queueReservationReleaseCutoff := 0
          activeTurnHeadroomReserved := false }
      state := if s.pendingDialogs.isEmpty then .idle else .waitingUi }
  else s

/-- A dialog is closed. -/
def closeDialog (s : SessionOperations) (dialog : ℕ) : SessionOperations :=
  { s with pendingDialogs := s.pendingDialogs.filter (· ≠ dialog) }.refresh

/-- The commands of the current incarnation that have not settled. -/
def unsettled (s : SessionOperations) : ℕ :=
  match s.proc with
  | none => 0
  | some incarnation =>
    s.commands.countP (fun command => command.incarnation = incarnation) +
      (if s.transition = some incarnation then 1 else 0)

/-- One step. A step that is not possible in a state leaves it as it is. -/
def step (maxPendingCommands : ℕ) (s : SessionOperations) :
    OperationalAction → SessionOperations
  | .send expectedGeneration expectsWork releasesQueuedWork carriesConversation =>
    if s.transition.isSome || s.waiting.isSome || expectedGeneration ≠ s.generation ||
        s.operational.inFlight ≥ maxPendingCommands then s
    else
      let cutoff :=
        if releasesQueuedWork then some s.operational.nextTurnReservationId else none
      if expectsWork then
        { s with waiting := some ⟨expectedGeneration, cutoff, carriesConversation⟩ }
      else s.admitCommand false cutoff carriesConversation
  | .resumeAdmission hasHeadroom =>
    match s.waiting with
    | none => s
    | some waiting =>
      let s := { s with waiting := none }
      if hasHeadroom && waiting.expectedGeneration = s.generation then
        s.admitCommand true waiting.turnReleaseCutoff waiting.carriesConversation
      else s
  | .settle id success =>
    match s.commands.find? (·.id = id) with
    | none => s
    | some command => s.finishCommand command success
  | .beginTransition expectedGeneration =>
    if s.transition.isSome || s.waiting.isSome || expectedGeneration ≠ s.generation ||
        s.operational.inFlight ≥ maxPendingCommands || s.identityTransitionBlocker.isSome ||
        !s.procRunning then s
    else
      match s.proc with
      | none => s
      | some incarnation =>
        { s with
          transitioning := true
          transition := some incarnation
          operational := { s.operational with inFlight := s.operational.inFlight + 1 } }
  | .applyTransition => s.adoptTransitionTarget
  | .failTransition => if s.transition.isSome then s.stop else s
  | .endTransition =>
    if s.transition.isSome then
      { s.leaveFlight with transitioning := false, transition := none }.refresh
    else s
  | .piWork work => if s.proc.isSome then s.applyEventState work else s
  | .openDialog dialog =>
    if s.proc.isSome then
      { s with pendingDialogs := s.pendingDialogs ++ [dialog], state := .waitingUi }
    else s
  | .answerDialog dialog => s.closeDialog dialog
  | .expireDialog processToken dialog =>
    if processToken = s.processToken then s.closeDialog dialog else s
  | .expireTurn timer =>
    if timer.generation = s.generation && timer.processToken = s.processToken && s.running &&
        !s.operational.agentBusy && s.operational.activeQueueDepth = 0 then
      (s.removeTurns (· = timer.reservation)).refresh
    else s
  | .beginIdleBaseCompaction =>
    match s.proc.filter fun _ => s.procRunning && s.idleBaseCompactionPromise.isNone &&
        s.identityTransitionBlocker.isNone with
    | none => s
    | some incarnation =>
      { s with
        idleBaseCompactionPromise := some incarnation
        operational := { s.operational with idleBaseCompactionBusy := true } }
  | .endIdleBaseCompaction overflow cleanup =>
    if s.idleBaseCompactionPromise.isSome then
      (if overflow then s.overflowProjection cleanup else s).finishIdleBaseCompaction
    else s
  | .leaderExit => if s.proc.isSome then { s with leaderRunning := false } else s
  | .beginFinalization =>
    match s.proc.filter fun _ => !s.finalizing with
    | none => s
    | some incarnation => { s with finalizing := true }.rejectAll incarnation
  | .exitReported cleanup =>
    if s.proc.isSome && s.finalizing then s.handleFailure cleanup else s
  | .startFailed cleanup =>
    match s.proc.filter fun _ => !s.startupReady with
    | none => s
    | some incarnation =>
      ({ s with leaderRunning := false }.rejectAll incarnation).handleFailure cleanup
  | .projectionOverflow cleanup => if s.proc.isSome then s.overflowProjection cleanup else s
  | .terminalize cleanup => s.terminalize cleanup
  | .stop => s.stop
  | .stopped failed => s.endStop failed
  | .spawn => s.spawn
  | .ready =>
    if s.proc.isSome then { s with startupReady := true, state := s.busyState } else s
  | .pin => { s with reservations := s.reservations + 1 }
  | .unpin => { s with reservations := s.reservations - 1 }

/-- The incarnation of what settles in a step: a command, a transition, a timer or a compaction. -/
def settles (s : SessionOperations) : OperationalAction → Option ℕ
  | .settle id _ => (s.commands.find? (·.id = id)).map (·.incarnation)
  | .failTransition | .endTransition => s.transition
  | .expireDialog processToken _ => some processToken
  | .expireTurn timer => some timer.processToken
  | .endIdleBaseCompaction _ _ => s.idleBaseCompactionPromise
  | _ => none

end SessionOperations

end PiAgentWeb
