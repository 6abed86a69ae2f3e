import PiAgentWeb.Library.JsData
import PiAgentWeb.Library.Runs
import PiAgentWeb.Server.LiveProjectionSize
import PiAgentWeb.Server.RuntimeRuns

/-!
# The headroom of a turn

A work command is admitted only if the live suffix leaves room for the turn that it starts, for the
turns admitted before and for the rest of the active one. The reservation is spent when a turn
starts, and the events of the turn are counted against its budget. The actions here are those that
touch the suffix, the counters or the reservations of one process incarnation, in any order.
-/

namespace PiAgentWeb

variable {J T : Type}

namespace SessionLiveProjection

/-- The frame that an event would leave at the end of the suffix. -/
def nextFrame (p : SessionLiveProjection J T) (candidate : ProjectionCandidate J T)
    (event : SessionEvent J T) : SessionLiveProjectionEventFrame J T :=
  { seq := candidate.asOfSeq + 1, event := (p.mergedEvent candidate event).getD event }

/-- The number of frames and the size of the live suffix with an event. -/
def suffixWithEvent (p : SessionLiveProjection J T) (candidate : ProjectionCandidate J T)
    (event : SessionEvent J T) : ℕ × ℕ :=
  let merged := p.mergedEvent candidate event
  ((if merged.isSome then candidate.projectionEvents.dropLast
      else candidate.projectionEvents).length + 1,
    candidate.projectionEventBytes -
        (if merged.isSome then (candidate.projectionEventFrameBytes.getLast?).getD 0 else 0) +
      (p.frameJson (p.nextFrame candidate event)).byteLength)

/-- The capacity check of `reduceCandidate` rejects the event. -/
def CapacityExceeded (p : SessionLiveProjection J T) (candidate : ProjectionCandidate J T)
    (event : SessionEvent J T) : Prop :=
  (p.suffixWithEvent candidate event).1 > p.limits.maxLiveEventItems ∨
    (p.suffixWithEvent candidate event).2 > p.maxLiveEventWireBytes

instance (p : SessionLiveProjection J T) (candidate : ProjectionCandidate J T)
    (event : SessionEvent J T) : Decidable (p.CapacityExceeded candidate event) :=
  inferInstanceAs (Decidable (_ ∨ _))

/-- `hasActiveTurnReservationCapacity`. -/
def hasActiveTurnReservationCapacity (p : SessionLiveProjection J T)
    (pendingReservations activeTurnItems activeTurnBytes : ℕ) (reserveActiveTurn : Bool) : Bool :=
  let budget := SessionRuntimeCore.activeTurnBudget p
  let activeItems := if reserveActiveTurn then budget.1 - activeTurnItems else 0
  let activeBytes := if reserveActiveTurn then budget.2 - activeTurnBytes else 0
  p.live.projectionEvents.length + pendingReservations * budget.1 + activeItems ≤
      p.limits.maxLiveEventItems &&
    p.live.projectionEventBytes + pendingReservations * budget.2 + activeBytes ≤
      p.maxLiveEventWireBytes

end SessionLiveProjection

/-- An action of a runtime within one process incarnation. An event is prepared and committed in one
step: whatever changes in between what was prepared makes the commit fail. When a compaction becomes
possible is up to the run. -/
inductive TurnAction (J T : Type) where
  /-- Pi emits an event. -/
  | publishEvent (event : SessionEvent J T)
  /-- An Extension asks the UI. -/
  | publishRequest (request : ExtensionUiRequest J T)
  /-- A dialog is answered, cancelled or expires. -/
  | closeDialog (requestId : JsString) (reason : ExtensionUiCloseReason)
  /-- A work command is admitted or rejected. -/
  | admitTurn (command : String)
  /-- The response to a work command, or its failure. -/
  | finishWorkCommand (success : Bool) (reservation : ℕ)
  /-- The response to a command that releases queued work. -/
  | releaseQueuedWork (turnReleaseCutoff : ℕ)
  /-- The timer of a reservation fires. -/
  | expireTurn (reservation : ℕ)
  | beginIdleBaseCompaction
  | prepareIdleBaseCompaction (token : ℕ) (settledMessages : List (SessionMessage J T))
  | commitPreparedIdleBaseCompaction (token : ℕ)
  | endIdleBaseCompaction

namespace SessionRuntimeCore

variable (opts : SessionRuntimeOptions J T)

/-- `publishFrame` of an event. -/
def publishFrame (r : SessionRuntimeCore J T) (event : SessionEvent J T) : Result J T Unit :=
  (prepareActiveEventPublication opts r event).andThen fun r prepared =>
    r.commitActiveEventPublication prepared

/-- The delivery of an event: a commit that throws ends the generation. -/
def publishEvent (r : SessionRuntimeCore J T) (event : SessionEvent J T) : Result J T Unit :=
  (prepareActiveEventPublication opts r event).andThen fun r prepared =>
    terminalizeOnError r.processToken r.identity.generation
      (r.commitActiveEventPublication prepared)

/-- An Extension request, prepared and committed. -/
def publishRequest (r : SessionRuntimeCore J T) (request : ExtensionUiRequest J T) :
    Result J T Unit :=
  let object := r.nextObject
  let r := { r with nextObject := object + 1 }
  match planExtensionRequestSemanticMutation opts request object true r.extension r.nextObject with
  | .error error => (r, .error error)
  | .ok (plan, nextObject) =>
    (prepareExtensionSemanticOperation opts { r with nextObject := nextObject } r.processToken
      plan).andThen fun r prepared =>
        terminalizeOnError r.processToken r.identity.generation
          (r.commitExtensionSemanticOperation prepared)

/-- `ensureProjectionHeadroomForWork`, in its last check. -/
def ensureProjectionHeadroomForWork (r : SessionRuntimeCore J T) (command : String) :
    Except RuntimeError Unit :=
  if r.liveProjection.any fun projection =>
      projection.hasActiveTurnReservationCapacity
        (r.operational.pendingTurnReservations.length + 1) r.turnBudget.items r.turnBudget.bytes
        r.operational.activeTurnHeadroomReserved then .ok ()
  else .error (rpc command "session_snapshot_headroom_unavailable")

/-- `reservePendingTurn`. -/
def reservePendingTurn (operational : OperationalState) : OperationalState :=
  { operational with
    nextTurnReservationId := operational.nextTurnReservationId + 1
    pendingTurnReservations :=
      operational.pendingTurnReservations ++ [operational.nextTurnReservationId + 1] }

/-- `releasePendingTurn`. -/
def releasePendingTurn (operational : OperationalState) (reservation : ℕ) : OperationalState :=
  { operational with
    pendingTurnReservations := operational.pendingTurnReservations.filter (· ≠ reservation) }

/-- The admission of a work command in `send`. -/
def admitTurn (r : SessionRuntimeCore J T) (command : String) : Result J T Unit :=
  match r.ensureProjectionHeadroomForWork command with
  | .error error => (r, .error error)
  | .ok () =>
    let operational := reservePendingTurn r.operational
    if r.proc.isSome && r.leaderRunning then
      { r with operational := { operational with inFlight := operational.inFlight + 1 } }.setState
        .running
    else
      ({ r with operational := releasePendingTurn operational operational.nextTurnReservationId },
        .error (rpc command "pi process is not running"))

/-- `finishWorkCommandResponse` and the end of `send`. -/
def finishWorkCommand (r : SessionRuntimeCore J T) (success : Bool) (reservation : ℕ) :
    Result J T Unit :=
  let operational :=
    if success then r.operational else releasePendingTurn r.operational reservation
  { r with operational := { operational with inFlight := operational.inFlight - 1 } }
    |>.refreshOperationalState

/-- The timer of `schedulePendingTurnExpiry`: while there is work the timer is armed again. -/
def expireTurn (r : SessionRuntimeCore J T) (reservation : ℕ) : Result J T Unit :=
  if r.running && !r.operational.agentBusy && r.operational.activeQueueDepth = 0 then
    { r with operational := releasePendingTurn r.operational reservation }.refreshOperationalState
  else (r, .ok ())

/-- A change of the projection that throws nothing. -/
def withProjection (r : SessionRuntimeCore J T)
    (change : SessionLiveProjection J T → SessionLiveProjection J T) : SessionRuntimeCore J T :=
  { r with liveProjection := r.liveProjection.map change }

/-- The action, with what it throws. -/
def takeTurnAction (r : SessionRuntimeCore J T) : TurnAction J T → Result J T Unit
  | .publishEvent event => publishEvent opts r event
  | .publishRequest request => publishRequest opts r request
  | .closeDialog requestId reason => closeDialog opts r requestId reason
  | .admitTurn command => r.admitTurn command
  | .finishWorkCommand success reservation => r.finishWorkCommand success reservation
  | .releaseQueuedWork turnReleaseCutoff =>
    { r with operational := releasePendingTurnsThrough r.operational turnReleaseCutoff }
      |>.refreshOperationalState
  | .expireTurn reservation => r.expireTurn reservation
  | .beginIdleBaseCompaction =>
    ({ r.withProjection (·.beginIdleBaseCompaction.1) with
       operational := { r.operational with idleBaseCompactionBusy := true } }, .ok ())
  | .prepareIdleBaseCompaction token settledMessages =>
    (r.withProjection (·.prepareIdleBaseCompaction token settledMessages |>.1), .ok ())
  | .commitPreparedIdleBaseCompaction token =>
    (r.withProjection (·.commitPreparedIdleBaseCompaction token |>.1), .ok ())
  | .endIdleBaseCompaction =>
    { r with operational := { r.operational with idleBaseCompactionBusy := false } }
      |>.refreshOperationalState

/-- The state after an action. -/
def turnStep (r : SessionRuntimeCore J T) (action : TurnAction J T) : SessionRuntimeCore J T :=
  (takeTurnAction opts r action).1

/-- The start of an incarnation: a projection base, the buffered frames and the first state. -/
def startIncarnation (r : SessionRuntimeCore J T) (settledMessages : List (SessionMessage J T)) :
    Result J T Unit :=
  (initializeProjectionBase opts r settledMessages).andThen fun r _ => completeStartup opts r

/-- A published event is paid for: it belongs to an active turn with reserved headroom, or it starts
such a turn and there is a reservation to spend. -/
def Charged (r : SessionRuntimeCore J T) : TurnAction J T → Prop
  | .publishEvent event =>
    r.operational.activeTurnHeadroomReserved = true ∨
      (r.operational.agentBusy = false ∧ eventStartsWork event = true ∧
        r.operational.pendingTurnReservations ≠ [])
  | _ => True

instance (r : SessionRuntimeCore J T) : (action : TurnAction J T) → Decidable (Charged r action)
  | .publishEvent _ => inferInstanceAs (Decidable (_ ∨ _))
  | .publishRequest _ | .closeDialog _ _ | .admitTurn _ | .finishWorkCommand _ _
  | .releaseQueuedWork _ | .expireTurn _ | .beginIdleBaseCompaction
  | .prepareIdleBaseCompaction _ _ | .commitPreparedIdleBaseCompaction _
  | .endIdleBaseCompaction => .isTrue trivial

end SessionRuntimeCore

end PiAgentWeb
