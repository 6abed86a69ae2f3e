import PiAgentWeb.Server.RuntimeDelivery

/-!
# The ends of startups and transitions

During startup and during an identity transition a frame only enters a buffer. At the end the
projection gets a new base, the buffered frames are checked against the budgets, and they are
published as a whole.
-/

namespace PiAgentWeb

variable {J T : Type}

namespace SessionRuntimeCore

variable (opts : SessionRuntimeOptions J T)

/-- A projection base of the generation, from settled messages. -/
def projectionBase (identity : SessionLiveProjectionIdentity)
    (settledMessages : List (SessionMessage J T)) (phase : SessionLiveRuntimePhase) :
    Except SessionLiveProjectionError (SessionLiveProjection J T) :=
  SessionLiveProjection.create identity opts.projectionLimits opts.codec (some opts.schema)
    settledMessages 0 phase

/-- The phase a projection base starts in. -/
def basePhase (r : SessionRuntimeCore J T) : SessionLiveRuntimePhase :=
  if r.extension.pendingDialogs.entries.isEmpty then .idle else .waitingUi

/-- `initializeProjectionBase`. -/
def initializeProjectionBase (r : SessionRuntimeCore J T)
    (settledMessages : List (SessionMessage J T)) : Result J T Unit :=
  match projectionBase opts r.identity settledMessages r.basePhase with
  | .error error => r.throwProjection error
  | .ok projection => ({ r with liveProjection := some projection }, .ok ())

/-- `publishFrame` of an event and `emitFrame` of the other frames, one after another. -/
def flushFrames : List (BufferedFrame J T) → SessionRuntimeCore J T → Result J T Unit
  | [], r => (r, .ok ())
  | .event value :: rest, r =>
    ((prepareActiveEventPublication opts r value).andThen fun r prepared =>
      r.commitActiveEventPublication prepared).andThen fun r _ => flushFrames rest r
  | frame :: rest, r => (emitFrame opts r frame id).andThen fun r _ => flushFrames rest r

/-- `authoritativeContentRefStartupFrames`: dialogs that were closed during startup are left out. -/
def authoritativeStartupFrames (r : SessionRuntimeCore J T) : List (BufferedFrame J T) :=
  r.startupFrames.filter fun
    | .extensionUiRequest request object =>
      !request.body.blocking ||
        (r.extension.pendingDialogs.get? request.id).any (·.object = object)
    | _ => true

/-- `assertSnapshotFits`. -/
def assertSnapshotFits (r : SessionRuntimeCore J T) : Result J T Unit :=
  match r.liveProjection.filter (·.live.asOfSeq = r.lastSeq) with
  | none => (r, .error (rpc "session_snapshot" "session_snapshot_unavailable"))
  | some projection =>
    if opts.snapshotFits projection.live r.extension then (r, .ok ())
    else r.throwProjection (.limitExceeded .snapshot)

/-- The rest of `spawn` after the projection base is loaded. -/
def completeStartup (r : SessionRuntimeCore J T) : Result J T Unit :=
  (r.setState r.basePhase).andThen fun r _ =>
  (flushFrames opts r.authoritativeStartupFrames r).andThen fun r _ =>
  ({ r with startupFrames := [], startupFrameBytes := 0 }.setState r.busyState).andThen fun r _ =>
  (assertSnapshotFits opts r).andThen fun r _ => ({ r with startupReady := true }, .ok ())

/-- `expandContentRefTransitionSemanticPlan`, frame by frame. -/
def expandTransitionPlan (tracked : ExtensionState J T) :
    List (BufferedFrame J T) → ExtensionState J T → ℕ →
      Except RuntimeError (ExtensionSemanticPlan J T × ℕ)
  | [], extension, nextObject => .ok ({ frames := [], extension := extension }, nextObject)
  | frame :: rest, extension, nextObject =>
    let keepFrame := do
      let (plan, nextObject) ← expandTransitionPlan tracked rest extension nextObject
      return ({ plan with frames := frame :: plan.frames }, nextObject)
    match frame with
    | .extensionUiRequest request object =>
      if request.body.blocking then
        if (tracked.pendingDialogs.get? request.id).any (·.object = object) then keepFrame
        else expandTransitionPlan tracked rest extension nextObject
      else do
        let (plan, nextObject) ←
          planExtensionRequestSemanticMutation opts request object true extension nextObject
        let (later, nextObject) ← expandTransitionPlan tracked rest plan.extension nextObject
        return ({ later with frames := plan.frames ++ later.frames }, nextObject)
    | _ => keepFrame

/-- `prepareTransitionTurnBudget`. -/
def prepareTransitionTurnBudget (projection : SessionLiveProjection J T) :
    List (BufferedFrame J T) → SessionRuntimeCore J T → Except SessionLiveProjectionError TurnBudget
  | [], r => .ok r.turnBudget
  | .event event :: rest, r => do
    let turnBudget ← r.turnWithEvent projection event
    let logicalBytes ← turnLogicalBytes opts r event
    let agentBusy :=
      if eventSettlesWork event then false
      else r.operational.agentBusy || eventStartsWork event ||
        (match event with | .compactionEnd _ _ willRetry .. => willRetry | _ => false)
    prepareTransitionTurnBudget projection rest
      { r with
        turnBudget :=
          if eventSettlesWork event then .zero
          else { turnBudget with logicalBytes := logicalBytes }
        operational := { r.operational with agentBusy := agentBusy } }
  | _ :: rest, r => prepareTransitionTurnBudget projection rest r

/-- The events of a committed batch, applied to the state one after another. -/
def applyFrames : List (BufferedFrame J T) → SessionRuntimeCore J T → Result J T Unit
  | [], r => (r, .ok ())
  | .event value :: rest, r => (r.applyEventState value).andThen fun r _ => applyFrames rest r
  | _ :: rest, r => applyFrames rest r

/-- An error of a transition commit is normalized. -/
def normalizeResult {A : Type} (result : Result J T A) : Result J T A :=
  match result with
  | (r, .error (.projection error)) => r.throwProjection error
  | result => result

/-- `commitTransitionFrames`: the staged frames are one batch. -/
def commitTransitionFrames (r : SessionRuntimeCore J T) : Result J T Unit :=
  normalizeResult <|
    match r.transitionStage with
    | none => (r, .error (rpc "session_transition" "session_generation_stale"))
    | some stage =>
      if stage.frames.isEmpty then (r, .ok ())
      else
        match expandTransitionPlan opts r.extension stage.frames r.extension r.nextObject with
        | .error error => (r, .error error)
        | .ok (plan, nextObject) =>
          let r := { r with nextObject := nextObject }
          match totalFrameBytes opts plan.frames, r.liveProjection with
          | none, _ =>
            (r, .error (rpc "session_transition" "transition_frame_buffer_limit_exceeded"))
          | _, none => (r, .error (rpc "session_transition" "session_snapshot_unavailable"))
          | some _, some projection =>
            let emptied (r : SessionRuntimeCore J T) : SessionRuntimeCore J T :=
              { r with
                transitionStage := r.transitionStage.map fun stage =>
                  { stage with frames := [], bytes := 0 } }
            if plan.frames.isEmpty then (emptied r, .ok ())
            else
              match prepareTransitionTurnBudget opts projection plan.frames r with
              | .error error => (r, .error (.projection error))
              | .ok turnBudget =>
                (prepareExtensionSemanticOperation opts r stage.processToken plan).andThen
                  fun r prepared =>
                (r.commitExtensionSemanticOperation prepared).andThen fun r _ =>
                (applyFrames plan.frames r).andThen fun r _ =>
                  (emptied { r with turnBudget := turnBudget }, .ok ())

end SessionRuntimeCore

end PiAgentWeb
