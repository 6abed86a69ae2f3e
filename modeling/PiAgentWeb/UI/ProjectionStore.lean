import PiAgentWeb.Library.Runs
import PiAgentWeb.UI.HistoryProjection

/-!
# The projection of one Session

`useProjectionStore` keeps a projection for each Session and the number of older pages put in front
of it. What is modelled is one Session: live events, authoritative snapshots and older pages arrive
in any order, each read in its own representation, the runtime may fail, and the store may drop the
projection.
-/

namespace PiAgentWeb

/-- A live event together with the context it is reduced in. -/
structure LiveEvent where
  {J T : Type}
  ctx : ReducerContext J T
  event : SessionEvent J T

/-- Settled messages together with their representation. -/
structure SettledBatch where
  {J T : Type}
  representation : PayloadRepresentation J T
  messages : List (SettledMessage J T)

/-- The projection is rebuilt from a batch. -/
def SettledBatch.rebuild (batch : SettledBatch) (sessionId : JsString) : ConversationProjection :=
  rebuildProjectionFromMessages batch.representation sessionId batch.messages

/-- The event is an extension error, which snapshots leave out. -/
def SessionEvent.isExtensionError {J T : Type} : SessionEvent J T → Bool
  | .extensionError _ _ _ => true
  | _ => false

/-- The events reduced one after another. -/
def reduceEvents (projection : ConversationProjection) (events : List LiveEvent) :
    ConversationProjection :=
  events.foldl (fun next live => reduceProjection live.ctx next live.event) projection

/-- What the store keeps of one Session; `batch` is the entry of `historicalBatchBySession`. -/
structure SessionProjection where
  projection : Option ConversationProjection
  batch : Option ℕ

/-- The actions of the store on one Session. -/
inductive SessionProjectionAction where
  | applyEvents (events : List LiveEvent)
  | rebuildFromMessages (settled : SettledBatch)
  | prependHistoricalMessages (settled : SettledBatch)
  | applyAuthoritativeSnapshot (settled : SettledBatch) (projectionEvents : List LiveEvent)
  | markRuntimeFailure (now : ℤ) (error : Option JsString)
  | resetSession
  /-- The Session is dropped from the cache of projections. -/
  | prune

namespace SessionProjection

/-- The store before anything of the Session has arrived. -/
def initial : SessionProjection := { projection := none, batch := none }

/-- The projection, empty when there is none. -/
def current (s : SessionProjection) (sessionId : JsString) : ConversationProjection :=
  s.projection.getD (createEmptyProjection sessionId)

/-- `markRuntimeFailure` of a turn. -/
def failTurn (now : ℤ) (error : Option JsString) (turn : ProductTurn) : ProductTurn :=
  let startTime := (turn.timing.map (·.startTime)).getD now
  convergeHangingToolCalls
    { turn with
      status := .error
      errorMessage := error
      timing := some
        { startTime := startTime
          endTime := some now
          durationMs := some (max 0 (now - startTime)) } }

/-- `markRuntimeFailure` of the projection, whose active turn has an id that is not empty. -/
def failProjection (now : ℤ) (error : Option JsString) (projection : ConversationProjection) :
    ConversationProjection :=
  { projection with
    activeTurnId := none
    replayable := true
    turns := projection.turns.map fun turn =>
      if some turn.id = projection.activeTurnId then failTurn now error turn else turn }

/-- An action of the store. -/
def step (sessionId : JsString) (s : SessionProjection) :
    SessionProjectionAction → SessionProjection
  | .applyEvents events =>
    if events.isEmpty then s
    else { s with projection := some (reduceEvents (s.current sessionId) events) }
  | .rebuildFromMessages settled =>
    { projection := some (settled.rebuild sessionId), batch := none }
  | .prependHistoricalMessages settled =>
    if settled.messages.isEmpty then s
    else if (settled.rebuild sessionId).turns.isEmpty then s
    else
      let view := PiAgentWeb.prependHistoricalMessages settled.representation sessionId
        { projection := s.current sessionId, batch := s.batch.getD 0 } settled.messages
      { projection := some view.projection, batch := some view.batch }
  | .applyAuthoritativeSnapshot settled projectionEvents =>
    { projection := some (reduceEvents (settled.rebuild sessionId)
        (projectionEvents.filter fun live => !live.event.isExtensionError))
      batch := none }
  | .markRuntimeFailure now error =>
    match s.projection with
    | none => s
    | some projection =>
      match projection.activeTurnId with
      | none | some [] => s
      | some _ => { s with projection := some (failProjection now error projection) }
  | .resetSession => initial
  | .prune => { s with projection := none }

end SessionProjection

end PiAgentWeb
