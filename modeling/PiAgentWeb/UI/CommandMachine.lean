import PiAgentWeb.Library.InsertionMap
import PiAgentWeb.Protocol.Control

/-!
# The command machine of the Session transport

`command-machine.ts`: the reducer behind the commands that the UI sends to a Session. A request is
pending under its command id until its response is there and the projection has reached it, or until
it is rejected. The callbacks of a request are named by its token. Command ids are not the names of
inherited object properties, and pending requests are listed in the order they were accepted.
-/

namespace PiAgentWeb

/-- `READ_ONLY_RPC_COMMAND_TYPES`. -/
def READ_ONLY_RPC_COMMAND_TYPES : List String :=
  ["get_available_models", "get_available_thinking_levels", "get_commands", "get_entries",
    "get_fork_messages", "get_last_assistant_text", "get_messages", "get_session_stats",
    "get_state", "get_tree"]

/-- `isReadOnlyRpcCommand`. -/
def isReadOnlyRpcCommand (commandType : JsString) : Bool :=
  READ_ONLY_RPC_COMMAND_TYPES.any fun name => js name == commandType

/-- `SessionCommandDto`: its type and id; no reducer reads the other members. -/
structure SessionCommand where
  type : JsString
  id : Option JsString
  members : List (JsString × Json)

/-- `SessionCommandMachineErrorCode`. -/
inductive SessionCommandMachineErrorCode where
  | disconnected | duplicateCommandId | payloadTooLarge | responseMismatch | sessionNotReady
  | sessionNotSubscribed | sessionReadOnly | staleResync | timeout | unavailable | custom
  deriving DecidableEq

/-- The text of an error code. -/
def SessionCommandMachineErrorCode.text : SessionCommandMachineErrorCode → JsString
  | .disconnected => js "disconnected"
  | .duplicateCommandId => js "duplicate_command_id"
  | .payloadTooLarge => js "payload_too_large"
  | .responseMismatch => js "response_mismatch"
  | .sessionNotReady => js "session_not_ready"
  | .sessionNotSubscribed => js "session_not_subscribed"
  | .sessionReadOnly => js "session_read_only"
  | .staleResync => js "stale_resync"
  | .timeout => js "timeout"
  | .unavailable => js "unavailable"
  | .custom => js "custom"

/-- `SessionCommandMachineError`. -/
structure SessionCommandMachineError where
  code : SessionCommandMachineErrorCode
  message : JsString
  deriving DecidableEq

/-- `PiSessionCommandResponseDto`: its id and command, and the members that carry the result. -/
structure SessionCommandResponse where
  id : Option JsString
  command : JsString
  members : List (JsString × Json)

/-- `SessionCommandMachineResolvedResponse`. -/
structure SessionCommandMachineResolvedResponse where
  serverEpoch : JsString
  sessionHandle : SessionHandle
  generation : ℕ
  barrierSeq : ℕ
  response : SessionCommandResponse
  previousSessionHandle : Option SessionHandle

/-- A response frame, with the text that `JSON.stringify` prints for it. -/
structure SessionResponseFrame extends SessionCommandMachineResolvedResponse where
  text : JsString

/-- `SessionCommandMachineCompletion`. -/
structure SessionCommandMachineCompletion extends SessionCommandMachineResolvedResponse where
  workspaceId : JsString

/-- `SessionCommandMachinePending`. -/
structure SessionCommandMachinePending where
  id : JsString
  token : ℕ
  serverEpoch : JsString
  workspaceId : JsString
  sessionHandle : SessionHandle
  generation : ℕ
  commandType : JsString
  response : Option SessionCommandMachineResolvedResponse
  historyBarrierSeq : Option ℕ
  responseKey : Option JsString
  materializing : Bool

/-- `SessionCommandMachineState`. -/
structure SessionCommandMachineState where
  pending : InsertionMap JsString SessionCommandMachinePending
  nextCommandNumber : ℕ
  nextPendingToken : ℕ

/-- A `request` event. A fencing token that is empty counts like none. -/
structure SessionCommandRequest where
  sessionHandle : SessionHandle
  command : SessionCommand
  timeoutMs : ℕ
  now : ℕ
  subscribed : Bool
  online : Bool
  socketReady : Bool
  generation : Option ℕ
  currentIdentity : Option SessionRuntimeIdentity
  baselineAuthoritative : Bool
  freshLeaseBaseline : Option SessionRuntimeIdentity
  isController : Bool
  fencingToken : Option FencingToken

/-- A `projection_advanced` event. -/
structure ProjectionAdvance where
  sessionHandle : SessionHandle
  currentIdentity : Option SessionRuntimeIdentity
  baselineAuthoritative : Bool
  projectedSeq : ℕ

/-- `SessionCommandMachineEvent`. -/
inductive SessionCommandMachineEvent where
  | request (request : SessionCommandRequest)
  | sendFailed (id : JsString) (token : ℕ) (error : SessionCommandMachineError)
  | timeout (id : JsString) (token : ℕ)
  | reject (id : JsString) (token : Option ℕ) (error : SessionCommandMachineError)
  | rejectForSession (sessionHandle : SessionHandle) (error : SessionCommandMachineError)
  | rejectAll (error : SessionCommandMachineError)
  | wireResponse (message : SessionResponseFrame) (history : Bool)
  | inlineResponse (message : SessionResponseFrame)
  | responseMaterialized (id : JsString) (token : ℕ)
      (response : SessionCommandMachineResolvedResponse)
  | projectionAdvanced (advance : ProjectionAdvance)

/-- The `command` message to the server. -/
structure CommandWireMessage where
  sessionHandle : SessionHandle
  expectedGeneration : ℕ
  fencingToken : Option FencingToken
  command : SessionCommand

/-- `SessionCommandMachineIntent`. -/
inductive SessionCommandMachineIntent where
  | startTimer (id : JsString) (token : ℕ) (delayMs : ℕ)
  | clearTimer (id : JsString) (token : ℕ)
  | send (message : CommandWireMessage) (id : JsString) (token : ℕ)
  | startMaterialization (id : JsString) (token : ℕ) (message : SessionResponseFrame)
      (history : Bool)
  | abortMaterialization (id : JsString) (token : ℕ)
  | resolve (id : JsString) (token : ℕ) (completion : SessionCommandMachineCompletion)
  | reject (id : JsString) (token : ℕ) (error : SessionCommandMachineError)

/-- `SessionCommandMachineTransition`. -/
structure SessionCommandMachineTransition where
  state : SessionCommandMachineState
  intents : List SessionCommandMachineIntent := []
  accepted : Bool := false
  error : Option SessionCommandMachineError := none

/-- `createInitialSessionCommandMachineState`. -/
def createInitialSessionCommandMachineState : SessionCommandMachineState where
  pending := .empty
  nextCommandNumber := 0
  nextPendingToken := 1

/-- `identityMatches`. -/
def commandIdentityMatches (left right : Option SessionRuntimeIdentity) : Bool :=
  match left, right with
  | some left, some right => left = right
  | _, _ => false

/-- `isMutation`. -/
def isMutation (command : SessionCommand) : Bool := !isReadOnlyRpcCommand command.type

/-- `isIdentityTransitionCommand`. -/
def isIdentityTransitionCommand (commandType : JsString) : Bool :=
  commandType = js "fork" || commandType = js "clone"

/-- `isResponseIdentityMatch`. -/
def isResponseIdentityMatch (pending : SessionCommandMachinePending)
    (message : SessionResponseFrame) : Bool :=
  (pending.serverEpoch = message.serverEpoch && pending.sessionHandle = message.sessionHandle &&
      pending.generation = message.generation) ||
    (isIdentityTransitionCommand pending.commandType &&
      message.serverEpoch = pending.serverEpoch &&
      message.previousSessionHandle = some pending.sessionHandle)

/-- `gateError` with the text of the code. -/
def gateError (code : SessionCommandMachineErrorCode) : SessionCommandMachineError :=
  { code, message := code.text }

/-- `transition` of a rejected event. -/
def refused (state : SessionCommandMachineState) (code : SessionCommandMachineErrorCode) :
    SessionCommandMachineTransition :=
  { state, error := some (gateError code) }

/-- `rejectIntents`. -/
def rejectIntents (pending : SessionCommandMachinePending) (error : SessionCommandMachineError) :
    List SessionCommandMachineIntent :=
  (if pending.materializing then [.abortMaterialization pending.id pending.token] else []) ++
    [.clearTimer pending.id pending.token, .reject pending.id pending.token error]

/-- `resolveIntents`. -/
def resolveIntents (pending : SessionCommandMachinePending)
    (completion : SessionCommandMachineCompletion) : List SessionCommandMachineIntent :=
  [.clearTimer pending.id pending.token, .resolve pending.id pending.token completion]

/-- `settleReject`. -/
def settleReject (state : SessionCommandMachineState) (pending : SessionCommandMachinePending)
    (error : SessionCommandMachineError) : SessionCommandMachineTransition :=
  { state := { state with pending := state.pending.erase pending.id }
    intents := rejectIntents pending error }

/-- `settleResolve`. -/
def settleResolve (state : SessionCommandMachineState) (pending : SessionCommandMachinePending) :
    SessionCommandMachineTransition :=
  match pending.response with
  | none => { state }
  | some response =>
    { state := { state with pending := state.pending.erase pending.id }
      intents := resolveIntents pending { response with workspaceId := pending.workspaceId } }

/-- A digit of `Number.prototype.toString(36)`. -/
def base36Digit (n : ℕ) : UInt16 := UInt16.ofNat (if n < 10 then 0x30 + n else 0x61 + (n - 10))

/-- The digits of `Number.prototype.toString(36)`; the first argument bounds their number. -/
def base36Digits : ℕ → ℕ → JsString → JsString
  | 0, _, digits => digits
  | bound + 1, n, digits =>
    if n < 36 then base36Digit n :: digits
    else base36Digits bound (n / 36) (base36Digit (n % 36) :: digits)

/-- The id of a request whose command has none. -/
def generatedCommandId (nextCommandNumber now : ℕ) : JsString :=
  js "session-ui-" ++ jsNat nextCommandNumber ++ js "-" ++ base36Digits (now + 1) now []

/-- The gates of a request, in their order. -/
def requestGate (request : SessionCommandRequest) : Option SessionCommandMachineErrorCode :=
  let mutation := isMutation request.command
  if !request.subscribed then some .sessionNotSubscribed
  else if !request.online || !request.socketReady then some .unavailable
  else if request.generation.isNone then some .sessionNotReady
  else if mutation && !request.baselineAuthoritative then some .sessionNotReady
  else if mutation && (!request.isController || request.fencingToken.isNone) then
    some .sessionReadOnly
  else if mutation &&
      !commandIdentityMatches request.currentIdentity request.freshLeaseBaseline then
    some .sessionNotReady
  else none

/-- The `request` event. -/
def reduceRequest (state : SessionCommandMachineState) (request : SessionCommandRequest) :
    SessionCommandMachineTransition :=
  match requestGate request, request.generation with
  | some code, _ => refused state code
  | none, none => refused state .sessionNotReady
  | none, some generation =>
    let nextCommandNumber := state.nextCommandNumber + 1
    let id := request.command.id.getD (generatedCommandId nextCommandNumber request.now)
    let nextState := { state with nextCommandNumber := nextCommandNumber }
    if (state.pending.get? id).isSome then refused nextState .duplicateCommandId
    else
      let token := state.nextPendingToken
      let pending : SessionCommandMachinePending :=
        { id := id, token := token
          serverEpoch := (request.currentIdentity.map (·.serverEpoch)).getD []
          workspaceId := (request.currentIdentity.map (·.workspaceId)).getD []
          sessionHandle := request.sessionHandle, generation := generation
          commandType := request.command.type, response := none, historyBarrierSeq := none
          responseKey := none, materializing := false }
      let message : CommandWireMessage :=
        { sessionHandle := request.sessionHandle, expectedGeneration := generation
          fencingToken := if isMutation request.command then request.fencingToken else none
          command := { request.command with id := some id } }
      { state :=
          { nextState with
            nextPendingToken := token + 1, pending := state.pending.insert id pending }
        intents := [.startTimer id token request.timeoutMs, .send message id token]
        accepted := true }

/-- The pending request that an event names by its id and token. -/
def pendingWithToken (state : SessionCommandMachineState) (id : JsString) (token : ℕ) :
    Option SessionCommandMachinePending :=
  (state.pending.get? id).filter fun pending => pending.token = token

/-- A loop over the pending requests that settles some of them. -/
def settleLoop (settle : SessionCommandMachineState → SessionCommandMachinePending →
      Option SessionCommandMachineTransition)
    (state : SessionCommandMachineState) : SessionCommandMachineTransition :=
  (state.pending.entries.map (·.2)).foldl
    (fun current pending =>
      match settle current.state pending with
      | none => current
      | some result =>
        { state := result.state, intents := current.intents ++ result.intents, accepted := true })
    { state }

/-- One round of a loop that rejects. -/
def rejectRound (selects : SessionCommandMachinePending → Bool)
    (error : SessionCommandMachineError) (state : SessionCommandMachineState)
    (pending : SessionCommandMachinePending) : Option SessionCommandMachineTransition :=
  if selects pending then
    some (settleReject state ((state.pending.get? pending.id).getD pending) error)
  else none

/-- The response of a pending request is there and the projection has reached it. -/
def reachedBy (identity : SessionRuntimeIdentity) (projectedSeq : ℕ)
    (candidate : SessionCommandMachinePending) : Bool :=
  match candidate.response with
  | none => false
  | some response =>
    !candidate.materializing && response.serverEpoch = identity.serverEpoch &&
      response.sessionHandle = identity.sessionHandle &&
      response.generation = identity.generation &&
      identity.workspaceId = candidate.workspaceId && response.barrierSeq ≤ projectedSeq

/-- One round of the loop of `projection_advanced`. -/
def resolveRound (identity : SessionRuntimeIdentity) (projectedSeq : ℕ)
    (state : SessionCommandMachineState) (pending : SessionCommandMachinePending) :
    Option SessionCommandMachineTransition :=
  match state.pending.get? pending.id with
  | none => none
  | some candidate =>
    if reachedBy identity projectedSeq candidate then some (settleResolve state candidate) else none

/-- The text of a response that does not match its request. -/
def responseMismatch (id : JsString) (message : SessionResponseFrame) :
    SessionCommandMachineError where
  code := .responseMismatch
  message := js "Response " ++ id ++ js " targeted " ++ message.sessionHandle ++ js "@" ++
    jsNat message.generation

/-- The request that a response answers, where an empty id counts like none. -/
def responseId (message : SessionResponseFrame) : Option JsString :=
  message.response.id.filter (· ≠ [])

/-- The response is for the command of a pending request and comes from its target. -/
def answersPending (pending : SessionCommandMachinePending) (message : SessionResponseFrame) :
    Bool :=
  pending.commandType = message.response.command && isResponseIdentityMatch pending message

/-- The pending request under an id is replaced. -/
def putPending (state : SessionCommandMachineState) (id : JsString)
    (pending : SessionCommandMachinePending) : SessionCommandMachineState :=
  { state with pending := state.pending.insert id pending }

/-- A response that matches its request, over the wire. -/
def acceptWireResponse (state : SessionCommandMachineState) (id : JsString)
    (pending : SessionCommandMachinePending) (message : SessionResponseFrame) (history : Bool) :
    SessionCommandMachineTransition :=
  if history then
    match pending.responseKey with
    | some key =>
      if key = message.text then { state, accepted := true }
      else
        { settleReject state pending
            { code := .responseMismatch
              message := js "Response " ++ id ++
                js " changed while content history was materializing" } with
          accepted := true }
    | none =>
      { state := putPending state id
          { pending with
            responseKey := some message.text, historyBarrierSeq := some message.barrierSeq
            materializing := true }
        intents := [.startMaterialization id pending.token message true]
        accepted := true }
  else
    { state := putPending state id { pending with materializing := true }
      intents := [.startMaterialization id pending.token message false]
      accepted := true }

/-- A response that matches its request, in one piece. -/
def acceptInlineResponse (state : SessionCommandMachineState) (id : JsString)
    (pending : SessionCommandMachinePending) (message : SessionResponseFrame) :
    SessionCommandMachineTransition :=
  { state := putPending state id
      { pending with
        response := some message.toSessionCommandMachineResolvedResponse, materializing := false
        historyBarrierSeq := none, responseKey := none }
    intents := [.abortMaterialization id pending.token]
    accepted := true }

/-- The checks that both kinds of responses begin with. -/
def reduceResponse (state : SessionCommandMachineState) (message : SessionResponseFrame)
    (accept : JsString → SessionCommandMachinePending → SessionCommandMachineTransition) :
    SessionCommandMachineTransition :=
  match responseId message with
  | none => { state }
  | some id =>
    match state.pending.get? id with
    | none => { state, accepted := true }
    | some pending =>
      if answersPending pending message then accept id pending
      else { settleReject state pending (responseMismatch id message) with accepted := true }

/-- `reduceSessionCommandMachine`. -/
def reduceSessionCommandMachine (state : SessionCommandMachineState) :
    SessionCommandMachineEvent → SessionCommandMachineTransition
  | .request request => reduceRequest state request
  | .sendFailed id token error =>
    match pendingWithToken state id token with
    | none => { state }
    | some pending => settleReject state pending error
  | .timeout id token =>
    match pendingWithToken state id token with
    | none => { state }
    | some pending =>
      settleReject state pending
        { code := .timeout
          message := js "Command " ++ pending.commandType ++ js " timed out" }
  | .reject id token error =>
    match (state.pending.get? id).filter fun pending => token.all (· = pending.token) with
    | none => { state }
    | some pending => settleReject state pending error
  | .rejectForSession sessionHandle error =>
    settleLoop
      (rejectRound
        (fun pending => pending.sessionHandle = sessionHandle ||
          pending.response.any fun response => response.sessionHandle = sessionHandle) error)
      state
  | .rejectAll error => settleLoop (rejectRound (fun _ => true) error) state
  | .wireResponse message history =>
    reduceResponse state message fun id pending =>
      acceptWireResponse state id pending message history
  | .inlineResponse message =>
    reduceResponse state message fun id pending => acceptInlineResponse state id pending message
  | .responseMaterialized id token response =>
    match pendingWithToken state id token with
    | none => { state }
    | some pending =>
      { state := putPending state id
          { pending with response := some response, materializing := false }
        accepted := true }
  | .projectionAdvanced advance =>
    match advance.baselineAuthoritative, advance.currentIdentity with
    | true, some identity => settleLoop (resolveRound identity advance.projectedSeq) state
    | _, _ => { state }

end PiAgentWeb
