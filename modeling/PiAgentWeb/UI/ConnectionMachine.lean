import PiAgentWeb.Library.JsValue

/-!
# The Browser's connection machine

`reduceSessionConnectionMachine`: one attempt after another to reach the server. An attempt is
numbered by its socket epoch, and an event that carries the number of an earlier attempt leaves the
state as it is. What the machine asks for is returned as intents.
-/

namespace PiAgentWeb

/-- `SessionConnectionPhase`. -/
inductive SessionConnectionPhase where
  | closed | connecting | awaitingHello | ready | backoff | terminal
  deriving DecidableEq

/-- `SessionConnectionObservableState`. -/
inductive SessionConnectionObservableState where
  | idle | connecting | online | offline | incompatible
  deriving DecidableEq

/-- `SessionConnectionMachineState`. -/
structure SessionConnectionMachineState where
  phase : SessionConnectionPhase := .closed
  observableState : SessionConnectionObservableState := .idle
  /-- The number of the attempt. -/
  socketEpoch : ℕ := 0
  /-- The server's epoch that the hello of this attempt announced. -/
  serverEpoch : Option JsString := none
  reconnectEnabled : Bool := false
  reconnectAttempt : ℕ := 0
  deriving DecidableEq

/-- `SessionConnectionMachineOptions`. -/
structure SessionConnectionMachineOptions where
  clientHello : Json
  helloTimeoutMs : ℕ
  reconnectBaseMs : ℕ
  reconnectMaxMs : ℕ

/-- `SessionConnectionMachineEvent`. -/
inductive SessionConnectionMachineEvent where
  | connect
  | socketOpen (socketEpoch : ℕ)
  | socketFailed (socketEpoch : ℕ)
  | serverHello (socketEpoch : ℕ) (serverEpoch : JsString) (accepted : Bool)
  | initialInventory (socketEpoch : ℕ) (serverEpoch : JsString) (accepted : Bool)
  | socketClosed (socketEpoch : ℕ)
  | protocolFailure (socketEpoch : ℕ)
  | reconnectTimer (socketEpoch : ℕ)
  | disconnect (socketEpoch : Option ℕ)

/-- `SessionConnectionMachineIntent`. -/
inductive SessionConnectionMachineIntent where
  | openSocket (socketEpoch : ℕ)
  | sendClientHello (socketEpoch : ℕ) (hello : Json)
  | startHelloTimeout (socketEpoch delayMs : ℕ)
  | clearHelloTimeout (socketEpoch : ℕ)
  | scheduleReconnect (socketEpoch delayMs : ℕ)
  | clearReconnectTimer
  | closeSocket (socketEpoch : ℕ)

/-- `SessionConnectionMachineTransition`. -/
structure SessionConnectionMachineTransition where
  state : SessionConnectionMachineState
  intents : List SessionConnectionMachineIntent := []

/-- `reconnectDelay`. -/
def reconnectDelay (options : SessionConnectionMachineOptions) (attempt : ℕ) : ℕ :=
  min (options.reconnectBaseMs * 2 ^ attempt) options.reconnectMaxMs

namespace SessionConnectionMachineState

/-- `stale`. -/
def stale (state : SessionConnectionMachineState) (socketEpoch : ℕ) : Bool :=
  state.socketEpoch != socketEpoch

/-- `backoff`. -/
def backoff (state : SessionConnectionMachineState) (options : SessionConnectionMachineOptions)
    (intents : List SessionConnectionMachineIntent) : SessionConnectionMachineTransition where
  state :=
    { state with
      phase := if state.reconnectEnabled then .backoff else .closed
      observableState := .offline
      serverEpoch := none
      reconnectAttempt := state.reconnectAttempt + 1 }
  intents :=
    if state.reconnectEnabled then
      intents ++
        [.scheduleReconnect state.socketEpoch (reconnectDelay options state.reconnectAttempt)]
    else intents

/-- `terminal`. -/
def terminal (state : SessionConnectionMachineState) (socketEpoch : ℕ) :
    SessionConnectionMachineTransition where
  state :=
    { state with
      phase := .terminal
      observableState := .incompatible
      serverEpoch := none
      reconnectEnabled := false }
  intents := [.clearReconnectTimer, .clearHelloTimeout socketEpoch, .closeSocket socketEpoch]

/-- The event `connect`, which `reconnect_timer` hands over to. -/
def connect (state : SessionConnectionMachineState) : SessionConnectionMachineTransition :=
  match state.phase with
  | .terminal | .connecting | .awaitingHello => { state }
  | .ready =>
    if state.reconnectEnabled then { state }
    else { state := { state with reconnectEnabled := true } }
  | .closed | .backoff =>
    { state :=
        { state with
          phase := .connecting
          observableState := .connecting
          socketEpoch := state.socketEpoch + 1
          serverEpoch := none
          reconnectEnabled := true }
      intents := [.clearReconnectTimer, .openSocket (state.socketEpoch + 1)] }

end SessionConnectionMachineState

/-- `reduceSessionConnectionMachine`. -/
def reduceSessionConnectionMachine (options : SessionConnectionMachineOptions)
    (state : SessionConnectionMachineState) :
    SessionConnectionMachineEvent → SessionConnectionMachineTransition
  | .connect => state.connect
  | .socketOpen socketEpoch =>
    if state.stale socketEpoch || state.phase != .connecting then { state }
    else
      { state := { state with phase := .awaitingHello }
        intents :=
          [.sendClientHello socketEpoch options.clientHello,
            .startHelloTimeout socketEpoch options.helloTimeoutMs] }
  | .socketFailed socketEpoch =>
    if state.stale socketEpoch ||
        (state.phase != .connecting && state.phase != .awaitingHello) then { state }
    else state.backoff options [.clearHelloTimeout socketEpoch, .closeSocket socketEpoch]
  | .serverHello socketEpoch serverEpoch accepted =>
    if state.stale socketEpoch || state.phase != .awaitingHello then { state }
    else if !accepted then state.terminal socketEpoch
    else { state := { state with serverEpoch := some serverEpoch } }
  | .initialInventory socketEpoch serverEpoch accepted =>
    if state.stale socketEpoch || state.phase != .awaitingHello then { state }
    else if !accepted || state.serverEpoch != some serverEpoch then state.terminal socketEpoch
    else
      { state :=
          { state with phase := .ready, observableState := .online, reconnectAttempt := 0 }
        intents := [.clearHelloTimeout socketEpoch] }
  | .socketClosed socketEpoch =>
    if state.stale socketEpoch || state.phase == .terminal || state.phase == .closed then { state }
    else state.backoff options []
  | .protocolFailure socketEpoch =>
    if state.stale socketEpoch || state.phase == .terminal then { state }
    else state.terminal socketEpoch
  | .reconnectTimer socketEpoch =>
    if state.stale socketEpoch || state.phase != .backoff || !state.reconnectEnabled then { state }
    else state.connect
  | .disconnect socketEpoch =>
    { state :=
        { state with
          phase := .closed
          observableState := .offline
          serverEpoch := none
          reconnectEnabled := false }
      intents :=
        .clearReconnectTimer ::
          socketEpoch.elim [] fun epoch => [.clearHelloTimeout epoch, .closeSocket epoch] }

end PiAgentWeb
