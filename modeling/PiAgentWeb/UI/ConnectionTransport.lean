import PiAgentWeb.UI.ConnectionMachine
import PiAgentWeb.Library.Runs

/-!
# The connection of the Session transport

What the transport does with the connection machine: it carries out the intents on a socket, two
timers and a pending authentication, and it feeds the callbacks of these back into the machine. A
socket keeps its callbacks after the transport has dropped it, and a callback acts only if its
socket is still the one in use. The log records what was done, oldest first.
-/

namespace PiAgentWeb

/-- `readyState` of a socket. -/
inductive SocketReadyState where
  | connecting | «open» | closing
  deriving DecidableEq

/-- A `SessionWebSocket`, with the epoch that its callbacks were installed for. -/
structure SessionWebSocket where
  socketId : ℕ
  socketEpoch : ℕ
  readyState : SocketReadyState := .connecting
  deriving DecidableEq

/-- What the connection does that its peers or its user can see. -/
inductive ConnectionRecord where
  | opened (socketEpoch : ℕ)
  | clientHello (socketEpoch : ℕ)
  | serverHello (socketEpoch : ℕ) (serverEpoch : JsString)
  | inventory (socketEpoch : ℕ) (serverEpoch : JsString)
  | handled (socketEpoch : ℕ)
  | dropped (socketEpoch : ℕ)
  | scheduled (socketEpoch delayMs : ℕ)
  deriving DecidableEq

/-- The connection part of `createSessionTransport`. -/
structure SessionTransportConnection where
  machine : SessionConnectionMachineState := {}
  /-- `connectionState` of the store. -/
  connectionState : SessionConnectionObservableState := .idle
  socket : Option SessionWebSocket := none
  /-- The running hello timer, by the epoch that its callback was given. -/
  helloTimer : Option ℕ := none
  reconnectTimer : Option ℕ := none
  /-- `cancelReconnectAuthentication`: the call that is awaited, and its epoch. -/
  reauthentication : Option (ℕ × ℕ) := none
  /-- `contentRefGuardContext`, by its server epoch. -/
  content : Option JsString := none
  disposed : Bool := false
  nextSocket : ℕ := 0
  nextCall : ℕ := 0
  log : List ConnectionRecord := []

/-- A message, by what the guards say of it. -/
structure IncomingMessage where
  /-- Too large, no JSON, or an error of the protocol. -/
  malformed : Bool := false
  /-- `isGatewayServerHello`: its epoch, and whether `installContentForHello` can install content
  for it. -/
  hello : Option (JsString × Bool) := none
  /-- `isSessionWsServerMessage`: the epoch of a runtime inventory, `none` for another message. -/
  message : Option (Option JsString) := none
  /-- `handleInvalidResponse` can settle a command with it. -/
  invalidResponse : Bool := false

/-- Calls of the user and callbacks of sockets, timers and authentication calls. A new socket may
fail to be `created`, and `send` may throw. -/
inductive ConnectionAction where
  | connect (created : Bool)
  | disconnect
  | dispose
  | readyStateChange (socketId : ℕ) (readyState : SocketReadyState)
  | socketOpen (socketId : ℕ) (sends : Bool)
  | socketClose (socketId : ℕ)
  | socketMessage (socketId : ℕ) (message : IncomingMessage)
  | helloTimeout
  | reconnectTimeout (created : Bool)
  | reauthenticated (call : ℕ) (created : Bool)
  | reauthenticationFailed (call : ℕ)

/-- The options of the transport: those of the machine, and whether it can `reauthenticate`. -/
structure SessionTransportOptions extends SessionConnectionMachineOptions where
  reauthenticate : Bool

namespace SessionTransportConnection

variable (options : SessionTransportOptions) (s : SessionTransportConnection)

/-- The record is added to the log. -/
def record (r : ConnectionRecord) : SessionTransportConnection :=
  { s with log := s.log ++ [r] }

/-- `socketForEpoch`. -/
def socketForEpoch (socketEpoch : ℕ) : Option SessionWebSocket :=
  if s.machine.socketEpoch = socketEpoch then s.socket else none

/-- `scheduleReconnect`. -/
def scheduleReconnect (socketEpoch delay : ℕ) :
    SessionTransportConnection :=
  if s.disposed || !s.machine.reconnectEnabled || s.reconnectTimer.isSome then s
  else { s with reconnectTimer := some socketEpoch }.record (.scheduled socketEpoch delay)

/-- `closeSocket`. -/
def closeSocket (socketEpoch : ℕ) : SessionTransportConnection :=
  let s := if s.machine.socketEpoch = socketEpoch then { s with reauthentication := none } else s
  (s.socketForEpoch socketEpoch).elim s fun current =>
    { s with socket := none }.record (.dropped current.socketEpoch)

/-- `handleDisconnected` and `resetDisconnectedState`. -/
def resetDisconnectedState
    (connectionState : SessionConnectionObservableState) : SessionTransportConnection :=
  { s with content := none, helloTimer := none, connectionState }

/-- `transitionConnection` and `applyConnectionIntent`, except that what opens a socket and what
sends the hello are given. -/
def transitionWith (openSocket sendClientHello : SessionTransportConnection → ℕ →
      SessionTransportConnection) (s : SessionTransportConnection)
    (event : SessionConnectionMachineEvent) : SessionTransportConnection :=
  let transition := reduceSessionConnectionMachine options.toSessionConnectionMachineOptions
    s.machine event
  transition.intents.foldl
    (fun s intent =>
      match intent with
      | .openSocket socketEpoch => openSocket s socketEpoch
      | .sendClientHello socketEpoch _ => sendClientHello s socketEpoch
      | .startHelloTimeout socketEpoch _ => { s with helloTimer := some socketEpoch }
      | .clearHelloTimeout _ => { s with helloTimer := none }
      | .scheduleReconnect socketEpoch delayMs => s.scheduleReconnect socketEpoch delayMs
      | .clearReconnectTimer => { s with reconnectTimer := none }
      | .closeSocket socketEpoch => s.closeSocket socketEpoch)
    { s with machine := transition.state, connectionState := transition.state.observableState }

/-- `transitionConnection` with `socket_failed`, and `handleDisconnected`. The failure of a socket
neither opens one nor sends a hello. -/
def socketFailed (socketEpoch : ℕ) : SessionTransportConnection :=
  (transitionWith options (fun s _ => s) (fun s _ => s) s
    (.socketFailed socketEpoch)).resetDisconnectedState .offline

/-- `openAuthenticatedSocket`. -/
def openAuthenticatedSocket (created : Bool) (s : SessionTransportConnection) (socketEpoch : ℕ) :
    SessionTransportConnection :=
  if s.disposed || !s.machine.reconnectEnabled || s.machine.socketEpoch != socketEpoch then s
  else if s.socket.any fun socket => socket.readyState != .closing then s
  else if !created then s.socketFailed options socketEpoch
  else
    { s with
      socket := some { socketId := s.nextSocket, socketEpoch }
      nextSocket := s.nextSocket + 1 }.record (.opened socketEpoch)

/-- `openSocket`. -/
def openSocket (created : Bool) (s : SessionTransportConnection) (socketEpoch : ℕ) :
    SessionTransportConnection :=
  if !options.reauthenticate || socketEpoch = 1 then
    s.openAuthenticatedSocket options created socketEpoch
  else if s.disposed || !s.machine.reconnectEnabled || s.reauthentication.isSome then s
  else { s with reauthentication := some (s.nextCall, socketEpoch), nextCall := s.nextCall + 1 }

/-- The intent `send_client_hello`. -/
def sendClientHello (sends : Bool) (s : SessionTransportConnection) (socketEpoch : ℕ) :
    SessionTransportConnection :=
  if s.machine.socketEpoch = socketEpoch ∧ s.socket.any fun socket => socket.readyState = .open then
    if sends then s.record (.clientHello socketEpoch) else s.socketFailed options socketEpoch
  else s

/-- `transitionConnection`, where a new socket is `created` and `send` returns as the flags say. -/
def transitionConnection (created sends : Bool) (s : SessionTransportConnection)
    (event : SessionConnectionMachineEvent) : SessionTransportConnection :=
  transitionWith options (openSocket options created) (sendClientHello options sends) s event

/-- `enterIncompatible`, called for the socket in use. -/
def enterIncompatible : SessionTransportConnection :=
  (s.transitionConnection options true true
    (.protocolFailure s.machine.socketEpoch)).resetDisconnectedState .incompatible

/-- `current` of a pending authentication. -/
def currentCall (call : ℕ) : Option ℕ :=
  match s.reauthentication with
  | some (pending, socketEpoch) =>
    if pending = call && !s.disposed && s.machine.reconnectEnabled &&
        s.machine.socketEpoch = socketEpoch then some socketEpoch
    else none
  | none => none

/-- `onmessage` of the socket in use. -/
def onMessage (socketEpoch : ℕ) (value : IncomingMessage) :
    SessionTransportConnection :=
  if value.malformed then s.enterIncompatible options
  else if s.content.isNone then
    match value.hello with
    | some (serverEpoch, true) =>
      if s.machine.phase = .awaitingHello then
        ({ s with content := some serverEpoch }.record
            (.serverHello socketEpoch serverEpoch)).transitionConnection options true true
          (.serverHello socketEpoch serverEpoch true)
      else s.enterIncompatible options
    | _ => s.enterIncompatible options
  else if s.machine.phase = .awaitingHello ∧ s.machine.serverEpoch.isSome then
    match value.message with
    | some (some serverEpoch) =>
      if s.machine.serverEpoch = some serverEpoch then
        (s.record (.inventory socketEpoch serverEpoch)).transitionConnection options true true
          (.initialInventory socketEpoch serverEpoch true)
      else s.enterIncompatible options
    | _ => s.enterIncompatible options
  else if s.machine.phase ≠ .ready then s.enterIncompatible options
  else if value.message.isSome then s.record (.handled socketEpoch)
  else if value.invalidResponse then s
  else s.enterIncompatible options

/-- `disconnect`. -/
def disconnect : SessionTransportConnection :=
  ({ s with reauthentication := none }.transitionConnection options true true
    (.disconnect (s.socket.map fun _ => s.machine.socketEpoch))).resetDisconnectedState .offline

/-- One call or callback. -/
def step : ConnectionAction → SessionTransportConnection
  | .connect created =>
    if s.disposed || s.machine.phase = .terminal then s
    else s.transitionConnection options created true .connect
  | .disconnect => s.disconnect options
  | .dispose => if s.disposed then s else { s.disconnect options with disposed := true }
  | .readyStateChange socketId readyState =>
    { s with
      socket := s.socket.map fun socket =>
        if socket.socketId = socketId then { socket with readyState } else socket }
  | .socketOpen socketId sends =>
    match s.socket with
    | some socket =>
      if socket.socketId = socketId ∧ !s.disposed then
        s.transitionConnection options true sends (.socketOpen socket.socketEpoch)
      else s
    | none => s
  | .socketClose socketId =>
    match s.socket with
    | some socket =>
      if socket.socketId = socketId then
        ({ s with socket := none }.record (.dropped socket.socketEpoch)
          |>.transitionConnection options true true (.socketClosed socket.socketEpoch)
          |>.resetDisconnectedState .offline)
      else s
    | none => s
  | .socketMessage socketId value =>
    match s.socket with
    | some socket =>
      if socket.socketId = socketId then s.onMessage options socket.socketEpoch value else s
    | none => s
  | .helloTimeout =>
    match s.helloTimer with
    | some socketEpoch =>
      let s := { s with helloTimer := none }
      if (s.socketForEpoch socketEpoch).isSome then s.enterIncompatible options else s
    | none => s
  | .reconnectTimeout created =>
    match s.reconnectTimer with
    | some socketEpoch =>
      { s with reconnectTimer := none }.transitionConnection options created true
        (.reconnectTimer socketEpoch)
    | none => s
  | .reauthenticated call created =>
    match s.currentCall call with
    | some socketEpoch =>
      { s with reauthentication := none }.openAuthenticatedSocket options created socketEpoch
    | none => s
  | .reauthenticationFailed call =>
    match s.currentCall call with
    | some socketEpoch => { s with reauthentication := none }.socketFailed options socketEpoch
    | none => s

/-- A transport that was just created. -/
def initial : SessionTransportConnection := {}

end SessionTransportConnection

end PiAgentWeb
