import PiAgentWeb.Library.Retention
import PiAgentWeb.Protocol.SessionHistoryFrames

/-!
# Outbound and pending-response accounting

The bridge retains every payload it queues for a socket, every message it buffers for a catch-up and
every history page it reads in one total of the gateway, and the weight of every pending command
response in another. An action is what the bridge does at one call: a send, a callback of the
socket, a buffered message, a transfer between journals, a disconnect. Which sockets, catch-ups and
commands the calls are for, and what the socket says, is up to the run.
-/

namespace PiAgentWeb

/-- `MAX_SESSION_WS_BUFFERED_BYTES`. -/
def MAX_SESSION_WS_BUFFERED_BYTES : ℕ := 1024 * 1024

/-- `MAX_SESSION_WS_IN_FLIGHT_COMMANDS`. -/
def MAX_SESSION_WS_IN_FLIGHT_COMMANDS : ℕ := 32

/-- The caps of a bridge. -/
structure BridgeLimits where
  maxPendingCommandResponseBytes : ℕ
  maxGatewayPendingCommandResponseBytes : ℕ
  maxGatewayOutboundBytes : ℕ
  maxConcurrentHistoryPages : ℕ
  deriving DecidableEq

/-- A payload for the socket. The item is its number among the retained ones, where its `retained`
flag is kept; `release` is the reservation that its callback gives back. -/
structure OutboundPayload where
  item : ℕ
  bytes : ℕ
  large : Bool
  history : Bool
  release : Option ℕ
  deriving DecidableEq

/-- The messages of a catch-up journal that another journal takes over. -/
inductive JournalMessageKind where
  | sessionRekeyed
  | nonReplayable
  | replayable
  deriving DecidableEq

/-- A message in a catch-up journal. -/
structure BufferedCatchUpMessage where
  item : ℕ
  kind : JournalMessageKind
  payload : JsString
  bytes : ℕ
  deriving DecidableEq

/-- A catch-up of a connection, as far as its journal goes; the order identifies it. -/
structure SessionCatchUp where
  order : ℕ
  buffered : List BufferedCatchUpMessage
  bufferedSmallBytes : ℕ
  bufferedLargeItems : ℕ
  deriving DecidableEq

/-- What the socket says when it is asked. -/
structure SocketAnswer where
  /-- `readyState` is `OPEN`. -/
  isOpen : Bool
  bufferedAmount : ℕ
  /-- `send` throws. -/
  sendThrows : Bool
  deriving DecidableEq

/-- A connection, as far as its accounts go. -/
structure ConnectionAccounts where
  closed : Bool
  helloComplete : Bool
  negotiatedMaxServerFrameBytes : ℕ
  catchUps : List SessionCatchUp
  catchUpSmallBufferedBytes : ℕ
  catchUpLargeItems : ℕ
  nextCatchUpOrder : ℕ
  pendingCommands : List ℕ
  pendingCommandResponseBytes : ℕ
  outboundQueue : List OutboundPayload
  outboundSmallQueuedBytes : ℕ
  outboundLargeItems : ℕ
  outboundHistoryQueuedBytes : ℕ
  outboundSending : Bool
  outboundActive : Option OutboundPayload
  /-- The sends that the socket has not called back for (history). -/
  awaiting : List OutboundPayload
  deriving DecidableEq

/-- A connection as `handleConnection` makes it. -/
def ConnectionAccounts.initial : ConnectionAccounts where
  closed := false
  helloComplete := false
  negotiatedMaxServerFrameBytes := SESSION_WS_SERVER_MAX_BYTES
  catchUps := []
  catchUpSmallBufferedBytes := 0
  catchUpLargeItems := 0
  nextCatchUpOrder := 0
  pendingCommands := []
  pendingCommandResponseBytes := 0
  outboundQueue := []
  outboundSmallQueuedBytes := 0
  outboundLargeItems := 0
  outboundHistoryQueuedBytes := 0
  outboundSending := false
  outboundActive := none
  awaiting := []

/-- The accounts of the gateway and the connection that a call is about. -/
structure BridgeFocus where
  /-- `gatewayOutboundBytes` and what it retains. -/
  outbound : Retention
  /-- `gatewayPendingCommandResponseBytes` and the reservations behind it. -/
  responses : Retention
  connection : ConnectionAccounts
  deriving DecidableEq

namespace BridgeFocus

variable (limits : BridgeLimits)

/-- `releaseReservation` of a command of the connection. -/
def releaseReservation (f : BridgeFocus) (reservation : ℕ) : BridgeFocus :=
  match f.responses.items[reservation]? with
  | none => f
  | some item =>
    if item.retained then
      { f with
        responses := f.responses.release reservation
        connection := { f.connection with
          pendingCommandResponseBytes :=
            f.connection.pendingCommandResponseBytes - item.amount } }
    else f

/-- `release?.()`. -/
def callRelease (f : BridgeFocus) (release : Option ℕ) : BridgeFocus :=
  release.elim f f.releaseReservation

/-- `releaseOutboundPayload`. -/
def releaseOutboundPayload (f : BridgeFocus) (item : OutboundPayload) : BridgeFocus :=
  { f with outbound := f.outbound.release item.item }.callRelease item.release

/-- `releaseBufferedCatchUpMessage`. -/
def releaseBufferedCatchUpMessage (f : BridgeFocus) (entry : BufferedCatchUpMessage) :
    BridgeFocus :=
  { f with outbound := f.outbound.release entry.item }

/-- `cancelCatchUp`. -/
def cancelCatchUp (f : BridgeFocus) (order : ℕ) : BridgeFocus :=
  match f.connection.catchUps.find? (·.order = order) with
  | none => f
  | some catchUp =>
    catchUp.buffered.foldl releaseBufferedCatchUpMessage
      { f with
        connection := { f.connection with
          catchUps := f.connection.catchUps.eraseP (·.order = order)
          catchUpSmallBufferedBytes :=
            f.connection.catchUpSmallBufferedBytes - catchUp.bufferedSmallBytes
          catchUpLargeItems := f.connection.catchUpLargeItems - catchUp.bufferedLargeItems } }

/-- What `disconnect` does to the active send and to the queue. -/
def releaseOutbound (f : BridgeFocus) : BridgeFocus :=
  let released := (f.connection.outboundActive.toList ++ f.connection.outboundQueue).foldl
    releaseOutboundPayload f
  { released with
    connection := { released.connection with
      outboundActive := none
      outboundQueue := []
      outboundSmallQueuedBytes := 0
      outboundLargeItems := 0
      outboundHistoryQueuedBytes := 0
      outboundSending := false } }

/-- `disconnect`. -/
def disconnect (f : BridgeFocus) : BridgeFocus :=
  if f.connection.closed then f
  else
    let cancelled := f.connection.catchUps.foldl (fun f catchUp => f.cancelCatchUp catchUp.order)
      { f with connection := { f.connection with closed := true } }
    { cancelled with
      connection := { cancelled.connection with
        pendingCommands := []
        pendingCommandResponseBytes := 0 } }.releaseOutbound

/-- `closeForPolicyViolation`, less the close of the socket. -/
def closeForPolicyViolation (f : BridgeFocus) : BridgeFocus := f.disconnect

/-- `classifyPayload`: whether a payload is large, or nothing when it may not be sent at all. -/
def classifyPayload (connection : ConnectionAccounts) (bytes : ℕ) (allowLarge : Bool) :
    Option Bool :=
  if SESSION_WS_SERVER_MAX_BYTES < bytes then none
  else if connection.helloComplete ∧ connection.negotiatedMaxServerFrameBytes < bytes then none
  else if MAX_SESSION_WS_BUFFERED_BYTES < bytes ∧ ¬allowLarge then none
  else some (decide (MAX_SESSION_WS_BUFFERED_BYTES < bytes))

/-- `startPayloadSend`, up to the callback. -/
def startPayloadSend (f : BridgeFocus) (item : OutboundPayload) (socket : SocketAnswer) :
    BridgeFocus :=
  if socket.sendThrows then
    let released := f.releaseOutboundPayload item
    { released with
      connection := { released.connection with
        outboundSending := true
        outboundActive := none } }.disconnect
  else
    { f with
      connection := { f.connection with
        outboundSending := true
        outboundActive := some item
        awaiting := f.connection.awaiting ++ [item] } }

/-- The callback of `startPayloadSend`. -/
def payloadSent (f : BridgeFocus) (item : OutboundPayload) (error : Bool) (socket : SocketAnswer) :
    BridgeFocus :=
  let released := f.releaseOutboundPayload item
  let f : BridgeFocus :=
    { released with
      connection := { released.connection with
        outboundActive := released.connection.outboundActive.filter (·.item ≠ item.item) } }
  if f.connection.closed then f
  else
    let f : BridgeFocus :=
      { f with
        connection := { f.connection with
          outboundSending := false
          outboundHistoryQueuedBytes :=
            if item.history then f.connection.outboundHistoryQueuedBytes - item.bytes
            else f.connection.outboundHistoryQueuedBytes
          outboundLargeItems :=
            if !item.history && item.large then f.connection.outboundLargeItems - 1
            else f.connection.outboundLargeItems } }
    if error then f.disconnect
    else
      match f.connection.outboundQueue with
      | [] => f
      | next :: rest =>
        let f : BridgeFocus :=
          { f with
            connection := { f.connection with
              outboundQueue := rest
              outboundSmallQueuedBytes :=
                if !next.history && !next.large then
                  f.connection.outboundSmallQueuedBytes - next.bytes
                else f.connection.outboundSmallQueuedBytes } }
        if MAX_SESSION_WS_BUFFERED_BYTES < socket.bufferedAmount then
          (f.releaseOutboundPayload next).closeForPolicyViolation
        else f.startPayloadSend next socket

/-- What a call of `sendPayload` sends. -/
structure PayloadCall where
  bytes : ℕ
  allowLarge : Bool
  history : Bool
  socket : SocketAnswer
  deriving DecidableEq

/-- A refused send: the connection is closed for it and the reservation given back. -/
def refuse (f : BridgeFocus) (release : Option ℕ) : BridgeFocus × Bool :=
  (f.closeForPolicyViolation.callRelease release, false)

/-- `retainOutboundPayload` and what follows it in `sendPayload`. -/
def retainOutboundPayload (f : BridgeFocus) (call : PayloadCall) (large : Bool)
    (release : Option ℕ) : BridgeFocus × Bool :=
  if limits.maxGatewayOutboundBytes < f.outbound.total + call.bytes then f.refuse release
  else
    let item : OutboundPayload :=
      { item := f.outbound.next, bytes := call.bytes, large := large, history := call.history
        release := release }
    let counted := { f.connection with
      outboundHistoryQueuedBytes :=
        if call.history then f.connection.outboundHistoryQueuedBytes + call.bytes
        else f.connection.outboundHistoryQueuedBytes
      outboundLargeItems :=
        if !call.history && large then f.connection.outboundLargeItems + 1
        else f.connection.outboundLargeItems }
    let f := { f with outbound := f.outbound.retain call.bytes, connection := counted }
    if f.connection.outboundSending then
      ({ f with
        connection := { f.connection with
          outboundSmallQueuedBytes :=
            if !call.history && !large then f.connection.outboundSmallQueuedBytes + call.bytes
            else f.connection.outboundSmallQueuedBytes
          outboundQueue := f.connection.outboundQueue ++ [item] } }, true)
    else (f.startPayloadSend item call.socket, true)

/-- `sendPayload`. The result says whether the reservation went over to the payload. -/
def sendPayload (f : BridgeFocus) (call : PayloadCall) (release : Option ℕ) :
    BridgeFocus × Bool :=
  if f.connection.closed ∨ ¬call.socket.isOpen then (f.callRelease release, false)
  else
    match classifyPayload f.connection call.bytes call.allowLarge with
    | none => f.refuse release
    | some large =>
      if !call.history && large && decide (1 ≤ f.connection.outboundLargeItems) then
        f.refuse release
      else if call.history ∧
          SESSION_HISTORY_MAX_STREAM_BYTES <
            f.connection.outboundHistoryQueuedBytes + call.bytes then
        f.refuse release
      else if f.connection.outboundSending then
        if !call.history && !large && decide (MAX_SESSION_WS_BUFFERED_BYTES <
            f.connection.outboundSmallQueuedBytes + call.bytes) then
          f.refuse release
        else f.retainOutboundPayload limits call large release
      else if MAX_SESSION_WS_BUFFERED_BYTES < call.socket.bufferedAmount then f.refuse release
      else f.retainOutboundPayload limits call large release

/-- A message that is buffered for a catch-up. -/
structure JournalCall where
  kind : JournalMessageKind
  payload : JsString
  bytes : ℕ
  /-- It is an event, which may be large. -/
  allowLarge : Bool
  deriving DecidableEq

/-- `bufferCatchUpMessage`. -/
def bufferCatchUpMessage (f : BridgeFocus) (order : ℕ) (call : JournalCall) : BridgeFocus :=
  if ¬f.connection.catchUps.any (·.order = order) ∨ f.connection.closed then f
  else
    match classifyPayload f.connection call.bytes call.allowLarge with
    | none => f.closeForPolicyViolation
    | some large =>
      if limits.maxGatewayOutboundBytes < f.outbound.total + call.bytes then
        f.closeForPolicyViolation
      else if large && decide (1 ≤ f.connection.catchUpLargeItems) then f.closeForPolicyViolation
      else if !large && decide (MAX_SESSION_WS_BUFFERED_BYTES <
          f.connection.catchUpSmallBufferedBytes + call.bytes) then
        f.closeForPolicyViolation
      else
        { f with
          outbound := f.outbound.retain call.bytes
          connection := { f.connection with
            catchUpLargeItems := f.connection.catchUpLargeItems + if large then 1 else 0
            catchUpSmallBufferedBytes :=
              f.connection.catchUpSmallBufferedBytes + if large then 0 else call.bytes
            catchUps := f.connection.catchUps.map fun catchUp =>
              if catchUp.order = order then
                { catchUp with
                  bufferedLargeItems := catchUp.bufferedLargeItems + if large then 1 else 0
                  bufferedSmallBytes :=
                    catchUp.bufferedSmallBytes + if large then 0 else call.bytes
                  buffered := catchUp.buffered ++
                    [{ item := f.outbound.next, kind := call.kind, payload := call.payload
                       bytes := call.bytes }] }
              else catchUp } }

/-- The journal of a catch-up. -/
def journal (f : BridgeFocus) (order : ℕ) : List BufferedCatchUpMessage :=
  ((f.connection.catchUps.find? (·.order = order)).map (·.buffered)).getD []

/-- `transferCatchUpJournalAndCancel`, less the deferred lease. What is transferred is no
event, so it may not be large. -/
def transferCatchUpJournalAndCancel (f : BridgeFocus) («from» «to» : ℕ) : BridgeFocus :=
  let retained := (f.journal «from»).filter (·.kind ≠ .replayable)
  retained.foldl
    (fun f entry =>
      if (f.journal «to»).any (·.payload = entry.payload) then f
      else
        f.bufferCatchUpMessage limits «to»
          { kind := entry.kind, payload := entry.payload, bytes := entry.bytes
            allowLarge := false })
    (f.cancelCatchUp «from»)

/-- `enqueueBufferedRekeys`. The socket answers once for each entry. -/
def enqueueBufferedRekeys (f : BridgeFocus) (order : ℕ)
    (socket : BufferedCatchUpMessage → SocketAnswer) : BridgeFocus :=
  ((f.journal order).filter (·.kind = .sessionRekeyed)).foldl
    (fun f entry =>
      ((f.releaseBufferedCatchUpMessage entry).sendPayload limits
        { bytes := entry.bytes, allowLarge := false, history := false, socket := socket entry }
        none).1)
    f

/-- A new catch-up of `beginCatchUp`. -/
def beginCatchUp (f : BridgeFocus) : BridgeFocus :=
  if f.connection.closed then f
  else
    { f with
      connection := { f.connection with
        nextCatchUpOrder := f.connection.nextCatchUpOrder + 1
        catchUps := f.connection.catchUps ++
          [{ order := f.connection.nextCatchUpOrder + 1, buffered := []
             bufferedSmallBytes := 0, bufferedLargeItems := 0 }] } }

/-- The hello of the client: its frames have a limit of their own. -/
def completeHello (f : BridgeFocus) (maxServerFrameBytes : ℕ) : BridgeFocus :=
  { f with
    connection := { f.connection with
      helloComplete := true
      negotiatedMaxServerFrameBytes := maxServerFrameBytes } }

end BridgeFocus

/-- A command whose response is pending. -/
structure PendingResponse where
  connection : ℕ
  reservation : ℕ
  responseWeight : ℕ
  deriving DecidableEq

/-- A history page that is read. Its bytes are an item of the outbound total. -/
structure HistoryPageOperation where
  sessionHandle : JsString
  connection : ℕ
  item : ℕ
  targetBytes : ℕ
  deriving DecidableEq

/-- The accounts of the bridge, its connections, and the operations that have not settled. -/
structure BridgeAccounts where
  outbound : Retention
  responses : Retention
  connections : List ConnectionAccounts
  commands : List PendingResponse
  historyPageOperations : List HistoryPageOperation

/-- A bridge that was just made. -/
def BridgeAccounts.initial : BridgeAccounts where
  outbound := .empty
  responses := .empty
  connections := []
  commands := []
  historyPageOperations := []

/-- What happens at the bridge. Connections, commands and history pages are named by their place. -/
inductive BridgeCall where
  | handleConnection
  | completeHello (connection maxServerFrameBytes : ℕ)
  /-- A message of the bridge that carries no reservation. -/
  | send (connection : ℕ) (call : BridgeFocus.PayloadCall)
  /-- The socket calls back for a send. -/
  | payloadSent (connection sent : ℕ) (error : Bool) (socket : SocketAnswer)
  | beginCatchUp (connection : ℕ)
  | bufferCatchUpMessage (connection order : ℕ) (call : BridgeFocus.JournalCall)
  | cancelCatchUp (connection order : ℕ)
  | enqueueBufferedRekeys (connection order : ℕ) (socket : BufferedCatchUpMessage → SocketAnswer)
  | transferCatchUpJournalAndCancel (connection «from» «to» : ℕ)
  | disconnect (connection : ℕ)
  /-- `handleCommand` of a subscribed Session up to the call of the supervisor. -/
  | handleCommand (connection responseWeight : ℕ)
  /-- The rest of `handleCommand`: the frame that is sent in the end, unless none was made. -/
  | commandSettled (command : ℕ) (frame : Option BridgeFocus.PayloadCall)
  /-- `handleHistoryPage` of a current snapshot up to the read. -/
  | handleHistoryPage (connection : ℕ) (sessionHandle : JsString) (targetBytes : ℕ)
  /-- The read of the page settles. -/
  | historyPageRead (operation : ℕ)
  | settleHistoryPage (operation : ℕ)

namespace BridgeAccounts

variable (limits : BridgeLimits)

/-- The accounts with one connection in focus. -/
def focus (s : BridgeAccounts) (connection : ConnectionAccounts) : BridgeFocus where
  outbound := s.outbound
  responses := s.responses
  connection := connection

/-- What a call did to the accounts and to a connection. -/
def put (s : BridgeAccounts) (n : ℕ) (f : BridgeFocus) : BridgeAccounts :=
  { s with
    outbound := f.outbound
    responses := f.responses
    connections := s.connections.set n f.connection }

/-- A call about one connection. -/
def on (s : BridgeAccounts) (n : ℕ) (call : BridgeFocus → BridgeFocus) : BridgeAccounts :=
  match s.connections[n]? with
  | none => s
  | some connection => s.put n (call (s.focus connection))

/-- The admission of `handleCommand`. A closed connection is subscribed to nothing. -/
def handleCommand (s : BridgeAccounts) (n responseWeight : ℕ) : BridgeAccounts :=
  match s.connections[n]? with
  | none => s
  | some connection =>
    if connection.closed then s
    else if MAX_SESSION_WS_IN_FLIGHT_COMMANDS ≤ connection.pendingCommands.length then s
    else if limits.maxPendingCommandResponseBytes <
        connection.pendingCommandResponseBytes + responseWeight then s
    else if limits.maxGatewayPendingCommandResponseBytes <
        s.responses.total + responseWeight then s
    else
      { s with
        responses := s.responses.retain responseWeight
        connections := s.connections.set n { connection with
          pendingCommands := connection.pendingCommands ++ [s.responses.next]
          pendingCommandResponseBytes :=
            connection.pendingCommandResponseBytes + responseWeight }
        commands := s.commands ++
          [{ connection := n, reservation := s.responses.next
             responseWeight := responseWeight }] }

/-- The end of a command at its connection. -/
def commandSettledAt (f : BridgeFocus) (reservation : ℕ) (frame : Option BridgeFocus.PayloadCall) :
    BridgeFocus :=
  let sent := frame.elim (f, false) fun call => f.sendPayload limits call (some reservation)
  let settled := { sent.1 with
    connection := { sent.1.connection with
      pendingCommands := sent.1.connection.pendingCommands.erase reservation } }
  if sent.2 then settled else settled.releaseReservation reservation

/-- The admission of `handleHistoryPage`. -/
def handleHistoryPage (s : BridgeAccounts) (n : ℕ) (sessionHandle : JsString) (targetBytes : ℕ) :
    BridgeAccounts :=
  if s.historyPageOperations.any (·.sessionHandle = sessionHandle) then s
  else if limits.maxConcurrentHistoryPages ≤ s.historyPageOperations.length then s
  else if maxSafeInteger < targetBytes ∨
      limits.maxGatewayOutboundBytes < s.outbound.total + targetBytes then s
  else
    { s with
      outbound := s.outbound.retain targetBytes
      historyPageOperations := s.historyPageOperations ++
        [{ sessionHandle := sessionHandle, connection := n, item := s.outbound.next
           targetBytes := targetBytes }] }

/-- `releaseHistoryPageBytes`. -/
def releaseHistoryPageBytes (s : BridgeAccounts) (operation : HistoryPageOperation) :
    BridgeAccounts :=
  { s with outbound := s.outbound.release operation.item }

/-- One call. -/
def step (s : BridgeAccounts) : BridgeCall → BridgeAccounts
  | .handleConnection => { s with connections := s.connections ++ [.initial] }
  | .completeHello n maxServerFrameBytes => s.on n (·.completeHello maxServerFrameBytes)
  | .send n call => s.on n fun f => (f.sendPayload limits call none).1
  | .payloadSent n sent error socket =>
    s.on n fun f =>
      match f.connection.awaiting[sent]? with
      | none => f
      | some item =>
        { f with
          connection := { f.connection with
            awaiting := f.connection.awaiting.eraseIdx sent } }.payloadSent item error socket
  | .beginCatchUp n => s.on n (·.beginCatchUp)
  | .bufferCatchUpMessage n order call => s.on n (·.bufferCatchUpMessage limits order call)
  | .cancelCatchUp n order => s.on n (·.cancelCatchUp order)
  | .enqueueBufferedRekeys n order socket => s.on n (·.enqueueBufferedRekeys limits order socket)
  | .transferCatchUpJournalAndCancel n «from» «to» =>
    s.on n (·.transferCatchUpJournalAndCancel limits «from» «to»)
  | .disconnect n => s.on n (·.disconnect)
  | .handleCommand n responseWeight => s.handleCommand limits n responseWeight
  | .commandSettled command frame =>
    match s.commands[command]? with
    | none => s
    | some pending =>
      { s with commands := s.commands.eraseIdx command }.on pending.connection
        fun f => commandSettledAt limits f pending.reservation frame
  | .handleHistoryPage n sessionHandle targetBytes =>
    s.handleHistoryPage limits n sessionHandle targetBytes
  | .historyPageRead operation =>
    match s.historyPageOperations[operation]? with
    | none => s
    | some found => s.releaseHistoryPageBytes found
  | .settleHistoryPage operation =>
    match s.historyPageOperations[operation]? with
    | none => s
    | some found =>
      { s.releaseHistoryPageBytes found with
        historyPageOperations := s.historyPageOperations.eraseIdx operation }

/-- Every connection is gone and every command and history page has settled. -/
def Settled (s : BridgeAccounts) : Prop :=
  (∀ connection ∈ s.connections, connection.closed = true) ∧ s.commands = [] ∧
    s.historyPageOperations = []

end BridgeAccounts

end PiAgentWeb
