import PiAgentWeb.Library.Runs
import PiAgentWeb.UI.SessionHistoryStream

/-!
# Pages of older history

`session-history-pages.ts`: one operation per Session asks for the next older page, assembles its
frames, materializes its messages, delivers them and advances the history. Operations are numbered
in the order they are started. `updateHistory` and `deliver` call observers, which may call back
while the call that notified them is under way: the calls under way are a stack, and an action is a
call that someone makes or the return of the innermost observer. A promise settles while no call is
under way. A Session without a context has no channel here.
-/

namespace PiAgentWeb

/-- What an operation is fenced by: the identity of the runtime, the snapshot and its sequence
number. -/
structure HistoryFence where
  identity : SessionRuntimeIdentity
  snapshotId : JsString
  asOfSeq : ℕ
  deriving DecidableEq

/-- What `send` answers. -/
inductive HistorySendOutcome where
  | sent | payload_too_large | unavailable
  deriving DecidableEq

/-- What ends an operation with an error. -/
inductive HistoryPageError where
  | stream (code : SessionHistoryStreamErrorCode)
  | crossedFence
  | notSent (outcome : HistorySendOutcome)
  | message (text : JsString)
  deriving DecidableEq

/-- `SessionHistoryState`, but for the snapshot and its sequence number, which the fence names. -/
structure SessionHistoryState where
  totalMessages : ℕ
  loadedMessages : ℕ
  totalBytes : ℕ
  loadedBytes : ℕ
  nextCursor : Option JsString
  loading : Bool
  error : Option HistoryPageError
  deriving DecidableEq

/-- `SessionHistoryPageContext`. -/
structure SessionHistoryPageContext where
  fence : HistoryFence
  nextCursor : Option JsString
  ready : Bool
  loading : Bool
  online : Bool
  deriving DecidableEq

/-- A page that went to the frame bus: the operation, the cursor it asked for, what its end frame
says, and whether the history has advanced over it. -/
structure PageDelivery where
  operation : ℕ
  cursor : Option JsString
  itemCount : ℕ
  byteCount : ℕ
  nextCursor : Option JsString
  counted : Bool
  deriving DecidableEq

/-- What the transport keeps of a Session. The history as it was put in place and the pages that
were delivered since are history variables. -/
structure PageChannel where
  fence : HistoryFence
  ready : Bool
  online : Bool
  history : SessionHistoryState
  adopted : SessionHistoryState
  deliveries : List PageDelivery
  deriving DecidableEq

/-- How far an operation is. -/
inductive PageStage where
  | receiving
  | materializing (completed : CompletedSessionHistoryStream)
  | settled

/-- `PageOperation`, with the signal of its controller. -/
structure PageOperation where
  context : SessionHistoryPageContext
  requestId : JsString
  aborted : Bool
  assembler : SessionHistoryStreamAssembler
  stage : PageStage

/-- A call whose observers run: `start` behind its `updateHistory`, or `complete` behind its
`deliver`. -/
inductive PageCall where
  | starting (operation : ℕ)
  | delivering (operation : ℕ) (completed : CompletedSessionHistoryStream)

/-- What an operation does to the outside. -/
inductive PageEvent where
  | requested (operation : ℕ)
  | delivered (operation : ℕ) (messages : List Json)
  | updated (operation : ℕ)

/-- How `deliver` comes back. -/
inductive DeliveryOutcome where
  | accepted
  | refused (text : JsString)
  | threw (text : JsString)

/-- What happens. -/
inductive PageAction where
  /-- The transport puts a history in place. -/
  | install (fence : HistoryFence) (ready online : Bool) (history : SessionHistoryState)
  /-- The transport drops the context of a Session. -/
  | forget (sessionHandle : JsString)
  /-- The transport changes what does not belong to the pages. -/
  | adjust (sessionHandle : JsString) (ready online loading : Bool)
      (error : Option HistoryPageError)
  /-- `start`, at the time that the text says. -/
  | start (sessionHandle now : JsString)
  /-- The observers of a start are through, and `send` answers. -/
  | observed (outcome : HistorySendOutcome)
  /-- `accept`. -/
  | accept (frame : SessionHistoryFrame) (projected : Bool)
  /-- The promise of `materialize` settles. -/
  | materialized (operation : ℕ) (result : Except JsString (List Json))
  /-- `deliver` comes back. -/
  | delivered (outcome : DeliveryOutcome)
  /-- `cancelSession`. -/
  | cancelSession (sessionHandle : JsString) (notifyGateway : Bool)
  /-- `cancelIdentity`. -/
  | cancelIdentity (identity : SessionRuntimeIdentity)
  /-- `failSession`. -/
  | failSession (sessionHandle text : JsString)
  /-- `cancelAll`. -/
  | cancelAll
  /-- `dispose`. -/
  | dispose

/-- The context of a channel. -/
def PageChannel.context (channel : PageChannel) : SessionHistoryPageContext where
  fence := channel.fence
  nextCursor := channel.history.nextCursor
  ready := channel.ready
  loading := channel.history.loading
  online := channel.online

/-- The Session of an operation. -/
def PageOperation.sessionHandle (operation : PageOperation) : JsString :=
  operation.context.fence.identity.sessionHandle

/-- The operation of an event. -/
def PageEvent.operation : PageEvent → ℕ
  | .requested n => n
  | .delivered n _ => n
  | .updated n => n

/-- The delivery of a page, before the history advances. -/
def PageDelivery.of (n : ℕ) (operation : PageOperation)
    (completed : CompletedSessionHistoryStream) : PageDelivery where
  operation := n
  cursor := operation.context.nextCursor
  itemCount := completed.endFrame.itemCount
  byteCount := completed.endFrame.byteCount
  nextCursor := completed.endFrame.nextCursor
  counted := false

/-- The history advances over a delivered page. -/
def PageDelivery.count (delivery : PageDelivery) (n : ℕ) : PageDelivery :=
  if delivery.operation = n then { delivery with counted := true } else delivery

/-- The fence of a frame. -/
def SessionHistoryFrame.fence : SessionHistoryFrame → HistoryStreamFence
  | .begin frame => frame.fence
  | .chunk frame => frame.fence
  | .end frame => frame.fence

/-- The sequence number among the members of a begin frame. -/
def SessionHistoryStreamBegin.asOfSeq (frame : SessionHistoryStreamBegin) : Option JsString :=
  match Json.field frame.members "asOfSeq" with
  | some (.num literal) => some literal
  | _ => none

/-- `createSessionHistoryPages`, and the histories that its options reach. -/
structure OlderHistoryPages where
  operations : InsertionMap JsString ℕ
  disposed : Bool
  all : List PageOperation
  channels : InsertionMap JsString PageChannel
  calls : List PageCall
  log : List PageEvent

namespace OlderHistoryPages

/-- The start. -/
def create : OlderHistoryPages where
  operations := .empty
  disposed := false
  all := []
  channels := .empty
  calls := []
  log := []

variable (s : OlderHistoryPages)

/-- The `context` option. -/
def context (sessionHandle : JsString) : Option SessionHistoryPageContext :=
  (s.channels.get? sessionHandle).map PageChannel.context

/-- The channel of a Session, if there is one, is changed. -/
def changeChannel (sessionHandle : JsString) (change : PageChannel → PageChannel) :
    OlderHistoryPages :=
  match s.channels.get? sessionHandle with
  | some channel => { s with channels := s.channels.insert sessionHandle (change channel) }
  | none => s

/-- The `updateHistory` option. -/
def updateHistory (sessionHandle : JsString) (update : SessionHistoryState → SessionHistoryState) :
    OlderHistoryPages :=
  s.changeChannel sessionHandle fun channel => { channel with history := update channel.history }

/-- An event is noted. -/
def note (event : PageEvent) : OlderHistoryPages := { s with log := s.log ++ [event] }

/-- `owned`. -/
def owned (n : ℕ) (operation : PageOperation) : Bool :=
  !s.disposed && (s.all[n]?).any (fun current => !current.aborted) &&
    s.operations.get? operation.sessionHandle = some n

/-- `matchingContext`. -/
def matchingContext (operation : PageOperation) : Option SessionHistoryPageContext :=
  match s.context operation.sessionHandle with
  | some current => if current.fence = operation.context.fence then some current else none
  | none => none

/-- `matchingContext(operation)?.ready`. -/
def readyFor (operation : PageOperation) : Bool := (s.matchingContext operation).any (·.ready)

/-- `remove`. -/
def remove (n : ℕ) (operation : PageOperation) : OlderHistoryPages :=
  { s with
    operations :=
      if s.operations.get? operation.sessionHandle = some n then
        s.operations.erase operation.sessionHandle
      else s.operations
    all := s.all.modify n fun current => { current with aborted := true } }

/-- The history of the Session of an operation is changed by it. -/
def change (n : ℕ) (operation : PageOperation)
    (update : SessionHistoryState → SessionHistoryState) : OlderHistoryPages :=
  (s.updateHistory operation.sessionHandle update).note (.updated n)

/-- `fail`. -/
def fail (n : ℕ) (operation : PageOperation) (error : HistoryPageError) : OlderHistoryPages :=
  if s.owned n operation then
    let s := s.remove n operation
    if (s.operations.get? operation.sessionHandle).isSome ||
        (s.matchingContext operation).isNone then s
    else s.change n operation fun history => { history with loading := false, error := some error }
  else s

/-- A page goes to the frame bus, and its observers run. -/
def deliver (n : ℕ) (operation : PageOperation) (completed : CompletedSessionHistoryStream)
    (messages : List Json) : OlderHistoryPages :=
  let s := s.changeChannel operation.sessionHandle fun channel =>
    { channel with deliveries := channel.deliveries ++ [.of n operation completed] }
  { s with calls := .delivering n completed :: s.calls }.note (.delivered n messages)

/-- `complete`, up to `deliver`. -/
def complete (n : ℕ) (operation : PageOperation) (completed : CompletedSessionHistoryStream)
    (messages : List Json) : OlderHistoryPages :=
  if s.owned n operation then
    if s.readyFor operation then s.deliver n operation completed messages
    else s.remove n operation
  else s

/-- The history after a page. -/
def advance (completed : CompletedSessionHistoryStream) (history : SessionHistoryState) :
    SessionHistoryState where
  totalMessages := completed.beginFrame.history.totalMessages
  loadedMessages := history.loadedMessages + completed.endFrame.itemCount
  totalBytes := completed.beginFrame.history.totalBytes
  loadedBytes := history.loadedBytes + completed.endFrame.byteCount
  nextCursor := completed.endFrame.nextCursor
  loading := false
  error := none

/-- The delivery of a page is counted. -/
def countDelivery (n : ℕ) (sessionHandle : JsString) : OlderHistoryPages :=
  s.changeChannel sessionHandle fun channel =>
    { channel with deliveries := channel.deliveries.map (·.count n) }

/-- `complete`, behind `deliver`. -/
def delivered (n : ℕ) (operation : PageOperation) (completed : CompletedSessionHistoryStream)
    (outcome : DeliveryOutcome) : OlderHistoryPages :=
  match outcome with
  | .threw text => s.fail n operation (.message text)
  | .refused text =>
    if s.owned n operation then
      if s.readyFor operation then s.fail n operation (.message text) else s.remove n operation
    else s
  | .accepted =>
    if s.owned n operation then
      if s.readyFor operation then
        let s := s.remove n operation
        if (s.operations.get? operation.sessionHandle).isSome || !s.readyFor operation then s
        else (s.change n operation (advance completed)).countDelivery n operation.sessionHandle
      else s.remove n operation
    else s

/-- `finish`, when the promise of `materialize` settles. -/
def materialized (n : ℕ) (result : Except JsString (List Json)) : OlderHistoryPages :=
  match s.all[n]? with
  | some operation =>
    match operation.stage with
    | .materializing completed =>
      let operation := { operation with stage := .settled }
      let s := { s with all := s.all.set n operation }
      match result with
      | .ok messages => s.complete n operation completed messages
      | .error text => s.fail n operation (.message text)
    | _ => s
  | none => s

/-- `cancelSession`; what it tells the gateway is left out. -/
def cancelSession (sessionHandle : JsString) (notifyGateway : Bool) : OlderHistoryPages :=
  match s.operations.get? sessionHandle with
  | some n =>
    match s.all[n]? with
    | some operation =>
      let s := s.remove n operation
      if !notifyGateway || (s.operations.get? sessionHandle).isSome ||
          (s.matchingContext operation).isNone then s
      else s.updateHistory sessionHandle fun history =>
        { history with loading := false, error := none }
    | none => s
  | none => s

/-- `start`, up to `updateHistory`. -/
def start (sessionHandle now : JsString) : OlderHistoryPages :=
  match s.context sessionHandle with
  | some context =>
    if s.disposed || !context.ready || context.loading || context.nextCursor = none ||
        (s.operations.get? sessionHandle).isSome then s
    else
      let n := s.all.length
      let operation : PageOperation :=
        { context := context
          requestId := js "history-page-" ++ jsNat (n + 1) ++ js "-" ++ now
          aborted := false
          assembler := .new .page
          stage := .receiving }
      let s :=
        { s with
          operations := s.operations.insert sessionHandle n
          all := s.all ++ [operation] }.change n operation
            fun history => { history with loading := true, error := none }
      { s with calls := .starting n :: s.calls }
  | none => s

/-- `start`, behind `updateHistory`. -/
def observed (n : ℕ) (operation : PageOperation) (outcome : HistorySendOutcome) :
    OlderHistoryPages :=
  if s.owned n operation then
    if s.readyFor operation then
      let s := s.note (.requested n)
      if outcome = .sent then s else s.fail n operation (.notSent outcome)
    else s.remove n operation
  else s

/-- The assembler takes a frame of the operation. -/
def assemble (n : ℕ) (operation : PageOperation) (frame : SessionHistoryFrame) :
    Except HistoryPageError OlderHistoryPages :=
  match frame with
  | .begin frame =>
    if !s.readyFor operation || operation.context.fence.identity ≠ frame.fence.identity ||
        operation.context.fence.snapshotId ≠ frame.fence.snapshotId ||
        frame.asOfSeq ≠ some (jsNat operation.context.fence.asOfSeq) then
      .error .crossedFence
    else
      match operation.assembler.begin frame with
      | .ok assembler =>
        .ok { s with all := s.all.set n { operation with assembler := assembler } }
      | .error code => .error (.stream code)
  | .chunk frame =>
    match operation.assembler.chunk frame with
    | .ok assembler => .ok { s with all := s.all.set n { operation with assembler := assembler } }
    | .error code => .error (.stream code)
  | .end frame =>
    match operation.assembler.«end» frame with
    | .ok completed =>
      .ok { s with all := s.all.set n { operation with stage := .materializing completed } }
    | .error code => .error (.stream code)

/-- `accept`. -/
def accept (frame : SessionHistoryFrame) (projected : Bool) : OlderHistoryPages :=
  match s.operations.get? frame.fence.identity.sessionHandle with
  | some n =>
    match s.all[n]? with
    | some operation =>
      match operation.stage with
      | .receiving =>
        if frame.fence.requestId ≠ some operation.requestId || !projected then s
        else
          match s.assemble n operation frame with
          | .ok s => s
          | .error error => s.fail n operation error
      | _ => s
    | none => s
  | none => s

/-- `cancelIdentity`. -/
def cancelIdentity (identity : SessionRuntimeIdentity) : OlderHistoryPages :=
  match s.operations.get? identity.sessionHandle with
  | some n =>
    match s.all[n]? with
    | some operation =>
      if operation.context.fence.identity = identity then s.remove n operation else s
    | none => s
  | none => s

/-- `failSession`. -/
def failSession (sessionHandle text : JsString) : OlderHistoryPages :=
  match s.operations.get? sessionHandle with
  | some n =>
    match s.all[n]? with
    | some operation => s.fail n operation (.message text)
    | none => s
  | none => s

/-- `cancelAll`. -/
def cancelAll : OlderHistoryPages :=
  { s with
    operations := .empty
    all := s.all.mapIdx fun n operation =>
      if s.operations.entries.any (·.2 == n) then { operation with aborted := true }
      else operation }

/-- The transport puts a history in place. -/
def install (fence : HistoryFence) (ready online : Bool) (history : SessionHistoryState) :
    OlderHistoryPages :=
  { s with
    channels := s.channels.insert fence.identity.sessionHandle
      { fence := fence
        ready := ready
        online := online
        history := history
        adopted := history
        deliveries := [] } }

/-- The transport changes what does not belong to the pages. -/
def adjust (sessionHandle : JsString) (ready online loading : Bool)
    (error : Option HistoryPageError) : OlderHistoryPages :=
  s.changeChannel sessionHandle fun channel =>
    { channel with
      ready := ready
      online := online
      history := { channel.history with loading := loading, error := error } }

/-- One action; an observer that does not run does not come back. -/
def step (s : OlderHistoryPages) : PageAction → OlderHistoryPages
  | .install fence ready online history => s.install fence ready online history
  | .forget sessionHandle => { s with channels := s.channels.erase sessionHandle }
  | .adjust sessionHandle ready online loading error =>
    s.adjust sessionHandle ready online loading error
  | .start sessionHandle now => s.start sessionHandle now
  | .observed outcome =>
    match s.calls with
    | .starting n :: calls =>
      match s.all[n]? with
      | some operation => { s with calls := calls }.observed n operation outcome
      | none => s
    | _ => s
  | .accept frame projected => s.accept frame projected
  | .materialized n result => if s.calls.isEmpty then s.materialized n result else s
  | .delivered outcome =>
    match s.calls with
    | .delivering n completed :: calls =>
      match s.all[n]? with
      | some operation => { s with calls := calls }.delivered n operation completed outcome
      | none => s
    | _ => s
  | .cancelSession sessionHandle notifyGateway => s.cancelSession sessionHandle notifyGateway
  | .cancelIdentity identity => s.cancelIdentity identity
  | .failSession sessionHandle text => s.failSession sessionHandle text
  | .cancelAll => s.cancelAll
  | .dispose => { s with disposed := true }.cancelAll

/-- A history that is put in place does not bring back the fence of the operation that the Session
has: the transport cancels the operation before. -/
def Fenced (s : OlderHistoryPages) : PageAction → Prop
  | .install fence _ _ _ =>
    ∀ n, s.operations.get? fence.identity.sessionHandle = some n →
      ∀ operation, s.all[n]? = some operation → operation.context.fence ≠ fence
  | _ => True

end OlderHistoryPages

end PiAgentWeb
