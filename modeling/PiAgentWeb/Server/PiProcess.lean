import PiAgentWeb.Library.InsertionMap
import PiAgentWeb.Library.Runs
import PiAgentWeb.Protocol.SessionCommands

/-!
# The Pi process and its requests

A `PiProcess` owns one child at a time and may be started again. Requests are kept in a pending
table by their wire id, which is the value of a counter, and in a second table by their public
id. Frames are written one after another through a queue that belongs to the process, not to the
child. Every line that a child prints is handled by a task that awaits the adapter and then the
consumer of the decoded value; a task goes on whenever the run says so, so timeouts, exits and
stops fall between any two of its steps.

An outcome of the adapter may carry a payload lease, named by its line. What happens to the
leases, which frames were written to which child, and how the promises of the requests settled is
recorded in the state.
-/

namespace PiAgentWeb

/-- The consumer a request was sent with. -/
inductive PendingKind where
  | raw
  | decoded
  deriving DecidableEq, Repr

/-- An entry of the pending table, with the spawn that accepted it. -/
structure PendingRequest where
  kind : PendingKind
  command : SessionCommandTypeDto
  publicId : String
  spawn : ℕ
  deriving DecidableEq

/-- The identity of the current child. -/
structure SpawnIdentity where
  /-- The number of the spawn. -/
  number : ℕ
  /-- The leader has exited, and `exit` was observed. -/
  leaderExitObserved : Bool
  unexpectedFinalization : Bool
  decodeAborted : Bool
  deriving DecidableEq

/-- A frame that waits to be written. -/
inductive QueuedFrame where
  /-- The frame of a request. -/
  | request (wireId : ℕ)
  /-- An `extension_ui_response`, sent on behalf of the child of that number. -/
  | extensionUiResponse (spawn : Option ℕ)
  deriving DecidableEq, Repr

/-- What a line is, once it was parsed. -/
inductive PiFrameType where
  | response
  | unsolicited
  | notAnObject
  deriving DecidableEq, Repr

/-- A parsed line of a child. -/
structure PiLine (Body : Type*) where
  spawn : ℕ
  type : PiFrameType
  /-- The counter of its wire id, if it carries one. -/
  id : Option ℕ
  body : Body

/-- Where `handleLine` sends a line. -/
inductive LineRoute where
  /-- To the request that is pending under its id. -/
  | pending (wireId : ℕ) (request : PendingRequest)
  /-- To the orphan check, and nowhere. -/
  | orphaned
  /-- To the unsolicited consumers. -/
  | unsolicited
  /-- Nowhere: not an object. -/
  | discarded
  deriving DecidableEq

/-- The kinds of a decoded unsolicited frame. -/
inductive UnsolicitedKind where
  | ignored
  | event
  | extensionUiRequest
  deriving DecidableEq, Repr

/-- What the adapter returns, but for the value of a response. -/
structure DecodeOutcome where
  kind : UnsolicitedKind
  /-- The outcome carries a payload lease. -/
  lease : Bool
  deriving DecidableEq, Repr

/-- How far the handling of a line is. -/
inductive HandlerStage where
  /-- It awaits `decodeWithDeadline`. -/
  | decoding
  /-- Decoding failed; `externalization` says that the failure, or the deadline, is the
  response's own. -/
  | failed (externalization : Bool)
  /-- Decoding resolved. -/
  | resolved (outcome : DecodeOutcome)
  /-- The consumer prepared its exact delivery. -/
  | planned (outcome : DecodeOutcome)
  /-- The lease, if any, was turned into a transfer. -/
  | transferred (outcome : DecodeOutcome)
  /-- The commit returned. -/
  | committed
  | ended
  deriving DecidableEq, Repr

/-- A line that is being handled. -/
structure LineTask (Body : Type*) where
  line : PiLine Body
  route : LineRoute
  /-- The adapter's operation has not settled. -/
  decodingRuns : Bool
  stage : HandlerStage

/-- How the promise of a request settled. -/
inductive PromiseSettlement (Body Value : Type*) where
  | rejected
  /-- It fulfilled with the value under its public id; the line is the one it came from. -/
  | fulfilled (line : PiLine Body) (publicId : String) (value : Value)

/-- The end of a payload lease. -/
inductive CustodyEvent where
  | leaseReleased
  /-- The transfer was released because the spawn or the request was gone before the commit. -/
  | staleTransferReleased
  /-- The transfer was released because the commit failed. -/
  | failedTransferReleased
  /-- The consumer's commit took the transfer. -/
  | adopted
  deriving DecidableEq, Repr

/-- What a decoded consumer does when it is called. -/
inductive ConsumerAnswer where
  | throws
  | returnsPromise
  | returnsForeignPlan
  | returnsPlan
  deriving DecidableEq, Repr

/-- What the process is built with. -/
structure PiProcessOptions where
  payloadExternalizer : Bool
  /-- The consumer that its mode has for events is set. -/
  consumesEvents : Bool
  /-- The consumer that its mode has for Extension UI requests is set. -/
  consumesExtensionUiRequests : Bool
  deriving DecidableEq

/-- Whether an unsolicited frame of the kind has a consumer. -/
def PiProcessOptions.consumes (opts : PiProcessOptions) (kind : UnsolicitedKind) : Bool :=
  match kind with
  | .ignored => false
  | .event => opts.consumesEvents
  | .extensionUiRequest => opts.consumesExtensionUiRequests

/-- The state of one `PiProcess`. -/
structure PiProcess (Body Value : Type*) where
  /-- The spawns so far. -/
  spawns : ℕ
  spawnIdentity : Option SpawnIdentity
  stopped : Bool
  /-- `start` has a promise that it returns again. -/
  ready : Bool
  pending : InsertionMap ℕ PendingRequest
  pendingPublicIds : InsertionMap String ℕ
  wireRequestCounter : ℕ
  /-- The armed command timers. -/
  timers : List ℕ
  /-- The frames behind `writeTail`, next first. -/
  writeQueue : List QueuedFrame
  /-- The frame whose write awaits `drain`. -/
  draining : Option QueuedFrame
  lines : InsertionMap ℕ (LineTask Body)
  /-- The number of the next line. -/
  lineCounter : ℕ
  /-- Every accepted request. -/
  accepted : InsertionMap ℕ PendingRequest
  /-- The settled promises of accepted requests. -/
  promises : InsertionMap ℕ (PromiseSettlement Body Value)
  /-- The request frames written, with the spawn they were written to. -/
  written : List (ℕ × ℕ)
  /-- The lines whose outcome carried a lease. -/
  leases : List ℕ
  custody : List (ℕ × CustodyEvent)

namespace PiProcess

variable {Body Value : Type*}

/-- The constructor. -/
def initial : PiProcess Body Value where
  spawns := 0
  spawnIdentity := none
  stopped := false
  ready := false
  pending := .empty
  pendingPublicIds := .empty
  wireRequestCounter := 0
  timers := []
  writeQueue := []
  draining := none
  lines := .empty
  lineCounter := 0
  accepted := .empty
  promises := .empty
  written := []
  leases := []
  custody := []

variable (s : PiProcess Body Value)

/-- A promise settles once; a later call changes nothing. -/
def settle (wireId : ℕ) (settlement : PromiseSettlement Body Value) : PiProcess Body Value :=
  match s.promises.get? wireId with
  | some _ => s
  | none => { s with promises := s.promises.insert wireId settlement }

/-- `clearTimeout` of a command timer. -/
def clearTimer (wireId : ℕ) : PiProcess Body Value :=
  { s with timers := s.timers.filter (· ≠ wireId) }

/-- `deletePending`. -/
def deletePending (wireId : ℕ) (request : PendingRequest) : PiProcess Body Value :=
  let deleted := if s.pending.get? wireId = some request then s.pending.erase wireId else s.pending
  { s with
    pending := deleted
    pendingPublicIds :=
      if s.pendingPublicIds.get? request.publicId = some wireId then
        s.pendingPublicIds.erase request.publicId
      else s.pendingPublicIds }

/-- `ownsSpawn`. -/
def ownsSpawn (spawn : ℕ) : Bool :=
  match s.spawnIdentity with
  | none => false
  | some identity =>
    !s.stopped && !identity.leaderExitObserved && decide (identity.number = spawn) &&
      !identity.unexpectedFinalization

/-- The request is still pending: `this.pending.get(id) === pending`. -/
def isPending (wireId : ℕ) (request : PendingRequest) : Bool :=
  decide (s.pending.get? wireId = some request)

/-- `rejectAll`. -/
def rejectAll : PiProcess Body Value :=
  let rejected := s.pending.entries.foldl
    (fun s entry => (s.clearTimer entry.1).settle entry.1 .rejected) s
  { rejected with pending := .empty, pendingPublicIds := .empty }

/-- `clearSpawn`. -/
def clearSpawn (spawn : ℕ) : PiProcess Body Value :=
  if s.spawnIdentity.any fun identity => identity.number = spawn then
    { s with spawnIdentity := none }
  else s

/-- `beginUnexpectedFinalization`, with the synchronous part of `finalizeUnexpectedExit`. -/
def beginUnexpectedFinalization (spawn : ℕ) : PiProcess Body Value :=
  match s.spawnIdentity with
  | none => s
  | some identity =>
    if identity.number ≠ spawn ∨ identity.unexpectedFinalization then s
    else
      { s.rejectAll with
        spawnIdentity :=
          some { identity with unexpectedFinalization := true, decodeAborted := true } }

/-- The rest of `finalizeUnexpectedExit`, after the process group was cleaned up. -/
def finishUnexpectedFinalization (spawn : ℕ) : PiProcess Body Value :=
  if s.spawnIdentity.any fun identity =>
      decide (identity.number = spawn) && identity.unexpectedFinalization then
    { s.clearSpawn spawn with ready := false }
  else s

/-- `handleProtocolFailure`. -/
def handleProtocolFailure (spawn : ℕ) : PiProcess Body Value :=
  if s.stopped || !(s.spawnIdentity.any fun identity => identity.number = spawn) then s
  else s.beginUnexpectedFinalization spawn

/-- `sendRaw` and `sendDecodedRaw`, which differ in the consumer that they keep. A refused
request is rejected at once and leaves nothing behind. -/
def sendWith (kind : PendingKind) (command : SessionCommandTypeDto) (publicId : String) :
    PiProcess Body Value :=
  match s.spawnIdentity with
  | none => s
  | some identity =>
    if identity.leaderExitObserved || identity.unexpectedFinalization then s
    else if (s.pendingPublicIds.get? publicId).isSome then s
    else
      let wireId := s.wireRequestCounter + 1
      let request : PendingRequest :=
        { kind := kind, command := command, publicId := publicId, spawn := identity.number }
      { s with
        wireRequestCounter := wireId
        timers := s.timers ++ [wireId]
        pending := s.pending.insert wireId request
        pendingPublicIds := s.pendingPublicIds.insert publicId wireId
        accepted := s.accepted.insert wireId request
        writeQueue := s.writeQueue ++ [.request wireId] }

/-- `sendRaw`. -/
def sendRaw (command : SessionCommandTypeDto) (publicId : String) : PiProcess Body Value :=
  s.sendWith .raw command publicId

/-- `sendDecoded`: without an externalizer it is rejected at once. -/
def sendDecoded (opts : PiProcessOptions) (command : SessionCommandTypeDto) (publicId : String) :
    PiProcess Body Value :=
  if opts.payloadExternalizer then s.sendWith .decoded command publicId else s

/-- `sendNoResponse`. -/
def sendNoResponse : PiProcess Body Value :=
  { s with writeQueue :=
      s.writeQueue ++ [.extensionUiResponse (s.spawnIdentity.map (·.number))] }

/-- `start` and the synchronous part of `doStart`: a child is spawned and asked for its state. -/
def start : PiProcess Body Value :=
  if s.ready then s
  else
    { s with
      ready := true
      stopped := false
      spawns := s.spawns + 1
      spawnIdentity := some
        { number := s.spawns + 1
          leaderExitObserved := false
          unexpectedFinalization := false
          decodeAborted := false } }.sendRaw .getState "ready-1"

/-- A command timer fires. -/
def timeout (wireId : ℕ) : PiProcess Body Value :=
  if wireId ∈ s.timers then
    let fired := s.clearTimer wireId
    let removed := match fired.pending.get? wireId with
      | none => fired
      | some request => fired.deletePending wireId request
    removed.settle wireId .rejected
  else s

/-- The write of a frame failed: what the sender's `catch` does. -/
def writeFailed (frame : QueuedFrame) : PiProcess Body Value :=
  match frame with
  | .request wireId =>
    match s.accepted.get? wireId with
    | none => s
    | some request =>
      ((s.clearTimer wireId).deletePending wireId request).settle wireId .rejected
  | .extensionUiResponse none => s
  | .extensionUiResponse (some spawn) => s.handleProtocolFailure spawn

/-- `writeNow` of the next frame: it goes to the child of this moment, if its stdin is writable;
a full pipe makes the queue wait. -/
def writeNext (writable full : Bool) : PiProcess Body Value :=
  match s.draining, s.writeQueue with
  | none, frame :: rest =>
    let taken := { s with writeQueue := rest }
    match s.spawnIdentity with
    | none => taken.writeFailed frame
    | some identity =>
      if writable then
        { taken with
          written := match frame with
            | .request wireId => taken.written ++ [(wireId, identity.number)]
            | .extensionUiResponse _ => taken.written
          draining := if full then some frame else none }
      else taken.writeFailed frame
  | _, _ => s

/-- The write that waited ends: the pipe drained, or it failed. -/
def drained (failed : Bool) : PiProcess Body Value :=
  match s.draining with
  | none => s
  | some frame =>
    if failed then ({ s with draining := none }).writeFailed frame
    else { s with draining := none }

/-- The child exits. Unless the process is stopped, its finalization is left to a later step:
an active line settles first. -/
def exited (spawn : ℕ) : PiProcess Body Value :=
  let observed := { s with
    spawnIdentity := s.spawnIdentity.map fun identity =>
      if identity.number = spawn then { identity with leaderExitObserved := true } else identity }
  if s.stopped then observed.rejectAll.clearSpawn spawn else observed

/-- `stop` up to its first `await`. -/
def stop : PiProcess Body Value :=
  { s with
    stopped := true
    spawnIdentity := s.spawnIdentity.map fun identity => { identity with decodeAborted := true } }

/-- The rest of a `stop` that found the child of that number. -/
def finishStop (spawn : ℕ) : PiProcess Body Value :=
  { (s.clearSpawn spawn).rejectAll with ready := false }

/-- The handshake of `doStart` failed. What it awaits then, a finalization or a stop, is a step
of its own. -/
def handshakeFailed : PiProcess Body Value := { s with ready := false }

/-- `handleLine` up to the decoding. -/
def readLine (line : PiLine Body) : PiProcess Body Value :=
  let route := match line.type with
    | .notAnObject => LineRoute.discarded
    | .unsolicited => .unsolicited
    | .response =>
      match line.id with
      | none => .orphaned
      | some id =>
        match s.pending.get? id with
        | none => .orphaned
        | some request => .pending id request
  { s with
    lineCounter := s.lineCounter + 1
    lines := s.lines.insert s.lineCounter
      { line := line, route := route, decodingRuns := true, stage := .decoding } }

/-- The task of a line is at a stage. -/
def setStage (number : ℕ) (task : LineTask Body) (stage : HandlerStage) : PiProcess Body Value :=
  { s with lines := s.lines.insert number { task with stage := stage } }

/-- The outcome of a line comes with its lease. -/
def takeLease (number : ℕ) (outcome : DecodeOutcome) : PiProcess Body Value :=
  if outcome.lease then { s with leases := s.leases ++ [number] } else s

/-- The end of the lease of a line. -/
def endCustody (number : ℕ) (outcome : DecodeOutcome) (event : CustodyEvent) :
    PiProcess Body Value :=
  if outcome.lease then { s with custody := s.custody ++ [(number, event)] } else s

/-- `releaseOutcome`. -/
def releaseOutcome (number : ℕ) (outcome : DecodeOutcome) : PiProcess Body Value :=
  s.endCustody number outcome .leaseReleased

/-- The deadline of a line passes, or the decoding is aborted with its spawn. -/
def abortDecoding (number : ℕ) (deadline : Bool) : PiProcess Body Value :=
  match s.lines.get? number with
  | none => s
  | some task =>
    match task.stage with
    | .decoding => s.setStage number task (.failed deadline)
    | _ => s

/-- The adapter can decode the line of a task for the command of its request, if it has one. -/
def decodes (decodeResponse : SessionCommandTypeDto → Body → Option Value)
    (task : LineTask Body) : Bool :=
  match task.route with
  | .pending _ request => (decodeResponse request.command task.line.body).isSome
  | _ => true

/-- The adapter's operation settles: an outcome, or a failure. An outcome that comes after the
deadline or the abort is released. -/
def settleDecoding (decodeResponse : SessionCommandTypeDto → Body → Option Value) (number : ℕ)
    (result : Except Bool DecodeOutcome) : PiProcess Body Value :=
  match s.lines.get? number with
  | none => s
  | some task =>
    if task.decodingRuns then
      let done := { task with decodingRuns := false }
      match result with
      | .error externalization =>
        match task.stage with
        | .decoding => s.setStage number done (.failed externalization)
        | stage => s.setStage number done stage
      | .ok outcome =>
        if decodes decodeResponse task then
          match task.stage with
          | .decoding => (s.takeLease number outcome).setStage number done (.resolved outcome)
          | stage =>
            ((s.takeLease number outcome).setStage number done stage).releaseOutcome number outcome
        else s
    else s

/-- The spawn of a line, and the request it answers, are still there. -/
def isCurrent (task : LineTask Body) : Bool :=
  s.ownsSpawn task.line.spawn &&
    match task.route with
    | .pending wireId request => s.isPending wireId request
    | _ => true

/-- The decoded value resolves the request. -/
def resolvePending (decodeResponse : SessionCommandTypeDto → Body → Option Value)
    (line : PiLine Body) (wireId : ℕ) (request : PendingRequest) : PiProcess Body Value :=
  match decodeResponse request.command line.body with
  | none => s
  | some value =>
    ((s.deletePending wireId request).clearTimer wireId).settle wireId
      (.fulfilled line request.publicId value)

/-- The request of a line whose response could not be externalized is rejected. -/
def rejectPending (wireId : ℕ) (request : PendingRequest) : PiProcess Body Value :=
  ((s.deletePending wireId request).clearTimer wireId).settle wireId .rejected

/-- The outcome is offered to a decoded consumer: the first part of `consumeDecodedOutcome`. -/
def offer (number : ℕ) (task : LineTask Body) (outcome : DecodeOutcome) (answer : ConsumerAnswer) :
    PiProcess Body Value :=
  match answer with
  | .returnsPlan => s.setStage number task (.planned outcome)
  | _ => (s.setStage number task .ended).releaseOutcome number outcome

/-- The handling of a line goes on. `answer` is what its consumer does if it is called,
`succeeds` whether `transfer` or the commit does. Where the source throws, the failure of the
spawn that follows is a step of its own. -/
def continueLine (decodeResponse : SessionCommandTypeDto → Body → Option Value)
    (opts : PiProcessOptions) (number : ℕ) (answer : ConsumerAnswer) (succeeds : Bool) :
    PiProcess Body Value :=
  match s.lines.get? number with
  | none => s
  | some task =>
    match task.stage with
    | .decoding | .ended => s
    | .failed externalization =>
      let ended := s.setStage number task .ended
      match task.route with
      | .pending wireId request =>
        if externalization && s.isCurrent task then ended.rejectPending wireId request else ended
      | _ => ended
    | .resolved outcome =>
      let ended := s.setStage number task .ended
      match task.route with
      | .discarded | .orphaned => ended.releaseOutcome number outcome
      | .pending wireId request =>
        if !s.isCurrent task then ended.releaseOutcome number outcome
        else
          match request.kind with
          | .decoded => s.offer number task outcome answer
          | .raw =>
            if outcome.lease then ended.releaseOutcome number outcome
            else ended.resolvePending decodeResponse task.line wireId request
      | .unsolicited =>
        if !s.isCurrent task || !opts.consumes outcome.kind then
          ended.releaseOutcome number outcome
        else if opts.payloadExternalizer then s.offer number task outcome answer
        else ended.releaseOutcome number outcome
    | .planned outcome =>
      if s.isCurrent task && succeeds then s.setStage number task (.transferred outcome)
      else (s.setStage number task .ended).releaseOutcome number outcome
    | .transferred outcome =>
      if !s.isCurrent task then
        (s.setStage number task .ended).endCustody number outcome .staleTransferReleased
      else if succeeds then
        (s.setStage number task .committed).endCustody number outcome .adopted
      else (s.setStage number task .ended).endCustody number outcome .failedTransferReleased
    | .committed =>
      let ended := s.setStage number task .ended
      match task.route with
      | .pending wireId request =>
        if s.isCurrent task then ended.resolvePending decodeResponse task.line wireId request
        else ended
      | _ => ended

end PiProcess

/-- What happens to a `PiProcess`. -/
inductive PiProcessAction (Body : Type*) where
  | start
  | handshakeFailed
  | send (command : SessionCommandTypeDto) (publicId : String)
  | sendDecoded (command : SessionCommandTypeDto) (publicId : String)
  | sendNoResponse
  | timeout (wireId : ℕ)
  | writeNext (writable full : Bool)
  | drained (failed : Bool)
  | exited (spawn : ℕ)
  | unexpectedFinalization (spawn : ℕ)
  | finishUnexpectedFinalization (spawn : ℕ)
  | protocolFailure (spawn : ℕ)
  | stop
  | finishStop (spawn : ℕ)
  | readLine (line : PiLine Body)
  | abortDecoding (number : ℕ) (deadline : Bool)
  | settleDecoding (number : ℕ) (result : Except Bool DecodeOutcome)
  | continueLine (number : ℕ) (answer : ConsumerAnswer) (succeeds : Bool)

namespace PiProcess

variable {Body Value : Type*}

/-- One step of the process. A line is read from a child that was spawned. -/
def step (decodeResponse : SessionCommandTypeDto → Body → Option Value) (opts : PiProcessOptions)
    (s : PiProcess Body Value) : PiProcessAction Body → PiProcess Body Value
  | .start => s.start
  | .handshakeFailed => s.handshakeFailed
  | .send command publicId => s.sendRaw command publicId
  | .sendDecoded command publicId => s.sendDecoded opts command publicId
  | .sendNoResponse => s.sendNoResponse
  | .timeout wireId => s.timeout wireId
  | .writeNext writable full => s.writeNext writable full
  | .drained failed => s.drained failed
  | .exited spawn => s.exited spawn
  | .unexpectedFinalization spawn => s.beginUnexpectedFinalization spawn
  | .finishUnexpectedFinalization spawn => s.finishUnexpectedFinalization spawn
  | .protocolFailure spawn => s.handleProtocolFailure spawn
  | .stop => s.stop
  | .finishStop spawn => s.finishStop spawn
  | .readLine line => if line.spawn ≤ s.spawns then s.readLine line else s
  | .abortDecoding number deadline => s.abortDecoding number deadline
  | .settleDecoding number result => s.settleDecoding decodeResponse number result
  | .continueLine number answer succeeds =>
    s.continueLine decodeResponse opts number answer succeeds

end PiProcess

end PiAgentWeb
