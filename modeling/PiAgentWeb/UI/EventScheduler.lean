import PiAgentWeb.Library.InsertionMap
import PiAgentWeb.UI.DeltaMerging

/-!
# The Session event scheduler

The scheduler coalesces append-only assistant deltas. Compatible deltas of one message identity
merge into the last pending run of their Session; caps on characters and on reducer events, per
Session and in total, force a flush; a frame or a timer flushes everything. Each batch is handed
to `onFlush`, whose calls the state records in order. The handler returns without calling back.
-/

namespace PiAgentWeb

/-- `CoalescibleMessageUpdate`: a `message_update` whose stream event is a delta. -/
structure CoalescibleMessageUpdate where
  usage : Usage
  type : DeltaType
  contentIndex : ℕ
  delta : JsString
  deriving DecidableEq

/-- The Session event of a coalescible update. -/
def CoalescibleMessageUpdate.toEvent {J T : Type} (update : CoalescibleMessageUpdate) :
    SessionEvent J T :=
  .messageUpdate
    { usage := update.usage
      assistantMessageEvent := .delta update.type update.contentIndex update.delta }

/-- `PendingRun`: deltas merged into one event. -/
structure PendingRun where
  messageIdentity : JsString
  event : CoalescibleMessageUpdate
  sourceEvents : ℕ
  characters : ℕ
  deriving DecidableEq

/-- `PendingSession`. -/
structure PendingSession where
  generation : ℕ
  runs : List PendingRun
  sourceEvents : ℕ
  characters : ℕ
  deriving DecidableEq

/-- `SessionEventPublicationMode`. -/
inductive PublicationMode where
  | coalesced | sequential
  deriving DecidableEq

/-- The options of a scheduler. -/
structure SchedulerOptions where
  publicationMode : PublicationMode
  maxCharactersPerSession : ℕ
  maxCharactersTotal : ℕ
  maxReducerEventsPerSession : ℕ
  maxReducerEventsTotal : ℕ

/-- The default options. -/
def SchedulerOptions.default : SchedulerOptions where
  publicationMode := .coalesced
  maxCharactersPerSession := 256 * 1024
  maxCharactersTotal := 1024 * 1024
  maxReducerEventsPerSession := 64
  maxReducerEventsTotal := 512

/-- `SessionEventSchedulerMetrics`. -/
structure SchedulerMetrics where
  sourceEvents : ℕ
  reducerEvents : ℕ
  commits : ℕ
  mergedEvents : ℕ
  discardedEvents : ℕ
  forcedFlushes : ℕ
  maxPendingSessions : ℕ
  maxPendingSourceEvents : ℕ
  maxPendingReducerEvents : ℕ
  maxPendingCharacters : ℕ
  deriving DecidableEq

/-- One call of `onFlush`. -/
structure FlushedBatch where
  sessionHandle : JsString
  generation : ℕ
  events : List CoalescibleMessageUpdate
  deriving DecidableEq

/-- `SessionEventScheduler`. A frame or timer handle is known by whether it is outstanding. -/
structure SessionEventScheduler where
  options : SchedulerOptions
  pending : InsertionMap JsString PendingSession
  pendingSourceEvents : ℕ
  pendingReducerEvents : ℕ
  pendingCharacters : ℕ
  framePending : Bool
  timerPending : Bool
  disposed : Bool
  metrics : SchedulerMetrics
  /-- The calls of `onFlush` so far. -/
  flushed : List FlushedBatch

/-- `SessionEventEnqueueResult`. -/
inductive EnqueueResult where
  | deferred | flushed | rejected
  deriving DecidableEq

/-- `canMerge`. -/
def canMerge (run : Option PendingRun) (messageIdentity : JsString)
    (event : CoalescibleMessageUpdate) : Bool :=
  match run with
  | none => false
  | some run =>
    run.messageIdentity == messageIdentity && run.event.type == event.type &&
      run.event.contentIndex == event.contentIndex

/-- `mergeRun`: the later event with the text of both. -/
def mergeRun (run : PendingRun) (event : CoalescibleMessageUpdate) (characters : ℕ) :
    PendingRun :=
  { run with
    event := { event with delta := run.event.delta ++ event.delta }
    sourceEvents := run.sourceEvents + 1
    characters := run.characters + characters }

/-- The runs of a Session after an event: merged into the last run, or appended as a new one. -/
def pushRun (runs : List PendingRun) (messageIdentity : JsString)
    (event : CoalescibleMessageUpdate) (characters : ℕ) : List PendingRun :=
  let fresh : PendingRun :=
    { messageIdentity := messageIdentity, event := event, sourceEvents := 1,
      characters := characters }
  match runs.getLast? with
  | some last =>
    if canMerge (some last) messageIdentity event then
      runs.dropLast ++ [mergeRun last event characters]
    else runs ++ [fresh]
  | none => runs ++ [fresh]

namespace SessionEventScheduler

/-- A scheduler without pending events. -/
def create (options : SchedulerOptions) : SessionEventScheduler where
  options := options
  pending := .empty
  pendingSourceEvents := 0
  pendingReducerEvents := 0
  pendingCharacters := 0
  framePending := false
  timerPending := false
  disposed := false
  metrics :=
    { sourceEvents := 0, reducerEvents := 0, commits := 0, mergedEvents := 0,
      discardedEvents := 0, forcedFlushes := 0, maxPendingSessions := 0,
      maxPendingSourceEvents := 0, maxPendingReducerEvents := 0, maxPendingCharacters := 0 }
  flushed := []

/-- `cancelSchedule`. -/
def cancelSchedule (s : SessionEventScheduler) : SessionEventScheduler :=
  { s with framePending := false, timerPending := false }

/-- `schedule`: asks for a frame, or for the bounded timer while the page is hidden. -/
def schedule (s : SessionEventScheduler) (hidden : Bool) : SessionEventScheduler :=
  if s.disposed || s.pending.entries.isEmpty || s.framePending || s.timerPending then s
  else if hidden then { s with timerPending := true }
  else { s with framePending := true }

/-- `emitBatch`. -/
def emitBatch (s : SessionEventScheduler) (sessionHandle : JsString) (generation : ℕ)
    (events : List CoalescibleMessageUpdate) (sourceEventCount : ℕ) : SessionEventScheduler :=
  if events.isEmpty then s
  else
    { s with
      metrics := { s.metrics with
        reducerEvents := s.metrics.reducerEvents + events.length
        commits := s.metrics.commits + 1
        mergedEvents := s.metrics.mergedEvents + (sourceEventCount - events.length) }
      flushed := s.flushed ++
        [{ sessionHandle := sessionHandle, generation := generation, events := events }] }

/-- `removePending`. -/
def removePending (s : SessionEventScheduler) (sessionHandle : JsString)
    (pending : PendingSession) : SessionEventScheduler :=
  let removed := { s with
    pending := s.pending.erase sessionHandle
    pendingSourceEvents := s.pendingSourceEvents - pending.sourceEvents
    pendingReducerEvents := s.pendingReducerEvents - pending.runs.length
    pendingCharacters := s.pendingCharacters - pending.characters }
  if removed.pending.entries.isEmpty then removed.cancelSchedule else removed

/-- `discardSession`. -/
def discardSession (s : SessionEventScheduler) (sessionHandle : JsString) :
    SessionEventScheduler :=
  match s.pending.get? sessionHandle with
  | none => s
  | some pending =>
    { s with metrics := { s.metrics with
        discardedEvents := s.metrics.discardedEvents + pending.sourceEvents } }.removePending
      sessionHandle pending

/-- The batch of a pending Session. -/
def emitPending (s : SessionEventScheduler) (entry : JsString × PendingSession) :
    SessionEventScheduler :=
  s.emitBatch entry.1 entry.2.generation (entry.2.runs.map (·.event)) entry.2.sourceEvents

/-- `flushSession`: pending events of another generation are dropped. -/
def flushSession (s : SessionEventScheduler) (sessionHandle : JsString)
    (generation : Option ℕ) : SessionEventScheduler :=
  match s.pending.get? sessionHandle with
  | none => s
  | some pending =>
    if generation.any fun g => pending.generation != g then s.discardSession sessionHandle
    else (s.removePending sessionHandle pending).emitPending (sessionHandle, pending)

/-- `flushAll`: every Session once, in insertion order. -/
def flushAll (s : SessionEventScheduler) : SessionEventScheduler :=
  if s.pending.entries.isEmpty then s.cancelSchedule
  else
    let batches := s.pending.entries
    let cleared := { s with
      pending := .empty
      pendingSourceEvents := 0
      pendingReducerEvents := 0
      pendingCharacters := 0 }.cancelSchedule
    batches.foldl emitPending cleared

/-- One more forced flush. -/
def countForcedFlush (s : SessionEventScheduler) : SessionEventScheduler :=
  { s with metrics := { s.metrics with forcedFlushes := s.metrics.forcedFlushes + 1 } }

/-- `captureHighWaterMarks`. -/
def captureHighWaterMarks (s : SessionEventScheduler) : SessionEventScheduler :=
  { s with metrics := { s.metrics with
      maxPendingSessions := max s.metrics.maxPendingSessions s.pending.entries.length
      maxPendingSourceEvents := max s.metrics.maxPendingSourceEvents s.pendingSourceEvents
      maxPendingReducerEvents := max s.metrics.maxPendingReducerEvents s.pendingReducerEvents
      maxPendingCharacters := max s.metrics.maxPendingCharacters s.pendingCharacters } }

/-- The locals of `enqueue` while the caps are applied: the scheduler, the pending Session of the
event and whether the event merges into its last run. -/
structure Admission where
  scheduler : SessionEventScheduler
  current : Option PendingSession
  mergeable : Bool

/-- A Session that would exceed its characters is flushed. -/
def capSessionCharacters (sessionHandle : JsString) (generation characters : ℕ)
    (a : Admission) : Admission :=
  if a.current.any fun current =>
      current.characters + characters > a.scheduler.options.maxCharactersPerSession then
    { scheduler := a.scheduler.countForcedFlush.flushSession sessionHandle (some generation)
      current := none, mergeable := false }
  else a

/-- All Sessions are flushed when they would exceed the total characters. -/
def capTotalCharacters (characters : ℕ) (a : Admission) : Admission :=
  if a.scheduler.pendingCharacters + characters > a.scheduler.options.maxCharactersTotal then
    { scheduler := a.scheduler.countForcedFlush.flushAll, current := none, mergeable := false }
  else a

/-- A Session with all its reducer events in use is flushed. -/
def capSessionEvents (sessionHandle : JsString) (generation : ℕ) (a : Admission) : Admission :=
  if !a.mergeable && a.current.any fun current =>
      current.runs.length ≥ a.scheduler.options.maxReducerEventsPerSession then
    { a with
      scheduler := a.scheduler.countForcedFlush.flushSession sessionHandle (some generation)
      current := none }
  else a

/-- All Sessions are flushed when all reducer events are in use. -/
def capTotalEvents (a : Admission) : Admission :=
  if !a.mergeable && a.scheduler.pendingReducerEvents ≥ a.scheduler.options.maxReducerEventsTotal
  then { a with scheduler := a.scheduler.countForcedFlush.flushAll, current := none }
  else a

/-- The end of `enqueue`: the event becomes pending and a flush is scheduled. -/
def Admission.enqueuePending (a : Admission) (sessionHandle : JsString) (generation : ℕ)
    (messageIdentity : JsString) (event : CoalescibleMessageUpdate) (hidden : Bool) :
    SessionEventScheduler :=
  let pending := a.current.getD
    { generation := generation, runs := [], sourceEvents := 0, characters := 0 }
  let merges := canMerge pending.runs.getLast? messageIdentity event
  let s := a.scheduler
  { s with
    pending := s.pending.insert sessionHandle
      { pending with
        runs := pushRun pending.runs messageIdentity event event.delta.length
        sourceEvents := pending.sourceEvents + 1
        characters := pending.characters + event.delta.length }
    pendingReducerEvents := if merges then s.pendingReducerEvents else s.pendingReducerEvents + 1
    pendingSourceEvents := s.pendingSourceEvents + 1
    pendingCharacters := s.pendingCharacters + event.delta.length
    }.captureHighWaterMarks.schedule hidden

/-- An event that no cap can admit is never pending. -/
def oversized (options : SchedulerOptions) (characters : ℕ) : Bool :=
  characters > options.maxCharactersPerSession || characters > options.maxCharactersTotal ||
    options.maxReducerEventsPerSession < 1 || options.maxReducerEventsTotal < 1

/-- The part of `enqueue` after the checks: the caps in order, then the pending run. -/
def applyCaps (s : SessionEventScheduler) (sessionHandle : JsString) (generation : ℕ)
    (messageIdentity : JsString) (event : CoalescibleMessageUpdate) : Admission :=
  let current := s.pending.get? sessionHandle
  let start : Admission :=
    { scheduler := s
      current := current
      mergeable := canMerge (current.bind (·.runs.getLast?)) messageIdentity event }
  capTotalEvents (capSessionEvents sessionHandle generation
    (capTotalCharacters event.delta.length
      (capSessionCharacters sessionHandle generation event.delta.length start)))

/-- One more source event. -/
def countSourceEvent (s : SessionEventScheduler) : SessionEventScheduler :=
  { s with metrics := { s.metrics with sourceEvents := s.metrics.sourceEvents + 1 } }

/-- Pending events of another generation of the Session are dropped. -/
def dropStale (s : SessionEventScheduler) (sessionHandle : JsString) (generation : ℕ) :
    SessionEventScheduler :=
  match s.pending.get? sessionHandle with
  | some stale => if stale.generation ≠ generation then s.discardSession sessionHandle else s
  | none => s

/-- `enqueue`. -/
def enqueue (s : SessionEventScheduler) (sessionHandle : JsString) (generation : ℕ)
    (messageIdentity : JsString) (event : CoalescibleMessageUpdate) (hidden : Bool) :
    SessionEventScheduler × EnqueueResult :=
  let counted := s.countSourceEvent
  if s.disposed then
    ({ counted with metrics := { counted.metrics with
        discardedEvents := counted.metrics.discardedEvents + 1 } }, .rejected)
  else if s.options.publicationMode = .sequential then
    (counted.emitBatch sessionHandle generation [event] 1, .flushed)
  else
    let fresh := counted.dropStale sessionHandle generation
    if oversized s.options event.delta.length then
      ((fresh.flushSession sessionHandle (some generation)).countForcedFlush.emitBatch
        sessionHandle generation [event] 1, .flushed)
    else
      ((fresh.applyCaps sessionHandle generation messageIdentity event).enqueuePending sessionHandle
        generation messageIdentity event hidden, .deferred)

/-- `handleVisibilityChange`. -/
def handleVisibilityChange (s : SessionEventScheduler) (hidden : Bool) : SessionEventScheduler :=
  if s.disposed || s.pending.entries.isEmpty then s
  else s.cancelSchedule.schedule hidden

/-- The callback of a frame. A cancelled frame does not fire. -/
def frameFired (s : SessionEventScheduler) : SessionEventScheduler :=
  if s.framePending then { s with framePending := false }.flushAll else s

/-- The callback of the bounded timer. A cleared timer does not fire. -/
def timerFired (s : SessionEventScheduler) : SessionEventScheduler :=
  if s.timerPending then { s with timerPending := false }.flushAll else s

/-- `dispose`. -/
def dispose (s : SessionEventScheduler) : SessionEventScheduler :=
  if s.disposed then s
  else
    let discarded := (s.pending.entries.map (·.2.sourceEvents)).sum
    { s with
      disposed := true
      pending := .empty
      pendingSourceEvents := 0
      pendingReducerEvents := 0
      pendingCharacters := 0
      metrics := { s.metrics with
        discardedEvents := s.metrics.discardedEvents + discarded } }.cancelSchedule

end SessionEventScheduler

end PiAgentWeb
