import PiAgentWeb.Library.Runs
import PiAgentWeb.UI.EventSchedulerRuns

/-!
# The event scheduler and a handler that calls back

The scheduler hands its batches to `onFlush` in the middle of its own methods, and the handler may
call the scheduler again or throw. Here the methods that reach `onFlush` take the handler as a
transition of the scheduler. The source events are numbered in the order in which they arrive, and a
history keeps which of them are pending, which were handed to `onFlush` and which were dropped by a
discard or by the disposal.
-/

namespace PiAgentWeb

/-- A source event that is pending: its number, its Session and its characters. -/
structure WaitingSource where
  number : ℕ
  sessionHandle : JsString
  characters : ℕ
  deriving DecidableEq

/-- The scheduler with the history of its source events. -/
structure ObservedScheduler extends SessionEventScheduler where
  /-- The number of calls of `enqueue` so far, which is the number of the next source event. -/
  received : ℕ
  waiting : List WaitingSource
  handed : List ℕ
  dropped : List ℕ

/-- What `onFlush` does to the scheduler when it is called, and whether it throws. The batch is the
last one of `flushed`. -/
abbrev FlushHandler := ObservedScheduler → ObservedScheduler × Bool

namespace ObservedScheduler

/-- A scheduler without pending events. -/
def create (options : SchedulerOptions) : ObservedScheduler :=
  { SessionEventScheduler.create options with
    received := 0, waiting := [], handed := [], dropped := [] }

variable (onFlush : FlushHandler) (s : ObservedScheduler)

/-- The numbers of the pending source events of a Session. -/
def numbersOf (sessionHandle : JsString) : List ℕ :=
  (s.waiting.filter (·.sessionHandle = sessionHandle)).map (·.number)

/-- The pending source events of the other Sessions. -/
def waitingElsewhere (sessionHandle : JsString) : List WaitingSource :=
  s.waiting.filter (·.sessionHandle ≠ sessionHandle)

/-- `emitBatch`. -/
def emitBatch (sessionHandle : JsString) (generation : ℕ) (events : List CoalescibleMessageUpdate)
    (sourceEventCount : ℕ) (numbers : List ℕ) : ObservedScheduler × Bool :=
  if events.isEmpty then (s, false)
  else onFlush { s with
      toSessionEventScheduler :=
        s.toSessionEventScheduler.emitBatch sessionHandle generation events sourceEventCount
      handed := s.handed ++ numbers }

/-- `removePending`. -/
def removePending (sessionHandle : JsString) (pending : PendingSession) : ObservedScheduler :=
  { s with
    toSessionEventScheduler := s.toSessionEventScheduler.removePending sessionHandle pending
    waiting := s.waitingElsewhere sessionHandle }

/-- `discardSession`. -/
def discardSession (sessionHandle : JsString) : ObservedScheduler :=
  match s.pending.get? sessionHandle with
  | none => s
  | some _ =>
    { s with
      toSessionEventScheduler := s.toSessionEventScheduler.discardSession sessionHandle
      waiting := s.waitingElsewhere sessionHandle
      dropped := s.dropped ++ s.numbersOf sessionHandle }

/-- `flushSession`, and whether the handler has thrown. -/
def flushSession (sessionHandle : JsString) (generation : Option ℕ) : ObservedScheduler × Bool :=
  match s.pending.get? sessionHandle with
  | none => (s, false)
  | some pending =>
    if generation.any fun g => pending.generation != g then (s.discardSession sessionHandle, false)
    else
      (s.removePending sessionHandle pending).emitBatch onFlush sessionHandle pending.generation
        (pending.runs.map (·.event)) pending.sourceEvents (s.numbersOf sessionHandle)

/-- Everything that was pending is taken out of the scheduler. -/
def clearPending : ObservedScheduler :=
  { s with
    toSessionEventScheduler := { s.toSessionEventScheduler with
      pending := .empty
      pendingSourceEvents := 0
      pendingReducerEvents := 0
      pendingCharacters := 0 }.cancelSchedule
    waiting := [] }

/-- The body of the loop of `flushAll`: an error of the handler is kept, and the next batch is
handed over all the same. -/
def emitNext (current : ObservedScheduler × Bool) (batch : (JsString × PendingSession) × List ℕ) :
    ObservedScheduler × Bool :=
  let result := current.1.emitBatch onFlush batch.1.1 batch.1.2.generation
    (batch.1.2.runs.map (·.event)) batch.1.2.sourceEvents batch.2
  (result.1, current.2 || result.2)

/-- The loop of `flushAll` over the batches it has taken. -/
def emitBatches (batches : List ((JsString × PendingSession) × List ℕ))
    (start : ObservedScheduler × Bool) : ObservedScheduler × Bool :=
  batches.foldl (emitNext onFlush) start

/-- `flushAll`, and whether it has thrown. -/
def flushAll : ObservedScheduler × Bool :=
  if s.pending.entries.isEmpty then
    ({ s with toSessionEventScheduler := s.toSessionEventScheduler.cancelSchedule }, false)
  else
    emitBatches onFlush (s.pending.entries.map fun entry => (entry, s.numbersOf entry.1))
      (s.clearPending, false)

/-- One more forced flush. -/
def countForcedFlush : ObservedScheduler :=
  { s with toSessionEventScheduler := s.toSessionEventScheduler.countForcedFlush }

/-- `dispose`. -/
def dispose : ObservedScheduler :=
  if s.disposed then s
  else
    { s with
      toSessionEventScheduler := s.toSessionEventScheduler.dispose
      waiting := []
      dropped := s.dropped ++ s.waiting.map (·.number) }

/-- The locals of `enqueue` while the caps are applied, and whether the handler has thrown. -/
structure CallingAdmission where
  scheduler : ObservedScheduler
  current : Option PendingSession
  mergeable : Bool
  threw : Bool

/-- A forced flush of the Session. -/
def CallingAdmission.forceSession (a : CallingAdmission) (sessionHandle : JsString)
    (generation : ℕ) (mergeable : Bool) : CallingAdmission :=
  let result := a.scheduler.countForcedFlush.flushSession onFlush sessionHandle (some generation)
  { scheduler := result.1, current := none, mergeable := mergeable, threw := result.2 }

/-- A forced flush of all Sessions. -/
def CallingAdmission.forceAll (a : CallingAdmission) (mergeable : Bool) : CallingAdmission :=
  let result := a.scheduler.countForcedFlush.flushAll onFlush
  { scheduler := result.1, current := none, mergeable := mergeable, threw := result.2 }

/-- A Session that would exceed its characters is flushed. -/
def callCapSessionCharacters (sessionHandle : JsString) (generation characters : ℕ)
    (a : CallingAdmission) : CallingAdmission :=
  if a.current.any fun current =>
      current.characters + characters > a.scheduler.options.maxCharactersPerSession then
    a.forceSession onFlush sessionHandle generation false
  else a

/-- All Sessions are flushed when they would exceed the total characters. -/
def callCapTotalCharacters (characters : ℕ) (a : CallingAdmission) : CallingAdmission :=
  if a.threw then a
  else if a.scheduler.pendingCharacters + characters > a.scheduler.options.maxCharactersTotal then
    a.forceAll onFlush false
  else a

/-- A Session with all its reducer events in use is flushed. -/
def callCapSessionEvents (sessionHandle : JsString) (generation : ℕ) (a : CallingAdmission) :
    CallingAdmission :=
  if a.threw then a
  else if !a.mergeable && a.current.any fun current =>
      current.runs.length ≥ a.scheduler.options.maxReducerEventsPerSession then
    a.forceSession onFlush sessionHandle generation a.mergeable
  else a

/-- All Sessions are flushed when all reducer events are in use. -/
def callCapTotalEvents (a : CallingAdmission) : CallingAdmission :=
  if a.threw then a
  else if !a.mergeable &&
      a.scheduler.pendingReducerEvents ≥ a.scheduler.options.maxReducerEventsTotal then
    a.forceAll onFlush a.mergeable
  else a

/-- The locals of `enqueue` before the caps. -/
def admission (sessionHandle messageIdentity : JsString) (event : CoalescibleMessageUpdate) :
    CallingAdmission :=
  let current := s.pending.get? sessionHandle
  { scheduler := s
    current := current
    mergeable := canMerge (current.bind (·.runs.getLast?)) messageIdentity event
    threw := false }

/-- The caps of `enqueue` in order. -/
def applyCaps (sessionHandle : JsString) (generation : ℕ) (messageIdentity : JsString)
    (event : CoalescibleMessageUpdate) : CallingAdmission :=
  callCapTotalEvents onFlush (callCapSessionEvents onFlush sessionHandle generation
    (callCapTotalCharacters onFlush event.delta.length
      (callCapSessionCharacters onFlush sessionHandle generation event.delta.length
        (s.admission sessionHandle messageIdentity event))))

/-- The end of `enqueue`: the event becomes pending and a flush is scheduled. -/
def CallingAdmission.enqueuePending (a : CallingAdmission) (number : ℕ) (sessionHandle : JsString)
    (generation : ℕ) (messageIdentity : JsString) (event : CoalescibleMessageUpdate)
    (hidden : Bool) : ObservedScheduler :=
  { a.scheduler with
    toSessionEventScheduler :=
      SessionEventScheduler.Admission.enqueuePending
        { scheduler := a.scheduler.toSessionEventScheduler
          current := a.current
          mergeable := a.mergeable }
        sessionHandle generation messageIdentity event hidden
    waiting := a.scheduler.waiting ++
      [{ number := number, sessionHandle := sessionHandle, characters := event.delta.length }] }

/-- A source event arrives. -/
def receive : ObservedScheduler :=
  { s with
    toSessionEventScheduler := s.toSessionEventScheduler.countSourceEvent
    received := s.received + 1 }

/-- Pending events of another generation of the Session are dropped. -/
def dropStale (sessionHandle : JsString) (generation : ℕ) : ObservedScheduler :=
  match s.pending.get? sessionHandle with
  | some stale => if stale.generation ≠ generation then s.discardSession sessionHandle else s
  | none => s

/-- `enqueue`, with nothing in place of the result when the handler has thrown. -/
def enqueue (sessionHandle : JsString) (generation : ℕ) (messageIdentity : JsString)
    (event : CoalescibleMessageUpdate) (hidden : Bool) :
    ObservedScheduler × Option EnqueueResult :=
  let number := s.received
  let counted := s.receive
  if s.disposed then
    ({ counted with metrics := { counted.metrics with
        discardedEvents := counted.metrics.discardedEvents + 1 } }, some .rejected)
  else if s.options.publicationMode = .sequential then
    let emitted := counted.emitBatch onFlush sessionHandle generation [event] 1 [number]
    (emitted.1, if emitted.2 then none else some .flushed)
  else
    let fresh := counted.dropStale sessionHandle generation
    if SessionEventScheduler.oversized s.options event.delta.length then
      let flushed := fresh.flushSession onFlush sessionHandle (some generation)
      if flushed.2 then (flushed.1, none)
      else
        let emitted := flushed.1.countForcedFlush.emitBatch onFlush sessionHandle generation [event]
          1 [number]
        (emitted.1, if emitted.2 then none else some .flushed)
    else
      let admission := fresh.applyCaps onFlush sessionHandle generation messageIdentity event
      if admission.threw then (admission.scheduler, none)
      else
        (admission.enqueuePending number sessionHandle generation messageIdentity event hidden,
          some .deferred)

/-- One call of the scheduler and whether it has thrown. The handler is told whether a call of
`enqueue` is running. -/
def stepWith (handler : Bool → FlushHandler) (running : Bool) (s : ObservedScheduler) :
    SchedulerOp → ObservedScheduler × Bool
  | .enqueue sessionHandle generation messageIdentity event hidden =>
    let result := s.enqueue (handler true) sessionHandle generation messageIdentity event hidden
    (result.1, result.2.isNone)
  | .flushSession sessionHandle generation =>
    s.flushSession (handler running) sessionHandle generation
  | .flushAll => s.flushAll (handler running)
  | .frameFired =>
    if s.framePending then { s with framePending := false }.flushAll (handler running)
    else (s, false)
  | .timerFired =>
    if s.timerPending then { s with timerPending := false }.flushAll (handler running)
    else (s, false)
  | .visibilityChange hidden =>
    ({ s with toSessionEventScheduler := s.toSessionEventScheduler.handleVisibilityChange hidden },
      false)
  | .discardSession sessionHandle => (s.discardSession sessionHandle, false)
  | .dispose => (s.dispose, false)

/-- What a handler does in a call, from whether an `enqueue` is running and from the batches so far:
the calls it makes, and whether it throws. -/
abbrev Reaction := Bool → List FlushedBatch → List SchedulerOp × Bool

/-- The handler that reacts so, where calls nest at most so deep. -/
def handlerAt (react : Reaction) : ℕ → Bool → FlushHandler
  | 0, _ => fun s => (s, false)
  | depth + 1, running => fun s =>
    ((react running s.flushed).1.foldl
      (fun current op => (current.stepWith (handlerAt react depth) running op).1) s,
      (react running s.flushed).2)

/-- The scheduler after the calls of a run, with a handler that reacts so. -/
def runCalls (react : Reaction) (depth : ℕ) (options : SchedulerOptions)
    (ops : List SchedulerOp) : ObservedScheduler :=
  runFrom (fun s op => (s.stepWith (handlerAt react depth) false op).1) (create options) ops

end ObservedScheduler

end PiAgentWeb
