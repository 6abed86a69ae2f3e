import PiAgentWeb.Library.InsertionMap
import PiAgentWeb.Library.Runs
import PiAgentWeb.Protocol.Control

/-!
# The resync coordinator

The coordinator recovers Sessions by attempts: an entry for a Session starts an attempt, waits with
a timer after a failure, and gives up after some failures in a row. Attempts are promises that
settle later. The listeners, the attempt callback, `onRecovered` and the abort listeners of a task
are called in the middle of the coordinator's methods and may call it again, so the methods take
what a callback does as a transition. Entries, tasks and timers are numbered; a history keeps what
the callbacks were told.
-/

namespace PiAgentWeb

/-- `SESSION_RESYNC_MAX_ATTEMPTS`. -/
def sessionResyncMaxAttempts : ℕ := 4

/-- `SessionResyncPhase`. -/
inductive SessionResyncPhase where
  | syncing | retryWait | degraded
  deriving DecidableEq

/-- `SessionResyncState`. -/
structure SessionResyncState where
  identity : SessionRuntimeIdentity
  phase : SessionResyncPhase
  attempt : ℕ
  cursorless : Bool
  deriving DecidableEq

/-- `ResyncEntry`, with its timer and task by their numbers. -/
structure ResyncEntry where
  state : SessionResyncState
  timer : Option ℕ
  task : Option ℕ
  /-- The attempts that failed since the entry was created or was last retried by hand. -/
  failures : ℕ
  deriving DecidableEq

/-- `SessionResyncAttemptContext` of an attempt of an entry. -/
structure SessionResyncAttempt where
  entry : ℕ
  token : ℕ
  identity : SessionRuntimeIdentity
  attempt : ℕ
  cursorless : Bool
  /-- The failures of the entry when the attempt was made. -/
  failures : ℕ
  deriving DecidableEq

/-- `SessionResyncCompletion` as it arrives: parts that have the wrong type are missing. -/
structure SessionResyncCompletion where
  identity : Option SessionRuntimeIdentity
  snapshotId : Option JsString
  asOfSeq : Option ℤ
  deriving DecidableEq

/-- A call of a callback: a listener, the attempt callback, `onRecovered`, or the abort listeners of
a task. -/
inductive ResyncNotice where
  | published (sessionHandle : SessionHandle) (state : Option SessionResyncState)
  | attempted (attempt : SessionResyncAttempt)
  | recovered (entry : ℕ) (completion : SessionResyncCompletion)
  | aborted (token : ℕ)
  deriving DecidableEq

/-- The state of a coordinator. -/
structure ResyncCoordinator where
  /-- The entries that were ever created, by number. -/
  heap : ℕ → ResyncEntry
  nextEntry : ℕ
  entries : InsertionMap SessionHandle ℕ
  connected : Bool
  disposed : Bool
  /-- The set of listeners was not cleared. -/
  listening : Bool
  nextTaskToken : ℕ
  nextTimer : ℕ
  /-- The timers that have not fired and their entries. -/
  timers : List (ℕ × ℕ)
  /-- The attempts whose promise has not settled. -/
  inFlight : List SessionResyncAttempt
  /-- The tasks whose signal was aborted. -/
  aborted : List ℕ
  notices : List ResyncNotice

/-- `completionError`: the completion is not one of the identity. -/
def completionInvalid (expected : SessionRuntimeIdentity) (completion : SessionResyncCompletion) :
    Bool :=
  completion.identity ≠ some expected || completion.snapshotId.getD [] = [] ||
    completion.asOfSeq.getD (-1) < 0

/-- The entry in place of one that was not created. -/
def blankResyncEntry : ResyncEntry :=
  { state :=
      { identity := { serverEpoch := [], sessionHandle := [], workspaceId := [], generation := 0 }
        phase := .syncing
        attempt := 1
        cursorless := false }
    timer := none
    task := none
    failures := 0 }

/-- What a callback does when it is called, the last notice saying which. -/
abbrev ResyncCallback := ResyncCoordinator → ResyncCoordinator

/-- Where a callback is called. -/
structure ResyncMoment where
  /-- A `start` or a `rekey` is clearing an entry that it is going to replace. -/
  clearing : Bool
  /-- A `runAttempt` is aborting a task that it is going to replace. -/
  issuing : Bool

/-- What the callbacks of a method do: in its course, while it clears an entry that it replaces, and
while it aborts a task that it replaces. -/
structure ResyncCallbacks where
  ordinary : ResyncCallback
  clearing : ResyncCallback
  issuing : ResyncCallback

namespace ResyncCoordinator

/-- `createSessionResyncCoordinator`. -/
def create : ResyncCoordinator where
  heap := fun _ => blankResyncEntry
  nextEntry := 0
  entries := .empty
  connected := true
  disposed := false
  listening := true
  nextTaskToken := 1
  nextTimer := 1
  timers := []
  inFlight := []
  aborted := []
  notices := []

variable (callback : ResyncCallback) (callbacks : ResyncCallbacks) (c : ResyncCoordinator)

/-- The handle an entry is kept under. -/
def handleOf (e : ℕ) : SessionHandle := (c.heap e).state.identity.sessionHandle

/-- An entry is written. -/
def updateEntry (e : ℕ) (f : ResyncEntry → ResyncEntry) : ResyncCoordinator :=
  { c with heap := fun n => if n = e then f (c.heap e) else c.heap n }

/-- `publish`. -/
def publish (sessionHandle : SessionHandle) (state : Option SessionResyncState) :
    ResyncCoordinator :=
  if !c.listening then c
  else callback { c with notices := c.notices ++ [.published sessionHandle state] }

/-- The publication of the state of an entry. -/
def publishEntry (e : ℕ) : ResyncCoordinator :=
  publish callback c (c.handleOf e) (some (c.heap e).state)

/-- The signal of the task of an entry is aborted. -/
def dropTask (e : ℕ) : ResyncCoordinator :=
  match (c.heap e).task with
  | some token =>
    { c.updateEntry e (fun entry => { entry with task := none }) with
      aborted := c.aborted ++ [token] }
  | none => c

/-- `abortTask`: the listeners of the signal are called at once. -/
def abortTask (e : ℕ) : ResyncCoordinator :=
  match (c.heap e).task with
  | some token =>
    callback { c.dropTask e with notices := c.notices ++ [.aborted token] }
  | none => c

/-- `clearTimer`. -/
def clearTimer (e : ℕ) : ResyncCoordinator :=
  match (c.heap e).timer with
  | some timer =>
    { c.updateEntry e (fun entry => { entry with timer := none }) with
      timers := c.timers.filter (·.1 ≠ timer) }
  | none => c

/-- `clearTimer` and `abortTask` of an entry. -/
def haltEntry (e : ℕ) : ResyncCoordinator := (c.clearTimer e).abortTask callback e

/-- `clearEntry` without the publication. -/
def clearEntry (sessionHandle : SessionHandle) : ResyncCoordinator :=
  match c.entries.get? sessionHandle with
  | some e => { c with entries := c.entries.erase sessionHandle }.haltEntry callback e
  | none => c

/-- `clearEntry` with the publication. -/
def clearEntryPublishing (sessionHandle : SessionHandle) : ResyncCoordinator :=
  match c.entries.get? sessionHandle with
  | some _ => publish callback (c.clearEntry callback sessionHandle) sessionHandle none
  | none => c

/-- `isEntryCurrent`. -/
def isEntryCurrent (e : ℕ) : Bool := c.entries.get? (c.handleOf e) = some e

/-- `isCurrent`. -/
def isCurrent (e token : ℕ) : Bool := c.isEntryCurrent e && (c.heap e).task = some token

/-- `scheduleRetry`. -/
def scheduleRetry (e : ℕ) : ResyncCoordinator :=
  if !c.connected || c.disposed || !c.isEntryCurrent e || (c.heap e).state.phase ≠ .retryWait then c
  else
    let cleared := c.clearTimer e
    { cleared.updateEntry e (fun entry => { entry with timer := some c.nextTimer }) with
      timers := cleared.timers ++ [(c.nextTimer, e)]
      nextTimer := c.nextTimer + 1 }

/-- `failAttempt`. -/
def failAttempt (e token attempt : ℕ) : ResyncCoordinator :=
  if !c.isCurrent e token then c
  else
    let failed := c.updateEntry e fun entry =>
      { entry with
        task := none
        failures := entry.failures + 1
        state := { entry.state with
          phase := if attempt ≥ sessionResyncMaxAttempts then .degraded else .retryWait } }
    let published := failed.publishEntry callback e
    if attempt ≥ sessionResyncMaxAttempts then published
    else if published.isEntryCurrent e then published.scheduleRetry e else published

/-- A new task of an entry, whose attempt is to be made. -/
def issueTask (e attempt : ℕ) : ResyncCoordinator :=
  { c.updateEntry e (fun entry =>
      { entry with
        task := some c.nextTaskToken
        state := { entry.state with phase := .syncing, attempt := attempt } }) with
    nextTaskToken := c.nextTaskToken + 1 }

/-- The end of `runAttempt`: the attempt is made with the state of the entry as it is then. -/
def launch (e token attempt : ℕ) : ResyncCoordinator :=
  let made : SessionResyncAttempt :=
    { entry := e, token := token, identity := (c.heap e).state.identity, attempt := attempt,
      cursorless := (c.heap e).state.cursorless, failures := (c.heap e).failures }
  callback { c with
    inFlight := c.inFlight ++ [made]
    notices := c.notices ++ [.attempted made] }

/-- `runAttempt`. -/
def runAttempt (e attempt : ℕ) : ResyncCoordinator :=
  if !c.connected || c.disposed || !c.isEntryCurrent e then c
  else
    let halted := c.haltEntry callbacks.issuing e
    let published := (halted.issueTask e attempt).publishEntry callbacks.ordinary e
    if !published.isCurrent e halted.nextTaskToken || !published.connected ||
        published.disposed then
      published
    else published.launch callbacks.ordinary e halted.nextTaskToken attempt

/-- The new entry of `createEntry`. -/
def addEntry (identity : SessionRuntimeIdentity) (cursorless : Bool) : ResyncCoordinator :=
  { c with
    heap := fun n =>
      if n = c.nextEntry then
        { state :=
            { identity := identity, phase := .syncing, attempt := 1, cursorless := cursorless }
          timer := none
          task := none
          failures := 0 }
      else c.heap n
    nextEntry := c.nextEntry + 1
    entries := c.entries.insert identity.sessionHandle c.nextEntry }

/-- `createEntry`. -/
def createEntry (identity : SessionRuntimeIdentity) (cursorless : Bool) : ResyncCoordinator :=
  ((c.addEntry identity cursorless).publishEntry callbacks.ordinary c.nextEntry).runAttempt
    callbacks c.nextEntry 1

/-- `start`, for options that ask for a cursorless start or do not. -/
def start (identity : SessionRuntimeIdentity) (requestedCursorless : Bool) : ResyncCoordinator :=
  if c.disposed then c
  else
    match c.entries.get? identity.sessionHandle with
    | some e =>
      if (c.heap e).state.identity = identity &&
          (!requestedCursorless || (c.heap e).state.cursorless) then c
      else
        (c.clearEntry callbacks.clearing identity.sessionHandle).createEntry callbacks identity
          true
    | none => c.createEntry callbacks identity requestedCursorless

/-- The state of an entry that is retried by hand. -/
def restart (e : ℕ) : ResyncCoordinator :=
  (c.haltEntry callback e).updateEntry e fun entry =>
    { entry with
      failures := 0
      state := { entry.state with phase := .syncing, attempt := 1, cursorless := true } }

/-- `manualRetry`. -/
def manualRetry (sessionHandle : SessionHandle) : ResyncCoordinator :=
  if c.disposed then c
  else
    match c.entries.get? sessionHandle with
    | some e =>
      if (c.heap e).state.phase ≠ .degraded then c
      else
        ((c.restart callbacks.ordinary e).publishEntry callbacks.ordinary e).runAttempt callbacks e
          1
    | none => c

/-- `disconnect`. The entries a loop comes by are those of the map while it runs: a callback may
add and remove some, so they are given. -/
def disconnect (visited : List ℕ) : ResyncCoordinator :=
  if !c.connected || c.disposed then c
  else
    visited.foldl (fun current e =>
      if current.isEntryCurrent e then current.haltEntry callback e else current)
        { c with connected := false }

/-- The body of the loop of `reconnect`. -/
def resume (e : ℕ) : ResyncCoordinator :=
  if !c.isEntryCurrent e then c
  else
    match (c.heap e).state.phase with
    | .degraded => c
    | .retryWait => c.scheduleRetry e
    | .syncing => c.runAttempt callbacks e (c.heap e).state.attempt

/-- `reconnect`. -/
def reconnect (visited : List ℕ) : ResyncCoordinator :=
  if c.connected || c.disposed then c
  else visited.foldl (resume callbacks) { c with connected := true }

/-- `rekey`. -/
def rekey (previousSessionHandle : SessionHandle) (identity : SessionRuntimeIdentity) :
    ResyncCoordinator :=
  if c.disposed then c
  else
    let cleared := c.clearEntryPublishing callbacks.clearing previousSessionHandle
    let cleared :=
      if identity.sessionHandle ≠ previousSessionHandle then
        cleared.clearEntryPublishing callbacks.clearing identity.sessionHandle
      else cleared
    cleared.createEntry callbacks identity true

/-- `dispose`. -/
def dispose : ResyncCoordinator :=
  if c.disposed then c
  else
    { c.entries.keys.foldl (clearEntry callback) { c with disposed := true, connected := false }
      with listening := false }

/-- The callback of a retry timer. A cleared timer does not fire. -/
def timerFired (timer : ℕ) : ResyncCoordinator :=
  match c.timers.find? (·.1 = timer) with
  | some (_, e) =>
    let fired := { c.updateEntry e (fun entry => { entry with timer := none }) with
      timers := c.timers.filter (·.1 ≠ timer) }
    if fired.isEntryCurrent e then
      fired.runAttempt callbacks e ((fired.heap e).state.attempt + 1)
    else fired
  | none => c

/-- The promise of an attempt is no longer pending. -/
def settled (token : ℕ) : ResyncCoordinator :=
  { c with inFlight := c.inFlight.filter (·.token ≠ token) }

/-- The recovery of an entry is complete: it is published, and `onRecovered` is called. -/
def recover (e : ℕ) (completion : SessionResyncCompletion) : ResyncCoordinator :=
  let identity := (c.heap e).state.identity
  let finished := { c.updateEntry e (fun entry => { entry with task := none }) with
    entries := c.entries.erase identity.sessionHandle }
  let published := publish callback finished identity.sessionHandle none
  callback { published with notices := published.notices ++ [.recovered e completion] }

/-- The promise of an attempt settles: with a completion, or with an error. -/
def settle (token : ℕ) (completion : Option SessionResyncCompletion) : ResyncCoordinator :=
  match c.inFlight.find? (·.token = token) with
  | some made =>
    match completion with
    | some completion =>
      if !(c.settled token).isCurrent made.entry token then c.settled token
      else if completionInvalid ((c.settled token).heap made.entry).state.identity completion then
        (c.settled token).failAttempt callback made.entry token made.attempt
      else (c.settled token).recover callback made.entry completion
    | none => (c.settled token).failAttempt callback made.entry token made.attempt
  | none => c

/-- The methods of a coordinator. -/
inductive Call where
  | start (identity : SessionRuntimeIdentity) (requestedCursorless : Bool)
  | manualRetry (sessionHandle : SessionHandle)
  | disconnect (visited : List ℕ)
  | reconnect (visited : List ℕ)
  | unsubscribe (sessionHandle : SessionHandle)
  | rekey (previousSessionHandle : SessionHandle) (identity : SessionRuntimeIdentity)
  | dispose

/-- One call of a method. -/
def call : Call → ResyncCoordinator
  | .start identity requestedCursorless => c.start callbacks identity requestedCursorless
  | .manualRetry sessionHandle => c.manualRetry callbacks sessionHandle
  | .disconnect visited => c.disconnect callbacks.ordinary visited
  | .reconnect visited => c.reconnect callbacks visited
  | .unsubscribe sessionHandle => c.clearEntryPublishing callbacks.ordinary sessionHandle
  | .rekey previousSessionHandle identity => c.rekey callbacks previousSessionHandle identity
  | .dispose => c.dispose callbacks.ordinary

/-- What the callbacks do, from the moment they are called at and from all notices so far: the
calls they make. -/
abbrev Reaction := ResyncMoment → List ResyncNotice → List Call

/-- The callbacks of a method that is called at a moment. -/
def callbacksOf (handler : ResyncMoment → ResyncCallback) (moment : ResyncMoment) :
    ResyncCallbacks where
  ordinary := handler moment
  clearing := handler { moment with clearing := true }
  issuing := handler { moment with issuing := true }

/-- The callback that reacts so, where calls nest at most so deep. -/
def callbackAt (react : Reaction) : ℕ → ResyncMoment → ResyncCallback
  | 0, _ => fun c => c
  | depth + 1, moment => fun c =>
    (react moment c.notices).foldl
      (fun current next => current.call (callbacksOf (callbackAt react depth) moment) next) c

/-- What happens to a coordinator: a call, a timer, or an attempt that settles. -/
inductive Event where
  | call (next : Call)
  | timerFired (timer : ℕ)
  | settle (token : ℕ) (completion : Option SessionResyncCompletion)

/-- One event. -/
def step (react : Reaction) (depth : ℕ) (event : Event) : ResyncCoordinator :=
  let callbacks := callbacksOf (callbackAt react depth) { clearing := false, issuing := false }
  match event with
  | .call next => c.call callbacks next
  | .timerFired timer => c.timerFired callbacks timer
  | .settle token completion => c.settle callbacks.ordinary token completion

/-- The coordinator after a run. -/
def run (react : Reaction) (depth : ℕ) (events : List Event) : ResyncCoordinator :=
  runFrom (fun c event => c.step react depth event) create events

end ResyncCoordinator

end PiAgentWeb
