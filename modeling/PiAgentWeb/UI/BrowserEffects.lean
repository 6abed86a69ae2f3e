import PiAgentWeb.Library.InsertionMap
import PiAgentWeb.Library.Runs

/-!
# Directory refreshes of the Browser effects

The effects coordinator reads the Workspace and Session directories for `directory_refresh`
intents. A key is journaled while its pair is scheduled or reading, one trailing intent is kept
per reading key, and one slot holds the newest intent the concurrency limit did not admit.
Releasing a slot dispatches again, so the functions of the source call each other; here each of
them is given the dispatch it may call, and the recursion is tied at a fixed depth.

A read that was started stays outstanding until its promise settles; the delay timers and the
holds are the entries of their maps. The coordinator also writes a log, newest event first.
-/

namespace PiAgentWeb

/-- The journal is deliberately finite. -/
def SESSION_BROWSER_EFFECT_JOURNAL_LIMIT : Nat := 256

/-- Concurrent directory pairs. -/
def SESSION_BROWSER_DIRECTORY_REFRESH_CONCURRENCY_LIMIT : Nat := 8

/-- The exact Session identity of an effect. -/
structure SessionBrowserIdentity where
  serverEpoch : String
  workspaceId : String
  sessionHandle : String
  generation : Nat
  deriving DecidableEq, Repr

/-- The Workspace of an effect. -/
structure WorkspaceBrowserIdentity where
  workspaceId : String
  deriving DecidableEq, Repr

/-- `effectScopeKey`: the JSON text of the scope is unambiguous. -/
inductive EffectScope where
  | session (identity : SessionBrowserIdentity)
  | workspace (identity : WorkspaceBrowserIdentity)
  deriving DecidableEq, Repr

/-- `effectKey`: the scope's text, a colon and the deduplication key. -/
structure EffectKey where
  scope : EffectScope
  dedupeKey : String
  deriving DecidableEq, Repr

/-- A `directory_refresh` effect. Its `time` is the number of the dispatch call that brought it,
and `settlesAtOnce` says that its reader returns no promise or throws. -/
structure DirectoryRefresh where
  scope : EffectScope
  dedupeKey : String
  /-- The group of the dedupe mode `latest`, if that is its mode. -/
  dedupeGroup : Option String
  workspaceHandle : String
  force : Bool
  delayMs : Option Nat
  settlesAtOnce : Bool
  time : Nat
  deriving DecidableEq, Repr

/-- `effectKey`. -/
def DirectoryRefresh.key (effect : DirectoryRefresh) : EffectKey :=
  { scope := effect.scope, dedupeKey := effect.dedupeKey }

/-- `latestEffectGroupKey`. -/
def DirectoryRefresh.groupKey (effect : DirectoryRefresh) : Option (EffectScope × String) :=
  effect.dedupeGroup.map fun group => (effect.scope, group)

/-- What the coordinator did, as far as an intent is concerned. -/
inductive EffectEvent where
  /-- A dispatch call began; it answers `true` unless it is declined. -/
  | dispatched (effect : DirectoryRefresh)
  /-- The dispatch call answered `false`. -/
  | declined (effect : DirectoryRefresh)
  /-- The reads of the pair of this key started. -/
  | readStarted (key : EffectKey)
  /-- The key was evicted from the journal, or replaced in its group. -/
  | evicted (key : EffectKey)
  /-- An intent took the overflow slot of another. -/
  | displaced (old new : DirectoryRefresh)
  /-- The call that supersedes or invalidates the scope began. -/
  | superseded (scope : EffectScope)
  /-- The scope was made current. -/
  | current (scope : EffectScope)
  deriving DecidableEq, Repr

/-- The state of the coordinator with the reads and timers it waits for. -/
structure BrowserEffects where
  currentByHandle : InsertionMap String SessionBrowserIdentity
  currentByWorkspace : InsertionMap String WorkspaceBrowserIdentity
  journal : InsertionMap EffectKey Nat
  latestKeyByGroup : InsertionMap (EffectScope × String) EffectKey
  /-- The delay timers with the token and the effect of their callbacks. -/
  timers : InsertionMap EffectKey (Nat × DirectoryRefresh)
  trailingDirectoryRefresh : InsertionMap EffectKey DirectoryRefresh
  directoryRefreshHoldTimers : InsertionMap EffectKey Nat
  overflowDirectoryRefresh : Option DirectoryRefresh
  directoryRefreshActive : InsertionMap EffectKey Nat
  nextToken : Nat
  /-- The pairs whose promise has not settled. -/
  reads : List (EffectKey × Nat)
  /-- The dispatch calls so far. -/
  dispatches : Nat
  log : List EffectEvent
  /-- A loop or a recursion was cut off by its bound. -/
  overrun : Bool
  deriving DecidableEq

namespace BrowserEffects

/-- `createSessionBrowserEffects`. -/
def initial : BrowserEffects where
  currentByHandle := .empty
  currentByWorkspace := .empty
  journal := .empty
  latestKeyByGroup := .empty
  timers := .empty
  trailingDirectoryRefresh := .empty
  directoryRefreshHoldTimers := .empty
  overflowDirectoryRefresh := none
  directoryRefreshActive := .empty
  nextToken := 0
  reads := []
  dispatches := 0
  log := []
  overrun := false

/-- An event goes to the front of the log. -/
def record (s : BrowserEffects) (event : EffectEvent) : BrowserEffects :=
  { s with log := event :: s.log }

/-- `isSessionEffectCurrent` and `isWorkspaceEffectCurrent`. -/
def isCurrent (s : BrowserEffects) (scope : EffectScope) : Bool :=
  match scope with
  | .session identity => decide (s.currentByHandle.get? identity.sessionHandle = some identity)
  | .workspace identity =>
    decide (s.currentByWorkspace.get? identity.workspaceId = some identity)

/-- `isActive`. -/
def isActive (s : BrowserEffects) (effect : DirectoryRefresh) (key : EffectKey) (token : Nat) :
    Bool :=
  decide (s.journal.get? key = some token) && s.isCurrent effect.scope

/-- `removeJournalEntry`. -/
def removeJournalEntry (s : BrowserEffects) (key : EffectKey) (token : Option Nat) :
    BrowserEffects :=
  if token ≠ none ∧ s.journal.get? key ≠ token then s
  else
    { s with
      directoryRefreshHoldTimers := s.directoryRefreshHoldTimers.erase key
      journal := s.journal.erase key
      latestKeyByGroup := s.latestKeyByGroup.filterValues fun latestKey => latestKey != key }

/-- `freeDirectoryRefreshSlot`. -/
def freeDirectoryRefreshSlot (s : BrowserEffects) (key : EffectKey) : BrowserEffects :=
  { s with directoryRefreshActive := s.directoryRefreshActive.erase key }

/-- `holdOverflowDirectoryRefresh`, which a dispatch at the limit does too. -/
def holdOverflowDirectoryRefresh (s : BrowserEffects) (effect : DirectoryRefresh) :
    BrowserEffects :=
  match s.overflowDirectoryRefresh with
  | none => { s with overflowDirectoryRefresh := some effect }
  | some old => { s.record (.displaced old effect) with overflowDirectoryRefresh := some effect }

/-- The concurrency limit is reached. -/
def atLimit (s : BrowserEffects) : Bool :=
  decide (SESSION_BROWSER_DIRECTORY_REFRESH_CONCURRENCY_LIMIT ≤ s.directoryRefreshActive.size)

section Reentry

-- the dispatch that the functions below call again
variable (redispatch : BrowserEffects → DirectoryRefresh → BrowserEffects)

/-- `settleDirectoryRefresh`. -/
def settleDirectoryRefresh (s : BrowserEffects) (key : EffectKey) (token : Nat) :
    BrowserEffects :=
  if s.journal.get? key ≠ some token then s
  else
    let settled := ({ s with
      trailingDirectoryRefresh := s.trailingDirectoryRefresh.erase key }).removeJournalEntry key
        (some token)
    match s.trailingDirectoryRefresh.get? key with
    | none => settled
    | some pending => redispatch settled pending

/-- `admitOverflowDirectoryRefresh`. -/
def admitOverflowDirectoryRefresh (s : BrowserEffects) : BrowserEffects :=
  match s.overflowDirectoryRefresh with
  | none => s
  | some overflow =>
    if s.atLimit then s else redispatch { s with overflowDirectoryRefresh := none } overflow

/-- `releaseDirectoryRefreshSlot`. -/
def releaseDirectoryRefreshSlot (s : BrowserEffects) (key : EffectKey) : BrowserEffects :=
  admitOverflowDirectoryRefresh redispatch (s.freeDirectoryRefreshSlot key)

/-- `concludeDirectoryRefresh`. -/
def concludeDirectoryRefresh (s : BrowserEffects) (key : EffectKey) (token : Nat) :
    BrowserEffects :=
  if s.directoryRefreshActive.get? key ≠ some token then s
  else
    admitOverflowDirectoryRefresh redispatch
      (settleDirectoryRefresh redispatch (s.freeDirectoryRefreshSlot key) key token)

/-- `runDirectoryRefresh`. -/
def runDirectoryRefresh (s : BrowserEffects) (effect : DirectoryRefresh) (key : EffectKey)
    (token : Nat) : BrowserEffects :=
  if s.isActive effect key token = false then settleDirectoryRefresh redispatch s key token
  else if s.atLimit then
    settleDirectoryRefresh redispatch (s.holdOverflowDirectoryRefresh effect) key token
  else
    let reading := { s.record (.readStarted key) with
      directoryRefreshActive := s.directoryRefreshActive.insert key token
      directoryRefreshHoldTimers := s.directoryRefreshHoldTimers.insert key token }
    if effect.settlesAtOnce then concludeDirectoryRefresh redispatch reading key token
    else { reading with reads := reading.reads ++ [(key, token)] }

/-- `cancelJournalEntry`, which is never called with a token. -/
def cancelJournalEntry (s : BrowserEffects) (key : EffectKey) : BrowserEffects :=
  (releaseDirectoryRefreshSlot redispatch { s with
    timers := s.timers.erase key
    trailingDirectoryRefresh := s.trailingDirectoryRefresh.erase key } key).removeJournalEntry
      key none

/-- The oldest key that is neither reading nor the one just inserted. -/
def oldestEvictable (s : BrowserEffects) (key : EffectKey) : Option EffectKey :=
  s.journal.keys.find? fun candidate =>
    candidate != key && (s.directoryRefreshActive.get? candidate).isNone

/-- The eviction loop of `dispatch`. -/
def evictOldest (key : EffectKey) : Nat → BrowserEffects → BrowserEffects
  | 0, s =>
    if SESSION_BROWSER_EFFECT_JOURNAL_LIMIT < s.journal.size then { s with overrun := true } else s
  | rounds + 1, s =>
    if s.journal.size ≤ SESSION_BROWSER_EFFECT_JOURNAL_LIMIT then s
    else
      match s.oldestEvictable key with
      | none => s
      | some oldest =>
        evictOldest key rounds (cancelJournalEntry redispatch (s.record (.evicted oldest)) oldest)

/-- The previous key of the effect's group is cancelled. -/
def replaceInGroup (s : BrowserEffects) (effect : DirectoryRefresh) : BrowserEffects :=
  match effect.groupKey.bind s.latestKeyByGroup.get? with
  | none => s
  | some previousKey =>
    cancelJournalEntry redispatch (s.record (.evicted previousKey)) previousKey

/-- The key is journaled under a new token. -/
def journalKey (s : BrowserEffects) (effect : DirectoryRefresh) : BrowserEffects :=
  { s with
    nextToken := s.nextToken + 1
    journal := s.journal.insert effect.key (s.nextToken + 1)
    latestKeyByGroup :=
      match effect.groupKey with
      | none => s.latestKeyByGroup
      | some groupKey => s.latestKeyByGroup.insert groupKey effect.key }

/-- The part of `dispatch` after admission: the key is journaled, old keys are evicted, and the
pair is scheduled or run. -/
def admitted (s : BrowserEffects) (effect : DirectoryRefresh) : BrowserEffects :=
  let token := s.nextToken + 1
  let inserted := s.journalKey effect
  let kept := evictOldest redispatch effect.key inserted.journal.size inserted
  if kept.isActive effect effect.key token = false then kept
  else
    match effect.delayMs with
    | some _ => { kept with timers := kept.timers.insert effect.key (token, effect) }
    | none => runDirectoryRefresh redispatch kept effect effect.key token

/-- `dispatch` of a `directory_refresh`, with its answer. -/
def dispatchWith (s : BrowserEffects) (effect : DirectoryRefresh) : BrowserEffects × Bool :=
  if s.isCurrent effect.scope = false then (s, false)
  else if (s.journal.get? effect.key).isSome then
    if (s.timers.get? effect.key).isSome then (s, false)
    else
      ({ s with
        trailingDirectoryRefresh := s.trailingDirectoryRefresh.insert effect.key effect }, true)
  else if (s.directoryRefreshActive.get? effect.key).isNone && s.atLimit then
    (s.holdOverflowDirectoryRefresh effect, true)
  else (admitted redispatch (replaceInGroup redispatch s effect) effect, true)

/-- `clearIdentityState` and `clearWorkspaceState`: they differ in the prefix only. -/
def clearScopeState (s : BrowserEffects) (scope : EffectScope) : BrowserEffects :=
  let untrailed := { s with
    trailingDirectoryRefresh := s.trailingDirectoryRefresh.filterKeys fun key =>
      key.scope != scope }
  let cancelled := (untrailed.journal.keys.filter fun key => key.scope == scope).foldl
    (cancelJournalEntry redispatch) untrailed
  let cleared := (cancelled.timers.entries.filter fun entry => entry.1.scope == scope).foldl
    (fun s entry => ({ s with timers := s.timers.erase entry.1 }).removeJournalEntry entry.1
      (some entry.2.1)) cancelled
  { cleared with
    directoryRefreshHoldTimers := cleared.directoryRefreshHoldTimers.filterKeys fun key =>
      key.scope != scope }

end Reentry

/-- `dispatch`, with the depth of the dispatches it may call again. -/
def dispatchAt : Nat → BrowserEffects → DirectoryRefresh → BrowserEffects × Bool
  | 0, s, _ => ({ s with overrun := true }, false)
  | depth + 1, s, effect => dispatchWith (fun s effect => (dispatchAt depth s effect).1) s effect

/-- The depth at which a dispatch has called every dispatch it can call. -/
def reentryDepth : Nat := 2

/-- The dispatch called by the coordinator itself. -/
def redispatch (s : BrowserEffects) (effect : DirectoryRefresh) : BrowserEffects :=
  (dispatchAt reentryDepth s effect).1

/-- `clearIdentityState`. -/
def clearIdentityState (s : BrowserEffects) (identity : SessionBrowserIdentity) :
    BrowserEffects :=
  clearScopeState redispatch s (.session identity)

/-- `clearWorkspaceState`. -/
def clearWorkspaceState (s : BrowserEffects) (identity : WorkspaceBrowserIdentity) :
    BrowserEffects :=
  clearScopeState redispatch s (.workspace identity)

/-- `dispatch` as the caller sees it: the call is numbered and its answer logged. -/
def dispatch (s : BrowserEffects) (effect : DirectoryRefresh) : BrowserEffects :=
  let stamped := { effect with time := s.dispatches + 1 }
  let called := { s.record (.dispatched stamped) with dispatches := s.dispatches + 1 }
  let answer := dispatchAt reentryDepth called stamped
  if answer.2 then answer.1 else answer.1.record (.declined stamped)

/-- A generation of one Session incarnation that is older than the current one. -/
def isOlder (next previous : SessionBrowserIdentity) : Bool :=
  decide (previous.serverEpoch = next.serverEpoch) &&
    decide (previous.workspaceId = next.workspaceId) &&
    decide (next.generation < previous.generation)

/-- The current identity of the handle that the next one replaces. -/
def supersededBy (s : BrowserEffects) (next : SessionBrowserIdentity) :
    Option SessionBrowserIdentity :=
  (s.currentByHandle.get? next.sessionHandle).filter fun previous => previous != next

/-- `setCurrentIdentity`. -/
def setCurrentIdentity (s : BrowserEffects) (next : SessionBrowserIdentity) : BrowserEffects :=
  if (s.currentByHandle.get? next.sessionHandle).any (isOlder next) then s
  else
    let left := match s.supersededBy next with
      | none => s
      | some previous => (s.record (.superseded (.session previous))).clearIdentityState previous
    { left.record (.current (.session next)) with
      currentByHandle := left.currentByHandle.insert next.sessionHandle next }

/-- `invalidateIdentity`. -/
def invalidateIdentity (s : BrowserEffects) (identity : SessionBrowserIdentity) :
    BrowserEffects :=
  let left := s.record (.superseded (.session identity))
  (if left.currentByHandle.get? identity.sessionHandle = some identity then
    { left with currentByHandle := left.currentByHandle.erase identity.sessionHandle }
  else left).clearIdentityState identity

/-- `setCurrentWorkspaceIdentity`: the identity of a Workspace is its key. -/
def setCurrentWorkspaceIdentity (s : BrowserEffects) (next : WorkspaceBrowserIdentity) :
    BrowserEffects :=
  let left := match s.currentByWorkspace.get? next.workspaceId with
    | none => s
    | some previous =>
      if previous.workspaceId ≠ next.workspaceId then
        (s.record (.superseded (.workspace previous))).clearWorkspaceState previous
      else s
  { left.record (.current (.workspace next)) with
    currentByWorkspace := left.currentByWorkspace.insert next.workspaceId next }

/-- `invalidateWorkspaceIdentity`. -/
def invalidateWorkspaceIdentity (s : BrowserEffects) (identity : WorkspaceBrowserIdentity) :
    BrowserEffects :=
  ({ s.record (.superseded (.workspace identity)) with
    currentByWorkspace := s.currentByWorkspace.erase identity.workspaceId }).clearWorkspaceState
      identity

/-- A delay timer fires. -/
def fireTimer (s : BrowserEffects) (key : EffectKey) : BrowserEffects :=
  match s.timers.get? key with
  | none => s
  | some (token, effect) =>
    runDirectoryRefresh redispatch { s with timers := s.timers.erase key } effect key token

/-- A read settles or fails. -/
def settleRead (s : BrowserEffects) (key : EffectKey) (token : Nat) : BrowserEffects :=
  if (key, token) ∈ s.reads then
    concludeDirectoryRefresh redispatch { s with reads := s.reads.erase (key, token) } key token
  else s

/-- A hold expires. -/
def expireHold (s : BrowserEffects) (key : EffectKey) : BrowserEffects :=
  match s.directoryRefreshHoldTimers.get? key with
  | none => s
  | some token =>
    concludeDirectoryRefresh redispatch
      { s with directoryRefreshHoldTimers := s.directoryRefreshHoldTimers.erase key } key token

end BrowserEffects

/-- What happens to the coordinator. -/
inductive EffectsAction where
  | dispatch (effect : DirectoryRefresh)
  | fireTimer (key : EffectKey)
  | settleRead (key : EffectKey) (token : Nat)
  | expireHold (key : EffectKey)
  | setCurrentIdentity (identity : SessionBrowserIdentity)
  | invalidateIdentity (identity : SessionBrowserIdentity)
  | setCurrentWorkspaceIdentity (identity : WorkspaceBrowserIdentity)
  | invalidateWorkspaceIdentity (identity : WorkspaceBrowserIdentity)
  deriving DecidableEq, Repr

namespace BrowserEffects

/-- One step of the coordinator. -/
def step (s : BrowserEffects) : EffectsAction → BrowserEffects
  | .dispatch effect => s.dispatch effect
  | .fireTimer key => s.fireTimer key
  | .settleRead key token => s.settleRead key token
  | .expireHold key => s.expireHold key
  | .setCurrentIdentity identity => s.setCurrentIdentity identity
  | .invalidateIdentity identity => s.invalidateIdentity identity
  | .setCurrentWorkspaceIdentity identity => s.setCurrentWorkspaceIdentity identity
  | .invalidateWorkspaceIdentity identity => s.invalidateWorkspaceIdentity identity

end BrowserEffects

end PiAgentWeb
