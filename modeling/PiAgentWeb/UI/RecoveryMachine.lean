import PiAgentWeb.Library.InsertionMap
import PiAgentWeb.Library.Runs
import PiAgentWeb.Protocol.Control
import Mathlib.Algebra.Order.Monoid.Unbundled.WithTop
import Mathlib.Data.List.Sort

/-!
# The recovery machine

The recovery machine of the page buffers the replay frames of the identities that resynchronize,
and queues the hot Sessions whose exact runtime is to be recovered, one at a time. It also keeps
the last hot runtime inventory it accepted.
-/

namespace PiAgentWeb

/-- A replay frame as the machine reads it: its identity, its number, and the value that
`JSON.stringify` sees, which is none where it throws. -/
structure ReplayMessage where
  identity : SessionRuntimeIdentity
  seq : ℕ
  json : Option Json

/-- How the content of a frame is represented. -/
inductive ReplayRepresentation where
  | wire
  | projected
  deriving DecidableEq

/-- `RecoveryReplayFrame`. -/
structure RecoveryReplayFrame where
  message : ReplayMessage
  representation : ReplayRepresentation

/-- `HotRuntimeInventoryEntryDto`; the details are what the machine only passes on. -/
structure HotRuntimeInventoryEntry (D : Type) where
  identity : SessionRuntimeIdentity
  details : D

/-- `ActiveExactHotRecovery`. -/
structure ActiveExactHotRecovery where
  identity : SessionRuntimeIdentity
  baselineReady : Bool
  leaseReady : Bool
  recoveryStarted : Bool
  deriving DecidableEq

/-- The part of an exact recovery that has become ready. -/
inductive ExactHotKind where
  | baseline
  | lease
  deriving DecidableEq

/-- `SessionRecoveryMachineState`. A byte total is infinite once a frame was not serializable. -/
structure SessionRecoveryMachineState (D : Type) where
  resyncBuffers : InsertionMap JsString (List RecoveryReplayFrame)
  resyncBufferBytes : InsertionMap JsString (WithTop ℕ)
  skipNextResubscribe : List JsString
  pendingOverflowRestarts : InsertionMap SessionHandle SessionRuntimeIdentity
  baselineRefreshes : List SessionHandle
  connectionObservations : InsertionMap SessionHandle SessionRuntimeIdentity
  hotRuntimeRevision : ℤ
  hotRuntimeByHandle : InsertionMap SessionHandle (HotRuntimeInventoryEntry D)
  exactHotRecoveryQueue : List SessionHandle
  queuedExactHotRecoveries : List SessionHandle
  activeExactHotRecovery : Option ActiveExactHotRecovery

/-- `SessionRecoveryMachineEvent`. -/
inductive SessionRecoveryMachineEvent (D : Type) where
  | bufferReplay (key : JsString) (frame : RecoveryReplayFrame) (maxFrames maxBytes : ℕ)
  | replaceReplayBuffer (key : JsString) (frames : List RecoveryReplayFrame)
  | clearIdentity (key : JsString)
  | clearSession (sessionHandle : SessionHandle)
  | skipResubscribe (key : JsString)
  | consumeSkipResubscribe (key : JsString)
  | setPendingOverflowRestart (sessionHandle : SessionHandle) (identity : SessionRuntimeIdentity)
  | clearPendingOverflowRestart (sessionHandle : SessionHandle)
  | setBaselineRefresh (sessionHandle : SessionHandle)
  | clearBaselineRefresh (sessionHandle : SessionHandle)
  | setConnectionObservation (sessionHandle : SessionHandle) (identity : SessionRuntimeIdentity)
  | clearConnectionObservation (sessionHandle : SessionHandle)
  | setHotInventory (revision : ℤ) (runtimes : List (HotRuntimeInventoryEntry D))
  | resetHotInventory
  | queueExactHot (sessionHandle : SessionHandle)
  | dequeueExactHot (sessionHandle : SessionHandle)
  | setActiveExactHot (active : Option ActiveExactHotRecovery)
  | advanceExactHot (identity : SessionRuntimeIdentity) (kind : ExactHotKind)
  | cancelExactHot (sessionHandle : SessionHandle)
  | rekey (previousSessionHandle sessionHandle : SessionHandle)
  | resetConnection
  | reset

/-- `SessionRecoveryMachineIntent`. -/
inductive SessionRecoveryMachineIntent (D : Type) where
  | replayBuffered (key : JsString) (frames : List RecoveryReplayFrame)
  | replayOverflow (frame : RecoveryReplayFrame)
  | hotInventoryAccepted (previous : InsertionMap SessionHandle (HotRuntimeInventoryEntry D))
  | exactHotAdvanced (identity : SessionRuntimeIdentity)
  | exactHotCancelled (sessionHandle : SessionHandle)

/-- What became of a frame that was to be buffered. -/
inductive BufferReplayResult where
  | buffered
  | duplicate
  | overflow
  deriving DecidableEq

/-- `SessionRecoveryMachineTransition`. -/
structure SessionRecoveryMachineTransition (D : Type) where
  state : SessionRecoveryMachineState D
  intents : List (SessionRecoveryMachineIntent D)
  accepted : Option Bool := none
  result : Option BufferReplayResult := none

variable {D : Type}

/-- `initialState`. -/
def SessionRecoveryMachineState.initial : SessionRecoveryMachineState D where
  resyncBuffers := .empty
  resyncBufferBytes := .empty
  skipNextResubscribe := []
  pendingOverflowRestarts := .empty
  baselineRefreshes := []
  connectionObservations := .empty
  hotRuntimeRevision := -1
  hotRuntimeByHandle := .empty
  exactHotRecoveryQueue := []
  queuedExactHotRecoveries := []
  activeExactHotRecovery := none

/-- `removeSessionHandle`, and `Set.delete` on a set that is kept as a list. -/
def removeSessionHandle (handles : List JsString) (sessionHandle : JsString) : List JsString :=
  handles.filter (· ≠ sessionHandle)

/-- `Set.add` on a set that is kept as a list. -/
def addToSet (members : List JsString) (member : JsString) : List JsString :=
  if member ∈ members then members else members ++ [member]

/-- `serializedBytes`. -/
def ReplayMessage.serializedBytes (value : ReplayMessage) : WithTop ℕ :=
  match value.json with
  | some json => (json.byteLength : ℕ)
  | none => ⊤

/-- The bytes of all frames of a buffer. -/
def bufferBytes (frames : List RecoveryReplayFrame) : WithTop ℕ :=
  (frames.map fun frame => frame.message.serializedBytes).sum

/-- The left frame does not come after the right one. -/
def seqLe (left right : RecoveryReplayFrame) : Prop := left.message.seq ≤ right.message.seq

instance : DecidableRel seqLe := fun left right =>
  inferInstanceAs (Decidable (left.message.seq ≤ right.message.seq))

instance : IsTrans RecoveryReplayFrame seqLe := ⟨fun _ _ _ => Nat.le_trans⟩

instance : Std.Total seqLe := ⟨fun left right => Nat.le_total left.message.seq right.message.seq⟩

/-- The frames sorted by their numbers; the sort is stable. -/
def sortBySeq (frames : List RecoveryReplayFrame) : List RecoveryReplayFrame :=
  frames.insertionSort seqLe

/-- The frames are of one generation and have one number. -/
def RecoveryReplayFrame.duplicates (frame candidate : RecoveryReplayFrame) : Prop :=
  candidate.message.identity.generation = frame.message.identity.generation ∧
    candidate.message.seq = frame.message.seq

instance (frame candidate : RecoveryReplayFrame) : Decidable (frame.duplicates candidate) :=
  inferInstanceAs (Decidable (_ ∧ _))

namespace SessionRecoveryMachineState

/-- The frames buffered under a key. -/
def buffer (state : SessionRecoveryMachineState D) (key : JsString) : List RecoveryReplayFrame :=
  (state.resyncBuffers.get? key).getD []

/-- The keys whose first buffered frame is of the Session. -/
def keysOfSession (state : SessionRecoveryMachineState D) (sessionHandle : SessionHandle) :
    List JsString :=
  (state.resyncBuffers.entries.filter fun entry =>
    entry.2.head?.map (·.message.identity.sessionHandle) = some sessionHandle).map (·.1)

/-- The active recovery is one of the Session. -/
def isActive (state : SessionRecoveryMachineState D) (sessionHandle : SessionHandle) : Bool :=
  state.activeExactHotRecovery.any (·.identity.sessionHandle = sessionHandle)

/-- The branch of the reducer that clears a Session. -/
def clearSession (state : SessionRecoveryMachineState D) (sessionHandle : SessionHandle) :
    SessionRecoveryMachineState D :=
  let keys := state.keysOfSession sessionHandle
  { state with
    resyncBuffers := state.resyncBuffers.filterKeys (· ∉ keys)
    resyncBufferBytes := state.resyncBufferBytes.filterKeys (· ∉ keys)
    skipNextResubscribe := state.skipNextResubscribe.filter (· ∉ keys)
    pendingOverflowRestarts := state.pendingOverflowRestarts.erase sessionHandle
    baselineRefreshes := removeSessionHandle state.baselineRefreshes sessionHandle
    connectionObservations := state.connectionObservations.erase sessionHandle
    exactHotRecoveryQueue := removeSessionHandle state.exactHotRecoveryQueue sessionHandle
    queuedExactHotRecoveries := removeSessionHandle state.queuedExactHotRecoveries sessionHandle
    activeExactHotRecovery :=
      if state.isActive sessionHandle then none else state.activeExactHotRecovery }

/-- The branch of the reducer that buffers a frame. -/
def bufferReplay (state : SessionRecoveryMachineState D) (key : JsString)
    (frame : RecoveryReplayFrame) (maxFrames maxBytes : ℕ) : SessionRecoveryMachineTransition D :=
  let current := state.buffer key
  if current.any (frame.duplicates ·) then
    { state := state, intents := [], accepted := some false, result := some .duplicate }
  else
    let nextBytes :=
      (state.resyncBufferBytes.get? key).getD 0 + frame.message.serializedBytes
    if current.length ≥ maxFrames ∨ nextBytes > (maxBytes : WithTop ℕ) then
      { state := state, intents := [.replayOverflow frame], accepted := some false,
        result := some .overflow }
    else
      let frames := sortBySeq (current ++ [frame])
      { state :=
          { state with
            resyncBuffers := state.resyncBuffers.insert key frames
            resyncBufferBytes := state.resyncBufferBytes.insert key nextBytes }
        intents := [.replayBuffered key frames]
        accepted := some true
        result := some .buffered }

/-- The branch of the reducer that replaces a buffer. -/
def replaceReplayBuffer (state : SessionRecoveryMachineState D) (key : JsString)
    (frames : List RecoveryReplayFrame) : SessionRecoveryMachineState D :=
  let frames := sortBySeq frames
  if frames.length = 0 then
    { state with
      resyncBuffers := state.resyncBuffers.erase key
      resyncBufferBytes := state.resyncBufferBytes.erase key }
  else
    { state with
      resyncBuffers := state.resyncBuffers.insert key frames
      resyncBufferBytes := state.resyncBufferBytes.insert key (bufferBytes frames) }

/-- The branch of the reducer that advances the active recovery. -/
def advanceExactHot (state : SessionRecoveryMachineState D) (identity : SessionRuntimeIdentity)
    (kind : ExactHotKind) : SessionRecoveryMachineTransition D :=
  match state.activeExactHotRecovery with
  | none => { state := state, intents := [], accepted := some false }
  | some active =>
    if active.identity ≠ identity then { state := state, intents := [], accepted := some false }
    else
      let updated : ActiveExactHotRecovery := match kind with
        | .baseline => { active with baselineReady := true }
        | .lease => { active with leaseReady := true }
      if !updated.baselineReady || !updated.leaseReady then
        { state := { state with activeExactHotRecovery := some updated }, intents := [],
          accepted := some true }
      else
        { state := { state with activeExactHotRecovery := none },
          intents := [.exactHotAdvanced identity], accepted := some true }

end SessionRecoveryMachineState

open SessionRecoveryMachineState in
/-- `reduceSessionRecoveryMachine`. -/
def reduceSessionRecoveryMachine (state : SessionRecoveryMachineState D) :
    SessionRecoveryMachineEvent D → SessionRecoveryMachineTransition D
  | .bufferReplay key frame maxFrames maxBytes => state.bufferReplay key frame maxFrames maxBytes
  | .replaceReplayBuffer key frames =>
    { state := state.replaceReplayBuffer key frames, intents := [] }
  | .clearIdentity key =>
    { state :=
        { state with
          resyncBuffers := state.resyncBuffers.erase key
          resyncBufferBytes := state.resyncBufferBytes.erase key
          skipNextResubscribe := removeSessionHandle state.skipNextResubscribe key }
      intents := [] }
  | .clearSession sessionHandle => { state := state.clearSession sessionHandle, intents := [] }
  | .skipResubscribe key =>
    { state := { state with skipNextResubscribe := addToSet state.skipNextResubscribe key }
      intents := [] }
  | .consumeSkipResubscribe key =>
    { state :=
        { state with skipNextResubscribe := removeSessionHandle state.skipNextResubscribe key }
      intents := []
      accepted := some (key ∈ state.skipNextResubscribe) }
  | .setPendingOverflowRestart sessionHandle identity =>
    { state :=
        { state with
          pendingOverflowRestarts := state.pendingOverflowRestarts.insert sessionHandle identity }
      intents := [] }
  | .clearPendingOverflowRestart sessionHandle =>
    { state :=
        { state with
          pendingOverflowRestarts := state.pendingOverflowRestarts.erase sessionHandle }
      intents := [] }
  | .setBaselineRefresh sessionHandle =>
    { state := { state with baselineRefreshes := addToSet state.baselineRefreshes sessionHandle }
      intents := [] }
  | .clearBaselineRefresh sessionHandle =>
    { state :=
        { state with
          baselineRefreshes := removeSessionHandle state.baselineRefreshes sessionHandle }
      intents := [] }
  | .setConnectionObservation sessionHandle identity =>
    { state :=
        { state with
          connectionObservations := state.connectionObservations.insert sessionHandle identity }
      intents := [] }
  | .clearConnectionObservation sessionHandle =>
    { state :=
        { state with connectionObservations := state.connectionObservations.erase sessionHandle }
      intents := [] }
  | .setHotInventory revision runtimes =>
    if revision ≤ state.hotRuntimeRevision then
      { state := state, intents := [], accepted := some false }
    else
      { state :=
          { state with
            hotRuntimeRevision := revision
            hotRuntimeByHandle := runtimes.foldl
              (fun handles runtime => handles.insert runtime.identity.sessionHandle runtime)
              .empty }
        intents := [.hotInventoryAccepted state.hotRuntimeByHandle]
        accepted := some true }
  | .resetHotInventory =>
    { state := { state with hotRuntimeRevision := -1, hotRuntimeByHandle := .empty }
      intents := [] }
  | .queueExactHot sessionHandle =>
    if sessionHandle ∈ state.queuedExactHotRecoveries then
      { state := state, intents := [], accepted := some false }
    else
      { state :=
          { state with
            queuedExactHotRecoveries := addToSet state.queuedExactHotRecoveries sessionHandle
            exactHotRecoveryQueue := state.exactHotRecoveryQueue ++ [sessionHandle] }
        intents := []
        accepted := some true }
  | .dequeueExactHot sessionHandle =>
    { state :=
        { state with
          queuedExactHotRecoveries :=
            removeSessionHandle state.queuedExactHotRecoveries sessionHandle
          exactHotRecoveryQueue := removeSessionHandle state.exactHotRecoveryQueue sessionHandle }
      intents := [] }
  | .setActiveExactHot active =>
    { state := { state with activeExactHotRecovery := active }, intents := [] }
  | .advanceExactHot identity kind => state.advanceExactHot identity kind
  | .cancelExactHot sessionHandle =>
    let wasActive := state.isActive sessionHandle
    let accepted := wasActive || sessionHandle ∈ state.queuedExactHotRecoveries
    { state :=
        { state with
          exactHotRecoveryQueue := removeSessionHandle state.exactHotRecoveryQueue sessionHandle
          queuedExactHotRecoveries :=
            removeSessionHandle state.queuedExactHotRecoveries sessionHandle
          activeExactHotRecovery := if wasActive then none else state.activeExactHotRecovery }
      intents := if accepted then [.exactHotCancelled sessionHandle] else []
      accepted := some accepted }
  | .rekey previousSessionHandle sessionHandle =>
    { state := (state.clearSession previousSessionHandle).clearSession sessionHandle
      intents := [] }
  | .resetConnection =>
    { state :=
        { state with
          pendingOverflowRestarts := .empty
          baselineRefreshes := []
          connectionObservations := .empty
          hotRuntimeRevision := -1
          hotRuntimeByHandle := .empty
          exactHotRecoveryQueue := []
          queuedExactHotRecoveries := []
          activeExactHotRecovery := none }
      intents := [] }
  | .reset => { state := .initial, intents := [] }

end PiAgentWeb
