import PiAgentWeb.Protocol.Control
import PiAgentWeb.Library.InsertionMap

/-!
# The Browser's control machine

`reduceSessionControlMachine`: for each Session whether the Browser is subscribed, what it knows of
the lease, and which claim, release or takeover it is waiting for. A lease message of a revision
already known is either a repetition or a conflict, and a conflict clears the local fence.
-/

namespace PiAgentWeb

/-- `SessionLeaseState`: what the Browser knows of a lease. -/
structure SessionLeaseState where
  isController : Bool
  fencingToken : Option FencingToken := none
  leaseRevision : Option ℕ := none
  controlState : Option ControlState := none
  transition : Option LeaseTransitionKind := none
  /-- A contradiction at one revision cleared the local fence until a newer revision arrives. -/
  conflicted : Bool := false
  deriving DecidableEq

/-- A takeover that was sent and not answered. -/
structure TakeoverAttempt where
  identity : SessionRuntimeIdentity
  leaseRevision : ℕ
  deriving DecidableEq

/-- A lease message that waits for the projection baseline. -/
structure PendingLeaseStatus where
  message : SessionLeaseStatus
  expectedBaseline : Bool
  deriving DecidableEq

/-- `identityKey` serializes an identity as a JSON array; the key stands for its elements. -/
structure IdentityKey where
  serverEpoch : JsString
  workspaceId : JsString
  sessionHandle : SessionHandle
  generation : ℕ
  deriving DecidableEq

/-- `SessionControlMachineSessionState`. -/
structure SessionControlMachineSessionState where
  subscribed : Bool
  controllerIntent : Bool
  freshLeaseBaseline : Option SessionRuntimeIdentity
  lease : SessionLeaseState
  claimPending : Bool
  takeoverAttempt : Option TakeoverAttempt
  released : Bool
  /-- `none` is `undefined`, `some none` is `null`. -/
  subscriptionBaseline : Option (Option IdentityKey)
  pendingLeaseStatus : Option PendingLeaseStatus
  deriving DecidableEq

/-- `SessionControlMachineState.sessions`. -/
abbrev SessionControlMachineState := InsertionMap SessionHandle SessionControlMachineSessionState

/-- The part of a `SessionRuntimeDto` that a takeover reads. -/
structure TakeoverRuntime where
  state : SessionRuntimeState
  sessionFile : Option JsString
  deriving DecidableEq

/-- `SessionControlMachineEvent`. -/
inductive SessionControlMachineEvent where
  | hydrate (sessionHandle : SessionHandle) (subscribed controllerIntent : Bool)
      (freshLeaseBaseline : Option SessionRuntimeIdentity) (lease : SessionLeaseState)
  | subscribe (sessionHandle : SessionHandle)
  | unsubscribe (sessionHandle : SessionHandle)
  | remove (sessionHandle : SessionHandle)
  | connectionReset
  | runtimeReset (sessionHandle : SessionHandle)
  | resyncReset (sessionHandle : SessionHandle) (identityChanged : Bool)
  | projectionFailed (sessionHandle : SessionHandle)
  | subscriptionStarted (sessionHandle : SessionHandle) (expectedIdentity : Option IdentityKey)
  | subscriptionSendFailed (sessionHandle : SessionHandle)
  | claimIntent (sessionHandle : SessionHandle)
  | clearIntent (sessionHandle : SessionHandle)
  | claimSettled (sessionHandle : SessionHandle)
  | claimIfReady (sessionHandle : SessionHandle)
    (inactiveRecovery online baselineAuthoritative : Bool)
      (currentIdentity : Option SessionRuntimeIdentity)
  | claimSendFailed (sessionHandle : SessionHandle)
  | release (sessionHandle : SessionHandle) (online : Bool)
  | takeover (sessionHandle : SessionHandle) (online baselineAuthoritative : Bool)
      (currentIdentity : Option SessionRuntimeIdentity) (runtime : Option TakeoverRuntime)
      (resync : Bool)
  | takeoverSendFailed (sessionHandle : SessionHandle)
  | leaseStatus (sessionHandle : SessionHandle) (inactiveRecovery : Bool)
      (message : SessionLeaseStatus) (currentIdentity : Option SessionRuntimeIdentity)
      (baselineAuthoritative expectedBaseline : Bool)
  | baselineCommitted (identity : SessionRuntimeIdentity)
  | subscribeError (sessionHandle : SessionHandle) (preserveSubscribed preserveLease : Bool)
  | claimError (sessionHandle : SessionHandle)
  | takeoverError (sessionHandle : SessionHandle) (currentIdentity : Option SessionRuntimeIdentity)
      (currentLeaseRevision : Option ℕ)
  | rekey (previousSessionHandle sessionHandle : SessionHandle) (identity : SessionRuntimeIdentity)
      (baselineInFlight : Bool)
  deriving DecidableEq

/-- A control message to the server. -/
inductive ControlWireMessage where
  | sessionClaim (sessionHandle : SessionHandle)
  | sessionRelease (sessionHandle : SessionHandle)
  | sessionTakeover (sessionHandle : SessionHandle)
      (expectedGeneration expectedLeaseRevision : ℕ)
  deriving DecidableEq

/-- What a failed send settles. -/
inductive SendFailure where
  | claim | takeover
  deriving DecidableEq

/-- `SessionControlMachineIntent`. -/
inductive SessionControlMachineIntent where
  | send (message : ControlWireMessage) (onFailure : Option SendFailure)
  | emitLeaseStatus (message : SessionLeaseStatus)
  deriving DecidableEq

/-- `SessionControlMachineTransition`. -/
structure SessionControlMachineTransition where
  state : SessionControlMachineState
  intents : List SessionControlMachineIntent := []
  changedSessionHandles : List SessionHandle := []
  accepted : Bool := false
  leaseAccepted : Bool := false
  leaseConflict : Bool := false
  deriving DecidableEq

/-- `emptySession`. -/
def emptySession : SessionControlMachineSessionState where
  subscribed := false
  controllerIntent := false
  freshLeaseBaseline := none
  lease := { isController := false }
  claimPending := false
  takeoverAttempt := none
  released := false
  subscriptionBaseline := none
  pendingLeaseStatus := none

/-- `identityKey`. -/
def identityKey (identity : SessionRuntimeIdentity) : IdentityKey where
  serverEpoch := identity.serverEpoch
  workspaceId := identity.workspaceId
  sessionHandle := identity.sessionHandle
  generation := identity.generation

/-- `identitiesMatch`. -/
def identitiesMatch (left right : Option SessionRuntimeIdentity) : Bool :=
  match left, right with
  | some left, some right => left = right
  | _, _ => false

/-- `leaseStateFrom`. -/
def leaseStateFrom (message : SessionLeaseStatus) : SessionLeaseState where
  isController := message.isController
  fencingToken := message.fencingToken
  leaseRevision := some message.leaseRevision
  controlState := some message.controlState
  transition := some message.transition

/-- `leaseStatusSemanticsMatchState`. -/
def leaseStatusSemanticsMatchState (message : SessionLeaseStatus) (state : SessionLeaseState) :
    Bool :=
  !state.conflicted && state.leaseRevision = some message.leaseRevision &&
    state.controlState = some message.controlState &&
    state.isController = message.isController && state.fencingToken = message.fencingToken

/-- `leaseStatusMatchesState`. -/
def leaseStatusMatchesState (message : SessionLeaseStatus) (state : SessionLeaseState) : Bool :=
  leaseStatusSemanticsMatchState message state && state.transition = some message.transition

/-- `hasFreshBaseline`. -/
def hasFreshBaseline (session : SessionControlMachineSessionState)
    (currentIdentity : Option SessionRuntimeIdentity) : Bool :=
  identitiesMatch session.freshLeaseBaseline currentIdentity

/-- `clearFenceLease`: what stays known of a lease without control. -/
def clearFenceLease (lease : SessionLeaseState) : SessionLeaseState where
  isController := false
  leaseRevision := lease.leaseRevision
  controlState := lease.controlState
  transition := lease.transition

/-- `failClosedLease`. -/
def failClosedLease (message : SessionLeaseStatus) : SessionLeaseState where
  isController := false
  leaseRevision := some message.leaseRevision
  controlState := some message.controlState
  transition := some message.transition
  conflicted := true

/-- `updateSession`: every update makes a new session object, so the handle always counts as
changed. -/
def updateSession (state : SessionControlMachineState) (sessionHandle : SessionHandle)
    (update : SessionControlMachineSessionState → SessionControlMachineSessionState) :
    SessionControlMachineState :=
  state.insert sessionHandle (update ((state.get? sessionHandle).getD emptySession))

/-- An update that is reported without intents. -/
def updated (state : SessionControlMachineState) (sessionHandle : SessionHandle)
    (update : SessionControlMachineSessionState → SessionControlMachineSessionState)
    (accepted : Bool := false) : SessionControlMachineTransition where
  state := updateSession state sessionHandle update
  changedSessionHandles := [sessionHandle]
  accepted := accepted

/-- The lease fails closed on a contradicting message. -/
def conflict (state : SessionControlMachineState) (sessionHandle : SessionHandle)
    (message : SessionLeaseStatus) (dropPending : Bool) : SessionControlMachineTransition where
  state := updateSession state sessionHandle fun current =>
    { current with
      pendingLeaseStatus := if dropPending then none else current.pendingLeaseStatus
      freshLeaseBaseline := none
      claimPending := false
      takeoverAttempt := none
      lease := failClosedLease message }
  changedSessionHandles := [sessionHandle]
  leaseConflict := true

/-- `mergeTransitions`. -/
def mergeTransitions (first second : SessionControlMachineTransition) :
    SessionControlMachineTransition where
  state := second.state
  intents := first.intents ++ second.intents
  changedSessionHandles := (first.changedSessionHandles ++ second.changedSessionHandles).eraseDups
  accepted := first.accepted || second.accepted
  leaseAccepted := first.leaseAccepted || second.leaseAccepted
  leaseConflict := first.leaseConflict || second.leaseConflict

/-- The message is a baseline that was asked for: it is expected by the caller, or a subscription
of any identity or of this one is outstanding. -/
def controlledBaseline (session : SessionControlMachineSessionState)
    (identity : SessionRuntimeIdentity) (message : SessionLeaseStatus) (expectedBaseline : Bool) :
    Bool :=
  expectedBaseline ||
    (message.transition = .baseline &&
      session.subscriptionBaseline.any fun expected =>
        expected.all (· = identityKey identity))

/-- A lease message before the projection baseline: the newest revision waits. -/
def deferLeaseStatus (state : SessionControlMachineState) (sessionHandle : SessionHandle)
    (session : SessionControlMachineSessionState) (message : SessionLeaseStatus)
    (controlled : Bool) : SessionControlMachineTransition :=
  if session.pendingLeaseStatus.all (·.message.leaseRevision < message.leaseRevision) then
    updated state sessionHandle fun current =>
      { current with pendingLeaseStatus := some ⟨message, controlled⟩ }
  else if session.pendingLeaseStatus.any fun pending =>
      message.leaseRevision = pending.message.leaseRevision &&
        !leaseStatusMatchesState message (leaseStateFrom pending.message) then
    conflict state sessionHandle message true
  else { state := state }

/-- A lease message that is taken over. -/
def acceptLeaseStatus (state : SessionControlMachineState) (sessionHandle : SessionHandle)
    (identity : SessionRuntimeIdentity) (message : SessionLeaseStatus)
    (preserveTransitionProvenance : Bool) : SessionControlMachineTransition where
  state := updateSession state sessionHandle fun current =>
    { current with
      freshLeaseBaseline := some identity
      released := if message.isController then current.released else false
      takeoverAttempt := none
      subscriptionBaseline :=
        if current.subscriptionBaseline.any fun expected => expected.all (· = identityKey identity)
        then none else current.subscriptionBaseline
      lease := if preserveTransitionProvenance then current.lease else leaseStateFrom message
      pendingLeaseStatus := none }
  intents := [.emitLeaseStatus message]
  changedSessionHandles := [sessionHandle]
  accepted := true
  leaseAccepted := true

/-- An authoritative lease message against what is known of the lease. -/
def mergeLeaseStatus (state : SessionControlMachineState) (sessionHandle : SessionHandle)
    (session : SessionControlMachineSessionState) (identity : SessionRuntimeIdentity)
    (message : SessionLeaseStatus) (controlled : Bool) : SessionControlMachineTransition :=
  match session.lease.leaseRevision with
  | none => acceptLeaseStatus state sessionHandle identity message false
  | some knownRevision =>
    if message.leaseRevision < knownRevision then { state := state }
    else if message.leaseRevision = knownRevision then
      if leaseStatusMatchesState message session.lease then
        if hasFreshBaseline session (some identity) then { state := state }
        else acceptLeaseStatus state sessionHandle identity message false
      else if controlled && leaseStatusSemanticsMatchState message session.lease then
        acceptLeaseStatus state sessionHandle identity message true
      else conflict state sessionHandle message false
    else acceptLeaseStatus state sessionHandle identity message false

/-- `reduceLeaseStatus`. -/
def reduceLeaseStatus (state : SessionControlMachineState) (sessionHandle : SessionHandle)
    (inactiveRecovery : Bool) (message : SessionLeaseStatus)
    (currentIdentity : Option SessionRuntimeIdentity)
    (baselineAuthoritative expectedBaseline : Bool) : SessionControlMachineTransition :=
  match state.get? sessionHandle, currentIdentity with
  | some session, some identity =>
    if !session.subscribed || identity.serverEpoch ≠ message.serverEpoch ||
        identity.generation ≠ message.generation then
      { state := state }
    else
      let controlled := controlledBaseline session identity message expectedBaseline
      let recoveryControl :=
        inactiveRecovery && (controlled || hasFreshBaseline session currentIdentity)
      if !baselineAuthoritative && !recoveryControl then
        deferLeaseStatus state sessionHandle session message controlled
      else if message.isController && session.released then
        { state := state, intents := [.send (.sessionRelease sessionHandle) none] }
      else
        mergeLeaseStatus state sessionHandle session identity message controlled
  | _, _ => { state := state }

/-- `reduceSessionControlMachine`. -/
def reduceSessionControlMachine (state : SessionControlMachineState) :
    SessionControlMachineEvent → SessionControlMachineTransition
  | .hydrate sessionHandle subscribed controllerIntent freshLeaseBaseline lease =>
    updated state sessionHandle fun session =>
      { session with
        subscribed := subscribed
        controllerIntent := controllerIntent
        freshLeaseBaseline := freshLeaseBaseline
        lease := lease
        claimPending := false
        takeoverAttempt := none
        released := false
        subscriptionBaseline := none
        pendingLeaseStatus := none }
  | .subscribe sessionHandle =>
    updated state sessionHandle
      (fun session => { session with subscribed := true, freshLeaseBaseline := none }) true
  | .unsubscribe sessionHandle => updated state sessionHandle (fun _ => emptySession) true
  | .remove sessionHandle =>
    if (state.get? sessionHandle).isNone then { state := state }
    else
      { state := state.erase sessionHandle
        changedSessionHandles := [sessionHandle]
        accepted := true }
  | .connectionReset =>
    { state := state.mapValues fun session =>
        { session with
          freshLeaseBaseline := none
          lease := { isController := false }
          claimPending := false
          takeoverAttempt := none
          released := false
          subscriptionBaseline := none
          pendingLeaseStatus := none }
      changedSessionHandles := state.entries.map (·.1) }
  | .runtimeReset sessionHandle =>
    updated state sessionHandle fun session =>
      { session with
        freshLeaseBaseline := none
        lease := { isController := false }
        claimPending := false
        takeoverAttempt := none
        subscriptionBaseline := none
        pendingLeaseStatus := none }
  | .resyncReset sessionHandle identityChanged =>
    updated state sessionHandle fun session =>
      if identityChanged then
        { session with
          freshLeaseBaseline := none
          lease := { isController := false }
          claimPending := false
          takeoverAttempt := none
          subscriptionBaseline := none
          pendingLeaseStatus := none }
      else { session with freshLeaseBaseline := none }
  | .projectionFailed sessionHandle =>
    updated state sessionHandle fun session =>
      { session with freshLeaseBaseline := none, subscriptionBaseline := none }
  | .subscriptionStarted sessionHandle expectedIdentity =>
    updated state sessionHandle fun session =>
      { session with freshLeaseBaseline := none, subscriptionBaseline := some expectedIdentity }
  | .subscriptionSendFailed sessionHandle =>
    updated state sessionHandle fun session => { session with subscriptionBaseline := none }
  | .claimIntent sessionHandle =>
    if (state.get? sessionHandle).all fun session =>
        !session.subscribed || session.takeoverAttempt.isSome then
      { state := state }
    else
      updated state sessionHandle
        (fun current => { current with controllerIntent := true, released := false }) true
  | .clearIntent sessionHandle =>
    updated state sessionHandle fun session => { session with controllerIntent := false }
  | .claimSettled sessionHandle =>
    updated state sessionHandle fun session => { session with claimPending := false }
  | .claimIfReady sessionHandle inactiveRecovery online baselineAuthoritative currentIdentity =>
    match state.get? sessionHandle with
    | none => { state := state }
    | some session =>
      if !session.subscribed || !online || !session.controllerIntent ||
          (!baselineAuthoritative && !inactiveRecovery) || currentIdentity.isNone ||
          !hasFreshBaseline session currentIdentity || session.lease.isController ||
          session.claimPending || session.subscriptionBaseline.isSome then
        { state := state }
      else
        { updated state sessionHandle
            (fun current => { current with claimPending := true }) true with
          intents := [.send (.sessionClaim sessionHandle) (some .claim)] }
  | .claimSendFailed sessionHandle =>
    updated state sessionHandle fun session => { session with claimPending := false }
  | .release sessionHandle online =>
    if (state.get? sessionHandle).all fun session => !session.subscribed then { state := state }
    else
      { updated state sessionHandle
          (fun current =>
            { current with
              controllerIntent := false
              freshLeaseBaseline := none
              lease := clearFenceLease current.lease
              claimPending := false
              takeoverAttempt := none
              released := true }) true with
        intents := if online then [.send (.sessionRelease sessionHandle) none] else [] }
  | .takeover sessionHandle online baselineAuthoritative currentIdentity runtime resync =>
    match state.get? sessionHandle, currentIdentity, runtime with
    | some session, some identity, some runtime =>
      match session.lease.leaseRevision with
      | none => { state := state }
      | some leaseRevision =>
        if !session.subscribed || !online || !baselineAuthoritative || runtime.state = .dormant ||
            runtime.sessionFile.isNone || !hasFreshBaseline session currentIdentity || resync ||
            session.lease.conflicted || session.lease.isController ||
            session.lease.controlState ≠ some .held || !isSafeInteger leaseRevision ||
            session.claimPending || session.takeoverAttempt.isSome ||
            session.subscriptionBaseline.isSome then
          { state := state }
        else
          { updated state sessionHandle
              (fun current => { current with takeoverAttempt := some ⟨identity, leaseRevision⟩ })
              true with
            intents :=
              [.send (.sessionTakeover sessionHandle identity.generation leaseRevision)
                (some .takeover)] }
    | _, _, _ => { state := state }
  | .takeoverSendFailed sessionHandle =>
    updated state sessionHandle fun session => { session with takeoverAttempt := none }
  | .leaseStatus sessionHandle inactiveRecovery message currentIdentity baselineAuthoritative
      expectedBaseline =>
    reduceLeaseStatus state sessionHandle inactiveRecovery message currentIdentity
      baselineAuthoritative expectedBaseline
  | .baselineCommitted identity =>
    match (state.get? identity.sessionHandle).bind (·.pendingLeaseStatus) with
    | none => { state := state }
    | some pending =>
      if pending.message.serverEpoch ≠ identity.serverEpoch ||
          pending.message.generation ≠ identity.generation then
        { state := state }
      else
        let cleared := updated state identity.sessionHandle fun current =>
          { current with pendingLeaseStatus := none }
        mergeTransitions cleared
          (reduceLeaseStatus cleared.state identity.sessionHandle false pending.message
            (some identity) true pending.expectedBaseline)
  | .subscribeError sessionHandle preserveSubscribed preserveLease =>
    updated state sessionHandle
      (fun session =>
        let settled :=
          { session with
            claimPending := false
            takeoverAttempt := none
            subscriptionBaseline := none
            pendingLeaseStatus := none }
        if preserveSubscribed then
          if preserveLease then settled
          else { settled with freshLeaseBaseline := none, lease := { isController := false } }
        else
          { settled with
            subscribed := false
            freshLeaseBaseline := none
            lease := { isController := false } }) true
  | .claimError sessionHandle =>
    updated state sessionHandle fun session => { session with claimPending := false }
  | .takeoverError sessionHandle currentIdentity currentLeaseRevision =>
    match state.get? sessionHandle with
    | none => { state := state }
    | some session =>
      let stale := session.takeoverAttempt.all fun attempt =>
        !identitiesMatch currentIdentity (some attempt.identity) ||
          currentLeaseRevision.any (attempt.leaseRevision < ·)
      updated state sessionHandle fun current =>
        if stale then { current with takeoverAttempt := none }
        else
          { current with
            takeoverAttempt := none
            freshLeaseBaseline := none
            lease := clearFenceLease current.lease }
  | .rekey previousSessionHandle sessionHandle identity baselineInFlight =>
    match state.get? previousSessionHandle with
    | none => { state := state }
    | some previous =>
      if !previous.subscribed then { state := state }
      else
        let baseline := if baselineInFlight then some (some (identityKey identity)) else none
        if previousSessionHandle = sessionHandle then
          updated state sessionHandle fun session =>
            { session with
              subscribed := true
              freshLeaseBaseline := none
              lease := { isController := false }
              claimPending := false
              takeoverAttempt := none
              subscriptionBaseline := baseline
              pendingLeaseStatus := none }
        else
          let dormant :=
            { previous with
              subscribed := false
              controllerIntent := false
              freshLeaseBaseline := none
              lease := { isController := false }
              claimPending := false
              takeoverAttempt := none
              released := false
              subscriptionBaseline := none
              pendingLeaseStatus := none }
          let migrated :=
            { previous with
              subscribed := true
              freshLeaseBaseline := none
              lease := { isController := false }
              claimPending := false
              takeoverAttempt := none
              subscriptionBaseline := baseline
              pendingLeaseStatus := none }
          { state := (state.insert previousSessionHandle dormant).insert sessionHandle migrated
            changedSessionHandles := [previousSessionHandle, sessionHandle]
            accepted := true }

end PiAgentWeb
