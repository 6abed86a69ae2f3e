import PiAgentWeb.Library.InsertionMap
import PiAgentWeb.Library.Runs
import PiAgentWeb.Protocol.Control
import PiAgentWeb.Protocol.SessionEvents

/-!
# The Extension machine

The Extension machine of the page keeps, for each Session, the requests its Extensions have pending,
the requests that were answered during a resync, and the notifications that were shown. Pending
requests replace each other by their meaning and by their id; the Sessions with remembered
notifications are kept in the order in which they were last notified.
-/

namespace PiAgentWeb

/-- `MAX_PENDING_EXTENSION_REQUESTS`. -/
def maxPendingExtensionRequests : ℕ := 256

/-- `MAX_DELIVERED_NOTIFY_KEYS`. -/
def maxDeliveredNotifyKeys : ℕ := 256

/-- `MAX_DELIVERED_NOTIFY_IDENTITIES`. -/
def maxDeliveredNotifyIdentities : ℕ := 64

/-- `ExtensionReplayFrame`. -/
inductive ExtensionReplayFrame (J T : Type) where
  | request (seq : ℕ) (request : ExtensionUiRequest J T)
  | closed (seq : ℕ) (requestId : JsString)

/-- `SessionExtensionMachineSessionState`. -/
structure SessionExtensionMachineSessionState (J T : Type) where
  identity : Option SessionRuntimeIdentity
  pending : List (ExtensionUiRequest J T)
  acknowledgedRequestIds : List JsString
  deliveredNotifyKeys : List JsString

/-- `SessionExtensionMachineState`. -/
structure SessionExtensionMachineState (J T : Type) where
  sessions : InsertionMap SessionHandle (SessionExtensionMachineSessionState J T)
  deliveredNotifyIdentityOrder : List SessionHandle

/-- `SessionExtensionMachineEvent`. A missing `notifyDelivered` counts as true, and the two events
that replace the requests are one. -/
inductive SessionExtensionMachineEvent (J T : Type) where
  | hydrate (identity : SessionRuntimeIdentity) (pending : List (ExtensionUiRequest J T))
  | replay (identity : SessionRuntimeIdentity) (frame : ExtensionReplayFrame J T)
      (notifyDelivered : Bool)
  | replaceSnapshot (identity : SessionRuntimeIdentity) (requests : List (ExtensionUiRequest J T))
  | result (identity : SessionRuntimeIdentity) (requestId : JsString) (resyncing : Bool)
  | clearAcknowledged (identity : SessionRuntimeIdentity)
  | clearNotify (identity : SessionRuntimeIdentity)
  | clearNotifySession (sessionHandle : SessionHandle)
  | reset (sessionHandle : SessionHandle)
  | rekey (previousSessionHandle : SessionHandle) (identity : SessionRuntimeIdentity)

/-- `SessionExtensionMachineIntent`. -/
inductive SessionExtensionMachineIntent (J T : Type) where
  | pendingChanged (sessionHandle : SessionHandle) (requests : List (ExtensionUiRequest J T))
  | notifyDelivered (sessionHandle : SessionHandle) (key : JsString)
  | notifyDeduped (sessionHandle : SessionHandle) (key : JsString)

/-- `SessionExtensionMachineTransition`. -/
structure SessionExtensionMachineTransition (J T : Type) where
  state : SessionExtensionMachineState J T
  intents : List (SessionExtensionMachineIntent J T)

variable {J T : Type}

/-- `emptySession` under an identity. -/
def emptyExtensionSession (identity : Option SessionRuntimeIdentity) :
    SessionExtensionMachineSessionState J T :=
  { identity := identity, pending := [], acknowledgedRequestIds := [], deliveredNotifyKeys := [] }

/-- The request is a notification. -/
def ExtensionUiRequestBody.isNotify : ExtensionUiRequestBody J T → Bool
  | .notify .. => true
  | _ => false

/-- `extensionRequestSemanticKey`. -/
def extensionRequestSemanticKey (request : ExtensionUiRequest J T) : Option JsString :=
  match request.body with
  | .select .. | .confirm .. | .input .. | .editor .. => some (js "dialog:" ++ request.id)
  | .notify .. => none
  | .setStatus statusKey _ => some (js "status:" ++ statusKey)
  | .setWidget widgetKey _ _ => some (js "widget:" ++ widgetKey)
  | .setTitle _ => some (js "title")
  | .setEditorText _ => some (js "editor_text")

/-- `items.slice(-count)` for a positive count. -/
def sliceLast {A : Type} (count : ℕ) (items : List A) : List A := items.drop (items.length - count)

/-- `replaceRequest`. -/
def replaceRequest (requests : List (ExtensionUiRequest J T)) (request : ExtensionUiRequest J T) :
    List (ExtensionUiRequest J T) :=
  match extensionRequestSemanticKey request with
  | none => requests
  | some semanticKey =>
    sliceLast maxPendingExtensionRequests
      (requests.filter (fun candidate =>
        candidate.id ≠ request.id ∧ extensionRequestSemanticKey candidate ≠ some semanticKey) ++
          [request])

/-- `normalizeExtensionRequests`. -/
def normalizeExtensionRequests (requests : List (ExtensionUiRequest J T)) :
    List (ExtensionUiRequest J T) :=
  requests.foldl replaceRequest []

/-- `extensionNotifyKey`. -/
def extensionNotifyKey : ExtensionReplayFrame J T → JsString
  | .request seq request => jsNat seq ++ js ":" ++ request.id
  | .closed seq requestId => jsNat seq ++ js ":" ++ requestId

namespace SessionExtensionMachineState

/-- `initialState`. -/
def initial : SessionExtensionMachineState J T :=
  { sessions := .empty, deliveredNotifyIdentityOrder := [] }

/-- `sessionFor`. -/
def sessionFor (state : SessionExtensionMachineState J T) (identity : SessionRuntimeIdentity) :
    SessionExtensionMachineSessionState J T :=
  match state.sessions.get? identity.sessionHandle with
  | some current =>
    if current.identity = some identity then current else emptyExtensionSession (some identity)
  | none => emptyExtensionSession (some identity)

/-- `withSession` of a Session. -/
def withSession (state : SessionExtensionMachineState J T) (sessionHandle : SessionHandle)
    (session : SessionExtensionMachineSessionState J T) : SessionExtensionMachineState J T :=
  { state with sessions := state.sessions.insert sessionHandle session }

/-- `withSession` of `null`. -/
def withoutSession (state : SessionExtensionMachineState J T) (sessionHandle : SessionHandle) :
    SessionExtensionMachineState J T :=
  { state with sessions := state.sessions.erase sessionHandle }

/-- `clearNotifyKeys`. -/
def clearNotifyKeys (state : SessionExtensionMachineState J T) (sessionHandle : SessionHandle) :
    SessionExtensionMachineState J T :=
  match state.sessions.get? sessionHandle with
  | some current => state.withSession sessionHandle { current with deliveredNotifyKeys := [] }
  | none => state

/-- The recency list without some Sessions. -/
def forgetNotified (state : SessionExtensionMachineState J T)
    (handles : List SessionHandle) : SessionExtensionMachineState J T :=
  { state with
    deliveredNotifyIdentityOrder := state.deliveredNotifyIdentityOrder.filter (· ∉ handles) }

/-- `withPending`. -/
def withPending (state : SessionExtensionMachineState J T) (identity : SessionRuntimeIdentity)
    (pending : List (ExtensionUiRequest J T)) : SessionExtensionMachineState J T :=
  state.withSession identity.sessionHandle
    { state.sessionFor identity with identity := some identity, pending := pending }

/-- The loop of `rememberNotify`: the Sessions notified longest ago forget their keys. An empty
handle is falsy. -/
def evictNotified (sessionHandle : SessionHandle) :
    List SessionHandle → SessionExtensionMachineState J T → SessionExtensionMachineState J T
  | [], sessions => { sessions with deliveredNotifyIdentityOrder := [] }
  | oldest :: rest, sessions =>
    if (oldest :: rest).length > maxDeliveredNotifyIdentities then
      evictNotified sessionHandle rest
        (if oldest ≠ [] ∧ oldest ≠ sessionHandle then sessions.clearNotifyKeys oldest else sessions)
    else { sessions with deliveredNotifyIdentityOrder := oldest :: rest }

/-- `rememberNotify`, with whether the key was remembered already. -/
def rememberNotify (state : SessionExtensionMachineState J T) (identity : SessionRuntimeIdentity)
    (key : JsString) : SessionExtensionMachineState J T × Bool :=
  let current := state.sessionFor identity
  if key ∈ current.deliveredNotifyKeys then (state, true)
  else
    let identityOrder :=
      state.deliveredNotifyIdentityOrder.filter (· ≠ identity.sessionHandle) ++
        [identity.sessionHandle]
    let sessions :=
      if current.identity ≠ some identity then
        state.withSession identity.sessionHandle { current with identity := some identity }
      else state
    let notifyKeys := sliceLast maxDeliveredNotifyKeys
      ((sessions.sessionFor identity).deliveredNotifyKeys ++ [key])
    let sessions := sessions.withSession identity.sessionHandle
      { sessions.sessionFor identity with
        identity := some identity
        deliveredNotifyKeys := notifyKeys }
    (evictNotified identity.sessionHandle identityOrder sessions, false)

/-- The branch of the reducer that replays a frame. -/
def replay (state : SessionExtensionMachineState J T) (identity : SessionRuntimeIdentity)
    (frame : ExtensionReplayFrame J T) (notifyDelivered : Bool) :
    SessionExtensionMachineTransition J T :=
  let change (pending : List (ExtensionUiRequest J T)) : SessionExtensionMachineTransition J T :=
    { state := state.withPending identity pending
      intents := [.pendingChanged identity.sessionHandle pending] }
  match frame with
  | .request _ request =>
    if request.body.isNotify then
      if !notifyDelivered then { state := state, intents := [] }
      else
        let key := extensionNotifyKey frame
        let remembered := state.rememberNotify identity key
        { state := remembered.1
          intents :=
            [if remembered.2 then .notifyDeduped identity.sessionHandle key
              else .notifyDelivered identity.sessionHandle key] }
    else change (replaceRequest (state.sessionFor identity).pending request)
  | .closed _ requestId =>
    change ((state.sessionFor identity).pending.filter (·.id ≠ requestId))

end SessionExtensionMachineState

/-- `reduceSessionExtensionMachine`. -/
def reduceSessionExtensionMachine (state : SessionExtensionMachineState J T) :
    SessionExtensionMachineEvent J T → SessionExtensionMachineTransition J T
  | .hydrate identity pending =>
    if (state.sessions.get? identity.sessionHandle).bind (·.identity) = some identity then
      { state := state, intents := [] }
    else
      let normalized := normalizeExtensionRequests pending
      { state := state.withSession identity.sessionHandle
          { (emptyExtensionSession (some identity) : SessionExtensionMachineSessionState J T) with
            pending := normalized }
        intents := [.pendingChanged identity.sessionHandle normalized] }
  | .replay identity frame notifyDelivered => state.replay identity frame notifyDelivered
  | .replaceSnapshot identity requests =>
    let pending := normalizeExtensionRequests requests
    { state := state.withPending identity pending
      intents := [.pendingChanged identity.sessionHandle pending] }
  | .result identity requestId resyncing =>
    let current := state.sessionFor identity
    let acknowledgedRequestIds :=
      if resyncing then (current.acknowledgedRequestIds ++ [requestId]).eraseDups
      else current.acknowledgedRequestIds
    let pending := current.pending.filter (·.id ≠ requestId)
    { state := state.withSession identity.sessionHandle
        { current with
          identity := some identity
          pending := pending
          acknowledgedRequestIds := acknowledgedRequestIds }
      intents := [.pendingChanged identity.sessionHandle pending] }
  | .clearAcknowledged identity =>
    match state.sessions.get? identity.sessionHandle with
    | some current =>
      if current.identity = some identity then
        { state := state.withSession identity.sessionHandle
            { current with acknowledgedRequestIds := [] }
          intents := [] }
      else { state := state, intents := [] }
    | none => { state := state, intents := [] }
  | .clearNotify identity =>
    if (state.sessions.get? identity.sessionHandle).bind (·.identity) = some identity then
      { state :=
          (state.clearNotifyKeys identity.sessionHandle).forgetNotified [identity.sessionHandle]
        intents := [] }
    else { state := state, intents := [] }
  | .clearNotifySession sessionHandle =>
    if (state.sessions.get? sessionHandle).isSome then
      { state := (state.clearNotifyKeys sessionHandle).forgetNotified [sessionHandle]
        intents := [] }
    else { state := state, intents := [] }
  | .reset sessionHandle =>
    { state := (state.withoutSession sessionHandle).forgetNotified [sessionHandle]
      intents := [] }
  | .rekey previousSessionHandle identity =>
    { state :=
        ((state.withoutSession previousSessionHandle).withoutSession
          identity.sessionHandle).forgetNotified [previousSessionHandle, identity.sessionHandle]
      intents := [] }

namespace SessionExtensionMachineState

/-- `acknowledgedExtensionRequestIds` of the transport. -/
def acknowledged (state : SessionExtensionMachineState J T) (identity : SessionRuntimeIdentity) :
    List JsString :=
  match state.sessions.get? identity.sessionHandle with
  | some session => if session.identity = some identity then session.acknowledgedRequestIds else []
  | none => []

/-- The events of one frame of the suffix, as `commitSessionSnapshot` takes it: a request that was
answered is skipped, and a notification is remembered before its state is applied. -/
def suffixEvents (acknowledged : List JsString) (identity : SessionRuntimeIdentity) :
    ExtensionReplayFrame J T → List (SessionExtensionMachineEvent J T)
  | .request seq request =>
    if request.id ∈ acknowledged then []
    else if request.body.isNotify then
      [.replay identity (.request seq request) true, .replay identity (.request seq request) true]
    else [.replay identity (.request seq request) true]
  | .closed seq requestId => [.replay identity (.closed seq requestId) true]

/-- The events of `commitSessionSnapshot`: the requests of the snapshot and the frames of its
buffered suffix, less the requests that were answered during the resync. -/
def commitEvents (acknowledged : List JsString) (identity : SessionRuntimeIdentity)
    (pendingExtensionRequests stickyExtensionState : List (ExtensionUiRequest J T))
    (suffix : List (ExtensionReplayFrame J T)) : List (SessionExtensionMachineEvent J T) :=
  .replaceSnapshot identity
      (pendingExtensionRequests.filter (·.id ∉ acknowledged) ++
        stickyExtensionState.filter (·.id ∉ acknowledged)) ::
    suffix.flatMap (suffixEvents acknowledged identity)

end SessionExtensionMachineState

end PiAgentWeb
