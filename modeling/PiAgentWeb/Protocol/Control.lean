import PiAgentWeb.Library.JsValue

/-!
# Runtime identities and control messages

The identities of runtimes and connections, the errors of the protocol, and the lease messages
that server and Browser exchange about who controls a Session.
-/

namespace PiAgentWeb

/-- An opaque Session handle. -/
abbrev SessionHandle := JsString

/-- The id of a Browser connection. -/
abbrev ConnectionId := JsString

/-- A fencing token: the serial number of the `randomUUID` call that made it. -/
abbrev FencingToken := ℕ

/-- An error of the protocol: the command it answers and its message. -/
structure RpcError where
  command : String
  message : String
  deriving DecidableEq

/-- `Number.MAX_SAFE_INTEGER`. -/
def maxSafeInteger : ℕ := 2 ^ 53 - 1

/-- `SessionRuntimeStateDto`. -/
inductive SessionRuntimeState where
  | starting | idle | running | waitingUi | crashed | dormant
  deriving DecidableEq

/-- `SessionRuntimeIdentityDto`. -/
structure SessionRuntimeIdentity where
  serverEpoch : JsString
  sessionHandle : SessionHandle
  workspaceId : JsString
  generation : ℕ
  deriving DecidableEq

/-- The `controlState` of a lease. -/
inductive ControlState where
  | free
  | held
  deriving DecidableEq

/-- The `transition` of a lease message; a commit never makes a `baseline`. -/
inductive LeaseTransitionKind where
  | baseline
  | claim
  | release
  | takeover
  | disconnect
  | rekey
  deriving DecidableEq

/-- A lease as one connection sees it (`SessionLeaseSnapshot`), less the epoch of the server. -/
structure SessionLeaseSnapshot where
  sessionHandle : SessionHandle
  generation : ℕ
  leaseRevision : ℕ
  controlState : ControlState
  transition : LeaseTransitionKind
  isController : Bool
  /-- Present only for the controlling connection. -/
  fencingToken : Option FencingToken
  deriving DecidableEq

/-- The message `lease_status` (`SessionLeaseStatusDto`). -/
structure SessionLeaseStatus extends SessionLeaseSnapshot where
  serverEpoch : JsString
  deriving DecidableEq

end PiAgentWeb
