import PiAgentWeb.Protocol.Control
import PiAgentWeb.Library.InsertionMap
import PiAgentWeb.Library.FencedLedger

/-!
# Control leases

The lease map of the Session supervisor and the operations its lease actor runs on it. An actor
operation is one synchronous step: it reads and replaces map entries and either returns or throws.
Every commit is also appended to a history, which no operation reads.
-/

namespace PiAgentWeb

/-- The command name an error of a commit carries. -/
def LeaseTransitionKind.command : LeaseTransitionKind → String
  | .baseline => "baseline"
  | .claim => "claim"
  | .release => "release"
  | .takeover => "takeover"
  | .disconnect => "disconnect"
  | .rekey => "rekey"

/-- Who controls a Session, and under which token. -/
structure LeaseOwner where
  connectionId : ConnectionId
  fencingToken : FencingToken
  deriving DecidableEq

/-- The lease of one Session. `committedBy` is history: the incarnation the latest commit of the
entry belongs to. An entry with an owner was committed and is not terminal. -/
structure LeaseState where
  generation : ℕ
  revision : ℕ
  owner : Option LeaseOwner
  terminal : Bool
  committedBy : Option ℕ
  owned : owner.isSome → terminal = false ∧ committedBy.isSome
  deriving DecidableEq

/-- The state an identity generation starts with: free at revision zero. -/
def LeaseState.fresh (generation : ℕ) : LeaseState where
  generation := generation
  revision := 0
  owner := none
  terminal := false
  committedBy := none
  owned := by simp

/-- The state after the last revision: nobody controls the Session any more. -/
def LeaseState.exhausted (state : LeaseState) : LeaseState where
  generation := state.generation
  revision := state.revision
  owner := none
  terminal := true
  committedBy := state.committedBy
  owned := by simp

/-- The state a commit establishes: the next revision, with or without an owner. -/
def LeaseState.successor (state : LeaseState) (owner : Option LeaseOwner) (incarnation : ℕ) :
    LeaseState where
  generation := state.generation
  revision := state.revision + 1
  owner := owner
  terminal := false
  committedBy := some incarnation
  owned := by simp

/-- A committed lease change (`SessionLeaseTransition`), less the epoch of the supervisor. -/
structure SessionLeaseTransition where
  sessionHandle : SessionHandle
  generation : ℕ
  leaseRevision : ℕ
  transition : LeaseTransitionKind
  /-- `ownerConnectionId` and `fencingToken`; `controlState` is `held` when they are present. -/
  owner : Option LeaseOwner
  deriving DecidableEq

/-- A commit in the history, with the incarnation it belongs to. -/
structure LeaseCommit where
  incarnation : ℕ
  transition : SessionLeaseTransition
  deriving DecidableEq

/-- The token a commit grants. -/
def LeaseCommit.token (commit : LeaseCommit) : Option FencingToken :=
  commit.transition.owner.map (·.fencingToken)

/-- The commit was made under this handle and generation. -/
def LeaseCommit.At (commit : LeaseCommit) (sessionHandle : SessionHandle) (generation : ℕ) :
    Prop :=
  commit.transition.sessionHandle = sessionHandle ∧ commit.transition.generation = generation

instance (commit : LeaseCommit) (sessionHandle : SessionHandle) (generation : ℕ) :
    Decidable (commit.At sessionHandle generation) :=
  inferInstanceAs (Decidable (_ ∧ _))

/-- Lease commits as entries of a fenced ledger. -/
def leaseFencing : Fencing LeaseCommit ℕ FencingToken where
  incarnation := LeaseCommit.incarnation
  revision := fun commit => commit.transition.leaseRevision
  token := LeaseCommit.token

/-- What the lease actor owns: the map `leases`, the supply of `randomUUID`, and the history of
commits, newest first. -/
structure LeaseTable where
  leases : InsertionMap SessionHandle LeaseState
  nextToken : FencingToken
  log : List LeaseCommit

/-- The table of a new supervisor. -/
def LeaseTable.empty : LeaseTable :=
  { leases := InsertionMap.empty, nextToken := 0, log := [] }

namespace LeaseTable

/-- `leases.set`. -/
def set (table : LeaseTable) (sessionHandle : SessionHandle) (state : LeaseState) : LeaseTable :=
  { table with leases := table.leases.insert sessionHandle state }

/-- `leases.delete`. -/
def delete (table : LeaseTable) (sessionHandle : SessionHandle) : LeaseTable :=
  { table with leases := table.leases.erase sessionHandle }

/-- The state of a handle at a generation. A state of another generation is replaced: neither an
owner nor its fence is carried across. -/
def leaseStateFor (table : LeaseTable) (sessionHandle : SessionHandle) (generation : ℕ) :
    LeaseTable × LeaseState :=
  match table.leases.get? sessionHandle with
  | some existing =>
    if existing.generation = generation then (table, existing)
    else (table.set sessionHandle (.fresh generation), .fresh generation)
  | none => (table.set sessionHandle (.fresh generation), .fresh generation)

/-- The owner a check reads; a generation may be demanded. -/
def leaseOwnerFor (table : LeaseTable) (sessionHandle : SessionHandle) (generation : Option ℕ) :
    Option LeaseOwner :=
  match table.leases.get? sessionHandle with
  | none => none
  | some state =>
    if state.terminal ∨ generation.any (state.generation ≠ ·) then none else state.owner

/-- A lease as a connection sees it. -/
def leaseSnapshot (sessionHandle : SessionHandle) (generation : ℕ) (state : Option LeaseState)
    (connectionId : ConnectionId) (transition : LeaseTransitionKind := .baseline) :
    SessionLeaseSnapshot :=
  let owner := state.bind fun state => if state.terminal then none else state.owner
  let isController := owner.any (·.connectionId = connectionId)
  { sessionHandle := sessionHandle
    generation := generation
    leaseRevision :=
      state.elim 0 fun state => if state.generation = generation then state.revision else 0
    controlState := if owner.isSome then .held else .free
    transition := transition
    isController := isController
    fencingToken := if isController then owner.map (·.fencingToken) else none }

/-- Replace the entry of a handle by its successor. At the last safe integer the entry becomes
terminal instead. The incarnation only labels the history. -/
def commitLeaseTransition (table : LeaseTable) (sessionHandle : SessionHandle) (generation : ℕ)
    (state : LeaseState) (transition : LeaseTransitionKind) (owner : Option LeaseOwner)
    (incarnation : ℕ) : LeaseTable × Except RpcError SessionLeaseTransition :=
  if state.terminal ∨ state.generation ≠ generation then
    (table, .error ⟨transition.command, "session_lease_revision_exhausted"⟩)
  else if maxSafeInteger ≤ state.revision then
    (table.set sessionHandle state.exhausted,
      .error ⟨transition.command, "session_lease_revision_exhausted"⟩)
  else
    let committed : SessionLeaseTransition :=
      { sessionHandle := sessionHandle
        generation := generation
        leaseRevision := state.revision + 1
        transition := transition
        owner := owner }
    ({ table.set sessionHandle (state.successor owner incarnation) with
        log := ⟨incarnation, committed⟩ :: table.log },
      .ok committed)

/-- The state of a handle as a rekey announces it when nothing is committed. -/
def leaseTransitionForState (sessionHandle : SessionHandle) (state : LeaseState)
    (transition : LeaseTransitionKind) : SessionLeaseTransition where
  sessionHandle := sessionHandle
  generation := state.generation
  leaseRevision := state.revision
  transition := transition
  owner := if state.terminal then none else state.owner

/-- `randomUUID`. -/
def randomUUID (table : LeaseTable) : LeaseTable × FencingToken :=
  ({ table with nextToken := table.nextToken + 1 }, table.nextToken)

/-- What the actor needs to know of the runtime it acts for. -/
structure Target where
  generation : ℕ
  incarnation : ℕ
  deriving DecidableEq

/-- The actor's part of `claimWithTransition`. A held lease, by whomever, is only described. -/
def claim (table : LeaseTable) (sessionHandle : SessionHandle) (target : Target)
    (connectionId : ConnectionId) :
    LeaseTable × Except RpcError (SessionLeaseSnapshot × Option SessionLeaseTransition) :=
  let (table, state) := table.leaseStateFor sessionHandle target.generation
  if state.terminal then (table, .error ⟨"claim", "session_lease_revision_exhausted"⟩)
  else if state.owner.isSome then
    (table, .ok (leaseSnapshot sessionHandle target.generation (some state) connectionId, none))
  else
    let (table, fencingToken) := table.randomUUID
    match table.commitLeaseTransition sessionHandle target.generation state .claim
      (some { connectionId := connectionId, fencingToken := fencingToken }) target.incarnation with
    | (table, .error error) => (table, .error error)
    | (table, .ok transition) =>
      (table, .ok (leaseSnapshot sessionHandle target.generation
        (table.leases.get? sessionHandle) connectionId .claim, some transition))

/-- The actor's part of `takeover`. -/
def takeover (table : LeaseTable) (sessionHandle : SessionHandle) (target : Target)
    (expectedLeaseRevision : ℕ) (connectionId : ConnectionId) :
    LeaseTable × Except RpcError SessionLeaseTransition :=
  let (table, state) := table.leaseStateFor sessionHandle target.generation
  if state.terminal then (table, .error ⟨"takeover", "session_takeover_not_available"⟩)
  else if state.revision ≠ expectedLeaseRevision then
    (table, .error ⟨"takeover", "session_lease_revision_stale"⟩)
  else if state.owner.all (·.connectionId = connectionId) then
    (table, .error ⟨"takeover", "session_takeover_not_available"⟩)
  else
    let (table, fencingToken) := table.randomUUID
    table.commitLeaseTransition sessionHandle target.generation state .takeover
      (some { connectionId := connectionId, fencingToken := fencingToken }) target.incarnation

/-- The bodies of `releaseWithTransition` and `releaseExactWithTransition`: give the lease up when
its owner is the expected one. The runtime tracked under the handle decides the generation; without
one it is that of the entry. -/
def releaseOwned (table : LeaseTable) (sessionHandle : SessionHandle) (target : Option Target)
    (expected : LeaseOwner → Bool) (transition : LeaseTransitionKind) :
    LeaseTable × Except RpcError (Option SessionLeaseTransition) :=
  match target.elim ((table.leases.get? sessionHandle).map (·.generation))
    (fun target => some target.generation) with
  | none => (table, .ok none)
  | some generation =>
    let (table, state) := table.leaseStateFor sessionHandle generation
    if state.terminal ∨ ¬state.owner.any expected then (table, .ok none)
    else
      match table.commitLeaseTransition sessionHandle generation state transition none
        (target.elim (state.committedBy.getD 0) (·.incarnation)) with
      | (table, .error error) => (table, .error error)
      | (table, .ok transition) => (table, .ok (some transition))

/-- `releaseWithTransition`. -/
def release (table : LeaseTable) (sessionHandle : SessionHandle) (target : Option Target)
    (connectionId : ConnectionId) : LeaseTable × Except RpcError (Option SessionLeaseTransition) :=
  table.releaseOwned sessionHandle target (·.connectionId = connectionId) .release

/-- `releaseExactWithTransition`; the bridge also ends a connection's leases with it. -/
def releaseExact (table : LeaseTable) (sessionHandle : SessionHandle) (target : Option Target)
    (connectionId : ConnectionId) (fencingToken : FencingToken)
    (releaseTransition : LeaseTransitionKind) :
    LeaseTable × Except RpcError (Option SessionLeaseTransition) :=
  table.releaseOwned sessionHandle target
    (fun owner => owner.connectionId = connectionId ∧ owner.fencingToken = fencingToken)
    releaseTransition

/-- The loop of `releaseConnectionWithTransitions` over the entries of the map. A commit replaces
the entry it is at, so the entries still to come are those the loop started with. -/
def releaseEntries (connectionId : ConnectionId) :
    List (SessionHandle × LeaseState) → LeaseTable →
      LeaseTable × Except RpcError (List SessionLeaseTransition)
  | [], table => (table, .ok [])
  | (handle, state) :: rest, table =>
    if state.terminal ∨ ¬state.owner.any (·.connectionId = connectionId) then
      releaseEntries connectionId rest table
    else
      match table.commitLeaseTransition handle state.generation state .disconnect none
        (state.committedBy.getD 0) with
      | (table, .error error) => (table, .error error)
      | (table, .ok transition) =>
        match releaseEntries connectionId rest table with
        | (table, .error error) => (table, .error error)
        | (table, .ok transitions) => (table, .ok (transition :: transitions))

/-- `releaseConnectionWithTransitions`. -/
def releaseConnection (table : LeaseTable) (connectionId : ConnectionId) :
    LeaseTable × Except RpcError (List SessionLeaseTransition) :=
  releaseEntries connectionId table.leases.entries table

/-- The actor's part of `rekeyRuntime`: the lease moves with a runtime that keeps its generation;
a runtime with another generation starts free. -/
def rekey (table : LeaseTable) (previousHandle nextHandle : SessionHandle) (target : Target) :
    LeaseTable × Except RpcError SessionLeaseTransition :=
  let previous := table.leases.get? previousHandle
  let table := (table.delete previousHandle).delete nextHandle
  match previous with
  | none =>
    (table.set nextHandle (.fresh target.generation),
      .ok (leaseTransitionForState nextHandle (.fresh target.generation) .rekey))
  | some previous =>
    if previous.generation ≠ target.generation then
      (table.set nextHandle (.fresh target.generation),
        .ok (leaseTransitionForState nextHandle (.fresh target.generation) .rekey))
    else if previous.owner.isNone then
      (table.set nextHandle previous, .ok (leaseTransitionForState nextHandle previous .rekey))
    else
      (table.set nextHandle previous).commitLeaseTransition nextHandle target.generation previous
        .rekey previous.owner target.incarnation

/-- `reconcileLeaseGeneration`, for a runtime with this handle and generation. -/
def reconcileLeaseGeneration (table : LeaseTable) (sessionHandle : SessionHandle)
    (generation : ℕ) : LeaseTable :=
  (table.leaseStateFor sessionHandle generation).1

/-- `leaseFor`, with the generation of the runtime tracked under the handle, if any. -/
def leaseFor (table : LeaseTable) (sessionHandle : SessionHandle) (tracked : Option ℕ)
    (connectionId : ConnectionId) : SessionLeaseSnapshot :=
  let state := table.leases.get? sessionHandle
  let generation := tracked.getD (state.elim 0 (·.generation))
  leaseSnapshot sessionHandle generation (state.filter (·.generation = generation)) connectionId

/-- `assertLease`, for a runtime with this handle and generation. -/
def assertLease (table : LeaseTable) (sessionHandle : SessionHandle) (generation : ℕ)
    (command : String) (connectionId : ConnectionId) (fencingToken : Option FencingToken) :
    Except RpcError Unit :=
  match table.leaseOwnerFor sessionHandle (some generation) with
  | none => .error ⟨command, "session_read_only"⟩
  | some lease =>
    if lease.connectionId = connectionId ∧ some lease.fencingToken = fencingToken then .ok ()
    else .error ⟨command, "session_read_only"⟩

end LeaseTable

end PiAgentWeb
