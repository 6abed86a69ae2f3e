import PiAgentWeb.Server.Lease

/-!
# Lease deliveries to a connection

One Session under a fixed handle and generation, and one connection that stays subscribed to it.
Any connection claims, releases, takes over or disconnects; the lease actor answers at once, and
the bridge goes on with the answer later, in any order: it broadcasts a committed transition, or
answers the requester directly with a baseline when nothing was committed. While the subscription
catches up, transitions are deferred and only the newest is kept.
-/

namespace PiAgentWeb

/-- The watched Session and connection. -/
structure WatchedLease where
  connectionId : ConnectionId
  sessionHandle : SessionHandle
  target : LeaseTable.Target

/-- An answer of the lease actor that the bridge has not gone on with. -/
inductive PendingDelivery where
  /-- A claim: the requester's view, and the transition when one was committed. -/
  | claimed (connectionId : ConnectionId) (lease : SessionLeaseSnapshot)
      (transition : Option SessionLeaseTransition)
  | released (connectionId : ConnectionId) (transition : Option SessionLeaseTransition)
  | takenOver (connectionId : ConnectionId) (transition : SessionLeaseTransition)
  /-- A transition that no requester waits for. -/
  | broadcast (transition : SessionLeaseTransition)
  /-- A control whose request expired: the bridge gives it back. -/
  | cleanup (connectionId : ConnectionId) (fencingToken : FencingToken)
      (connectionExpired : Bool)
  deriving DecidableEq

/-- How the watched connection is subscribed. A contradiction closes it. -/
inductive LeaseChannel where
  | catchingUp (pendingLease : Option SessionLeaseTransition)
  | live
  | closed
  deriving DecidableEq

/-- The bridge and the lease table behind it. -/
structure LeaseBridge where
  table : LeaseTable
  pending : List PendingDelivery
  channel : LeaseChannel
  /-- The lease messages sent to the watched connection, oldest first. -/
  sent : List SessionLeaseSnapshot

/-- One step of the bridge. The numbers select a pending delivery. -/
inductive LeaseBridgeAction where
  | claim (connectionId : ConnectionId)
  | release (connectionId : ConnectionId)
  | takeover (connectionId : ConnectionId) (expectedLeaseRevision : ℕ)
  | disconnect (connectionId : ConnectionId)
  /-- The bridge goes on with an answer. -/
  | resume (index : ℕ)
  /-- The bridge finds that the request behind an answer has expired. -/
  | expire (index : ℕ) (connectionExpired : Bool)
  /-- The catch-up ends and the subscription is live. -/
  | establish
  deriving DecidableEq

namespace WatchedLease

variable (w : WatchedLease)

/-- A supervisor whose runtime has just started, and a connection that begins to subscribe. -/
def initial : LeaseBridge where
  table := LeaseTable.empty
  pending := []
  channel := .catchingUp none
  sent := []

/-- `leaseViewForConnection`, for the watched connection. -/
def view (transition : SessionLeaseTransition) : SessionLeaseSnapshot :=
  let isController := transition.owner.any (·.connectionId = w.connectionId)
  { sessionHandle := transition.sessionHandle
    generation := transition.generation
    leaseRevision := transition.leaseRevision
    controlState := if transition.owner.isSome then .held else .free
    transition := transition.transition
    isController := isController
    fencingToken := if isController then transition.owner.map (·.fencingToken) else none }

/-- `leaseFor`, for the watched connection. -/
def leaseFor (table : LeaseTable) : SessionLeaseSnapshot :=
  table.leaseFor w.sessionHandle (some w.target.generation) w.connectionId

/-- `deferCatchUpLease`: the newest transition waits for the end of the catch-up. -/
def deferCatchUpLease (pendingLease : Option SessionLeaseTransition)
    (transition : SessionLeaseTransition) : LeaseChannel :=
  match pendingLease with
  | none => .catchingUp (some transition)
  | some previous =>
    if previous.leaseRevision < transition.leaseRevision then .catchingUp (some transition)
    else if transition.leaseRevision < previous.leaseRevision then .catchingUp (some previous)
    else if previous = transition then .catchingUp (some previous)
    else .closed

/-- `broadcastLeaseTransition`, as far as it concerns the watched connection. -/
def broadcastLeaseTransition (channel : LeaseChannel) (transition : SessionLeaseTransition) :
    LeaseChannel × List SessionLeaseSnapshot :=
  match channel with
  | .catchingUp pendingLease => (deferCatchUpLease pendingLease transition, [])
  | .live => (.live, [w.view transition])
  | .closed => (.closed, [])

/-- A direct answer to a requester, sent when it is the watched connection. -/
def answer (channel : LeaseChannel) (connectionId : ConnectionId) (lease : SessionLeaseSnapshot) :
    List SessionLeaseSnapshot :=
  if connectionId = w.connectionId ∧ channel ≠ .closed then [lease] else []

/-- What the bridge sends when it goes on with an answer, and the channel afterwards. The rest of
`claim`, `release` and `takeover` after the supervisor's answer. -/
def deliver (b : LeaseBridge) : PendingDelivery → LeaseChannel × List SessionLeaseSnapshot
  | .claimed _ _ (some transition) => w.broadcastLeaseTransition b.channel transition
  | .claimed connectionId lease none => (b.channel, w.answer b.channel connectionId lease)
  | .released _ (some transition) => w.broadcastLeaseTransition b.channel transition
  | .released connectionId none =>
    (b.channel, w.answer b.channel connectionId (w.leaseFor b.table))
  | .takenOver _ transition => w.broadcastLeaseTransition b.channel transition
  | .broadcast transition => w.broadcastLeaseTransition b.channel transition
  | .cleanup _ _ _ => (b.channel, [])

/-- The end of a catch-up: the deferred transition, or the lease as it is. -/
def establishLive (b : LeaseBridge) : LeaseChannel × List SessionLeaseSnapshot :=
  match b.channel with
  | .catchingUp (some pendingLease) => (.live, [w.view pendingLease])
  | .catchingUp none => (.live, [w.leaseFor b.table])
  | channel => (channel, [])

/-- What a step sends to the watched connection, and the channel afterwards. -/
def outgoing (b : LeaseBridge) : LeaseBridgeAction → LeaseChannel × List SessionLeaseSnapshot
  | .resume index =>
    match b.pending[index]? with
    | some delivery => w.deliver b delivery
    | none => (b.channel, [])
  | .establish => w.establishLive b
  | _ => (b.channel, [])

/-- The pending deliveries of an operation that may have committed. -/
def answered (delivery : Option SessionLeaseTransition → PendingDelivery) :
    Except RpcError (Option SessionLeaseTransition) → List PendingDelivery
  | .ok transition => [delivery transition]
  | .error _ => []

/-- What becomes of an expired request: control that it won is given back. -/
def expired (connectionExpired : Bool) : PendingDelivery → List PendingDelivery
  | .claimed connectionId lease _ =>
    match lease.fencingToken with
    | some fencingToken =>
      if lease.isController then [.cleanup connectionId fencingToken connectionExpired] else []
    | none => []
  | .takenOver connectionId transition =>
    match transition.owner with
    | some owner => [.cleanup connectionId owner.fencingToken connectionExpired]
    | none => []
  | delivery => [delivery]

/-- What the operation of a step does to the lease table, and the answers it leaves. -/
def operate (b : LeaseBridge) : LeaseBridgeAction → LeaseTable × List PendingDelivery
  | .claim connectionId =>
    match b.table.claim w.sessionHandle w.target connectionId with
    | (table, .ok (lease, transition)) =>
      (table, b.pending ++ [.claimed connectionId lease transition])
    | (table, .error _) => (table, b.pending)
  | .release connectionId =>
    let result := b.table.release w.sessionHandle (some w.target) connectionId
    (result.1, b.pending ++ answered (.released connectionId) result.2)
  | .takeover connectionId expectedLeaseRevision =>
    match b.table.takeover w.sessionHandle w.target expectedLeaseRevision connectionId with
    | (table, .ok transition) => (table, b.pending ++ [.takenOver connectionId transition])
    | (table, .error _) => (table, b.pending)
  | .disconnect connectionId =>
    if connectionId = w.connectionId then (b.table, b.pending)
    else
      match b.table.releaseConnection connectionId with
      | (table, .ok transitions) => (table, b.pending ++ transitions.map .broadcast)
      | (table, .error _) => (table, b.pending)
  | .resume index =>
    match b.pending[index]? with
    | some (.cleanup connectionId fencingToken connectionExpired) =>
      match b.table.releaseExact w.sessionHandle (some w.target) connectionId fencingToken
        (if connectionExpired then .disconnect else .release) with
      | (table, .ok (some transition)) =>
        (table, b.pending.eraseIdx index ++ [.broadcast transition])
      | (table, _) => (table, b.pending.eraseIdx index)
    | _ => (b.table, b.pending.eraseIdx index)
  | .expire index connectionExpired =>
    match b.pending[index]? with
    | some delivery =>
      (b.table, b.pending.eraseIdx index ++ expired connectionExpired delivery)
    | none => (b.table, b.pending)
  | .establish => (b.table, b.pending)

/-- One step. -/
def step (b : LeaseBridge) (a : LeaseBridgeAction) : LeaseBridge where
  table := (w.operate b a).1
  pending := (w.operate b a).2
  channel := (w.outgoing b a).1
  sent := b.sent ++ (w.outgoing b a).2

/-- A further message leads when its revision is higher. -/
def lead (first : Option SessionLeaseSnapshot) (message : SessionLeaseSnapshot) :
    Option SessionLeaseSnapshot :=
  if first.all (·.leaseRevision < message.leaseRevision) then some message else first

/-- The message of the highest revision that was sent first. -/
def leading (sent : List SessionLeaseSnapshot) : Option SessionLeaseSnapshot :=
  sent.foldl lead none

/-- The revision a delivery reaches the watched connection at, and whether as a baseline: an answer
without a commit is one, a committed transition is not. -/
def deliversAt (b : LeaseBridge) : PendingDelivery → Option (ℕ × Bool)
  | .claimed connectionId lease none =>
    if connectionId = w.connectionId then some (lease.leaseRevision, true) else none
  | .released connectionId none =>
    if connectionId = w.connectionId then some ((w.leaseFor b.table).leaseRevision, true) else none
  | .claimed _ _ (some transition) | .released _ (some transition) | .takenOver _ transition
  | .broadcast transition =>
    if b.channel = .live then some (transition.leaseRevision, false) else none
  | .cleanup _ _ _ => none

/-- The revision a step sends at, and whether as a baseline. The end of a catch-up sends the
deferred transition, or the baseline of the subscription. -/
def sendsAt (b : LeaseBridge) : LeaseBridgeAction → Option (ℕ × Bool)
  | .resume index => b.pending[index]?.bind (w.deliversAt b)
  | .establish =>
    match b.channel with
    | .catchingUp (some pendingLease) => some (pendingLease.leaseRevision, false)
    | .catchingUp none => some ((w.leaseFor b.table).leaseRevision, true)
    | _ => none
  | _ => none

/-- The step does not send at the highest revision sent so far in the other form, and the revisions
are not exhausted. -/
def OneForm (b : LeaseBridge) (a : LeaseBridgeAction) : Prop :=
  (∀ form ∈ w.sendsAt b a, ∀ first ∈ leading b.sent, first.leaseRevision = form.1 →
    (first.transition = .baseline ↔ form.2 = true)) ∧
  ∀ state ∈ b.table.leases.get? w.sessionHandle, state.revision < maxSafeInteger

instance (b : LeaseBridge) (a : LeaseBridgeAction) : Decidable (w.OneForm b a) :=
  inferInstanceAs (Decidable (_ ∧ _))

end WatchedLease

end PiAgentWeb
