import PiAgentWeb.Server.GenerationContentOwner

/-!
# The payload ledger of a transition

`transition-payload-ledger.ts`. The ledger takes transfers into custody while a transition is
undecided, and then either drains them into a generation owner or releases what is left. A
transfer is named by its lease in the pool. Every operation that can throw yields the state it
leaves behind also when it throws.
-/

namespace PiAgentWeb

/-- `TransitionPayloadLedgerState`. -/
inductive TransitionPayloadLedgerState where
  | open
  | draining
  | drained
  | drainFailed
  | releasing
  | released
  | releaseFailed
  deriving DecidableEq

/-- `EntryState`. -/
inductive LedgerEntryState where
  | pending
  | adopted
  | released
  deriving DecidableEq

/-- `LedgerEntry`. -/
structure LedgerEntry where
  transfer : ℕ
  state : LedgerEntryState
  deriving DecidableEq

/-- The errors of the ledger, by their messages. -/
inductive TransitionPayloadLedgerError where
  | alreadyConsumed
  | admissionInvalid
  | transferAlreadyAdmitted
  | logicalByteLimitExceeded
  | referenceInvalid
  | referenceEpochInvalid
  | digestMetadataCollision
  | physicalByteLimitExceeded
  | physicalItemLimitExceeded
  | heldItemLimitExceeded
  | accountingOverflowed
  | drainFailed
  deriving DecidableEq

/-- The cached promise of `releaseRemaining`: the transfers whose release it awaits, or its
outcome. -/
inductive RemainingRelease where
  | pending (attempts : List ℕ)
  | resolved
  | rejected
  deriving DecidableEq

/-- `TransitionPayloadLedger`. -/
structure TransitionPayloadLedger where
  serverEpoch : JsString
  maxPhysicalBytes : ℕ
  maxPhysicalItems : ℕ
  maxHeldItems : ℕ
  maxLogicalBytes : ℕ
  entries : List LedgerEntry := []
  seenTransfers : List ℕ := []
  physicalRefs : InsertionMap (ContentNamespace × JsString) EpochStoredContentRef :=
    InsertionMap.empty
  currentState : TransitionPayloadLedgerState := .open
  currentPhysicalBytes : ℕ := 0
  currentPhysicalItems : ℕ := 0
  currentHeldItems : ℕ := 0
  currentLogicalBytes : ℕ := 0
  adoptedCount : ℕ := 0
  releasePromise : Option RemainingRelease := none
  deriving DecidableEq

/-- `TransitionPayloadLedgerAdmission`: the transfer, if any, with its references. -/
structure TransitionPayloadLedgerAdmission where
  transfer : Option (ℕ × List EpochStoredContentRef)
  logicalBytes : ℕ

/-- `safeAdd`. -/
def safeAdd (left right : ℕ) : Except TransitionPayloadLedgerError ℕ :=
  if isSafeInteger (left + right) then .ok (left + right) else .error .accountingOverflowed

/-- The references that an admission adds to the physical ones, with their totals. -/
structure StagedPhysicalRefs where
  refs : InsertionMap (ContentNamespace × JsString) EpochStoredContentRef := InsertionMap.empty
  bytes : ℕ := 0
  items : ℕ := 0

namespace TransitionPayloadLedger

/-- The loop of `admit` over the references of a transfer. -/
def stageRefs (ledger : TransitionPayloadLedger) (staged : StagedPhysicalRefs) :
    List EpochStoredContentRef → Except TransitionPayloadLedgerError StagedPhysicalRefs
  | [] => .ok staged
  | candidate :: rest =>
    if !isStoredContentRef candidate then .error .referenceInvalid
    else if candidate.serverEpoch ≠ ledger.serverEpoch then .error .referenceEpochInvalid
    else
      let key := contentKey candidate
      match (ledger.physicalRefs.get? key).or (staged.refs.get? key) with
      | some existing =>
        if !refsEqual existing candidate then .error .digestMetadataCollision
        else ledger.stageRefs staged rest
      | none =>
        match safeAdd staged.bytes candidate.byteLength with
        | .error failure => .error failure
        | .ok bytes =>
          match safeAdd staged.items 1 with
          | .error failure => .error failure
          | .ok items =>
            ledger.stageRefs { refs := staged.refs.insert key candidate, bytes, items } rest

/-- The logical total after an admission; a transfer that was already admitted is refused. -/
def nextLogicalBytes (ledger : TransitionPayloadLedger)
    (input : TransitionPayloadLedgerAdmission) : Except TransitionPayloadLedgerError ℕ :=
  if !isSafeInteger input.logicalBytes then .error .admissionInvalid
  else if input.transfer.any fun transfer => ledger.seenTransfers.contains transfer.1 then
    .error .transferAlreadyAdmitted
  else
    match safeAdd ledger.currentLogicalBytes input.logicalBytes with
    | .error failure => .error failure
    | .ok next =>
      if ledger.maxLogicalBytes < next then .error .logicalByteLimitExceeded else .ok next

/-- The physical totals after an admission, with the references it adds. -/
def nextPhysical (ledger : TransitionPayloadLedger) (refs : List EpochStoredContentRef) :
    Except TransitionPayloadLedgerError (StagedPhysicalRefs × ℕ × ℕ × ℕ) := do
  let staged ← ledger.stageRefs {} refs
  let nextPhysicalBytes ← safeAdd ledger.currentPhysicalBytes staged.bytes
  let nextPhysicalItems ← safeAdd ledger.currentPhysicalItems staged.items
  let nextHeldItems ← safeAdd ledger.currentHeldItems refs.length
  if ledger.maxPhysicalBytes < nextPhysicalBytes then throw .physicalByteLimitExceeded
  if ledger.maxPhysicalItems < nextPhysicalItems then throw .physicalItemLimitExceeded
  if ledger.maxHeldItems < nextHeldItems then throw .heldItemLimitExceeded
  return (staged, nextPhysicalBytes, nextPhysicalItems, nextHeldItems)

/-- `admit`, with the ledger it leaves behind also when it throws. -/
def admitPayload (ledger : TransitionPayloadLedger) (input : TransitionPayloadLedgerAdmission) :
    EStateM.Result TransitionPayloadLedgerError TransitionPayloadLedger Unit :=
  if ledger.currentState ≠ .open then .error .alreadyConsumed ledger
  else
    match ledger.nextLogicalBytes input with
    | .error failure => .error failure ledger
    | .ok nextLogicalBytes =>
      match input.transfer with
      | none => .ok () { ledger with currentLogicalBytes := nextLogicalBytes }
      | some (transfer, refs) =>
        match ledger.nextPhysical refs with
        | .error failure => .error failure ledger
        | .ok (staged, nextPhysicalBytes, nextPhysicalItems, nextHeldItems) =>
          .ok () { ledger with
            entries := ledger.entries ++ [{ transfer, state := .pending }]
            seenTransfers := ledger.seenTransfers ++ [transfer]
            physicalRefs := staged.refs.entries.foldl
              (fun refs entry => refs.insert entry.1 entry.2) ledger.physicalRefs
            currentPhysicalBytes := nextPhysicalBytes
            currentPhysicalItems := nextPhysicalItems
            currentHeldItems := nextHeldItems
            currentLogicalBytes := nextLogicalBytes }

/-- What the loop of `drainTo` has done: the entries, the leases and the owner it leaves behind, the
transfers it handed over, and whether it came to its end. -/
structure Drain where
  entries : List LedgerEntry
  pool : PayloadPool
  owner : GenerationContentOwner
  handedOver : List ℕ
  succeeded : Bool

/-- The loop of `drainTo`: it stops at the first adoption that throws. -/
def drainEntries (pool : PayloadPool) (owner : GenerationContentOwner) : List LedgerEntry → Drain
  | [] => { entries := [], pool, owner, handedOver := [], succeeded := true }
  | entry :: rest =>
    if entry.state ≠ .pending then
      let drain := drainEntries pool owner rest
      { drain with entries := entry :: drain.entries }
    else
      match pool[entry.transfer]? with
      | none => { entries := entry :: rest, pool, owner, handedOver := [], succeeded := false }
      | some lease =>
        match owner.adopt lease with
        | (next, none) =>
          { entries := entry :: rest, pool := pool.set entry.transfer next, owner
            handedOver := [], succeeded := false }
        | (next, some owner) =>
          let drain := drainEntries (pool.set entry.transfer next) owner rest
          { drain with
            entries := { entry with state := .adopted } :: drain.entries
            handedOver := entry.transfer :: drain.handedOver }

/-- The state of the ledger after its loop has drained. -/
def afterDrain (ledger : TransitionPayloadLedger) (drain : Drain) : TransitionPayloadLedger :=
  { ledger with
    entries := drain.entries
    adoptedCount := ledger.adoptedCount + drain.handedOver.length
    currentState := if drain.succeeded then .drained else .drainFailed }

/-- The transfers of the entries that are still pending. -/
def pendingTransfers (ledger : TransitionPayloadLedger) : List ℕ :=
  (ledger.entries.filter (·.state == .pending)).map (·.transfer)

/-- The synchronous part of `releaseRemaining` on the ledger; it throws when the ledger was consumed
otherwise. The cached promise makes every later call return the first outcome. -/
def releaseRemaining (ledger : TransitionPayloadLedger) : TransitionPayloadLedger :=
  if ledger.releasePromise.isSome then ledger
  else if ledger.currentState = .drained ∨ ledger.currentState = .released then
    { ledger with releasePromise := some .resolved }
  else if ledger.currentState ≠ .open ∧ ledger.currentState ≠ .drainFailed then ledger
  else
    { ledger with
      currentState := .releasing
      entries := ledger.entries.map fun entry =>
        if entry.state = .pending then { entry with state := .released } else entry
      releasePromise := some (.pending ledger.pendingTransfers) }

/-- The transfers whose release a call of `releaseRemaining` starts. -/
def releaseStarts (ledger : TransitionPayloadLedger) : List ℕ :=
  if ledger.releasePromise = none ∧
      (ledger.currentState = .open ∨ ledger.currentState = .drainFailed) then
    ledger.pendingTransfers
  else []

/-- The continuation of `releaseRemaining` once every release it started is settled. -/
def settleRemaining (ledger : TransitionPayloadLedger) (pool : PayloadPool) :
    TransitionPayloadLedger :=
  match ledger.releasePromise with
  | some (.pending attempts) =>
    let leases := attempts.filterMap (pool[·]?)
    if leases.all (·.transfer == .released) then
      if leases.any (·.releaseFailed) then
        { ledger with currentState := .releaseFailed, releasePromise := some .rejected }
      else { ledger with currentState := .released, releasePromise := some .resolved }
    else ledger
  | _ => ledger

end TransitionPayloadLedger

/-! ## Runs -/

/-- A ledger among the leases, with the history of its payloads: the owner it was drained into, the
transfers that were handed over, and the holds whose release was attempted and succeeded. -/
structure LedgerCustody where
  ledger : TransitionPayloadLedger
  pool : PayloadPool := []
  drainedInto : Option GenerationContentOwner := none
  handedOver : List ℕ := []
  attempted : List EpochContentHold := []
  released : List EpochContentHold := []
  deriving DecidableEq

/-- What can happen to a ledger and to the leases around it. An owner is handed to `drainTo` in any
state. -/
inductive LedgerAction where
  | createLease (holds : List EpochContentHold)
  | transfer (lease : ℕ)
  | releaseLease (lease : ℕ)
  | releaseTransfer (lease : ℕ)
  | settleRelease (lease : ℕ) (succeeded : Bool)
  | admitPayload (transfer : Option ℕ) (logicalBytes : ℕ)
  | drainTo (owner : GenerationContentOwner)
  | releaseRemaining
  | settleRemaining
  deriving DecidableEq

namespace LedgerCustody

/-- A change of one lease of the pool. -/
def onLease (c : LedgerCustody) (index : ℕ) (f : PiPayloadLease → PiPayloadLease) :
    LedgerCustody :=
  match c.pool[index]? with
  | none => c
  | some lease => { c with pool := c.pool.set index (f lease) }

/-- `admit` for a transfer of the pool, with the references of its lease. The caller hands over a
transfer that it has not used. -/
def admission (c : LedgerCustody) (transfer : Option ℕ) (logicalBytes : ℕ) :
    Option TransitionPayloadLedgerAdmission :=
  match transfer with
  | none => some { transfer := none, logicalBytes }
  | some index =>
    match c.pool[index]? with
    | none => none
    | some lease =>
      if lease.adoptable then some { transfer := some (index, lease.refs), logicalBytes } else none

/-- One step. Only the ledger uses a transfer that it has admitted. -/
def step (c : LedgerCustody) : LedgerAction → LedgerCustody
  | .createLease holds => { c with pool := PayloadPool.create c.pool holds }
  | .transfer index => c.onLease index fun lease => lease.toTransfer.getD lease
  | .releaseLease index => c.onLease index (·.release)
  | .releaseTransfer index =>
    if index ∈ c.ledger.seenTransfers then c else c.onLease index (·.releaseTransfer)
  | .settleRelease index succeeded =>
    match c.pool[index]? with
    | none => c
    | some lease =>
      { c with
        pool := c.pool.set index (lease.settleRelease succeeded)
        attempted := c.attempted ++ lease.unsettled.take 1
        released := if succeeded then c.released ++ lease.unsettled.take 1 else c.released }
  | .admitPayload transfer logicalBytes =>
    match c.admission transfer logicalBytes with
    | none => c
    | some input =>
      match c.ledger.admitPayload input with
      | .ok _ ledger => { c with ledger }
      | .error _ ledger => { c with ledger }
  | .drainTo owner =>
    if c.ledger.currentState ≠ .open then c
    else
      let drain := TransitionPayloadLedger.drainEntries c.pool owner c.ledger.entries
      { c with
        ledger := c.ledger.afterDrain drain
        pool := drain.pool
        drainedInto := some drain.owner
        handedOver := c.handedOver ++ drain.handedOver }
  | .releaseRemaining =>
    { c with
      ledger := c.ledger.releaseRemaining
      pool := c.ledger.releaseStarts.foldl
        (fun pool index => pool.modify index (·.releaseTransfer)) c.pool }
  | .settleRemaining => { c with ledger := c.ledger.settleRemaining c.pool }

/-- The custody of a new ledger. -/
def initial (ledger : TransitionPayloadLedger) : LedgerCustody := { ledger }

/-- The custody after a run of a new ledger with these limits. -/
def run (serverEpoch : JsString)
    (maxPhysicalBytes maxPhysicalItems maxHeldItems maxLogicalBytes : ℕ)
    (actions : List LedgerAction) : LedgerCustody :=
  runFrom step
    (initial { serverEpoch, maxPhysicalBytes, maxPhysicalItems, maxHeldItems, maxLogicalBytes })
    actions

end LedgerCustody

end PiAgentWeb
