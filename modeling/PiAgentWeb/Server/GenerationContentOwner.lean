import PiAgentWeb.Library.InsertionMap
import PiAgentWeb.Library.Runs
import PiAgentWeb.Server.PayloadLease

/-!
# The content owner of one generation

`generation-content-owner.ts`. Adoption is synchronous; the clean-up of duplicates and the release
of everything run on, one awaited hold release at a time. Where `release` stands between two awaits
is part of the state. A hold release is settled by the environment, which says whether it
succeeded.
-/

namespace PiAgentWeb

/-- `OwnerState`. -/
inductive OwnerState where
  | active
  | adopting
  | sealed
  | poisoned
  | closing
  | closed
  deriving DecidableEq

/-- `OwnedContent`. -/
structure OwnedContent where
  ref : EpochStoredContentRef
  hold : EpochContentHold
  deriving DecidableEq

/-- Where the asynchronous part of `release` stands: it awaits the duplicate clean-ups that were in
flight when it began, or the retries of the duplicates that are left, or the release of the primary
hold at an index; at last its promise is settled. -/
inductive ReleaseAttempt where
  | awaitingDuplicates (cleanups : List EpochContentHold)
  | retryingDuplicates (inFlight : List EpochContentHold) (failures : ℕ)
  | releasingPrimary (index : ℕ) (failures : ℕ)
  | settled (succeeded : Bool)
  deriving DecidableEq

/-- `GenerationContentOwner`. A clean-up that was enqueued for a duplicate stays in the map, marked
as settled, until its `finally` removes it. -/
structure GenerationContentOwner where
  serverEpoch : JsString
  byContentKey : InsertionMap (ContentNamespace × JsString) OwnedContent := InsertionMap.empty
  primaryHolds : List EpochContentHold := []
  duplicateHolds : List EpochContentHold := []
  ownedHolds : List EpochContentHold := []
  duplicateCleanupInFlight : List (EpochContentHold × Bool) := []
  state : OwnerState := .active
  fatalCleanupSignaled : Bool := false
  releasePromise : Option ReleaseAttempt := none
  deriving DecidableEq

/-- What `prepareAdoption` has sorted so far. -/
structure PreparedAdoption where
  additions : List OwnedContent := []
  duplicates : List EpochContentHold := []
  stagedByContentKey : InsertionMap (ContentNamespace × JsString) OwnedContent := InsertionMap.empty
  seenHolds : List EpochContentHold := []
  deriving DecidableEq

namespace GenerationContentOwner

/-- One iteration of `prepareAdoption`; it throws on a pair that is not exact, on a hold that is
registered, and on a digest with other metadata. -/
def prepareEntry (owner : GenerationContentOwner) (prepared : PreparedAdoption)
    (candidateRef : EpochStoredContentRef) (candidateHold : EpochContentHold) :
    Option PreparedAdoption :=
  if !isStoredContentRef candidateRef || !isStoredContentRef candidateHold.ref ||
      candidateRef.serverEpoch != owner.serverEpoch ||
        !refsEqual candidateRef candidateHold.ref then
    none
  else if candidateHold ∈ prepared.seenHolds ∨ candidateHold ∈ owner.ownedHolds then none
  else
    let seenHolds := prepared.seenHolds ++ [candidateHold]
    let key := contentKey candidateRef
    match (owner.byContentKey.get? key).or (prepared.stagedByContentKey.get? key) with
    | some existing =>
      if !refsEqual existing.ref candidateRef then none
      else some { prepared with duplicates := prepared.duplicates ++ [candidateHold], seenHolds }
    | none =>
      let addition : OwnedContent := { ref := candidateRef, hold := candidateHold }
      some {
        additions := prepared.additions ++ [addition]
        duplicates := prepared.duplicates
        stagedByContentKey := prepared.stagedByContentKey.insert key addition
        seenHolds }

/-- The loop of `prepareAdoption`. -/
def prepareEntries (owner : GenerationContentOwner) (prepared : PreparedAdoption) :
    List (EpochStoredContentRef × EpochContentHold) → Option PreparedAdoption
  | [] => some prepared
  | (ref, hold) :: rest =>
    match owner.prepareEntry prepared ref hold with
    | none => none
    | some next => owner.prepareEntries next rest

/-- `prepareAdoption`. -/
def prepareAdoption (owner : GenerationContentOwner) (refs : List EpochStoredContentRef)
    (holds : List EpochContentHold) : Option PreparedAdoption :=
  if refs.length ≠ holds.length then none else owner.prepareEntries {} (refs.zip holds)

/-- `enqueueDuplicateCleanup`: every duplicate gets a clean-up in flight, the last one first. -/
def enqueueDuplicateCleanup (owner : GenerationContentOwner) (duplicates : List EpochContentHold) :
    GenerationContentOwner :=
  { owner with
    duplicateCleanupInFlight :=
      owner.duplicateCleanupInFlight ++ duplicates.reverse.map fun entry => (entry, false) }

/-- What the adoption callback commits once the preflight has passed. -/
def commitAdoption (owner : GenerationContentOwner) (prepared : PreparedAdoption) :
    GenerationContentOwner :=
  { owner with
    byContentKey := prepared.additions.foldl
      (fun byContentKey entry => byContentKey.insert (contentKey entry.ref) entry)
      owner.byContentKey
    primaryHolds := owner.primaryHolds ++ prepared.additions.map (·.hold)
    duplicateHolds := owner.duplicateHolds ++ prepared.duplicates
    ownedHolds := owner.ownedHolds ++ prepared.additions.map (·.hold) ++ prepared.duplicates
    state := .active : GenerationContentOwner }.enqueueDuplicateCleanup prepared.duplicates

/-- `adopt`: only an active owner adopts; a callback that throws leaves it active as it was. The
result is `none` when `adopt` throws. -/
def adopt (owner : GenerationContentOwner) (lease : PiPayloadLease) :
    PiPayloadLease × Option GenerationContentOwner :=
  if owner.state ≠ .active then (lease, none)
  else
    lease.adopt <|
      match owner.prepareAdoption lease.refs lease.holds with
      | none => none
      | some prepared => some (owner.commitAdoption prepared)

/-- `seal`; it throws unless the owner is active or sealed. -/
def sealOwner (owner : GenerationContentOwner) : GenerationContentOwner :=
  if owner.state = .active then { owner with state := .sealed } else owner

/-- The synchronous part of `release`: an attempt that runs is shared, a closed owner stays so. -/
def release (owner : GenerationContentOwner) : GenerationContentOwner :=
  if owner.state = .adopting ∨ owner.releasePromise.isSome = true ∨ owner.state = .closed then owner
  else
    { owner with
      state := .closing
      byContentKey := InsertionMap.empty
      releasePromise := some (.awaitingDuplicates (owner.duplicateCleanupInFlight.map (·.1))) }

/-- A duplicate that was released is neither a duplicate nor owned any more. -/
def dropDuplicate (owner : GenerationContentOwner) (entry : EpochContentHold) :
    GenerationContentOwner :=
  { owner with
    duplicateHolds := owner.duplicateHolds.filter (· != entry)
    ownedHolds := owner.ownedHolds.filter (· != entry) }

/-- `poison`. -/
def poison (owner : GenerationContentOwner) : GenerationContentOwner :=
  { owner with
    state := if owner.state = .active ∨ owner.state = .sealed then .poisoned else owner.state
    fatalCleanupSignaled := true }

/-- The hold release that `releaseDuplicate` awaits is settled. -/
def settleDuplicate (owner : GenerationContentOwner) (entry : EpochContentHold)
    (succeeded : Bool) : GenerationContentOwner :=
  let settled : GenerationContentOwner := { owner with
    duplicateCleanupInFlight := owner.duplicateCleanupInFlight.map fun cleanup =>
      if cleanup.1 = entry then (entry, true) else cleanup }
  if succeeded then settled.dropDuplicate entry else settled.poison

/-- The `finally` of a duplicate clean-up. -/
def forgetCleanup (owner : GenerationContentOwner) (entry : EpochContentHold) :
    GenerationContentOwner :=
  { owner with
    duplicateCleanupInFlight := owner.duplicateCleanupInFlight.filter (· != (entry, true)) }

/-- The highest index below a bound whose primary hold is still owned. -/
def nextPrimary (owner : GenerationContentOwner) : ℕ → Option ℕ
  | 0 => none
  | index + 1 =>
    match owner.primaryHolds[index]? with
    | none => owner.nextPrimary index
    | some entry => if entry ∈ owner.ownedHolds then some index else owner.nextPrimary index

/-- The loop of `release` over the primary holds, up to its next await or to the end. -/
def releasePrimaries (owner : GenerationContentOwner) (below failures : ℕ) :
    GenerationContentOwner :=
  match owner.nextPrimary below with
  | some index => { owner with releasePromise := some (.releasingPrimary index failures) }
  | none =>
    if 0 < failures then { owner with releasePromise := some (.settled false) }
    else
      { owner with
        primaryHolds := []
        state := .closed
        releasePromise := some (.settled true) }

/-- A `Promise.all` of the attempt resolves: after the clean-ups every duplicate that is left is
retried at once, and after the retries the loop over the primary holds begins. -/
def resumeRelease (owner : GenerationContentOwner) : GenerationContentOwner :=
  match owner.releasePromise with
  | some (.awaitingDuplicates cleanups) =>
    if cleanups.any fun entry => owner.duplicateCleanupInFlight.contains (entry, false) then owner
    else
      { owner with releasePromise := some (.retryingDuplicates owner.duplicateHolds.reverse 0) }
  | some (.retryingDuplicates [] failures) =>
    owner.releasePrimaries owner.primaryHolds.length failures
  | _ => owner

/-- The retry of a duplicate is settled. -/
def settleRetry (owner : GenerationContentOwner) (entry : EpochContentHold) (succeeded : Bool) :
    GenerationContentOwner :=
  match owner.releasePromise with
  | some (.retryingDuplicates inFlight failures) =>
    let left := inFlight.filter (· != entry)
    if succeeded then
      { owner.dropDuplicate entry with
        releasePromise := some (.retryingDuplicates left failures) }
    else { owner with releasePromise := some (.retryingDuplicates left (failures + 1)) }
  | _ => owner

/-- The release of a primary hold is settled, and the loop goes on below it. -/
def settlePrimary (owner : GenerationContentOwner) (entry : EpochContentHold) (succeeded : Bool) :
    GenerationContentOwner :=
  match owner.releasePromise with
  | some (.releasingPrimary index failures) =>
    if succeeded then
      { owner with ownedHolds := owner.ownedHolds.filter (· != entry) }.releasePrimaries index
        failures
    else owner.releasePrimaries index (failures + 1)
  | _ => owner

/-- The `finally` of the attempt: it may be retried unless the owner is closed. -/
def finishRelease (owner : GenerationContentOwner) : GenerationContentOwner :=
  match owner.releasePromise with
  | some (.settled _) =>
    { owner with
      releasePromise := none
      state := if owner.state = .closed then .closed else .poisoned }
  | _ => owner

/-- The hold releases that are in flight: those of duplicate clean-ups that are not settled, and
those that the attempt awaits. -/
def releasesInFlight (owner : GenerationContentOwner) : List EpochContentHold :=
  (owner.duplicateCleanupInFlight.filter (!·.2)).map (·.1) ++
    match owner.releasePromise with
    | some (.retryingDuplicates inFlight _) => inFlight
    | some (.releasingPrimary index _) => (owner.primaryHolds[index]?).toList
    | _ => []

end GenerationContentOwner

/-! ## Runs -/

/-- An owner among the leases it may adopt, with the history of its holds: those it adopted, those
whose release succeeded, and whether `release` was ever called. -/
structure OwnedGeneration where
  owner : GenerationContentOwner
  pool : PayloadPool := []
  adopted : List EpochContentHold := []
  released : List EpochContentHold := []
  closeRequested : Bool := false
  deriving DecidableEq

/-- What can happen to an owner and to the leases around it. -/
inductive OwnerAction where
  | createLease (holds : List EpochContentHold)
  | transfer (lease : ℕ)
  | releaseTransfer (lease : ℕ)
  | adopt (lease : ℕ)
  | sealOwner
  | release
  | settleDuplicate (hold : EpochContentHold) (succeeded : Bool)
  | forgetCleanup (hold : EpochContentHold)
  | resumeRelease
  | settleRetry (hold : EpochContentHold) (succeeded : Bool)
  | settlePrimary (hold : EpochContentHold) (succeeded : Bool)
  | finishRelease
  deriving DecidableEq

namespace OwnedGeneration

/-- A hold release that succeeds is recorded. -/
def record (g : OwnedGeneration) (hold : EpochContentHold) (succeeded : Bool)
    (owner : GenerationContentOwner) : OwnedGeneration :=
  { g with owner, released := if succeeded then g.released ++ [hold] else g.released }

/-- A change of one lease of the pool. -/
def onLease (g : OwnedGeneration) (index : ℕ) (f : PiPayloadLease → PiPayloadLease) :
    OwnedGeneration :=
  match g.pool[index]? with
  | none => g
  | some lease => { g with pool := g.pool.set index (f lease) }

/-- One step. A hold release is settled only while it is in flight. -/
def step (g : OwnedGeneration) : OwnerAction → OwnedGeneration
  | .createLease holds => { g with pool := PayloadPool.create g.pool holds }
  | .transfer index => g.onLease index fun lease => lease.toTransfer.getD lease
  | .releaseTransfer index => g.onLease index (·.releaseTransfer)
  | .adopt index =>
    match g.pool[index]? with
    | none => g
    | some lease =>
      match g.owner.adopt lease with
      | (next, none) => { g with pool := g.pool.set index next }
      | (next, some owner) =>
        { g with pool := g.pool.set index next, owner, adopted := g.adopted ++ lease.holds }
  | .sealOwner => { g with owner := g.owner.sealOwner }
  | .release => { g with owner := g.owner.release, closeRequested := true }
  | .settleDuplicate hold succeeded =>
    if (hold, false) ∈ g.owner.duplicateCleanupInFlight then
      g.record hold succeeded (g.owner.settleDuplicate hold succeeded)
    else g
  | .forgetCleanup hold => { g with owner := g.owner.forgetCleanup hold }
  | .resumeRelease => { g with owner := g.owner.resumeRelease }
  | .settleRetry hold succeeded =>
    match g.owner.releasePromise with
    | some (.retryingDuplicates inFlight _) =>
      if hold ∈ inFlight then g.record hold succeeded (g.owner.settleRetry hold succeeded) else g
    | _ => g
  | .settlePrimary hold succeeded =>
    match g.owner.releasePromise with
    | some (.releasingPrimary index _) =>
      if g.owner.primaryHolds[index]? = some hold then
        g.record hold succeeded (g.owner.settlePrimary hold succeeded)
      else g
    | _ => g
  | .finishRelease => { g with owner := g.owner.finishRelease }

/-- The generation of a new owner. -/
def initial (serverEpoch : JsString) : OwnedGeneration where
  owner := { serverEpoch }

/-- The generation after a run. -/
def run (serverEpoch : JsString) (actions : List OwnerAction) : OwnedGeneration :=
  runFrom step (initial serverEpoch) actions

end OwnedGeneration

end PiAgentWeb
