import PiAgentWeb.Server.Lease
import PiAgentWeb.Library.Runs

/-!
# The Session supervisor as a transition system

The pool of `SessionSupervisorCore`: runtime objects, the map that tracks them under Session
handles, the pool lock, and the lease table. An action is one synchronous stretch of the source
between two awaits. Whoever holds the pool lock while awaiting the lease actor is recorded as the
holder; actions that need the lock wait for it, lease operations, starts and publications do not.
What the rest of the process reports at a check (a deletion reservation, a recoverable file) is an
input of the action.
-/

namespace PiAgentWeb

/-- The serial number of a runtime object, in order of construction. -/
abbrev RuntimeId := ℕ

/-- A `SessionRuntimeCore`: its identity, and as history the Pi process it runs and the current
incarnation. A spawn begins a process and an incarnation; an identity transition keeps the process
and begins an incarnation. -/
structure SessionRuntime where
  sessionHandle : SessionHandle
  generation : ℕ
  /-- `target.kind` is `new`: Pi has not reported the canonical Session file. -/
  targetIsNew : Bool
  process : Option ℕ
  incarnation : ℕ
  deriving DecidableEq

/-- A Pi process under the identity its frames carry. -/
structure ProcessIdentity where
  sessionHandle : SessionHandle
  generation : ℕ
  process : ℕ
  deriving DecidableEq

/-- A section under the pool lock that awaits the lease actor, with what it captured. -/
inductive PoolHolder where
  | claim (runtime : RuntimeId) (sessionHandle : SessionHandle) (connectionId : ConnectionId)
  | takeover (runtime : RuntimeId) (sessionHandle : SessionHandle)
      (expectedGeneration expectedLeaseRevision : ℕ) (connectionId : ConnectionId)
  | rekey (previousHandle nextHandle : SessionHandle) (runtime : RuntimeId)
  | forget (sessionHandle : SessionHandle)
  deriving DecidableEq

/-- The state of a supervisor. -/
structure Supervisor where
  runtimes : InsertionMap SessionHandle RuntimeId
  objects : RuntimeId → SessionRuntime
  nextRuntime : RuntimeId
  /-- The supply of processes and incarnations. -/
  nextIncarnation : ℕ
  table : LeaseTable
  holder : Option PoolHolder
  /-- Every identity a process has run under. -/
  taken : List ProcessIdentity
  /-- Every identity frames were published under. -/
  published : List ProcessIdentity

/-- A handle of a Session that is still being created. -/
def SessionHandle.isPending (sessionHandle : SessionHandle) : Bool :=
  (js "pending_").isPrefixOf sessionHandle

/-- What `takeover` asks of the rest of the supervisor and of the runtime. -/
structure TakeoverChecks where
  aliased : Bool
  dormant : Bool
  deleting : Bool
  transitioning : Bool
  workspaceHasPendingIdentity : Bool
  recoverable : Bool
  hasSessionFile : Bool
  deriving DecidableEq

/-- What `commitIdentityTransition` asks of the rest of the supervisor. -/
structure TransitionChecks where
  workspaceReserved : Bool
  deleting : Bool
  deriving DecidableEq

/-- One synchronous stretch of the supervisor. -/
inductive SupervisorAction where
  /-- `ensureRuntime` tracks a runtime for a resolved Session. -/
  | activate (sessionHandle : SessionHandle)
  /-- `createSession` tracks a runtime under a temporary handle. -/
  | createSession (temporaryHandle : SessionHandle)
  /-- `SessionRuntime.spawn`. -/
  | spawn (runtime : RuntimeId)
  /-- `SessionRuntime.handleReady` of a new target: Pi reports the canonical handle. -/
  | ready (runtime : RuntimeId) (sessionHandle : SessionHandle)
  /-- `claimWithTransition` takes the pool lock. -/
  | claim (runtime : RuntimeId) (connectionId : ConnectionId) (deleting : Bool)
  /-- `takeover` takes the pool lock. -/
  | takeover (sessionHandle : SessionHandle) (expectedGeneration expectedLeaseRevision : ℕ)
      (connectionId : ConnectionId) (checks : TakeoverChecks)
  /-- `commitIdentityTransition` up to the lease actor. -/
  | identityTransition (runtime : RuntimeId) (nextHandle : SessionHandle)
      (checks : TransitionChecks)
  /-- `createSession` moves its runtime to the canonical handle, up to the lease actor. -/
  | commitNewSession (temporaryHandle : SessionHandle) (runtime : RuntimeId)
  /-- A deletion, an abandonment or the reaper stops tracking a handle. -/
  | forget (sessionHandle : SessionHandle)
  /-- The lease actor runs the body of the holder, which then leaves the pool lock. -/
  | leaseActor
  /-- A failed activation or creation stops tracking its runtime. -/
  | untrack (sessionHandle : SessionHandle) (runtime : RuntimeId)
  /-- `restart` replaces an overflowed runtime by one that continues its generation. -/
  | rebuild (sessionHandle : SessionHandle)
  | release (sessionHandle : SessionHandle) (connectionId : ConnectionId)
  | releaseExact (sessionHandle : SessionHandle) (connectionId : ConnectionId)
      (fencingToken : FencingToken) (releaseTransition : LeaseTransitionKind)
  | releaseConnection (connectionId : ConnectionId)
  /-- `reconcileLeaseGeneration` after an awaited start. -/
  | reconcile (runtime : RuntimeId)
  /-- The process of a runtime publishes a frame. -/
  | publish (runtime : RuntimeId)
  deriving DecidableEq

namespace Supervisor

/-- A new supervisor. -/
def initial : Supervisor where
  runtimes := InsertionMap.empty
  objects := fun _ =>
    { sessionHandle := [], generation := 0, targetIsNew := false, process := none,
      incarnation := 0 }
  nextRuntime := 0
  nextIncarnation := 1
  table := LeaseTable.empty
  holder := none
  taken := []
  published := []

/-- What the lease actor reads of a runtime. -/
def target (s : Supervisor) (runtime : RuntimeId) : LeaseTable.Target where
  generation := (s.objects runtime).generation
  incarnation := (s.objects runtime).incarnation

/-- The target of the runtime tracked under a handle. -/
def trackedTarget (s : Supervisor) (sessionHandle : SessionHandle) : Option LeaseTable.Target :=
  (s.runtimes.get? sessionHandle).map s.target

/-- Construct a runtime at generation zero and track it. -/
def track (s : Supervisor) (sessionHandle : SessionHandle) (targetIsNew : Bool) : Supervisor :=
  { s with
    runtimes := s.runtimes.insert sessionHandle s.nextRuntime
    objects := Function.update s.objects s.nextRuntime
      { sessionHandle := sessionHandle
        generation := 0
        targetIsNew := targetIsNew
        process := none
        incarnation := s.nextIncarnation }
    nextRuntime := s.nextRuntime + 1
    nextIncarnation := s.nextIncarnation + 1 }

/-- Record that a runtime's process runs under the runtime's identity. -/
def recordTaken (s : Supervisor) (runtime : RuntimeId) : Supervisor :=
  match (s.objects runtime).process with
  | none => s
  | some process =>
    { s with
      taken :=
        { sessionHandle := (s.objects runtime).sessionHandle
          generation := (s.objects runtime).generation
          process := process } :: s.taken }

/-- `SessionRuntime.spawn`: the next generation, with a process of its own. -/
def spawn (s : Supervisor) (runtime : RuntimeId) : Supervisor :=
  recordTaken
    { s with
      objects := Function.update s.objects runtime
        { s.objects runtime with
          generation := (s.objects runtime).generation + 1
          process := some s.nextIncarnation
          incarnation := s.nextIncarnation }
      nextIncarnation := s.nextIncarnation + 1 }
    runtime

/-- The first ready state that the process of a new target reports fixes the canonical handle. -/
def ready (s : Supervisor) (runtime : RuntimeId) (sessionHandle : SessionHandle) : Supervisor :=
  if (s.objects runtime).targetIsNew ∧ (s.objects runtime).process.isSome then
    recordTaken
      { s with
        objects := Function.update s.objects runtime
          { s.objects runtime with sessionHandle := sessionHandle, targetIsNew := false } }
      runtime
  else s

/-- The checks of `claimWithTransition` under the pool lock; the result is the canonical handle. -/
def admitClaim (s : Supervisor) (runtime : RuntimeId) (deleting : Bool) :
    Except RpcError SessionHandle :=
  let canonicalHandle := (s.objects runtime).sessionHandle
  if deleting then .error ⟨"claim", "session_deleting"⟩
  else if s.runtimes.get? canonicalHandle ≠ some runtime then
    .error ⟨"claim", "session_runtime_not_tracked"⟩
  else .ok canonicalHandle

/-- The checks of `takeover` under the pool lock; the result is the runtime. -/
def admitTakeover (s : Supervisor) (sessionHandle : SessionHandle) (expectedGeneration : ℕ)
    (checks : TakeoverChecks) : Except RpcError RuntimeId :=
  if checks.aliased then .error ⟨"takeover", "session_handle_stale"⟩
  else
    match s.runtimes.get? sessionHandle with
    | none => .error ⟨"takeover", "session_takeover_not_available"⟩
    | some runtime =>
      if (s.objects runtime).sessionHandle ≠ sessionHandle ∨ checks.dormant then
        .error ⟨"takeover", "session_takeover_not_available"⟩
      else if checks.deleting then .error ⟨"takeover", "session_deleting"⟩
      else if checks.transitioning ∨ checks.workspaceHasPendingIdentity ∨ ¬checks.recoverable ∨
          ¬checks.hasSessionFile ∨ sessionHandle.isPending then
        .error ⟨"takeover", "session_identity_uncertain"⟩
      else if (s.objects runtime).generation ≠ expectedGeneration then
        .error ⟨"takeover", "session_generation_stale"⟩
      else .ok runtime

/-- The checks of `commitIdentityTransition` under the pool lock. That a process runs and that the
handle changes is checked by the runtime before. -/
def admitTransition (s : Supervisor) (runtime : RuntimeId) (nextHandle : SessionHandle)
    (checks : TransitionChecks) : Except RpcError Unit :=
  if ¬checks.workspaceReserved then
    .error ⟨"session_transition", "workspace_transition_reservation_lost"⟩
  else if s.runtimes.get? (s.objects runtime).sessionHandle ≠ some runtime then
    .error ⟨"session_transition", "parent_runtime_ownership_changed"⟩
  else if checks.deleting then .error ⟨"session_transition", "session_deleting"⟩
  else if (s.runtimes.get? nextHandle).any (· ≠ runtime) then
    .error ⟨"session_transition", "canonical_session_already_active"⟩
  else .ok ()

/-- The checks with which `createSession` commits the identity of its runtime. -/
def admitNewSession (s : Supervisor) (temporaryHandle : SessionHandle) (runtime : RuntimeId) :
    Except RpcError Unit :=
  if s.runtimes.get? temporaryHandle ≠ some runtime then
    .error ⟨"new_session", "new session runtime lost before identity commit"⟩
  else if (s.runtimes.get? (s.objects runtime).sessionHandle).any (· ≠ runtime) then
    .error ⟨"new_session", "canonical_session_already_active"⟩
  else .ok ()

/-- `rekeyRuntime` up to the lease actor: track the runtime under its own handle. -/
def beginRekey (s : Supervisor) (previousHandle : SessionHandle) (runtime : RuntimeId) :
    Supervisor :=
  let nextHandle := (s.objects runtime).sessionHandle
  { s with
    runtimes := (s.runtimes.erase previousHandle).insert nextHandle runtime
    holder := some (.rekey previousHandle nextHandle runtime) }

/-- When a rekey begins, the moved runtime is tracked at its own handle and the others stay. -/
theorem beginRekey_cases {s : Supervisor} {previousHandle : SessionHandle} {id id' : RuntimeId}
    (hunique : ∀ {k}, s.runtimes.get? k = some id → k = previousHandle) {k : SessionHandle}
    (hget : (s.beginRekey previousHandle id).runtimes.get? k = some id') :
    (k = (s.objects id).sessionHandle ∧ id' = id) ∨
      (k ≠ (s.objects id).sessionHandle ∧ id' ≠ id ∧ s.runtimes.get? k = some id') := by
  simp only [beginRekey, InsertionMap.get?_insert] at hget
  by_cases hk : k = (s.objects id).sessionHandle
  · rw [if_pos hk] at hget
    exact Or.inl ⟨hk, (Option.some.inj hget).symm⟩
  · rw [if_neg hk, InsertionMap.get?_erase] at hget
    by_cases hprevious : k = previousHandle
    · rw [if_pos hprevious] at hget
      cases hget
    · rw [if_neg hprevious] at hget
      refine Or.inr ⟨hk, ?_, hget⟩
      rintro rfl
      exact hprevious (hunique hget)

/-- `adoptTransitionTarget`: the same process, under another handle and the next generation. -/
def adoptTransitionTarget (s : Supervisor) (runtime : RuntimeId) (nextHandle : SessionHandle) :
    Supervisor :=
  recordTaken
    { s with
      objects := Function.update s.objects runtime
        { s.objects runtime with
          sessionHandle := nextHandle
          generation := (s.objects runtime).generation + 1
          incarnation := s.nextIncarnation }
      nextIncarnation := s.nextIncarnation + 1 }
    runtime

/-- The lease table after the body that the holder of the pool lock awaits. -/
def holderBody (s : Supervisor) : PoolHolder → LeaseTable
  | .claim runtime sessionHandle connectionId =>
    (s.table.claim sessionHandle (s.target runtime) connectionId).1
  | .takeover runtime sessionHandle _ expectedLeaseRevision connectionId =>
    (s.table.takeover sessionHandle (s.target runtime) expectedLeaseRevision connectionId).1
  | .rekey previousHandle nextHandle runtime =>
    (s.table.rekey previousHandle nextHandle (s.target runtime)).1
  | .forget sessionHandle => s.table.delete sessionHandle

/-- One action. An action that the source would refuse or keep waiting changes nothing. -/
def step (s : Supervisor) : SupervisorAction → Supervisor
  | .activate sessionHandle =>
    if s.holder.isNone ∧ s.runtimes.get? sessionHandle = none then s.track sessionHandle false
    else s
  | .createSession temporaryHandle =>
    if s.holder.isNone ∧ s.runtimes.get? temporaryHandle = none ∧ temporaryHandle.isPending then
      s.track temporaryHandle true
    else s
  | .spawn runtime => if runtime < s.nextRuntime then s.spawn runtime else s
  | .ready runtime sessionHandle => s.ready runtime sessionHandle
  | .claim runtime connectionId deleting =>
    if s.holder.isNone then
      match s.admitClaim runtime deleting with
      | .error _ => s
      | .ok canonicalHandle =>
        { s with holder := some (.claim runtime canonicalHandle connectionId) }
    else s
  | .takeover sessionHandle expectedGeneration expectedLeaseRevision connectionId checks =>
    if s.holder.isNone then
      match s.admitTakeover sessionHandle expectedGeneration checks with
      | .error _ => s
      | .ok runtime =>
        { s with
          holder := some (.takeover runtime sessionHandle expectedGeneration
            expectedLeaseRevision connectionId) }
    else s
  | .identityTransition runtime nextHandle checks =>
    if s.holder.isNone ∧ (s.objects runtime).process.isSome ∧
        nextHandle ≠ (s.objects runtime).sessionHandle then
      match s.admitTransition runtime nextHandle checks with
      | .error _ => s
      | .ok () =>
        (s.adoptTransitionTarget runtime nextHandle).beginRekey
          (s.objects runtime).sessionHandle runtime
    else s
  | .commitNewSession temporaryHandle runtime =>
    if s.holder.isNone then
      match s.admitNewSession temporaryHandle runtime with
      | .error _ => s
      | .ok () => s.beginRekey temporaryHandle runtime
    else s
  | .forget sessionHandle =>
    if s.holder.isNone then
      { s with
        runtimes := s.runtimes.erase sessionHandle
        holder := some (.forget sessionHandle) }
    else s
  | .leaseActor =>
    match s.holder with
    | none => s
    | some holder => { s with table := s.holderBody holder, holder := none }
  | .untrack sessionHandle runtime =>
    if s.runtimes.get? sessionHandle = some runtime then
      { s with runtimes := s.runtimes.erase sessionHandle }
    else s
  | .rebuild sessionHandle =>
    match s.holder, s.runtimes.get? sessionHandle with
    | none, some existing =>
      { s with
        runtimes := s.runtimes.insert sessionHandle s.nextRuntime
        objects := Function.update s.objects s.nextRuntime
          { s.objects existing with targetIsNew := false, process := none }
        nextRuntime := s.nextRuntime + 1 }
    | _, _ => s
  | .release sessionHandle connectionId =>
    { s with
      table := (s.table.release sessionHandle (s.trackedTarget sessionHandle) connectionId).1 }
  | .releaseExact sessionHandle connectionId fencingToken releaseTransition =>
    { s with
      table := (s.table.releaseExact sessionHandle (s.trackedTarget sessionHandle) connectionId
        fencingToken releaseTransition).1 }
  | .releaseConnection connectionId =>
    { s with table := (s.table.releaseConnection connectionId).1 }
  | .reconcile runtime =>
    { s with
      table := s.table.reconcileLeaseGeneration (s.objects runtime).sessionHandle
        (s.objects runtime).generation }
  | .publish runtime =>
    match (s.objects runtime).process with
    | none => s
    | some process =>
      { s with
        published :=
          { sessionHandle := (s.objects runtime).sessionHandle
            generation := (s.objects runtime).generation
            process := process } :: s.published }

section Lemmas

variable {s : Supervisor}

@[simp] theorem recordTaken_runtimes (s : Supervisor) (id : RuntimeId) :
    (s.recordTaken id).runtimes = s.runtimes := by
  unfold recordTaken
  split <;> rfl

@[simp] theorem recordTaken_objects (s : Supervisor) (id : RuntimeId) :
    (s.recordTaken id).objects = s.objects := by
  unfold recordTaken
  split <;> rfl

@[simp] theorem recordTaken_table (s : Supervisor) (id : RuntimeId) :
    (s.recordTaken id).table = s.table := by
  unfold recordTaken
  split <;> rfl

@[simp] theorem recordTaken_holder (s : Supervisor) (id : RuntimeId) :
    (s.recordTaken id).holder = s.holder := by
  unfold recordTaken
  split <;> rfl

@[simp] theorem recordTaken_nextIncarnation (s : Supervisor) (id : RuntimeId) :
    (s.recordTaken id).nextIncarnation = s.nextIncarnation := by
  unfold recordTaken
  split <;> rfl

theorem admitClaim_tracked {runtime : RuntimeId} {deleting : Bool} {k : SessionHandle}
    (h : s.admitClaim runtime deleting = .ok k) : s.runtimes.get? k = some runtime := by
  unfold admitClaim at h
  dsimp only at h
  split at h
  · cases h
  · split at h
    · cases h
    · rename_i htracked
      cases h
      exact not_not.mp htracked

/-- A takeover passes its checks only for a runtime tracked under its own handle, at the generation
it expects. -/
theorem admitTakeover_tracked {k : SessionHandle} {generation : ℕ} {checks : TakeoverChecks}
    {runtime : RuntimeId} (h : s.admitTakeover k generation checks = .ok runtime) :
    s.runtimes.get? k = some runtime ∧ (s.objects runtime).generation = generation := by
  unfold admitTakeover at h
  split at h
  · cases h
  · split at h
    · cases h
    · rename_i runtime' hget
      split at h
      · cases h
      · split at h
        · cases h
        · split at h
          · cases h
          · split at h
            · cases h
            · rename_i hgen
              cases h
              exact ⟨hget, not_not.mp hgen⟩

theorem admitTransition_tracked {runtime : RuntimeId} {nextHandle : SessionHandle}
    {checks : TransitionChecks} (h : s.admitTransition runtime nextHandle checks = .ok ()) :
    s.runtimes.get? (s.objects runtime).sessionHandle = some runtime := by
  unfold admitTransition at h
  split at h
  · cases h
  · split at h
    · cases h
    · rename_i htracked
      exact not_not.mp htracked

theorem admitNewSession_tracked {temporaryHandle : SessionHandle} {runtime : RuntimeId}
    (h : s.admitNewSession temporaryHandle runtime = .ok ()) :
    s.runtimes.get? temporaryHandle = some runtime := by
  unfold admitNewSession at h
  split at h
  · cases h
  · rename_i htracked
    exact not_not.mp htracked

theorem get?_of_get?_erase {k₀ k : SessionHandle} {id : RuntimeId}
    (hget : (s.runtimes.erase k₀).get? k = some id) : s.runtimes.get? k = some id := by
  rw [InsertionMap.get?_erase] at hget
  split at hget
  · cases hget
  · exact hget

end Lemmas

/-- The state after a run of a new supervisor. -/
def run (actions : List SupervisorAction) : Supervisor := runFrom step initial actions

/-- `assertLease` lets a connection write to a runtime under a fencing token. -/
def Accepts (s : Supervisor) (runtime : RuntimeId) (connectionId : ConnectionId)
    (fencingToken : FencingToken) : Prop :=
  ∃ command, s.table.assertLease (s.objects runtime).sessionHandle
    (s.objects runtime).generation command connectionId (some fencingToken) = .ok ()

/-- The pool tracks the runtime under the runtime's own handle. -/
def Tracked (s : Supervisor) (runtime : RuntimeId) : Prop :=
  s.runtimes.get? (s.objects runtime).sessionHandle = some runtime

end Supervisor

end PiAgentWeb
