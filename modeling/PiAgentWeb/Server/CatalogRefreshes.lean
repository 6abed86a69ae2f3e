import PiAgentWeb.Library.Runs

/-!
# Refreshes of the native catalog

Plain and forced refreshes of one catalog, at the granularity of promise continuations. A discovery
ends, its snapshot is stored, and the refresh that ran it is cleared; the drain of the forced
requests awaits refreshes until every request is covered, and its shared promise is cleared one
continuation after it has returned. Discoveries are numbered in the order of their start, and a
snapshot stands for the discovery it came from.
-/

namespace PiAgentWeb

/-- How far a refresh is: its discovery, the `then` callback, the `finally` callback. -/
inductive RefreshStage where
  | discovering
  | discovered (fulfilled : Bool)
  | stored (fulfilled : Bool)
  | settled (fulfilled : Bool)
  deriving DecidableEq

/-- How far a drain is: it awaits a refresh that it found, or one of its own for the requests up to
a number; it has returned the answer of a discovery; its `finally` callback has run. -/
inductive DrainStage where
  | active (latest : Option ℕ) (refresh : ℕ)
  | own (latest : Option ℕ) (refresh coveredRequest : ℕ)
  | returned (fulfilled : Bool) (discovery : ℕ)
  | settled (fulfilled : Bool) (discovery : ℕ)
  deriving DecidableEq

/-- History: a forced request, the drain whose promise it returned, and the number of discoveries
that had started before it. -/
structure ForcedCall where
  drain : ℕ
  request : ℕ
  earlier : ℕ
  deriving DecidableEq

/-- The part of `NativeSessionCatalog` that `refresh` uses. A promise is the number of its refresh
or of its drain. -/
structure CatalogRefreshes where
  snapshot : Option ℕ
  refreshPromise : Option ℕ
  forcedRefreshPromise : Option ℕ
  forcedRefreshRequested : ℕ
  forcedRefreshCompleted : ℕ
  refreshes : List RefreshStage
  drains : List DrainStage
  calls : List ForcedCall
  deriving DecidableEq

/-- What happens to a catalog. -/
inductive CatalogRefreshAction where
  /-- `refresh({ force })`; `fresh`: the snapshot is not older than its time to live. -/
  | refresh (force fresh : Bool)
  /-- A discovery is fulfilled or rejected. -/
  | discover (refresh : ℕ) (fulfilled : Bool)
  /-- The `then` callback of a refresh. -/
  | store (refresh : ℕ)
  /-- The `finally` callback of a refresh. -/
  | clear (refresh : ℕ)
  /-- The continuation of a drain behind an `await`. -/
  | drain (drain : ℕ)
  /-- The `finally` callback of a drain. -/
  | clearForced (drain : ℕ)
  deriving DecidableEq

namespace CatalogRefreshes

/-- A new catalog. -/
def initial : CatalogRefreshes where
  snapshot := none
  refreshPromise := none
  forcedRefreshPromise := none
  forcedRefreshRequested := 0
  forcedRefreshCompleted := 0
  refreshes := []
  drains := []
  calls := []

/-- `startRefresh`: the discovery with the next number starts. -/
def startRefresh (s : CatalogRefreshes) : CatalogRefreshes :=
  { s with
    refreshPromise := some s.refreshes.length
    refreshes := s.refreshes ++ [.discovering] }

/-- A drain has come to its next stage. -/
def setDrain (s : CatalogRefreshes) (drain : ℕ) (stage : DrainStage) : CatalogRefreshes :=
  { s with drains := s.drains.set drain stage }

/-- The loop of `drainForcedRefreshes` behind its first `await`. -/
def afterActive (s : CatalogRefreshes) (drain : ℕ) (latest : Option ℕ) : CatalogRefreshes :=
  let coveredRequest := s.forcedRefreshRequested
  match if s.forcedRefreshCompleted ≥ coveredRequest then latest else none with
  | some discovery => s.setDrain drain (.returned true discovery)
  | none => s.startRefresh.setDrain drain (.own latest s.refreshes.length coveredRequest)

/-- The begin of the loop of `drainForcedRefreshes`. -/
def drainLoop (s : CatalogRefreshes) (drain : ℕ) (latest : Option ℕ) : CatalogRefreshes :=
  match s.refreshPromise with
  | some refresh => s.setDrain drain (.active latest refresh)
  | none => s.afterActive drain latest

/-- The end of the loop of `drainForcedRefreshes`: its own refresh has settled. -/
def afterOwn (s : CatalogRefreshes) (drain : ℕ) (latest : Option ℕ)
    (refresh coveredRequest : ℕ) (fulfilled : Bool) : CatalogRefreshes :=
  if fulfilled then
    let s := { s with forcedRefreshCompleted := coveredRequest }
    if s.forcedRefreshCompleted ≥ s.forcedRefreshRequested then
      s.setDrain drain (.returned true refresh)
    else s.drainLoop drain (some refresh)
  else if s.forcedRefreshRequested > coveredRequest then s.drainLoop drain latest
  else s.setDrain drain (.returned false refresh)

/-- A drain goes on if the refresh that it awaits has settled. -/
def continueDrain (s : CatalogRefreshes) (drain : ℕ) : CatalogRefreshes :=
  match s.drains[drain]? with
  | some (.active latest refresh) =>
    match s.refreshes[refresh]? with
    | some (.settled fulfilled) =>
      s.afterActive drain (if fulfilled then some refresh else latest)
    | _ => s
  | some (.own latest refresh coveredRequest) =>
    match s.refreshes[refresh]? with
    | some (.settled fulfilled) => s.afterOwn drain latest refresh coveredRequest fulfilled
    | _ => s
  | _ => s

/-- A forced request is recorded with the drain that will answer it. -/
def recordCall (s : CatalogRefreshes) (drain earlier : ℕ) : CatalogRefreshes :=
  { s with
    calls := s.calls ++
      [{ drain := drain, request := s.forcedRefreshRequested, earlier := earlier }] }

/-- `refresh({ force: true })`. A new drain runs up to its first `await` before its promise is
set. -/
def refreshForced (s : CatalogRefreshes) : CatalogRefreshes :=
  let earlier := s.refreshes.length
  let s := { s with forcedRefreshRequested := s.forcedRefreshRequested + 1 }
  match s.forcedRefreshPromise with
  | some drain => s.recordCall drain earlier
  | none =>
    let drain := s.drains.length
    let begun := { s with drains := s.drains ++ [DrainStage.active s.snapshot 0] }
    let s := begun.drainLoop drain s.snapshot
    { s with forcedRefreshPromise := some drain }.recordCall drain earlier

/-- `refresh()`. -/
def refreshPlain (s : CatalogRefreshes) (fresh : Bool) : CatalogRefreshes :=
  if fresh && s.snapshot.isSome then s
  else if s.forcedRefreshPromise.isSome then s
  else if s.refreshPromise.isSome then s
  else s.startRefresh

/-- A refresh has come to its next stage. -/
def setRefresh (s : CatalogRefreshes) (refresh : ℕ) (stage : RefreshStage) : CatalogRefreshes :=
  { s with refreshes := s.refreshes.set refresh stage }

/-- One step. -/
def step (s : CatalogRefreshes) : CatalogRefreshAction → CatalogRefreshes
  | .refresh force fresh => if force then s.refreshForced else s.refreshPlain fresh
  | .discover refresh fulfilled =>
    match s.refreshes[refresh]? with
    | some .discovering => s.setRefresh refresh (.discovered fulfilled)
    | _ => s
  | .store refresh =>
    match s.refreshes[refresh]? with
    | some (.discovered fulfilled) =>
      { s.setRefresh refresh (.stored fulfilled) with
        snapshot := if fulfilled then some refresh else s.snapshot }
    | _ => s
  | .clear refresh =>
    match s.refreshes[refresh]? with
    | some (.stored fulfilled) =>
      { s.setRefresh refresh (.settled fulfilled) with
        refreshPromise := if s.refreshPromise = some refresh then none else s.refreshPromise }
    | _ => s
  | .drain drain => s.continueDrain drain
  | .clearForced drain =>
    match s.drains[drain]? with
    | some (.returned fulfilled discovery) =>
      { s.setDrain drain (.settled fulfilled discovery) with
        forcedRefreshPromise :=
          if s.forcedRefreshPromise = some drain then none else s.forcedRefreshPromise }
    | _ => s

/-- The promise of the drain settles with the outcome of the discovery, or is bound to. -/
def Answers (s : CatalogRefreshes) (drain discovery : ℕ) : Prop :=
  ∃ fulfilled, s.drains[drain]? = some (.returned fulfilled discovery) ∨
    s.drains[drain]? = some (.settled fulfilled discovery)

/-- The forced request is answered by a discovery that started after it, if it is answered. -/
def Fresh (s : CatalogRefreshes) (call : ForcedCall) : Prop :=
  ∀ discovery, s.Answers call.drain discovery → call.earlier ≤ discovery

/-- The promise of the forced request has settled with the outcome of a discovery that has ended. -/
def Served (s : CatalogRefreshes) (call : ForcedCall) : Prop :=
  ∃ fulfilled discovery, s.drains[call.drain]? = some (.settled fulfilled discovery) ∧
    s.refreshes[discovery]? = some (.settled fulfilled)

/-- No forced request comes between the end of a drain, with a snapshot or an error, and its
`finally` callback. -/
def InTime (s : CatalogRefreshes) : CatalogRefreshAction → Prop
  | .refresh true _ => ∀ drain ∈ s.forcedRefreshPromise, ∀ fulfilled discovery,
      s.drains[drain]? ≠ some (.returned fulfilled discovery)
  | _ => True

/-- What is owed to the callers: every discovery ends, as the environment has it, and the
continuations behind it run. -/
def Owed (outcome : ℕ → Bool) : CatalogRefreshAction → Prop
  | .refresh _ _ => False
  | .discover refresh fulfilled => fulfilled = outcome refresh
  | _ => True

end CatalogRefreshes

end PiAgentWeb
