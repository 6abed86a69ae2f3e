import PiAgentWeb.Library.InsertionMap
import PiAgentWeb.Library.JsValue
import PiAgentWeb.Library.Runs

/-!
# The directory store

`session-directory.ts`: Workspaces and Sessions are listed by requests that are answered later, in
any order, while the user navigates. A counter fences the requests for Workspaces, a map by
Workspace those for Sessions, and a navigation token the selection. A created Session that is not
wanted any more is discarded, which takes time as well. Requests are numbered. Whether a request was
invalidated, its Workspace removed, or a navigation has taken place since a request or a
creation started is kept in history variables.
-/

namespace PiAgentWeb

/-- `NativeWorkspaceDto`, as far as the store reads it. -/
structure NativeWorkspaceDto where
  workspaceHandle : JsString
  lastOpenedAt : Option JsString
  sessionCount : ℕ
  hasNativeHistory : Bool
  deriving DecidableEq

/-- `NativeSessionDto`, as far as the store reads it: whether it has a first message or a name, and
the time that `modifiedAt` stands for. -/
structure NativeSessionDto where
  sessionHandle : JsString
  workspaceHandle : JsString
  persisted : Bool
  messageCount : ℕ
  hasText : Bool
  modifiedTime : ℤ
  deriving DecidableEq

/-- `preferredWorkspace`. -/
def preferredWorkspace (workspaces : List NativeWorkspaceDto) : Option NativeWorkspaceDto :=
  workspaces.foldl (fun preferred candidate =>
    match preferred with
    | none => some candidate
    | some preferred =>
      match candidate.lastOpenedAt, preferred.lastOpenedAt with
      | none, _ => some preferred
      | some _, none => some candidate
      | some opened, some before => if before < opened then some candidate else some preferred) none

/-- `isDirectorySession`. -/
def isDirectorySession (session : NativeSessionDto) : Bool :=
  session.persisted && (0 < session.messageCount || session.hasText)

/-- A list sorted by `byMostRecent`. -/
def sortByMostRecent (sessions : List NativeSessionDto) : List NativeSessionDto :=
  sessions.mergeSort fun left right => right.modifiedTime ≤ left.modifiedTime

/-- `mergeSession`. -/
def mergeSession (sessions : List NativeSessionDto) (session : NativeSessionDto) :
    List NativeSessionDto :=
  sortByMostRecent
    (session :: sessions.filter fun candidate => candidate.sessionHandle ≠ session.sessionHandle)

/-- One call of `reloadSessions`. -/
structure SessionListRequest where
  workspaceHandle : JsString
  navigationToken : ℕ
  pending : Bool
  invalidated : Bool
  removed : Bool
  deriving DecidableEq

/-- One call of `loadWorkspaces`. -/
structure WorkspaceListRequest where
  number : ℕ
  navigationToken : ℕ
  pending : Bool
  invalidated : Bool
  navigated : Bool
  deriving DecidableEq

/-- `SessionCreationIntent`. -/
structure SessionCreationIntent where
  token : ℕ
  workspaceHandle : JsString
  deriving DecidableEq

/-- One call of `beginSessionCreation`. -/
structure SessionCreation where
  token : ℕ
  navigated : Bool
  deriving DecidableEq

/-- One call of `discardStaleCreatedSession`. -/
structure StaleCreatedSession where
  session : NativeSessionDto
  pending : Bool
  deriving DecidableEq

/-- How a discard ends: the Session is abandoned, and removed from the Workspace of its runtime; it
is being abandoned by another call; or it cannot be, and its channel is released. -/
inductive DiscardEnd where
  | abandoned (workspaceHandle : JsString)
  | joined
  | released

/-- The store, its counters, its requests, creations and discards so far. -/
structure SessionDirectoryState where
  workspaces : List NativeWorkspaceDto
  currentWorkspaceHandle : Option JsString
  currentSession : Option NativeSessionDto
  sessionsByWorkspace : InsertionMap JsString (List NativeSessionDto)
  navigationToken : ℕ
  sessionCreation : Option SessionCreationIntent
  loadingWorkspaces : Bool
  loadingSessions : Bool
  error : Option JsString
  workspaceRequestCounter : ℕ
  sessionRequestByWorkspace : InsertionMap JsString ℕ
  sessionRequests : List SessionListRequest
  workspaceRequests : List WorkspaceListRequest
  creations : List SessionCreation
  discards : List StaleCreatedSession
  deriving DecidableEq

/-- What happens. The answer of a request comes with what `isCurrent` of its options says then. -/
inductive DirectoryAction where
  | reloadSessions (workspaceHandle : Option JsString)
  | sessionsAnswered (request : ℕ) (answer : Except JsString (List NativeSessionDto))
      (isCurrent : Bool)
  | loadWorkspaces
  | workspacesAnswered (request : ℕ) (answer : Except JsString (List NativeWorkspaceDto))
      (isCurrent : Bool)
  | invalidateDirectoryRequests
  /-- The request of `removeWorkspace` is answered. -/
  | workspaceRemoved (workspaceHandle : JsString)
  /-- `removeWorkspace` has released the Sessions of the Workspace. -/
  | removeWorkspace (workspaceHandle : JsString)
  | selectWorkspace (workspaceHandle : JsString)
  /-- The activation of a selected Workspace is answered. -/
  | activated (workspace : NativeWorkspaceDto)
  /-- The activation of a Workspace fails that was selected under a token. -/
  | activationFailed (navigationToken : ℕ) (error : JsString)
  | selectSession (session : Option NativeSessionDto)
  | beginSessionCreation (workspaceHandle : JsString)
  | completeSessionCreation (token : ℕ) (session : NativeSessionDto)
  | failSessionCreation (token : ℕ)
  /-- A call of `discardStaleCreatedSession` comes to its end. -/
  | discardSettled (n : ℕ) (ending : DiscardEnd)
  /-- A Session is removed that was abandoned when its view was left, or deleted. -/
  | removeSession (workspaceHandle sessionHandle : JsString)

namespace SessionDirectoryState

/-- The store at the start. -/
def create : SessionDirectoryState where
  workspaces := []
  currentWorkspaceHandle := none
  currentSession := none
  sessionsByWorkspace := .empty
  navigationToken := 0
  sessionCreation := none
  loadingWorkspaces := false
  loadingSessions := false
  error := none
  workspaceRequestCounter := 0
  sessionRequestByWorkspace := .empty
  sessionRequests := []
  workspaceRequests := []
  creations := []
  discards := []

variable (s : SessionDirectoryState)

/-- `invalidateDirectoryRequests`. -/
def invalidateDirectoryRequests : SessionDirectoryState :=
  { s with
    workspaceRequestCounter := s.workspaceRequestCounter + 1
    sessionRequestByWorkspace := .empty
    loadingWorkspaces := false
    loadingSessions := false
    sessionRequests := s.sessionRequests.map fun request => { request with invalidated := true }
    workspaceRequests := s.workspaceRequests.map fun request =>
      { request with invalidated := true } }

/-- `nextNavigationToken`. A creation under way is given up. -/
def navigate : SessionDirectoryState :=
  { s with
    navigationToken := s.navigationToken + 1
    sessionCreation := none
    workspaceRequests := s.workspaceRequests.map fun request => { request with navigated := true }
    creations := s.creations.map fun creation => { creation with navigated := true } }

/-- `reloadSessions` of a Workspace. -/
def reload (workspaceHandle : JsString) : SessionDirectoryState :=
  { s with
    loadingSessions := s.loadingSessions || s.currentWorkspaceHandle = some workspaceHandle
    sessionRequestByWorkspace :=
      s.sessionRequestByWorkspace.insert workspaceHandle s.sessionRequests.length
    sessionRequests := s.sessionRequests ++
      [{ workspaceHandle := workspaceHandle
         navigationToken := s.navigationToken
         pending := true
         invalidated := false
         removed := false }] }

/-- `reloadSessions`. -/
def reloadSessions (workspaceHandle : Option JsString) : SessionDirectoryState :=
  match workspaceHandle.or s.currentWorkspaceHandle with
  | some workspaceHandle => s.reload workspaceHandle
  | none => s

/-- `isLatestSessionRequest`. -/
def isLatestSessionRequest (workspaceHandle : JsString) (request : ℕ) : Bool :=
  s.sessionRequestByWorkspace.get? workspaceHandle = some request

/-- The Sessions of a Workspace arrive. -/
def putSessions (workspaceHandle : JsString) (sessions : List NativeSessionDto) :
    SessionDirectoryState :=
  let sorted := sortByMostRecent (sessions.filter isDirectorySession)
  { s with
    workspaces := s.workspaces.map fun workspace =>
      if workspace.workspaceHandle = workspaceHandle then
        { workspace with
          sessionCount := sorted.length
          hasNativeHistory := 0 < sorted.length }
      else workspace
    sessionsByWorkspace := s.sessionsByWorkspace.insert workspaceHandle sorted
    currentSession :=
      if s.currentWorkspaceHandle = some workspaceHandle then
        s.currentSession.map fun current =>
          (sorted.find? fun session => session.sessionHandle = current.sessionHandle).getD current
      else s.currentSession
    loadingSessions := s.loadingSessions && s.currentWorkspaceHandle ≠ some workspaceHandle }

/-- A request for Sessions is no longer outstanding. -/
def closeSessions (n : ℕ) : SessionDirectoryState :=
  { s with
    sessionRequests := s.sessionRequests.modify n fun request => { request with pending := false } }

/-- A request for Workspaces is no longer outstanding. -/
def closeWorkspaces (n : ℕ) : SessionDirectoryState :=
  { s with
    workspaceRequests := s.workspaceRequests.modify n fun request =>
      { request with pending := false } }

/-- `reloadSessions`, when its request is answered. -/
def answerSessions (n : ℕ) (request : SessionListRequest)
    (answer : Except JsString (List NativeSessionDto)) (isCurrent : Bool) : SessionDirectoryState :=
  if s.isLatestSessionRequest request.workspaceHandle n then
    if isCurrent then
      match answer with
      | .ok sessions => s.putSessions request.workspaceHandle sessions
      | .error text =>
        if s.currentWorkspaceHandle = some request.workspaceHandle then
          { s with
            loadingSessions := false
            error := if s.navigationToken = request.navigationToken then some text else s.error }
        else s
    else if s.currentWorkspaceHandle = some request.workspaceHandle then
      { s with loadingSessions := false }
    else s
  else s

/-- The answer of a request for Sessions that is outstanding. -/
def sessionsAnswered (n : ℕ) (answer : Except JsString (List NativeSessionDto))
    (isCurrent : Bool) : SessionDirectoryState :=
  match s.sessionRequests[n]? with
  | some request =>
    if request.pending then (s.closeSessions n).answerSessions n request answer isCurrent else s
  | none => s

/-- `loadWorkspaces`. -/
def loadWorkspaces : SessionDirectoryState :=
  { s with
    workspaceRequestCounter := s.workspaceRequestCounter + 1
    loadingWorkspaces := true
    error := none
    workspaceRequests := s.workspaceRequests ++
      [{ number := s.workspaceRequestCounter + 1
         navigationToken := s.navigationToken
         pending := true
         invalidated := false
         navigated := false }] }

/-- The preferred Workspace becomes the current one. -/
def prefer (preferred : Option NativeWorkspaceDto) : SessionDirectoryState :=
  { s.navigate with
    currentWorkspaceHandle := preferred.map (·.workspaceHandle)
    currentSession := none
    loadingSessions := preferred.isSome }

/-- `loadWorkspaces`, when its request is answered. -/
def answerWorkspaces (request : WorkspaceListRequest)
    (answer : Except JsString (List NativeWorkspaceDto)) (isCurrent : Bool) :
    SessionDirectoryState :=
  if request.number ≠ s.workspaceRequestCounter then s
  else if !isCurrent then { s with loadingWorkspaces := false }
  else
    match answer with
    | .ok workspaces =>
      if s.navigationToken ≠ request.navigationToken then { s with loadingWorkspaces := false }
      else
        let s : SessionDirectoryState :=
          { s with
            workspaces := workspaces
            loadingWorkspaces := false }
        if s.currentWorkspaceHandle.any fun current =>
            workspaces.any fun workspace => workspace.workspaceHandle = current then s
        else
          match preferredWorkspace workspaces with
          | some preferred => (s.prefer (some preferred)).reload preferred.workspaceHandle
          | none => s.prefer none
    | .error text =>
      { s with
        loadingWorkspaces := false
        error := if s.navigationToken = request.navigationToken then some text else s.error }

/-- The answer of a request for Workspaces that is outstanding. -/
def workspacesAnswered (n : ℕ) (answer : Except JsString (List NativeWorkspaceDto))
    (isCurrent : Bool) : SessionDirectoryState :=
  match s.workspaceRequests[n]? with
  | some request =>
    if request.pending then (s.closeWorkspaces n).answerWorkspaces request answer isCurrent else s
  | none => s

/-- `removeWorkspace`, when the Sessions of the Workspace are released. -/
def removeWorkspace (workspaceHandle : JsString) : SessionDirectoryState :=
  let s : SessionDirectoryState :=
    { s with
      sessionsByWorkspace := s.sessionsByWorkspace.erase workspaceHandle
      sessionRequests := s.sessionRequests.map fun request =>
        if request.workspaceHandle = workspaceHandle then { request with removed := true }
        else request }
  if s.currentWorkspaceHandle = some workspaceHandle then
    { s with
      currentWorkspaceHandle := none
      currentSession := none }.loadWorkspaces
  else s.loadWorkspaces

/-- `selectWorkspace`. -/
def selectWorkspace (workspaceHandle : JsString) : SessionDirectoryState :=
  if s.workspaces.any fun workspace => workspace.workspaceHandle = workspaceHandle then
    { s.navigate with
      currentWorkspaceHandle := some workspaceHandle
      currentSession := none
      loadingSessions := true
      error := none }.reload workspaceHandle
  else s

/-- The Workspace that a selected Session belongs to. -/
def workspaceOf (session : Option NativeSessionDto) : Option JsString :=
  (session.map (·.workspaceHandle)).or s.currentWorkspaceHandle

/-- `selectSession`. -/
def selectSession (session : Option NativeSessionDto) : SessionDirectoryState :=
  { s.navigate with
    currentWorkspaceHandle := s.workspaceOf session
    currentSession := session }

/-- `beginSessionCreation`. -/
def beginSessionCreation (workspaceHandle : JsString) : SessionDirectoryState :=
  { s.navigate with
    currentWorkspaceHandle := some workspaceHandle
    currentSession := none
    sessionCreation := some ⟨s.navigationToken + 1, workspaceHandle⟩
    error := none
    creations := s.navigate.creations ++ [⟨s.navigationToken + 1, false⟩] }

/-- `upsertSession`. -/
def upsertSession (session : NativeSessionDto) : SessionDirectoryState :=
  let current := if s.currentSession.any fun current =>
    current.sessionHandle = session.sessionHandle then some session else s.currentSession
  if isDirectorySession session then
    { s with
      sessionsByWorkspace := s.sessionsByWorkspace.insert session.workspaceHandle
        (mergeSession ((s.sessionsByWorkspace.get? session.workspaceHandle).getD []) session)
      currentSession := current }
  else { s with currentSession := current }

/-- `removeSession`. -/
def removeSession (workspaceHandle sessionHandle : JsString) : SessionDirectoryState :=
  { s with
    sessionsByWorkspace := s.sessionsByWorkspace.insert workspaceHandle
      (((s.sessionsByWorkspace.get? workspaceHandle).getD []).filter fun session =>
        session.sessionHandle ≠ sessionHandle)
    currentSession :=
      if s.currentSession.any fun current => current.sessionHandle = sessionHandle then none
      else s.currentSession }

/-- `completeSessionCreation`; a Session that is not wanted any more is discarded. -/
def completeSessionCreation (token : ℕ) (session : NativeSessionDto) : SessionDirectoryState :=
  let s := s.upsertSession session
  if s.navigationToken ≠ token || (s.sessionCreation.map (·.token)) ≠ some token ||
      s.currentWorkspaceHandle ≠ some session.workspaceHandle then
    { s with discards := s.discards ++ [{ session := session, pending := true }] }
  else { s with sessionCreation := none }.selectSession (some session)

/-- `failSessionCreation`. -/
def failSessionCreation (token : ℕ) : SessionDirectoryState :=
  if s.navigationToken ≠ token || (s.sessionCreation.map (·.token)) ≠ some token then s
  else { s with sessionCreation := none }

/-- A discard is no longer under way. -/
def closeDiscard (n : ℕ) : SessionDirectoryState :=
  { s with discards := s.discards.modify n fun discard => { discard with pending := false } }

/-- `discardStaleCreatedSession`, at its end. -/
def endDiscard (session : NativeSessionDto) : DiscardEnd → SessionDirectoryState
  | .abandoned workspaceHandle => s.removeSession workspaceHandle session.sessionHandle
  | .joined => s
  | .released => s.reload session.workspaceHandle

/-- The end of a discard that is under way. -/
def discardSettled (n : ℕ) (ending : DiscardEnd) : SessionDirectoryState :=
  match s.discards[n]? with
  | some discard =>
    if discard.pending then (s.closeDiscard n).endDiscard discard.session ending else s
  | none => s

/-- One action. -/
def step (s : SessionDirectoryState) : DirectoryAction → SessionDirectoryState
  | .reloadSessions workspaceHandle => s.reloadSessions workspaceHandle
  | .sessionsAnswered n answer isCurrent => s.sessionsAnswered n answer isCurrent
  | .loadWorkspaces => s.loadWorkspaces
  | .workspacesAnswered n answer isCurrent => s.workspacesAnswered n answer isCurrent
  | .invalidateDirectoryRequests => s.invalidateDirectoryRequests
  | .workspaceRemoved workspaceHandle =>
    { s with
      workspaces := s.workspaces.filter fun workspace =>
        workspace.workspaceHandle ≠ workspaceHandle }
  | .removeWorkspace workspaceHandle => s.removeWorkspace workspaceHandle
  | .selectWorkspace workspaceHandle => s.selectWorkspace workspaceHandle
  | .activated workspace =>
    { s with
      workspaces := s.workspaces.map fun candidate =>
        if candidate.workspaceHandle = workspace.workspaceHandle then workspace else candidate }
  | .activationFailed navigationToken error =>
    if s.navigationToken = navigationToken then { s with error := some error } else s
  | .selectSession session => s.selectSession session
  | .beginSessionCreation workspaceHandle => s.beginSessionCreation workspaceHandle
  | .completeSessionCreation token session => s.completeSessionCreation token session
  | .failSessionCreation token => s.failSessionCreation token
  | .discardSettled n ending => s.discardSettled n ending
  | .removeSession workspaceHandle sessionHandle => s.removeSession workspaceHandle sessionHandle

/-- The latest request of a Workspace is outstanding. -/
def Outstanding (workspaceHandle : JsString) : Prop :=
  ∃ n, s.sessionRequestByWorkspace.get? workspaceHandle = some n ∧
    ∃ request : SessionListRequest, s.sessionRequests[n]? = some request ∧ request.pending = true

/-- The actions after which nothing goes backwards: no list arrives for a Workspace that was removed
since its request started, while Sessions are loading the current Workspace is neither removed nor
left for one that is not loading, and no discarded Session is abandoned while it is selected. -/
def Orderly (s : SessionDirectoryState) : DirectoryAction → Prop
  | .sessionsAnswered n (.ok _) true => ∀ request : SessionListRequest,
      s.sessionRequests[n]? = some request →
        s.isLatestSessionRequest request.workspaceHandle n = true → request.removed = false
  | .removeWorkspace workspaceHandle =>
      s.currentWorkspaceHandle = some workspaceHandle → s.loadingSessions = false
  | .selectSession session => s.loadingSessions = true →
      ∃ workspaceHandle, s.workspaceOf session = some workspaceHandle ∧
        s.Outstanding workspaceHandle
  | .beginSessionCreation workspaceHandle =>
      s.loadingSessions = true → s.Outstanding workspaceHandle
  | .discardSettled n (.abandoned _) => ∀ discard : StaleCreatedSession,
      s.discards[n]? = some discard → discard.pending = true →
        s.currentSession.map (·.sessionHandle) ≠ some discard.session.sessionHandle
  | _ => True

end SessionDirectoryState

end PiAgentWeb
