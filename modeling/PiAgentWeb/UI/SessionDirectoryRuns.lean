import PiAgentWeb.UI.SessionDirectory

/-!
# Runs of the directory store

Requests are numbered in the order in which they start, so the request that a Workspace is mapped to
is its latest one, and no number exceeds the counter. A loading flag is set only while the request
that will reset it is outstanding. Answers of older requests then change nothing but that they are
no longer awaited, and what was chosen since a request or a creation started has a later token.
-/

namespace PiAgentWeb

namespace SessionDirectoryState

variable {s s' : SessionDirectoryState} {n : ℕ}

/-! ## The numbers of requests -/

/-- Requests that were started since are known by their numbers. -/
structure Numbered (s : SessionDirectoryState) : Prop where
  latest : ∀ (workspaceHandle : JsString) (n : ℕ),
    s.sessionRequestByWorkspace.get? workspaceHandle = some n →
      s.sessionRequests[n]?.map (fun request => (request.workspaceHandle, request.invalidated)) =
        some (workspaceHandle, false) ∧
      ∀ m, s.sessionRequests[m]?.map (·.workspaceHandle) = some workspaceHandle → m ≤ n
  increasing : (s.workspaceRequests.map (·.number)).Pairwise (· < ·)
  le_counter : ∀ request ∈ s.workspaceRequests, request.number ≤ s.workspaceRequestCounter
  invalidated : ∀ request ∈ s.workspaceRequests,
    request.invalidated = true → request.number < s.workspaceRequestCounter

/-- Only marks that the numbers do not depend on are changed. -/
structure Relabels (s s' : SessionDirectoryState) : Prop where
  latest : s'.sessionRequestByWorkspace = s.sessionRequestByWorkspace
  sessions : ∀ n : ℕ,
    s'.sessionRequests[n]?.map (fun request => (request.workspaceHandle, request.invalidated)) =
      s.sessionRequests[n]?.map (fun request => (request.workspaceHandle, request.invalidated))
  workspaces : s'.workspaceRequests.map (fun request => (request.number, request.invalidated)) =
    s.workspaceRequests.map (fun request => (request.number, request.invalidated))
  counter : s'.workspaceRequestCounter = s.workspaceRequestCounter

theorem Numbered.relabel (h : s.Numbered) (hsame : Relabels s s') : s'.Numbered := by
  have hhandle : ∀ m : ℕ, s'.sessionRequests[m]?.map (·.workspaceHandle) =
      s.sessionRequests[m]?.map (·.workspaceHandle) := by
    intro m
    have := congrArg (Option.map Prod.fst) (hsame.sessions m)
    simpa only [Option.map_map, Function.comp_def] using this
  have hmem : ∀ request ∈ s'.workspaceRequests, ∃ old ∈ s.workspaceRequests,
      old.number = request.number ∧ old.invalidated = request.invalidated := by
    intro request hrequest
    have := List.mem_map_of_mem (f := fun request : WorkspaceListRequest =>
      (request.number, request.invalidated)) hrequest
    rw [hsame.workspaces] at this
    obtain ⟨old, hold, heq⟩ := List.mem_map.mp this
    exact ⟨old, hold, congrArg Prod.fst heq, congrArg Prod.snd heq⟩
  refine ⟨fun workspaceHandle n hget => ?_, ?_, fun request hrequest => ?_,
    fun request hrequest hinvalidated => ?_⟩
  · rw [hsame.latest] at hget
    obtain ⟨hrequest, hlast⟩ := h.latest workspaceHandle n hget
    refine ⟨(hsame.sessions n).trans hrequest, fun m hm => hlast m ?_⟩
    rw [← hhandle]
    exact hm
  · have := congrArg (List.map Prod.fst) hsame.workspaces
    simp only [List.map_map] at this
    exact this ▸ h.increasing
  · obtain ⟨old, hold, hnumber, -⟩ := hmem request hrequest
    rw [hsame.counter, ← hnumber]
    exact h.le_counter old hold
  · obtain ⟨old, hold, hnumber, hmark⟩ := hmem request hrequest
    rw [hsame.counter, ← hnumber]
    exact h.invalidated old hold (hmark.trans hinvalidated)

variable {workspaceHandle : JsString}

theorem Numbered.workspace_of_latest (h : s.Numbered)
    {request : SessionListRequest} (hrequest : s.sessionRequests[n]? = some request)
    (hlatest : s.isLatestSessionRequest workspaceHandle n = true) :
    request.workspaceHandle = workspaceHandle ∧ request.invalidated = false := by
  have hget := (h.latest workspaceHandle n (by simpa [isLatestSessionRequest] using hlatest)).1
  simpa [hrequest] using hget

/-- A request that was invalidated, or that a later one of its Workspace follows, is not the latest
one. -/
theorem Numbered.not_latest (h : s.Numbered) {request : SessionListRequest}
    (hrequest : s.sessionRequests[n]? = some request)
    (hold : request.invalidated = true ∨ ∃ (m : ℕ) (later : SessionListRequest), n < m ∧
      s.sessionRequests[m]? = some later ∧ later.workspaceHandle = request.workspaceHandle) :
    s.isLatestSessionRequest request.workspaceHandle n = false := by
  rw [Bool.eq_false_iff]
  intro hlatest
  rcases hold with hinvalidated | ⟨m, later, hlt, hlater, hsame⟩
  · rw [(h.workspace_of_latest hrequest hlatest).2] at hinvalidated
    cases hinvalidated
  · have := (h.latest request.workspaceHandle n (by simpa [isLatestSessionRequest] using hlatest)).2
      m (by simp [hlater, hsame])
    omega

variable {request : WorkspaceListRequest}

/-- A request for Workspaces that was invalidated, or that a later one follows, has not the number
of the counter. -/
theorem Numbered.number_ne (h : s.Numbered) (hrequest : s.workspaceRequests[n]? = some request)
    (hold : request.invalidated = true ∨ n + 1 < s.workspaceRequests.length) :
    request.number ≠ s.workspaceRequestCounter := by
  obtain ⟨hlt, rfl⟩ := List.getElem?_eq_some_iff.mp hrequest
  rcases hold with hinvalidated | hlater
  · exact Nat.ne_of_lt (h.invalidated _ (List.getElem_mem hlt) hinvalidated)
  · have hpair := List.pairwise_iff_getElem.mp h.increasing n (n + 1) (by simpa using hlt)
      (by simpa using hlater) (by omega)
    simp only [List.getElem_map] at hpair
    have := h.le_counter _ (List.getElem_mem hlater)
    omega

theorem Numbered.reload (h : s.Numbered) (workspaceHandle : JsString) :
    (s.reload workspaceHandle).Numbered := by
  refine ⟨fun handle m hget => ?_, h.increasing, h.le_counter, h.invalidated⟩
  simp only [SessionDirectoryState.reload, InsertionMap.get?_insert] at hget ⊢
  split at hget
  · rename_i heq
    obtain rfl : handle = workspaceHandle := heq
    obtain rfl : s.sessionRequests.length = m := by simpa using hget
    refine ⟨by simp, fun m hm => ?_⟩
    by_contra hlt
    rw [List.getElem?_eq_none (by simp; omega)] at hm
    cases hm
  · obtain ⟨hrequest, hlast⟩ := h.latest handle m hget
    obtain ⟨request, hrequest', -⟩ := Option.map_eq_some_iff.mp hrequest
    have hlt := (List.getElem?_eq_some_iff.mp hrequest').1
    rw [List.getElem?_append_left hlt]
    refine ⟨hrequest, fun k hk => ?_⟩
    by_cases hold : k < s.sessionRequests.length
    · rw [List.getElem?_append_left hold] at hk
      exact hlast k hk
    · rename_i hne
      rw [List.getElem?_append_right (by omega)] at hk
      obtain ⟨found, hfound, hhandle⟩ := Option.map_eq_some_iff.mp hk
      have hnew := List.mem_of_getElem? hfound
      rw [List.mem_singleton] at hnew
      subst hnew
      exact absurd hhandle.symm hne

theorem Numbered.loadWorkspaces (h : s.Numbered) : s.loadWorkspaces.Numbered := by
  refine ⟨h.latest, ?_, fun request hrequest => ?_, fun request hrequest hinvalidated => ?_⟩
  · simp only [SessionDirectoryState.loadWorkspaces, List.map_append, List.map_cons, List.map_nil]
    refine List.pairwise_append.mpr ⟨h.increasing, List.pairwise_singleton _ _, ?_⟩
    intro number hnumber new hnew
    obtain ⟨request, hrequest, rfl⟩ := List.mem_map.mp hnumber
    have := h.le_counter request hrequest
    rw [List.mem_singleton] at hnew
    omega
  · simp only [SessionDirectoryState.loadWorkspaces, List.mem_append, List.mem_singleton]
      at hrequest ⊢
    rcases hrequest with hold | rfl
    · have := h.le_counter request hold
      omega
    · exact Nat.le_refl _
  · simp only [SessionDirectoryState.loadWorkspaces, List.mem_append, List.mem_singleton]
      at hrequest ⊢
    rcases hrequest with hold | rfl
    · have := h.le_counter request hold
      omega
    · cases hinvalidated

theorem Numbered.invalidateDirectoryRequests (h : s.Numbered) :
    s.invalidateDirectoryRequests.Numbered := by
  refine ⟨fun handle m hget => ?_, ?_, fun request hrequest => ?_, fun request hrequest _ => ?_⟩
  · cases hget
  · simpa [SessionDirectoryState.invalidateDirectoryRequests, Function.comp_def] using h.increasing
  all_goals
    obtain ⟨old, hold, rfl⟩ := List.mem_map.mp hrequest
    have := h.le_counter old hold
    simp only [SessionDirectoryState.invalidateDirectoryRequests]
    omega

/-! ## Loading flags -/

/-- A loading flag is set only while the request that resets it is outstanding. -/
structure Loads (s : SessionDirectoryState) : Prop where
  workspaces : s.loadingWorkspaces = true →
    ∃ (n : ℕ) (request : WorkspaceListRequest), s.workspaceRequests[n]? = some request ∧
      request.number = s.workspaceRequestCounter ∧ request.pending = true
  sessions : s.loadingSessions = true →
    ∃ workspaceHandle, s.currentWorkspaceHandle = some workspaceHandle ∧
      s.Outstanding workspaceHandle

/-- Requests keep what the loading flags depend on. -/
structure KeepsPending (s s' : SessionDirectoryState) : Prop where
  latest : s'.sessionRequestByWorkspace = s.sessionRequestByWorkspace
  sessions : ∀ n : ℕ, s'.sessionRequests[n]?.map (·.pending) = s.sessionRequests[n]?.map (·.pending)
  workspaces : ∀ n : ℕ,
    s'.workspaceRequests[n]?.map (fun request => (request.number, request.pending)) =
      s.workspaceRequests[n]?.map (fun request => (request.number, request.pending))
  counter : s'.workspaceRequestCounter = s.workspaceRequestCounter

theorem KeepsPending.outstanding (h : KeepsPending s s')
    (hout : s.Outstanding workspaceHandle) : s'.Outstanding workspaceHandle := by
  obtain ⟨n, hget, request, hrequest, hpending⟩ := hout
  have hsame := h.sessions n
  rw [hrequest, Option.map_some, hpending] at hsame
  obtain ⟨request', hrequest', hpending'⟩ := Option.map_eq_some_iff.mp hsame
  exact ⟨n, h.latest ▸ hget, request', hrequest', hpending'⟩

theorem KeepsPending.loadingWorkspaces (h : KeepsPending s s') (hloads : s.Loads)
    (hflag : s.loadingWorkspaces = true) :
    ∃ (n : ℕ) (request : WorkspaceListRequest), s'.workspaceRequests[n]? = some request ∧
      request.number = s'.workspaceRequestCounter ∧ request.pending = true := by
  obtain ⟨n, request, hrequest, hnumber, hpending⟩ := hloads.workspaces hflag
  have hsame := h.workspaces n
  rw [hrequest, Option.map_some] at hsame
  obtain ⟨request', hrequest', heq⟩ := Option.map_eq_some_iff.mp hsame
  rw [Prod.mk.injEq] at heq
  exact ⟨n, request', hrequest', by rw [heq.1, hnumber, h.counter], heq.2.trans hpending⟩

/-- The flags after the user goes to a Workspace whose Sessions are loading, or while no Sessions
are. -/
theorem Loads.navigate (h : s.Loads) (hkeep : KeepsPending s s') {workspaceHandle : Option JsString}
    (hcurrent : s'.currentWorkspaceHandle = workspaceHandle)
    (hout : s.loadingSessions = true → ∃ handle, workspaceHandle = some handle ∧
      s.Outstanding handle)
    (hsessions : s'.loadingSessions = true → s.loadingSessions = true)
    (hworkspaces : s'.loadingWorkspaces = true → s.loadingWorkspaces = true) : s'.Loads := by
  refine ⟨fun hflag => hkeep.loadingWorkspaces h (hworkspaces hflag), fun hflag => ?_⟩
  obtain ⟨handle, hsome, houtstanding⟩ := hout (hsessions hflag)
  exact ⟨handle, hcurrent.trans hsome, hkeep.outstanding houtstanding⟩

theorem keepsPending_navigate : KeepsPending s s.navigate := by
  refine ⟨rfl, fun n => rfl, fun n => ?_, rfl⟩
  simp only [SessionDirectoryState.navigate, List.getElem?_map, Option.map_map]
  rfl

theorem relabels_navigate : Relabels s s.navigate := by
  refine ⟨rfl, fun n => rfl, ?_, rfl⟩
  simp only [SessionDirectoryState.navigate, List.map_map]
  rfl

theorem outstanding_reload (s : SessionDirectoryState) (workspaceHandle : JsString) :
    (s.reload workspaceHandle).Outstanding workspaceHandle :=
  ⟨s.sessionRequests.length, InsertionMap.get?_insert_self _ _ _, _, List.getElem?_concat_length,
    rfl⟩

theorem Loads.reload (h : s.Loads) (workspaceHandle : JsString) :
    (s.reload workspaceHandle).Loads := by
  refine ⟨h.workspaces, fun hflag => ?_⟩
  by_cases hcurrent : s.currentWorkspaceHandle = some workspaceHandle
  · exact ⟨workspaceHandle, hcurrent, outstanding_reload s workspaceHandle⟩
  · simp only [SessionDirectoryState.reload, hcurrent, decide_false, Bool.or_false] at hflag
    obtain ⟨other, hother, n, hget, request, hrequest, hpending⟩ := h.sessions hflag
    have hne : other ≠ workspaceHandle := by
      rintro rfl
      exact hcurrent hother
    refine ⟨other, hother, n, ?_, request, ?_, hpending⟩
    · simp only [SessionDirectoryState.reload, InsertionMap.get?_insert_of_ne _ hne]
      exact hget
    · simp only [SessionDirectoryState.reload]
      rw [List.getElem?_append_left (List.getElem?_eq_some_iff.mp hrequest).1]
      exact hrequest

theorem Loads.startLoading (h : KeepsPending s s') (hloads : s.Loads) (workspaceHandle : JsString)
    (hcurrent : s'.currentWorkspaceHandle = some workspaceHandle)
    (hworkspaces : s'.loadingWorkspaces = true → s.loadingWorkspaces = true) :
    (s'.reload workspaceHandle).Loads := by
  refine ⟨fun hflag => h.loadingWorkspaces hloads (hworkspaces hflag), fun _ => ?_⟩
  exact ⟨workspaceHandle, hcurrent, outstanding_reload s' workspaceHandle⟩

/-! ## Answers -/

theorem Outstanding.close (h : s.Outstanding workspaceHandle)
    (hne : s.isLatestSessionRequest workspaceHandle n = false) :
    (s.closeSessions n).Outstanding workspaceHandle := by
  obtain ⟨m, hget, request, hrequest, hpending⟩ := h
  have hother : n ≠ m := by
    rintro rfl
    simp [isLatestSessionRequest, hget] at hne
  refine ⟨m, hget, request, ?_, hpending⟩
  simp only [closeSessions, List.getElem?_modify, hrequest, if_neg hother]
  rfl

theorem relabels_closeSessions (s : SessionDirectoryState) (n : ℕ) :
    Relabels s (s.closeSessions n) := by
  refine ⟨rfl, fun m => ?_, rfl, rfl⟩
  simp only [closeSessions, List.getElem?_modify]
  cases s.sessionRequests[m]? with
  | none => rfl
  | some request => by_cases hm : n = m <;> simp [hm]

theorem relabels_closeWorkspaces (s : SessionDirectoryState) (n : ℕ) :
    Relabels s (s.closeWorkspaces n) := by
  refine ⟨rfl, fun m => rfl, ?_, rfl⟩
  refine List.ext_getElem? fun m => ?_
  simp only [closeWorkspaces, List.getElem?_map, List.getElem?_modify]
  cases s.workspaceRequests[m]? with
  | none => rfl
  | some request => by_cases hm : n = m <;> simp [hm]

/-- What an answer with Sessions leaves as it is. -/
structure KeepsNavigation (s s' : SessionDirectoryState) : Prop where
  currentWorkspaceHandle : s'.currentWorkspaceHandle = s.currentWorkspaceHandle
  currentSession : s'.currentSession.map (·.sessionHandle) =
    s.currentSession.map (·.sessionHandle)
  sessionRequestByWorkspace : s'.sessionRequestByWorkspace = s.sessionRequestByWorkspace
  sessionRequests : s'.sessionRequests = s.sessionRequests
  workspaceRequests : s'.workspaceRequests = s.workspaceRequests
  workspaceRequestCounter : s'.workspaceRequestCounter = s.workspaceRequestCounter
  loadingWorkspaces : s'.loadingWorkspaces = s.loadingWorkspaces
  navigationToken : s'.navigationToken = s.navigationToken
  creations : s'.creations = s.creations

theorem map_sessionHandle_find (sessions : List NativeSessionDto)
    (current : Option NativeSessionDto) :
    (current.map fun current => (sessions.find? fun session =>
        session.sessionHandle = current.sessionHandle).getD current).map (·.sessionHandle) =
      current.map (·.sessionHandle) := by
  cases current with
  | none => rfl
  | some current =>
    simp only [Option.map_some, Option.some.injEq]
    cases hfound : sessions.find? fun session => session.sessionHandle = current.sessionHandle with
    | none => rfl
    | some found => simpa using List.find?_some hfound

theorem keepsNavigation_answerSessions (s : SessionDirectoryState) (n : ℕ)
    (request : SessionListRequest) (answer : Except JsString (List NativeSessionDto))
    (isCurrent : Bool) :
    KeepsNavigation s (s.answerSessions n request answer isCurrent) := by
  have hself : KeepsNavigation s s := ⟨rfl, rfl, rfl, rfl, rfl, rfl, rfl, rfl, rfl⟩
  unfold answerSessions
  split
  · split
    · cases answer with
      | ok sessions =>
        refine ⟨rfl, ?_, rfl, rfl, rfl, rfl, rfl, rfl, rfl⟩
        simp only [putSessions]
        split
        · exact map_sessionHandle_find _ _
        · rfl
      | error text =>
        dsimp only
        split
        · exact ⟨rfl, rfl, rfl, rfl, rfl, rfl, rfl, rfl, rfl⟩
        · exact hself
    · split
      · exact ⟨rfl, rfl, rfl, rfl, rfl, rfl, rfl, rfl, rfl⟩
      · exact hself
  · exact hself

theorem loadingSessions_answerSessions (request : SessionListRequest)
    (answer : Except JsString (List NativeSessionDto)) (isCurrent : Bool)
    (h : (s.answerSessions n request answer isCurrent).loadingSessions = true) :
    s.loadingSessions = true ∧ ¬(s.isLatestSessionRequest request.workspaceHandle n = true ∧
      s.currentWorkspaceHandle = some request.workspaceHandle) := by
  unfold SessionDirectoryState.answerSessions at h
  by_cases hlatest : s.isLatestSessionRequest request.workspaceHandle n = true
  · by_cases hcurrent : s.currentWorkspaceHandle = some request.workspaceHandle
    · exfalso
      cases isCurrent <;> cases answer <;> simp [hlatest, hcurrent, putSessions] at h
    · refine ⟨?_, fun hboth => hcurrent hboth.2⟩
      cases isCurrent <;> cases answer <;> simpa [hlatest, hcurrent, putSessions] using h
  · rw [if_neg hlatest] at h
    exact ⟨h, fun hboth => hlatest hboth.1⟩

theorem Loads.answerSessions (h : s.Loads) (hnumbered : s.Numbered) {request : SessionListRequest}
    (hrequest : s.sessionRequests[n]? = some request)
    (answer : Except JsString (List NativeSessionDto)) (isCurrent : Bool) :
    ((s.closeSessions n).answerSessions n request answer isCurrent).Loads := by
  have hkeep := keepsNavigation_answerSessions (s.closeSessions n) n request answer isCurrent
  refine ⟨fun hflag => ?_, fun hflag => ?_⟩
  · rw [hkeep.loadingWorkspaces] at hflag
    rw [hkeep.workspaceRequests, hkeep.workspaceRequestCounter]
    exact h.workspaces hflag
  · obtain ⟨hloading, hawaited⟩ := loadingSessions_answerSessions request answer isCurrent hflag
    obtain ⟨workspaceHandle, hcurrent, hout⟩ := h.sessions hloading
    have hne : s.isLatestSessionRequest workspaceHandle n = false := by
      rw [Bool.eq_false_iff]
      intro hlatest
      obtain rfl := (hnumbered.workspace_of_latest hrequest hlatest).1
      exact hawaited ⟨hlatest, hcurrent⟩
    obtain ⟨m, hget, found, hfound, hpending⟩ := hout.close hne
    refine ⟨workspaceHandle, hkeep.currentWorkspaceHandle.trans hcurrent, m, ?_, found, ?_,
      hpending⟩
    · rw [hkeep.sessionRequestByWorkspace]
      exact hget
    · rw [hkeep.sessionRequests]
      exact hfound

theorem Loads.closeWorkspaces (h : s.Loads) (hrequest : s.workspaceRequests[n]? = some request)
    (hne : request.number ≠ s.workspaceRequestCounter) : (s.closeWorkspaces n).Loads := by
  refine ⟨fun hflag => ?_, h.sessions⟩
  obtain ⟨m, found, hfound, hnumber, hpending⟩ := h.workspaces hflag
  have hother : n ≠ m := by
    rintro rfl
    rw [hrequest, Option.some.injEq] at hfound
    exact hne (hfound ▸ hnumber)
  refine ⟨m, found, ?_, hnumber, hpending⟩
  simp only [SessionDirectoryState.closeWorkspaces, List.getElem?_modify, hfound, if_neg hother]
  rfl

/-- Workspaces are entered, and none are loading any more. -/
def enterWorkspaces (s : SessionDirectoryState) (workspaces : List NativeWorkspaceDto)
    (error : Option JsString) : SessionDirectoryState :=
  { s with
    workspaces := workspaces
    loadingWorkspaces := false
    error := error }

/-- What an answer with Workspaces does: nothing when it is not the awaited one, and the user is
moved to the preferred Workspace only when no navigation has taken place. -/
theorem answerWorkspaces_cases (s : SessionDirectoryState) (request : WorkspaceListRequest)
    (answer : Except JsString (List NativeWorkspaceDto)) (isCurrent : Bool) :
    (request.number ≠ s.workspaceRequestCounter ∧
        s.answerWorkspaces request answer isCurrent = s) ∨
      (∃ workspaces error,
        s.answerWorkspaces request answer isCurrent = s.enterWorkspaces workspaces error) ∨
      s.navigationToken = request.navigationToken ∧ ∃ workspaces,
        (s.answerWorkspaces request answer isCurrent =
            (s.enterWorkspaces workspaces s.error).prefer none ∨
          ∃ preferred, s.answerWorkspaces request answer isCurrent =
            ((s.enterWorkspaces workspaces s.error).prefer (some preferred)).reload
              preferred.workspaceHandle) := by
  unfold SessionDirectoryState.answerWorkspaces
  by_cases hnumber : request.number ≠ s.workspaceRequestCounter
  · exact .inl ⟨hnumber, if_pos hnumber⟩
  · rw [if_neg hnumber]
    cases isCurrent with
    | false => exact .inr (.inl ⟨s.workspaces, s.error, rfl⟩)
    | true =>
      cases answer with
      | error text => exact .inr (.inl ⟨s.workspaces, _, rfl⟩)
      | ok workspaces =>
        simp only [Bool.not_true, Bool.false_eq_true, if_false]
        split
        · exact .inr (.inl ⟨s.workspaces, s.error, rfl⟩)
        · rename_i htoken
          split
          · exact .inr (.inl ⟨workspaces, s.error, rfl⟩)
          · refine .inr (.inr ⟨not_not.mp htoken, workspaces, ?_⟩)
            cases preferredWorkspace workspaces with
            | none => exact .inl rfl
            | some preferred => exact .inr ⟨preferred, rfl⟩

/-! ## Tokens -/

/-- What was navigated since it started has an earlier token. -/
structure Tokens (s : SessionDirectoryState) : Prop where
  requests : ∀ request ∈ s.workspaceRequests, request.navigationToken ≤ s.navigationToken ∧
    (request.navigated = true → request.navigationToken < s.navigationToken)
  creations : ∀ creation ∈ s.creations, creation.token ≤ s.navigationToken ∧
    (creation.navigated = true → creation.token < s.navigationToken)

theorem Tokens.keep (h : s.Tokens) (hnavigation : s'.navigationToken = s.navigationToken)
    (hrequests : s'.workspaceRequests.map (fun request =>
      (request.navigationToken, request.navigated)) =
        s.workspaceRequests.map fun request => (request.navigationToken, request.navigated))
    (hcreations : s'.creations = s.creations) : s'.Tokens := by
  refine ⟨fun request hrequest => ?_, hnavigation ▸ hcreations ▸ h.creations⟩
  have hmem := List.mem_map_of_mem (f := fun request : WorkspaceListRequest =>
    (request.navigationToken, request.navigated)) hrequest
  rw [hrequests] at hmem
  obtain ⟨old, hold, heq⟩ := List.mem_map.mp hmem
  rw [Prod.mk.injEq] at heq
  rw [hnavigation, ← heq.1, ← heq.2]
  exact h.requests old hold

theorem Tokens.navigate (h : s.Tokens) : s.navigate.Tokens := by
  refine ⟨fun request hrequest => ?_, fun creation hcreation => ?_⟩
  · obtain ⟨old, hold, rfl⟩ := List.mem_map.mp hrequest
    have := (h.requests old hold).1
    simp only [SessionDirectoryState.navigate]
    omega
  · obtain ⟨old, hold, rfl⟩ := List.mem_map.mp hcreation
    have := (h.creations old hold).1
    simp only [SessionDirectoryState.navigate]
    omega

theorem Tokens.loadWorkspaces (h : s.Tokens) : s.loadWorkspaces.Tokens := by
  refine ⟨fun request hrequest => ?_, h.creations⟩
  simp only [SessionDirectoryState.loadWorkspaces, List.mem_append, List.mem_singleton]
    at hrequest ⊢
  rcases hrequest with hold | rfl
  · exact h.requests request hold
  · exact ⟨Nat.le_refl _, nofun⟩

theorem Tokens.beginSessionCreation (h : s.Tokens) (workspaceHandle : JsString) :
    (s.beginSessionCreation workspaceHandle).Tokens := by
  refine ⟨h.navigate.requests, fun creation hcreation => ?_⟩
  simp only [SessionDirectoryState.beginSessionCreation, List.mem_append, List.mem_singleton]
    at hcreation ⊢
  rcases hcreation with hold | rfl
  · exact h.navigate.creations creation hold
  · exact ⟨Nat.le_refl _, nofun⟩

/-! ## Steps -/

/-- What holds in every state of an orderly run. -/
structure Sound (s : SessionDirectoryState) : Prop where
  numbered : s.Numbered
  loads : s.Loads
  tokens : s.Tokens

theorem sound_create : create.Sound :=
  ⟨⟨by rintro _ _ ⟨⟩, List.Pairwise.nil, by rintro _ ⟨⟩, by rintro _ ⟨⟩⟩,
    ⟨by rintro ⟨⟩, by rintro ⟨⟩⟩, ⟨by rintro _ ⟨⟩, by rintro _ ⟨⟩⟩⟩

theorem Sound.lists (h : s.Sound) (workspaces : List NativeWorkspaceDto)
    (sessions : InsertionMap JsString (List NativeSessionDto)) (current : Option NativeSessionDto)
    (creation : Option SessionCreationIntent) (error : Option JsString) :
    Sound { s with
      workspaces := workspaces
      sessionsByWorkspace := sessions
      currentSession := current
      sessionCreation := creation
      error := error } :=
  ⟨h.numbered.relabel ⟨rfl, fun _ => rfl, rfl, rfl⟩, ⟨h.loads.workspaces, h.loads.sessions⟩,
    h.tokens.keep rfl rfl rfl⟩

theorem Sound.discards (h : s.Sound) (discards : List StaleCreatedSession) :
    Sound { s with discards := discards } :=
  ⟨h.numbered.relabel ⟨rfl, fun _ => rfl, rfl, rfl⟩, ⟨h.loads.workspaces, h.loads.sessions⟩,
    h.tokens.keep rfl rfl rfl⟩

theorem Sound.reload (h : s.Sound) (workspaceHandle : JsString) :
    (s.reload workspaceHandle).Sound :=
  ⟨h.numbered.reload _, h.loads.reload _, h.tokens.keep rfl rfl rfl⟩

theorem Sound.loadWorkspaces (h : s.Sound) : s.loadWorkspaces.Sound :=
  ⟨h.numbered.loadWorkspaces,
    ⟨fun _ => ⟨s.workspaceRequests.length, _, List.getElem?_concat_length, rfl, rfl⟩,
      h.loads.sessions⟩,
    h.tokens.loadWorkspaces⟩

theorem Sound.selectSession (h : s.Sound) (session : Option NativeSessionDto)
    (hout : s.loadingSessions = true → ∃ workspaceHandle,
      s.workspaceOf session = some workspaceHandle ∧ s.Outstanding workspaceHandle) :
    (s.selectSession session).Sound :=
  ⟨(h.numbered.relabel relabels_navigate).relabel ⟨rfl, fun _ => rfl, rfl, rfl⟩,
    h.loads.navigate ⟨rfl, fun _ => rfl, keepsPending_navigate.workspaces, rfl⟩ rfl hout id id,
    h.tokens.navigate.keep rfl rfl rfl⟩

theorem Sound.beginSessionCreation (h : s.Sound)
    (hout : s.loadingSessions = true → s.Outstanding workspaceHandle) :
    (s.beginSessionCreation workspaceHandle).Sound :=
  ⟨(h.numbered.relabel relabels_navigate).relabel ⟨rfl, fun _ => rfl, rfl, rfl⟩,
    h.loads.navigate ⟨rfl, fun _ => rfl, keepsPending_navigate.workspaces, rfl⟩ rfl
      (fun hflag => ⟨workspaceHandle, rfl, hout hflag⟩) id id,
    h.tokens.beginSessionCreation workspaceHandle⟩

theorem Sound.selectWorkspace (h : s.Sound) (workspaceHandle : JsString) :
    (s.selectWorkspace workspaceHandle).Sound := by
  unfold SessionDirectoryState.selectWorkspace
  split
  · refine ⟨Numbered.reload ?_ _, Loads.startLoading ?_ h.loads _ rfl id,
      h.tokens.navigate.keep rfl rfl rfl⟩
    · exact (h.numbered.relabel relabels_navigate).relabel ⟨rfl, fun _ => rfl, rfl, rfl⟩
    · exact ⟨rfl, fun _ => rfl, keepsPending_navigate.workspaces, rfl⟩
  · exact h

theorem Sound.upsertSession (h : s.Sound) (session : NativeSessionDto) :
    (s.upsertSession session).Sound := by
  unfold SessionDirectoryState.upsertSession
  dsimp only
  generalize (if (s.currentSession.any fun current =>
    current.sessionHandle = session.sessionHandle) = true then some session
    else s.currentSession) = current
  split
  · exact h.lists s.workspaces _ current s.sessionCreation s.error
  · exact h.lists s.workspaces s.sessionsByWorkspace current s.sessionCreation s.error

theorem Sound.completeSessionCreation (h : s.Sound) (token : ℕ) (session : NativeSessionDto) :
    (s.completeSessionCreation token session).Sound := by
  have hset := h.upsertSession session
  unfold SessionDirectoryState.completeSessionCreation
  dsimp only
  split
  · exact hset.discards _
  · rename_i hwanted
    simp only [Bool.or_eq_true, decide_eq_true_eq, not_or, not_not] at hwanted
    refine (hset.lists _ _ _ none _).selectSession (some session) fun hflag => ?_
    obtain ⟨workspaceHandle, hcurrent, hout⟩ := hset.loads.sessions hflag
    refine ⟨workspaceHandle, ?_, hout⟩
    rw [workspaceOf, Option.map_some, Option.some_or, ← hwanted.2, hcurrent]

theorem Sound.removeSession (h : s.Sound) (workspaceHandle sessionHandle : JsString) :
    (s.removeSession workspaceHandle sessionHandle).Sound :=
  h.lists s.workspaces _ _ s.sessionCreation s.error

theorem Sound.discardSettled (h : s.Sound) (n : ℕ) (ending : DiscardEnd) :
    (s.discardSettled n ending).Sound := by
  unfold SessionDirectoryState.discardSettled
  cases s.discards[n]? with
  | none => exact h
  | some discard =>
    dsimp only
    split
    · have hclosed : (s.closeDiscard n).Sound := h.discards _
      cases ending with
      | abandoned workspaceHandle => exact hclosed.removeSession _ _
      | joined => exact hclosed
      | released => exact hclosed.reload _
    · exact h

theorem Sound.removeWorkspace (h : s.Sound)
    (hidle : s.currentWorkspaceHandle = some workspaceHandle → s.loadingSessions = false) :
    (s.removeWorkspace workspaceHandle).Sound := by
  have hrelabels : ∀ (n : ℕ) (A : Type) (f : SessionListRequest → A),
      (∀ request, f { request with removed := true } = f request) →
      (s.sessionRequests.map fun request =>
        if request.workspaceHandle = workspaceHandle then { request with removed := true }
        else request)[n]?.map f = s.sessionRequests[n]?.map f := by
    intro n A f hf
    rw [List.getElem?_map]
    cases s.sessionRequests[n]? with
    | none => rfl
    | some request =>
      simp only [Option.map_some, Option.some.injEq]
      split
      · exact hf request
      · rfl
  unfold SessionDirectoryState.removeWorkspace
  dsimp only
  split
  · rename_i hcurrent
    refine Sound.loadWorkspaces ⟨?_, ⟨h.loads.workspaces, fun hflag => ?_⟩,
      h.tokens.keep rfl rfl rfl⟩
    · exact h.numbered.relabel ⟨rfl, fun n => hrelabels n _ _ fun _ => rfl, rfl, rfl⟩
    · rw [hidle hcurrent] at hflag
      cases hflag
  · refine Sound.loadWorkspaces ⟨?_, ?_, h.tokens.keep rfl rfl rfl⟩
    · exact h.numbered.relabel ⟨rfl, fun n => hrelabels n _ _ fun _ => rfl, rfl, rfl⟩
    · exact h.loads.navigate ⟨rfl, fun n => hrelabels n _ _ fun _ => rfl, fun _ => rfl, rfl⟩ rfl
        h.loads.sessions id id

theorem Sound.sessionsAnswered (h : s.Sound) (n : ℕ)
    (answer : Except JsString (List NativeSessionDto)) (isCurrent : Bool) :
    (s.sessionsAnswered n answer isCurrent).Sound := by
  unfold SessionDirectoryState.sessionsAnswered
  cases hrequest : s.sessionRequests[n]? with
  | none => exact h
  | some request =>
    dsimp only
    split
    · have hkeep := keepsNavigation_answerSessions (s.closeSessions n) n request answer isCurrent
      refine ⟨(h.numbered.relabel (relabels_closeSessions s n)).relabel ?_,
        h.loads.answerSessions h.numbered hrequest answer isCurrent,
        h.tokens.keep hkeep.navigationToken ?_ hkeep.creations⟩
      · exact ⟨hkeep.sessionRequestByWorkspace, fun _ => by rw [hkeep.sessionRequests],
          by rw [hkeep.workspaceRequests], hkeep.workspaceRequestCounter⟩
      · rw [hkeep.workspaceRequests]
        rfl
    · exact h

theorem Sound.workspacesAnswered (h : s.Sound) (n : ℕ)
    (answer : Except JsString (List NativeWorkspaceDto)) (isCurrent : Bool) :
    (s.workspacesAnswered n answer isCurrent).Sound := by
  unfold SessionDirectoryState.workspacesAnswered
  cases hrequest : s.workspaceRequests[n]? with
  | none => exact h
  | some request =>
    dsimp only
    split
    · have hnumbered := h.numbered.relabel (relabels_closeWorkspaces s n)
      have htokens : (s.closeWorkspaces n).Tokens := by
        refine h.tokens.keep rfl (List.ext_getElem? fun m => ?_) rfl
        simp only [closeWorkspaces, List.getElem?_map, List.getElem?_modify]
        cases s.workspaceRequests[m]? with
        | none => rfl
        | some request => by_cases hm : n = m <;> simp [hm]
      have hentered (workspaces : List NativeWorkspaceDto) (error : Option JsString) :
          ((s.closeWorkspaces n).enterWorkspaces workspaces error).Sound :=
        ⟨hnumbered.relabel ⟨rfl, fun _ => rfl, rfl, rfl⟩, ⟨nofun, h.loads.sessions⟩,
          htokens.keep rfl rfl rfl⟩
      have hprefer (workspaces : List NativeWorkspaceDto) (preferred : Option NativeWorkspaceDto) :
          Numbered (((s.closeWorkspaces n).enterWorkspaces workspaces s.error).prefer preferred) ∧
          Tokens (((s.closeWorkspaces n).enterWorkspaces workspaces s.error).prefer preferred) :=
        ⟨((hentered workspaces s.error).numbered.relabel relabels_navigate).relabel
            ⟨rfl, fun _ => rfl, rfl, rfl⟩,
          (hentered workspaces s.error).tokens.navigate.keep rfl rfl rfl⟩
      obtain ⟨hnumber, hsame⟩ | ⟨workspaces, error, hsame⟩ |
        ⟨-, workspaces, hsame | ⟨preferred, hsame⟩⟩ :=
          (s.closeWorkspaces n).answerWorkspaces_cases request answer isCurrent
      all_goals rw [hsame]
      · exact ⟨hnumbered, h.loads.closeWorkspaces hrequest hnumber, htokens⟩
      · exact hentered workspaces error
      · exact ⟨(hprefer workspaces none).1, ⟨nofun, nofun⟩, (hprefer workspaces none).2⟩
      · exact ⟨(hprefer workspaces preferred).1.reload _,
          ⟨nofun, fun _ => ⟨_, rfl, outstanding_reload _ _⟩⟩,
          (hprefer workspaces preferred).2.keep rfl rfl rfl⟩
    · exact h

theorem Sound.step (h : s.Sound) {action : DirectoryAction} (horderly : s.Orderly action) :
    (s.step action).Sound := by
  cases action with
  | reloadSessions workspaceHandle =>
    simp only [SessionDirectoryState.step, reloadSessions]
    cases workspaceHandle.or s.currentWorkspaceHandle with
    | none => exact h
    | some workspaceHandle => exact h.reload workspaceHandle
  | sessionsAnswered n answer isCurrent => exact h.sessionsAnswered n answer isCurrent
  | loadWorkspaces => exact h.loadWorkspaces
  | workspacesAnswered n answer isCurrent => exact h.workspacesAnswered n answer isCurrent
  | invalidateDirectoryRequests =>
    refine ⟨h.numbered.invalidateDirectoryRequests, ⟨nofun, nofun⟩, h.tokens.keep rfl ?_ rfl⟩
    simp only [SessionDirectoryState.step, SessionDirectoryState.invalidateDirectoryRequests,
      List.map_map]
    rfl
  | workspaceRemoved workspaceHandle => exact h.lists _ _ _ _ _
  | removeWorkspace workspaceHandle => exact h.removeWorkspace horderly
  | selectWorkspace workspaceHandle => exact h.selectWorkspace workspaceHandle
  | activated workspace => exact h.lists _ _ _ _ _
  | activationFailed navigationToken error =>
    simp only [SessionDirectoryState.step]
    split
    · exact h.lists _ _ _ _ _
    · exact h
  | selectSession session => exact h.selectSession session horderly
  | beginSessionCreation workspaceHandle => exact h.beginSessionCreation horderly
  | completeSessionCreation token session => exact h.completeSessionCreation token session
  | failSessionCreation token =>
    simp only [SessionDirectoryState.step, SessionDirectoryState.failSessionCreation]
    split
    · exact h
    · exact h.lists _ _ _ _ _
  | discardSettled n ending => exact h.discardSettled n ending
  | removeSession workspaceHandle sessionHandle => exact h.removeSession _ _

/-! ## Order -/

/-- The same current Workspace and the same current Session. -/
def SameSelection (s s' : SessionDirectoryState) : Prop :=
  s'.currentWorkspaceHandle = s.currentWorkspaceHandle ∧
    s'.currentSession.map (·.sessionHandle) = s.currentSession.map (·.sessionHandle)

/-- What does not go backwards when an action is taken. The answer of an invalidated request, or of
one that a later request for the same list follows, changes nothing; no answer brings the list of a
removed Workspace back or moves the user away from what was chosen since the request started; and
neither the completion of a creation after a navigation nor the discard that comes of it does. -/
def KeepsOrder (s : SessionDirectoryState) : DirectoryAction → Prop
  | .sessionsAnswered n answer isCurrent => ∀ request : SessionListRequest,
      s.sessionRequests[n]? = some request → request.pending = true →
        ((request.invalidated = true ∨ ∃ (m : ℕ) (later : SessionListRequest), n < m ∧
            s.sessionRequests[m]? = some later ∧
            later.workspaceHandle = request.workspaceHandle) →
          s.sessionsAnswered n answer isCurrent = s.closeSessions n) ∧
        (request.removed = true →
          (s.sessionsAnswered n answer isCurrent).sessionsByWorkspace = s.sessionsByWorkspace) ∧
        s.SameSelection (s.sessionsAnswered n answer isCurrent)
  | .workspacesAnswered n answer isCurrent => ∀ request : WorkspaceListRequest,
      s.workspaceRequests[n]? = some request → request.pending = true →
        ((request.invalidated = true ∨ n + 1 < s.workspaceRequests.length) →
          s.workspacesAnswered n answer isCurrent = s.closeWorkspaces n) ∧
        (s.workspacesAnswered n answer isCurrent).sessionsByWorkspace = s.sessionsByWorkspace ∧
        (request.navigated = true → s.SameSelection (s.workspacesAnswered n answer isCurrent))
  | .completeSessionCreation token session => ∀ creation ∈ s.creations,
      creation.token = token → creation.navigated = true →
        s.SameSelection (s.completeSessionCreation token session)
  | .discardSettled n ending => s.SameSelection (s.discardSettled n ending)
  | _ => True

theorem sessionsAnswered_eq {request : SessionListRequest}
    (hrequest : s.sessionRequests[n]? = some request) (hpending : request.pending = true)
    (answer : Except JsString (List NativeSessionDto)) (isCurrent : Bool) :
    s.sessionsAnswered n answer isCurrent =
      (s.closeSessions n).answerSessions n request answer isCurrent := by
  rw [sessionsAnswered, hrequest]
  exact if_pos hpending

theorem workspacesAnswered_eq
    (hrequest : s.workspaceRequests[n]? = some request) (hpending : request.pending = true)
    (answer : Except JsString (List NativeWorkspaceDto)) (isCurrent : Bool) :
    s.workspacesAnswered n answer isCurrent =
      (s.closeWorkspaces n).answerWorkspaces request answer isCurrent := by
  rw [workspacesAnswered, hrequest]
  exact if_pos hpending

theorem sessionsByWorkspace_answerSessions (request : SessionListRequest)
    (answer : Except JsString (List NativeSessionDto)) (isCurrent : Bool)
    (h : (∃ sessions, answer = .ok sessions) → isCurrent = true →
      s.isLatestSessionRequest request.workspaceHandle n = false) :
    (s.answerSessions n request answer isCurrent).sessionsByWorkspace = s.sessionsByWorkspace := by
  unfold SessionDirectoryState.answerSessions
  split
  · rename_i hlatest
    split
    · rename_i hcurrent
      cases answer with
      | ok sessions =>
        rw [h ⟨sessions, rfl⟩ hcurrent] at hlatest
        cases hlatest
      | error text =>
        dsimp only
        split <;> rfl
    · split <;> rfl
  · rfl

theorem sessionsByWorkspace_answerWorkspaces (s : SessionDirectoryState)
    (request : WorkspaceListRequest) (answer : Except JsString (List NativeWorkspaceDto))
    (isCurrent : Bool) :
    (s.answerWorkspaces request answer isCurrent).sessionsByWorkspace = s.sessionsByWorkspace := by
  obtain ⟨-, hsame⟩ | ⟨workspaces, error, hsame⟩ | ⟨-, workspaces, hsame | ⟨preferred, hsame⟩⟩ :=
    s.answerWorkspaces_cases request answer isCurrent
  · rw [hsame]
  all_goals
    rw [hsame]
    rfl

theorem sameSelection_answerWorkspaces (hne : s.navigationToken ≠ request.navigationToken)
    (answer : Except JsString (List NativeWorkspaceDto)) (isCurrent : Bool) :
    s.SameSelection (s.answerWorkspaces request answer isCurrent) := by
  obtain ⟨-, hsame⟩ | ⟨workspaces, error, hsame⟩ | ⟨htoken, -⟩ :=
    s.answerWorkspaces_cases request answer isCurrent
  · rw [hsame]
    exact ⟨rfl, rfl⟩
  · rw [hsame]
    exact ⟨rfl, rfl⟩
  · exact absurd htoken hne

theorem sameSelection_upsertSession (s : SessionDirectoryState) (session : NativeSessionDto) :
    s.SameSelection (s.upsertSession session) := by
  have hcurrent : (if (s.currentSession.any fun current =>
      current.sessionHandle = session.sessionHandle) = true then some session
      else s.currentSession).map (·.sessionHandle) = s.currentSession.map (·.sessionHandle) := by
    cases hold : s.currentSession with
    | none => rfl
    | some current =>
      by_cases hsame : current.sessionHandle = session.sessionHandle <;> simp [hsame]
  unfold SessionDirectoryState.upsertSession
  dsimp only
  split
  · exact ⟨rfl, hcurrent⟩
  · exact ⟨rfl, hcurrent⟩

theorem sameSelection_removeSession (workspaceHandle : JsString) {sessionHandle : JsString}
    (hne : s.currentSession.map (·.sessionHandle) ≠ some sessionHandle) :
    s.SameSelection (s.removeSession workspaceHandle sessionHandle) := by
  refine ⟨rfl, ?_⟩
  unfold SessionDirectoryState.removeSession
  dsimp only
  rw [if_neg]
  cases hcurrent : s.currentSession with
  | none => simp
  | some current => simpa [hcurrent] using hne

theorem sameSelection_discardSettled {ending : DiscardEnd}
    (horderly : s.Orderly (.discardSettled n ending)) :
    s.SameSelection (s.discardSettled n ending) := by
  unfold SessionDirectoryState.discardSettled
  cases hdiscard : s.discards[n]? with
  | none => exact ⟨rfl, rfl⟩
  | some discard =>
    dsimp only
    split
    · rename_i hpending
      cases ending with
      | abandoned workspaceHandle =>
        exact sameSelection_removeSession (s := s.closeDiscard n) workspaceHandle
          (horderly discard hdiscard hpending)
      | joined => exact ⟨rfl, rfl⟩
      | released => exact ⟨rfl, rfl⟩
    · exact ⟨rfl, rfl⟩

theorem Sound.keepsOrder (h : s.Sound) {action : DirectoryAction} (horderly : s.Orderly action) :
    s.KeepsOrder action := by
  cases action with
  | sessionsAnswered n answer isCurrent =>
    intro request hrequest hpending
    rw [sessionsAnswered_eq hrequest hpending]
    have hkeep := keepsNavigation_answerSessions (s.closeSessions n) n request answer isCurrent
    refine ⟨fun hold => ?_, fun hremoved => ?_, hkeep.currentWorkspaceHandle, hkeep.currentSession⟩
    · have hlatest : (s.closeSessions n).isLatestSessionRequest request.workspaceHandle n = false :=
        h.numbered.not_latest hrequest hold
      unfold SessionDirectoryState.answerSessions
      rw [hlatest]
      rfl
    · refine sessionsByWorkspace_answerSessions (s := s.closeSessions n) request answer isCurrent ?_
      rintro ⟨sessions, rfl⟩ rfl
      rw [Bool.eq_false_iff]
      intro hlatest
      have := horderly request hrequest hlatest
      rw [hremoved] at this
      cases this
  | workspacesAnswered n answer isCurrent =>
    intro request hrequest hpending
    rw [workspacesAnswered_eq hrequest hpending]
    refine ⟨fun hold => if_pos (h.numbered.number_ne hrequest hold),
      sessionsByWorkspace_answerWorkspaces (s.closeWorkspaces n) request answer isCurrent,
      fun hnavigated => ?_⟩
    have hlt := (h.tokens.requests request (List.mem_of_getElem? hrequest)).2 hnavigated
    exact sameSelection_answerWorkspaces (s := s.closeWorkspaces n) (Nat.ne_of_gt hlt) answer
      isCurrent
  | completeSessionCreation token session =>
    rintro creation hcreation rfl hnavigated
    have hlt := (h.tokens.creations creation hcreation).2 hnavigated
    have hupsert : (s.upsertSession session).navigationToken = s.navigationToken := by
      unfold SessionDirectoryState.upsertSession
      dsimp only
      split <;> rfl
    have hsame : s.completeSessionCreation creation.token session =
        { s.upsertSession session with
          discards := (s.upsertSession session).discards ++
            [{ session := session, pending := true }] } := by
      refine if_pos ?_
      rw [hupsert]
      simp [Nat.ne_of_gt hlt]
    rw [hsame]
    exact sameSelection_upsertSession s session
  | discardSettled n ending => exact sameSelection_discardSettled horderly
  | _ => trivial

/-- In every orderly run no loading flag is set without an outstanding request, and no response goes
backwards. -/
theorem directory_responses_ordered (before : List DirectoryAction) (action : DirectoryAction)
    (h : RunMeets step Orderly create (before ++ [action])) :
    ((runFrom step create before).step action).Loads ∧
      (runFrom step create before).KeepsOrder action := by
  obtain ⟨hbefore, horderly, -⟩ := RunMeets.append_iff.mp h
  have hsound : (runFrom step create before).Sound :=
    hbefore.invariant (fun s action horderly hs => hs.step horderly) sound_create
  exact ⟨(hsound.step horderly).loads, hsound.keepsOrder horderly⟩

/-- A Session of a Workspace. -/
def sampleSession (workspaceHandle : JsString) : NativeSessionDto where
  sessionHandle := js "session"
  workspaceHandle := workspaceHandle
  persisted := true
  messageCount := 1
  hasText := true
  modifiedTime := 0

/-- Two requests for one Workspace are answered in the other order: the older answer is dropped. -/
theorem directory_responses_ordered_sample :
    let s := runFrom step create [.reloadSessions (some (js "a")), .reloadSessions (some (js "a")),
      .sessionsAnswered 1 (.ok []) true]
    s.sessionsAnswered 0 (.ok [sampleSession (js "a")]) true = s.closeSessions 0 := by
  have h := directory_responses_ordered
    [.reloadSessions (some (js "a")), .reloadSessions (some (js "a")),
      .sessionsAnswered 1 (.ok []) true]
    (.sessionsAnswered 0 (.ok [sampleSession (js "a")]) true)
    ⟨trivial, trivial, fun request hrequest _ => by
        obtain rfl := Option.some.inj hrequest
        rfl,
      fun request hrequest _ => by
        obtain rfl := Option.some.inj hrequest
        rfl,
      trivial⟩
  exact (h.2 _ rfl rfl).1 (.inr ⟨1, _, by decide, rfl, rfl⟩)

/-- The run in which a Workspace is removed while its Sessions are loading. -/
def removedRun : List DirectoryAction :=
  [.selectSession (some (sampleSession (js "a"))), .reloadSessions none,
    .removeWorkspace (js "a")]

/-- The run in which a Session of another Workspace is selected while Sessions are loading. -/
def leftRun : List DirectoryAction :=
  [.selectSession (some (sampleSession (js "a"))), .reloadSessions none,
    .selectSession (some (sampleSession (js "b"))),
    .sessionsAnswered 0 (.ok [sampleSession (js "a")]) true]

/-- A created Session that was not written to a file yet. -/
def sampleTransient : NativeSessionDto where
  sessionHandle := js "new"
  workspaceHandle := js "a"
  persisted := false
  messageCount := 0
  hasText := false
  modifiedTime := 0

/-- The run in which a created Session arrives after a navigation, and is selected while it is being
discarded. -/
def discardedRun : List DirectoryAction :=
  [.beginSessionCreation (js "a"), .selectSession (some (sampleSession (js "a"))),
    .completeSessionCreation 1 sampleTransient, .selectSession (some sampleTransient)]

/-- The answer of a request that started before a removal brings the removed list back, a flag stays
set after the only request was answered, and the discard of a stale Session resets the selection. -/
theorem removed_list_returns :
    ¬(runFrom step create removedRun).KeepsOrder
        (.sessionsAnswered 0 (.ok [sampleSession (js "a")]) true) ∧
      ¬(runFrom step create leftRun).Loads ∧
      ¬(runFrom step create discardedRun).KeepsOrder (.discardSettled 0 (.abandoned (js "a"))) := by
  refine ⟨?_, ?_, ?_⟩
  · intro h
    have hsame := congrArg (fun sessions => sessions.get? (js "a")) ((h _ rfl rfl).2.1 rfl)
    exact absurd hsame (by decide +kernel)
  · intro h
    obtain ⟨workspaceHandle, hcurrent, n, hget, -⟩ := h.sessions (by decide +kernel)
    have hnone : (runFrom step create leftRun).sessionRequestByWorkspace.get? (js "b") = none := by
      decide +kernel
    obtain rfl : js "b" = workspaceHandle := Option.some.inj hcurrent
    rw [hnone] at hget
    cases hget
  · intro h
    exact absurd h.2 (by decide +kernel)

end SessionDirectoryState

end PiAgentWeb
