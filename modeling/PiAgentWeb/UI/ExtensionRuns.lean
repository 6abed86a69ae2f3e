import PiAgentWeb.Library.Since
import PiAgentWeb.UI.ExtensionMachine

/-!
# Runs of the Extension machine

Over every run the pending requests of a Session differ in id and in meaning, and a Session with
remembered notifications is in the bounded recency list. A request is acknowledged exactly if it was
answered during a resync and nothing has cleared the acknowledgements of its runtime since. What is
acknowledged when a snapshot is committed is not pending afterwards, neither from the snapshot nor
from the frames buffered behind it.
-/

namespace PiAgentWeb

variable {J T : Type}

/-- The invariant of a list of pending requests: no two of them have one id or one meaning. -/
structure PendingRequestsSound (pending : List (ExtensionUiRequest J T)) : Prop where
  ids_nodup : (pending.map (·.id)).Nodup
  keys_nodup : (pending.map extensionRequestSemanticKey).Nodup
  keyed : ∀ request ∈ pending, (extensionRequestSemanticKey request).isSome
  bounded : pending.length ≤ maxPendingExtensionRequests

theorem sliceLast_sublist {A : Type} (count : ℕ) (items : List A) :
    List.Sublist (sliceLast count items) items := List.drop_sublist _ _

theorem length_sliceLast_le {A : Type} (count : ℕ) (items : List A) :
    (sliceLast count items).length ≤ count := by
  rw [sliceLast, List.length_drop]
  omega

namespace PendingRequestsSound

variable {pending : List (ExtensionUiRequest J T)}

theorem nil : PendingRequestsSound ([] : List (ExtensionUiRequest J T)) where
  ids_nodup := List.nodup_nil
  keys_nodup := List.nodup_nil
  keyed := by simp
  bounded := Nat.zero_le _

theorem sublist {kept : List (ExtensionUiRequest J T)} (h : PendingRequestsSound pending)
    (hkept : List.Sublist kept pending) : PendingRequestsSound kept where
  ids_nodup := h.ids_nodup.sublist (hkept.map _)
  keys_nodup := h.keys_nodup.sublist (hkept.map _)
  keyed := fun request hmem => h.keyed request (hkept.subset hmem)
  bounded := Nat.le_trans hkept.length_le h.bounded

theorem replaceRequest (h : PendingRequestsSound pending) (request : ExtensionUiRequest J T) :
    PendingRequestsSound (replaceRequest pending request) := by
  unfold PiAgentWeb.replaceRequest
  split
  · exact h
  · rename_i semanticKey hkey
    have hothers := h.sublist (List.filter_sublist (p := fun candidate => decide
      (candidate.id ≠ request.id ∧ extensionRequestSemanticKey candidate ≠ some semanticKey)))
    have hslice := sliceLast_sublist maxPendingExtensionRequests
      (pending.filter (fun candidate =>
        candidate.id ≠ request.id ∧ extensionRequestSemanticKey candidate ≠ some semanticKey) ++
          [request])
    refine ⟨List.Nodup.sublist (hslice.map _) ?_, List.Nodup.sublist (hslice.map _) ?_, ?_,
      length_sliceLast_le _ _⟩
    · rw [List.map_append]
      refine List.nodup_append.mpr ⟨hothers.ids_nodup, by simp, ?_⟩
      intro id hid other hother
      obtain ⟨candidate, hcandidate, rfl⟩ := List.mem_map.mp hid
      obtain rfl : other = request.id := by simpa using hother
      have hdiffers := of_decide_eq_true (List.mem_filter.mp hcandidate).2
      exact hdiffers.1
    · rw [List.map_append]
      refine List.nodup_append.mpr ⟨hothers.keys_nodup, by simp, ?_⟩
      intro key hmem other hother
      obtain ⟨candidate, hcandidate, rfl⟩ := List.mem_map.mp hmem
      obtain rfl : other = extensionRequestSemanticKey request := by simpa using hother
      have hdiffers := of_decide_eq_true (List.mem_filter.mp hcandidate).2
      rw [hkey]
      exact hdiffers.2
    · intro candidate hmem
      rcases List.mem_append.mp (hslice.subset hmem) with hother | hlast
      · exact hothers.keyed candidate hother
      · obtain rfl : candidate = request := by simpa using hlast
        rw [hkey]
        rfl

end PendingRequestsSound

theorem normalizeExtensionRequests_sound (requests : List (ExtensionUiRequest J T)) :
    PendingRequestsSound (normalizeExtensionRequests requests) := by
  have hfold (requests : List (ExtensionUiRequest J T)) :
      ∀ {pending}, PendingRequestsSound pending →
        PendingRequestsSound (requests.foldl replaceRequest pending) := by
    induction requests with
    | nil => exact fun h => h
    | cons request rest ih => exact fun h => ih (h.replaceRequest request)
  exact hfold requests .nil

theorem mem_replaceRequest {pending : List (ExtensionUiRequest J T)}
    {request candidate : ExtensionUiRequest J T} (h : candidate ∈ replaceRequest pending request) :
    candidate ∈ pending ∨ candidate = request := by
  unfold replaceRequest at h
  split at h
  · exact .inl h
  · rcases List.mem_append.mp ((sliceLast_sublist _ _).subset h) with hother | hlast
    · exact .inl (List.mem_filter.mp hother).1
    · exact .inr (by simpa using hlast)

theorem mem_normalizeExtensionRequests {requests : List (ExtensionUiRequest J T)}
    {candidate : ExtensionUiRequest J T} (h : candidate ∈ normalizeExtensionRequests requests) :
    candidate ∈ requests := by
  have hfold (requests : List (ExtensionUiRequest J T)) :
      ∀ {pending}, candidate ∈ requests.foldl replaceRequest pending →
        candidate ∈ pending ∨ candidate ∈ requests := by
    induction requests with
    | nil => exact fun h => .inl h
    | cons request rest ih =>
      intro pending h
      rcases ih h with hpending | hrest
      · rcases mem_replaceRequest hpending with hold | rfl
        · exact .inl hold
        · exact .inr (by simp)
      · exact .inr (by simp [hrest])
  rcases hfold requests h with hnil | hmem
  · simp at hnil
  · exact hmem

/-- A Session without its remembered notifications. -/
def SessionExtensionMachineSessionState.silent (session : SessionExtensionMachineSessionState J T) :
    SessionExtensionMachineSessionState J T := { session with deliveredNotifyKeys := [] }

namespace SessionExtensionMachineState

variable (state : SessionExtensionMachineState J T) (identity : SessionRuntimeIdentity)

/-- What the machine keeps for a Session, less its remembered notifications. -/
def requestsAt (sessionHandle : SessionHandle) :
    Option (SessionExtensionMachineSessionState J T) :=
  (state.sessions.get? sessionHandle).map SessionExtensionMachineSessionState.silent

theorem requestsAt_withSession (sessionHandle other : SessionHandle)
    (session : SessionExtensionMachineSessionState J T) :
    (state.withSession sessionHandle session).requestsAt other =
      if other = sessionHandle then some session.silent else state.requestsAt other := by
  unfold requestsAt withSession
  rw [InsertionMap.get?_insert]
  by_cases hother : other = sessionHandle <;> simp [hother]

theorem requestsAt_withoutSession (sessionHandle other : SessionHandle) :
    (state.withoutSession sessionHandle).requestsAt other =
      if other = sessionHandle then none else state.requestsAt other := by
  unfold requestsAt withoutSession
  rw [InsertionMap.get?_erase]
  by_cases hother : other = sessionHandle <;> simp [hother]

theorem requestsAt_forgetNotified (handles : List SessionHandle) (other : SessionHandle) :
    (state.forgetNotified handles).requestsAt other = state.requestsAt other := rfl

theorem requestsAt_clearNotifyKeys (sessionHandle other : SessionHandle) :
    (state.clearNotifyKeys sessionHandle).requestsAt other = state.requestsAt other := by
  unfold clearNotifyKeys
  cases hcurrent : state.sessions.get? sessionHandle with
  | none => rfl
  | some current =>
    simp only [requestsAt_withSession]
    by_cases hother : other = sessionHandle
    · subst hother
      simp [requestsAt, hcurrent, SessionExtensionMachineSessionState.silent]
    · rw [if_neg hother]

theorem requestsAt_evictNotified (sessionHandle other : SessionHandle) :
    ∀ (order : List SessionHandle) (sessions : SessionExtensionMachineState J T),
      (evictNotified sessionHandle order sessions).requestsAt other = sessions.requestsAt other
  | [], _ => rfl
  | oldest :: rest, sessions => by
    unfold evictNotified
    split
    · rw [requestsAt_evictNotified sessionHandle other rest]
      split
      · exact requestsAt_clearNotifyKeys _ _ _
      · rfl
    · rfl

theorem silent_sessionFor : (state.sessionFor identity).silent =
    match state.requestsAt identity.sessionHandle with
    | some current =>
      if current.identity = some identity then current else emptyExtensionSession (some identity)
    | none => emptyExtensionSession (some identity) := by
  unfold sessionFor requestsAt
  cases hcurrent : state.sessions.get? identity.sessionHandle with
  | none => rfl
  | some current =>
    simp only [Option.map_some, SessionExtensionMachineSessionState.silent]
    by_cases hidentity : current.identity = some identity
    · rw [if_pos hidentity, if_pos hidentity]
    · rw [if_neg hidentity, if_neg hidentity]
      rfl

theorem identity_sessionFor : (state.sessionFor identity).identity = some identity := by
  unfold sessionFor
  split
  · split
    · assumption
    · rfl
  · rfl

theorem requestsAt_rememberNotify (key : JsString) (other : SessionHandle) :
    (state.rememberNotify identity key).1.requestsAt other =
      if other = identity.sessionHandle ∧ key ∉ (state.sessionFor identity).deliveredNotifyKeys then
        some (state.sessionFor identity).silent
      else state.requestsAt other := by
  unfold rememberNotify
  by_cases hkey : key ∈ (state.sessionFor identity).deliveredNotifyKeys
  · simp [hkey]
  · have hidentity := state.identity_sessionFor identity
    simp only [hkey, if_false, hidentity, ne_eq, not_true_eq_false, requestsAt_evictNotified,
      requestsAt_withSession, not_false_eq_true, and_true]
    by_cases hother : other = identity.sessionHandle
    · rw [if_pos hother, if_pos hother]
      simp [SessionExtensionMachineSessionState.silent, hidentity]
    · rw [if_neg hother, if_neg hother]

/-- The pending requests of every Session are sound. -/
def RequestsSound : Prop :=
  ∀ sessionHandle session, state.requestsAt sessionHandle = some session →
    PendingRequestsSound session.pending

namespace RequestsSound

variable {state : SessionExtensionMachineState J T} {identity : SessionRuntimeIdentity}

theorem sessionFor (h : state.RequestsSound) :
    PendingRequestsSound (state.sessionFor identity).pending := by
  have hsilent := state.silent_sessionFor identity
  have hpending : (state.sessionFor identity).pending =
      (state.sessionFor identity).silent.pending := rfl
  rw [hpending, hsilent]
  split
  · rename_i current hcurrent
    split
    · exact h _ current hcurrent
    · exact .nil
  · exact .nil

theorem withSession (h : state.RequestsSound) (sessionHandle : SessionHandle)
    {session : SessionExtensionMachineSessionState J T}
    (hsession : PendingRequestsSound session.pending) :
    (state.withSession sessionHandle session).RequestsSound := by
  intro other found hfound
  rw [requestsAt_withSession] at hfound
  split at hfound
  · obtain rfl := Option.some.inj hfound
    exact hsession
  · exact h other found hfound

theorem withoutSession (h : state.RequestsSound) (sessionHandle : SessionHandle) :
    (state.withoutSession sessionHandle).RequestsSound := by
  intro other found hfound
  rw [requestsAt_withoutSession] at hfound
  split at hfound
  · cases hfound
  · exact h other found hfound

theorem clearNotifyKeys (h : state.RequestsSound) (sessionHandle : SessionHandle) :
    (state.clearNotifyKeys sessionHandle).RequestsSound := by
  intro other found hfound
  rw [requestsAt_clearNotifyKeys] at hfound
  exact h other found hfound

theorem forgetNotified (h : state.RequestsSound) (handles : List SessionHandle) :
    (state.forgetNotified handles).RequestsSound := h

theorem rememberNotify (h : state.RequestsSound) (key : JsString) :
    (state.rememberNotify identity key).1.RequestsSound := by
  intro other found hfound
  rw [requestsAt_rememberNotify] at hfound
  split at hfound
  · obtain rfl := Option.some.inj hfound
    exact h.sessionFor
  · exact h other found hfound

theorem reduce (h : state.RequestsSound) (event : SessionExtensionMachineEvent J T) :
    (reduceSessionExtensionMachine state event).state.RequestsSound := by
  cases event with
  | hydrate identity pending =>
    simp only [reduceSessionExtensionMachine]
    split
    · exact h
    · exact h.withSession _ (normalizeExtensionRequests_sound pending)
  | replay identity frame notifyDelivered =>
    cases frame with
    | request seq request =>
      simp only [reduceSessionExtensionMachine, replay]
      split
      · split
        · exact h
        · exact h.rememberNotify _
      · exact h.withSession _ (h.sessionFor.replaceRequest request)
    | closed seq requestId =>
      exact h.withSession _ (h.sessionFor.sublist List.filter_sublist)
  | replaceSnapshot identity requests =>
    exact h.withSession _ (normalizeExtensionRequests_sound requests)
  | result identity requestId resyncing =>
    exact h.withSession _ (h.sessionFor.sublist List.filter_sublist)
  | clearAcknowledged identity =>
    simp only [reduceSessionExtensionMachine]
    split
    · rename_i current hcurrent
      split
      · refine h.withSession _ ?_
        exact h _ current.silent (by rw [requestsAt, hcurrent]; rfl)
      · exact h
    · exact h
  | clearNotify identity =>
    simp only [reduceSessionExtensionMachine]
    split
    · exact (h.clearNotifyKeys _).forgetNotified _
    · exact h
  | clearNotifySession sessionHandle =>
    simp only [reduceSessionExtensionMachine]
    split
    · exact (h.clearNotifyKeys _).forgetNotified _
    · exact h
  | reset sessionHandle => exact (h.withoutSession _).forgetNotified _
  | rekey previousSessionHandle identity =>
    exact ((h.withoutSession _).withoutSession _).forgetNotified _

end RequestsSound

/-- The notifications that are remembered for a Session. -/
def notifyKeysAt (sessionHandle : SessionHandle) : List JsString :=
  match state.sessions.get? sessionHandle with
  | some session => session.deliveredNotifyKeys
  | none => []

theorem notifyKeysAt_withSession (sessionHandle other : SessionHandle)
    (session : SessionExtensionMachineSessionState J T) :
    (state.withSession sessionHandle session).notifyKeysAt other =
      if other = sessionHandle then session.deliveredNotifyKeys else state.notifyKeysAt other := by
  unfold notifyKeysAt withSession
  rw [InsertionMap.get?_insert]
  by_cases hother : other = sessionHandle <;> simp [hother]

theorem notifyKeysAt_withoutSession (sessionHandle other : SessionHandle) :
    (state.withoutSession sessionHandle).notifyKeysAt other =
      if other = sessionHandle then [] else state.notifyKeysAt other := by
  unfold notifyKeysAt withoutSession
  rw [InsertionMap.get?_erase]
  by_cases hother : other = sessionHandle <;> simp [hother]

theorem notifyKeysAt_clearNotifyKeys (sessionHandle other : SessionHandle) :
    (state.clearNotifyKeys sessionHandle).notifyKeysAt other =
      if other = sessionHandle then [] else state.notifyKeysAt other := by
  unfold clearNotifyKeys
  cases hcurrent : state.sessions.get? sessionHandle with
  | none =>
    by_cases hother : other = sessionHandle
    · subst hother
      simp [notifyKeysAt, hcurrent]
    · simp [hother]
  | some current => simp [notifyKeysAt_withSession]

theorem notifyKeys_sessionFor {key : JsString}
    (h : key ∈ (state.sessionFor identity).deliveredNotifyKeys) :
    (state.sessions.get? identity.sessionHandle).bind (·.identity) = some identity ∧
      (state.sessionFor identity).deliveredNotifyKeys =
        state.notifyKeysAt identity.sessionHandle := by
  unfold sessionFor notifyKeysAt at *
  cases hcurrent : state.sessions.get? identity.sessionHandle with
  | none => simp [hcurrent, emptyExtensionSession] at h
  | some current =>
    simp only [hcurrent] at h ⊢
    by_cases hidentity : current.identity = some identity
    · rw [if_pos hidentity]
      exact ⟨hidentity, rfl⟩
    · rw [if_neg hidentity] at h
      simp [emptyExtensionSession] at h

/-- The recency list is bounded and names the Sessions with remembered notifications. -/
structure NotifiedSound : Prop where
  bounded : state.deliveredNotifyIdentityOrder.length ≤ maxDeliveredNotifyIdentities
  named : [] ∉ state.deliveredNotifyIdentityOrder
  listed : ∀ sessionHandle, state.notifyKeysAt sessionHandle ≠ [] →
    sessionHandle ∈ state.deliveredNotifyIdentityOrder

namespace NotifiedSound

variable {state : SessionExtensionMachineState J T} {identity : SessionRuntimeIdentity}

theorem withSession (h : state.NotifiedSound) {sessionHandle : SessionHandle}
    {session : SessionExtensionMachineSessionState J T}
    (hsession : ∀ key ∈ session.deliveredNotifyKeys, key ∈ state.notifyKeysAt sessionHandle) :
    (state.withSession sessionHandle session).NotifiedSound := by
  refine ⟨h.bounded, h.named, fun other hother => ?_⟩
  rw [notifyKeysAt_withSession] at hother
  split at hother
  · rename_i heq
    subst heq
    obtain ⟨key, hkey⟩ := List.exists_mem_of_ne_nil _ hother
    exact h.listed other (List.ne_nil_of_mem (hsession key hkey))
  · exact h.listed other hother

theorem withSessionFor (h : state.NotifiedSound) {session : SessionExtensionMachineSessionState J T}
    (hsession : session.deliveredNotifyKeys =
      (state.sessionFor identity).deliveredNotifyKeys) :
    (state.withSession identity.sessionHandle session).NotifiedSound := by
  refine h.withSession fun key hkey => ?_
  rw [hsession] at hkey
  rw [← (state.notifyKeys_sessionFor identity hkey).2]
  exact hkey

theorem forgetNotified (h : state.NotifiedSound) {handles : List SessionHandle}
    {next : SessionExtensionMachineState J T}
    (horder : next.deliveredNotifyIdentityOrder = state.deliveredNotifyIdentityOrder)
    (hkeys : ∀ other, next.notifyKeysAt other ≠ [] →
      other ∉ handles ∧ state.notifyKeysAt other ≠ []) :
    (next.forgetNotified handles).NotifiedSound := by
  refine ⟨?_, ?_, fun other hother => ?_⟩
  · have hle := List.length_filter_le (fun other => decide (other ∉ handles))
      next.deliveredNotifyIdentityOrder
    have hbounded := h.bounded
    rw [horder] at hle
    simp only [SessionExtensionMachineState.forgetNotified, horder]
    omega
  · intro hmem
    have hmem := (List.mem_filter.mp hmem).1
    rw [horder] at hmem
    exact h.named hmem
  · obtain ⟨hnot, hold⟩ := hkeys other hother
    refine List.mem_filter.mpr ⟨?_, by simpa using hnot⟩
    rw [horder]
    exact h.listed other hold

theorem clearNotify (h : state.NotifiedSound) (sessionHandle : SessionHandle) :
    ((state.clearNotifyKeys sessionHandle).forgetNotified [sessionHandle]).NotifiedSound := by
  refine h.forgetNotified ?_ fun other hother => ?_
  · unfold clearNotifyKeys
    split <;> rfl
  · rw [notifyKeysAt_clearNotifyKeys] at hother
    by_cases heq : other = sessionHandle <;> simp_all

end NotifiedSound

/-- The loop of `rememberNotify` ends with a sound list if every Session with notifications was in
the list and the Session that was notified is its last. -/
theorem evictNotified_sound (sessionHandle : SessionHandle) :
    ∀ (order : List SessionHandle) (sessions : SessionExtensionMachineState J T),
      [] ∉ order → (order ≠ [] → order.getLast? = some sessionHandle) →
      (∀ other, sessions.notifyKeysAt other ≠ [] → other ∈ order) →
      (evictNotified sessionHandle order sessions).NotifiedSound
  | [], sessions, hnamed, _, hlisted =>
    ⟨Nat.zero_le _, hnamed, fun other hother => hlisted other hother⟩
  | oldest :: rest, sessions, hnamed, hlast, hlisted => by
    unfold evictNotified
    split
    · rename_i hlong
      have hrest : rest ≠ [] := by
        rintro rfl
        simp [maxDeliveredNotifyIdentities] at hlong
      have hlast : rest.getLast? = some sessionHandle := by
        rw [← hlast (by simp), List.getLast?_cons_of_ne_nil hrest]
      have holdest : oldest ≠ [] := fun h => hnamed (by simp [h])
      refine evictNotified_sound sessionHandle rest _ (fun h => hnamed (by simp [h]))
        (fun _ => hlast) fun other hother => ?_
      split at hother
      · rw [notifyKeysAt_clearNotifyKeys] at hother
        by_cases heq : other = oldest
        · simp [heq] at hother
        · rw [if_neg heq] at hother
          exact (List.mem_cons.mp (hlisted other hother)).resolve_left heq
      · -- the oldest Session is the notified one, which is also the last of the list
        rename_i hsame
        rcases List.mem_cons.mp (hlisted other hother) with heq | hmem
        · have hnotified : oldest = sessionHandle := by
            by_contra hne
            exact hsame ⟨holdest, hne⟩
          rw [heq, hnotified]
          exact List.mem_of_getLast? hlast
        · exact hmem
    · rename_i hshort
      exact ⟨Nat.not_lt.mp hshort, hnamed, hlisted⟩

theorem NotifiedSound.rememberNotify {state : SessionExtensionMachineState J T}
    {identity : SessionRuntimeIdentity} (h : state.NotifiedSound)
    (hnamed : identity.sessionHandle ≠ []) (key : JsString) :
    (state.rememberNotify identity key).1.NotifiedSound := by
  unfold SessionExtensionMachineState.rememberNotify
  by_cases hkey : key ∈ (state.sessionFor identity).deliveredNotifyKeys
  · simpa only [hkey, if_true] using h
  · have hidentity := state.identity_sessionFor identity
    simp only [hkey, if_false, hidentity, ne_eq, not_true_eq_false]
    refine evictNotified_sound _ _ _ ?_ (fun _ => by simp) fun other hother => ?_
    · rw [List.mem_append, not_or]
      refine ⟨fun hmem => h.named (List.mem_filter.mp hmem).1, ?_⟩
      simpa [eq_comm] using hnamed
    · rw [notifyKeysAt_withSession] at hother
      by_cases heq : other = identity.sessionHandle
      · simp [heq]
      · rw [if_neg heq] at hother
        exact List.mem_append_left _ (List.mem_filter.mpr ⟨h.listed other hother, by simpa⟩)

end SessionExtensionMachineState

/-- The frames that are replayed name a Session, as the guards of the protocol demand. -/
def SessionExtensionMachineEvent.NamesSession : SessionExtensionMachineEvent J T → Prop
  | .replay identity _ _ => identity.sessionHandle ≠ []
  | _ => True

instance : DecidablePred (SessionExtensionMachineEvent.NamesSession (J := J) (T := T)) :=
  fun event => by
    cases event <;> unfold SessionExtensionMachineEvent.NamesSession <;> infer_instance

namespace SessionExtensionMachineState

variable (state : SessionExtensionMachineState J T) (identity : SessionRuntimeIdentity)

theorem NotifiedSound.reduce {state : SessionExtensionMachineState J T} (h : state.NotifiedSound)
    (event : SessionExtensionMachineEvent J T) (hnamed : event.NamesSession) :
    (reduceSessionExtensionMachine state event).state.NotifiedSound := by
  cases event with
  | hydrate identity pending =>
    simp only [reduceSessionExtensionMachine]
    split
    · exact h
    · exact h.withSession (by simp [emptyExtensionSession])
  | replay identity frame notifyDelivered =>
    cases frame with
    | request seq request =>
      simp only [reduceSessionExtensionMachine, replay]
      split
      · split
        · exact h
        · exact h.rememberNotify hnamed _
      · exact h.withSessionFor rfl
    | closed seq requestId => exact h.withSessionFor rfl
  | replaceSnapshot identity requests => exact h.withSessionFor rfl
  | result identity requestId resyncing => exact h.withSessionFor rfl
  | clearAcknowledged identity =>
    simp only [reduceSessionExtensionMachine]
    split
    · rename_i current hcurrent
      split
      · refine h.withSession fun key hkey => ?_
        rw [notifyKeysAt, hcurrent]
        exact hkey
      · exact h
    · exact h
  | clearNotify identity =>
    simp only [reduceSessionExtensionMachine]
    split
    · exact h.clearNotify identity.sessionHandle
    · exact h
  | clearNotifySession sessionHandle =>
    simp only [reduceSessionExtensionMachine]
    split
    · exact h.clearNotify sessionHandle
    · exact h
  | reset sessionHandle =>
    refine h.forgetNotified rfl fun other hother => ?_
    rw [notifyKeysAt_withoutSession] at hother
    by_cases heq : other = sessionHandle <;> simp_all
  | rekey previousSessionHandle identity =>
    refine h.forgetNotified rfl fun other hother => ?_
    rw [notifyKeysAt_withoutSession, notifyKeysAt_withoutSession] at hother
    by_cases hnew : other = identity.sessionHandle
    · simp [hnew] at hother
    · by_cases hold : other = previousSessionHandle <;> simp_all

theorem replay_remembered {frame : ExtensionReplayFrame J T} {seq : ℕ}
    {request : ExtensionUiRequest J T} (hframe : frame = .request seq request)
    (hnotify : request.body.isNotify = true)
    (hkey : extensionNotifyKey frame ∈ (state.sessionFor identity).deliveredNotifyKeys) :
    state.replay identity frame true =
      { state := state
        intents := [.notifyDeduped identity.sessionHandle (extensionNotifyKey frame)] } := by
  subst hframe
  simp only [replay, hnotify, if_true, Bool.not_true, rememberNotify, hkey]
  rfl

theorem acknowledged_eq : state.acknowledged identity =
    match state.requestsAt identity.sessionHandle with
    | some session =>
      if session.identity = some identity then session.acknowledgedRequestIds else []
    | none => [] := by
  unfold acknowledged requestsAt
  cases state.sessions.get? identity.sessionHandle <;> rfl

theorem acknowledgedRequestIds_sessionFor :
    (state.sessionFor identity).acknowledgedRequestIds = state.acknowledged identity := by
  unfold sessionFor acknowledged
  cases state.sessions.get? identity.sessionHandle with
  | none => rfl
  | some current => by_cases hidentity : current.identity = some identity <;> simp [hidentity,
      emptyExtensionSession]

theorem acknowledged_withSession {other : SessionRuntimeIdentity}
    {session : SessionExtensionMachineSessionState J T} (hsession : session.identity = some other) :
    (state.withSession other.sessionHandle session).acknowledged identity =
      if identity.sessionHandle = other.sessionHandle then
        if other = identity then session.acknowledgedRequestIds else []
      else state.acknowledged identity := by
  rw [acknowledged_eq, requestsAt_withSession]
  by_cases hhandle : identity.sessionHandle = other.sessionHandle
  · simp [hhandle, hsession, SessionExtensionMachineSessionState.silent]
  · rw [if_neg hhandle, if_neg hhandle, ← acknowledged_eq]

theorem acknowledged_of_other {other : SessionRuntimeIdentity}
    (hhandle : other.sessionHandle = identity.sessionHandle) (hne : other ≠ identity)
    (hother : (state.sessions.get? other.sessionHandle).bind (·.identity) = some other) :
    state.acknowledged identity = [] := by
  unfold acknowledged
  rw [← hhandle]
  cases hcurrent : state.sessions.get? other.sessionHandle with
  | none => rfl
  | some current =>
    rw [hcurrent] at hother
    have hother : current.identity = some other := hother
    simp [hother, hne]

end SessionExtensionMachineState

/-- The event acknowledges the request of the runtime. -/
def SessionExtensionMachineEvent.acknowledges (identity : SessionRuntimeIdentity)
    (requestId : JsString) : SessionExtensionMachineEvent J T → Prop
  | .result i id resyncing => i = identity ∧ id = requestId ∧ resyncing = true
  | _ => False

/-- The event writes the Session of another runtime under the handle. -/
def replacesRuntime (identity other : SessionRuntimeIdentity) : Prop :=
  other.sessionHandle = identity.sessionHandle ∧ other ≠ identity

/-- The event abandons the acknowledgements of the runtime: they are cleared, or the Session is
deleted or becomes that of another runtime. -/
def SessionExtensionMachineEvent.abandons (identity : SessionRuntimeIdentity) :
    SessionExtensionMachineEvent J T → Prop
  | .hydrate i _ => replacesRuntime identity i
  | .replay i frame notifyDelivered =>
    replacesRuntime identity i ∧
      ¬ (∃ seq request, frame = .request seq request ∧ request.body.isNotify = true ∧
        notifyDelivered = false)
  | .replaceSnapshot i _ => replacesRuntime identity i
  | .result i _ _ => replacesRuntime identity i
  | .clearAcknowledged i => i = identity
  | .clearNotify _ => False
  | .clearNotifySession _ => False
  | .reset sessionHandle => sessionHandle = identity.sessionHandle
  | .rekey previousSessionHandle i =>
    previousSessionHandle = identity.sessionHandle ∨ i.sessionHandle = identity.sessionHandle

namespace SessionExtensionMachineState

variable (state : SessionExtensionMachineState J T) (identity : SessionRuntimeIdentity)

theorem mem_acknowledged_withSession {other : SessionRuntimeIdentity}
    {session : SessionExtensionMachineSessionState J T} (hsession : session.identity = some other)
    (hids : session.acknowledgedRequestIds = state.acknowledged other) (id : JsString) :
    id ∈ (state.withSession other.sessionHandle session).acknowledged identity ↔
      id ∈ state.acknowledged identity ∧ ¬ replacesRuntime identity other := by
  rw [acknowledged_withSession _ _ hsession, hids]
  by_cases hhandle : identity.sessionHandle = other.sessionHandle
  · by_cases hother : other = identity
    · subst hother
      simp [replacesRuntime]
    · simp [replacesRuntime, hhandle, hother]
  · have hhandle' : other.sessionHandle ≠ identity.sessionHandle := fun h => hhandle h.symm
    simp [replacesRuntime, hhandle, hhandle']

theorem mem_acknowledged_withPending (other : SessionRuntimeIdentity)
    (pending : List (ExtensionUiRequest J T)) (id : JsString) :
    id ∈ (state.withPending other pending).acknowledged identity ↔
      id ∈ state.acknowledged identity ∧ ¬ replacesRuntime identity other :=
  mem_acknowledged_withSession state identity (by rfl)
    (by exact state.acknowledgedRequestIds_sessionFor other) id

theorem acknowledged_congr {next : SessionExtensionMachineState J T}
    (h : next.requestsAt identity.sessionHandle = state.requestsAt identity.sessionHandle) :
    next.acknowledged identity = state.acknowledged identity := by
  rw [acknowledged_eq, acknowledged_eq, h]

theorem acknowledged_clearNotify (sessionHandle : SessionHandle) :
    ((state.clearNotifyKeys sessionHandle).forgetNotified [sessionHandle]).acknowledged identity =
      state.acknowledged identity :=
  acknowledged_congr state identity (by
    rw [requestsAt_forgetNotified, requestsAt_clearNotifyKeys])

theorem acknowledged_of_none {next : SessionExtensionMachineState J T}
    (h : next.requestsAt identity.sessionHandle = none) : next.acknowledged identity = [] := by
  rw [acknowledged_eq, h]

theorem mem_acknowledged_rememberNotify (other : SessionRuntimeIdentity) (key id : JsString) :
    id ∈ (state.rememberNotify other key).1.acknowledged identity ↔
      id ∈ state.acknowledged identity ∧ ¬ replacesRuntime identity other := by
  by_cases hkey : key ∈ (state.sessionFor other).deliveredNotifyKeys
  · have hsame : (state.rememberNotify other key).1.acknowledged identity =
        state.acknowledged identity :=
      acknowledged_congr _ _ (by rw [requestsAt_rememberNotify]; simp [hkey])
    rw [hsame, iff_self_and]
    rintro hid ⟨hhandle, hne⟩
    rw [state.acknowledged_of_other identity hhandle hne
      (state.notifyKeys_sessionFor other hkey).1] at hid
    simp at hid
  · have hwritten : (state.rememberNotify other key).1.acknowledged identity =
        (state.withSession other.sessionHandle (state.sessionFor other)).acknowledged identity :=
      acknowledged_congr _ _ (by
        rw [requestsAt_rememberNotify, requestsAt_withSession]
        simp [hkey])
    rw [hwritten]
    exact state.mem_acknowledged_withSession identity (state.identity_sessionFor other)
      (state.acknowledgedRequestIds_sessionFor other) id

/-- One event acknowledges a request, or it keeps the acknowledgement unless it abandons the
runtime's. -/
theorem mem_acknowledged_reduce (event : SessionExtensionMachineEvent J T) (id : JsString) :
    id ∈ (reduceSessionExtensionMachine state event).state.acknowledged identity ↔
      event.acknowledges identity id ∨
        id ∈ state.acknowledged identity ∧ ¬ event.abandons identity := by
  unfold SessionExtensionMachineEvent.acknowledges SessionExtensionMachineEvent.abandons
  cases event with
  | hydrate other pending =>
    simp only [reduceSessionExtensionMachine, false_or]
    split
    · rename_i hsame
      rw [iff_self_and]
      rintro hid ⟨hhandle, hne⟩
      rw [state.acknowledged_of_other identity hhandle hne hsame] at hid
      simp at hid
    · rename_i hdiffers
      refine state.mem_acknowledged_withSession identity rfl ?_ id
      -- the Session had another runtime, so the new one had no acknowledgements
      unfold acknowledged
      cases hcurrent : state.sessions.get? other.sessionHandle with
      | none => rfl
      | some current =>
        rw [hcurrent] at hdiffers
        have hdiffers : ¬ current.identity = some other := hdiffers
        simp [hdiffers, emptyExtensionSession]
  | replay other frame notifyDelivered =>
    cases frame with
    | request seq request =>
      simp only [reduceSessionExtensionMachine, replay, false_or]
      by_cases hnotify : request.body.isNotify = true
      · cases notifyDelivered with
        | false => simp [hnotify]
        | true =>
          simp only [hnotify, if_true, Bool.not_true, Bool.false_eq_true, if_false]
          rw [mem_acknowledged_rememberNotify]
          simp
      · rw [if_neg hnotify, mem_acknowledged_withPending]
        simp [hnotify]
    | closed seq requestId =>
      simp only [reduceSessionExtensionMachine, replay, false_or]
      rw [mem_acknowledged_withPending]
      simp
  | replaceSnapshot other requests =>
    simp only [reduceSessionExtensionMachine, false_or]
    exact state.mem_acknowledged_withPending identity other _ id
  | result other requestId resyncing =>
    simp only [reduceSessionExtensionMachine, acknowledgedRequestIds_sessionFor]
    rw [acknowledged_withSession _ _ rfl]
    by_cases hhandle : identity.sessionHandle = other.sessionHandle
    · by_cases hother : other = identity
      · subst hother
        cases resyncing <;> simp [replacesRuntime, or_comm, eq_comm]
      · simp [replacesRuntime, hhandle, hother]
    · have hhandle' : other.sessionHandle ≠ identity.sessionHandle := fun h => hhandle h.symm
      have hother : other ≠ identity := fun h => hhandle (by rw [h])
      simp [replacesRuntime, hhandle, hhandle', hother]
  | clearAcknowledged other =>
    simp only [reduceSessionExtensionMachine, false_or]
    split
    · rename_i current hcurrent
      split
      · rename_i hsame
        have hcleared : ({ current with acknowledgedRequestIds := [] } :
            SessionExtensionMachineSessionState J T).identity = some other := hsame
        rw [acknowledged_withSession _ _ hcleared]
        by_cases hother : other = identity
        · subst hother
          simp
        · by_cases hhandle : identity.sessionHandle = other.sessionHandle
          · have hnone := state.acknowledged_of_other identity hhandle.symm hother
              (by rw [hcurrent]; exact hsame)
            simp [hhandle, hother, hnone]
          · simp [hhandle, hother]
      · rename_i hdiffers
        rw [iff_self_and]
        rintro hid rfl
        simp [acknowledged, hcurrent, hdiffers] at hid
    · rename_i hcurrent
      rw [iff_self_and]
      rintro hid rfl
      simp [acknowledged, hcurrent] at hid
  | clearNotify other =>
    simp only [reduceSessionExtensionMachine, false_or, not_false_eq_true, and_true]
    split
    · rw [acknowledged_clearNotify]
    · rfl
  | clearNotifySession sessionHandle =>
    simp only [reduceSessionExtensionMachine, false_or, not_false_eq_true, and_true]
    split
    · rw [acknowledged_clearNotify]
    · rfl
  | reset sessionHandle =>
    simp only [reduceSessionExtensionMachine, false_or]
    have hrequests := state.requestsAt_withoutSession sessionHandle identity.sessionHandle
    by_cases hhandle : identity.sessionHandle = sessionHandle
    · rw [if_pos hhandle] at hrequests
      rw [acknowledged_of_none identity (by rw [requestsAt_forgetNotified, hrequests])]
      simp [hhandle]
    · rw [if_neg hhandle] at hrequests
      rw [acknowledged_congr state identity (by rw [requestsAt_forgetNotified, hrequests])]
      have hhandle : sessionHandle ≠ identity.sessionHandle := fun h => hhandle h.symm
      simp [hhandle]
  | rekey previousSessionHandle other =>
    simp only [reduceSessionExtensionMachine, false_or]
    have hrequests := (state.withoutSession previousSessionHandle).requestsAt_withoutSession
      other.sessionHandle identity.sessionHandle
    rw [state.requestsAt_withoutSession previousSessionHandle identity.sessionHandle] at hrequests
    by_cases hnew : identity.sessionHandle = other.sessionHandle
    · rw [if_pos hnew] at hrequests
      rw [acknowledged_of_none identity (by rw [requestsAt_forgetNotified, hrequests])]
      simp [hnew]
    · by_cases hold : identity.sessionHandle = previousSessionHandle
      · rw [if_neg hnew, if_pos hold] at hrequests
        rw [acknowledged_of_none identity (by rw [requestsAt_forgetNotified, hrequests])]
        simp [hold]
      · rw [if_neg hnew, if_neg hold] at hrequests
        rw [acknowledged_congr state identity (by rw [requestsAt_forgetNotified, hrequests])]
        have hnew : other.sessionHandle ≠ identity.sessionHandle := fun h => hnew h.symm
        have hold : previousSessionHandle ≠ identity.sessionHandle := fun h => hold h.symm
        simp [hnew, hold]

/-- The state after a run of events. -/
def reduceAll (events : List (SessionExtensionMachineEvent J T)) :
    SessionExtensionMachineState J T :=
  runFrom (fun state event => (reduceSessionExtensionMachine state event).state) state events

theorem pending_withPending (pending : List (ExtensionUiRequest J T)) :
    ((state.withPending identity pending).sessionFor identity).pending = pending := by
  simp [withPending, withSession, sessionFor]

theorem pending_rememberNotify (key : JsString) :
    ((state.rememberNotify identity key).1.sessionFor identity).pending =
      (state.sessionFor identity).pending := by
  have hsilent :
      ((state.rememberNotify identity key).1.sessionFor identity).silent =
        (state.sessionFor identity).silent := by
    rw [silent_sessionFor, requestsAt_rememberNotify]
    split
    · rename_i current hcurrent
      split at hcurrent
      · obtain rfl := Option.some.inj hcurrent
        exact if_pos (state.identity_sessionFor identity)
      · rw [silent_sessionFor, hcurrent]
    · rename_i hcurrent
      split at hcurrent
      · cases hcurrent
      · rw [silent_sessionFor, hcurrent]
  have hpending (session : SessionExtensionMachineSessionState J T) :
      session.pending = session.silent.pending := rfl
  rw [hpending ((state.rememberNotify identity key).1.sessionFor identity), hsilent]
  rfl

theorem mem_pending_replay {frame : ExtensionReplayFrame J T} {notifyDelivered : Bool}
    {candidate : ExtensionUiRequest J T} (h : candidate ∈
      ((state.replay identity frame notifyDelivered).state.sessionFor identity).pending) :
    candidate ∈ (state.sessionFor identity).pending ∨ ∃ seq, frame = .request seq candidate := by
  cases frame with
  | request seq request =>
    simp only [replay] at h
    split at h
    · split at h
      · exact .inl h
      · rw [pending_rememberNotify] at h
        exact .inl h
    · rw [pending_withPending] at h
      rcases mem_replaceRequest h with hold | rfl
      · exact .inl hold
      · exact .inr ⟨seq, rfl⟩
  | closed seq requestId =>
    simp only [replay] at h
    rw [pending_withPending] at h
    exact .inl (List.mem_filter.mp h).1

theorem suffixEvents_replays {acknowledged : List JsString} {frame : ExtensionReplayFrame J T}
    {event : SessionExtensionMachineEvent J T}
    (h : event ∈ suffixEvents acknowledged identity frame) :
    event = .replay identity frame true ∧
      ∀ seq request, frame = .request seq request → request.id ∉ acknowledged := by
  cases frame with
  | request seq request =>
    simp only [suffixEvents] at h
    by_cases hback : request.id ∈ acknowledged
    · simp [hback] at h
    · rw [if_neg hback] at h
      have hevent : event = .replay identity (.request seq request) true := by
        split at h <;> simpa using h
      refine ⟨hevent, fun other candidate hframe => ?_⟩
      cases hframe
      exact hback
  | closed seq requestId =>
    refine ⟨by simpa [suffixEvents] using h, fun other candidate hframe => ?_⟩
    cases hframe

/-- No acknowledged request is pending. -/
def NoneBack (acknowledged : List JsString) : Prop :=
  ∀ request ∈ (state.sessionFor identity).pending, request.id ∉ acknowledged

theorem NoneBack.suffix {identity : SessionRuntimeIdentity} {acknowledged : List JsString}
    (events : List (SessionExtensionMachineEvent J T)) :
    ∀ {state : SessionExtensionMachineState J T}, state.NoneBack identity acknowledged →
      (∀ event ∈ events, ∃ frame, event = .replay identity frame true ∧
        ∀ seq request, frame = .request seq request → request.id ∉ acknowledged) →
      (state.reduceAll events).NoneBack identity acknowledged := by
  induction events with
  | nil => exact fun h _ => h
  | cons event rest ih =>
    intro state h hevents
    refine ih (fun candidate hcandidate => ?_)
      (fun other hother => hevents other (List.mem_cons_of_mem _ hother))
    obtain ⟨frame, rfl, hframe⟩ := hevents event (by simp)
    rcases state.mem_pending_replay identity hcandidate with hold | ⟨seq, rfl⟩
    · exact h candidate hold
    · exact hframe seq candidate rfl

theorem mem_acknowledged_reduceAll {identity : SessionRuntimeIdentity} {id : JsString}
    (events : List (SessionExtensionMachineEvent J T)) :
    ∀ {state : SessionExtensionMachineState J T},
      (∀ event ∈ events, ¬ event.acknowledges identity id ∧ ¬ event.abandons identity) →
      (id ∈ (state.reduceAll events).acknowledged identity ↔
        id ∈ state.acknowledged identity) := by
  induction events with
  | nil => exact fun _ => Iff.rfl
  | cons event rest ih =>
    intro state hevents
    obtain ⟨hacknowledges, habandons⟩ := hevents event (by simp)
    have hrest := @ih (reduceSessionExtensionMachine state event).state
      (fun other hother => hevents other (List.mem_cons_of_mem _ hother))
    have hstep := state.mem_acknowledged_reduce identity event id
    simp only [hacknowledges, habandons, false_or, not_false_eq_true, and_true] at hstep
    exact hrest.trans hstep

/-- Committing a snapshot leaves the acknowledgements alone, and none of the acknowledged requests
is pending afterwards. -/
theorem commit_sound (pendingExtensionRequests stickyExtensionState :
    List (ExtensionUiRequest J T)) (suffix : List (ExtensionReplayFrame J T)) :
    (∀ id, id ∈ (state.reduceAll (commitEvents (state.acknowledged identity) identity
        pendingExtensionRequests stickyExtensionState suffix)).acknowledged identity ↔
          id ∈ state.acknowledged identity) ∧
      (state.reduceAll (commitEvents (state.acknowledged identity) identity
        pendingExtensionRequests stickyExtensionState suffix)).NoneBack identity
          (state.acknowledged identity) := by
  have hevents : ∀ event ∈ suffix.flatMap (suffixEvents (state.acknowledged identity) identity),
      ∃ frame, event = .replay identity frame true ∧
        ∀ seq request, frame = .request seq request →
          request.id ∉ state.acknowledged identity := by
    intro event hevent
    obtain ⟨frame, -, hmem⟩ := List.mem_flatMap.mp hevent
    exact ⟨frame, suffixEvents_replays identity hmem⟩
  refine ⟨fun id => ?_, ?_⟩
  · refine mem_acknowledged_reduceAll _ fun event hevent => ?_
    rcases List.mem_cons.mp hevent with rfl | hsuffix
    · exact ⟨fun h => h, fun h => h.2 rfl⟩
    · obtain ⟨frame, rfl, -⟩ := hevents event hsuffix
      exact ⟨fun h => h, fun h => h.1.2 rfl⟩
  · let kept := pendingExtensionRequests.filter (·.id ∉ state.acknowledged identity) ++
      stickyExtensionState.filter (·.id ∉ state.acknowledged identity)
    have hsnapshot : (state.withPending identity (normalizeExtensionRequests kept)).NoneBack
        identity (state.acknowledged identity) := by
      intro candidate hcandidate
      rw [pending_withPending] at hcandidate
      -- the snapshot itself comes without the acknowledged requests
      rcases List.mem_append.mp (mem_normalizeExtensionRequests hcandidate) with hmem | hmem
      · simpa using (List.mem_filter.mp hmem).2
      · simpa using (List.mem_filter.mp hmem).2
    exact hsnapshot.suffix _ hevents

end SessionExtensionMachineState

namespace SessionExtensionMachineState

variable (events : List (SessionExtensionMachineEvent J T))

theorem reduceAll_requestsSound :
    ((initial : SessionExtensionMachineState J T).reduceAll events).RequestsSound := by
  refine runFrom_invariant (I := RequestsSound) (fun state event h => h.reduce event) events ?_
  intro sessionHandle session hsession
  cases hsession

theorem reduceAll_notifiedSound (hnamed : ∀ event ∈ events, event.NamesSession) :
    ((initial : SessionExtensionMachineState J T).reduceAll events).NotifiedSound := by
  have hrun (events : List (SessionExtensionMachineEvent J T)) :
      ∀ {state : SessionExtensionMachineState J T}, state.NotifiedSound →
        (∀ event ∈ events, event.NamesSession) → (state.reduceAll events).NotifiedSound := by
    induction events with
    | nil => exact fun h _ => h
    | cons event rest ih =>
      intro state h hnamed
      exact ih (h.reduce event (hnamed event (by simp)))
        fun other hother => hnamed other (List.mem_cons_of_mem _ hother)
  refine hrun events ⟨Nat.zero_le _, by simp [initial], ?_⟩ hnamed
  intro sessionHandle h
  exact absurd rfl h

theorem mem_acknowledged_iff_since (identity : SessionRuntimeIdentity) (id : JsString) :
    id ∈ ((initial : SessionExtensionMachineState J T).reduceAll events).acknowledged identity ↔
      Since (·.acknowledges identity id) (·.abandons identity) events :=
  holds_iff_since (I := fun _ => True)
    (P := fun state : SessionExtensionMachineState J T => id ∈ state.acknowledged identity)
    trivial (fun _ _ _ => trivial) (by simp [initial, acknowledged])
    (fun state event _ => state.mem_acknowledged_reduce identity event id) events

theorem result_not_pending (state : SessionExtensionMachineState J T)
    (identity : SessionRuntimeIdentity) (requestId : JsString) (resyncing : Bool) :
    ∀ request ∈ ((reduceSessionExtensionMachine state
        (.result identity requestId resyncing)).state.sessionFor identity).pending,
      request.id ≠ requestId := by
  intro request hmem
  have hpending : ((reduceSessionExtensionMachine state
      (.result identity requestId resyncing)).state.sessionFor identity).pending =
        (state.sessionFor identity).pending.filter (·.id ≠ requestId) := by
    simp [reduceSessionExtensionMachine, withSession, sessionFor]
  rw [hpending] at hmem
  simpa using (List.mem_filter.mp hmem).2

end SessionExtensionMachineState

open SessionExtensionMachineState in
/-- Over every run of the Extension machine the pending requests of a Session differ in id and in
meaning and stay within the cap. While frames name their Sessions, the recency list has at most 64
Sessions, among them every one with remembered notifications. A remembered notification is reported
as a duplicate, or as nothing where it is only buffered, and it changes nothing. A request is
acknowledged exactly if it was answered during a resync and its runtime's acknowledgements were not
abandoned since. A committed snapshot with its buffered suffix leaves no acknowledged request
pending. -/
theorem extension_machine_invariants (events : List (SessionExtensionMachineEvent J T)) :
    let state := (initial : SessionExtensionMachineState J T).reduceAll events
    (∀ sessionHandle session, state.sessions.get? sessionHandle = some session →
      PendingRequestsSound session.pending) ∧
    ((∀ event ∈ events, event.NamesSession) →
      state.deliveredNotifyIdentityOrder.length ≤ maxDeliveredNotifyIdentities ∧
      ∀ sessionHandle session, state.sessions.get? sessionHandle = some session →
        session.deliveredNotifyKeys ≠ [] → sessionHandle ∈ state.deliveredNotifyIdentityOrder) ∧
    (∀ identity seq (request : ExtensionUiRequest J T), request.body.isNotify = true →
      extensionNotifyKey (.request seq request) ∈
          (state.sessionFor identity).deliveredNotifyKeys →
        reduceSessionExtensionMachine state (.replay identity (.request seq request) true) =
            { state := state
              intents := [.notifyDeduped identity.sessionHandle
                (extensionNotifyKey (.request seq request))] } ∧
          reduceSessionExtensionMachine state (.replay identity (.request seq request) false) =
            { state := state, intents := [] }) ∧
    (∀ identity requestId resyncing,
      ∀ request ∈ ((reduceSessionExtensionMachine state
          (.result identity requestId resyncing)).state.sessionFor identity).pending,
        request.id ≠ requestId) ∧
    (∀ identity id, id ∈ state.acknowledged identity ↔
      Since (·.acknowledges identity id) (·.abandons identity) events) ∧
    ∀ identity pendingExtensionRequests stickyExtensionState suffix,
      let committed := state.reduceAll (commitEvents (state.acknowledged identity) identity
        pendingExtensionRequests stickyExtensionState suffix)
      (∀ id, id ∈ committed.acknowledged identity ↔ id ∈ state.acknowledged identity) ∧
        ∀ request ∈ (committed.sessionFor identity).pending,
          request.id ∉ state.acknowledged identity := by
  intro state
  have hrequests := reduceAll_requestsSound events
  refine ⟨fun sessionHandle session hsession => ?_, fun hnamed => ?_, ?_,
    result_not_pending state, mem_acknowledged_iff_since events, commit_sound state⟩
  · exact hrequests sessionHandle session.silent (by
      change (state.sessions.get? sessionHandle).map _ = _
      rw [hsession]
      rfl)
  · have hnotified := reduceAll_notifiedSound events hnamed
    refine ⟨hnotified.bounded, fun sessionHandle session hsession hkeys => ?_⟩
    refine hnotified.listed sessionHandle ?_
    change (match state.sessions.get? sessionHandle with
      | some session => session.deliveredNotifyKeys
      | none => []) ≠ []
    rw [hsession]
    exact hkeys
  · intro identity seq request hnotify hkey
    refine ⟨state.replay_remembered identity rfl hnotify hkey, ?_⟩
    simp [reduceSessionExtensionMachine, replay, hnotify]

/-- A runtime of a Session with the handle. -/
def sampleRuntimeOf (sessionHandle : SessionHandle) : SessionRuntimeIdentity :=
  { serverEpoch := js "epoch", sessionHandle := sessionHandle, workspaceId := js "work"
    generation := 1 }

/-- A confirmation that waits for its answer. -/
def sampleConfirmation : ExtensionUiRequest Unit Unit :=
  { id := js "r", body := .confirm (js "title") (js "message") none }

/-- A notification of the Session with the handle. -/
def sampleNotified (sessionHandle : SessionHandle) : SessionExtensionMachineEvent Unit Unit :=
  .replay (sampleRuntimeOf sessionHandle)
    (.request 1 { id := js "n", body := .notify (js "message") none }) true

open SessionExtensionMachineState in
/-- An answered confirmation whose frame is buffered afterwards is pending again while it is
acknowledged, until the snapshot is committed. -/
theorem extension_machine_invariants_sample :
    let identity := sampleRuntimeOf (js "s")
    let events : List (SessionExtensionMachineEvent Unit Unit) :=
      [.hydrate identity [sampleConfirmation], .result identity (js "r") true,
        .replay identity (.request 2 sampleConfirmation) false]
    let state := (initial : SessionExtensionMachineState Unit Unit).reduceAll events
    js "r" ∈ state.acknowledged identity ∧
      js "r" ∈ (state.sessionFor identity).pending.map (·.id) ∧
      state.deliveredNotifyIdentityOrder.length ≤ maxDeliveredNotifyIdentities ∧
      ∀ request ∈ ((state.reduceAll (commitEvents (state.acknowledged identity) identity
        [sampleConfirmation] [] [.request 2 sampleConfirmation])).sessionFor identity).pending,
          request.id ∉ state.acknowledged identity := by
  intro identity events state
  have h := extension_machine_invariants events
  exact ⟨by decide, by decide, (h.2.1 (by decide)).1, (h.2.2.2.2.2 identity _ _ _).2⟩

/-- An answered request whose frame is buffered after the answer. -/
def sampleBuffered : SessionExtensionMachineState Unit Unit :=
  SessionExtensionMachineState.initial.reduceAll
    [.result (sampleRuntimeOf (js "s")) (js "r") true,
      .replay (sampleRuntimeOf (js "s")) (.request 2 sampleConfirmation) false]

/-- A Session without a handle is notified, and then one more Session than the recency list has
room for. -/
def sampleCrowded : SessionExtensionMachineState Unit Unit :=
  SessionExtensionMachineState.initial.reduceAll
    (sampleNotified [] :: (List.range 64).map fun n => sampleNotified (List.replicate (n + 1) 97))

open SessionExtensionMachineState in
/-- A buffered frame brings an acknowledged request back into the pending list. A Session without a
handle keeps its notifications when it leaves the recency list. A remembered notification that is
only buffered is not reported as a duplicate. -/
theorem buffered_frame_brings_request_back :
    (js "r" ∈ sampleBuffered.acknowledged (sampleRuntimeOf (js "s")) ∧
      js "r" ∈ (sampleBuffered.sessionFor (sampleRuntimeOf (js "s"))).pending.map (·.id)) ∧
    (sampleCrowded.notifyKeysAt [] ≠ [] ∧ [] ∉ sampleCrowded.deliveredNotifyIdentityOrder) ∧
    ∃ frame : ExtensionReplayFrame Unit Unit,
      extensionNotifyKey frame ∈
          ((initial.reduceAll [sampleNotified (js "s")]).sessionFor
            (sampleRuntimeOf (js "s"))).deliveredNotifyKeys ∧
        (reduceSessionExtensionMachine (initial.reduceAll [sampleNotified (js "s")])
          (.replay (sampleRuntimeOf (js "s")) frame false)).intents = [] := by
  refine ⟨⟨by decide, by decide⟩, ⟨by decide +kernel, by decide +kernel⟩,
    .request 1 { id := js "n", body := .notify (js "message") none }, by decide +kernel, rfl⟩

end PiAgentWeb
