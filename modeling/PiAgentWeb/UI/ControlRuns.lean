import PiAgentWeb.UI.ControlMachine
import PiAgentWeb.Library.Runs

/-!
# Runs of the control machine

The flags of an unanswered claim and of an unanswered takeover along any sequence of events. A
lease message that is taken over settles a takeover, but it leaves the flag of a claim as it is;
both flags are settled in every run in which no lease message is taken over while a claim is
outstanding.
-/

namespace PiAgentWeb

/-- The machine with its history: on which Sessions a claim or a takeover was sent since a lease
message was last taken over. -/
structure ControlRun where
  machine : SessionControlMachineState
  requested : SessionHandle → Bool

namespace ControlRun

/-- The Session whose lease message an event delivers. -/
def leaseHandle : SessionControlMachineEvent → Option SessionHandle
  | .leaseStatus sessionHandle .. => some sessionHandle
  | .baselineCommitted identity => some identity.sessionHandle
  | _ => none

/-- The Session that an event claims or takes over. -/
def requestHandle : SessionControlMachineEvent → Option SessionHandle
  | .claimIfReady sessionHandle .. => some sessionHandle
  | .takeover sessionHandle .. => some sessionHandle
  | _ => none

/-- The machine before its first event. -/
def initial : ControlRun where
  machine := .empty
  requested := fun _ => false

/-- One event. -/
def step (run : ControlRun) (event : SessionControlMachineEvent) : ControlRun :=
  let transition := reduceSessionControlMachine run.machine event
  { machine := transition.state
    requested := fun sessionHandle =>
      if transition.leaseAccepted ∧ leaseHandle event = some sessionHandle then false
      else if transition.accepted ∧ requestHandle event = some sessionHandle then true
      else run.requested sessionHandle }

/-- The lease message that an event delivers in a state. -/
def leaseMessage (machine : SessionControlMachineState) :
    SessionControlMachineEvent → Option SessionLeaseStatus
  | .leaseStatus _ _ message .. => some message
  | .baselineCommitted identity =>
    ((machine.get? identity.sessionHandle).bind (·.pendingLeaseStatus)).map (·.message)
  | _ => none

end ControlRun

namespace SessionControlMachineSessionState

/-- Neither a claim nor a takeover is unanswered. -/
def Settled (session : SessionControlMachineSessionState) : Prop :=
  session.claimPending = false ∧ session.takeoverAttempt = none

/-- The message tells the session something that it does not know, or renews its baseline. -/
def takesOver (session : SessionControlMachineSessionState) (identity : SessionRuntimeIdentity)
    (message : SessionLeaseStatus) (controlled : Bool) : Bool :=
  match session.lease.leaseRevision with
  | none => true
  | some knownRevision =>
    knownRevision < message.leaseRevision ||
      (message.leaseRevision = knownRevision &&
        if leaseStatusMatchesState message session.lease then
          !hasFreshBaseline session (some identity)
        else controlled && leaseStatusSemanticsMatchState message session.lease)

/-- A lease message is for the session, is not deferred, and is taken over. -/
def merges (session : SessionControlMachineSessionState) (inactiveRecovery : Bool)
    (message : SessionLeaseStatus) (identity : SessionRuntimeIdentity)
    (baselineAuthoritative expectedBaseline : Bool) : Bool :=
  let controlled := controlledBaseline session identity message expectedBaseline
  session.subscribed && identity.serverEpoch = message.serverEpoch &&
    identity.generation = message.generation &&
    (baselineAuthoritative ||
      (inactiveRecovery && (controlled || hasFreshBaseline session (some identity)))) &&
    !(message.isController && session.released) && session.takesOver identity message controlled

end SessionControlMachineSessionState

namespace ControlRun

/-- No claim is unanswered when a lease message is taken over. -/
def claimAnswered (run : ControlRun) : SessionControlMachineEvent → Bool
  | .leaseStatus sessionHandle inactiveRecovery message (some identity) baselineAuthoritative
      expectedBaseline =>
    (run.machine.get? sessionHandle).all fun session =>
      !session.merges inactiveRecovery message identity baselineAuthoritative expectedBaseline ||
        !session.claimPending
  | .baselineCommitted identity =>
    (run.machine.get? identity.sessionHandle).all fun session =>
      session.pendingLeaseStatus.all fun pending =>
        !({ session with pendingLeaseStatus := none } : SessionControlMachineSessionState).merges
            false pending.message identity true pending.expectedBaseline ||
          !session.claimPending
  | _ => true

/-- A lease message that is taken over, and that reports this client as the controller or answers
its takeover, leaves no request unanswered. -/
def Settles (run : ControlRun) (event : SessionControlMachineEvent) : Prop :=
  ∀ sessionHandle session message, leaseHandle event = some sessionHandle →
    leaseMessage run.machine event = some message →
    run.machine.get? sessionHandle = some session →
    (reduceSessionControlMachine run.machine event).leaseAccepted = true →
    message.isController = true ∨ session.takeoverAttempt.isSome →
    ∃ session', (run.step event).machine.get? sessionHandle = some session' ∧ session'.Settled

/-- A session that may ask for control: it holds a fresh baseline of the runtime and nothing was
asked since the last lease message that was taken over. -/
structure MayAsk (run : ControlRun) (sessionHandle : SessionHandle)
    (session : SessionControlMachineSessionState) (identity : SessionRuntimeIdentity) : Prop where
  get : run.machine.get? sessionHandle = some session
  subscribed : session.subscribed = true
  fresh : session.freshLeaseBaseline = some identity
  observer : session.lease.isController = false
  noSubscription : session.subscriptionBaseline = none
  unasked : run.requested sessionHandle = false

/-- Control can be asked for: a takeover is accepted while another connection holds the lease
without conflict, and a claim while the lease is free and the user wants control. -/
def Regainable (run : ControlRun) : Prop :=
  ∀ sessionHandle session identity, run.MayAsk sessionHandle session identity →
    (∀ runtime leaseRevision, runtime.state ≠ .dormant → runtime.sessionFile.isSome →
      session.lease.controlState = some .held → session.lease.conflicted = false →
      session.lease.leaseRevision = some leaseRevision → isSafeInteger leaseRevision = true →
      (reduceSessionControlMachine run.machine
        (.takeover sessionHandle true true (some identity) (some runtime) false)).accepted = true) ∧
    (∀ inactiveRecovery, session.lease.controlState = some .free →
      session.controllerIntent = true →
      (reduceSessionControlMachine run.machine
        (.claimIfReady sessionHandle inactiveRecovery true true (some identity))).accepted = true)

/-- What holds along a run: a session on which nothing was asked has nothing unanswered. -/
def Invariant (run : ControlRun) : Prop :=
  ∀ sessionHandle session, run.machine.get? sessionHandle = some session →
    run.requested sessionHandle = false → session.Settled

/-- An update that raises no flag. -/
def Lowers (update : SessionControlMachineSessionState → SessionControlMachineSessionState) :
    Prop :=
  ∀ session, session.Settled → (update session).Settled

end ControlRun

open ControlRun

theorem emptySession_settled : emptySession.Settled := ⟨rfl, rfl⟩

theorem get?_updateSession_eq (state : SessionControlMachineState)
    (sessionHandle other : SessionHandle)
    (update : SessionControlMachineSessionState → SessionControlMachineSessionState) :
    (updateSession state sessionHandle update).get? other =
      if other = sessionHandle then some (update ((state.get? sessionHandle).getD emptySession))
      else state.get? other := by
  unfold updateSession
  rw [InsertionMap.get?_insert]

theorem reduceLeaseStatus_cases (state : SessionControlMachineState)
    (sessionHandle : SessionHandle) (inactiveRecovery : Bool) (message : SessionLeaseStatus)
    (currentIdentity : Option SessionRuntimeIdentity)
    (baselineAuthoritative expectedBaseline : Bool) :
    let transition := reduceLeaseStatus state sessionHandle inactiveRecovery message
      currentIdentity baselineAuthoritative expectedBaseline
    (∃ session identity preserve, state.get? sessionHandle = some session ∧
        currentIdentity = some identity ∧
        session.merges inactiveRecovery message identity baselineAuthoritative
          expectedBaseline = true ∧
        transition = acceptLeaseStatus state sessionHandle identity message preserve) ∨
      (transition.leaseAccepted = false ∧ (transition.state = state ∨
        ∃ update, Lowers update ∧ transition.state =
          updateSession state sessionHandle update)) := by
  intro transition
  have hquiet : ∀ intents : List SessionControlMachineIntent,
      transition = { state := state, intents := intents } →
      transition.leaseAccepted = false ∧ (transition.state = state ∨
        ∃ update, Lowers update ∧ transition.state = updateSession state sessionHandle update) := by
    rintro intents heq
    rw [heq]
    exact ⟨rfl, Or.inl rfl⟩
  have hconflict : ∀ dropPending, transition = conflict state sessionHandle message dropPending →
      transition.leaseAccepted = false ∧ (transition.state = state ∨
        ∃ update, Lowers update ∧ transition.state = updateSession state sessionHandle update) := by
    rintro dropPending heq
    rw [heq]
    dsimp only [conflict]
    exact ⟨rfl, Or.inr ⟨_, fun _ _ => ⟨rfl, rfl⟩, rfl⟩⟩
  cases hget : state.get? sessionHandle with
  | none => exact Or.inr (hquiet [] (by simp [transition, reduceLeaseStatus, hget]))
  | some session =>
    cases hidentity : currentIdentity with
    | none => exact Or.inr (hquiet [] (by simp [transition, reduceLeaseStatus, hget, hidentity]))
    | some identity =>
      by_cases hother : (!session.subscribed || identity.serverEpoch ≠ message.serverEpoch ||
          identity.generation ≠ message.generation) = true
      · refine Or.inr (hquiet [] ?_)
        simp only [transition, reduceLeaseStatus, hget, hidentity]
        rw [if_pos hother]
      have hown : session.subscribed = true ∧ identity.serverEpoch = message.serverEpoch ∧
          identity.generation = message.generation := by
        simpa [and_assoc] using hother
      obtain ⟨hsubscribed, hepoch, hgeneration⟩ := hown
      by_cases hdefer : (!baselineAuthoritative && !(inactiveRecovery &&
          (controlledBaseline session identity message expectedBaseline ||
            hasFreshBaseline session (some identity)))) = true
      · have heq : transition = deferLeaseStatus state sessionHandle session message
            (controlledBaseline session identity message expectedBaseline) := by
          simp only [transition, reduceLeaseStatus, hget, hidentity]
          rw [if_neg hother, if_pos hdefer]
        unfold deferLeaseStatus at heq
        split at heq
        · rw [heq]
          dsimp only [updated]
          refine Or.inr ⟨rfl, Or.inr ⟨_, ?_, rfl⟩⟩
          exact fun _ h => h
        · split at heq
          · exact Or.inr (hconflict true heq)
          · exact Or.inr (hquiet [] heq)
      by_cases hreleased : (message.isController && session.released) = true
      · refine Or.inr (hquiet [.send (.sessionRelease sessionHandle) none] ?_)
        simp only [transition, reduceLeaseStatus, hget, hidentity]
        rw [if_neg hother, if_neg hdefer, if_pos hreleased]
      have heq : transition = mergeLeaseStatus state sessionHandle session identity message
          (controlledBaseline session identity message expectedBaseline) := by
        simp only [transition, reduceLeaseStatus, hget, hidentity]
        rw [if_neg hother, if_neg hdefer, if_neg hreleased]
      have hmerges : session.takesOver identity message
          (controlledBaseline session identity message expectedBaseline) = true →
          session.merges inactiveRecovery message identity baselineAuthoritative
            expectedBaseline = true := by
        intro htakes
        have hready : (baselineAuthoritative || (inactiveRecovery &&
            (controlledBaseline session identity message expectedBaseline ||
              hasFreshBaseline session (some identity)))) = true := by
          rw [← Bool.not_or] at hdefer
          simpa only [Bool.not_eq_true', Bool.not_eq_false] using hdefer
        have hunreleased : (!(message.isController && session.released)) = true := by
          simpa only [Bool.not_eq_true', Bool.not_eq_true] using hreleased
        simp only [SessionControlMachineSessionState.merges, hsubscribed, hepoch, hgeneration,
          hready, hunreleased, htakes, decide_true, Bool.and_self]
      unfold SessionControlMachineSessionState.takesOver at hmerges
      unfold mergeLeaseStatus at heq
      cases hknown : session.lease.leaseRevision with
      | none =>
        rw [hknown] at heq hmerges
        exact Or.inl ⟨session, identity, false, rfl, rfl, hmerges rfl, heq⟩
      | some knownRevision =>
        rw [hknown] at heq hmerges
        dsimp only at heq hmerges
        split at heq
        · exact Or.inr (hquiet [] heq)
        · split at heq
          · rename_i hsame
            split at heq
            · rename_i hmatches
              split at heq
              · exact Or.inr (hquiet [] heq)
              · rename_i hstale
                exact Or.inl ⟨session, identity, false, rfl, rfl,
                  hmerges (by simp [hsame, hmatches, hstale]), heq⟩
            · rename_i hmatches
              split at heq
              · rename_i hprovenance
                exact Or.inl ⟨session, identity, true, rfl, rfl,
                  hmerges (by simpa [hsame, hmatches] using hprovenance), heq⟩
              · exact Or.inr (hconflict false heq)
          · rename_i hlow hsame
            exact Or.inl ⟨session, identity, false, rfl, rfl,
              hmerges (by simp; omega), heq⟩

theorem get?_acceptLeaseStatus (state : SessionControlMachineState)
    (sessionHandle : SessionHandle) (identity : SessionRuntimeIdentity)
    (message : SessionLeaseStatus) (preserve : Bool) :
    ∃ session', (acceptLeaseStatus state sessionHandle identity message preserve).state =
        state.insert sessionHandle session' ∧
      session'.claimPending =
        ((state.get? sessionHandle).getD emptySession).claimPending ∧
      session'.takeoverAttempt = none :=
  ⟨_, rfl, rfl, rfl⟩

theorem get?_of_lowers {state : SessionControlMachineState} {sessionHandle other : SessionHandle}
    {update : SessionControlMachineSessionState → SessionControlMachineSessionState}
    (hupdate : Lowers update) {session' : SessionControlMachineSessionState}
    (hget : (updateSession state sessionHandle update).get? other = some session') :
    session'.Settled ∨
      ∃ session, state.get? other = some session ∧ (session.Settled → session'.Settled) := by
  rw [get?_updateSession_eq] at hget
  split at hget
  · rename_i hother
    cases hsession : state.get? sessionHandle with
    | none =>
      rw [hsession] at hget
      exact Or.inl (Option.some.inj hget ▸ hupdate _ emptySession_settled)
    | some session =>
      rw [hsession] at hget
      exact Or.inr ⟨session, hother ▸ hsession, fun h => Option.some.inj hget ▸ hupdate _ h⟩
  · exact Or.inr ⟨session', hget, id⟩

/-- What a transition may do to the sessions: it takes a lease message over, or it records a request
or leaves no session with a flag that it did not have. -/
def ControlRun.Moves (run : ControlRun) (event : SessionControlMachineEvent)
    (transition : SessionControlMachineTransition) : Prop :=
  (∃ sessionHandle session', leaseHandle event = some sessionHandle ∧
      transition.leaseAccepted = true ∧
      transition.state.get? sessionHandle = some session' ∧
      (∀ other, other ≠ sessionHandle →
        transition.state.get? other = run.machine.get? other) ∧
      session'.takeoverAttempt = none ∧
      (run.claimAnswered event = true → session'.claimPending = false)) ∨
    (transition.leaseAccepted = false ∧
      ∀ sessionHandle session', transition.state.get? sessionHandle = some session' →
        session'.Settled ∨
          (transition.accepted = true ∧ requestHandle event = some sessionHandle) ∨
          ∃ session, run.machine.get? sessionHandle = some session ∧
            (session.Settled → session'.Settled))

namespace ControlRun.Moves

variable {run : ControlRun} {event : SessionControlMachineEvent}
  {transition : SessionControlMachineTransition}

theorem of_state_eq (haccepted : transition.leaseAccepted = false)
    (hstate : transition.state = run.machine) : run.Moves event transition := by
  refine Or.inr ⟨haccepted, ?_⟩
  intro sessionHandle session' hget
  exact Or.inr (Or.inr ⟨session', hstate ▸ hget, id⟩)

variable {update : SessionControlMachineSessionState → SessionControlMachineSessionState}

variable {sessionHandle : SessionHandle}

theorem of_updateSession (haccepted : transition.leaseAccepted = false) (hupdate : Lowers update)
    (hstate : transition.state = updateSession run.machine sessionHandle update) :
    run.Moves event transition := by
  refine Or.inr ⟨haccepted, ?_⟩
  intro other session' hget
  rw [hstate] at hget
  exact (get?_of_lowers hupdate hget).imp_right Or.inr

theorem updated {accepted : Bool} (hupdate : Lowers update) :
    run.Moves event (updated run.machine sessionHandle update accepted) :=
  of_updateSession rfl hupdate rfl

theorem updated_with {accepted : Bool}
    (hupdate : Lowers update) (intents : List SessionControlMachineIntent) :
    run.Moves event
      { PiAgentWeb.updated run.machine sessionHandle update accepted with intents := intents } :=
  of_updateSession rfl hupdate rfl

theorem unchanged (intents : List SessionControlMachineIntent) :
    run.Moves event { state := run.machine, intents := intents } :=
  of_state_eq rfl rfl

theorem request (hrequest : requestHandle event = some sessionHandle)
    (haccepted : transition.accepted = true) (hlease : transition.leaseAccepted = false)
    (hothers : ∀ other, other ≠ sessionHandle →
      transition.state.get? other = run.machine.get? other) : run.Moves event transition := by
  refine Or.inr ⟨hlease, ?_⟩
  intro other session' hget
  by_cases hother : other = sessionHandle
  · exact Or.inr (Or.inl ⟨haccepted, hother ▸ hrequest⟩)
  · rw [hothers other hother] at hget
    exact Or.inr (Or.inr ⟨session', hget, id⟩)

end ControlRun.Moves

theorem ControlRun.moves (run : ControlRun) (event : SessionControlMachineEvent) :
    run.Moves event (reduceSessionControlMachine run.machine event) := by
  cases event with
  | hydrate | runtimeReset => exact .updated fun _ _ => ⟨rfl, rfl⟩
  | subscribe | projectionFailed | subscriptionStarted | subscriptionSendFailed | clearIntent =>
    exact .updated fun _ h => h
  | claimSettled | claimSendFailed | claimError => exact .updated fun _ h => ⟨rfl, h.2⟩
  | takeoverSendFailed => exact .updated fun _ h => ⟨h.1, rfl⟩
  | unsubscribe => exact .updated fun _ _ => emptySession_settled
  | remove sessionHandle =>
    simp only [reduceSessionControlMachine]
    split
    · exact .unchanged []
    · refine Or.inr ⟨rfl, ?_⟩
      intro other session' hget
      rw [InsertionMap.get?_erase] at hget
      split at hget
      · cases hget
      · exact Or.inr (Or.inr ⟨session', hget, id⟩)
  | connectionReset =>
    refine Or.inr ⟨rfl, ?_⟩
    intro other session' hget
    obtain ⟨entry, _, hentry⟩ :=
      List.mem_map.mp (InsertionMap.get?_eq_some_iff.mp hget)
    exact Or.inl ((Prod.mk.inj hentry).2 ▸ ⟨rfl, rfl⟩)
  | resyncReset sessionHandle identityChanged =>
    cases identityChanged with
    | true => exact .updated fun _ _ => ⟨rfl, rfl⟩
    | false => exact .updated fun _ h => h
  | claimIntent sessionHandle =>
    simp only [reduceSessionControlMachine]
    split
    · exact .unchanged []
    · exact .updated fun _ h => h
  | claimIfReady sessionHandle inactiveRecovery online baselineAuthoritative currentIdentity =>
    simp only [reduceSessionControlMachine]
    split
    · exact .unchanged []
    · split
      · exact .unchanged []
      · refine .request rfl rfl rfl ?_
        intro other hother
        exact (get?_updateSession_eq _ _ _ _).trans (if_neg hother)
  | release sessionHandle online =>
    simp only [reduceSessionControlMachine]
    split
    · exact .unchanged []
    · refine .updated_with ?_ _
      exact fun _ _ => ⟨rfl, rfl⟩
  | takeover sessionHandle online baselineAuthoritative currentIdentity runtime resync =>
    simp only [reduceSessionControlMachine]
    split
    · split
      · exact .unchanged []
      · split
        · exact .unchanged []
        · refine .request rfl rfl rfl ?_
          intro other hother
          exact (get?_updateSession_eq _ _ _ _).trans (if_neg hother)
    · exact .unchanged []
  | leaseStatus sessionHandle inactiveRecovery message currentIdentity baselineAuthoritative
      expectedBaseline =>
    rcases reduceLeaseStatus_cases run.machine sessionHandle inactiveRecovery message
        currentIdentity baselineAuthoritative expectedBaseline with
      ⟨session, identity, preserve, hget, hidentity, hmerges, heq⟩ | ⟨hnot, hstate⟩
    · subst hidentity
      obtain ⟨session', hstate, hclaim, htakeover⟩ :=
        get?_acceptLeaseStatus run.machine sessionHandle identity message preserve
      refine Or.inl ⟨sessionHandle, session', rfl, ?_, ?_, ?_, htakeover, ?_⟩
      · rw [reduceSessionControlMachine, heq]
        rfl
      · rw [reduceSessionControlMachine, heq, hstate, InsertionMap.get?_insert_self]
      · intro other hother
        rw [reduceSessionControlMachine, heq, hstate, InsertionMap.get?_insert_of_ne _ hother]
      · intro hanswered
        rw [hclaim, hget, Option.getD_some]
        simpa [claimAnswered, hget, hmerges] using hanswered
    · rcases hstate with hsame | ⟨update, hlowers, hupdate⟩
      · exact .of_state_eq hnot hsame
      · exact .of_updateSession hnot hlowers hupdate
  | baselineCommitted identity =>
    simp only [reduceSessionControlMachine]
    split
    · exact .unchanged []
    · rename_i pending hpending
      split
      · exact .unchanged []
      · obtain ⟨session, hsession, hwaiting⟩ := Option.bind_eq_some_iff.mp hpending
        have hkeep : Lowers fun current => { current with pendingLeaseStatus := none } :=
          fun _ h => h
        generalize hcleared : PiAgentWeb.updated run.machine identity.sessionHandle
          (fun current => { current with pendingLeaseStatus := none }) = cleared
        have hget : ∀ other, cleared.state.get? other =
            if other = identity.sessionHandle then
              some { session with pendingLeaseStatus := none }
            else run.machine.get? other := by
          intro other
          rw [← hcleared]
          refine (get?_updateSession_eq _ _ _ _).trans ?_
          rw [hsession]
          rfl
        have hnotAccepted : cleared.leaseAccepted = false := hcleared ▸ rfl
        rcases reduceLeaseStatus_cases cleared.state identity.sessionHandle false
            pending.message (some identity) true pending.expectedBaseline with
          ⟨waiting, same, preserve, hwait, hsame, hmerges, heq⟩ | ⟨hnot, hstate⟩
        · cases hsame
          rw [hget, if_pos rfl] at hwait
          obtain ⟨session', hstate, hclaim, htakeover⟩ :=
            get?_acceptLeaseStatus cleared.state identity.sessionHandle identity pending.message
              preserve
          rw [heq]
          refine Or.inl ⟨identity.sessionHandle, session', rfl, ?_, ?_, ?_, htakeover, ?_⟩
          · simp [mergeTransitions, acceptLeaseStatus]
          · change (acceptLeaseStatus _ _ _ _ _).state.get? _ = _
            rw [hstate, InsertionMap.get?_insert_self]
          · intro other hother
            change (acceptLeaseStatus _ _ _ _ _).state.get? _ = _
            rw [hstate, InsertionMap.get?_insert_of_ne _ hother, hget, if_neg hother]
          · intro hanswered
            rw [hclaim, hget, if_pos rfl]
            rw [← Option.some.inj hwait] at hmerges
            simpa [claimAnswered, hsession, hwaiting, hmerges] using hanswered
        · refine Or.inr ⟨by simp [mergeTransitions, hnot, hnotAccepted], ?_⟩
          intro other session' hother
          change (reduceLeaseStatus _ _ _ _ _ _ _).state.get? other = _ at hother
          have hfrom : session'.Settled ∨ ∃ session, cleared.state.get? other = some session ∧
              (session.Settled → session'.Settled) := by
            rcases hstate with hsame | ⟨update, hlowers, hupdate⟩
            · exact Or.inr ⟨session', hsame ▸ hother, id⟩
            · exact get?_of_lowers hlowers (hupdate ▸ hother)
          rcases hfrom with hsettled | ⟨before, hbefore, hkept⟩
          · exact Or.inl hsettled
          · rw [← hcleared] at hbefore
            rcases get?_of_lowers hkeep hbefore with hsettled | ⟨first, hfirst, hfirstKept⟩
            · exact Or.inl (hkept hsettled)
            · exact Or.inr (Or.inr ⟨first, hfirst, fun h => hkept (hfirstKept h)⟩)
  | subscribeError sessionHandle preserveSubscribed preserveLease =>
    cases preserveSubscribed with
    | true =>
      cases preserveLease with
      | true => exact .updated fun _ _ => ⟨rfl, rfl⟩
      | false => exact .updated fun _ _ => ⟨rfl, rfl⟩
    | false => exact .updated fun _ _ => ⟨rfl, rfl⟩
  | takeoverError sessionHandle currentIdentity currentLeaseRevision =>
    simp only [reduceSessionControlMachine]
    split
    · exact .unchanged []
    · refine .updated ?_
      intro session h
      dsimp only
      split
      · exact ⟨h.1, rfl⟩
      · exact ⟨h.1, rfl⟩
  | rekey previousSessionHandle sessionHandle identity baselineInFlight =>
    simp only [reduceSessionControlMachine]
    split
    · exact .unchanged []
    · split
      · exact .unchanged []
      · split
        · exact .updated fun _ _ => ⟨rfl, rfl⟩
        · refine Or.inr ⟨rfl, ?_⟩
          intro other session' hget
          rw [InsertionMap.get?_insert] at hget
          split at hget
          · exact Or.inl (Option.some.inj hget ▸ ⟨rfl, rfl⟩)
          · rw [InsertionMap.get?_insert] at hget
            split at hget
            · exact Or.inl (Option.some.inj hget ▸ ⟨rfl, rfl⟩)
            · exact Or.inr (Or.inr ⟨session', hget, id⟩)

/-- A session on which nothing was asked has nothing unanswered, after a step as before, if no
lease message is taken over while a claim is unanswered. -/
theorem ControlRun.Invariant.step {run : ControlRun} (h : run.Invariant)
    {event : SessionControlMachineEvent} (hanswered : run.claimAnswered event = true) :
    (run.step event).Invariant := by
  intro other session' hget hunasked
  change (reduceSessionControlMachine run.machine event).state.get? other = some session' at hget
  simp only [ControlRun.step] at hunasked
  rcases run.moves event with
    ⟨sessionHandle, accepted, hhandle, haccepted, hstate, hothers, htakeover, hclaim⟩ |
    ⟨hnot, hmoves⟩
  · by_cases hother : other = sessionHandle
    · rw [hother, hstate] at hget
      exact Option.some.inj hget ▸ ⟨hclaim hanswered, htakeover⟩
    · rw [hothers other hother] at hget
      refine h other session' hget ?_
      have hneither : leaseHandle event ≠ some other ∧ requestHandle event ≠ some other := by
        cases event with
        | leaseStatus | baselineCommitted =>
          refine ⟨?_, by simp [requestHandle]⟩
          rw [hhandle]
          exact fun heq => hother (Option.some.inj heq).symm
        | _ => cases hhandle
      simpa [hneither.1, hneither.2] using hunasked
  · rw [if_neg (by simp [hnot])] at hunasked
    split at hunasked
    · cases hunasked
    · rename_i hrequest
      rcases hmoves other session' hget with hsettled | hasked | ⟨session, hsession, hkept⟩
      · exact hsettled
      · exact absurd hasked hrequest
      · exact hkept (h other session hsession hunasked)

theorem ControlRun.Invariant.initial : ControlRun.initial.Invariant := by
  intro sessionHandle session hget
  cases hget

theorem ControlRun.settles {run : ControlRun} {event : SessionControlMachineEvent}
    (hanswered : run.claimAnswered event = true) : run.Settles event := by
  intro sessionHandle session message hhandle _ _ haccepted _
  rcases run.moves event with
    ⟨handle, accepted, hsame, _, hstate, _, htakeover, hclaim⟩ | ⟨hnot, _⟩
  · rw [hhandle] at hsame
    cases hsame
    exact ⟨accepted, hstate, hclaim hanswered, htakeover⟩
  · rw [hnot] at haccepted
    cases haccepted

theorem ControlRun.Invariant.regainable {run : ControlRun} (h : run.Invariant) :
    run.Regainable := by
  intro sessionHandle session identity hask
  obtain ⟨hget, hsubscribed, hfresh, hobserver, hsubscription, hunasked⟩ := hask
  obtain ⟨hclaim, htakeover⟩ := h sessionHandle session hget hunasked
  have hfresh' : hasFreshBaseline session (some identity) = true := by
    simp [hasFreshBaseline, identitiesMatch, hfresh]
  refine ⟨?_, ?_⟩
  · intro runtime leaseRevision hstate hfile hheld hagreed hrevision hsafe
    have hnone : runtime.sessionFile.isNone = false := by
      cases hsession : runtime.sessionFile with
      | none => simp [hsession] at hfile
      | some _ => rfl
    simp [reduceSessionControlMachine, hget, hrevision, hsubscribed, hstate, hnone, hfresh',
      hagreed, hobserver, hheld, hsafe, hclaim, htakeover, hsubscription, PiAgentWeb.updated]
  · intro inactiveRecovery hfree hintent
    simp [reduceSessionControlMachine, hget, hsubscribed, hintent, hfresh', hobserver, hclaim,
      hsubscription, PiAgentWeb.updated]

/-- **Control can be asked for again.** In every run in which no lease message is taken over while
a claim is unanswered, a lease message that answers a request settles it, and in the state that the
run ends in a session with a fresh baseline may claim a free lease and take a held one over. -/
theorem control_requests_settle (events : List SessionControlMachineEvent)
    (hanswered : RunMeets ControlRun.step (fun run event => run.claimAnswered event = true)
      .initial events) :
    RunMeets ControlRun.step ControlRun.Settles .initial events ∧
      (runFrom ControlRun.step .initial events).Regainable := by
  have hstep : ∀ (run : ControlRun) (event : SessionControlMachineEvent),
      run.claimAnswered event = true → run.Invariant → (run.step event).Invariant :=
    fun _ _ hmeets h => h.step hmeets
  refine ⟨?_, ?_⟩
  · exact hanswered.mono hstep (fun _ _ _ hmeets => ControlRun.settles hmeets) .initial
  · exact (hanswered.invariant hstep .initial).regainable

/-- The runtime of the evaluated runs. -/
def sampleControlIdentity : SessionRuntimeIdentity where
  serverEpoch := js "e"
  sessionHandle := js "s"
  workspaceId := js "w"
  generation := 1

/-- A lease message of the evaluated runs; a controller holds a token. -/
def sampleLeaseStatus (leaseRevision : ℕ) (controlState : ControlState)
    (transition : LeaseTransitionKind) (fencingToken : Option FencingToken) :
    SessionControlMachineEvent :=
  .leaseStatus (js "s") false
    { sessionHandle := js "s", generation := 1, leaseRevision := leaseRevision,
      controlState := controlState, transition := transition,
      isController := fencingToken.isSome, fencingToken := fencingToken, serverEpoch := js "e" }
    (some sampleControlIdentity) true false

/-- A client that watches another one, takes control over and is told so. -/
def takeoverAnsweredEvents : List SessionControlMachineEvent :=
  [.subscribe (js "s"), sampleLeaseStatus 0 .held .baseline none,
    .takeover (js "s") true true (some sampleControlIdentity)
      (some { state := .running, sessionFile := some (js "f") }) false,
    sampleLeaseStatus 1 .held .takeover (some 7)]

/-- The takeover settles. -/
theorem control_requests_settle_takeover :
    RunMeets ControlRun.step ControlRun.Settles .initial takeoverAnsweredEvents ∧
      (runFrom ControlRun.step .initial takeoverAnsweredEvents).Regainable :=
  control_requests_settle takeoverAnsweredEvents (by decide +kernel)

/-- A client that claims a free lease and is told that it controls the Session. -/
def claimWonEvents : List SessionControlMachineEvent :=
  [.subscribe (js "s"), sampleLeaseStatus 0 .free .baseline none, .claimIntent (js "s"),
    .claimIfReady (js "s") false true true (some sampleControlIdentity),
    sampleLeaseStatus 1 .held .claim (some 7)]

/-- The claim stays unanswered after it was won, so that after another client took control over
this one cannot take it back. -/
theorem not_control_requests_settle_claimWon :
    ¬RunMeets ControlRun.step ControlRun.Settles .initial claimWonEvents ∧
      ¬(runFrom ControlRun.step .initial
        (claimWonEvents ++ [sampleLeaseStatus 2 .held .takeover none])).Regainable := by
  refine ⟨?_, ?_⟩
  · intro hmeets
    obtain ⟨_, _, _, _, hsettles, _⟩ := hmeets
    have hknown : ((runFrom ControlRun.step .initial (claimWonEvents.take 4)).machine.get?
        (js "s")).isSome = true := by
      decide +kernel
    have haccepted : (reduceSessionControlMachine
        (runFrom ControlRun.step .initial (claimWonEvents.take 4)).machine
        (sampleLeaseStatus 1 .held .claim (some 7))).leaseAccepted = true := by
      decide +kernel
    have hpending : ∀ session', (runFrom ControlRun.step .initial claimWonEvents).machine.get?
        (js "s") = some session' → session'.claimPending = true := by
      decide +kernel
    obtain ⟨session, hsession⟩ := Option.isSome_iff_exists.mp hknown
    obtain ⟨session', hsession', hsettled, _⟩ :=
      hsettles (js "s") session _ rfl rfl hsession haccepted (Or.inl rfl)
    rw [hpending session' hsession'] at hsettled
    cases hsettled
  · intro hregainable
    have hstate : ((runFrom ControlRun.step .initial
        (claimWonEvents ++ [sampleLeaseStatus 2 .held .takeover none])).machine.get?
          (js "s")).any (fun session =>
            session.subscribed = true ∧ session.freshLeaseBaseline = some sampleControlIdentity ∧
              session.lease.isController = false ∧ session.subscriptionBaseline = none ∧
              session.lease.controlState = some .held ∧ session.lease.conflicted = false ∧
              session.lease.leaseRevision = some 2) = true := by
      decide +kernel
    have hunasked : (runFrom ControlRun.step .initial
        (claimWonEvents ++ [sampleLeaseStatus 2 .held .takeover none])).requested (js "s") =
          false := by
      decide +kernel
    have hrefused : (reduceSessionControlMachine (runFrom ControlRun.step .initial
        (claimWonEvents ++ [sampleLeaseStatus 2 .held .takeover none])).machine
        (.takeover (js "s") true true (some sampleControlIdentity)
          (some { state := .running, sessionFile := some (js "f") }) false)).accepted = false := by
      decide +kernel
    obtain ⟨session, hsession, hfields⟩ := (Option.any_eq_true _ _).mp hstate
    obtain ⟨hsubscribed, hfresh, hobserver, hsubscription, hheld, hagreed, hrevision⟩ :=
      of_decide_eq_true hfields
    have haccepted := (hregainable (js "s") session sampleControlIdentity
      ⟨hsession, hsubscribed, hfresh, hobserver, hsubscription, hunasked⟩).1
        { state := .running, sessionFile := some (js "f") } 2 (by decide) rfl hheld hagreed
        hrevision (by decide)
    rw [hrefused] at haccepted
    cases haccepted

end PiAgentWeb
