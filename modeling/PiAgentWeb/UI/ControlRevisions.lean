import PiAgentWeb.UI.ControlRuns

/-!
# Lease revisions along a run

What the control machine knows of a lease only moves forward: the revision never decreases, and a
client without control at one revision gets it back by a newer revision only. A contradiction among
messages that wait for the projection baseline is the exception. It fails closed at the revision of
these messages, which may be older than the one already known.
-/

namespace PiAgentWeb

namespace SessionLeaseState

/-- A later record of a lease: it knows a revision at least as new, and control that is new comes
with a newer revision. -/
def AdvancesTo (lease lease' : SessionLeaseState) : Prop :=
  ∀ revision, lease.leaseRevision = some revision →
    ∃ revision', lease'.leaseRevision = some revision' ∧ revision ≤ revision' ∧
      (lease'.isController = true → lease.isController = true ∨ revision < revision')

namespace AdvancesTo

theorem refl (lease : SessionLeaseState) : lease.AdvancesTo lease :=
  fun revision hrevision => ⟨revision, hrevision, Nat.le_refl revision, Or.inl⟩

theorem trans {first second third : SessionLeaseState} (h : first.AdvancesTo second)
    (h' : second.AdvancesTo third) : first.AdvancesTo third := by
  intro revision hrevision
  obtain ⟨middle, hmiddle, hle, hcontrol⟩ := h revision hrevision
  obtain ⟨last, hlast, hle', hcontrol'⟩ := h' middle hmiddle
  refine ⟨last, hlast, Nat.le_trans hle hle', fun hcontroller => ?_⟩
  rcases hcontrol' hcontroller with hsecond | hlt
  · rcases hcontrol hsecond with hfirst | hlt
    · exact Or.inl hfirst
    · exact Or.inr (Nat.lt_of_lt_of_le hlt hle')
  · exact Or.inr (Nat.lt_of_le_of_lt hle hlt)

theorem of_observer {lease lease' : SessionLeaseState}
    (hrevision : lease'.leaseRevision = lease.leaseRevision)
    (hobserver : lease'.isController = false) : lease.AdvancesTo lease' :=
  fun revision hknown =>
    ⟨revision, by rw [hrevision, hknown], Nat.le_refl revision, by simp [hobserver]⟩

theorem clearFenceLease (lease : SessionLeaseState) :
    lease.AdvancesTo (clearFenceLease lease) :=
  of_observer rfl rfl

theorem failClosedLease {lease : SessionLeaseState} {message : SessionLeaseStatus}
    (h : ∀ revision, lease.leaseRevision = some revision → revision ≤ message.leaseRevision) :
    lease.AdvancesTo (failClosedLease message) :=
  fun revision hknown => ⟨message.leaseRevision, rfl, h revision hknown, nofun⟩

theorem leaseStateFrom {lease : SessionLeaseState} {message : SessionLeaseStatus}
    (h : ∀ revision, lease.leaseRevision = some revision → revision ≤ message.leaseRevision ∧
      (message.isController = true → lease.isController = true ∨
        revision < message.leaseRevision)) :
    lease.AdvancesTo (leaseStateFrom message) :=
  fun revision hknown => ⟨message.leaseRevision, rfl, h revision hknown⟩

end AdvancesTo

end SessionLeaseState

/-- The lease record of a Session. -/
def leaseOf (machine : SessionControlMachineState) (sessionHandle : SessionHandle) :
    SessionLeaseState :=
  ((machine.get? sessionHandle).getD emptySession).lease

/-- The event starts the lease record of a Session anew: hydration, the resets, the end of the
subscription, a rekey, or a subscription error that drops the lease. -/
def restartsLease (sessionHandle : SessionHandle) : SessionControlMachineEvent → Bool
  | .hydrate handle .. | .unsubscribe handle | .remove handle | .runtimeReset handle =>
    handle = sessionHandle
  | .connectionReset => true
  | .resyncReset handle identityChanged => handle = sessionHandle && identityChanged
  | .subscribeError handle preserveSubscribed preserveLease =>
    handle = sessionHandle && !(preserveSubscribed && preserveLease)
  | .rekey previousSessionHandle handle .. =>
    previousSessionHandle = sessionHandle || handle = sessionHandle
  | _ => false

namespace SessionControlMachineSessionState

/-- A lease message waits for the projection baseline. -/
def defers (session : SessionControlMachineSessionState) (inactiveRecovery : Bool)
    (message : SessionLeaseStatus) (identity : SessionRuntimeIdentity)
    (baselineAuthoritative expectedBaseline : Bool) : Bool :=
  session.subscribed && identity.serverEpoch = message.serverEpoch &&
    identity.generation = message.generation && !baselineAuthoritative &&
    !(inactiveRecovery && (controlledBaseline session identity message expectedBaseline ||
      hasFreshBaseline session (some identity)))

/-- The message contradicts the one that waits, and both are older than the known lease. -/
def contradictsOlder (session : SessionControlMachineSessionState) (message : SessionLeaseStatus) :
    Bool :=
  (session.pendingLeaseStatus.any fun pending =>
      message.leaseRevision = pending.message.leaseRevision &&
        !leaseStatusMatchesState message (leaseStateFrom pending.message)) &&
    session.lease.leaseRevision.any (message.leaseRevision < ·)

end SessionControlMachineSessionState

/-- The event fails a Session closed at a revision older than the known one. -/
def failsClosedBehind (machine : SessionControlMachineState) (sessionHandle : SessionHandle) :
    SessionControlMachineEvent → Bool
  | .leaseStatus handle inactiveRecovery message (some identity) baselineAuthoritative
      expectedBaseline =>
    handle = sessionHandle && (machine.get? handle).any fun session =>
      session.defers inactiveRecovery message identity baselineAuthoritative expectedBaseline &&
        session.contradictsOlder message
  | _ => false

/-- The machine after one event. -/
def nextMachine (machine : SessionControlMachineState) (event : SessionControlMachineEvent) :
    SessionControlMachineState :=
  (reduceSessionControlMachine machine event).state

/-! ## One event -/

theorem leaseOf_updateSession (machine : SessionControlMachineState)
    (sessionHandle other : SessionHandle)
    (update : SessionControlMachineSessionState → SessionControlMachineSessionState) :
    leaseOf (updateSession machine sessionHandle update) other =
      if other = sessionHandle then
        (update ((machine.get? sessionHandle).getD emptySession)).lease
      else leaseOf machine other := by
  rw [leaseOf, get?_updateSession_eq]
  split <;> rfl

variable {sessionHandle : SessionHandle} {machine : SessionControlMachineState}

theorem advancesTo_updateSession
    {update : SessionControlMachineSessionState → SessionControlMachineSessionState}
    (other : SessionHandle) (h : other = sessionHandle → (leaseOf machine sessionHandle).AdvancesTo
      (update ((machine.get? sessionHandle).getD emptySession)).lease) :
    (leaseOf machine other).AdvancesTo
      (leaseOf (updateSession machine sessionHandle update) other) := by
  rw [leaseOf_updateSession]
  split
  · rename_i hother
    rw [hother]
    exact h hother
  · exact .refl _

variable {session : SessionControlMachineSessionState}

theorem mergeLeaseStatus_advances
    (hget : machine.get? sessionHandle = some session) (identity : SessionRuntimeIdentity)
    (message : SessionLeaseStatus) (controlled : Bool) (other : SessionHandle) :
    (leaseOf machine other).AdvancesTo
      (leaseOf (mergeLeaseStatus machine sessionHandle session identity message controlled).state
        other) := by
  have hlease : leaseOf machine sessionHandle = session.lease := by rw [leaseOf, hget]; rfl
  unfold mergeLeaseStatus
  cases hknown : session.lease.leaseRevision with
  | none =>
    refine advancesTo_updateSession other fun _ => ?_
    rw [hlease]
    exact .leaseStateFrom (by simp [hknown])
  | some knownRevision =>
    dsimp only
    split
    · exact .refl _
    split
    · rename_i hsame
      split
      · rename_i hmatches
        split
        · exact .refl _
        -- The message repeats the record, with its controller.
        refine advancesTo_updateSession other fun _ => ?_
        rw [hlease]
        refine .leaseStateFrom fun revision hrevision => ?_
        have hrepeats : session.lease.isController = message.isController := by
          simp only [leaseStatusMatchesState, leaseStatusSemanticsMatchState, Bool.and_eq_true,
            decide_eq_true_eq] at hmatches
          exact hmatches.1.1.2
        rw [hknown, Option.some.injEq] at hrevision
        exact ⟨by omega, fun hcontroller => Or.inl (hrepeats.trans hcontroller)⟩
      · split
        · refine advancesTo_updateSession other fun _ => ?_
          rw [hlease, hget]
          exact .refl _
        · refine advancesTo_updateSession other fun _ => ?_
          rw [hlease]
          exact .failClosedLease fun revision hrevision => by
            rw [hknown, Option.some.injEq] at hrevision
            omega
    · refine advancesTo_updateSession other fun _ => ?_
      rw [hlease]
      refine .leaseStateFrom fun revision hrevision => ?_
      rw [hknown, Option.some.injEq] at hrevision
      exact ⟨by omega, fun _ => Or.inr (by omega)⟩

/-- A lease message that waits moves the lease record forward, unless it contradicts an older
message that waits already. -/
theorem deferLeaseStatus_advances
    (hget : machine.get? sessionHandle = some session) (message : SessionLeaseStatus)
    (controlled : Bool) (other : SessionHandle)
    (hnewer : other = sessionHandle → session.contradictsOlder message = false) :
    (leaseOf machine other).AdvancesTo
      (leaseOf (deferLeaseStatus machine sessionHandle session message controlled).state
        other) := by
  have hlease : leaseOf machine sessionHandle = session.lease := by rw [leaseOf, hget]; rfl
  unfold deferLeaseStatus
  split
  · refine advancesTo_updateSession other fun _ => ?_
    rw [hlease, hget]
    exact .refl _
  · split
    · rename_i hcontradicts
      refine advancesTo_updateSession other fun hother => ?_
      rw [hlease]
      refine .failClosedLease fun revision hrevision => ?_
      have hbehind := hnewer hother
      rw [SessionControlMachineSessionState.contradictsOlder, hcontradicts, hrevision] at hbehind
      simpa using hbehind
    · exact .refl _

theorem reduceLeaseStatus_advances (machine : SessionControlMachineState)
    (sessionHandle : SessionHandle) (inactiveRecovery : Bool) (message : SessionLeaseStatus)
    (currentIdentity : Option SessionRuntimeIdentity)
    (baselineAuthoritative expectedBaseline : Bool) (other : SessionHandle)
    (h : failsClosedBehind machine other (.leaseStatus sessionHandle inactiveRecovery message
      currentIdentity baselineAuthoritative expectedBaseline) = false) :
    (leaseOf machine other).AdvancesTo
      (leaseOf (reduceLeaseStatus machine sessionHandle inactiveRecovery message currentIdentity
        baselineAuthoritative expectedBaseline).state other) := by
  unfold reduceLeaseStatus
  cases hget : machine.get? sessionHandle with
  | none => exact .refl _
  | some session =>
    cases currentIdentity with
    | none => exact .refl _
    | some identity =>
      dsimp only
      split
      · exact .refl _
      rename_i hown
      split
      · rename_i hdefer
        refine deferLeaseStatus_advances hget message _ other fun hother => ?_
        have hdefers : session.defers inactiveRecovery message identity baselineAuthoritative
            expectedBaseline = true := by
          simp only [Bool.or_eq_true, Bool.not_eq_true', decide_eq_true_eq, not_or, not_not,
            Bool.not_eq_false, ne_eq] at hown
          simp only [Bool.and_eq_true] at hdefer
          simp only [SessionControlMachineSessionState.defers, hown.1.1, hown.1.2, hown.2,
            hdefer.1, hdefer.2, decide_true, Bool.and_self]
        rw [failsClosedBehind, hget, hother] at h
        simpa [hdefers] using h
      · split
        · exact .refl _
        · exact mergeLeaseStatus_advances hget identity message _ other

/-- One event moves every lease record forward that it does not start anew, unless it fails closed
behind it. -/
theorem nextMachine_advances (machine : SessionControlMachineState)
    (event : SessionControlMachineEvent) (other : SessionHandle)
    (hkept : restartsLease other event = false)
    (hahead : failsClosedBehind machine other event = false) :
    (leaseOf machine other).AdvancesTo (leaseOf (nextMachine machine event) other) := by
  cases event with
  | hydrate handle | unsubscribe handle | runtimeReset handle =>
    refine advancesTo_updateSession other fun hother => ?_
    simp [restartsLease, hother] at hkept
  | remove handle =>
    unfold nextMachine
    simp only [reduceSessionControlMachine]
    split
    · exact .refl _
    · have hother : other ≠ handle := by
        rintro rfl
        simp [restartsLease] at hkept
      rw [leaseOf, leaseOf, InsertionMap.get?_erase, if_neg hother]
      exact .refl _
  | connectionReset => simp [restartsLease] at hkept
  | resyncReset handle identityChanged =>
    refine advancesTo_updateSession other fun hother => ?_
    have hsame : identityChanged = false := by simpa [restartsLease, hother] using hkept
    rw [hsame]
    exact .refl _
  | subscribe | projectionFailed | subscriptionStarted | subscriptionSendFailed | clearIntent
  | claimSettled | claimSendFailed | claimError | takeoverSendFailed =>
    exact advancesTo_updateSession other fun _ => .refl _
  | claimIntent handle =>
    unfold nextMachine
    simp only [reduceSessionControlMachine]
    split
    · exact .refl _
    · exact advancesTo_updateSession other fun _ => .refl _
  | claimIfReady handle =>
    unfold nextMachine
    simp only [reduceSessionControlMachine]
    split
    · exact .refl _
    · split
      · exact .refl _
      · exact advancesTo_updateSession other fun _ => .refl _
  | release handle =>
    unfold nextMachine
    simp only [reduceSessionControlMachine]
    split
    · exact .refl _
    · exact advancesTo_updateSession other fun _ => .clearFenceLease _
  | takeover handle =>
    unfold nextMachine
    simp only [reduceSessionControlMachine]
    split
    · split
      · exact .refl _
      · split
        · exact .refl _
        · exact advancesTo_updateSession other fun _ => .refl _
    · exact .refl _
  | leaseStatus handle inactiveRecovery message currentIdentity baselineAuthoritative
      expectedBaseline =>
    exact reduceLeaseStatus_advances machine handle inactiveRecovery message currentIdentity
      baselineAuthoritative expectedBaseline other hahead
  | baselineCommitted identity =>
    unfold nextMachine
    simp only [reduceSessionControlMachine]
    split
    · exact .refl _
    rename_i pending hpending
    split
    · exact .refl _
    -- The waiting message is replayed over the committed baseline, so that it does not wait again.
    have hcleared : (leaseOf machine other).AdvancesTo (leaseOf (updateSession machine
        identity.sessionHandle fun current => { current with pendingLeaseStatus := none }) other) :=
      advancesTo_updateSession other fun _ => .refl _
    refine hcleared.trans (reduceLeaseStatus_advances _ _ _ _ _ _ _ other ?_)
    simp [failsClosedBehind, SessionControlMachineSessionState.defers]
  | subscribeError handle preserveSubscribed preserveLease =>
    refine advancesTo_updateSession other fun hother => ?_
    have hpreserved : preserveSubscribed = true ∧ preserveLease = true := by
      simpa [restartsLease, hother] using hkept
    rw [hpreserved.1, hpreserved.2]
    exact .refl _
  | takeoverError handle currentIdentity currentLeaseRevision =>
    unfold nextMachine
    simp only [reduceSessionControlMachine]
    split
    · exact .refl _
    · refine advancesTo_updateSession other fun _ => ?_
      split
      · exact .refl _
      · exact .clearFenceLease _
  | rekey previousSessionHandle handle =>
    simp only [restartsLease, Bool.or_eq_false_iff, decide_eq_false_iff_not] at hkept
    unfold nextMachine
    simp only [reduceSessionControlMachine]
    split
    · exact .refl _
    split
    · exact .refl _
    split
    · exact advancesTo_updateSession other fun hother => absurd hother.symm hkept.2
    · rw [leaseOf, leaseOf, InsertionMap.get?_insert, InsertionMap.get?_insert,
        if_neg (Ne.symm hkept.2), if_neg (Ne.symm hkept.1)]
      exact .refl _

/-! ## Runs -/

/-- An event of a run that keeps the lease record of a Session and does not fail it closed behind
what it knows. -/
def KeepsLease (sessionHandle : SessionHandle) (machine : SessionControlMachineState)
    (event : SessionControlMachineEvent) : Prop :=
  restartsLease sessionHandle event = false ∧
    failsClosedBehind machine sessionHandle event = false

instance (sessionHandle : SessionHandle) (machine : SessionControlMachineState)
    (event : SessionControlMachineEvent) : Decidable (KeepsLease sessionHandle machine event) :=
  inferInstanceAs (Decidable (_ ∧ _))

theorem runFrom_advances {events : List SessionControlMachineEvent}
    (hrun : RunMeets nextMachine (KeepsLease sessionHandle) machine events) :
    (leaseOf machine sessionHandle).AdvancesTo
      (leaseOf (runFrom nextMachine machine events) sessionHandle) :=
  hrun.invariant (I := fun later => (leaseOf machine sessionHandle).AdvancesTo
      (leaseOf later sessionHandle))
    (fun later event hkeeps hadvances =>
      hadvances.trans (nextMachine_advances later event sessionHandle hkeeps.1 hkeeps.2))
    (.refl _)

/-! ## Messages that are not newer -/

theorem mergeLeaseStatus_control
    (hget : machine.get? sessionHandle = some session) (identity : SessionRuntimeIdentity)
    {message : SessionLeaseStatus} (controlled : Bool) {knownRevision : ℕ}
    (hknown : session.lease.leaseRevision = some knownRevision)
    (hle : message.leaseRevision ≤ knownRevision)
    (hcontroller : (leaseOf (mergeLeaseStatus machine sessionHandle session identity message
      controlled).state sessionHandle).isController = true) :
    session.lease.isController = true := by
  have hlease : leaseOf machine sessionHandle = session.lease := by rw [leaseOf, hget]; rfl
  unfold mergeLeaseStatus at hcontroller
  rw [hknown] at hcontroller
  dsimp only at hcontroller
  split at hcontroller
  · rwa [hlease] at hcontroller
  split at hcontroller
  · split at hcontroller
    · rename_i hmatches
      split at hcontroller
      · rwa [hlease] at hcontroller
      · have hrepeats : session.lease.isController = message.isController := by
          simp only [leaseStatusMatchesState, leaseStatusSemanticsMatchState, Bool.and_eq_true,
            decide_eq_true_eq] at hmatches
          exact hmatches.1.1.2
        rw [acceptLeaseStatus, leaseOf_updateSession, if_pos rfl] at hcontroller
        exact hrepeats.trans hcontroller
    · split at hcontroller
      · rw [acceptLeaseStatus, leaseOf_updateSession, if_pos rfl, hget] at hcontroller
        exact hcontroller
      · rw [conflict, leaseOf_updateSession, if_pos rfl] at hcontroller
        cases hcontroller
  · omega

theorem reduceLeaseStatus_control (machine : SessionControlMachineState)
    (sessionHandle : SessionHandle) (inactiveRecovery : Bool) {message : SessionLeaseStatus}
    (currentIdentity : Option SessionRuntimeIdentity)
    (baselineAuthoritative expectedBaseline : Bool) {knownRevision : ℕ}
    (hknown : (leaseOf machine sessionHandle).leaseRevision = some knownRevision)
    (hle : message.leaseRevision ≤ knownRevision)
    (hcontroller : (leaseOf (reduceLeaseStatus machine sessionHandle inactiveRecovery message
      currentIdentity baselineAuthoritative expectedBaseline).state
      sessionHandle).isController = true) :
    (leaseOf machine sessionHandle).isController = true := by
  unfold reduceLeaseStatus at hcontroller
  cases hget : machine.get? sessionHandle with
  | none => rwa [hget] at hcontroller
  | some session =>
    have hlease : leaseOf machine sessionHandle = session.lease := by rw [leaseOf, hget]; rfl
    rw [hget] at hcontroller
    cases currentIdentity with
    | none => exact hcontroller
    | some identity =>
      dsimp only at hcontroller
      split at hcontroller
      · exact hcontroller
      split at hcontroller
      · unfold deferLeaseStatus at hcontroller
        split at hcontroller
        · rw [updated, leaseOf_updateSession, if_pos rfl, hget] at hcontroller
          rw [hlease]
          exact hcontroller
        · split at hcontroller
          · rw [conflict, leaseOf_updateSession, if_pos rfl] at hcontroller
            cases hcontroller
          · exact hcontroller
      · split at hcontroller
        · exact hcontroller
        · rw [hlease] at hknown ⊢
          exact mergeLeaseStatus_control hget identity _ hknown hle hcontroller

theorem nextMachine_control (machine : SessionControlMachineState)
    {event : SessionControlMachineEvent}
    {message : SessionLeaseStatus} (hhandle : ControlRun.leaseHandle event = some sessionHandle)
    (hmessage : ControlRun.leaseMessage machine event = some message) {knownRevision : ℕ}
    (hknown : (leaseOf machine sessionHandle).leaseRevision = some knownRevision)
    (hle : message.leaseRevision ≤ knownRevision)
    (hcontroller : (leaseOf (nextMachine machine event) sessionHandle).isController = true) :
    (leaseOf machine sessionHandle).isController = true := by
  cases event with
  | leaseStatus handle inactiveRecovery delivered currentIdentity baselineAuthoritative
      expectedBaseline =>
    obtain rfl : handle = sessionHandle := Option.some.inj hhandle
    obtain rfl : delivered = message := Option.some.inj hmessage
    exact reduceLeaseStatus_control machine handle inactiveRecovery currentIdentity
      baselineAuthoritative expectedBaseline hknown hle hcontroller
  | baselineCommitted identity =>
    obtain rfl : identity.sessionHandle = sessionHandle := Option.some.inj hhandle
    obtain ⟨pending, hpending, rfl⟩ := Option.map_eq_some_iff.mp hmessage
    unfold nextMachine at hcontroller
    simp only [reduceSessionControlMachine] at hcontroller
    rw [hpending] at hcontroller
    dsimp only at hcontroller
    split at hcontroller
    · exact hcontroller
    have hcleared : leaseOf (updateSession machine identity.sessionHandle
        fun current => { current with pendingLeaseStatus := none }) identity.sessionHandle =
        leaseOf machine identity.sessionHandle := by
      rw [leaseOf_updateSession, if_pos rfl]
      rfl
    rw [← hcleared] at hknown ⊢
    exact reduceLeaseStatus_control _ _ _ _ _ _ hknown hle hcontroller
  | _ => cases hhandle

/-- **The lease revision is monotone.** In every run without events that start the lease record of a
Session anew, and in which no message fails the Session closed behind the revision it knows, the
revision never decreases; and once the client has no control at a revision, no message of this or an
older revision gives it control again, so that control comes with a newer revision. -/
theorem lease_revision_monotone (sessionHandle : SessionHandle)
    (machine : SessionControlMachineState) (events : List SessionControlMachineEvent)
    (hrun : RunMeets nextMachine (KeepsLease sessionHandle) machine events) (revision : ℕ)
    (hrevision : (leaseOf machine sessionHandle).leaseRevision = some revision) :
    let later := runFrom nextMachine machine events
    (∃ revision', (leaseOf later sessionHandle).leaseRevision = some revision' ∧
      revision ≤ revision') ∧
    ((leaseOf machine sessionHandle).isController = false →
      ((leaseOf later sessionHandle).isController = true →
        ∃ revision', (leaseOf later sessionHandle).leaseRevision = some revision' ∧
          revision < revision') ∧
      ∀ event message, ControlRun.leaseHandle event = some sessionHandle →
        ControlRun.leaseMessage later event = some message → message.leaseRevision ≤ revision →
        (leaseOf (nextMachine later event) sessionHandle).isController = true →
        (leaseOf later sessionHandle).isController = true) := by
  intro later
  obtain ⟨revision', hlater, hle, hcontrol⟩ := runFrom_advances hrun revision hrevision
  refine ⟨⟨revision', hlater, hle⟩, fun hobserver => ⟨fun hcontroller => ?_, ?_⟩⟩
  · rcases hcontrol hcontroller with hbefore | hlt
    · rw [hobserver] at hbefore
      cases hbefore
    · exact ⟨revision', hlater, hlt⟩
  · intro event message hhandle hmessage hold hcontroller
    exact nextMachine_control later hhandle hmessage hlater (Nat.le_trans hold hle) hcontroller

/-- A lease message of the evaluated runs that the projection baseline may not have reached yet. -/
def earlyLeaseStatus (leaseRevision : ℕ) (fencingToken : Option FencingToken)
    (baselineAuthoritative : Bool) : SessionControlMachineEvent :=
  .leaseStatus (js "s") false
    { sessionHandle := js "s", generation := 1, leaseRevision := leaseRevision,
      controlState := .held, transition := .takeover,
      isController := fencingToken.isSome, fencingToken := fencingToken, serverEpoch := js "e" }
    (some sampleControlIdentity) baselineAuthoritative false

/-- An observer that knows revision 5. -/
def observerMachine : SessionControlMachineState :=
  runFrom nextMachine .empty [.subscribe (js "s"), earlyLeaseStatus 5 none true]

/-- A run that repeats revision 5, then brings an older message and a newer one. -/
theorem lease_revision_monotone_observer :
    let later := runFrom nextMachine observerMachine
      [earlyLeaseStatus 5 none true, earlyLeaseStatus 3 (some 7) true,
        earlyLeaseStatus 6 (some 8) true]
    (∃ revision', (leaseOf later (js "s")).leaseRevision = some revision' ∧ 5 ≤ revision') ∧
    ((leaseOf observerMachine (js "s")).isController = false →
      ((leaseOf later (js "s")).isController = true →
        ∃ revision', (leaseOf later (js "s")).leaseRevision = some revision' ∧ 5 < revision') ∧
      ∀ event message, ControlRun.leaseHandle event = some (js "s") →
        ControlRun.leaseMessage later event = some message → message.leaseRevision ≤ 5 →
        (leaseOf (nextMachine later event) (js "s")).isController = true →
        (leaseOf later (js "s")).isController = true) :=
  lease_revision_monotone (js "s") observerMachine _ (by decide +kernel) 5 (by decide +kernel)

/-- Two early messages that contradict each other at revision 3, and one of revision 4. -/
def behindEvents : List SessionControlMachineEvent :=
  [earlyLeaseStatus 3 none false, earlyLeaseStatus 3 (some 7) false,
    earlyLeaseStatus 4 (some 7) true]

/-- An observer at revision 5 falls back to revision 3, and revision 4 makes it the controller, with
no event in between that starts its lease record anew. -/
theorem not_lease_revision_monotone_behind :
    behindEvents.all (fun event => !restartsLease (js "s") event) = true ∧
      (leaseOf observerMachine (js "s")).leaseRevision = some 5 ∧
      (leaseOf observerMachine (js "s")).isController = false ∧
      (leaseOf (runFrom nextMachine observerMachine (behindEvents.take 2)) (js "s")).leaseRevision =
        some 3 ∧
      (leaseOf (runFrom nextMachine observerMachine behindEvents) (js "s")).leaseRevision =
        some 4 ∧
      (leaseOf (runFrom nextMachine observerMachine behindEvents) (js "s")).isController =
      true := by
  decide +kernel

end PiAgentWeb
