import PiAgentWeb.Server.LeaseDeliveries
import PiAgentWeb.UI.ControlMachine
import PiAgentWeb.Library.Runs

/-!
# The Browser and the server agree about the lease

The lease messages of one subscription are fed to the control machine of the Browser in the order
they were sent: first those that arrive before the projection baseline, then the commit of the
baseline, then the others. As long as every revision keeps the form it was first sent in, no message
is a conflict, and when nothing is pending the Browser knows the lease as the server has it.
-/

namespace PiAgentWeb

/-- The event that a lease message becomes outside the recovery of an inactive Session
(`handleLease`). -/
def leaseStatusEvent (identity : SessionRuntimeIdentity) (baselineAuthoritative : Bool)
    (lease : SessionLeaseSnapshot) : SessionControlMachineEvent :=
  .leaseStatus identity.sessionHandle false ⟨lease, identity.serverEpoch⟩ (some identity)
    baselineAuthoritative false

/-- The events of a subscription: its baseline is committed between two of its lease messages. -/
def subscriptionEvents (identity : SessionRuntimeIdentity)
    (early late : List SessionLeaseSnapshot) : List SessionControlMachineEvent :=
  early.map (leaseStatusEvent identity false) ++
    .baselineCommitted identity :: late.map (leaseStatusEvent identity true)

/-- The control machine as a transition function. -/
def controlStep (state : SessionControlMachineState) (event : SessionControlMachineEvent) :
    SessionControlMachineState :=
  (reduceSessionControlMachine state event).state

/-- The event does not take the conflict branch. -/
def NoConflict (state : SessionControlMachineState) (event : SessionControlMachineEvent) : Prop :=
  (reduceSessionControlMachine state event).leaseConflict = false

instance (state : SessionControlMachineState) (event : SessionControlMachineEvent) :
    Decidable (NoConflict state event) :=
  inferInstanceAs (Decidable (_ = false))

namespace SessionControlMachineSessionState

/-- A new subscription: nothing is known of the lease, and control was not given up. -/
structure Fresh (session : SessionControlMachineSessionState) : Prop where
  subscribed : session.subscribed = true
  released : session.released = false
  lease : session.lease = { isController := false }
  pending : session.pendingLeaseStatus = none

/-- Before the projection baseline the leading message waits. -/
structure Awaits (session : SessionControlMachineSessionState) (serverEpoch : JsString)
    (first : Option SessionLeaseSnapshot) : Prop where
  subscribed : session.subscribed = true
  released : session.released = false
  lease : session.lease = { isController := false }
  pending : session.pendingLeaseStatus.map (·.message) =
    first.map fun message => ⟨message, serverEpoch⟩

/-- After it the leading message is what is known of the lease. -/
structure Knows (session : SessionControlMachineSessionState) (serverEpoch : JsString)
    (first : Option SessionLeaseSnapshot) : Prop where
  subscribed : session.subscribed = true
  released : session.released = false
  lease : session.lease =
    first.elim { isController := false } fun message => leaseStateFrom ⟨message, serverEpoch⟩

end SessionControlMachineSessionState

open SessionControlMachineSessionState

variable {identity : SessionRuntimeIdentity} {machine : SessionControlMachineState}
  {session : SessionControlMachineSessionState} {first : Option SessionLeaseSnapshot}
  {message : SessionLeaseSnapshot}

theorem leaseStatusMatchesState_self (message : SessionLeaseStatus) :
    leaseStatusMatchesState message (leaseStateFrom message) = true := by
  simp [leaseStatusMatchesState, leaseStatusSemanticsMatchState, leaseStateFrom]

/-- The Session after an update. -/
@[simp] theorem get?_updateSession (state : SessionControlMachineState)
    (sessionHandle : SessionHandle)
    (update : SessionControlMachineSessionState → SessionControlMachineSessionState) :
    (updateSession state sessionHandle update).get? sessionHandle =
      some (update ((state.get? sessionHandle).getD emptySession)) :=
  InsertionMap.get?_insert_self _ _ _

/-- A message before the baseline is deferred. -/
theorem reduceLeaseStatus_early (hget : machine.get? identity.sessionHandle = some session)
    (hsubscribed : session.subscribed = true)
    (hgeneration : message.generation = identity.generation) :
    ∃ controlled, reduceSessionControlMachine machine (leaseStatusEvent identity false message) =
      deferLeaseStatus machine identity.sessionHandle session ⟨message, identity.serverEpoch⟩
        controlled := by
  refine ⟨controlledBaseline session identity ⟨message, identity.serverEpoch⟩ false, ?_⟩
  simp [reduceSessionControlMachine, leaseStatusEvent, reduceLeaseStatus, hget, hsubscribed,
    hgeneration]

/-- A message before the baseline waits when it leads. -/
theorem SessionControlMachineSessionState.Awaits.receive
    (hget : machine.get? identity.sessionHandle = some session)
    (h : session.Awaits identity.serverEpoch first)
    (hgeneration : message.generation = identity.generation)
    (hconsistent : ∀ known ∈ first, known.leaseRevision = message.leaseRevision → known = message) :
    NoConflict machine (leaseStatusEvent identity false message) ∧
      ∃ session', (controlStep machine (leaseStatusEvent identity false message)).get?
          identity.sessionHandle = some session' ∧
        session'.Awaits identity.serverEpoch (WatchedLease.lead first message) := by
  obtain ⟨controlled, hreduce⟩ := reduceLeaseStatus_early hget h.subscribed hgeneration
  unfold NoConflict controlStep
  rw [hreduce]
  have hpending := h.pending
  -- the message waits
  have hwaits : session.pendingLeaseStatus.all (·.message.leaseRevision < message.leaseRevision) =
      true → WatchedLease.lead first message = some message →
      (deferLeaseStatus machine identity.sessionHandle session ⟨message, identity.serverEpoch⟩
          controlled).leaseConflict = false ∧
        ∃ session', (deferLeaseStatus machine identity.sessionHandle session
            ⟨message, identity.serverEpoch⟩ controlled).state.get? identity.sessionHandle =
              some session' ∧
          session'.Awaits identity.serverEpoch (WatchedLease.lead first message) := by
    intro hnewer hlead
    rw [deferLeaseStatus, if_pos hnewer, hlead]
    refine ⟨rfl, _, get?_updateSession _ _ _, ?_⟩
    rw [hget]
    exact ⟨h.subscribed, h.released, h.lease, rfl⟩
  cases first with
  | none =>
    have hnone : session.pendingLeaseStatus = none := by simpa using hpending
    exact hwaits (by simp [hnone]) rfl
  | some known =>
    obtain ⟨pending, hsome, hmessage⟩ := Option.map_eq_some_iff.mp hpending
    by_cases hnewer : known.leaseRevision < message.leaseRevision
    · exact hwaits (by simp [hsome, hmessage, hnewer]) (by simp [WatchedLease.lead, hnewer])
    · have hlead : WatchedLease.lead (some known) message = some known := by
        simp [WatchedLease.lead, hnewer]
      have hsame : ¬session.pendingLeaseStatus.any (fun pending =>
          message.leaseRevision = pending.message.leaseRevision &&
            !leaseStatusMatchesState ⟨message, identity.serverEpoch⟩
              (leaseStateFrom pending.message)) = true := by
        rw [hsome, Option.any_some, hmessage]
        intro hconflict
        simp only [Bool.and_eq_true, decide_eq_true_eq, Bool.not_eq_true'] at hconflict
        rw [hconsistent known rfl hconflict.1.symm, leaseStatusMatchesState_self] at hconflict
        exact absurd hconflict.2 (by decide)
      rw [deferLeaseStatus, if_neg (by simp [hsome, hmessage, hnewer]), if_neg hsame, hlead]
      exact ⟨rfl, session, hget, h⟩

/-- Nothing is known yet, so a message is taken over. -/
theorem acceptLeaseStatus_knows (message : SessionLeaseSnapshot)
    (hget : machine.get? identity.sessionHandle = some session)
    (hsubscribed : session.subscribed = true) (hreleased : session.released = false) :
    ∃ session', (acceptLeaseStatus machine identity.sessionHandle identity
        ⟨message, identity.serverEpoch⟩ false).state.get? identity.sessionHandle = some session' ∧
      session'.Knows identity.serverEpoch (some message) := by
  refine ⟨_, get?_updateSession _ _ _, ?_⟩
  rw [hget]
  refine ⟨hsubscribed, ?_, rfl⟩
  change (if message.isController then session.released else false) = false
  rw [hreleased, ite_self]

/-- A message after the baseline is taken over when it leads. -/
theorem reduceLeaseStatus_late (hget : machine.get? identity.sessionHandle = some session)
    (h : session.Knows identity.serverEpoch first)
    (hgeneration : message.generation = identity.generation)
    (hconsistent : ∀ known ∈ first, known.leaseRevision = message.leaseRevision → known = message)
    (expectedBaseline : Bool) :
    let transition := reduceLeaseStatus machine identity.sessionHandle false
      ⟨message, identity.serverEpoch⟩ (some identity) true expectedBaseline
    transition.leaseConflict = false ∧
      ∃ session', transition.state.get? identity.sessionHandle = some session' ∧
        session'.Knows identity.serverEpoch (WatchedLease.lead first message) := by
  intro transition
  have haccept := acceptLeaseStatus_knows message hget h.subscribed h.released
  have hreduce : transition = mergeLeaseStatus machine identity.sessionHandle session identity
      ⟨message, identity.serverEpoch⟩
        (controlledBaseline session identity ⟨message, identity.serverEpoch⟩ expectedBaseline) := by
    simp [transition, reduceLeaseStatus, hget, h.subscribed, h.released, hgeneration]
  rw [hreduce, mergeLeaseStatus]
  cases first with
  | none =>
    have hknown : session.lease.leaseRevision = none := by rw [h.lease]; rfl
    rw [hknown]
    exact ⟨rfl, haccept⟩
  | some known =>
    have hknown : session.lease.leaseRevision = some known.leaseRevision := by rw [h.lease]; rfl
    simp only [hknown]
    by_cases hnewer : known.leaseRevision < message.leaseRevision
    · have hlead : WatchedLease.lead (some known) message = some message := by
        simp [WatchedLease.lead, hnewer]
      rw [if_neg (by omega), if_neg (by omega), hlead]
      exact ⟨rfl, haccept⟩
    · have hlead : WatchedLease.lead (some known) message = some known := by
        simp [WatchedLease.lead, hnewer]
      rw [hlead]
      by_cases holder : message.leaseRevision < known.leaseRevision
      · rw [if_pos holder]
        exact ⟨rfl, session, hget, h⟩
      · have hsame : known = message := hconsistent known rfl (by omega)
        subst hsame
        have hmatches :
            leaseStatusMatchesState ⟨known, identity.serverEpoch⟩ session.lease = true := by
          rw [h.lease]
          exact leaseStatusMatchesState_self _
        rw [if_neg holder, if_pos rfl, if_pos hmatches]
        split
        · exact ⟨rfl, session, hget, h⟩
        · exact ⟨rfl, haccept⟩

/-- The baseline lets the waiting message in. -/
theorem SessionControlMachineSessionState.Awaits.commit
    (hget : machine.get? identity.sessionHandle = some session)
    (h : session.Awaits identity.serverEpoch first)
    (hgeneration : ∀ known ∈ first, known.generation = identity.generation) :
    NoConflict machine (.baselineCommitted identity) ∧
      ∃ session', (controlStep machine (.baselineCommitted identity)).get?
          identity.sessionHandle = some session' ∧
        session'.Knows identity.serverEpoch first := by
  have hpending := h.pending
  unfold NoConflict controlStep
  cases first with
  | none =>
    have hnone : session.pendingLeaseStatus = none := by simpa using hpending
    have hreduce : reduceSessionControlMachine machine (.baselineCommitted identity) =
        { state := machine } := by
      simp [reduceSessionControlMachine, hget, hnone]
    rw [hreduce]
    exact ⟨rfl, session, hget, h.subscribed, h.released, h.lease⟩
  | some known =>
    obtain ⟨pending, hsome, hmessage⟩ := Option.map_eq_some_iff.mp hpending
    have hcleared : (updateSession machine identity.sessionHandle fun current =>
          { current with pendingLeaseStatus := none }).get? identity.sessionHandle =
        some { session with pendingLeaseStatus := none } := by
      rw [get?_updateSession, hget]
      rfl
    have hreduce : reduceSessionControlMachine machine (.baselineCommitted identity) =
        mergeTransitions
          (updated machine identity.sessionHandle fun current =>
            { current with pendingLeaseStatus := none })
          (reduceLeaseStatus (updateSession machine identity.sessionHandle fun current =>
              { current with pendingLeaseStatus := none }) identity.sessionHandle false
            ⟨known, identity.serverEpoch⟩ (some identity) true pending.expectedBaseline) := by
      simp [reduceSessionControlMachine, hget, hsome, hmessage, updated, hgeneration known rfl]
    rw [hreduce]
    have hbefore : { session with pendingLeaseStatus := none }.Knows identity.serverEpoch none :=
      ⟨h.subscribed, h.released, h.lease⟩
    obtain ⟨hconflict, hknows⟩ := reduceLeaseStatus_late hcleared hbefore (hgeneration known rfl)
      (by simp) pending.expectedBaseline
    exact ⟨by simpa [mergeTransitions, updated] using hconflict, hknows⟩

/-- What one consistent message keeps of the Session, a stretch of them keeps. -/
theorem receive_all {I : SessionControlMachineSessionState → Option SessionLeaseSnapshot → Prop}
    {committed : Bool} {messages : List SessionLeaseSnapshot}
    (hstep : ∀ {machine session first message}, machine.get? identity.sessionHandle = some session →
      I session first → message.generation = identity.generation →
      (∀ known ∈ first, known.leaseRevision = message.leaseRevision → known = message) →
      NoConflict machine (leaseStatusEvent identity committed message) ∧
        ∃ session', (controlStep machine (leaseStatusEvent identity committed message)).get?
            identity.sessionHandle = some session' ∧
          I session' (WatchedLease.lead first message))
    (hget : machine.get? identity.sessionHandle = some session) (h : I session first)
    (hgeneration : ∀ message ∈ messages, message.generation = identity.generation)
    (hconsistent : WatchedLease.Consistent first messages) :
    RunMeets controlStep NoConflict machine (messages.map (leaseStatusEvent identity committed)) ∧
      ∃ session', (runFrom controlStep machine
          (messages.map (leaseStatusEvent identity committed))).get? identity.sessionHandle =
            some session' ∧
        I session' (messages.foldl WatchedLease.lead first) := by
  induction messages generalizing machine session first with
  | nil => exact ⟨trivial, session, hget, h⟩
  | cons message rest ih =>
    obtain ⟨hhead, htail⟩ := hconsistent
    obtain ⟨hconflict, session', hget', h'⟩ := hstep hget h (hgeneration message (by simp)) hhead
    obtain ⟨hrest, hlast⟩ := ih hget' h' (fun other hmem => hgeneration other (by simp [hmem]))
      htail
    exact ⟨⟨hconflict, hrest⟩, hlast⟩

/-- Consistent messages never conflict, and the leading one is what the Browser knows. -/
theorem subscriptionEvents_spec {early late : List SessionLeaseSnapshot}
    (hget : machine.get? identity.sessionHandle = some session) (hfresh : session.Fresh)
    (hgeneration : ∀ message ∈ early ++ late, message.generation = identity.generation)
    (hconsistent : WatchedLease.Consistent none (early ++ late)) :
    RunMeets controlStep NoConflict machine (subscriptionEvents identity early late) ∧
      ∃ session', (runFrom controlStep machine (subscriptionEvents identity early late)).get?
          identity.sessionHandle = some session' ∧
        session'.Knows identity.serverEpoch (WatchedLease.leading (early ++ late)) := by
  obtain ⟨hearlyConsistent, hlateConsistent⟩ := WatchedLease.consistent_append.mp hconsistent
  have hawaits : session.Awaits identity.serverEpoch none :=
    ⟨hfresh.subscribed, hfresh.released, hfresh.lease, by simp [hfresh.pending]⟩
  obtain ⟨hearly, waiting, hwaiting, hwaits⟩ := receive_all
    (I := fun session first => session.Awaits identity.serverEpoch first)
    (fun hget h => h.receive hget) hget hawaits
    (fun message hmem => hgeneration message (List.mem_append_left _ hmem)) hearlyConsistent
  have hfirst : ∀ known ∈ early.foldl WatchedLease.lead none,
      known.generation = identity.generation := by
    intro known hknown
    have hmem := (WatchedLease.leading_spec early).1 known hknown
    exact hgeneration known (List.mem_append_left _ hmem)
  obtain ⟨hcommit, committed, hcommitted, hknows⟩ := hwaits.commit hwaiting hfirst
  obtain ⟨hlate, last, hlast, hresult⟩ := receive_all
    (I := fun session first => session.Knows identity.serverEpoch first)
    (fun hget h hgeneration hhead => reduceLeaseStatus_late hget h hgeneration hhead false)
    hcommitted hknows
    (fun message hmem => hgeneration message (List.mem_append_right _ hmem)) hlateConsistent
  unfold subscriptionEvents
  rw [RunMeets.append_iff, runFrom_append, runFrom_cons]
  refine ⟨⟨hearly, hcommit, hlate⟩, last, hlast, ?_⟩
  rw [WatchedLease.leading, List.foldl_append]
  exact hresult

namespace WatchedLease

/-- What the Browser knows of the lease is the lease of the server. -/
def Agrees (w : WatchedLease) (table : LeaseTable) (lease : SessionLeaseState) : Prop :=
  lease.isController = (w.leaseFor table).isController ∧
    lease.fencingToken = (w.leaseFor table).fencingToken ∧
    lease.leaseRevision = some (w.leaseFor table).leaseRevision

instance (w : WatchedLease) (table : LeaseTable) (lease : SessionLeaseState) :
    Decidable (w.Agrees table lease) :=
  inferInstanceAs (Decidable (_ ∧ _))

/-- However a Browser with a new subscription takes the messages sent so far, it never meets a
conflict, and it knows the lease once the subscription is live and nothing is pending. -/
def ViewsAgree (w : WatchedLease) (identity : SessionRuntimeIdentity) (b : LeaseBridge) : Prop :=
  ∀ (machine : SessionControlMachineState) (session : SessionControlMachineSessionState)
    (early late : List SessionLeaseSnapshot), machine.get? w.sessionHandle = some session →
    session.Fresh → b.sent = early ++ late →
      RunMeets controlStep NoConflict machine (subscriptionEvents identity early late) ∧
        (b.pending = [] → b.channel = .live →
          ∃ session', (runFrom controlStep machine (subscriptionEvents identity early late)).get?
              w.sessionHandle = some session' ∧ w.Agrees b.table session'.lease)

/-- In every run of the bridge in which each revision keeps its form the views agree. -/
theorem lease_views_agree (w : WatchedLease) (identity : SessionRuntimeIdentity)
    (hhandle : identity.sessionHandle = w.sessionHandle)
    (hgeneration : identity.generation = w.target.generation) (actions : List LeaseBridgeAction)
    (hrun : RunMeets w.step w.OneForm initial actions) :
    w.ViewsAgree identity (runFrom w.step initial actions) := by
  intro machine session early late hsession hfresh hsent
  have hformed : w.OneFormed (runFrom w.step initial actions) :=
    hrun.invariant (fun _ _ hcondition h => OneFormed.step w hcondition h)
      ⟨w.delivering_initial, trivial⟩
  have hmessages : ∀ message ∈ early ++ late, message.generation = identity.generation := by
    intro message hmem
    have hdescribes := hformed.delivering.sent message (hsent ▸ hmem)
    rw [hdescribes.view, hgeneration]
    rfl
  rw [← hhandle] at hsession ⊢
  obtain ⟨hmeets, session', hget, hknows⟩ :=
    subscriptionEvents_spec hsession hfresh hmessages (hsent ▸ hformed.consistent)
  refine ⟨hmeets, fun hpending hlive => ⟨session', hget, ?_⟩⟩
  obtain ⟨first, hfirst, hcontroller, htoken, hrevision⟩ :=
    hformed.delivering.leading_eq w hpending hlive
  have hlease := hknows.lease
  rw [← hsent, hfirst] at hlease
  rw [Agrees, hlease]
  exact ⟨hcontroller, htoken, congrArg some hrevision⟩

/-- The connection claims, another one takes over and gives the lease up. -/
theorem lease_views_agree_takeover :
    let w : WatchedLease := ⟨js "A", js "S", ⟨1, 0⟩⟩
    w.ViewsAgree ⟨js "epoch", js "S", js "W", 1⟩
      (runFrom w.step initial [.establish, .claim (js "A"), .resume 0, .takeover (js "B") 1,
        .release (js "B"), .resume 1, .resume 0]) :=
  lease_views_agree _ _ rfl rfl _ (by decide +kernel)

/-- Another connection holds the lease when this one claims: the answer is the baseline of a
revision that was broadcast as a claim. -/
theorem not_viewsAgree_claim_of_held :
    let w : WatchedLease := ⟨js "A", js "S", ⟨1, 0⟩⟩
    ¬w.ViewsAgree ⟨js "epoch", js "S", js "W", 1⟩
      (runFrom w.step initial [.establish, .claim (js "B"), .resume 0, .claim (js "A"),
        .resume 0]) := by
  intro w h
  let session : SessionControlMachineSessionState := { emptySession with subscribed := true }
  have hmeets := (h (InsertionMap.empty.insert (js "S") session) session [] _
    (InsertionMap.get?_insert_self _ _ _) ⟨rfl, rfl, rfl, rfl⟩ rfl).1
  revert hmeets
  decide +kernel

end WatchedLease

end PiAgentWeb
