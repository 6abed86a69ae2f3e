import PiAgentWeb.Library.Runs
import PiAgentWeb.UI.CommandMachine

/-!
# Runs of the command machine

Every request that was accepted has a token of its own. A transition either accepts a request,
changes what is known of the response of one pending request, or settles pending requests one by
one, so that no token is settled twice. A response is recorded for the token of the request that it
matches, and only such a response resolves the request.
-/

namespace PiAgentWeb

/-- A request was resolved or rejected. -/
structure CommandSettlement where
  token : ℕ
  resolved : Bool

/-- The settlement that an intent carries out. -/
def commandSettlementOf : SessionCommandMachineIntent → Option CommandSettlement
  | .resolve _ token _ => some { token, resolved := true }
  | .reject _ token _ => some { token, resolved := false }
  | _ => none

/-- The settlements that the intents of a transition carry out. -/
def commandSettlements (intents : List SessionCommandMachineIntent) : List CommandSettlement :=
  intents.filterMap commandSettlementOf

/-- The request as it was accepted. -/
def SessionCommandMachinePending.asAccepted (pending : SessionCommandMachinePending) :
    SessionCommandMachinePending :=
  { pending with
    response := none, historyBarrierSeq := none, responseKey := none, materializing := false }

/-- A response says the same as a frame, but for the members that content references stand for. -/
def SessionCommandMachineResolvedResponse.materializes
    (response : SessionCommandMachineResolvedResponse) (message : SessionResponseFrame) : Bool :=
  response.serverEpoch = message.serverEpoch && response.sessionHandle = message.sessionHandle &&
    response.generation = message.generation && response.barrierSeq = message.barrierSeq &&
    response.previousSessionHandle = message.previousSessionHandle &&
    response.response.id = message.response.id &&
      response.response.command = message.response.command

/-- The machine with its history: the accepted requests, the responses that matched a pending
request under its token, and the settlements. -/
structure CommandRun where
  machine : SessionCommandMachineState
  accepted : List SessionCommandMachinePending
  received : List (ℕ × SessionResponseFrame)
  settled : List CommandSettlement

namespace CommandRun

/-- The machine before its first event. -/
def initial : CommandRun where
  machine := createInitialSessionCommandMachineState
  accepted := []
  received := []
  settled := []

/-- The request that an event adds. -/
def acceptedRequest (machine : SessionCommandMachineState) :
    SessionCommandMachineEvent → Option SessionCommandMachinePending
  | .request request =>
    let transition := reduceRequest machine request
    if transition.accepted then
      transition.state.pending.get?
        (request.command.id.getD (generatedCommandId (machine.nextCommandNumber + 1) request.now))
    else none
  | _ => none

/-- The response that an event brings for a pending request, with the token of the request. -/
def receivedResponse (machine : SessionCommandMachineState) :
    SessionCommandMachineEvent → Option (ℕ × SessionResponseFrame)
  | .wireResponse message _ | .inlineResponse message =>
    (((responseId message).bind machine.pending.get?).filter (answersPending · message)).map
      fun pending => (pending.token, message)
  | _ => none

/-- One event. -/
def step (run : CommandRun) (event : SessionCommandMachineEvent) : CommandRun :=
  let transition := reduceSessionCommandMachine run.machine event
  { machine := transition.state
    accepted := run.accepted ++ (acceptedRequest run.machine event).toList
    received := run.received ++ (receivedResponse run.machine event).toList
    settled := run.settled ++ commandSettlements transition.intents }

/-- A response that is materialized for a pending request is one that was received for it. -/
def materializesReceived (run : CommandRun) : SessionCommandMachineEvent → Bool
  | .responseMaterialized id token response =>
    (pendingWithToken run.machine id token).isNone ||
      run.received.any fun entry => entry.1 = token && response.materializes entry.2
  | _ => true

end CommandRun

/-! ## Settling pending requests -/

/-- Pending requests are settled one by one. -/
inductive SettlesTo : InsertionMap JsString SessionCommandMachinePending → List CommandSettlement →
    InsertionMap JsString SessionCommandMachinePending → Prop
  | refl (pending) : SettlesTo pending [] pending
  | settle {pending settled pending'} (h : SettlesTo pending settled pending')
      {request : SessionCommandMachinePending} (hget : pending'.get? request.id = some request)
      (resolved : Bool) :
    SettlesTo pending (settled ++ [{ token := request.token, resolved }])
      (pending'.erase request.id)

/-- Every request is pending under its id. -/
def KeyedById (pending : InsertionMap JsString SessionCommandMachinePending) : Prop :=
  ∀ id request, pending.get? id = some request → request.id = id

/-- A round settles the request that it is given, or leaves everything as it is. -/
def SettlesRound (settle : SessionCommandMachineState → SessionCommandMachinePending →
      Option SessionCommandMachineTransition) : Prop :=
  ∀ (state : SessionCommandMachineState) (request : SessionCommandMachinePending)
    (result : SessionCommandMachineTransition), state.pending.get? request.id = some request →
    settle state request = some result →
    result.state = { state with pending := state.pending.erase request.id } ∧
      ∃ resolved, commandSettlements result.intents = [{ token := request.token, resolved }]

theorem settlements_rejectIntents (pending : SessionCommandMachinePending)
    (error : SessionCommandMachineError) :
    commandSettlements (rejectIntents pending error) =
      [{ token := pending.token, resolved := false }] := by
  unfold rejectIntents
  split <;> rfl

theorem settlesRound_reject (selects : SessionCommandMachinePending → Bool)
    (error : SessionCommandMachineError) : SettlesRound (rejectRound selects error) := by
  intro state request result hget hresult
  unfold rejectRound at hresult
  split at hresult
  · rw [hget] at hresult
    obtain rfl := Option.some.inj hresult
    exact ⟨rfl, false, settlements_rejectIntents request error⟩
  · cases hresult

theorem response_of_reachedBy {identity : SessionRuntimeIdentity} {projectedSeq : ℕ}
    {candidate : SessionCommandMachinePending}
    (h : reachedBy identity projectedSeq candidate = true) :
    ∃ response, candidate.response = some response ∧
      response.serverEpoch = identity.serverEpoch ∧
      response.sessionHandle = identity.sessionHandle ∧
      response.generation = identity.generation ∧ response.barrierSeq ≤ projectedSeq := by
  unfold reachedBy at h
  split at h
  · cases h
  · rename_i response hresponse
    simp only [Bool.and_eq_true, decide_eq_true_eq] at h
    exact ⟨response, hresponse, h.1.1.1.1.2, h.1.1.1.2, h.1.1.2, h.2⟩

theorem settlesRound_resolve (identity : SessionRuntimeIdentity) (projectedSeq : ℕ) :
    SettlesRound (resolveRound identity projectedSeq) := by
  intro state request result hget hresult
  unfold resolveRound at hresult
  rw [hget] at hresult
  dsimp only at hresult
  split at hresult
  · rename_i hreached
    obtain rfl := Option.some.inj hresult
    obtain ⟨response, hresponse, -⟩ := response_of_reachedBy hreached
    rw [settleResolve, hresponse]
    exact ⟨rfl, true, rfl⟩
  · cases hresult

theorem settleLoop_spec {settle : SessionCommandMachineState → SessionCommandMachinePending →
      Option SessionCommandMachineTransition}
    (hsettle : SettlesRound settle) (state : SessionCommandMachineState)
    (hkeyed : KeyedById state.pending) :
    SettlesTo state.pending (commandSettlements (settleLoop settle state).intents)
        (settleLoop settle state).state.pending ∧
      (settleLoop settle state).state.nextPendingToken = state.nextPendingToken ∧
      ∀ intent ∈ (settleLoop settle state).intents, ∃ state' request result,
        state.pending.get? request.id = some request ∧
          state'.pending.get? request.id = some request ∧
          settle state' request = some result ∧ intent ∈ result.intents := by
  have hloop : ∀ (round : SessionCommandMachineTransition → SessionCommandMachinePending →
        SessionCommandMachineTransition),
      (∀ current pending, settle current.state pending = none → round current pending = current) →
      (∀ current pending result, settle current.state pending = some result →
        round current pending =
          { state := result.state, intents := current.intents ++ result.intents,
            accepted := true }) →
      ∀ (rest : List SessionCommandMachinePending)
      (current : SessionCommandMachineTransition), (rest.map (·.id)).Nodup →
      (∀ request ∈ rest, current.state.pending.get? request.id = some request ∧
        state.pending.get? request.id = some request) →
      SettlesTo state.pending (commandSettlements current.intents) current.state.pending →
      current.state.nextPendingToken = state.nextPendingToken →
      (∀ intent ∈ current.intents, ∃ state' request result,
        state.pending.get? request.id = some request ∧
          state'.pending.get? request.id = some request ∧
          settle state' request = some result ∧ intent ∈ result.intents) →
      let final := rest.foldl round current
      SettlesTo state.pending (commandSettlements final.intents) final.state.pending ∧
        final.state.nextPendingToken = state.nextPendingToken ∧
        ∀ intent ∈ final.intents, ∃ state' request result,
          state.pending.get? request.id = some request ∧
            state'.pending.get? request.id = some request ∧
            settle state' request = some result ∧ intent ∈ result.intents := by
    intro round hnone hsome rest
    induction rest with
    | nil => exact fun current _ _ hsettles hnext hintents => ⟨hsettles, hnext, hintents⟩
    | cons request rest ih =>
      intro current hnodup hpending hsettles hnext hintents
      obtain ⟨hget, hrest⟩ := List.forall_mem_cons.mp hpending
      rw [List.map_cons, List.nodup_cons] at hnodup
      rw [List.foldl_cons]
      cases hresult : settle current.state request with
      | none =>
        rw [hnone current request hresult]
        exact ih current hnodup.2 hrest hsettles hnext hintents
      | some result =>
        rw [hsome current request result hresult]
        obtain ⟨hstate, resolved, hsettled⟩ := hsettle current.state request result hget.1 hresult
        refine ih _ hnodup.2 ?_ ?_ ?_ ?_
        · intro other hother
          dsimp only
          have hne : other.id ≠ request.id := fun hid =>
            hnodup.1 (List.mem_map.mpr ⟨other, hother, hid⟩)
          rw [hstate, InsertionMap.get?_erase, if_neg hne]
          exact hrest other hother
        · dsimp only
          rw [hstate]
          have happend : commandSettlements (current.intents ++ result.intents) =
              commandSettlements current.intents ++ [{ token := request.token, resolved }] := by
            rw [commandSettlements, List.filterMap_append]
            exact congrArg _ hsettled
          rw [happend]
          exact hsettles.settle hget.1 resolved
        · dsimp only
          rw [hstate]
          exact hnext
        · intro intent hintent
          rcases List.mem_append.mp hintent with hbefore | hnow
          · exact hintents intent hbefore
          · exact ⟨current.state, request, result, hget.2, hget.1, hresult, hnow⟩
  have hids : (state.pending.entries.map (·.2)).map (·.id) = state.pending.entries.map (·.1) := by
    rw [List.map_map]
    refine List.map_congr_left fun entry hentry => ?_
    exact hkeyed entry.1 entry.2 (InsertionMap.get?_of_mem hentry)
  refine hloop _ ?_ ?_ (state.pending.entries.map (·.2)) { state } ?_ ?_ (.refl _) rfl (by simp)
  · intro current pending hnone
    simp only [hnone]
  · intro current pending result hsome
    simp only [hsome]
  · rw [hids]
    exact state.pending.nodup
  · intro request hrequest
    obtain ⟨entry, hentry, rfl⟩ := List.mem_map.mp hrequest
    have hget := InsertionMap.get?_of_mem hentry
    rw [hkeyed entry.1 entry.2 hget]
    exact ⟨hget, hget⟩

/-! ## What one event can do -/

/-- An event accepts a request, which is pending afterwards under an id that was free. -/
structure AcceptsRequest (machine : SessionCommandMachineState)
    (transition : SessionCommandMachineTransition) (request : SessionCommandMachinePending) :
    Prop where
  free : machine.pending.get? request.id = none
  pending : transition.state.pending = machine.pending.insert request.id request
  token : request.token = machine.nextPendingToken
  next : transition.state.nextPendingToken = machine.nextPendingToken + 1
  fresh : request.response = none ∧ request.asAccepted = request
  settlements : commandSettlements transition.intents = []

/-- An event changes what is known of the response of one pending request. -/
structure UpdatesResponse (machine : SessionCommandMachineState)
    (transition : SessionCommandMachineTransition)
    (request request' : SessionCommandMachinePending) :
    Prop where
  get : machine.pending.get? request.id = some request
  pending : transition.state.pending = machine.pending.insert request.id request'
  kept : request'.asAccepted = request.asAccepted
  next : transition.state.nextPendingToken = machine.nextPendingToken
  settlements : commandSettlements transition.intents = []

/-- An event settles pending requests, or none. -/
structure SettlesRequests (machine : SessionCommandMachineState)
    (transition : SessionCommandMachineTransition) : Prop where
  settles : SettlesTo machine.pending (commandSettlements transition.intents)
    transition.state.pending
  next : transition.state.nextPendingToken = machine.nextPendingToken

namespace SettlesRequests

theorem unchanged {machine : SessionCommandMachineState}
    {transition : SessionCommandMachineTransition} (hstate : transition.state = machine)
    (hintents : transition.intents = []) : SettlesRequests machine transition where
  settles := by
    rw [hstate, hintents]
    exact .refl _
  next := by rw [hstate]

theorem reject {machine : SessionCommandMachineState} {request : SessionCommandMachinePending}
    (hget : machine.pending.get? request.id = some request) (error : SessionCommandMachineError)
    {transition : SessionCommandMachineTransition}
    (hstate : transition.state = (settleReject machine request error).state)
    (hintents : transition.intents = (settleReject machine request error).intents) :
    SettlesRequests machine transition where
  settles := by
    rw [hstate, hintents, settleReject]
    dsimp only
    rw [settlements_rejectIntents]
    exact (SettlesTo.refl _).settle hget false
  next := by rw [hstate]; rfl

theorem loop {settle : SessionCommandMachineState → SessionCommandMachinePending →
      Option SessionCommandMachineTransition}
    (hsettle : SettlesRound settle) {machine : SessionCommandMachineState}
    (hkeyed : KeyedById machine.pending) : SettlesRequests machine (settleLoop settle machine) :=
  let hloop := settleLoop_spec hsettle machine hkeyed
  ⟨hloop.1, hloop.2.1⟩

end SettlesRequests

theorem reduceRequest_cases (machine : SessionCommandMachineState)
    (request : SessionCommandRequest) :
    (∃ pending, CommandRun.acceptedRequest machine (.request request) = some pending ∧
      AcceptsRequest machine (reduceRequest machine request) pending) ∨
    CommandRun.acceptedRequest machine (.request request) = none ∧
      SettlesRequests machine (reduceRequest machine request) := by
  unfold CommandRun.acceptedRequest
  dsimp only
  unfold reduceRequest
  split
  · exact .inr ⟨rfl, .unchanged rfl rfl⟩
  · exact .inr ⟨rfl, .unchanged rfl rfl⟩
  · dsimp only
    split
    · exact .inr ⟨rfl, ⟨.refl _, rfl⟩⟩
    · rename_i hfree
      refine .inl ⟨_, by rw [if_pos rfl, InsertionMap.get?_insert_self], ?_⟩
      exact ⟨by simpa using hfree, rfl, rfl, rfl, ⟨rfl, rfl⟩, rfl⟩

variable {machine : SessionCommandMachineState}

/-- A response either updates the request that it matches, or it rejects the pending request under
its id, or it changes nothing. -/
theorem reduceResponse_cases (hkeyed : KeyedById machine.pending) (message : SessionResponseFrame)
    (accept : JsString → SessionCommandMachinePending → SessionCommandMachineTransition)
    (Accepted : SessionCommandMachinePending → SessionCommandMachinePending → Prop)
    (haccept : ∀ request, machine.pending.get? request.id = some request →
      SettlesRequests machine (accept request.id request) ∨
        ∃ request', UpdatesResponse machine (accept request.id request) request request' ∧
          Accepted request request') :
    SettlesRequests machine (reduceResponse machine message accept) ∨
      ∃ request request', UpdatesResponse machine (reduceResponse machine message accept) request
          request' ∧ Accepted request request' ∧ responseId message = some request.id ∧
        answersPending request message = true := by
  unfold reduceResponse
  split
  · exact .inl (.unchanged rfl rfl)
  · rename_i id hid
    split
    · exact .inl (.unchanged rfl rfl)
    · rename_i request hget
      obtain rfl := hkeyed id request hget
      split
      · rename_i hanswers
        rcases haccept request hget with hsettles | ⟨request', hupdates, haccepted⟩
        · exact .inl hsettles
        · exact .inr ⟨request, request', hupdates, haccepted, hid, hanswers⟩
      · exact .inl (.reject hget _ rfl rfl)

theorem acceptWireResponse_cases {request : SessionCommandMachinePending}
    (hget : machine.pending.get? request.id = some request) (message : SessionResponseFrame)
    (history : Bool) :
    SettlesRequests machine (acceptWireResponse machine request.id request message history) ∨
      ∃ request', UpdatesResponse machine
          (acceptWireResponse machine request.id request message history) request request' ∧
        request'.response = request.response := by
  unfold acceptWireResponse
  split
  · split
    · split
      · exact .inl (.unchanged rfl rfl)
      · exact .inl (.reject hget _ rfl rfl)
    · exact .inr ⟨_, ⟨hget, rfl, rfl, rfl, rfl⟩, rfl⟩
  · exact .inr ⟨_, ⟨hget, rfl, rfl, rfl, rfl⟩, rfl⟩

/-- Where the response of a pending request comes from when an event changes it. -/
def ResponseFrom (machine : SessionCommandMachineState) (event : SessionCommandMachineEvent)
    (request request' : SessionCommandMachinePending) : Prop :=
  request'.response = request.response ∨
    (∃ message, CommandRun.receivedResponse machine event = some (request.token, message) ∧
      request'.response = some message.toSessionCommandMachineResolvedResponse) ∨
    ∃ response, event = .responseMaterialized request.id request.token response ∧
      pendingWithToken machine request.id request.token = some request ∧
      request'.response = some response

theorem receivedResponse_eq
    {request : SessionCommandMachinePending} {message : SessionResponseFrame}
    (hget : machine.pending.get? request.id = some request)
    (hid : responseId message = some request.id)
    (hanswers : answersPending request message = true) :
    (((responseId message).bind machine.pending.get?).filter (answersPending · message)).map
      (fun pending => (pending.token, message)) = some (request.token, message) := by
  rw [hid, Option.bind_some, hget]
  simp [Option.filter, hanswers]

theorem pendingWithToken_eq_some {id : JsString} {token : ℕ}
    {request : SessionCommandMachinePending}
    (h : pendingWithToken machine id token = some request) :
    machine.pending.get? id = some request ∧ request.token = token := by
  simpa [pendingWithToken, Option.filter_eq_some_iff] using h

/-- **The steps of the machine.** An event accepts a request, or it changes what is known of the
response of one pending request, or it settles pending requests. -/
theorem reduce_cases (machine : SessionCommandMachineState) (hkeyed : KeyedById machine.pending)
    (event : SessionCommandMachineEvent) :
    (∃ pending, CommandRun.acceptedRequest machine event = some pending ∧
      AcceptsRequest machine (reduceSessionCommandMachine machine event) pending) ∨
    CommandRun.acceptedRequest machine event = none ∧
      (SettlesRequests machine (reduceSessionCommandMachine machine event) ∨
        ∃ request request',
          UpdatesResponse machine (reduceSessionCommandMachine machine event) request request' ∧
            ResponseFrom machine event request request') := by
  cases event with
  | request request =>
    rcases reduceRequest_cases machine request with haccepts | ⟨hnone, hsettles⟩
    · exact .inl haccepts
    · exact .inr ⟨hnone, .inl hsettles⟩
  | sendFailed id token error | timeout id token =>
    refine .inr ⟨rfl, .inl ?_⟩
    simp only [reduceSessionCommandMachine]
    split
    · exact .unchanged rfl rfl
    · rename_i request hrequest
      obtain ⟨hget, rfl⟩ := pendingWithToken_eq_some hrequest
      obtain rfl := hkeyed id request hget
      exact .reject hget _ rfl rfl
  | reject id token error =>
    refine .inr ⟨rfl, .inl ?_⟩
    simp only [reduceSessionCommandMachine]
    split
    · exact .unchanged rfl rfl
    · rename_i request hrequest
      obtain ⟨hget, -⟩ := (Option.filter_eq_some_iff ..).mp hrequest
      obtain rfl := hkeyed id request hget
      exact .reject hget _ rfl rfl
  | rejectForSession =>
    exact .inr ⟨rfl, .inl (.loop (settlesRound_reject _ _) hkeyed)⟩
  | rejectAll error =>
    exact .inr ⟨rfl, .inl (.loop (settlesRound_reject (fun _ => true) error) hkeyed)⟩
  | wireResponse message history =>
    refine .inr ⟨rfl, ?_⟩
    rcases reduceResponse_cases hkeyed message
      (fun id pending => acceptWireResponse machine id pending message history) _
      (fun request hget => acceptWireResponse_cases hget message history) with
      hsettles | ⟨request, request', hupdates, hkept, -, -⟩
    · exact .inl hsettles
    · exact .inr ⟨request, request', hupdates, .inl hkept⟩
  | inlineResponse message =>
    refine .inr ⟨rfl, ?_⟩
    rcases reduceResponse_cases hkeyed message
      (fun id pending => acceptInlineResponse machine id pending message)
      (fun _ request' =>
        request'.response = some message.toSessionCommandMachineResolvedResponse)
      (fun request hget => .inr ⟨_, ⟨hget, rfl, rfl, rfl, rfl⟩, rfl⟩) with
      hsettles | ⟨request, request', hupdates, hresponse, hid, hanswers⟩
    · exact .inl hsettles
    · exact .inr ⟨request, request', hupdates,
        .inr (.inl ⟨message, receivedResponse_eq hupdates.get hid hanswers, hresponse⟩)⟩
  | responseMaterialized id token response =>
    refine .inr ⟨rfl, ?_⟩
    simp only [reduceSessionCommandMachine]
    split
    · exact .inl (.unchanged rfl rfl)
    · rename_i request hrequest
      obtain ⟨hget, rfl⟩ := pendingWithToken_eq_some hrequest
      obtain rfl := hkeyed id request hget
      exact .inr ⟨request, _, ⟨hget, rfl, rfl, rfl, rfl⟩,
        .inr (.inr ⟨response, rfl, hrequest, rfl⟩)⟩
  | projectionAdvanced advance =>
    refine .inr ⟨rfl, .inl ?_⟩
    simp only [reduceSessionCommandMachine]
    split
    · exact .loop (settlesRound_resolve _ _) hkeyed
    · exact .unchanged rfl rfl

/-! ## The invariant -/

namespace CommandRun

/-- What holds between the machine and its history. -/
structure Invariant (run : CommandRun) : Prop where
  keyed : KeyedById run.machine.pending
  /-- A pending request was accepted as it is, but for its response. -/
  accepted : ∀ id request, run.machine.pending.get? id = some request →
    request.asAccepted ∈ run.accepted
  /-- Tokens are given out once. -/
  tokens : (run.accepted.map (·.token)).Nodup
  fresh : ∀ request ∈ run.accepted, request.token < run.machine.nextPendingToken
  /-- A request that is settled is no longer pending, and it is not settled again. -/
  settledOnce : (run.settled.map (·.token)).Nodup
  settledGone : ∀ settlement ∈ run.settled, ∀ id request,
    run.machine.pending.get? id = some request → request.token ≠ settlement.token
  settledAccepted : ∀ settlement ∈ run.settled, ∃ request ∈ run.accepted,
    request.token = settlement.token
  /-- Only a received response is recorded for a request. -/
  received : ∀ id request response, run.machine.pending.get? id = some request →
    request.response = some response →
    ∃ message, (request.token, message) ∈ run.received ∧ response.materializes message = true
  /-- A response is received for the request that it matches. -/
  matched : ∀ entry ∈ run.received, ∃ request ∈ run.accepted, request.token = entry.1 ∧
    responseId entry.2 = some request.id ∧ answersPending request entry.2 = true

namespace Invariant

theorem initial : CommandRun.initial.Invariant where
  keyed := nofun
  accepted := nofun
  tokens := List.nodup_nil
  fresh := nofun
  settledOnce := List.nodup_nil
  settledGone := nofun
  settledAccepted := nofun
  received := nofun
  matched := nofun

variable {run : CommandRun}

theorem receive (h : run.Invariant) (event : SessionCommandMachineEvent) :
    { run with received := run.received ++ (receivedResponse run.machine event).toList }.Invariant
    where
  keyed := h.keyed
  accepted := h.accepted
  tokens := h.tokens
  fresh := h.fresh
  settledOnce := h.settledOnce
  settledGone := h.settledGone
  settledAccepted := h.settledAccepted
  received id request response hget hresponse := by
    obtain ⟨message, hmem, hmaterializes⟩ := h.received id request response hget hresponse
    exact ⟨message, List.mem_append_left _ hmem, hmaterializes⟩
  matched entry hentry := by
    rcases List.mem_append.mp hentry with hbefore | hnow
    · exact h.matched entry hbefore
    have hresponse : ∀ message : SessionResponseFrame,
        (((responseId message).bind run.machine.pending.get?).filter (answersPending · message)).map
          (fun pending => (pending.token, message)) = some entry →
        ∃ request ∈ run.accepted, request.token = entry.1 ∧
          responseId entry.2 = some request.id ∧ answersPending request entry.2 = true := by
      intro message hmessage
      obtain ⟨request, hrequest, rfl⟩ := Option.map_eq_some_iff.mp hmessage
      obtain ⟨hfound, hanswers⟩ := (Option.filter_eq_some_iff ..).mp hrequest
      obtain ⟨id, hid, hget⟩ := Option.bind_eq_some_iff.mp hfound
      refine ⟨request.asAccepted, h.accepted id request hget, rfl, ?_, hanswers⟩
      rw [hid]
      exact congrArg some (h.keyed id request hget).symm
    rw [Option.mem_toList] at hnow
    cases event with
    | wireResponse message | inlineResponse message => exact hresponse message hnow
    | _ => cases hnow

variable {transition : SessionCommandMachineTransition}

theorem accept (h : run.Invariant) {request : SessionCommandMachinePending}
    (haccepts : AcceptsRequest run.machine transition request) :
    { run with machine := transition.state, accepted := run.accepted ++ [request] }.Invariant where
  keyed id other hget := by
    rw [haccepts.pending, InsertionMap.get?_insert] at hget
    split at hget
    · rename_i hid
      obtain rfl := Option.some.inj hget
      exact hid.symm
    · exact h.keyed id other hget
  accepted id other hget := by
    rw [haccepts.pending, InsertionMap.get?_insert] at hget
    split at hget
    · obtain rfl := Option.some.inj hget
      rw [haccepts.fresh.2]
      exact List.mem_append_right _ (List.mem_singleton_self _)
    · exact List.mem_append_left _ (h.accepted id other hget)
  tokens := by
    rw [List.map_append, List.nodup_append]
    refine ⟨h.tokens, List.nodup_singleton _, ?_⟩
    rintro _ htoken _ hnew
    obtain ⟨other, hother, rfl⟩ := List.mem_map.mp htoken
    obtain rfl := List.mem_singleton.mp hnew
    dsimp only
    rw [haccepts.token]
    exact Nat.ne_of_lt (h.fresh other hother)
  fresh other hother := by
    dsimp only
    rw [haccepts.next]
    rcases List.mem_append.mp hother with hbefore | hnew
    · exact Nat.lt_succ_of_lt (h.fresh other hbefore)
    · obtain rfl := List.mem_singleton.mp hnew
      rw [haccepts.token]
      exact Nat.lt_succ_self _
  settledOnce := h.settledOnce
  settledGone settlement hsettlement id other hget := by
    rw [haccepts.pending, InsertionMap.get?_insert] at hget
    split at hget
    · obtain rfl := Option.some.inj hget
      obtain ⟨settled, hsettled, htoken⟩ := h.settledAccepted settlement hsettlement
      rw [haccepts.token, ← htoken]
      exact Ne.symm (Nat.ne_of_lt (h.fresh settled hsettled))
    · exact h.settledGone settlement hsettlement id other hget
  settledAccepted settlement hsettlement := by
    obtain ⟨other, hother, htoken⟩ := h.settledAccepted settlement hsettlement
    exact ⟨other, List.mem_append_left _ hother, htoken⟩
  received id other response hget hresponse := by
    rw [haccepts.pending, InsertionMap.get?_insert] at hget
    split at hget
    · obtain rfl := Option.some.inj hget
      rw [haccepts.fresh.1] at hresponse
      cases hresponse
    · exact h.received id other response hget hresponse
  matched entry hentry := by
    obtain ⟨other, hother, hmatches⟩ := h.matched entry hentry
    exact ⟨other, List.mem_append_left _ hother, hmatches⟩

theorem update (h : run.Invariant) {request request' : SessionCommandMachinePending}
    (hupdates : UpdatesResponse run.machine transition request request')
    (hresponse : ∀ response, request'.response = some response →
      ∃ message, (request.token, message) ∈ run.received ∧ response.materializes message = true) :
    { run with machine := transition.state }.Invariant :=
  have hid : request'.id = request.id := congrArg (·.id) hupdates.kept
  have htoken : request'.token = request.token := congrArg (·.token) hupdates.kept
  { keyed := by
      intro id other hget
      rw [hupdates.pending, InsertionMap.get?_insert] at hget
      split at hget
      · rename_i hsame
        obtain rfl := Option.some.inj hget
        rw [hid, hsame]
      · exact h.keyed id other hget
    accepted := by
      intro id other hget
      rw [hupdates.pending, InsertionMap.get?_insert] at hget
      split at hget
      · obtain rfl := Option.some.inj hget
        rw [hupdates.kept]
        exact h.accepted _ _ hupdates.get
      · exact h.accepted id other hget
    tokens := h.tokens
    fresh := by
      intro other hother
      dsimp only
      rw [hupdates.next]
      exact h.fresh other hother
    settledOnce := h.settledOnce
    settledGone := by
      intro settlement hsettlement id other hget
      rw [hupdates.pending, InsertionMap.get?_insert] at hget
      split at hget
      · obtain rfl := Option.some.inj hget
        rw [htoken]
        exact h.settledGone settlement hsettlement _ _ hupdates.get
      · exact h.settledGone settlement hsettlement id other hget
    settledAccepted := h.settledAccepted
    received := by
      intro id other response hget hother
      rw [hupdates.pending, InsertionMap.get?_insert] at hget
      split at hget
      · obtain rfl := Option.some.inj hget
        rw [htoken]
        exact hresponse response hother
      · exact h.received id other response hget hother
    matched := h.matched }

theorem settleOne (h : run.Invariant) {request : SessionCommandMachinePending}
    (hget : run.machine.pending.get? request.id = some request) (resolved : Bool) :
    CommandRun.Invariant
      { run with
        machine := { run.machine with pending := run.machine.pending.erase request.id }
        settled := run.settled ++ [{ token := request.token, resolved := resolved }] } :=
  have hleft : ∀ id other, (run.machine.pending.erase request.id).get? id = some other →
      id ≠ request.id ∧ run.machine.pending.get? id = some other := by
    intro id other hother
    rw [InsertionMap.get?_erase] at hother
    split at hother
    · cases hother
    · rename_i hne
      exact ⟨hne, hother⟩
  { keyed := fun id other hother => h.keyed id other (hleft id other hother).2
    accepted := fun id other hother => h.accepted id other (hleft id other hother).2
    tokens := h.tokens
    fresh := h.fresh
    settledOnce := by
      rw [List.map_append, List.nodup_append]
      refine ⟨h.settledOnce, List.nodup_singleton _, ?_⟩
      rintro _ hbefore _ hnow
      obtain ⟨settlement, hsettlement, rfl⟩ := List.mem_map.mp hbefore
      obtain rfl := List.mem_singleton.mp hnow
      exact Ne.symm (h.settledGone settlement hsettlement _ _ hget)
    settledGone := by
      intro settlement hsettlement id other hother
      obtain ⟨hne, hbefore⟩ := hleft id other hother
      rcases List.mem_append.mp hsettlement with hearlier | hnow
      · exact h.settledGone settlement hearlier id other hbefore
      · obtain rfl := List.mem_singleton.mp hnow
        -- Two pending requests with one token would be one accepted request.
        intro htoken
        have hsame := List.inj_on_of_nodup_map h.tokens (h.accepted id other hbefore)
          (h.accepted request.id request hget) htoken
        refine hne ?_
        rw [← h.keyed id other hbefore]
        exact congrArg (·.id) hsame
    settledAccepted := by
      intro settlement hsettlement
      rcases List.mem_append.mp hsettlement with hearlier | hnow
      · exact h.settledAccepted settlement hearlier
      · obtain rfl := List.mem_singleton.mp hnow
        exact ⟨request.asAccepted, h.accepted request.id request hget, rfl⟩
    received := fun id other response hother =>
      h.received id other response (hleft id other hother).2
    matched := h.matched }

theorem renumber (h : run.Invariant) {machine : SessionCommandMachineState}
    (hpending : machine.pending = run.machine.pending)
    (hnext : machine.nextPendingToken = run.machine.nextPendingToken) :
    { run with machine }.Invariant where
  keyed := by rw [hpending]; exact h.keyed
  accepted := by rw [hpending]; exact h.accepted
  tokens := h.tokens
  fresh := by rw [hnext]; exact h.fresh
  settledOnce := h.settledOnce
  settledGone := by rw [hpending]; exact h.settledGone
  settledAccepted := h.settledAccepted
  received := by rw [hpending]; exact h.received
  matched := h.matched

theorem settle (h : run.Invariant) (hsettles : SettlesRequests run.machine transition) :
    { run with
      machine := transition.state
      settled := run.settled ++ commandSettlements transition.intents }.Invariant := by
  have hone : ∀ (settled : List CommandSettlement)
      (pending : InsertionMap JsString SessionCommandMachinePending),
      SettlesTo run.machine.pending settled pending →
      CommandRun.Invariant
        { run with
          machine := { run.machine with pending := pending }
          settled := run.settled ++ settled } := by
    intro settled pending hto
    induction hto with
    | refl => simpa using h
    | settle hto hget resolved ih =>
      have hnext := ih.settleOne hget resolved
      rw [List.append_assoc] at hnext
      exact hnext
  exact (hone _ _ hsettles.settles).renumber rfl hsettles.next

theorem step (h : run.Invariant) {event : SessionCommandMachineEvent}
    (hmaterializes : run.materializesReceived event = true) : (run.step event).Invariant := by
  have hreceived := h.receive event
  unfold CommandRun.step
  dsimp only
  rcases reduce_cases run.machine h.keyed event with
    ⟨request, haccepted, haccepts⟩ | ⟨hnone, hsettles | ⟨request, request', hupdates, hfrom⟩⟩
  · rw [haccepted, haccepts.settlements, List.append_nil]
    exact hreceived.accept haccepts
  · rw [hnone]
    simp only [Option.toList_none, List.append_nil]
    exact hreceived.settle hsettles
  · rw [hnone, hupdates.settlements]
    simp only [Option.toList_none, List.append_nil]
    refine hreceived.update hupdates fun response hresponse => ?_
    rcases hfrom with hkept | ⟨message, hmessage, hnew⟩ | ⟨materialized, rfl, htoken, hnew⟩
    · rw [hkept] at hresponse
      exact hreceived.received _ request response hupdates.get hresponse
    · rw [hnew] at hresponse
      obtain rfl := Option.some.inj hresponse
      refine ⟨message, List.mem_append_right _ ?_, ?_⟩
      · rw [hmessage]
        exact List.mem_singleton_self _
      · simp [SessionCommandMachineResolvedResponse.materializes]
    · rw [hnew] at hresponse
      obtain rfl := Option.some.inj hresponse
      simp only [materializesReceived, htoken, Option.isNone_some, Bool.false_or,
        List.any_eq_true, Bool.and_eq_true, decide_eq_true_eq] at hmaterializes
      obtain ⟨entry, hentry, hsame, hmatches⟩ := hmaterializes
      rw [← hsame]
      exact ⟨entry.2, List.mem_append_left _ hentry, hmatches⟩

end Invariant

/-! ## What a step emits -/

/-- A request resolves only for a response that was received for it, that matches its id, its
command and its target, and whose barrier the projection has reached over an authoritative
baseline. -/
def ResolvesAnswered (run : CommandRun) (event : SessionCommandMachineEvent) : Prop :=
  ∀ id token completion,
    .resolve id token completion ∈ (reduceSessionCommandMachine run.machine event).intents →
    ∃ request ∈ run.accepted, request.id = id ∧ request.token = token ∧
      ∃ message, (token, message) ∈ run.received ∧ responseId message = some id ∧
        answersPending request message = true ∧
        completion.toSessionCommandMachineResolvedResponse.materializes message = true ∧
        ∃ advance identity, event = .projectionAdvanced advance ∧
          advance.baselineAuthoritative = true ∧ advance.currentIdentity = some identity ∧
          identity.serverEpoch = message.serverEpoch ∧
          identity.sessionHandle = message.sessionHandle ∧
          identity.generation = message.generation ∧ message.barrierSeq ≤ advance.projectedSeq

/-- An event names a token that no request pending under its id has. -/
def oldToken (run : CommandRun) : SessionCommandMachineEvent → Bool
  | .sendFailed id token _ | .timeout id token | .responseMaterialized id token _
  | .reject id (some token) _ => (pendingWithToken run.machine id token).isNone
  | _ => false

/-- An event with an old token changes nothing. -/
def IgnoresOldToken (run : CommandRun) (event : SessionCommandMachineEvent) : Prop :=
  run.oldToken event = true →
    (reduceSessionCommandMachine run.machine event).state = run.machine ∧
      (reduceSessionCommandMachine run.machine event).intents = []

/-- A command that is sent and changes the Session carries the token of the controller, over a fresh
baseline. -/
def SendsControlled (run : CommandRun) (event : SessionCommandMachineEvent) : Prop :=
  ∀ message id token,
    .send message id token ∈ (reduceSessionCommandMachine run.machine event).intents →
    ∃ request, event = .request request ∧ message.command.type = request.command.type ∧
      (isMutation message.command = true →
        request.isController = true ∧ request.baselineAuthoritative = true ∧
          commandIdentityMatches request.currentIdentity request.freshLeaseBaseline = true ∧
          ∃ fencingToken, request.fencingToken = some fencingToken ∧
            message.fencingToken = some fencingToken)

end CommandRun

/-- An intent that neither resolves nor sends. -/
def SessionCommandMachineIntent.isQuiet : SessionCommandMachineIntent → Bool
  | .resolve .. | .send .. => false
  | _ => true

variable {intent : SessionCommandMachineIntent}

theorem isQuiet_rejectIntents {pending : SessionCommandMachinePending}
    {error : SessionCommandMachineError}
    (h : intent ∈ rejectIntents pending error) : intent.isQuiet = true := by
  unfold rejectIntents at h
  split at h <;> simp only [List.mem_append, List.mem_cons, List.not_mem_nil, or_false,
    false_or] at h
  · rcases h with rfl | rfl | rfl <;> rfl
  · rcases h with rfl | rfl <;> rfl

theorem isQuiet_rejectLoop
    (hkeyed : KeyedById machine.pending) (selects : SessionCommandMachinePending → Bool)
    (error : SessionCommandMachineError)
    (h : intent ∈ (settleLoop (rejectRound selects error) machine).intents) :
    intent.isQuiet = true := by
  obtain ⟨state, request, result, -, -, hresult, hintent⟩ :=
    (settleLoop_spec (settlesRound_reject selects error) machine hkeyed).2.2 intent h
  unfold rejectRound at hresult
  split at hresult
  · obtain rfl := Option.some.inj hresult
    exact isQuiet_rejectIntents hintent
  · cases hresult

theorem isQuiet_response {message : SessionResponseFrame}
    {accept : JsString → SessionCommandMachinePending → SessionCommandMachineTransition}
    (haccept : ∀ id pending, ∀ intent ∈ (accept id pending).intents, intent.isQuiet = true)
    (h : intent ∈ (reduceResponse machine message accept).intents) : intent.isQuiet = true := by
  unfold reduceResponse at h
  split at h
  · cases h
  · split at h
    · cases h
    · split at h
      · exact haccept _ _ intent h
      · exact isQuiet_rejectIntents h

theorem isQuiet_reduce (hkeyed : KeyedById machine.pending)
    {event : SessionCommandMachineEvent} (hrequest : ∀ request, event ≠ .request request)
    (hadvance : ∀ advance, event ≠ .projectionAdvanced advance)
    (h : intent ∈ (reduceSessionCommandMachine machine event).intents) :
    intent.isQuiet = true := by
  cases event with
  | request request => exact absurd rfl (hrequest request)
  | projectionAdvanced advance => exact absurd rfl (hadvance advance)
  | sendFailed | timeout | reject =>
    simp only [reduceSessionCommandMachine] at h
    split at h
    · cases h
    · exact isQuiet_rejectIntents h
  | rejectForSession => exact isQuiet_rejectLoop hkeyed _ _ h
  | rejectAll error => exact isQuiet_rejectLoop hkeyed (fun _ => true) error h
  | wireResponse message history =>
    refine isQuiet_response (fun id pending intent hintent => ?_) h
    unfold acceptWireResponse at hintent
    split at hintent
    · split at hintent
      · split at hintent
        · cases hintent
        · exact isQuiet_rejectIntents hintent
      · obtain rfl := List.mem_singleton.mp hintent
        rfl
    · obtain rfl := List.mem_singleton.mp hintent
      rfl
  | inlineResponse message =>
    refine isQuiet_response (fun id pending intent hintent => ?_) h
    obtain rfl := List.mem_singleton.mp hintent
    rfl
  | responseMaterialized =>
    simp only [reduceSessionCommandMachine] at h
    split at h <;> cases h

namespace CommandRun

theorem Invariant.resolvesAnswered {run : CommandRun} (h : run.Invariant)
    (event : SessionCommandMachineEvent) : run.ResolvesAnswered event := by
  intro id token completion hintent
  cases event with
  | projectionAdvanced advance =>
    simp only [reduceSessionCommandMachine] at hintent
    split at hintent
    · rename_i identity hbaseline hidentity
      obtain ⟨state, request, result, hget, hget', hresult, hresolve⟩ :=
        (settleLoop_spec (settlesRound_resolve identity advance.projectedSeq) run.machine
          h.keyed).2.2 _ hintent
      unfold resolveRound at hresult
      rw [hget'] at hresult
      dsimp only at hresult
      split at hresult
      · rename_i hreached
        obtain rfl := Option.some.inj hresult
        obtain ⟨response, hresponse, hepoch, hhandle, hgeneration, hbarrier⟩ :=
          response_of_reachedBy hreached
        rw [settleResolve, hresponse] at hresolve
        simp only [resolveIntents, List.mem_cons, List.not_mem_nil, or_false, reduceCtorEq,
          false_or, SessionCommandMachineIntent.resolve.injEq] at hresolve
        obtain ⟨rfl, rfl, rfl⟩ := hresolve
        obtain ⟨message, hmessage, hmaterializes⟩ := h.received _ request response hget hresponse
        obtain ⟨accepted, haccepted, htoken, hid, hanswers⟩ := h.matched _ hmessage
        have hsame := List.inj_on_of_nodup_map h.tokens haccepted
          (h.accepted _ request hget) htoken
        have hacceptedId : accepted.id = request.id := congrArg (·.id) hsame
        refine ⟨accepted, haccepted, hacceptedId, htoken, message, hmessage, ?_, hanswers,
          hmaterializes, advance, identity, rfl, hbaseline, hidentity, ?_⟩
        · rw [hid, hacceptedId]
        · simp only [SessionCommandMachineResolvedResponse.materializes, Bool.and_eq_true,
            decide_eq_true_eq] at hmaterializes
          obtain ⟨⟨⟨⟨⟨⟨he, hh⟩, hg⟩, hb⟩, -⟩, -⟩, -⟩ := hmaterializes
          exact ⟨hepoch ▸ he, hhandle ▸ hh, hgeneration ▸ hg, hb ▸ hbarrier⟩
      · cases hresult
    · cases hintent
  | request request =>
    simp only [reduceSessionCommandMachine, reduceRequest] at hintent
    split at hintent
    · cases hintent
    · cases hintent
    · split at hintent
      · cases hintent
      · simp at hintent
  | _ =>
    have hquiet := isQuiet_reduce h.keyed (by rintro _ ⟨⟩) (by rintro _ ⟨⟩) hintent
    cases hquiet

theorem ignoresOldToken (run : CommandRun) (event : SessionCommandMachineEvent) :
    run.IgnoresOldToken event := by
  intro hold
  cases event with
  | sendFailed | timeout | responseMaterialized =>
    have hnone := Option.isNone_iff_eq_none.mp hold
    simp only [reduceSessionCommandMachine, hnone, and_self]
  | reject id token error =>
    cases token with
    | none => cases hold
    | some token =>
      have hnone := Option.isNone_iff_eq_none.mp hold
      have hfilter : (run.machine.pending.get? id).filter
          (fun pending => (some token).all (· = pending.token)) = none := by
        rw [← hnone, pendingWithToken]
        congr 1
        funext pending
        simp [eq_comm]
      simp only [reduceSessionCommandMachine, hfilter, and_self]
  | _ => cases hold

theorem Invariant.sendsControlled {run : CommandRun} (h : run.Invariant)
    (event : SessionCommandMachineEvent) : run.SendsControlled event := by
  intro message id token hintent
  cases event with
  | request request =>
    refine ⟨request, rfl, ?_⟩
    simp only [reduceSessionCommandMachine, reduceRequest] at hintent
    split at hintent
    · cases hintent
    · cases hintent
    · rename_i generation hgate hgeneration
      split at hintent
      · cases hintent
      · simp only [List.mem_cons, List.not_mem_nil, or_false, reduceCtorEq, false_or,
          SessionCommandMachineIntent.send.injEq] at hintent
        obtain ⟨rfl, rfl, rfl⟩ := hintent
        refine ⟨rfl, fun hmutation => ?_⟩
        have hcommand : isMutation request.command = true := hmutation
        simp only [requestGate, hcommand, Bool.true_and] at hgate
        split at hgate
        · cases hgate
        split at hgate
        · cases hgate
        split at hgate
        · cases hgate
        split at hgate
        · cases hgate
        rename_i hbaseline
        split at hgate
        · cases hgate
        rename_i hcontrol
        split at hgate
        · cases hgate
        rename_i hfresh
        simp only [Bool.or_eq_true, Bool.not_eq_true', not_or, Bool.not_eq_false,
          Option.isNone_iff_eq_none] at hbaseline hcontrol hfresh
        obtain ⟨fencingToken, hfencing⟩ := Option.ne_none_iff_exists'.mp hcontrol.2
        refine ⟨hcontrol.1, hbaseline, hfresh, fencingToken, hfencing, ?_⟩
        dsimp only
        rw [hcommand, if_pos rfl, hfencing]
  | projectionAdvanced advance =>
    simp only [reduceSessionCommandMachine] at hintent
    split at hintent
    · obtain ⟨state, request, result, hget, hget', hresult, hsend⟩ :=
        (settleLoop_spec (settlesRound_resolve _ advance.projectedSeq) run.machine
          h.keyed).2.2 _ hintent
      unfold resolveRound at hresult
      rw [hget'] at hresult
      dsimp only at hresult
      split at hresult
      · obtain rfl := Option.some.inj hresult
        unfold settleResolve at hsend
        split at hsend
        · cases hsend
        · simp [resolveIntents] at hsend
      · cases hresult
    · cases hintent
  | _ =>
    have hquiet := isQuiet_reduce h.keyed (by rintro _ ⟨⟩) (by rintro _ ⟨⟩) hintent
    cases hquiet

end CommandRun

/-- **Commands settle once.** In every run in which only received responses are materialized, a
token is settled at most once and is then absent from the pending requests; a request resolves only
for a response that matches its id, its command and its target (for `fork` and `clone`: the handle
that the response names as the previous one), when the projection has reached its barrier over an
authoritative baseline; events with an old token change nothing; and a command that changes the
Session is sent only with the token of the controller over a fresh baseline. -/
theorem command_settlement (events : List SessionCommandMachineEvent)
    (hrun : RunMeets CommandRun.step (fun run event => run.materializesReceived event = true)
      .initial events) :
    let run := runFrom CommandRun.step .initial events
    (run.settled.map (·.token)).Nodup ∧
      (∀ settlement ∈ run.settled,
        (∃ request ∈ run.accepted, request.token = settlement.token) ∧
        ∀ id request, run.machine.pending.get? id = some request →
          request.token ≠ settlement.token) ∧
      RunMeets CommandRun.step
        (fun run event => run.ResolvesAnswered event ∧ run.IgnoresOldToken event ∧
          run.SendsControlled event) .initial events := by
  have hstep : ∀ (run : CommandRun) (event : SessionCommandMachineEvent),
      run.materializesReceived event = true → run.Invariant → (run.step event).Invariant :=
    fun _ _ hmeets h => h.step hmeets
  have hlast := hrun.invariant hstep .initial
  exact ⟨hlast.settledOnce,
    fun settlement hsettlement =>
      ⟨hlast.settledAccepted settlement hsettlement, hlast.settledGone settlement hsettlement⟩,
    hrun.mono hstep (fun run event h _ =>
      ⟨h.resolvesAnswered event, run.ignoresOldToken event, h.sendsControlled event⟩) .initial⟩

/-- The runtime of the evaluated runs. -/
def sampleCommandIdentity (handle : String) (generation : ℕ) : SessionRuntimeIdentity where
  serverEpoch := js "e"
  sessionHandle := js handle
  workspaceId := js "w"
  generation := generation

/-- A request of the controller of a Session. -/
def sampleCommandRequest (type : String) : SessionCommandMachineEvent :=
  .request
    { sessionHandle := js "s", command := { type := js type, id := some (js "c"), members := [] }
      timeoutMs := 10, now := 0, subscribed := true, online := true, socketReady := true
      generation := some 1, currentIdentity := some (sampleCommandIdentity "s" 1)
      baselineAuthoritative := true, freshLeaseBaseline := some (sampleCommandIdentity "s" 1)
      isController := true, fencingToken := some 7 }

/-- A response of the runtime that a fork leads to. -/
def forkResponse : SessionResponseFrame where
  serverEpoch := js "e"
  sessionHandle := js "t"
  generation := 2
  barrierSeq := 4
  response := { id := some (js "c"), command := js "fork", members := [] }
  previousSessionHandle := some (js "s")
  text := js "fork response"

/-- The projection of a runtime has reached a sequence number. -/
def sampleAdvance (identity : SessionRuntimeIdentity) (projectedSeq : ℕ) :
    SessionCommandMachineEvent :=
  .projectionAdvanced
    { sessionHandle := identity.sessionHandle, currentIdentity := some identity
      baselineAuthoritative := true, projectedSeq := projectedSeq }

/-- A fork that is answered, materialized, reached by the projection, and times out too late. -/
def forkEvents : List SessionCommandMachineEvent :=
  [sampleCommandRequest "fork", .wireResponse forkResponse false,
    .responseMaterialized (js "c") 1 forkResponse.toSessionCommandMachineResolvedResponse,
    sampleAdvance (sampleCommandIdentity "t" 2) 3, sampleAdvance (sampleCommandIdentity "t" 2) 4,
    .timeout (js "c") 1]

/-- The fork settles once. -/
theorem command_settlement_fork :
    let run := runFrom CommandRun.step .initial forkEvents
    (run.settled.map (·.token)).Nodup ∧
      (∀ settlement ∈ run.settled,
        (∃ request ∈ run.accepted, request.token = settlement.token) ∧
        ∀ id request, run.machine.pending.get? id = some request →
          request.token ≠ settlement.token) ∧
      RunMeets CommandRun.step
        (fun run event => run.ResolvesAnswered event ∧ run.IgnoresOldToken event ∧
          run.SendsControlled event) .initial forkEvents :=
  command_settlement forkEvents (by decide +kernel)

/-- The machine resolves the fork for a response of another Session and another generation; and it
resolves a request for a response that it is told to be materialized, though no response came. -/
theorem not_command_settlement_target :
    ((runFrom CommandRun.step .initial (forkEvents.take 5)).settled.map
        (fun settlement => (settlement.token, settlement.resolved)) = [(1, true)] ∧
      (runFrom CommandRun.step .initial (forkEvents.take 5)).accepted.map
        (fun request => (request.sessionHandle, request.generation)) = [(js "s", 1)] ∧
      (runFrom CommandRun.step .initial (forkEvents.take 5)).received.map
        (fun entry => (entry.2.sessionHandle, entry.2.generation)) = [(js "t", 2)]) ∧
    (runFrom CommandRun.step .initial
        [sampleCommandRequest "get_state",
          .responseMaterialized (js "c") 1 forkResponse.toSessionCommandMachineResolvedResponse,
          sampleAdvance (sampleCommandIdentity "t" 2) 4]).settled.map
        (fun settlement => (settlement.token, settlement.resolved)) = [(1, true)] ∧
      (runFrom CommandRun.step .initial
        [sampleCommandRequest "get_state",
          .responseMaterialized (js "c") 1 forkResponse.toSessionCommandMachineResolvedResponse,
          sampleAdvance (sampleCommandIdentity "t" 2) 4]).received.length = 0 := by
  decide +kernel

end PiAgentWeb
