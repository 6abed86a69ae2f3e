import PiAgentWeb.UI.ConnectionTransport

/-!
# Runs of the connection

Every interleaving of calls and callbacks. What is pending in a state is determined by the phase, so
an attempt never stalls and no late callback acts on a newer one. What the connection does is a
conversation: one socket at a time, numbered upwards, on each of them the hello before the
inventory and the inventory before any other message, and delays that double with each failure.
-/

namespace PiAgentWeb

/-- How far the conversation on a socket got. -/
inductive ConversationStage where
  | idle | opened | greeting
  | greeted (serverEpoch : JsString)
  | online (serverEpoch : JsString)
  deriving DecidableEq

/-- A conversation with the server over one socket after another. -/
structure Conversation where
  stage : ConversationStage := .idle
  /-- The number of the last socket, and that of the last attempt that was given up. -/
  socketEpoch : ℕ := 0
  scheduled : ℕ := 0
  /-- The attempts that failed since the connection was last online. -/
  failures : ℕ := 0

namespace Conversation

/-- What may be said next, and where it leads. -/
def next (options : SessionTransportOptions) (c : Conversation) :
    ConnectionRecord → Option Conversation
  | .opened socketEpoch =>
    if c.stage = .idle ∧ c.socketEpoch < socketEpoch ∧ c.scheduled < socketEpoch then
      some { c with stage := .opened, socketEpoch }
    else none
  | .clientHello socketEpoch =>
    if c.stage = .opened ∧ c.socketEpoch = socketEpoch then some { c with stage := .greeting }
    else none
  | .serverHello socketEpoch serverEpoch =>
    if (c.stage = .opened ∨ c.stage = .greeting) ∧ c.socketEpoch = socketEpoch then
      some { c with stage := .greeted serverEpoch }
    else none
  | .inventory socketEpoch serverEpoch =>
    if c.stage = .greeted serverEpoch ∧ c.socketEpoch = socketEpoch then
      some { c with stage := .online serverEpoch, failures := 0 }
    else none
  | .handled socketEpoch =>
    match c.stage with
    | .online _ => if c.socketEpoch = socketEpoch then some c else none
    | _ => none
  | .dropped socketEpoch =>
    if c.stage ≠ .idle ∧ c.socketEpoch = socketEpoch then some { c with stage := .idle } else none
  | .scheduled socketEpoch delayMs =>
    if c.stage = .idle ∧ c.socketEpoch ≤ socketEpoch ∧ c.scheduled < socketEpoch ∧
        delayMs = reconnectDelay options.toSessionConnectionMachineOptions c.failures then
      some { c with scheduled := socketEpoch, failures := c.failures + 1 }
    else none

/-- The conversation that a log records, if it is one. -/
def follow (options : SessionTransportOptions) (log : List ConnectionRecord) :
    Option Conversation :=
  log.foldlM (next options) {}

theorem follow_concat {options : SessionTransportOptions} {log : List ConnectionRecord}
    {c : Conversation} (h : follow options log = some c) (r : ConnectionRecord) :
    follow options (log ++ [r]) = c.next options r := by
  simp only [follow] at h
  simp only [follow, List.foldlM_append, h]
  exact bind_pure (m := Option) _

end Conversation

namespace SessionTransportConnection

variable {options : SessionTransportOptions} {s : SessionTransportConnection}

/-- What is pending: in each phase exactly what leads out of it. A hello timer of an earlier attempt
may still run until the next socket is open. -/
def Pending (s : SessionTransportConnection) : Prop :=
  match s.machine.phase with
  | .closed | .terminal =>
    s.socket = none ∧ s.reauthentication = none ∧ s.reconnectTimer = none ∧ s.helloTimer = none
  | .backoff =>
    s.socket = none ∧ s.reauthentication = none ∧
      s.reconnectTimer = some s.machine.socketEpoch ∧
      ∀ e ∈ s.helloTimer, e = s.machine.socketEpoch
  | .connecting =>
    ((∃ socket, s.socket = some socket ∧ socket.socketEpoch = s.machine.socketEpoch ∧
          s.reauthentication = none) ∨
        s.socket = none ∧ ∃ call, s.reauthentication = some (call, s.machine.socketEpoch)) ∧
      s.reconnectTimer = none ∧ ∀ e ∈ s.helloTimer, e < s.machine.socketEpoch
  | .awaitingHello =>
    (∃ socket, s.socket = some socket ∧ socket.socketEpoch = s.machine.socketEpoch) ∧
      s.reauthentication = none ∧ s.reconnectTimer = none ∧
      s.helloTimer = some s.machine.socketEpoch
  | .ready =>
    (∃ socket, s.socket = some socket ∧ socket.socketEpoch = s.machine.socketEpoch) ∧
      s.reauthentication = none ∧ s.reconnectTimer = none ∧ s.helloTimer = none

/-- What the machine shows in a phase. -/
def Shown (s : SessionTransportConnection) : Prop :=
  s.connectionState = s.machine.observableState ∧
    s.content = s.machine.serverEpoch ∧
    match s.machine.phase with
    | .closed =>
      s.machine.reconnectEnabled = false ∧ s.machine.serverEpoch = none ∧
        (s.connectionState = .idle ∨ s.connectionState = .offline)
    | .terminal =>
      s.machine.reconnectEnabled = false ∧ s.machine.serverEpoch = none ∧
        s.connectionState = .incompatible
    | .backoff =>
      s.machine.reconnectEnabled = true ∧ s.machine.serverEpoch = none ∧
        s.connectionState = .offline
    | .connecting =>
      s.machine.reconnectEnabled = true ∧ s.machine.serverEpoch = none ∧
        s.connectionState = .connecting
    | .awaitingHello =>
      s.machine.reconnectEnabled = true ∧ s.connectionState = .connecting
    | .ready =>
      s.machine.reconnectEnabled = true ∧ s.machine.serverEpoch.isSome = true ∧
        s.connectionState = .online

/-- The stage that a socket in use is in. -/
def AtStage (s : SessionTransportConnection) : ConversationStage → Prop
  | .idle => False
  | .opened => s.machine.phase = .connecting ∨
    s.machine.phase = .awaitingHello ∧ s.machine.serverEpoch = none
  | .greeting => s.machine.phase = .awaitingHello ∧ s.machine.serverEpoch = none
  | .greeted serverEpoch =>
    s.machine.phase = .awaitingHello ∧ s.machine.serverEpoch = some serverEpoch
  | .online serverEpoch => s.machine.phase = .ready ∧ s.machine.serverEpoch = some serverEpoch

/-- The log records a conversation, and the state is where it leads. -/
structure Follows (options : SessionTransportOptions) (s : SessionTransportConnection)
    (c : Conversation) : Prop where
  log : Conversation.follow options s.log = some c
  failures : c.failures = s.machine.reconnectAttempt
  idle : s.socket = none → c.stage = .idle
  inUse : ∀ socket ∈ s.socket, c.socketEpoch = s.machine.socketEpoch ∧ s.AtStage c.stage
  socketEpoch : c.socketEpoch ≤ s.machine.socketEpoch
  scheduled : c.scheduled ≤ s.machine.socketEpoch
  unopened : s.machine.phase = .connecting → s.socket = none →
    c.socketEpoch < s.machine.socketEpoch
  unscheduled : s.machine.phase = .connecting ∨ s.machine.phase = .awaitingHello ∨
    s.machine.phase = .ready → c.scheduled < s.machine.socketEpoch

/-- What every call and callback keeps. -/
structure Sound (options : SessionTransportOptions) (s : SessionTransportConnection) : Prop where
  pending : s.Pending
  shown : s.Shown
  closed : s.disposed = true → s.machine.phase = .closed
  follows : ∃ c, s.Follows options c

/-- An attempt that has neither a socket nor an authentication yet. -/
structure Unopened (options : SessionTransportOptions) (s : SessionTransportConnection) : Prop where
  phase : s.machine.phase = .connecting
  enabled : s.machine.reconnectEnabled = true
  observable : s.machine.observableState = .connecting
  connectionState : s.connectionState = .connecting
  serverEpoch : s.machine.serverEpoch = none
  content : s.content = none
  socket : s.socket = none
  reauthentication : s.reauthentication = none
  reconnectTimer : s.reconnectTimer = none
  helloTimer : ∀ e ∈ s.helloTimer, e < s.machine.socketEpoch
  disposed : s.disposed = false
  follows : ∃ c, s.Follows options c

/-! ### Where a transition leads -/

/-- What the log says of the socket in use when it is dropped. -/
def drops (s : SessionTransportConnection) : List ConnectionRecord :=
  s.socket.toList.map fun socket => .dropped socket.socketEpoch

/-- The attempt has failed, and the next one is scheduled. -/
def waiting (options : SessionTransportOptions) (s : SessionTransportConnection) :
    SessionTransportConnection :=
  { s with
    machine :=
      { s.machine with
        phase := .backoff
        observableState := .offline
        serverEpoch := none
        reconnectAttempt := s.machine.reconnectAttempt + 1 }
    connectionState := .offline
    socket := none
    helloTimer := none
    reconnectTimer := some s.machine.socketEpoch
    reauthentication := none
    content := none
    log := s.log ++ s.drops ++
      [.scheduled s.machine.socketEpoch (reconnectDelay options.toSessionConnectionMachineOptions
        s.machine.reconnectAttempt)] }

/-- The next attempt has begun. -/
def attempting (s : SessionTransportConnection) : SessionTransportConnection :=
  { s with
    machine :=
      { s.machine with
        phase := .connecting
        observableState := .connecting
        socketEpoch := s.machine.socketEpoch + 1
        serverEpoch := none
        reconnectEnabled := true }
    connectionState := .connecting
    reconnectTimer := none }

/-- The connection is given up. -/
def ended (s : SessionTransportConnection) (phase : SessionConnectionPhase)
    (shown : SessionConnectionObservableState) : SessionTransportConnection :=
  { s with
    machine :=
      { s.machine with
        phase, observableState := shown, serverEpoch := none, reconnectEnabled := false }
    connectionState := shown
    socket := none
    helloTimer := none
    reconnectTimer := none
    reauthentication := none
    content := none
    log := s.log ++ s.drops }

theorem socketFailed_eq
    (hphase : s.machine.phase = .connecting ∨ s.machine.phase = .awaitingHello)
    (henabled : s.machine.reconnectEnabled = true) (hdisposed : s.disposed = false)
    (htimer : s.reconnectTimer = none) :
    s.socketFailed options s.machine.socketEpoch = s.waiting options := by
  have hcloses : (s.machine.stale s.machine.socketEpoch ||
      s.machine.phase != .connecting && s.machine.phase != .awaitingHello) = false := by
    rcases hphase with hphase | hphase <;> simp [SessionConnectionMachineState.stale, hphase]
  cases hsocket : s.socket <;>
    simp [socketFailed, transitionWith, reduceSessionConnectionMachine, hcloses,
      SessionConnectionMachineState.backoff, henabled, closeSocket, socketForEpoch, hsocket,
      scheduleReconnect, hdisposed, htimer, resetDisconnectedState, record, waiting, drops]

theorem socketClosed_eq {socket : SessionWebSocket} (hsocket : s.socket = some socket)
    (hepoch : socket.socketEpoch = s.machine.socketEpoch)
    (hphase : s.machine.phase ≠ .closed) (hterminal : s.machine.phase ≠ .terminal)
    (henabled : s.machine.reconnectEnabled = true) (hdisposed : s.disposed = false)
    (htimer : s.reconnectTimer = none) (hcall : s.reauthentication = none) :
    ({ s with socket := none }.record (.dropped socket.socketEpoch)
      |>.transitionConnection options true true (.socketClosed socket.socketEpoch)
      |>.resetDisconnectedState .offline) = s.waiting options := by
  simp [transitionConnection, transitionWith, reduceSessionConnectionMachine, record, hepoch,
    SessionConnectionMachineState.stale, SessionConnectionMachineState.backoff, hphase, hterminal,
    henabled, scheduleReconnect, hdisposed, htimer, resetDisconnectedState, waiting, drops,
    hsocket, hcall]

theorem enterIncompatible_eq (hphase : s.machine.phase ≠ .terminal) :
    s.enterIncompatible options = s.ended .terminal .incompatible := by
  cases hsocket : s.socket <;>
    simp [enterIncompatible, transitionConnection, transitionWith, reduceSessionConnectionMachine,
      SessionConnectionMachineState.stale, SessionConnectionMachineState.terminal, hphase,
      closeSocket, socketForEpoch, hsocket, record, resetDisconnectedState, ended, drops]

theorem disconnect_eq : s.disconnect options = s.ended .closed .offline := by
  cases hsocket : s.socket <;>
    simp [disconnect, transitionConnection, transitionWith, reduceSessionConnectionMachine,
      closeSocket, socketForEpoch, hsocket, record, resetDisconnectedState, ended, drops]

/-- An event that the machine does not react to. -/
theorem transitionConnection_self (hshown : s.Shown) {created sends : Bool}
    {event : SessionConnectionMachineEvent}
    (h : reduceSessionConnectionMachine options.toSessionConnectionMachineOptions s.machine event =
      { state := s.machine }) :
    s.transitionConnection options created sends event = s := by
  simp [transitionConnection, transitionWith, h, ← hshown.1]

/-! ### What every step keeps -/

namespace Follows

variable {c : Conversation}

theorem congr {s' : SessionTransportConnection} (h : s.Follows options c)
    (hmachine : s'.machine = s.machine) (hsocket : s'.socket = s.socket) (hlog : s'.log = s.log) :
    s'.Follows options c := by
  obtain ⟨log, failures, idle, inUse, socketEpoch, scheduled, unopened, unscheduled⟩ := h
  constructor <;> simp only [AtStage, hmachine, hsocket, hlog] <;> assumption

/-- The conversation after the socket in use was dropped. -/
theorem dropped (h : s.Follows options c)
    (hsocket : ∀ socket ∈ s.socket, socket.socketEpoch = s.machine.socketEpoch) :
    Conversation.follow options (s.log ++ s.drops) =
      some { c with stage := .idle } := by
  cases hs : s.socket with
  | none =>
    rw [drops, hs, ← h.idle hs]
    simpa using h.log
  | some socket =>
    obtain ⟨hepoch, hstage⟩ := h.inUse socket hs
    have hbusy : c.stage ≠ .idle := fun hidle => by simp [hidle, AtStage] at hstage
    simp only [drops, hs, Option.toList_some, List.map_cons, List.map_nil]
    rw [Conversation.follow_concat h.log, Conversation.next,
      if_pos ⟨hbusy, hepoch.trans (hsocket socket hs).symm⟩]

theorem ended (h : s.Follows options c)
    (hsocket : ∀ socket ∈ s.socket, socket.socketEpoch = s.machine.socketEpoch)
    {phase : SessionConnectionPhase} {shown : SessionConnectionObservableState}
    (hphase : phase = .closed ∨ phase = .terminal) :
    (s.ended phase shown).Follows options { c with stage := .idle } where
  log := h.dropped hsocket
  failures := h.failures
  idle := fun _ => rfl
  inUse := fun _ hsome => by cases hsome
  socketEpoch := h.socketEpoch
  scheduled := h.scheduled
  unopened := fun hconnecting => by
    rcases hphase with rfl | rfl <;> cases hconnecting
  unscheduled := by rcases hphase with rfl | rfl <;> simp [SessionTransportConnection.ended]

theorem waiting (h : s.Follows options c)
    (hsocket : ∀ socket ∈ s.socket, socket.socketEpoch = s.machine.socketEpoch)
    (hnew : c.scheduled < s.machine.socketEpoch) :
    (s.waiting options).Follows options
      { c with
        stage := .idle
        scheduled := s.machine.socketEpoch
        failures := c.failures + 1 } where
  log := by
    have hlog := Conversation.follow_concat (h.dropped hsocket)
      (.scheduled s.machine.socketEpoch (reconnectDelay options.toSessionConnectionMachineOptions
        s.machine.reconnectAttempt))
    rw [SessionTransportConnection.waiting, hlog, Conversation.next,
      if_pos ⟨rfl, h.socketEpoch, hnew, by rw [h.failures]⟩]
  failures := congrArg (· + 1) h.failures
  idle := fun _ => rfl
  inUse := fun _ hsome => by cases hsome
  socketEpoch := h.socketEpoch
  scheduled := Nat.le_refl _
  unopened := fun hconnecting => by cases hconnecting
  unscheduled := by simp [SessionTransportConnection.waiting]

end Follows

namespace Sound

/-- The socket in use belongs to the current attempt. -/
theorem socket_epoch (h : s.Sound options) :
    ∀ socket ∈ s.socket, socket.socketEpoch = s.machine.socketEpoch := by
  intro socket hsocket
  have hpending := h.pending
  rw [Pending] at hpending
  cases hphase : s.machine.phase <;> simp only [hphase, Option.mem_def.mp hsocket] at hpending <;>
    simp_all

theorem ended (h : s.Sound options) {phase : SessionConnectionPhase}
    {shown : SessionConnectionObservableState}
    (hphase : phase = .closed ∧ shown = .offline ∨ phase = .terminal ∧ shown = .incompatible)
    (hdisposed : s.disposed = true → phase = .closed) :
    (s.ended phase shown).Sound options := by
  obtain ⟨c, hc⟩ := h.follows
  have hfollows : (s.ended phase shown).Follows options { c with stage := .idle } :=
    hc.ended h.socket_epoch (hphase.imp And.left And.left)
  refine ⟨?_, ?_, hdisposed, _, hfollows⟩
  all_goals rcases hphase with ⟨rfl, rfl⟩ | ⟨rfl, rfl⟩
  all_goals simp [Pending, Shown, SessionTransportConnection.ended]

theorem waiting {c : Conversation} (hc : s.Follows options c)
    (hsocket : ∀ socket ∈ s.socket, socket.socketEpoch = s.machine.socketEpoch)
    (hnew : c.scheduled < s.machine.socketEpoch) (hdisposed : s.disposed = false)
    (henabled : s.machine.reconnectEnabled = true) : (s.waiting options).Sound options := by
  refine ⟨?_, ?_, fun h => ?_, _, hc.waiting hsocket hnew⟩
  · simp [Pending, SessionTransportConnection.waiting]
  · simp [Shown, SessionTransportConnection.waiting, henabled]
  · simp [SessionTransportConnection.waiting, hdisposed] at h

end Sound

/-! ### Opening a socket -/

namespace Unopened

theorem socketFailed (h : s.Unopened options) :
    (s.socketFailed options s.machine.socketEpoch).Sound options := by
  obtain ⟨c, hc⟩ := h.follows
  rw [socketFailed_eq (.inl h.phase) h.enabled h.disposed h.reconnectTimer]
  exact .waiting hc (by simp [h.socket]) (hc.unscheduled (.inl h.phase)) h.disposed h.enabled

theorem openAuthenticatedSocket (h : s.Unopened options) (created : Bool) :
    (s.openAuthenticatedSocket options created s.machine.socketEpoch).Sound options := by
  obtain ⟨c, hc⟩ := h.follows
  rw [SessionTransportConnection.openAuthenticatedSocket]
  simp only [h.disposed, h.enabled, h.socket, bne_self_eq_false, Bool.not_true, Bool.or_self,
    Option.any_none, Bool.false_eq_true, if_false]
  split
  · exact h.socketFailed
  have hunscheduled := hc.unscheduled (.inl h.phase)
  refine ⟨?_, ?_, ?_, { c with stage := .opened, socketEpoch := s.machine.socketEpoch }, ?_⟩
  · simpa [Pending, record, h.phase, h.reauthentication, h.reconnectTimer] using h.helloTimer
  · simp [Shown, record, h.phase, h.connectionState, h.observable, h.content, h.serverEpoch,
      h.enabled]
  · simp [record]
  · refine ⟨?_, hc.failures, by simp [record], ?_, Nat.le_refl _, hc.scheduled,
      by simp [record], fun _ => hunscheduled⟩
    · rw [record, Conversation.follow_concat hc.log, Conversation.next,
        if_pos ⟨hc.idle h.socket, hc.unopened h.phase h.socket, hunscheduled⟩]
    · exact fun _ _ => ⟨rfl, .inl h.phase⟩

theorem openSocket (h : s.Unopened options) (created : Bool) :
    (s.openSocket options created s.machine.socketEpoch).Sound options := by
  obtain ⟨c, hc⟩ := h.follows
  rw [SessionTransportConnection.openSocket]
  split
  · exact h.openAuthenticatedSocket created
  simp only [h.disposed, h.enabled, h.reauthentication, Bool.not_true, Bool.or_self,
    Option.isSome_none, Bool.false_eq_true, if_false]
  refine ⟨?_, ?_, ?_, c, ?_⟩
  · simpa [Pending, h.phase, h.socket, h.reconnectTimer] using h.helloTimer
  · simp [Shown, h.phase, h.connectionState, h.observable, h.content, h.serverEpoch, h.enabled]
  · simp
  · exact hc.congr rfl rfl rfl

end Unopened

namespace Sound

/-- A new attempt starts where the last one is over. -/
theorem connect (h : s.Sound options) (created : Bool) {event : SessionConnectionMachineEvent}
    (hphase : s.machine.phase = .closed ∨ s.machine.phase = .backoff)
    (hdisposed : s.disposed = false) {t : Option ℕ}
    (hevent : reduceSessionConnectionMachine options.toSessionConnectionMachineOptions s.machine
      event = s.machine.connect) :
    ({ s with reconnectTimer := t }.transitionConnection options created true event).Sound
      options := by
  obtain ⟨c, hc⟩ := h.follows
  have hpending := h.pending
  have hshown := h.shown
  have hnew : s.attempting.Unopened options := by
    have hsocket : s.socket = none := by
      rcases hphase with hphase | hphase <;> simp [Pending, hphase] at hpending <;>
        exact hpending.1
    refine ⟨rfl, rfl, rfl, rfl, rfl, ?_, hsocket, ?_, rfl, ?_, hdisposed, c, hc.log, hc.failures,
      hc.idle, fun socket hsome => ?_, Nat.le_succ_of_le hc.socketEpoch,
      Nat.le_succ_of_le hc.scheduled, fun _ _ => Nat.lt_succ_of_le hc.socketEpoch,
      fun _ => Nat.lt_succ_of_le hc.scheduled⟩
    · rcases hphase with hphase | hphase <;> simp [Shown, hphase] at hshown <;>
        simp [attempting, hshown]
    · rcases hphase with hphase | hphase <;> simp [Pending, hphase] at hpending <;>
        exact hpending.2.1
    · intro e he
      rcases hphase with hphase | hphase <;> simp [Pending, hphase] at hpending
      · simp [attempting, hpending] at he
      · simp [attempting, hpending.2.2.2 e he]
    · simp [attempting, hsocket] at hsome
  have hopen := hnew.openSocket created
  have htransition : s.machine.connect =
      { state := s.attempting.machine
        intents := [.clearReconnectTimer, .openSocket (s.machine.socketEpoch + 1)] } := by
    rcases hphase with hphase | hphase <;>
      simp [SessionConnectionMachineState.connect, hphase, attempting]
  simp only [transitionConnection, transitionWith, hevent, htransition, List.foldl_cons,
    List.foldl_nil]
  exact hopen

theorem enterIncompatible (h : s.Sound options) (hphase : s.machine.phase ≠ .terminal)
    (hclosed : s.machine.phase ≠ .closed) : (s.enterIncompatible options).Sound options := by
  rw [enterIncompatible_eq hphase]
  exact h.ended (.inr ⟨rfl, rfl⟩) fun hdisposed => absurd (h.closed hdisposed) hclosed

/-- A socket that is in use was opened and is not given up. -/
theorem inUse (h : s.Sound options) {socket : SessionWebSocket} (hsocket : s.socket = some socket) :
    s.machine.phase = .connecting ∨ s.machine.phase = .awaitingHello ∨
      s.machine.phase = .ready := by
  have hpending := h.pending
  rw [Pending] at hpending
  cases hphase : s.machine.phase <;> simp_all

theorem readyStateChange (h : s.Sound options) (socketId : ℕ) (readyState : SocketReadyState) :
    (s.step options (.readyStateChange socketId readyState)).Sound options := by
  obtain ⟨c, hc⟩ := h.follows
  have hpending := h.pending
  refine ⟨?_, h.shown, h.closed, c, ?_⟩
  · rw [Pending] at hpending ⊢
    cases hphase : s.machine.phase <;> simp only [step, hphase] at hpending ⊢ <;>
      cases hsocket : s.socket <;> simp_all <;> split <;> simp_all
  · refine ⟨hc.log, hc.failures, fun hnone => hc.idle ?_, fun socket hsome => ?_, hc.socketEpoch,
      hc.scheduled, fun hconnecting hnone => hc.unopened hconnecting ?_, hc.unscheduled⟩
    · simpa [step] using hnone
    · obtain ⟨before, hbefore, -⟩ := Option.map_eq_some_iff.mp hsome
      exact hc.inUse before hbefore
    · simpa [step] using hnone

/-- A connection that is not closed is not disposed. -/
theorem live (h : s.Sound options) (hphase : s.machine.phase ≠ .closed) : s.disposed = false := by
  cases hdisposed : s.disposed with
  | false => rfl
  | true => exact absurd (h.closed hdisposed) hphase

theorem socketOpen (h : s.Sound options) {socket : SessionWebSocket}
    (hsocket : s.socket = some socket) (sends : Bool) :
    (s.transitionConnection options true sends (.socketOpen socket.socketEpoch)).Sound options := by
  obtain ⟨c, hc⟩ := h.follows
  have hepoch := h.socket_epoch socket hsocket
  by_cases hphase : s.machine.phase = .connecting
  swap
  · rw [transitionConnection_self h.shown]
    · exact h
    · simp [reduceSessionConnectionMachine, hphase]
  have hlive := h.live (by simp [hphase])
  obtain ⟨hcall, htimer⟩ : s.reauthentication = none ∧ s.reconnectTimer = none := by
    have hpending := h.pending
    simp only [Pending, hphase, hsocket] at hpending
    simp_all
  obtain ⟨-, hcontent, henabled, hserver, hshown⟩ :
      s.connectionState = s.machine.observableState ∧ s.content = s.machine.serverEpoch ∧
        s.machine.reconnectEnabled = true ∧ s.machine.serverEpoch = none ∧
        s.machine.observableState = .connecting := by
    have hshown := h.shown
    simp only [Shown, hphase] at hshown
    exact ⟨hshown.1, hshown.2.1, hshown.2.2.1, hshown.2.2.2.1, hshown.1 ▸ hshown.2.2.2.2⟩
  have hnew := hc.unscheduled (h.inUse hsocket)
  obtain ⟨hused, hstage⟩ := hc.inUse socket hsocket
  have hopened : c.stage = .opened := by
    cases hc' : c.stage <;> simp [hc', AtStage, hphase] at hstage ⊢
  let s' : SessionTransportConnection :=
    { s with
      machine := { s.machine with phase := .awaitingHello }
      connectionState := s.machine.observableState }
  have hstep : s.transitionConnection options true sends (.socketOpen socket.socketEpoch) =
      { s'.sendClientHello options sends s.machine.socketEpoch with
        helloTimer := some s.machine.socketEpoch } := by
    simp [transitionConnection, transitionWith, reduceSessionConnectionMachine, hphase, hepoch,
      SessionConnectionMachineState.stale, s']
  have hfollows : ∀ log stage, (stage = .opened ∨ stage = .greeting) →
      Conversation.follow options log =
        some { c with stage := stage } →
      Follows options { s' with log := log } { c with stage := stage } := by
    intro log stage hstage hlog
    refine ⟨hlog, hc.failures, fun hnone => ?_, fun _ _ => ⟨hused, ?_⟩, hc.socketEpoch,
      hc.scheduled, (fun hconnecting => by cases hconnecting), fun _ => hnew⟩
    · rw [show s.socket = none from hnone] at hsocket
      cases hsocket
    · rcases hstage with rfl | rfl
      · exact .inr ⟨rfl, hserver⟩
      · exact ⟨rfl, hserver⟩
  have hsound : ∀ log d, Follows options { s' with log := log } d →
      Sound options { s' with log := log, helloTimer := some s.machine.socketEpoch } :=
    fun log d hd => ⟨⟨⟨socket, hsocket, hepoch⟩, hcall, htimer, rfl⟩,
      ⟨rfl, hcontent, henabled, hshown⟩, fun hdisposed => by simp [s', hlive] at hdisposed,
      d, hd.congr rfl rfl rfl⟩
  have hplain := hfollows s.log .opened (.inl rfl) (by rw [← hopened]; exact hc.log)
  rw [hstep, sendClientHello]
  split
  · split
    · refine hsound _ _ (hfollows _ .greeting (.inr rfl) ?_)
      have hnext := Conversation.follow_concat hc.log (.clientHello s.machine.socketEpoch)
      rwa [Conversation.next, if_pos ⟨hopened, hused⟩] at hnext
    · -- the attempt is over, and the hello timer starts all the same
      have hfailed : s'.socketFailed options s.machine.socketEpoch = s'.waiting options :=
        socketFailed_eq (.inr rfl) henabled hlive htimer
      rw [hfailed]
      have hwaiting := Sound.waiting hplain h.socket_epoch hnew hlive henabled
      obtain ⟨d, hd⟩ := hwaiting.follows
      exact ⟨⟨rfl, rfl, rfl, by simp [SessionTransportConnection.waiting, s']⟩, hwaiting.shown,
        hwaiting.closed, d, hd.congr rfl rfl rfl⟩
  · exact hsound _ _ hplain

theorem socketClose (h : s.Sound options) {socket : SessionWebSocket}
    (hsocket : s.socket = some socket) :
    ({ s with socket := none }.record (.dropped socket.socketEpoch)
      |>.transitionConnection options true true (.socketClosed socket.socketEpoch)
      |>.resetDisconnectedState .offline).Sound options := by
  obtain ⟨c, hc⟩ := h.follows
  have hepoch := h.socket_epoch socket hsocket
  have hpending := h.pending
  have hshown := h.shown
  have hphase := h.inUse hsocket
  have hnew := hc.unscheduled hphase
  have hclosed : s.machine.phase ≠ .closed ∧ s.machine.phase ≠ .terminal := by
    rcases hphase with hphase | hphase | hphase <;> simp [hphase]
  have hlive := h.live hclosed.1
  obtain ⟨hcall, htimer, henabled⟩ : s.reauthentication = none ∧ s.reconnectTimer = none ∧
      s.machine.reconnectEnabled = true := by
    rcases hphase with hphase | hphase | hphase <;>
      simp only [Pending, Shown, hphase, hsocket] at hpending hshown <;> simp_all
  rw [socketClosed_eq hsocket hepoch hclosed.1 hclosed.2 henabled hlive htimer hcall]
  exact .waiting hc h.socket_epoch hnew hlive henabled

theorem serverHello (h : s.Sound options) {socket : SessionWebSocket}
    (hsocket : s.socket = some socket) (hphase : s.machine.phase = .awaitingHello)
    (hcontent : s.content = none) (serverEpoch : JsString) :
    (({ s with content := some serverEpoch }.record
        (.serverHello socket.socketEpoch serverEpoch)).transitionConnection options true true
      (.serverHello socket.socketEpoch serverEpoch true)).Sound options := by
  obtain ⟨c, hc⟩ := h.follows
  have hepoch := h.socket_epoch socket hsocket
  have hpending := h.pending
  have hshown := h.shown
  simp only [Pending, hphase] at hpending
  simp only [Shown, hphase] at hshown
  obtain ⟨hused, hstage⟩ := hc.inUse socket hsocket
  have hopened : c.stage = .opened ∨ c.stage = .greeting := by
    cases hc' : c.stage <;> simp [hc', AtStage, hphase, ← hshown.2.1, hcontent] at hstage ⊢
  have hnew := hc.unscheduled (h.inUse hsocket)
  simp only [transitionConnection, transitionWith, reduceSessionConnectionMachine, record, hphase,
    hepoch, SessionConnectionMachineState.stale, bne_self_eq_false, Bool.or_self, Bool.not_true,
    Bool.false_eq_true, if_false, List.foldl_nil]
  refine ⟨hpending, ⟨rfl, rfl, hshown.2.2.1, hshown.1 ▸ hshown.2.2.2⟩, fun hdisposed => ?_,
    { c with stage := .greeted serverEpoch }, ?_, hc.failures, fun hnone => ?_,
    fun _ _ => ⟨hused, rfl, rfl⟩, hc.socketEpoch, hc.scheduled,
    (fun hconnecting => by cases hconnecting), fun _ => hnew⟩
  · exact absurd (h.closed hdisposed) (by simp [hphase])
  · rw [Conversation.follow_concat hc.log, Conversation.next, if_pos ⟨hopened, hused⟩]
  · rw [show s.socket = none from hnone] at hsocket
    cases hsocket

theorem initialInventory (h : s.Sound options) {socket : SessionWebSocket}
    (hsocket : s.socket = some socket) (hphase : s.machine.phase = .awaitingHello)
    {serverEpoch : JsString} (hserver : s.machine.serverEpoch = some serverEpoch) :
    ((s.record (.inventory socket.socketEpoch serverEpoch)).transitionConnection options true true
      (.initialInventory socket.socketEpoch serverEpoch true)).Sound options := by
  obtain ⟨c, hc⟩ := h.follows
  have hepoch := h.socket_epoch socket hsocket
  have hpending := h.pending
  have hshown := h.shown
  simp only [Pending, hphase] at hpending
  simp only [Shown, hphase] at hshown
  obtain ⟨hused, hstage⟩ := hc.inUse socket hsocket
  have hgreeted : c.stage = .greeted serverEpoch := by
    cases hc' : c.stage <;> simp_all [AtStage]
  have hnew := hc.unscheduled (h.inUse hsocket)
  simp only [transitionConnection, transitionWith, reduceSessionConnectionMachine, record, hphase,
    hepoch, hserver, SessionConnectionMachineState.stale, bne_self_eq_false, Bool.or_self,
    Bool.not_true, Bool.false_eq_true, if_false, List.foldl_cons, List.foldl_nil]
  refine ⟨⟨hpending.1, hpending.2.1, hpending.2.2.1, rfl⟩,
    ⟨rfl, hshown.2.1.trans hserver, hshown.2.2.1, rfl, rfl⟩, fun hdisposed => ?_,
    { c with stage := .online serverEpoch, failures := 0 }, ?_, rfl, fun hnone => ?_,
    fun _ _ => ⟨hused, rfl, rfl⟩, hc.socketEpoch, hc.scheduled,
    (fun hconnecting => by cases hconnecting), fun _ => hnew⟩
  · exact absurd (h.closed hdisposed) (by simp [hphase])
  · rw [Conversation.follow_concat hc.log, Conversation.next, if_pos ⟨hgreeted, hused⟩]
  · rw [show s.socket = none from hnone] at hsocket
    cases hsocket

theorem handled (h : s.Sound options) {socket : SessionWebSocket}
    (hsocket : s.socket = some socket) (hphase : s.machine.phase = .ready) :
    (s.record (.handled socket.socketEpoch)).Sound options := by
  obtain ⟨c, hc⟩ := h.follows
  obtain ⟨hused, hstage⟩ := hc.inUse socket hsocket
  refine ⟨h.pending, h.shown, h.closed, c, ?_, hc.failures, hc.idle, hc.inUse, hc.socketEpoch,
    hc.scheduled, hc.unopened, hc.unscheduled⟩
  rw [record, Conversation.follow_concat hc.log, Conversation.next]
  cases hc' : c.stage <;> simp [hc', AtStage, hphase] at hstage
  simp [hused, h.socket_epoch socket hsocket]

theorem onMessage (h : s.Sound options) {socket : SessionWebSocket}
    (hsocket : s.socket = some socket) (value : IncomingMessage) :
    (s.onMessage options socket.socketEpoch value).Sound options := by
  have hphase := h.inUse hsocket
  have hrefused : (s.enterIncompatible options).Sound options := by
    apply h.enterIncompatible <;> rcases hphase with hphase | hphase | hphase <;> simp [hphase]
  rw [SessionTransportConnection.onMessage]
  split
  · exact hrefused
  split
  · rename_i hcontent
    split
    · split
      · rename_i hawaiting
        exact h.serverHello hsocket hawaiting (Option.isNone_iff_eq_none.mp hcontent) _
      · exact hrefused
    · exact hrefused
  split
  · rename_i hawaiting
    split
    · split
      · rename_i hserver
        exact h.initialInventory hsocket hawaiting.1 hserver
      · exact hrefused
    · exact hrefused
  split
  · exact hrefused
  · rename_i hready
    split
    · exact h.handled hsocket (Classical.not_not.mp hready)
    · split
      · exact h
      · exact hrefused

theorem helloTimeout (h : s.Sound options) {socketEpoch : ℕ}
    (htimer : s.helloTimer = some socketEpoch) :
    (s.step options .helloTimeout).Sound options := by
  have hpending := h.pending
  simp only [step, htimer]
  cases hphase : s.machine.phase with
  | closed | terminal | ready => simp [Pending, hphase, htimer] at hpending
  | awaitingHello =>
    simp only [Pending, hphase, htimer, Option.some.injEq] at hpending
    obtain ⟨⟨socket, hsocket, -⟩, -, -, hepoch⟩ := hpending
    have hcurrent : ({ s with helloTimer := none }.socketForEpoch socketEpoch).isSome = true := by
      simp [socketForEpoch, hepoch, hsocket]
    rw [if_pos hcurrent, enterIncompatible_eq (by simp [hphase])]
    exact h.ended (.inr ⟨rfl, rfl⟩) fun hdisposed => by simp [h.closed hdisposed] at hphase
  | connecting | backoff =>
    -- the timer was started for an attempt that failed
    have hstale : ({ s with helloTimer := none }.socketForEpoch socketEpoch).isSome = false := by
      simp only [Pending, hphase, htimer, Option.mem_some_iff, forall_eq'] at hpending
      simp only [socketForEpoch]
      split
      · first
        | exact absurd hpending.2.2 (by omega)
        | simp [hpending.1]
      · rfl
    simp only [hstale, Bool.false_eq_true, if_false]
    obtain ⟨c, hc⟩ := h.follows
    refine ⟨?_, h.shown, h.closed, c, hc.congr rfl rfl rfl⟩
    simp only [Pending, hphase] at hpending ⊢
    simp [hpending]

theorem connectCall (h : s.Sound options) (created : Bool) :
    (s.step options (.connect created)).Sound options := by
  rw [step]
  split
  · exact h
  rename_i hopen
  simp only [Bool.or_eq_true, decide_eq_true_eq, not_or, Bool.not_eq_true] at hopen
  have hshown := h.shown
  have hself : s.machine.phase ≠ .closed → s.machine.phase ≠ .backoff →
      (s.transitionConnection options created true .connect).Sound options := by
    intro hclosed hbackoff
    rw [transitionConnection_self h.shown]
    · exact h
    · cases hphase : s.machine.phase <;>
        simp_all [reduceSessionConnectionMachine, SessionConnectionMachineState.connect, Shown]
  by_cases hclosed : s.machine.phase = .closed
  · exact h.connect created (.inl hclosed) hopen.1 rfl
  by_cases hbackoff : s.machine.phase = .backoff
  · exact h.connect created (.inr hbackoff) hopen.1 rfl
  · exact hself hclosed hbackoff

theorem reconnectTimeout (h : s.Sound options) (created : Bool) :
    (s.step options (.reconnectTimeout created)).Sound options := by
  rw [step]
  split
  swap
  · exact h
  rename_i socketEpoch htimer
  have hpending := h.pending
  have hshown := h.shown
  have hphase : s.machine.phase = .backoff := by
    cases hphase : s.machine.phase <;> simp [Pending, hphase, htimer] at hpending ⊢
  simp only [Pending, hphase, htimer, Option.some.injEq] at hpending
  simp only [Shown, hphase] at hshown
  refine h.connect created (.inr hphase) (h.live (by simp [hphase])) ?_
  simp [reduceSessionConnectionMachine, SessionConnectionMachineState.stale, hphase,
    hpending.2.2.1, hshown.2.2.1]

/-- An attempt whose authentication call is over. -/
theorem unopened (h : s.Sound options) {call socketEpoch : ℕ}
    (hcurrent : s.currentCall call = some socketEpoch) :
    { s with reauthentication := none }.Unopened options ∧
      socketEpoch = s.machine.socketEpoch := by
  obtain ⟨c, hc⟩ := h.follows
  have hpending := h.pending
  have hshown := h.shown
  obtain ⟨pending, hcall, hepoch⟩ :
      ∃ pending, s.reauthentication = some (pending, socketEpoch) ∧
        s.machine.socketEpoch = socketEpoch := by
    rw [currentCall] at hcurrent
    split at hcurrent
    · rename_i pending epoch hcall
      split at hcurrent
      · rename_i htest
        cases hcurrent
        simp only [Bool.and_eq_true, decide_eq_true_eq] at htest
        exact ⟨pending, hcall, htest.2⟩
      · cases hcurrent
    · cases hcurrent
  have hphase : s.machine.phase = .connecting := by
    cases hphase : s.machine.phase <;> simp [Pending, hphase, hcall] at hpending ⊢
  simp only [Pending, hphase, hcall, reduceCtorEq, and_false, exists_false, false_or] at hpending
  simp only [Shown, hphase] at hshown
  exact ⟨⟨hphase, hshown.2.2.1, hshown.1 ▸ hshown.2.2.2.2, hshown.2.2.2.2, hshown.2.2.2.1,
    hshown.2.1.trans hshown.2.2.2.1, hpending.1.1, rfl, hpending.2.1, hpending.2.2,
    h.live (by simp [hphase]), c, hc.congr rfl rfl rfl⟩, hepoch.symm⟩

/-- Every call and every callback keeps the invariant. -/
theorem step (h : s.Sound options) (a : ConnectionAction) : (s.step options a).Sound options := by
  cases a with
  | connect created => exact h.connectCall created
  | disconnect =>
    rw [SessionTransportConnection.step, disconnect_eq]
    exact h.ended (.inl ⟨rfl, rfl⟩) fun _ => rfl
  | dispose =>
    rw [SessionTransportConnection.step]
    split
    · exact h
    · have hended := h.ended (.inl ⟨rfl, rfl⟩) fun _ => rfl
      obtain ⟨c, hc⟩ := hended.follows
      rw [disconnect_eq]
      exact ⟨hended.pending, hended.shown, fun _ => rfl, c, hc.congr rfl rfl rfl⟩
  | readyStateChange socketId readyState => exact h.readyStateChange socketId readyState
  | socketOpen socketId sends =>
    rw [SessionTransportConnection.step]
    split
    · rename_i socket hsocket
      split
      · exact h.socketOpen hsocket sends
      · exact h
    · exact h
  | socketClose socketId =>
    rw [SessionTransportConnection.step]
    split
    · rename_i socket hsocket
      split
      · exact h.socketClose hsocket
      · exact h
    · exact h
  | socketMessage socketId value =>
    rw [SessionTransportConnection.step]
    split
    · rename_i socket hsocket
      split
      · exact h.onMessage hsocket value
      · exact h
    · exact h
  | helloTimeout =>
    cases htimer : s.helloTimer with
    | none => simpa only [SessionTransportConnection.step, htimer] using h
    | some socketEpoch => exact h.helloTimeout htimer
  | reconnectTimeout created => exact h.reconnectTimeout created
  | reauthenticated call created =>
    rw [SessionTransportConnection.step]
    split
    · rename_i socketEpoch hcurrent
      obtain ⟨hunopened, rfl⟩ := h.unopened hcurrent
      exact hunopened.openAuthenticatedSocket created
    · exact h
  | reauthenticationFailed call =>
    rw [SessionTransportConnection.step]
    split
    · rename_i socketEpoch hcurrent
      obtain ⟨hunopened, rfl⟩ := h.unopened hcurrent
      exact hunopened.socketFailed
    · exact h

theorem initial : Sound options .initial := by
  refine ⟨⟨rfl, rfl, rfl, rfl⟩, ⟨rfl, rfl, rfl, rfl, .inl rfl⟩, fun _ => rfl, {}, rfl, rfl,
    fun _ => rfl, (fun _ hsome => by cases hsome), Nat.le_refl _, Nat.le_refl _,
    (fun hconnecting => by cases hconnecting), by simp [SessionTransportConnection.initial]⟩

end Sound

/-- A call or callback in a connection that was ended: `connect` does not reopen one that is
incompatible, and nothing reopens one that is disposed. -/
def staysEnded (s : SessionTransportConnection) : ConnectionAction → Bool
  | .connect _ => s.disposed || s.machine.phase = .terminal
  | .disconnect | .dispose => s.machine.phase = .closed
  | _ => true

/-- In an ended connection nothing happens. -/
theorem Sound.step_ended (h : s.Sound options)
    (hphase : s.machine.phase = .closed ∨ s.machine.phase = .terminal) {a : ConnectionAction}
    (hstays : s.staysEnded a = true) :
    (s.step options a).machine.phase = s.machine.phase ∧ (s.step options a).socket = none ∧
      (s.step options a).log = s.log := by
  obtain ⟨hsocket, hcall, htimer, hhello⟩ : s.socket = none ∧ s.reauthentication = none ∧
      s.reconnectTimer = none ∧ s.helloTimer = none := by
    have hpending := h.pending
    rcases hphase with hphase | hphase <;> simpa only [Pending, hphase] using hpending
  cases a with
  | connect created =>
    rw [staysEnded] at hstays
    simp [SessionTransportConnection.step, hstays, hsocket]
  | disconnect =>
    have hclosed : s.machine.phase = .closed := by simpa [staysEnded] using hstays
    simp [SessionTransportConnection.step, disconnect_eq, SessionTransportConnection.ended, drops,
      hsocket, hclosed]
  | dispose =>
    have hclosed : s.machine.phase = .closed := by simpa [staysEnded] using hstays
    rw [SessionTransportConnection.step]
    split <;> simp [disconnect_eq, SessionTransportConnection.ended, drops, hsocket, hclosed]
  | _ => simp [SessionTransportConnection.step, currentCall, hsocket, hcall, htimer, hhello]

/-! ### Runs -/

theorem runFrom_sound (options : SessionTransportOptions) (actions : List ConnectionAction) :
    (runFrom (step options) .initial actions).Sound options :=
  runFrom_invariant (I := Sound options) (fun _ a h => h.step a) actions .initial

/-- Whatever happens, what the connection does is a conversation: one socket after another, each
with a number larger than those before; on a socket at most one hello of the Browser, then the
server's hello, then the inventory of the same server epoch, and only then other messages; and for
an attempt that is given up at most one other is scheduled, after a delay that doubles with each
failure in a row. -/
theorem log_follows (options : SessionTransportOptions) (actions : List ConnectionAction) :
    (Conversation.follow options
      (runFrom (step options) .initial actions).log).isSome = true := by
  obtain ⟨c, hc⟩ := (runFrom_sound options actions).follows
  rw [hc.log, Option.isSome_some]

/-- Whatever happens, exactly what leads out of the phase is pending, and the store shows the
phase. -/
theorem pending_shown (options : SessionTransportOptions) (actions : List ConnectionAction) :
    (runFrom (step options) .initial actions).Pending ∧
      (runFrom (step options) .initial actions).Shown :=
  ⟨(runFrom_sound options actions).pending, (runFrom_sound options actions).shown⟩

/-- A connection that was ended opens no socket and handles no message, whichever callbacks still
come, until the user connects again. -/
theorem runFrom_ended (options : SessionTransportOptions) (before after : List ConnectionAction)
    (hphase : (runFrom (step options) .initial before).machine.phase = .closed ∨
      (runFrom (step options) .initial before).machine.phase = .terminal)
    (hstays : RunMeets (step options) (fun s a => s.staysEnded a = true)
      (runFrom (step options) .initial before) after) :
    (runFrom (step options) .initial (before ++ after)).socket = none ∧
      (runFrom (step options) .initial (before ++ after)).log =
        (runFrom (step options) .initial before).log := by
  rw [runFrom_append]
  have hinvariant := hstays.invariant
    (I := fun s => s.Sound options ∧
      (s.machine.phase = .closed ∨ s.machine.phase = .terminal) ∧
      s.log = (runFrom (step options) .initial before).log)
    (fun s a hstay h => by
      obtain ⟨hsound, hended, hlog⟩ := h
      obtain ⟨hphase, -, hkeeps⟩ := hsound.step_ended hended hstay
      exact ⟨hsound.step a, by rwa [hphase], hkeeps.trans hlog⟩)
    ⟨runFrom_sound options before, hphase, rfl⟩
  refine ⟨?_, hinvariant.2.2⟩
  have hpending := hinvariant.1.pending
  rcases hinvariant.2.1 with hphase | hphase <;> simp only [Pending, hphase] at hpending <;>
    exact hpending.1

/-- A server that answers the hello with an error: neither its close nor a further `connect` nor
a timer is answered. -/
theorem runFrom_ended_sample :
    let options : SessionTransportOptions :=
      { clientHello := .null, helloTimeoutMs := 10000, reconnectBaseMs := 500,
        reconnectMaxMs := 10000, reauthenticate := true }
    let before : List ConnectionAction :=
      [.connect true, .readyStateChange 0 .open, .socketOpen 0 true,
        .socketMessage 0 { malformed := true }]
    let after : List ConnectionAction :=
      [.socketClose 0, .connect true, .reconnectTimeout true, .helloTimeout]
    (runFrom (step options) .initial (before ++ after)).socket = none ∧
      (runFrom (step options) .initial (before ++ after)).log =
        (runFrom (step options) .initial before).log :=
  runFrom_ended _ _ _ (.inr (by decide +kernel)) (by decide +kernel)

end SessionTransportConnection

end PiAgentWeb
