import PiAgentWeb.UI.ToolStatuses

/-!
# Tool calls in every run

In every projection that a run of the store reaches, a terminal tool block stays terminal while it
stays at its place and no event starts its execution or its message again. Hanging calls are left
in the active turn only, and in turns that failed or were aborted and then went on.
-/

namespace PiAgentWeb

variable {J T : Type} {sessionId : JsString} {batch : ℕ}
  {projection projection' : ConversationProjection} {exempt : JsString → ℕ → ToolCallBlock → Prop}

/-! ## The turn under an id -/

/-- The first turn under an id. -/
def ConversationProjection.turnAt (projection : ConversationProjection) (id : JsString) :
    Option ProductTurn :=
  projection.turns.find? (·.id == id)

variable {turn : ProductTurn}

theorem id_of_turnAt {id : JsString} (h : projection.turnAt id = some turn) : turn.id = id := by
  simpa using List.find?_some h

theorem turnAt_map {f : ProductTurn → ProductTurn} (hf : ∀ turn, (f turn).id = turn.id)
    (hturns : projection'.turns = projection.turns.map f) (id : JsString) :
    projection'.turnAt id = (projection.turnAt id).map f := by
  unfold ConversationProjection.turnAt
  rw [hturns, List.find?_map]
  simp only [Function.comp_def, hf]

theorem turnAt_withTurn {turn old : ProductTurn} (hold : projection.turnAt turn.id = some old)
    (id : JsString) :
    (withTurn projection turn).turnAt id =
      if id = turn.id then some turn else projection.turnAt id := by
  have hid : ∀ t : ProductTurn, (if t.id = turn.id then turn else t).id = t.id := by
    intro t
    split
    · next heq => exact heq.symm
    · rfl
  have hmap : (withTurn projection turn).turnAt id =
      (projection.turnAt id).map fun t => if t.id = turn.id then turn else t :=
    turnAt_map hid rfl id
  rw [hmap]
  split
  · next heq =>
    subst heq
    rw [hold, Option.map_some, if_pos (id_of_turnAt hold)]
  · next hne =>
    cases hfound : projection.turnAt id with
    | none => rfl
    | some found =>
      rw [Option.map_some, if_neg fun heq => hne ((id_of_turnAt hfound).symm.trans heq)]

theorem turnAt_ensureTurn (ctx : ReducerContext J T) {id : JsString}
    (h : projection.turnAt id = some turn) :
    (ensureTurn projection ctx).1.turnAt id = some turn := by
  unfold ensureTurn
  split
  · exact h
  · refine List.find?_append.trans ?_
    rw [show List.find? _ projection.turns = some turn from h]
    rfl

theorem IssuedId.ne_nil {turnSeq : ℕ} {id : JsString} (h : IssuedId sessionId batch turnSeq id) :
    id ≠ [] := by
  rintro rfl
  rcases h with ⟨n, -, -, hn⟩ | ⟨b, n, -, -, hn⟩
  · exact absurd (List.append_eq_nil_iff.mp hn.symm).1 (by decide)
  · simp only [historyTurnId, List.append_assoc] at hn
    exact absurd (List.append_eq_nil_iff.mp hn.symm).1 (by decide)

theorem ProjectionKeyed.activeTurn_cases (h : ProjectionKeyed sessionId batch projection) :
    (∃ turn, activeTurn projection = some turn ∧ projection.activeTurnId = some turn.id ∧
      projection.turnAt turn.id = some turn) ∨
      activeTurn projection = none ∧ projection.activeTurnId = none := by
  cases hactive : projection.activeTurnId with
  | none => exact .inr ⟨by simp [activeTurn, hactive], rfl⟩
  | some id =>
    obtain ⟨turn, hturn, heq⟩ := h.active id hactive
    have hne : id ≠ [] := heq ▸ (h.issued turn hturn).ne_nil
    have hfound : (projection.turns.find? (·.id == id)).isSome = true :=
      List.find?_isSome.mpr ⟨turn, hturn, by simp [heq]⟩
    obtain ⟨found, hfound⟩ := Option.isSome_iff_exists.mp hfound
    have hid : found.id = id := id_of_turnAt hfound
    refine .inl ⟨found, ?_, by rw [hid], by rw [hid]; exact hfound⟩
    cases id with
    | nil => exact absurd rfl hne
    | cons head rest => simp only [activeTurn, hactive, hfound]

theorem ProjectionKeyed.turnAt_ensured (h : ProjectionKeyed sessionId batch projection)
    (ctx : ReducerContext J T) :
    (PiAgentWeb.ensureTurn projection ctx).1.turnAt (PiAgentWeb.ensureTurn projection ctx).2.id =
      some (PiAgentWeb.ensureTurn projection ctx).2 := by
  rcases h.activeTurn_cases with ⟨turn, hactive, -, hfound⟩ | ⟨hnone, -⟩
  · simp only [PiAgentWeb.ensureTurn, hactive]
    exact hfound
  · simp only [PiAgentWeb.ensureTurn, hnone]
    have hfresh : projection.turns.find? (·.id == turnIdOf (projection.turnSeq + 1)) = none := by
      refine List.find?_eq_none.mpr fun turn hturn heq => ?_
      have hid : turn.id = turnIdOf (projection.turnSeq + 1) := by simpa using heq
      rcases h.issued turn hturn with ⟨n, -, hle, hn⟩ | ⟨b, n, -, -, hn⟩
      · have := turnIdOf_injective (hn.symm.trans hid)
        omega
      · exact turnIdOf_ne_historyTurnId _ _ _ _ (hid.symm.trans hn)
    refine List.find?_append.trans ?_
    rw [hfresh]
    simp

/-! ## Terminal blocks -/

/-- The projection keeps its terminal blocks. -/
def ProjectionKeeps (exempt : JsString → ℕ → ToolCallBlock → Prop)
    (projection projection' : ConversationProjection) : Prop :=
  ∀ turnId stepIndex index,
    KeepsTerminal (exempt turnId stepIndex) (projection.toolAt turnId stepIndex index)
      (projection'.toolAt turnId stepIndex index)

theorem ProjectionKeeps.of_turns (h : ∀ id turn, projection.turnAt id = some turn →
      ∃ turn', projection'.turnAt id = some turn' ∧ TurnKeeps (exempt id) turn turn') :
    ProjectionKeeps exempt projection projection' := by
  intro id stepIndex index old new hold hexempt hterminal hnew
  obtain ⟨turn, hturn, hold⟩ := Option.bind_eq_some_iff.mp hold
  obtain ⟨turn', hturn', hkeeps⟩ := h id turn hturn
  obtain ⟨found, hfound, hnew⟩ := Option.bind_eq_some_iff.mp hnew
  obtain rfl := Option.some.inj (hturn'.symm.trans hfound)
  exact hkeeps stepIndex index old new hold hexempt hterminal hnew

theorem ProjectionKeeps.of_same (hturns : projection'.turns = projection.turns) :
    ProjectionKeeps exempt projection projection' :=
  .of_turns fun id turn hturn =>
    ⟨turn, by rw [ConversationProjection.turnAt, hturns]; exact hturn, .of_same rfl⟩

theorem ProjectionKeeps.withTurn {turn old : ProductTurn}
    (hturns : projection'.turns = projection.turns) (hold : projection.turnAt turn.id = some old)
    (hkeeps : TurnKeeps (exempt turn.id) old turn) :
    ProjectionKeeps exempt projection (PiAgentWeb.withTurn projection' turn) := by
  have hsame : ∀ id, projection'.turnAt id = projection.turnAt id := by
    intro id
    rw [ConversationProjection.turnAt, hturns, ConversationProjection.turnAt]
  refine .of_turns fun id found hfound => ?_
  rw [turnAt_withTurn ((hsame turn.id).trans hold), hsame]
  split
  · next heq =>
    subst heq
    obtain rfl := Option.some.inj (hold.symm.trans hfound)
    exact ⟨turn, rfl, hkeeps⟩
  · exact ⟨found, hfound, .of_same rfl⟩

theorem ProjectionKeyed.keeps (h : ProjectionKeyed sessionId batch projection)
    (ctx : ReducerContext J T) (hid : turn.id = (PiAgentWeb.ensureTurn projection ctx).2.id)
    (hkeeps : TurnKeeps (exempt turn.id) (PiAgentWeb.ensureTurn projection ctx).2 turn) :
    ProjectionKeeps exempt projection
      (PiAgentWeb.withTurn (PiAgentWeb.ensureTurn projection ctx).1 turn) := by
  have hensured := h.turnAt_ensured ctx
  rw [← hid] at hensured
  refine .of_turns fun id old hold => ?_
  have hfound := turnAt_ensureTurn ctx hold
  rw [turnAt_withTurn hensured]
  split
  · next heq =>
    subst heq
    obtain rfl := Option.some.inj (hensured.symm.trans hfound)
    exact ⟨turn, rfl, hkeeps⟩
  · exact ⟨old, hfound, .of_same rfl⟩

/-- The turn and the index of the step that is open, if there is one. -/
def ConversationProjection.openStepAt (projection : ConversationProjection) :
    Option (JsString × ℕ) :=
  (activeTurn projection).bind fun turn =>
    (turn.steps.getLast?.filter fun latest => !latest.isSettled).map fun _ =>
      (turn.id, turn.steps.length - 1)

/-- The event sets a terminal block of the turn and the step back, if it leaves a block at all: it
starts the execution of its call in the active turn, which only a skipped block resists, or it puts
the content of an assistant message into the open step anew. -/
def reopens (projection : ConversationProjection) (event : SessionEvent J T) (turnId : JsString)
    (stepIndex : ℕ) (block : ToolCallBlock) : Prop :=
  match event with
  | .toolExecutionStart toolCallId _ _ =>
    projection.activeTurnId = some turnId ∧ block.toolCallId = toolCallId ∧
      block.status ≠ .skipped
  | .messageStart (.assistant message) =>
    message.content ≠ [] ∧ projection.openStepAt = some (turnId, stepIndex)
  | _ => False

theorem openStepAt_eq {step : AssistantStep} (hactive : activeTurn projection = some turn)
    (hlast : turn.steps.getLast? = some step) (hopen : step.isSettled = false) :
    projection.openStepAt = some (turn.id, turn.steps.length - 1) := by
  simp [ConversationProjection.openStepAt, hactive, hlast, hopen]

/-- A tool block of the last step that is open was there only if this step was open before. -/
theorem ProjectionKeyed.openStepAt_of_toolAt (h : ProjectionKeyed sessionId batch projection)
    (ctx : ReducerContext J T) (index : ℕ) (block : ToolCallBlock)
    (hblock : (PiAgentWeb.ensureTurn projection ctx).2.toolAt
      ((ensureOpenStep (PiAgentWeb.ensureTurn projection ctx).2 ctx).1.steps.length - 1) index =
        some block) :
    projection.openStepAt = some ((PiAgentWeb.ensureTurn projection ctx).2.id,
      (ensureOpenStep (PiAgentWeb.ensureTurn projection ctx).2 ctx).1.steps.length - 1) := by
  have hfresh : ∀ turn : ProductTurn,
      turn.toolAt ((ensureStep turn ctx).1.steps.length - 1) index = none := by
    intro turn
    simp [ProductTurn.toolAt, ensureStep]
  rcases h.activeTurn_cases with ⟨turn, hactive, -, -⟩ | ⟨hnone, -⟩
  · simp only [PiAgentWeb.ensureTurn, hactive] at hblock ⊢
    unfold ensureOpenStep at hblock ⊢
    split at hblock
    · next latest hlast =>
      split at hblock
      · rw [hfresh] at hblock
        cases hblock
      · next hopen =>
        rw [if_neg hopen]
        exact openStepAt_eq hactive hlast (by simpa using hopen)
    · rw [hfresh] at hblock
      cases hblock
  · simp only [PiAgentWeb.ensureTurn, hnone, ProductTurn.toolAt, List.getElem?_nil,
      Option.bind_none] at hblock
    cases hblock

theorem terminal_advanceStatus {block : ToolCallBlock} {status : ToolCallStatus}
    (h : block.status = .skipped ∨ status.terminal = true) :
    (block.advanceStatus status).terminal = true := by
  unfold ToolCallBlock.advanceStatus
  split
  · rfl
  · next hskipped => exact h.resolve_left hskipped

theorem ProjectionKeyed.reduce_keeps (h : ProjectionKeyed sessionId batch projection)
    (ctx : ReducerContext J T) (event : SessionEvent J T) :
    ProjectionKeeps (reopens projection event) projection
      (reduceProjection ctx projection event) := by
  cases event with
  | agentStart =>
    refine .of_turns fun id turn hturn => ?_
    have hsettled : ConversationProjection.turnAt
        { projection with
          turns := projection.turns.map fun turn =>
            if some turn.id = projection.activeTurnId ∧ turn.status = .running then
              convergeHangingToolCalls { turn with status := .settled }
            else turn
          activeTurnId := none
          replayable := false } id =
        (projection.turnAt id).map fun turn =>
          if some turn.id = projection.activeTurnId ∧ turn.status = .running then
            convergeHangingToolCalls { turn with status := .settled }
          else turn :=
      turnAt_map (fun turn => by split <;> rfl) rfl id
    rw [hturn, Option.map_some] at hsettled
    refine ⟨_, turnAt_ensureTurn ctx hsettled, ?_⟩
    split
    · exact TurnKeeps.converge (.of_same rfl)
    · exact .of_same rfl
  | turnStart =>
    refine h.keeps ctx rfl fun stepIndex index => ?_
    rw [toolAt_ensureStep]
    exact .rfl
  | agentSettled =>
    simp only [reduceProjection]
    rcases h.activeTurn_cases with ⟨turn, hactive, -, hfound⟩ | ⟨hnone, -⟩
    · simp only [hactive]
      have hconverged : TurnKeeps (reopens projection (.agentSettled : SessionEvent J T) turn.id)
          turn (convergeHangingToolCalls turn) := TurnKeeps.converge (.of_same rfl)
      exact .withTurn rfl hfound (hconverged.congr rfl)
    · simp only [hnone]
      exact .of_same rfl
  | turnEnd =>
    simp only [reduceProjection]
    split
    · exact .of_same rfl
    · next last hlast => exact h.keeps ctx rfl (.withLastStep hlast fun index => .rfl)
  | messageStart message =>
    cases message with
    | user content => exact h.keeps ctx rfl (.of_same rfl)
    | assistant message =>
      refine h.keeps ctx (ensureOpenStep_spec _ ctx).1 fun stepIndex index => ?_
      rw [← toolAt_ensureOpenStep _ ctx]
      refine TurnKeeps.withLastStep (ensureOpenStep_spec _ ctx).2.1 (fun place => ?_) stepIndex
        index
      by_cases hcontent : message.content = []
      · simp only [hcontent, List.zipIdx_nil, List.map_nil, List.isEmpty_nil, if_true]
        exact .rfl
      · intro old new hold hexempt
        refine absurd ⟨hcontent, ?_⟩ hexempt
        rw [withLastStep_id, (ensureOpenStep_spec _ ctx).1]
        refine h.openStepAt_of_toolAt ctx place old ?_
        rw [← toolAt_ensureOpenStep _ ctx, ProductTurn.toolAt, ← List.getLast?_eq_getElem?,
          (ensureOpenStep_spec _ ctx).2.1]
        exact hold
    | toolResult message =>
      simp only [reduceProjection, handleMessageStart, handleToolResultMessageStart]
      split
      · exact .of_same rfl
      · next last hlast =>
        refine h.keeps ctx rfl (.withLastStep hlast fun index => ?_)
        rw [toolAt_upsertToolResult]
        exact KeepsTerminal.rfl.map (terminal_failedTool _)
    | other role => exact .of_same rfl
  | messageEnd message =>
    cases message with
    | assistant message =>
      simp only [reduceProjection, handleMessageEnd]
      split
      · exact .of_same rfl
      · next last hlast =>
        have hsettled : TurnKeeps
            (reopens projection (.messageEnd (.assistant message) : SessionEvent J T)
              (PiAgentWeb.ensureTurn projection ctx).2.id)
            (PiAgentWeb.ensureTurn projection ctx).2
            (withLastStep (PiAgentWeb.ensureTurn projection ctx).2
              (settleAssistantStep ctx last message)) :=
          .withLastStep hlast (stepKeeps_settle ctx last message)
        refine h.keeps ctx ?_ ?_
        · split <;> rfl
        · split
          · exact TurnKeeps.converge hsettled
          · exact TurnKeeps.converge hsettled
          · exact hsettled
    | _ => exact .of_same rfl
  | messageUpdate update =>
    obtain ⟨hopenId, hlast, -⟩ := ensureOpenStep_spec (PiAgentWeb.ensureTurn projection ctx).2 ctx
    refine h.keeps ctx hopenId fun stepIndex index => ?_
    rw [← toolAt_ensureOpenStep]
    refine TurnKeeps.withLastStep hlast (fun place old new hold _ hterminal hnew => ?_) stepIndex
      index
    rw [status_applyStreamEvent ctx _ update.assistantMessageEvent hold hnew]
    exact hterminal
  | toolExecutionStart toolCallId toolName args =>
    rcases h.activeTurn_cases with ⟨turn, hactive, hturnId, -⟩ | ⟨hnone, -⟩
    · refine h.keeps ctx rfl (.updateToolBlock toolCallId fun stepIndex block hid hexempt _ => ?_)
      refine terminal_advanceStatus (.inl ?_)
      by_contra hskipped
      refine hexempt ⟨?_, hid, hskipped⟩
      simp only [PiAgentWeb.ensureTurn, hactive]
      exact hturnId
    · refine h.keeps ctx rfl (.of_same ?_)
      simp only [PiAgentWeb.ensureTurn, hnone]
      rfl
  | toolExecutionUpdate toolCallId toolName args partialResult =>
    exact h.keeps ctx rfl (.updateToolBlock toolCallId fun _ block _ _ hterminal => hterminal)
  | toolExecutionEnd toolCallId toolName result isError =>
    refine h.keeps ctx rfl (.updateToolBlock toolCallId fun _ block _ _ _ => ?_)
    refine terminal_advanceStatus (.inr ?_)
    cases isError <;> rfl
  | _ => exact .of_same rfl

/-- A live event, as the store applies it. -/
def reduceLive (projection : ConversationProjection) (live : LiveEvent) : ConversationProjection :=
  reduceProjection live.ctx projection live.event

/-- There is a tool block at the place after the event, and the event does not reopen the one that
was there. -/
def StaysAt (turnId : JsString) (stepIndex index : ℕ) (projection : ConversationProjection)
    (live : LiveEvent) : Prop :=
  ((reduceLive projection live).toolAt turnId stepIndex index).isSome = true ∧
    ∀ block, projection.toolAt turnId stepIndex index = some block →
      ¬ reopens projection live.event turnId stepIndex block

theorem ProjectionKeyed.terminal_along (h : ProjectionKeyed sessionId batch projection)
    {turnId : JsString} {stepIndex index : ℕ} {events : List LiveEvent}
    (hstays : RunMeets reduceLive (StaysAt turnId stepIndex index) projection events)
    {block : ToolCallBlock} (hblock : projection.toolAt turnId stepIndex index = some block)
    (hterminal : block.status.terminal = true) :
    ∃ block', (runFrom reduceLive projection events).toolAt turnId stepIndex index = some block' ∧
      block'.status.terminal = true := by
  refine (RunMeets.invariant (I := fun p => ProjectionKeyed sessionId batch p ∧
    ∃ b, p.toolAt turnId stepIndex index = some b ∧ b.status.terminal = true) ?_ hstays
      ⟨h, block, hblock, hterminal⟩).2
  rintro p live ⟨hsome, hopen⟩ ⟨hkeyed, old, hold, hterminal⟩
  obtain ⟨new, hnew⟩ := Option.isSome_iff_exists.mp hsome
  exact ⟨hkeyed.reduce live.ctx live.event, new, hnew, hkeyed.reduce_keeps live.ctx live.event
    turnId stepIndex index old new hold (hopen old hold) hterminal hnew⟩

/-! ## Hanging calls -/

/-- Some tool call of the turn is preparing or running and has no result. -/
def ProductTurn.Hanging (turn : ProductTurn) : Prop :=
  ∃ step ∈ turn.steps, ∃ block : ToolCallBlock,
    some (ContentBlock.toolCall block) ∈ step.blocks ∧ block.hangs step.toolResults = true

theorem ProductTurn.Hanging.of_same {turn turn' : ProductTurn} (h : turn'.Hanging)
    (hsteps : turn'.steps = turn.steps) : turn.Hanging := by
  unfold ProductTurn.Hanging at h ⊢
  rwa [hsteps] at h

theorem not_hangs {block : ToolCallBlock} {toolResults : List UiToolResult}
    (h : block.status.pending = false) : ¬ block.hangs toolResults = true := by
  unfold ToolCallBlock.hangs
  cases hstatus : block.status <;> simp_all [ToolCallStatus.pending]

theorem not_hanging_converge (turn : ProductTurn) : ¬ (convergeHangingToolCalls turn).Hanging := by
  rintro ⟨step, hstep, block, hblock, hhangs⟩
  obtain ⟨old, -, rfl⟩ := List.mem_map.mp hstep
  obtain ⟨entry, -, hentry⟩ := List.mem_map.mp hblock
  obtain ⟨found, rfl, hfound⟩ := Option.map_eq_some_iff.mp hentry
  cases found with
  | toolCall tool =>
    simp only [interruptHanging] at hfound
    split at hfound
    · cases hfound
      exact not_hangs (by exact rfl) hhangs
    · next hno =>
      cases hfound
      exact hno hhangs
  | _ => cases hfound

/-- A turn that is not active hangs only if it failed or was aborted, and the active turn is not
settled. -/
structure Converging (projection : ConversationProjection) : Prop where
  idle : ∀ turn ∈ projection.turns, projection.activeTurnId ≠ some turn.id → turn.Hanging →
    turn.status = .error ∨ turn.status = .aborted
  busy : ∀ turn ∈ projection.turns, projection.activeTurnId = some turn.id →
    turn.status ≠ .settled

theorem Converging.empty : Converging (createEmptyProjection sessionId) :=
  ⟨by rintro _ ⟨⟩, by rintro _ ⟨⟩⟩

theorem Converging.of_same (h : Converging projection)
    (hturns : projection'.turns = projection.turns)
    (hactive : projection'.activeTurnId = projection.activeTurnId) : Converging projection' := by
  refine ⟨fun turn hturn => ?_, fun turn hturn => ?_⟩
  · rw [hactive]
    exact h.idle turn (hturns ▸ hturn)
  · rw [hactive]
    exact h.busy turn (hturns ▸ hturn)

theorem Converging.withTurn (h : Converging projection)
    (hactive : projection.activeTurnId = some turn.id) (hstatus : turn.status ≠ .settled) :
    Converging (withTurn projection turn) := by
  refine ⟨fun new hnew hidle hhanging => ?_, fun new hnew hbusy => ?_⟩
  · obtain ⟨old, hold, rfl⟩ := List.mem_map.mp hnew
    split at hidle
    · exact absurd hactive hidle
    · next hne =>
      rw [if_neg hne] at hhanging ⊢
      exact h.idle old hold hidle hhanging
  · obtain ⟨old, hold, rfl⟩ := List.mem_map.mp hnew
    split at hbusy
    · next heq => rwa [if_pos heq]
    · next hne =>
      rw [if_neg hne]
      exact h.busy old hold hbusy

theorem Converging.ensureTurn (h : Converging projection)
    (hkeyed : ProjectionKeyed sessionId batch projection) (ctx : ReducerContext J T) :
    Converging (ensureTurn projection ctx).1 ∧ (ensureTurn projection ctx).2.status ≠ .settled := by
  rcases hkeyed.activeTurn_cases with ⟨turn, hactive, hid, hfound⟩ | ⟨hnone, hidle⟩
  · simp only [PiAgentWeb.ensureTurn, hactive]
    exact ⟨h, h.busy turn (List.mem_of_find?_eq_some hfound) hid⟩
  · simp only [PiAgentWeb.ensureTurn, hnone]
    refine ⟨⟨fun turn hturn hother hhanging => ?_, fun turn hturn hbusy => ?_⟩, by simp⟩
    · rcases List.mem_append.mp hturn with hold | hlast
      · exact h.idle turn hold (by simp [hidle]) hhanging
      · obtain rfl := List.mem_singleton.mp hlast
        exact absurd rfl hother
    · rcases List.mem_append.mp hturn with hold | hlast
      · rcases hkeyed.issued turn hold with ⟨n, -, hle, hn⟩ | ⟨b, n, -, -, hn⟩
        · have := turnIdOf_injective ((Option.some.inj hbusy).trans hn)
          omega
        · exact absurd ((Option.some.inj hbusy).trans hn) (turnIdOf_ne_historyTurnId _ _ _ _)
      · obtain rfl := List.mem_singleton.mp hlast
        simp

theorem Converging.rewrite (h : Converging projection)
    (hkeyed : ProjectionKeyed sessionId batch projection) (ctx : ReducerContext J T)
    (hid : turn.id = (PiAgentWeb.ensureTurn projection ctx).2.id)
    (hstatus : (PiAgentWeb.ensureTurn projection ctx).2.status ≠ .settled →
      turn.status ≠ .settled) :
    Converging (PiAgentWeb.withTurn (PiAgentWeb.ensureTurn projection ctx).1 turn) := by
  obtain ⟨hensured, hopen⟩ := h.ensureTurn hkeyed ctx
  refine hensured.withTurn ?_ (hstatus hopen)
  rw [(ensureTurn_spec projection ctx).1, hid]

theorem status_ensureOpenStep (turn : ProductTurn) (ctx : ReducerContext J T) :
    (ensureOpenStep turn ctx).1.status = turn.status := by
  unfold ensureOpenStep
  split
  · split <;> rfl
  · rfl

theorem Converging.settled (h : Converging projection)
    (hkeyed : ProjectionKeyed sessionId batch projection) (ctx : ReducerContext J T) :
    ∀ turn ∈ (reduceProjection ctx projection (.agentSettled : SessionEvent J T)).turns,
      turn.Hanging → (turn.status = .error ∨ turn.status = .aborted) ∧
        projection.activeTurnId ≠ some turn.id := by
  intro turn hturn hhanging
  simp only [reduceProjection] at hturn
  rcases hkeyed.activeTurn_cases with ⟨active, hactive, hid, -⟩ | ⟨hnone, hidle⟩
  · simp only [hactive] at hturn
    obtain ⟨old, hold, hnew⟩ := List.mem_map.mp hturn
    by_cases hsame : old.id = active.id
    · rw [if_pos (by exact hsame)] at hnew
      subst hnew
      exact absurd (hhanging.of_same rfl) (not_hanging_converge active)
    · rw [if_neg (by exact hsame)] at hnew
      subst hnew
      have hother : projection.activeTurnId ≠ some old.id := by
        rw [hid]
        exact fun heq => hsame (Option.some.inj heq).symm
      exact ⟨h.idle old hold hother hhanging, hother⟩
  · simp only [hnone] at hturn
    have hother : projection.activeTurnId ≠ some turn.id := by
      simp [hidle]
    exact ⟨h.idle turn hturn hother hhanging, hother⟩

theorem Converging.reduce (h : Converging projection)
    (hkeyed : ProjectionKeyed sessionId batch projection) (ctx : ReducerContext J T)
    (event : SessionEvent J T) : Converging (reduceProjection ctx projection event) := by
  cases event with
  | agentStart =>
    have hids : ∀ turn : ProductTurn,
        (if some turn.id = projection.activeTurnId ∧ turn.status = .running then
          convergeHangingToolCalls { turn with status := .settled }
        else turn).id = turn.id := fun turn => by split <;> rfl
    have hkeyed' : ProjectionKeyed sessionId batch
        { projection with
          turns := projection.turns.map fun turn =>
            if some turn.id = projection.activeTurnId ∧ turn.status = .running then
              convergeHangingToolCalls { turn with status := .settled }
            else turn
          activeTurnId := none
          replayable := false } := by
      refine hkeyed.mapTurns hids (fun turn hturn => ?_) rfl rfl (by simp)
      split
      · exact ProductTurn.Keyed.converge (hturn.of_same rfl rfl)
      · exact hturn
    refine (Converging.ensureTurn ⟨fun turn hturn _ hhanging => ?_, fun _ _ hbusy => ?_⟩ hkeyed'
      ctx).1
    case refine_2 => cases hbusy
    obtain ⟨old, hold, hnew⟩ := List.mem_map.mp hturn
    split at hnew
    · subst hnew
      exact absurd hhanging (not_hanging_converge _)
    · next hnot =>
      subst hnew
      by_cases hid : projection.activeTurnId = some old.id
      · have hsettled := h.busy old hold hid
        cases hstatus : old.status with
        | running => exact absurd ⟨hid.symm, hstatus⟩ hnot
        | settled => exact absurd hstatus hsettled
        | aborted => exact .inr rfl
        | error => exact .inl rfl
      · exact h.idle old hold hid hhanging
  | agentSettled =>
    refine ⟨fun turn hturn _ hhanging => (h.settled hkeyed ctx turn hturn hhanging).1, ?_⟩
    intro turn hturn hbusy
    simp only [reduceProjection] at hbusy
    rcases hkeyed.activeTurn_cases with ⟨active, hactive, -, -⟩ | ⟨hnone, hidle⟩
    · simp only [hactive] at hbusy
      cases hbusy
    · simp only [hnone, hidle] at hbusy
      cases hbusy
  | turnStart => exact h.rewrite hkeyed ctx rfl id
  | turnEnd =>
    simp only [reduceProjection]
    split
    · exact h
    · exact h.rewrite hkeyed ctx rfl id
  | messageStart message =>
    cases message with
    | user content => exact h.rewrite hkeyed ctx rfl id
    | assistant message =>
      refine h.rewrite hkeyed ctx (ensureOpenStep_spec _ ctx).1 fun hstatus => ?_
      exact (status_ensureOpenStep _ ctx).trans_ne hstatus
    | toolResult message =>
      simp only [reduceProjection, handleMessageStart, handleToolResultMessageStart]
      split
      · exact h
      · exact h.rewrite hkeyed ctx rfl id
    | other role => exact h
  | messageEnd message =>
    cases message with
    | assistant message =>
      simp only [reduceProjection, handleMessageEnd]
      split
      · exact h
      · refine h.rewrite hkeyed ctx ?_ fun hstatus => ?_
        · split <;> rfl
        · split
          · exact fun heq => by cases heq
          · exact fun heq => by cases heq
          · exact hstatus
    | _ => exact h
  | messageUpdate update =>
    refine h.rewrite hkeyed ctx (ensureOpenStep_spec _ ctx).1 fun hstatus => ?_
    exact (status_ensureOpenStep _ ctx).trans_ne hstatus
  | toolExecutionStart toolCallId toolName args => exact h.rewrite hkeyed ctx rfl id
  | toolExecutionUpdate toolCallId toolName args partialResult =>
    exact h.rewrite hkeyed ctx rfl id
  | toolExecutionEnd toolCallId toolName result isError => exact h.rewrite hkeyed ctx rfl id
  | _ => exact h.of_same rfl rfl

theorem Converging.reduceEvents (h : Converging projection)
    (hkeyed : ProjectionKeyed sessionId batch projection) (events : List LiveEvent) :
    Converging (reduceEvents projection events) := by
  induction events generalizing projection with
  | nil => exact h
  | cons live rest ih =>
    exact ih (h.reduce hkeyed live.ctx live.event) (hkeyed.reduce live.ctx live.event)

/-! ## Settled messages -/

theorem not_hanging_convergeTurn (turn : ProductTurn) : ¬ (convergeTurn turn).Hanging := by
  rintro ⟨step, hstep, block, hblock, hhangs⟩
  obtain ⟨old, -, rfl⟩ := List.mem_map.mp hstep
  obtain ⟨entry, -, hentry⟩ := List.mem_map.mp hblock
  obtain ⟨found, rfl, hfound⟩ := Option.map_eq_some_iff.mp hentry
  cases found with
  | toolCall tool =>
    simp only [convergeToolCall] at hfound
    split at hfound
    · cases hfound
      exact not_hangs (by exact rfl) hhangs
    · cases hfound
      refine not_hangs ?_ hhangs
      dsimp only
      split <;> rfl
  | _ => cases hfound

theorem SettledBatch.activeTurnId (settled : SettledBatch) (sessionId : JsString) :
    (settled.rebuild sessionId).activeTurnId = none := by
  have hfold : ∀ (messages : List (SettledMessage settled.J settled.T))
      (start : ConversationProjection), (messages.foldl
        (rebuildMessage settled.representation) start).activeTurnId = start.activeTurnId := by
    intro messages
    induction messages with
    | nil => exact fun _ => rfl
    | cons message rest ih =>
      intro start
      rw [List.foldl_cons, ih]
      unfold rebuildMessage
      split
      · rfl
      · split <;> rfl
  exact hfold settled.messages _

theorem SettledBatch.not_hanging (settled : SettledBatch) (sessionId : JsString)
    (h : turn ∈ (settled.rebuild sessionId).turns) : ¬ turn.Hanging := by
  obtain ⟨old, -, rfl⟩ := List.mem_map.mp h
  exact not_hanging_convergeTurn old

theorem SettledBatch.converging (settled : SettledBatch) (sessionId : JsString) :
    Converging (settled.rebuild sessionId) := by
  refine ⟨fun turn hturn _ hhanging => absurd hhanging (settled.not_hanging sessionId hturn),
    fun turn _ hbusy => ?_⟩
  rw [settled.activeTurnId] at hbusy
  cases hbusy

theorem hanging_of_remapHistoricalTurn
    (h : (remapHistoricalTurn sessionId batch turn).Hanging) : turn.Hanging := by
  obtain ⟨step, hstep, block, hblock, hhangs⟩ := h
  obtain ⟨⟨old, stepIndex⟩, hold, rfl⟩ := List.mem_map.mp hstep
  obtain ⟨⟨entry, index⟩, hentry, heq⟩ := List.mem_map.mp hblock
  obtain ⟨found, rfl, hfound⟩ := Option.map_eq_some_iff.mp heq
  refine ⟨old, (List.mem_zipIdx' hold).2 ▸ List.getElem_mem _, ?_⟩
  have hmem : some found ∈ old.blocks := (List.mem_zipIdx' hentry).2 ▸ List.getElem_mem _
  cases found with
  | toolCall tool =>
    cases hfound
    exact ⟨tool, hmem, hhangs⟩
  | _ => cases hfound

theorem Converging.prepend (h : Converging projection)
    (hkeyed : ProjectionKeyed sessionId batch projection) (settled : SettledBatch)
    (hkeyed' : ProjectionKeyed sessionId (batch + 1) projection') (hturns : projection'.turns =
      (settled.rebuild sessionId).turns.map (remapHistoricalTurn sessionId (batch + 1)) ++
        projection.turns)
    (hactive : projection'.activeTurnId = projection.activeTurnId) : Converging projection' := by
  refine ⟨fun turn hturn hidle hhanging => ?_, fun turn hturn hbusy => ?_⟩
  · rw [hturns] at hturn
    rcases List.mem_append.mp hturn with hnew | hold
    · obtain ⟨older, holder, rfl⟩ := List.mem_map.mp hnew
      exact absurd (hanging_of_remapHistoricalTurn hhanging) (settled.not_hanging sessionId holder)
    · exact h.idle turn hold (hactive ▸ hidle) hhanging
  · rw [hactive] at hbusy
    rw [hturns] at hturn
    rcases List.mem_append.mp hturn with hnew | hold
    · obtain ⟨active, hmem, hid⟩ := hkeyed.active turn.id hbusy
      have hnodup := hkeyed'.nodup
      rw [hturns, List.map_append] at hnodup
      exact absurd hid.symm ((List.nodup_append.mp hnodup).2.2 turn.id (List.mem_map_of_mem hnew)
        active.id (List.mem_map_of_mem hmem))
    · exact h.busy turn hold hbusy

/-! ## Runs -/

namespace SessionProjection

/-- The projection of the Session, if there is one, is keyed, and its hanging calls are where they
may be. -/
def Converges (sessionId : JsString) (s : SessionProjection) : Prop :=
  s.Keyed sessionId ∧ ∀ projection, s.projection = some projection → Converging projection

variable {s : SessionProjection}

theorem Converges.current (h : s.Converges sessionId) : Converging (s.current sessionId) := by
  cases hprojection : s.projection with
  | none =>
    simp only [SessionProjection.current, hprojection, Option.getD_none]
    exact .empty
  | some projection =>
    simp only [SessionProjection.current, hprojection, Option.getD_some]
    exact h.2 projection hprojection

theorem Converges.step (h : s.Converges sessionId) (action : SessionProjectionAction) :
    (step sessionId s action).Converges sessionId := by
  have hkeyed' := h.1.step action
  refine ⟨hkeyed', fun projection hprojection => ?_⟩
  cases action with
  | applyEvents events =>
    simp only [SessionProjection.step] at hprojection
    split at hprojection
    · exact h.2 projection hprojection
    · obtain rfl := Option.some.inj hprojection
      exact h.current.reduceEvents h.1.current events
  | rebuildFromMessages settled =>
    obtain rfl := Option.some.inj hprojection
    exact settled.converging sessionId
  | prependHistoricalMessages settled =>
    by_cases hmessages : settled.messages.isEmpty = true
    · rw [SessionProjection.step, if_pos hmessages] at hprojection
      exact h.2 projection hprojection
    · by_cases hturns : (settled.rebuild sessionId).turns.isEmpty = true
      · rw [SessionProjection.step, if_neg hmessages, if_pos hturns] at hprojection
        exact h.2 projection hprojection
      · have hstep := step_prepend s hmessages hturns
        rw [hstep] at hprojection
        obtain rfl := Option.some.inj hprojection
        exact h.current.prepend h.1.current settled (h.1.current.prepend settled rfl rfl rfl) rfl
          rfl
  | applyAuthoritativeSnapshot settled projectionEvents =>
    obtain rfl := Option.some.inj hprojection
    exact (settled.converging sessionId).reduceEvents (settled.keyed sessionId 0) _
  | markRuntimeFailure now error =>
    simp only [SessionProjection.step] at hprojection
    cases hold : s.projection with
    | none => simp [hold] at hprojection
    | some old =>
      simp only [hold] at hprojection
      split at hprojection
      · exact h.2 projection hprojection
      · exact h.2 projection hprojection
      · obtain rfl := Option.some.inj hprojection
        refine ⟨fun turn hturn _ hhanging => ?_, fun turn _ hbusy => by cases hbusy⟩
        obtain ⟨before, hbefore, hnew⟩ := List.mem_map.mp hturn
        split at hnew
        · subst hnew
          exact absurd hhanging (not_hanging_converge _)
        · next hother =>
          subst hnew
          exact (h.2 old hold).idle before hbefore (fun heq => hother heq.symm) hhanging
  | resetSession => cases hprojection
  | prune => cases hprojection

theorem run_converges (sessionId : JsString) (actions : List SessionProjectionAction) :
    (runFrom (step sessionId) initial actions).Converges sessionId :=
  runFrom_invariant (fun _ action h => h.step action) actions ⟨nofun, nofun⟩

end SessionProjection

/-- In every projection that a run of the store reaches, a terminal tool block stays terminal along
events that leave a tool block at its place and neither start the execution of its call in the
active turn nor put the content of an assistant message into its step while that is open; and when
the agent has settled, a tool call without a result is preparing or running only in a turn that was
not active and that failed or was aborted. -/
theorem tool_statuses (sessionId : JsString) (actions : List SessionProjectionAction)
    (projection : ConversationProjection) :
    (runFrom (SessionProjection.step sessionId) .initial actions).projection = some projection →
      (∀ turnId stepIndex index block events,
        projection.toolAt turnId stepIndex index = some block → block.status.terminal = true →
        RunMeets reduceLive (StaysAt turnId stepIndex index) projection events →
        ∃ block', (runFrom reduceLive projection events).toolAt turnId stepIndex index =
            some block' ∧ block'.status.terminal = true) ∧
      ∀ (J T : Type) (ctx : ReducerContext J T),
        ∀ turn ∈ (reduceProjection ctx projection (.agentSettled : SessionEvent J T)).turns,
          turn.Hanging → (turn.status = .error ∨ turn.status = .aborted) ∧
            projection.activeTurnId ≠ some turn.id := by
  intro hprojection
  obtain ⟨hkeyed, hconverging⟩ := SessionProjection.run_converges sessionId actions
  refine ⟨fun turnId stepIndex index block events hblock hterminal hstays => ?_, fun J T ctx => ?_⟩
  · exact (hkeyed projection hprojection).terminal_along hstays hblock hterminal
  · exact (hconverging projection hprojection).settled (hkeyed projection hprojection) ctx

/-- A tool call, complete at the first content index. -/
def sampleToolCall : SessionEvent Json Json :=
  .messageUpdate
    { usage := ⟨0, 0, 0, 0, 0, 0, none, none, 0, 0, 0, 0⟩
      assistantMessageEvent := .toolcallEnd 0 ⟨js "c", js "bash", .null, []⟩ }

/-- Live events in the context of the samples. -/
def sampleLive (events : List (SessionEvent Json Json)) : List LiveEvent :=
  events.map fun event => { ctx := sampleKeyContext, event := event }

/-- A call that was executed. -/
def sampleToolActions : List SessionProjectionAction :=
  [.applyEvents (sampleLive
    [.agentStart, sampleToolCall, .toolExecutionEnd (js "c") (js "bash") .null false])]

/-- The executed call is not set back by an update, and nothing hangs after the agent settled. -/
theorem tool_statuses_sample :
    ∃ projection,
      (runFrom (SessionProjection.step (js "s")) .initial sampleToolActions).projection =
        some projection ∧
      (∃ block', (runFrom reduceLive projection (sampleLive [sampleToolCall])).toolAt
          (js "turn-1") 0 0 = some block' ∧ block'.status.terminal = true) ∧
      ∀ turn ∈ (reduceProjection sampleKeyContext projection .agentSettled).turns,
        turn.Hanging → (turn.status = .error ∨ turn.status = .aborted) ∧
          projection.activeTurnId ≠ some turn.id := by
  obtain ⟨projection, hprojection⟩ := Option.isSome_iff_exists.mp
    (show (runFrom (SessionProjection.step (js "s")) .initial
      sampleToolActions).projection.isSome = true by decide +kernel)
  have hfacts : (runFrom (SessionProjection.step (js "s")) .initial
      sampleToolActions).projection.map (fun p => ((p.toolAt (js "turn-1") 0 0).map (·.status),
        ((reduceLive p ⟨sampleKeyContext, sampleToolCall⟩).toolAt (js "turn-1") 0 0).isSome)) =
        some (some .done, true) := by
    decide +kernel
  rw [hprojection] at hfacts
  obtain ⟨hdone, hsome⟩ := Prod.mk.inj (Option.some.inj hfacts)
  obtain ⟨block, hblock, hstatus⟩ := Option.map_eq_some_iff.mp hdone
  have h := tool_statuses (js "s") sampleToolActions projection hprojection
  refine ⟨projection, hprojection, h.1 _ _ _ block _ hblock (by rw [hstatus]; rfl) ?_,
    h.2 Json Json sampleKeyContext⟩
  exact ⟨⟨hsome, fun _ _ => id⟩, trivial⟩

/-- An assistant message that starts with the sample call. -/
def sampleToolMessage (stopReason : StopReason) : AssistantMessage Json where
  content := [.toolCall ⟨js "c", js "bash", .null, []⟩]
  usage := ⟨0, 0, 0, 0, 0, 0, none, none, 0, 0, 0, 0⟩
  stopReason := stopReason
  errorMessage := none

/-- No terminal call is pending behind the event, whatever events came before. -/
def KeepsEveryCall (event : SessionEvent Json Json) : Prop :=
  ∀ (events : List LiveEvent) (turnId : JsString) (stepIndex index : ℕ) (old new : ToolCallBlock),
    (reduceEvents (createEmptyProjection (js "s")) events).toolAt turnId stepIndex index =
        some old → old.status.terminal = true →
    (reduceLive (reduceEvents (createEmptyProjection (js "s")) events)
        ⟨sampleKeyContext, event⟩).toolAt turnId stepIndex index = some new →
      new.toolCallId = old.toolCallId → new.status.pending = false

theorem not_keepsEveryCall {event : SessionEvent Json Json} (status : ToolCallStatus)
    (hstatus : status.pending = true)
    (hcalls : ((reduceEvents (createEmptyProjection (js "s")) (sampleLive [.agentStart,
        sampleToolCall, .toolExecutionEnd (js "c") (js "bash") .null false])).toolAt (js "turn-1") 0
          0).map (fun block => (block.toolCallId, block.status)) = some (js "c", .done) ∧
      ((reduceLive (reduceEvents (createEmptyProjection (js "s")) (sampleLive [.agentStart,
        sampleToolCall, .toolExecutionEnd (js "c") (js "bash") .null false]))
          ⟨sampleKeyContext, event⟩).toolAt (js "turn-1") 0 0).map
            (fun block => (block.toolCallId, block.status)) = some (js "c", status)) :
    ¬ KeepsEveryCall event := by
  intro h
  obtain ⟨old, hold, hdone⟩ := Option.map_eq_some_iff.mp hcalls.1
  obtain ⟨new, hnew, hagain⟩ := Option.map_eq_some_iff.mp hcalls.2
  have hid : new.toolCallId = old.toolCallId :=
    (congrArg Prod.fst hagain).trans (congrArg Prod.fst hdone).symm
  have hterminal : old.status.terminal = true :=
    (congrArg (fun call => call.2.terminal) hdone).trans rfl
  have hpending := h _ _ _ _ old new hold hterminal hnew hid
  rw [show new.status = status from congrArg Prod.snd hagain, hstatus] at hpending
  cases hpending

/-- An executed call is running when its execution starts again, and preparing when an assistant
message with the call starts in its step; and a call that follows an aborted message in its turn is
still preparing when the agent has settled after its next start. -/
theorem terminal_calls_reopen :
    ¬ KeepsEveryCall (.toolExecutionStart (js "c") (js "bash") .null) ∧
      ¬ KeepsEveryCall (.messageStart (.assistant (sampleToolMessage .toolUse))) ∧
      ¬ ∀ events : List LiveEvent, ∀ turn ∈ (reduceProjection sampleKeyContext
        (reduceEvents (createEmptyProjection (js "s")) events) .agentSettled).turns,
          ¬ turn.Hanging := by
  refine ⟨not_keepsEveryCall (.running) rfl ⟨by decide +kernel, by decide +kernel⟩,
    not_keepsEveryCall (.preparing) rfl ⟨by decide +kernel, by decide +kernel⟩,
    fun h => ?_⟩
  have hleft : (reduceProjection sampleKeyContext (reduceEvents (createEmptyProjection (js "s"))
      (sampleLive [.agentStart, sampleToolCall,
        .messageEnd (.assistant (sampleToolMessage .aborted)), sampleToolCall, .agentStart]))
          .agentSettled).turns.any (fun turn => turn.steps.any fun step => step.blocks.any
            fun entry => ((entry.bind ContentBlock.tool).any fun block =>
              block.hangs step.toolResults)) = true := by
    decide +kernel
  obtain ⟨turn, hturn, hstep⟩ := List.any_eq_true.mp hleft
  obtain ⟨step, hstep, hentry⟩ := List.any_eq_true.mp hstep
  obtain ⟨entry, hentry, hblock⟩ := List.any_eq_true.mp hentry
  obtain ⟨block, hblock, hhangs⟩ := (Option.any_eq_true _ _).mp hblock
  obtain ⟨found, rfl, hfound⟩ := Option.bind_eq_some_iff.mp hblock
  cases found with
  | toolCall tool =>
    obtain rfl := Option.some.inj hfound
    exact h _ turn hturn ⟨step, hstep, tool, hentry, hhangs⟩
  | thinking _ => cases hfound
  | text _ => cases hfound

end PiAgentWeb
