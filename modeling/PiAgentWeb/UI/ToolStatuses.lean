import PiAgentWeb.UI.ProjectionKeyRuns

/-!
# The status of a tool call

A tool block is found at its place: the id of its turn, the index of its step and its content
index. Almost every event leaves a block that is done, failed or skipped in such a state as long as
there is a tool block at its place; the exceptions are the start of its execution, which only a
skipped block resists, and an assistant message that starts with content, which is put into the
open step anew.
-/

namespace PiAgentWeb

variable {J T : Type}

/-- The status is final: the call was executed, or it never will be. -/
def ToolCallStatus.terminal : ToolCallStatus → Bool
  | .done | .error | .skipped => true
  | .preparing | .running | .interrupted => false

/-- The call is still to be executed. -/
def ToolCallStatus.pending : ToolCallStatus → Bool
  | .preparing | .running => true
  | .done | .error | .skipped | .interrupted => false

/-- A block that is a tool call. -/
def ContentBlock.tool : ContentBlock → Option ToolCallBlock
  | .toolCall block => some block
  | _ => none

/-- The tool block of a step at a content index. -/
def AssistantStep.toolAt (step : AssistantStep) (index : ℕ) : Option ToolCallBlock :=
  (blockAt step.blocks index).bind ContentBlock.tool

/-- The tool block of a turn at a step and a content index. -/
def ProductTurn.toolAt (turn : ProductTurn) (stepIndex index : ℕ) : Option ToolCallBlock :=
  turn.steps[stepIndex]?.bind (·.toolAt index)

/-- The tool block of a projection at its place. -/
def ConversationProjection.toolAt (projection : ConversationProjection) (turnId : JsString)
    (stepIndex index : ℕ) : Option ToolCallBlock :=
  (projection.turns.find? (·.id == turnId)).bind (·.toolAt stepIndex index)

theorem toolAt_eq_some {step : AssistantStep} {index : ℕ} {block : ToolCallBlock} :
    step.toolAt index = some block ↔ blockAt step.blocks index = some (.toolCall block) := by
  unfold AssistantStep.toolAt
  cases hfound : blockAt step.blocks index with
  | none => simp
  | some found => cases found <;> simp [ContentBlock.tool]

/-! ## Steps -/

variable {exempt : ToolCallBlock → Prop}

/-- Where a tool block that is not exempt is terminal before and there is one after, it is
terminal. -/
def KeepsTerminal (exempt : ToolCallBlock → Prop) (before after : Option ToolCallBlock) : Prop :=
  ∀ old new, before = some old → ¬ exempt old → old.status.terminal = true → after = some new →
    new.status.terminal = true

theorem KeepsTerminal.rfl {before : Option ToolCallBlock} : KeepsTerminal exempt before before := by
  intro old new hold _ hterminal hnew
  obtain rfl := Option.some.inj (hold.symm.trans hnew)
  exact hterminal

theorem KeepsTerminal.map {before after : Option ToolCallBlock}
    (h : KeepsTerminal exempt before after) {f : ToolCallBlock → ToolCallBlock}
    (hf : ∀ block, block.status.terminal = true → (f block).status.terminal = true) :
    KeepsTerminal exempt before (after.map f) := by
  intro old new hold hexempt hterminal hnew
  obtain ⟨middle, hmiddle, rfl⟩ := Option.map_eq_some_iff.mp hnew
  exact hf middle (h old middle hold hexempt hterminal hmiddle)

/-- The step keeps its terminal blocks. -/
def StepKeeps (exempt : ToolCallBlock → Prop) (step step' : AssistantStep) : Prop :=
  ∀ index, KeepsTerminal exempt (step.toolAt index) (step'.toolAt index)

theorem toolAt_map {step step' : AssistantStep} {f : ContentBlock → ContentBlock}
    {g : ToolCallBlock → ToolCallBlock} (hf : ∀ block, (f block).tool = block.tool.map g)
    (hblocks : step'.blocks = step.blocks.map (Option.map f)) (index : ℕ) :
    step'.toolAt index = (step.toolAt index).map g := by
  unfold AssistantStep.toolAt blockAt
  rw [hblocks, List.getElem?_map]
  cases step.blocks[index]? with
  | none => rfl
  | some entry =>
    cases entry with
    | none => rfl
    | some block => exact hf block

/-- The tool block as a failed result leaves it. -/
def failedTool (result : UiToolResult) (block : ToolCallBlock) : ToolCallBlock :=
  if block.toolCallId = result.toolCallId ∧ result.isError then { block with status := .error }
  else block

/-- The tool block as an interruption leaves it. -/
def interruptedTool (toolResults : List UiToolResult) (block : ToolCallBlock) : ToolCallBlock :=
  if block.hangs toolResults then { block with status := .interrupted } else block

/-- The tool block as a cut-off message leaves it. -/
def skippedTool (block : ToolCallBlock) : ToolCallBlock :=
  if block.status = .preparing then { block with status := .skipped } else block

theorem tool_markToolError (result : UiToolResult) (block : ContentBlock) :
    (markToolError result block).tool = block.tool.map (failedTool result) := by
  cases block with
  | toolCall block =>
    by_cases h : block.toolCallId = result.toolCallId ∧ result.isError = true <;>
      simp [markToolError, failedTool, ContentBlock.tool, h]
  | _ => rfl

theorem tool_interruptHanging (toolResults : List UiToolResult) (block : ContentBlock) :
    (interruptHanging toolResults block).tool = block.tool.map (interruptedTool toolResults) := by
  cases block with
  | toolCall block =>
    by_cases h : block.hangs toolResults = true <;>
      simp [interruptHanging, interruptedTool, ContentBlock.tool, h]
  | _ => rfl

theorem tool_skipPreparing (block : ContentBlock) :
    (skipPreparing block).tool = block.tool.map skippedTool := by
  cases block with
  | toolCall block =>
    by_cases h : block.status = .preparing <;>
      simp [skipPreparing, skippedTool, ContentBlock.tool, h]
  | _ => rfl

theorem toolAt_upsertToolResult (step : AssistantStep) (result : UiToolResult) (index : ℕ) :
    (upsertToolResult step result).toolAt index = (step.toolAt index).map (failedTool result) :=
  toolAt_map (tool_markToolError result) rfl index

theorem toolAt_interruptHanging (step : AssistantStep) (index : ℕ) :
    AssistantStep.toolAt
        { step with blocks := step.blocks.map (Option.map (interruptHanging step.toolResults)) }
        index =
      (step.toolAt index).map (interruptedTool step.toolResults) :=
  toolAt_map (tool_interruptHanging step.toolResults) rfl index

theorem terminal_failedTool (result : UiToolResult) (block : ToolCallBlock)
    (h : block.status.terminal = true) : (failedTool result block).status.terminal = true := by
  unfold failedTool
  split
  · rfl
  · exact h

theorem terminal_interruptedTool (toolResults : List UiToolResult) (block : ToolCallBlock)
    (h : block.status.terminal = true) :
    (interruptedTool toolResults block).status.terminal = true := by
  have hhangs : block.hangs toolResults = false := by
    unfold ToolCallBlock.hangs
    cases hstatus : block.status <;> simp_all [ToolCallStatus.terminal]
  rwa [interruptedTool, hhangs, if_neg Bool.false_ne_true]

theorem terminal_skippedTool (block : ToolCallBlock) (h : block.status.terminal = true) :
    (skippedTool block).status.terminal = true := by
  unfold skippedTool
  split
  · rfl
  · exact h

theorem toolAt_ensureBlock (step : AssistantStep) (index : ℕ) (kind : BlockKind)
    {old : ToolCallBlock} (hold : step.toolAt index = some old) :
    (ensureBlock step index kind).2 = .toolCall old ∨
      (ensureBlock step index kind).2.tool = none := by
  rw [toolAt_eq_some] at hold
  unfold ensureBlock
  rw [hold]
  dsimp only
  cases kind with
  | toolCall => exact .inl rfl
  | thinking => exact .inr rfl
  | text => exact .inr rfl

theorem status_applyStreamEvent (ctx : ReducerContext J T) (step : AssistantStep)
    (event : AssistantMessageStreamEvent J) {index : ℕ} {old new : ToolCallBlock}
    (hold : step.toolAt index = some old)
    (hnew : (applyStreamEvent ctx step event).toolAt index = some new) :
    new.status = old.status := by
  have hreplaced : ∀ (place : ℕ) (kind : BlockKind) (block : ContentBlock),
      (place = index → ∀ tool, block.tool = some tool →
        ∃ found, (ensureBlock step place kind).2 = .toolCall found ∧ tool.status = found.status) →
      (replaceBlock step place block).toolAt index = some new → new.status = old.status := by
    intro place kind block hblock hfound
    rcases Nat.lt_or_ge place arrayIndexBound with hindex | hbound
    swap
    · rw [replaceBlock_of_le hbound, hold] at hfound
      obtain rfl := Option.some.inj hfound
      rfl
    rw [toolAt_eq_some, replaceBlock] at hfound
    by_cases hplace : place = index
    · subst hplace
      rw [blockAt_setBlock _ hindex, Option.some.injEq] at hfound
      subst hfound
      obtain ⟨found, hensured, hstatus⟩ := hblock rfl new rfl
      rcases toolAt_ensureBlock step place kind hold with hsame | hnone
      · rw [hensured] at hsame
        cases hsame
        exact hstatus
      · rw [hensured] at hnone
        cases hnone
    · rw [blockAt_setBlock_of_ne _ (Ne.symm hplace), ← toolAt_eq_some, hold] at hfound
      obtain rfl := Option.some.inj hfound
      rfl
  have hensure : ∀ place kind, (ensureBlock step place kind).1.toolAt index = some new →
      new.status = old.status := by
    intro place kind hfound
    by_cases hplace : place = index
    · subst hplace
      rcases Nat.lt_or_ge place arrayIndexBound with hindex | hbound
      swap
      · rw [ensureBlock_of_le hbound, hold] at hfound
        obtain rfl := Option.some.inj hfound
        rfl
      rw [toolAt_eq_some, blockAt_ensureBlock step hindex, Option.some.injEq] at hfound
      rcases toolAt_ensureBlock step place kind hold with hsame | hnone
      · rw [hfound] at hsame
        cases hsame
        rfl
      · rw [hfound] at hnone
        cases hnone
    · have hother : blockAt (ensureBlock step place kind).1.blocks index =
          blockAt step.blocks index := by
        unfold ensureBlock
        split
        · split
          · rfl
          · exact blockAt_setBlock_of_ne _ (Ne.symm hplace) _
        · exact blockAt_setBlock_of_ne _ (Ne.symm hplace) _
      rw [toolAt_eq_some, hother, ← toolAt_eq_some, hold] at hfound
      obtain rfl := Option.some.inj hfound
      rfl
  have hsame : step.toolAt index = some new → new.status = old.status := by
    intro hfound
    obtain rfl := Option.some.inj (hold.symm.trans hfound)
    rfl
  cases event with
  | start => exact hsame hnew
  | done => exact hsame hnew
  | error => exact hsame hnew
  | textStart place => exact hensure place .text hnew
  | thinkingStart place => exact hensure place .thinking hnew
  | toolcallStart place => exact hensure place .toolCall hnew
  | delta type place delta =>
    rw [applyStreamEvent_delta] at hnew
    refine hreplaced place type.blockKind _ (fun _ tool htool => ?_) hnew
    cases hblock : (ensureBlock step place type.blockKind).2 with
    | toolCall found =>
      rw [hblock] at htool
      exact ⟨found, rfl, by cases htool; rfl⟩
    | _ => rw [hblock] at htool; cases htool
  | textEnd place content =>
    obtain ⟨-, hreplace⟩ := ensureBlock_spec step place .text
    simp only [applyStreamEvent] at hnew
    split at hnew
    · rw [hreplace] at hnew
      exact hreplaced place .text _ (fun _ tool htool => by cases htool) hnew
    · exact hsame hnew
  | thinkingEnd place content =>
    obtain ⟨-, hreplace⟩ := ensureBlock_spec step place .thinking
    simp only [applyStreamEvent] at hnew
    split at hnew
    · rw [hreplace] at hnew
      exact hreplaced place .thinking _ (fun _ tool htool => by cases htool) hnew
    · exact hsame hnew
  | toolcallEnd place toolCall =>
    obtain ⟨-, hreplace⟩ := ensureBlock_spec step place .toolCall
    simp only [applyStreamEvent] at hnew
    split at hnew
    · next block hblock =>
      rw [hreplace] at hnew
      exact hreplaced place .toolCall _ (fun _ tool htool => ⟨block, hblock, by cases htool; rfl⟩)
        hnew
    · exact hsame hnew

theorem stepKeeps_settle (ctx : ReducerContext J T) (step : AssistantStep)
    (message : AssistantMessage J) :
    StepKeeps exempt step (settleAssistantStep ctx step message) := by
  intro index old new hold _ hterminal hnew
  have hmarked : ∀ marked : AssistantStep,
      (∃ found, marked.toolAt index = some found ∧ found.status.terminal = true) →
      ∀ (key : AssistantContent J × ℕ → JsString) (failed : JsString → Bool),
      (blockAt (message.content.zipIdx.map fun entry =>
        some (finalBlock ctx (key entry) failed (blockAt marked.blocks entry.2) entry.1)) index) =
          some (.toolCall new) → new.status.terminal = true := by
    rintro marked ⟨found, hfound, hstatus⟩ key failed hblock
    obtain ⟨item, -, hitem⟩ := blockAt_zipIdx_map hblock
    rw [toolAt_eq_some] at hfound
    rw [hfound] at hitem
    cases item with
    | toolCall call =>
      simp only [finalBlock, ContentBlock.toolCall.injEq] at hitem
      subst hitem
      dsimp only
      split
      · rfl
      · exact hstatus
    | text text => cases hitem
    | thinking text redacted => cases hitem
  rw [toolAt_eq_some] at hnew
  unfold settleAssistantStep at hnew
  split at hnew
  · refine hmarked _ ⟨skippedTool old, ?_, terminal_skippedTool old hterminal⟩ _ _ hnew
    rw [toolAt_map (g := skippedTool) tool_skipPreparing rfl, hold]
    rfl
  · exact hmarked step ⟨old, hold, hterminal⟩ _ _ hnew

/-! ## Turns -/

/-- The turn keeps its terminal blocks. -/
def TurnKeeps (exempt : ℕ → ToolCallBlock → Prop) (turn turn' : ProductTurn) : Prop :=
  ∀ stepIndex index,
    KeepsTerminal (exempt stepIndex) (turn.toolAt stepIndex index) (turn'.toolAt stepIndex index)

variable {turn turn' : ProductTurn} {exempt : ℕ → ToolCallBlock → Prop}

theorem TurnKeeps.of_same (hsteps : turn'.steps = turn.steps) : TurnKeeps exempt turn turn' := by
  intro stepIndex index
  unfold ProductTurn.toolAt
  rw [hsteps]
  exact .rfl

theorem TurnKeeps.congr {last : ProductTurn} (h : TurnKeeps exempt turn turn')
    (hsteps : last.steps = turn'.steps) : TurnKeeps exempt turn last := by
  intro stepIndex index
  unfold ProductTurn.toolAt
  rw [hsteps]
  exact h stepIndex index

theorem TurnKeeps.set {stepIndex : ℕ} {step step' : AssistantStep}
    (hstep : turn.steps[stepIndex]? = some step) (hkeeps : StepKeeps (exempt stepIndex) step step')
    (hsteps : turn'.steps = turn.steps.set stepIndex step') : TurnKeeps exempt turn turn' := by
  intro place index
  unfold ProductTurn.toolAt
  rw [hsteps]
  by_cases hplace : stepIndex = place
  · subst hplace
    rw [List.getElem?_set_self (List.getElem?_eq_some_iff.mp hstep).1, hstep]
    exact hkeeps index
  · rw [List.getElem?_set_ne hplace]
    exact .rfl

theorem TurnKeeps.withLastStep {last step : AssistantStep}
    (hlast : turn.steps.getLast? = some last)
    (hkeeps : StepKeeps (exempt (turn.steps.length - 1)) last step) :
    TurnKeeps exempt turn (withLastStep turn step) := by
  rw [List.getLast?_eq_getElem?] at hlast
  exact .set hlast hkeeps rfl

theorem toolAt_ensureStep (turn : ProductTurn) (ctx : ReducerContext J T) (stepIndex index : ℕ) :
    (ensureStep turn ctx).1.toolAt stepIndex index = turn.toolAt stepIndex index := by
  unfold ProductTurn.toolAt ensureStep
  rcases Nat.lt_trichotomy stepIndex turn.steps.length with hlt | heq | hgt
  · rw [List.getElem?_append_left hlt]
  · subst heq
    simp [AssistantStep.toolAt, blockAt]
  · rw [List.getElem?_eq_none (by simp; omega), List.getElem?_eq_none (by omega)]

theorem toolAt_ensureOpenStep (turn : ProductTurn) (ctx : ReducerContext J T)
    (stepIndex index : ℕ) :
    (ensureOpenStep turn ctx).1.toolAt stepIndex index = turn.toolAt stepIndex index := by
  unfold ensureOpenStep
  split
  · split
    · exact toolAt_ensureStep turn ctx stepIndex index
    · rfl
  · exact toolAt_ensureStep turn ctx stepIndex index

theorem TurnKeeps.converge (h : TurnKeeps exempt turn turn') :
    TurnKeeps exempt turn (convergeHangingToolCalls turn') := by
  intro stepIndex index old new hold hexempt hterminal hnew
  unfold ProductTurn.toolAt convergeHangingToolCalls at hnew
  rw [List.getElem?_map] at hnew
  cases hstep : turn'.steps[stepIndex]? with
  | none => simp [hstep] at hnew
  | some step =>
    rw [hstep, Option.map_some, Option.bind_some, toolAt_interruptHanging] at hnew
    refine (KeepsTerminal.map (h stepIndex index) (terminal_interruptedTool step.toolResults)) old
      new hold hexempt hterminal ?_
    rw [ProductTurn.toolAt, hstep]
    exact hnew

theorem TurnKeeps.updateToolBlock (toolCallId : JsString) {patch : ToolCallBlock → ToolCallBlock}
    (hpatch : ∀ (stepIndex : ℕ) (block : ToolCallBlock), block.toolCallId = toolCallId →
      ¬ exempt stepIndex block → block.status.terminal = true →
      (patch block).status.terminal = true) :
    TurnKeeps exempt turn (updateToolBlock turn toolCallId patch) := by
  rcases updateToolBlockSteps_eq toolCallId patch turn.steps with
    hsame | ⟨stepIndex, step, blocks, hstep, hblocks, hsteps⟩
  · exact .of_same hsame
  · refine .set hstep (fun index old new hold hexempt hterminal hnew => ?_) hsteps
    obtain ⟨place, block, hblock, hid, rfl⟩ := updateToolBlockIn_eq hblocks
    rw [toolAt_eq_some] at hold hnew
    by_cases hplace : place = index
    · subst hplace
      have hlength : place < step.blocks.length := (List.getElem?_eq_some_iff.mp hblock).1
      simp only [blockAt, hblock, Option.join_some, Option.some.injEq,
        ContentBlock.toolCall.injEq] at hold
      simp only [blockAt, List.getElem?_set_self hlength, Option.join_some, Option.some.injEq,
        ContentBlock.toolCall.injEq] at hnew
      subst hold hnew
      exact hpatch stepIndex block hid hexempt hterminal
    · simp only [blockAt, List.getElem?_set_ne hplace] at hnew
      rw [blockAt, hnew, Option.some.injEq, ContentBlock.toolCall.injEq] at hold
      subst hold
      exact hterminal

end PiAgentWeb
