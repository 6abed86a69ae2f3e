import PiAgentWeb.UI.ProjectionReducer

/-!
# Projections of settled messages

`projection.ts`: a list of settled messages is segmented back into turns, and an older history page
is put in front of the turns that are shown. The store keeps one projection for each Session; what
is modelled is the projection of one Session and the counter of the pages put in front of it. -/

namespace PiAgentWeb

variable {J T : Type}

/-- A settled message with its time stamp, where `none` is `undefined`. -/
structure SettledMessage (J T : Type) where
  message : SessionMessage J T
  timestamp : Option ℤ

/-- The turn that a user message opens. -/
def historyTurn (turnSeq : ℕ) (content : UserMessageContent) (timestamp : Option ℤ) :
    ProductTurn :=
  let id := turnIdOf (turnSeq + 1)
  { id := id
    userMessages :=
      [{ entryKey := id ++ js ":u0", text := flattenText content, command := none,
         images := extractImages content, source := .prompt, delivered := true }]
    steps := []
    status := .settled
    errorMessage := none
    timing := some { startTime := timestamp.getD 0, endTime := some (timestamp.getD 0),
                     durationMs := none } }

/-- A block of a settled assistant message. -/
def historyBlock (representation : PayloadRepresentation J T) (key : JsString) :
    AssistantContent J → ContentBlock
  | .text text => createSettledProjectionTextBlock key text
  | .thinking text redacted =>
    .thinking { key := key, text := text, isStreaming := false, redacted := redacted }
  | .toolCall call =>
    let args := representation.jsonValue call.arguments
    .toolCall
      { key := key, toolCallId := call.id, toolName := call.name,
        argsText := toolCallArgsText representation args, args := args.value,
        argsPayload := args.payload, status := .preparing, partialOutput := none,
        partialResultPayload := none, result := none, resultPayload := none }

/-- The step of a settled assistant message. -/
def historyStep (representation : PayloadRepresentation J T) (key : JsString)
    (message : AssistantMessage J) : AssistantStep where
  key := key
  blocks := message.content.zipIdx.map fun entry =>
    some (historyBlock representation (key ++ js ":" ++ jsNat entry.2) entry.1)
  toolResults := []
  isSettled := true
  timing := none
  usage := some message.usage

/-- The rendered result of a settled tool result. -/
def historyToolResult (representation : PayloadRepresentation J T)
    (message : ToolResultMessage J T) : UiToolResult :=
  let content := projectProjectionTextSequence message.content representation
  let details := message.details.map representation.jsonValue
  { toolCallId := message.toolCallId
    toolName := message.toolName
    content := content.1
    textPayloads := content.2
    isError := message.isError
    details := details.bind (·.value)
    detailsPayload := details.bind (·.payload) }

/-- `applyToolResult`. -/
def applyToolResult (step : AssistantStep) (result : UiToolResult) : AssistantStep :=
  { step with
    toolResults := upsertResult result step.toolResults
    blocks :=
      if result.isError then
        (updateToolBlockIn result.toolCallId (fun block => { block with status := .error })
          step.blocks).getD step.blocks
      else step.blocks }

/-- The last turn takes a message that opens none. -/
def continueTurn (representation : PayloadRepresentation J T) (turn : ProductTurn) :
    SessionMessage J T → ProductTurn
  | .assistant message =>
    let key := turn.id ++ js ":" ++ jsNat turn.steps.length
    let extended := { turn with steps := turn.steps ++ [historyStep representation key message] }
    match message.stopReason with
    | .error => { extended with status := .error, errorMessage := message.errorMessage }
    | .aborted => { extended with status := .aborted }
    | _ => extended
  | .toolResult message =>
    match turn.steps.getLast? with
    | none => turn
    | some step =>
      withLastStep turn (applyToolResult step (historyToolResult representation message))
  | .user .. | .other .. => turn

/-- The loop of `rebuildProjectionFromMessages`. -/
def rebuildMessage (representation : PayloadRepresentation J T)
    (projection : ConversationProjection) (settled : SettledMessage J T) :
    ConversationProjection :=
  match settled.message with
  | .user content _ =>
    { projection with
      turns := projection.turns ++ [historyTurn projection.turnSeq content settled.timestamp]
      turnSeq := projection.turnSeq + 1 }
  | message =>
    match projection.turns.getLast? with
    | none => projection
    | some turn =>
      { projection with
        turns := projection.turns.dropLast ++ [continueTurn representation turn message] }

/-- The status of a tool call follows from the recorded results. -/
def convergeToolCall (toolResults : List UiToolResult) : ContentBlock → ContentBlock
  | .toolCall block =>
    match toolResults.find? fun result => result.toolCallId == block.toolCallId with
    | none => .toolCall { block with status := .interrupted }
    | some result => .toolCall { block with status := if result.isError then .error else .done }
  | block => block

/-- The post-processing pass of one step. -/
def convergeStep (step : AssistantStep) : AssistantStep :=
  { step with blocks := step.blocks.map (Option.map (convergeToolCall step.toolResults)) }

/-- The post-processing pass of one turn. -/
def convergeTurn (turn : ProductTurn) : ProductTurn :=
  { turn with steps := turn.steps.map convergeStep }

/-- `rebuildProjectionFromMessages`. -/
def rebuildProjectionFromMessages (representation : PayloadRepresentation J T)
    (sessionId : JsString) (messages : List (SettledMessage J T)) : ConversationProjection :=
  let projection := messages.foldl (rebuildMessage representation) (createEmptyProjection sessionId)
  { projection with turns := projection.turns.map convergeTurn }

/-- A block under another key. -/
def ContentBlock.withKey (key : JsString) : ContentBlock → ContentBlock
  | .thinking block => .thinking { block with key := key }
  | .text block => .text { block with key := key }
  | .toolCall block => .toolCall { block with key := key }

/-- A step whose keys are given by its index. -/
def AssistantStep.withKeys (keyOf : Option ℕ → JsString) (step : AssistantStep) : AssistantStep :=
  { step with
    key := keyOf none
    blocks := step.blocks.zipIdx.map fun entry =>
      entry.1.map (ContentBlock.withKey (keyOf (some entry.2))) }

/-- `remapHistoricalTurn`. -/
def remapHistoricalTurn (sessionId : JsString) (batch : ℕ) (turn : ProductTurn) : ProductTurn :=
  let id := js "history:" ++ sessionId ++ js ":" ++ jsNat batch ++ js ":" ++ turn.id
  { turn with
    id := id
    userMessages := turn.userMessages.zipIdx.map fun entry =>
      { entry.1 with entryKey := id ++ js ":u" ++ jsNat entry.2 }
    steps := turn.steps.zipIdx.map fun entry =>
      let key := id ++ js ":" ++ jsNat entry.2
      entry.1.withKeys fun
        | none => key
        | some index => key ++ js ":" ++ jsNat index }

/-- What the store keeps of one Session: its projection and the pages put in front of it. -/
structure HistoryView where
  projection : ConversationProjection
  batch : ℕ

/-- `applyAuthoritativeSnapshot` of a snapshot without projection events. -/
def applyInitialSlice (representation : PayloadRepresentation J T) (sessionId : JsString)
    (messages : List (SettledMessage J T)) : HistoryView where
  projection := rebuildProjectionFromMessages representation sessionId messages
  batch := 0

/-- `prependHistoricalMessages`. -/
def prependHistoricalMessages (representation : PayloadRepresentation J T) (sessionId : JsString)
    (view : HistoryView) (messages : List (SettledMessage J T)) : HistoryView :=
  if messages.isEmpty then view
  else
    let older := rebuildProjectionFromMessages representation sessionId messages
    if older.turns.isEmpty then view
    else
      { projection :=
          { view.projection with
            turns := older.turns.map (remapHistoricalTurn sessionId (view.batch + 1)) ++
              view.projection.turns }
        batch := view.batch + 1 }

/-- The view of an initial slice with the older pages put in front of it in turn. -/
def showPages (representation : PayloadRepresentation J T) (sessionId : JsString)
    (initial : List (SettledMessage J T)) (pages : List (List (SettledMessage J T))) :
    HistoryView :=
  pages.foldl (prependHistoricalMessages representation sessionId)
    (applyInitialSlice representation sessionId initial)

/-! ## Turns up to their keys -/

/-- A step without its generated keys. -/
def AssistantStep.erased (step : AssistantStep) : AssistantStep :=
  { step with key := [], blocks := step.blocks.map (Option.map (ContentBlock.withKey [])) }

/-- A turn without its generated keys. -/
def ProductTurn.erased (turn : ProductTurn) : ProductTurn :=
  { turn with
    id := []
    userMessages := turn.userMessages.map fun message => { message with entryKey := [] }
    steps := turn.steps.map AssistantStep.erased }

/-- Two projections show the same turns, steps, blocks and tool results, up to generated keys. -/
def SameTranscript (projection other : ConversationProjection) : Prop :=
  projection.turns.map ProductTurn.erased = other.turns.map ProductTurn.erased

@[simp] theorem ContentBlock.withKey_withKey (key other : JsString) (block : ContentBlock) :
    (block.withKey other).withKey key = block.withKey key := by
  cases block <;> rfl

@[simp] theorem AssistantStep.erased_withKeys (keyOf : Option ℕ → JsString) (step : AssistantStep) :
    (step.withKeys keyOf).erased = step.erased := by
  simp only [AssistantStep.erased, AssistantStep.withKeys, List.map_map, AssistantStep.mk.injEq,
    true_and, and_true]
  refine List.ext_getElem (by simp) fun index _ hright => ?_
  have hindex : index < step.blocks.length := by simpa using hright
  simp only [List.getElem_map, List.getElem_zipIdx, Function.comp_apply]
  cases step.blocks[index] <;> simp

@[simp] theorem erased_remapHistoricalTurn (sessionId : JsString) (batch : ℕ)
    (turn : ProductTurn) : (remapHistoricalTurn sessionId batch turn).erased = turn.erased := by
  simp only [ProductTurn.erased, remapHistoricalTurn, List.map_map, ProductTurn.mk.injEq, true_and,
    and_true]
  refine ⟨List.ext_getElem (by simp) fun index _ _ => by simp,
    List.ext_getElem (by simp) fun index _ _ => by simp⟩

theorem showPages_turns (representation : PayloadRepresentation J T) (sessionId : JsString)
    (initial : List (SettledMessage J T)) (pages : List (List (SettledMessage J T))) :
    (showPages representation sessionId initial pages).projection.turns.map ProductTurn.erased =
      (pages.reverse ++ [initial]).flatMap fun messages =>
        (rebuildProjectionFromMessages representation sessionId messages).turns.map
          ProductTurn.erased := by
  have hview : ∀ view : HistoryView,
      (pages.foldl (prependHistoricalMessages representation sessionId) view).projection.turns.map
          ProductTurn.erased =
        (pages.reverse.flatMap fun messages =>
          (rebuildProjectionFromMessages representation sessionId messages).turns.map
            ProductTurn.erased) ++ view.projection.turns.map ProductTurn.erased := by
    induction pages with
    | nil => simp
    | cons page rest ih =>
      intro view
      have hpage : (prependHistoricalMessages representation sessionId view
          page).projection.turns.map ProductTurn.erased =
            (rebuildProjectionFromMessages representation sessionId page).turns.map
              ProductTurn.erased ++ view.projection.turns.map ProductTurn.erased := by
        unfold prependHistoricalMessages
        split
        · rename_i hempty
          rw [List.isEmpty_iff.mp hempty]
          rfl
        · dsimp only
          split
          · rename_i hempty
            rw [List.isEmpty_iff.mp hempty]
            rfl
          · simp [Function.comp_def]
      rw [List.foldl_cons, ih, hpage, List.reverse_cons, List.flatMap_append, List.append_assoc]
      simp
  rw [showPages, hview, applyInitialSlice, List.flatMap_append]
  simp

end PiAgentWeb
