import PiAgentWeb.UI.UserMessagePresentation
import PiAgentWeb.UI.ViewModels

/-!
# The stream assembler

`reduceProjection` folds the Session events into the conversation projection. Deltas append per
content index; `message_end` swaps in the authoritative blocks under the same keys; only
`agent_settled` settles a running turn. The reducer is the same for raw and for content-reference
events: how JSON roots and tool texts are read is the `PayloadRepresentation` of its context.
-/

namespace PiAgentWeb

/-- A JSON root as the view models keep it: its inline value and its typed payload. -/
structure JsonValueProjection where
  value : Option Json
  payload : Option SessionJsonRoot

/-- A tool text as the view models keep it: its inline text and its typed payload. -/
structure TextValueProjection where
  text : JsString
  payload : Option SessionTextPayload

/-- How the JSON roots `J` and the tool texts `T` of an event are read. -/
structure PayloadRepresentation (J T : Type) where
  /-- The frames carry content-reference payloads. -/
  projected : Bool
  /-- `projectProjectionJsonValue`. -/
  jsonValue : J → JsonValueProjection
  /-- `projectProjectionTextValue`. -/
  textValue : T → TextValueProjection

/-- The `wire` representation: roots are raw values and have no payload. -/
def wireRepresentation : PayloadRepresentation Json Json where
  projected := false
  jsonValue value := { value := some value, payload := none }
  textValue
    | .str text => { text := text, payload := none }
    | _ => { text := [], payload := none }

/-- The localized texts of the reducer, with the numbers interpolated into them. -/
inductive LocalizedText where
  | modelError
  | contextCompacted
  | retryScheduled (attempt max seconds : ℕ)
  | retryDone
  | retryFailed
  | summaryRetryScheduled (seconds : ℕ)
  | summaryRetrying
  | summaryDone
  deriving DecidableEq

/-- `ReducerContext`, with the dictionary of the current locale. -/
structure ReducerContext (J T : Type) where
  now : ℤ
  representation : PayloadRepresentation J T
  /-- The delivery mode of a recently queued text. -/
  resolveInjectionSource : JsString → Option UiUserMessageSource
  /-- The text of a message in the current locale. -/
  tt : LocalizedText → JsString

variable {J T : Type}

/-- `projectProjectionTextSequence`: the joined text blocks and their payloads. -/
def projectProjectionTextSequence (content : List (ToolResultContent T))
    (representation : PayloadRepresentation J T) :
    JsString × Option (List SessionTextPayload) :=
  let projected := content.filterMap fun
    | .text text => some (representation.textValue text)
    | .image _ => none
  let payloads := projected.filterMap (·.payload)
  (List.intercalate [0x0A] (projected.map (·.text)),
    if payloads.isEmpty then none else some payloads)

/-- `createSettledProjectionTextBlock`. -/
def createSettledProjectionTextBlock (key text : JsString) : ContentBlock :=
  .text { key := key, markdown := text, isStreaming := false }

/-- `flattenText` of a user message. -/
def flattenText : UserMessageContent → JsString
  | .string text => text
  | .blocks blocks => List.intercalate [0x0A] (blocks.filterMap fun
    | .text text => some text
    | .image _ => none)

/-- `extractImages` of a user message. -/
def extractImages : UserMessageContent → Option (List SessionImageContent)
  | .string _ => none
  | .blocks blocks =>
    let images := blocks.filterMap fun
      | .image image => some image
      | .text _ => none
    if images.isEmpty then none else some images

/-- `flattenPartialResult`. -/
def flattenPartialResult : Option Json → Option JsString
  | none | some .null => none
  | some (.str value) => some value
  | some (.obj fields) =>
    match Json.field fields "output", Json.field fields "partial", Json.field fields "text" with
    | some (.str output), _, _ => some output
    | _, some (.str partialText), _ => some partialText
    | _, _, some (.str text) => some text
    | _, _, _ => some (Json.stringify (.obj fields))
  | some value => some (Json.stringify value)

/-- `JSON.stringify(value) ?? ""`. -/
def stringifyOrEmpty (value : Option Json) : JsString := (value.map Json.stringify).getD []

/-- The argument text of a complete tool call. -/
def toolCallArgsText (representation : PayloadRepresentation J T) (args : JsonValueProjection) :
    JsString :=
  match representation.projected, args.payload, args.value with
  | true, some (.external _), _ => []
  | true, _, value => stringifyOrEmpty value
  | false, _, none | false, _, some .null => Json.stringify (.obj [])
  | false, _, some value => Json.stringify value

/-- `activeTurn`: the turn that the active id names. -/
def activeTurn (state : ConversationProjection) : Option ProductTurn :=
  match state.activeTurnId with
  | none | some [] => none
  | some id => state.turns.find? fun turn => turn.id == id

/-- `withTurn`: replaces the turn with the id of `turn`. -/
def withTurn (state : ConversationProjection) (turn : ProductTurn) : ConversationProjection :=
  { state with turns := state.turns.map fun t => if t.id = turn.id then turn else t }

/-- `withLastStep`. -/
def withLastStep (turn : ProductTurn) (step : AssistantStep) : ProductTurn :=
  { turn with steps := turn.steps.set (turn.steps.length - 1) step }

/-- The id of the turn with a sequence number. -/
def turnIdOf (turnSeq : ℕ) : JsString := js "turn-" ++ jsNat turnSeq

/-- `ensureTurn`: the active turn, opened when there is none. -/
def ensureTurn (state : ConversationProjection) (ctx : ReducerContext J T) :
    ConversationProjection × ProductTurn :=
  match activeTurn state with
  | some existing => (state, existing)
  | none =>
    let id := turnIdOf (state.turnSeq + 1)
    let turn : ProductTurn :=
      { id := id, userMessages := [], steps := [], status := .running, errorMessage := none,
        timing := some { startTime := ctx.now, endTime := none, durationMs := none } }
    ({ state with
        turns := state.turns ++ [turn]
        turnSeq := state.turnSeq + 1
        activeTurnId := some id
        replayable := false }, turn)

/-- `ensureStep`: appends a fresh step. -/
def ensureStep (turn : ProductTurn) (ctx : ReducerContext J T) : ProductTurn × AssistantStep :=
  let step : AssistantStep :=
    { key := turn.id ++ js ":" ++ jsNat turn.steps.length, blocks := [], toolResults := [],
      isSettled := false, timing := some { startTime := ctx.now, endTime := none },
      usage := none }
  ({ turn with steps := turn.steps ++ [step] }, step)

/-- `ensureOpenStep`: the last step if it is still open, a fresh one otherwise. -/
def ensureOpenStep (turn : ProductTurn) (ctx : ReducerContext J T) :
    ProductTurn × AssistantStep :=
  match turn.steps.getLast? with
  | some latest => if latest.isSettled then ensureStep turn ctx else (turn, latest)
  | none => ensureStep turn ctx

/-- The kinds of content blocks. -/
inductive BlockKind where
  | thinking | text | toolCall
  deriving DecidableEq

/-- The kind of a block. -/
def ContentBlock.kind : ContentBlock → BlockKind
  | .thinking _ => .thinking
  | .text _ => .text
  | .toolCall _ => .toolCall

/-- An empty streaming block. -/
def emptyBlock (key : JsString) : BlockKind → ContentBlock
  | .thinking => .thinking { key := key, text := [], isStreaming := true, redacted := none }
  | .text => .text { key := key, markdown := [], isStreaming := true }
  | .toolCall => .toolCall
      { key := key, toolCallId := [], toolName := [], argsText := [], args := none,
        argsPayload := none, status := .preparing, partialOutput := none,
        partialResultPayload := none, result := none, resultPayload := none }

/-- The block at a content index; `none` beyond the array and at a hole. -/
def blockAt (blocks : List (Option ContentBlock)) (contentIndex : ℕ) : Option ContentBlock :=
  (blocks[contentIndex]?).join

/-- The indices of the elements of an array are smaller: 2^32 - 1. -/
def arrayIndexBound : ℕ := 4294967295

/-- Assignment at a content index; positions skipped beyond the end become holes. What is assigned
from the bound on is no element, and no copy of the array has it. -/
def setBlock (blocks : List (Option ContentBlock)) (contentIndex : ℕ) (block : ContentBlock) :
    List (Option ContentBlock) :=
  if arrayIndexBound ≤ contentIndex then blocks
  else if contentIndex < blocks.length then blocks.set contentIndex (some block)
  else blocks ++ List.replicate (contentIndex - blocks.length) none ++ [some block]

/-- The key of the block of a step at a content index. -/
def blockKeyOf (step : AssistantStep) (contentIndex : ℕ) : JsString :=
  step.key ++ js ":" ++ jsNat contentIndex

/-- `replaceBlock`. -/
def replaceBlock (step : AssistantStep) (contentIndex : ℕ) (block : ContentBlock) :
    AssistantStep :=
  { step with blocks := setBlock step.blocks contentIndex block }

/-- `ensureBlock`: the block at an index if it has the kind, a fresh one otherwise. -/
def ensureBlock (step : AssistantStep) (contentIndex : ℕ) (kind : BlockKind) :
    AssistantStep × ContentBlock :=
  match blockAt step.blocks contentIndex with
  | some existing =>
    if existing.kind = kind then (step, existing)
    else
      let block := emptyBlock (blockKeyOf step contentIndex) kind
      (replaceBlock step contentIndex block, block)
  | none =>
    let block := emptyBlock (blockKeyOf step contentIndex) kind
    (replaceBlock step contentIndex block, block)

/-- Patches the first tool block with an id among the blocks of a step. -/
def updateToolBlockIn (toolCallId : JsString) (patch : ToolCallBlock → ToolCallBlock) :
    List (Option ContentBlock) → Option (List (Option ContentBlock))
  | [] => none
  | some (.toolCall block) :: rest =>
    if block.toolCallId = toolCallId then some (some (.toolCall (patch block)) :: rest)
    else (updateToolBlockIn toolCallId patch rest).map (some (.toolCall block) :: ·)
  | block :: rest => (updateToolBlockIn toolCallId patch rest).map (block :: ·)

/-- Patches the first tool block with an id among the steps of a turn. -/
def updateToolBlockSteps (toolCallId : JsString) (patch : ToolCallBlock → ToolCallBlock) :
    List AssistantStep → List AssistantStep
  | [] => []
  | step :: rest =>
    match updateToolBlockIn toolCallId patch step.blocks with
    | some blocks => { step with blocks := blocks } :: rest
    | none => step :: updateToolBlockSteps toolCallId patch rest

/-- `updateToolBlock`. -/
def updateToolBlock (turn : ProductTurn) (toolCallId : JsString)
    (patch : ToolCallBlock → ToolCallBlock) : ProductTurn :=
  { turn with steps := updateToolBlockSteps toolCallId patch turn.steps }

/-- Marks the tool call of a failed result. -/
def markToolError (result : UiToolResult) : ContentBlock → ContentBlock
  | .toolCall block =>
    if block.toolCallId = result.toolCallId ∧ result.isError then
      .toolCall { block with status := .error }
    else .toolCall block
  | block => block

/-- Replaces the first result of a call, or appends one. A failure is never forgotten. -/
def upsertResult (result : UiToolResult) : List UiToolResult → List UiToolResult
  | [] => [result]
  | entry :: rest =>
    if entry.toolCallId = result.toolCallId then
      { result with isError := entry.isError || result.isError } :: rest
    else entry :: upsertResult result rest

/-- `upsertToolResult`. -/
def upsertToolResult (step : AssistantStep) (result : UiToolResult) : AssistantStep :=
  { step with
    blocks := step.blocks.map (Option.map (markToolError result))
    toolResults := upsertResult result step.toolResults }

/-- A tool call that is still preparing or running and has no result. -/
def ToolCallBlock.hangs (toolResults : List UiToolResult) (block : ToolCallBlock) : Bool :=
  (block.status = .preparing || block.status = .running) &&
    !toolResults.any fun result => result.toolCallId == block.toolCallId

/-- Interrupts a hanging tool call. -/
def interruptHanging (toolResults : List UiToolResult) : ContentBlock → ContentBlock
  | .toolCall block =>
    if block.hangs toolResults then .toolCall { block with status := .interrupted }
    else .toolCall block
  | block => block

/-- `convergeHangingToolCalls`. -/
def convergeHangingToolCalls (turn : ProductTurn) : ProductTurn :=
  { turn with
    steps := turn.steps.map fun step =>
      { step with blocks := step.blocks.map (Option.map (interruptHanging step.toolResults)) } }

/-- Replaces the first row under a key, or appends one. -/
def upsertRow (row : StatusRow) : List StatusRow → List StatusRow
  | [] => [row]
  | entry :: rest => if entry.key = row.key then row :: rest else entry :: upsertRow row rest

/-- `upsertStatusRow`. -/
def upsertStatusRow (state : ConversationProjection) (row : StatusRow) :
    ConversationProjection :=
  { state with statusRows := upsertRow row state.statusRows }

/-- The block changes of an assistant stream event on the open step. -/
def applyStreamEvent (ctx : ReducerContext J T) (step : AssistantStep) :
    AssistantMessageStreamEvent J → AssistantStep
  | .textStart contentIndex => (ensureBlock step contentIndex .text).1
  | .delta .textDelta contentIndex delta =>
    let res := ensureBlock step contentIndex .text
    match res.2 with
    | .text block =>
      replaceBlock res.1 contentIndex (.text { block with markdown := block.markdown ++ delta })
    | _ => step
  | .textEnd contentIndex content =>
    let res := ensureBlock step contentIndex .text
    match res.2 with
    | .text block =>
      replaceBlock res.1 contentIndex
        (.text { block with markdown := content, isStreaming := false })
    | _ => step
  | .thinkingStart contentIndex => (ensureBlock step contentIndex .thinking).1
  | .delta .thinkingDelta contentIndex delta =>
    let res := ensureBlock step contentIndex .thinking
    match res.2 with
    | .thinking block =>
      replaceBlock res.1 contentIndex (.thinking { block with text := block.text ++ delta })
    | _ => step
  | .thinkingEnd contentIndex content =>
    let res := ensureBlock step contentIndex .thinking
    match res.2 with
    | .thinking block =>
      replaceBlock res.1 contentIndex
        (.thinking { block with text := content, isStreaming := false })
    | _ => step
  | .toolcallStart contentIndex _ _ => (ensureBlock step contentIndex .toolCall).1
  | .delta .toolcallDelta contentIndex delta =>
    let res := ensureBlock step contentIndex .toolCall
    match res.2 with
    | .toolCall block =>
      replaceBlock res.1 contentIndex
        (.toolCall { block with argsText := block.argsText ++ delta })
    | _ => step
  | .toolcallEnd contentIndex toolCall =>
    let res := ensureBlock step contentIndex .toolCall
    match res.2 with
    | .toolCall block =>
      let args := ctx.representation.jsonValue toolCall.arguments
      let argsText :=
        if ctx.representation.projected then
          match args.payload with
          | some (.external _) => []
          | _ => if block.argsText.isEmpty then stringifyOrEmpty args.value else block.argsText
        else block.argsText
      replaceBlock res.1 contentIndex
        (.toolCall { block with
          toolCallId := toolCall.id
          toolName := toolCall.name
          argsText := argsText
          args := args.value
          argsPayload := args.payload <|> block.argsPayload })
    | _ => step
  | .start | .done .. | .error .. => step

/-- `handleMessageUpdate`. -/
def handleMessageUpdate (state : ConversationProjection) (ctx : ReducerContext J T)
    (event : MessageUpdate J) : ConversationProjection :=
  let ensured := ensureTurn state ctx
  let stepped := ensureOpenStep ensured.2 ctx
  let finalStep := applyStreamEvent ctx stepped.2 event.assistantMessageEvent
  withTurn ensured.1 (withLastStep stepped.1 { finalStep with usage := some event.usage })

/-- A content block of a complete assistant message. A tool call keeps what the block under the
same key has recorded. -/
def finalBlock (ctx : ReducerContext J T) (key : JsString) (historicalError : JsString → Bool)
    (existing : Option ContentBlock) : AssistantContent J → ContentBlock
  | .thinking thinking redacted =>
    .thinking { key := key, text := thinking, isStreaming := false, redacted := redacted }
  | .toolCall toolCall =>
    let args := ctx.representation.jsonValue toolCall.arguments
    let previous : Option ToolCallBlock :=
      match existing with
      | some (.toolCall block) => some block
      | _ => none
    .toolCall
      { key := key
        toolCallId := toolCall.id
        toolName := toolCall.name
        argsText := toolCallArgsText ctx.representation args
        args := args.value
        argsPayload := args.payload
        status :=
          if historicalError toolCall.id then .error
          else (previous.map (·.status)).getD .preparing
        partialOutput := previous.bind (·.partialOutput)
        partialResultPayload := previous.bind (·.partialResultPayload)
        result := previous.bind (·.result)
        resultPayload := previous.bind (·.resultPayload) }
  | .text text => createSettledProjectionTextBlock key text

/-- `handleMessageStart` for a user message. -/
def handleUserMessageStart (state : ConversationProjection) (ctx : ReducerContext J T)
    (content : UserMessageContent) : ConversationProjection :=
  let ensured := ensureTurn state ctx
  let presented := presentUserMessage (flattenText content)
  let explicitSource := ctx.resolveInjectionSource (serializePresentedUserMessage presented)
  let hasPriorConversationWork :=
    !ensured.2.userMessages.isEmpty ||
      ensured.2.steps.any fun step =>
        !step.blocks.isEmpty || !step.toolResults.isEmpty || step.isSettled
  let source := explicitSource.getD (if hasPriorConversationWork then .steer else .prompt)
  let message : UiUserMessage :=
    { entryKey := ensured.2.id ++ js ":u" ++ jsNat ensured.2.userMessages.length
      text := presented.text
      command := presented.command.filter fun command => !command.isEmpty
      images := extractImages content
      source := source
      delivered := true }
  withTurn ensured.1 { ensured.2 with userMessages := ensured.2.userMessages ++ [message] }

/-- `handleMessageStart` for an assistant message: seeds content that is already present. -/
def handleAssistantMessageStart (state : ConversationProjection) (ctx : ReducerContext J T)
    (message : AssistantMessage J) : ConversationProjection :=
  let ensured := ensureTurn state ctx
  let stepped := ensureOpenStep ensured.2 ctx
  let seeded := message.content.zipIdx.map fun entry =>
    some (finalBlock ctx (blockKeyOf stepped.2 entry.2) (fun _ => false) none entry.1)
  let step := if seeded.isEmpty then stepped.2 else { stepped.2 with blocks := seeded }
  withTurn ensured.1 (withLastStep stepped.1 step)

/-- `handleMessageStart` for a tool result. -/
def handleToolResultMessageStart (state : ConversationProjection) (ctx : ReducerContext J T)
    (message : ToolResultMessage J T) : ConversationProjection :=
  let ensured := ensureTurn state ctx
  match ensured.2.steps.getLast? with
  | none => state
  | some last =>
    let content := projectProjectionTextSequence message.content ctx.representation
    let details := message.details.map ctx.representation.jsonValue
    let result : UiToolResult :=
      { toolCallId := message.toolCallId
        toolName := message.toolName
        content := content.1
        textPayloads := content.2
        isError := message.isError
        details := details.bind (·.value)
        detailsPayload := details.bind (·.payload) }
    withTurn ensured.1 (withLastStep ensured.2 (upsertToolResult last result))

/-- `handleMessageStart`. -/
def handleMessageStart (state : ConversationProjection) (ctx : ReducerContext J T) :
    SessionMessage J T → ConversationProjection
  | .user content _ => handleUserMessageStart state ctx content
  | .assistant message => handleAssistantMessageStart state ctx message
  | .toolResult message => handleToolResultMessageStart state ctx message
  | .other .. => state

/-- The tool calls of a step whose model was cut off never run. -/
def skipPreparing : ContentBlock → ContentBlock
  | .toolCall block =>
    if block.status = .preparing then .toolCall { block with status := .skipped }
    else .toolCall block
  | block => block

/-- `handleMessageEnd` for an assistant message on the last step of the active turn. -/
def settleAssistantStep (ctx : ReducerContext J T) (last : AssistantStep)
    (message : AssistantMessage J) : AssistantStep :=
  let markedLast :=
    if message.stopReason = .length then
      { last with blocks := last.blocks.map (Option.map skipPreparing) }
    else last
  let historicalError := fun toolCallId =>
    markedLast.toolResults.any fun result => result.toolCallId == toolCallId && result.isError
  let blocks := message.content.zipIdx.map fun entry =>
    some (finalBlock ctx (blockKeyOf markedLast entry.2) historicalError
      (blockAt markedLast.blocks entry.2) entry.1)
  { markedLast with
    blocks := blocks
    isSettled := true
    timing := some
      { startTime := (markedLast.timing.map (·.startTime)).getD ctx.now, endTime := some ctx.now }
    usage := some message.usage }

/-- `handleMessageEnd`. -/
def handleMessageEnd (state : ConversationProjection) (ctx : ReducerContext J T) :
    SessionMessage J T → ConversationProjection
  | .assistant message =>
    let ensured := ensureTurn state ctx
    match ensured.2.steps.getLast? with
    | none => state
    | some last =>
      let turn := withLastStep ensured.2 (settleAssistantStep ctx last message)
      let finalTurn :=
        match message.stopReason with
        | .error => convergeHangingToolCalls
            { turn with
              status := .error
              errorMessage := some (message.errorMessage.getD (ctx.tt .modelError)) }
        | .aborted => convergeHangingToolCalls { turn with status := .aborted }
        | _ => turn
      withTurn ensured.1 finalTurn
  | _ => state

/-- The status of a tool block after its execution has moved on; a skipped block stays skipped. -/
def ToolCallBlock.advanceStatus (block : ToolCallBlock) (status : ToolCallStatus) :
    ToolCallStatus :=
  if block.status = .skipped then .skipped else status

/-- The state of a compaction row after `compaction_end`. -/
def compactionEndState (aborted : Bool) (errorMessage : Option JsString) : StatusRowState :=
  if aborted || (errorMessage.filter fun text => !text.isEmpty).isSome then .compactionFailed
  else .compactionDone

/-- `Math.round(delayMs / 1000)`. -/
def roundSeconds (delayMs : ℕ) : ℕ := (delayMs + 500) / 1000

/-- `reduceProjection`. -/
def reduceProjection (ctx : ReducerContext J T) (state : ConversationProjection) :
    SessionEvent J T → ConversationProjection
  | .agentStart =>
    let settled :=
      { state with
        turns := state.turns.map fun turn =>
          if some turn.id = state.activeTurnId ∧ turn.status = .running then
            convergeHangingToolCalls { turn with status := .settled }
          else turn
        activeTurnId := none
        replayable := false }
    (ensureTurn settled ctx).1
  | .turnStart =>
    let ensured := ensureTurn state ctx
    withTurn ensured.1 (ensureStep ensured.2 ctx).1
  | .messageStart message => handleMessageStart state ctx message
  | .messageUpdate update => handleMessageUpdate state ctx update
  | .messageEnd message => handleMessageEnd state ctx message
  | .toolExecutionStart toolCallId _ args =>
    let ensured := ensureTurn state ctx
    let args := ctx.representation.jsonValue args
    withTurn ensured.1 (updateToolBlock ensured.2 toolCallId fun block =>
      { block with
        status := block.advanceStatus .running
        args := args.value
        argsText :=
          if ctx.representation.projected then toolCallArgsText ctx.representation args
          else block.argsText
        argsPayload := args.payload <|> block.argsPayload })
  | .toolExecutionUpdate toolCallId _ _ partialResult =>
    let ensured := ensureTurn state ctx
    let partialResult := ctx.representation.jsonValue partialResult
    withTurn ensured.1 (updateToolBlock ensured.2 toolCallId fun block =>
      { block with
        partialOutput := flattenPartialResult partialResult.value <|> block.partialOutput
        partialResultPayload := partialResult.payload <|> block.partialResultPayload })
  | .toolExecutionEnd toolCallId _ result isError =>
    let ensured := ensureTurn state ctx
    let result := ctx.representation.jsonValue result
    withTurn ensured.1 (updateToolBlock ensured.2 toolCallId fun block =>
      { block with
        status := block.advanceStatus (if isError then .error else .done)
        result := result.value
        resultPayload := result.payload <|> block.resultPayload
        partialOutput := block.partialOutput <|> flattenPartialResult result.value })
  | .turnEnd .. =>
    let ensured := ensureTurn state ctx
    match ensured.2.steps.getLast? with
    | none => state
    | some last =>
      withTurn ensured.1 (withLastStep ensured.2
        { last with
          isSettled := true
          timing := some
            { startTime := (last.timing.map (·.startTime)).getD ctx.now,
              endTime := some ctx.now } })
  | .agentEnd .. => state
  | .agentSettled =>
    match activeTurn state with
    | none => { state with replayable := true }
    | some turn =>
      let convergedTurn := convergeHangingToolCalls turn
      let status :=
        if convergedTurn.status = .error ∨ convergedTurn.status = .aborted then
          convergedTurn.status
        else .settled
      let startTime := (convergedTurn.timing.map (·.startTime)).getD ctx.now
      withTurn { state with activeTurnId := none, replayable := true }
        { convergedTurn with
          status := status
          timing := some
            { startTime := startTime, endTime := some ctx.now,
              durationMs := some (ctx.now - startTime) } }
  | .queueUpdate steering followUp =>
    { state with queue := { steering := steering, followUp := followUp } }
  | .compactionStart reason =>
    upsertStatusRow state
      { key := js "compaction", state := .compactionRunning, detail := some reason.text }
  | .compactionEnd hasResult aborted _ errorMessage _ =>
    upsertStatusRow state
      { key := js "compaction"
        state := compactionEndState aborted errorMessage
        detail := errorMessage <|> (if hasResult then some (ctx.tt .contextCompacted) else none) }
  | .autoRetryStart attempt maxAttempts delayMs _ =>
    upsertStatusRow state
      { key := js "retry"
        state := .retryWaiting
        detail := some (ctx.tt (.retryScheduled attempt maxAttempts (roundSeconds delayMs))) }
  | .autoRetryEnd success finalError _ =>
    upsertStatusRow state
      { key := js "retry"
        state := .retryDone
        detail := some (if success then ctx.tt .retryDone
          else finalError.getD (ctx.tt .retryFailed)) }
  | .summarizationRetryScheduled delayMs .. =>
    upsertStatusRow state
      { key := js "compaction"
        state := .compactionRunning
        detail := some (ctx.tt (.summaryRetryScheduled (roundSeconds delayMs))) }
  | .summarizationRetryAttemptStart .. =>
    upsertStatusRow state
      { key := js "compaction", state := .compactionRunning,
        detail := some (ctx.tt .summaryRetrying) }
  | .summarizationRetryFinished =>
    upsertStatusRow state
      { key := js "compaction", state := .compactionDone, detail := some (ctx.tt .summaryDone) }
  | .bashExecutionUpdate .. | .thinkingLevelChanged _ | .sessionInfoChanged _ | .entryAppended _
  | .extensionError _ _ _ => state

end PiAgentWeb
