import PiAgentWeb.Protocol.SessionEvents

/-!
# View models of the conversation projection

The product layer renders a projection of the Session events: turns, their assistant steps and
content blocks, transient status rows and the message queue.
-/

namespace PiAgentWeb

/-- The status of a turn. -/
inductive TurnStatus where
  | running | settled | aborted | error
  deriving DecidableEq

/-- How a user message entered the conversation. -/
inductive UiUserMessageSource where
  | prompt | steer | followUp
  deriving DecidableEq

/-- A rendered user message. -/
structure UiUserMessage where
  /-- Stable key: the turn id and the ordinal of the message. -/
  entryKey : JsString
  text : JsString
  command : Option JsString
  images : Option (List SessionImageContent)
  source : UiUserMessageSource
  delivered : Bool

/-- The status of a tool call. -/
inductive ToolCallStatus where
  | preparing | running | done | error | skipped | interrupted
  deriving DecidableEq

/-- A block of streamed reasoning. -/
structure ThinkingBlock where
  key : JsString
  text : JsString
  isStreaming : Bool
  redacted : Option Bool

/-- A block of streamed Markdown. -/
structure TextBlock where
  key : JsString
  markdown : JsString
  isStreaming : Bool

/-- A tool call with its arguments and results; `none` is `undefined`. -/
structure ToolCallBlock where
  key : JsString
  toolCallId : JsString
  toolName : JsString
  argsText : JsString
  args : Option Json
  argsPayload : Option SessionJsonRoot
  status : ToolCallStatus
  partialOutput : Option JsString
  partialResultPayload : Option SessionJsonRoot
  result : Option Json
  resultPayload : Option SessionJsonRoot

/-- A content block of an assistant step. -/
inductive ContentBlock where
  | thinking (block : ThinkingBlock)
  | text (block : TextBlock)
  | toolCall (block : ToolCallBlock)

/-- A rendered tool result. -/
structure UiToolResult where
  toolCallId : JsString
  toolName : JsString
  content : JsString
  textPayloads : Option (List SessionTextPayload)
  isError : Bool
  details : Option Json
  detailsPayload : Option SessionJsonRoot

/-- Start and end of a step. -/
structure StepTiming where
  startTime : ℤ
  endTime : Option ℤ

/-- Start, end and duration of a turn. -/
structure TurnTiming where
  startTime : ℤ
  endTime : Option ℤ
  durationMs : Option ℤ

/-- One assistant step. A block position may be a hole of the sparse block array. -/
structure AssistantStep where
  key : JsString
  blocks : List (Option ContentBlock)
  toolResults : List UiToolResult
  isSettled : Bool
  timing : Option StepTiming
  usage : Option Usage

/-- One turn of the conversation. -/
structure ProductTurn where
  id : JsString
  userMessages : List UiUserMessage
  steps : List AssistantStep
  status : TurnStatus
  errorMessage : Option JsString
  timing : Option TurnTiming

/-- The kind of a status row, and its state. -/
inductive StatusRowState where
  | compactionRunning | compactionDone | compactionFailed | retryWaiting | retryDone
  deriving DecidableEq

/-- A transient status row rendered between turns. -/
structure StatusRow where
  key : JsString
  state : StatusRowState
  detail : Option JsString

/-- The pending messages of a running turn. -/
structure MessageQueue where
  steering : List JsString
  followUp : List JsString

/-- The projection of a Session that the UI renders. -/
structure ConversationProjection where
  sessionId : JsString
  turns : List ProductTurn
  statusRows : List StatusRow
  queue : MessageQueue
  /-- Monotonic generator of turn ids. -/
  turnSeq : ℕ
  /-- The id of the running turn, if any. -/
  activeTurnId : Option JsString
  /-- A snapshot replay is allowed. -/
  replayable : Bool

/-- `createEmptyProjection`. -/
def createEmptyProjection (sessionId : JsString) : ConversationProjection where
  sessionId := sessionId
  turns := []
  statusRows := []
  queue := { steering := [], followUp := [] }
  turnSeq := 0
  activeTurnId := none
  replayable := true

end PiAgentWeb
