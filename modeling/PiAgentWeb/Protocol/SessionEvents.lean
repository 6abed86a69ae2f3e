import Mathlib.Data.Rat.Init
import PiAgentWeb.Library.JsValue

/-!
# Session events

The product-owned event DTOs that cross the Pi adapter: messages, assistant stream events and
Session events. The Pi form and the content-reference form of an event differ in their JSON and
tool-text roots only, so both are instances of one family over the types `J` of JSON roots and
`T` of tool-result texts. What no modelled function reads of a message or an event stands together
in a list of members, which only its JSON form shows.
-/

namespace PiAgentWeb

/-- Members of an object, and of the objects in it, that no modelled function reads. -/
abbrev UnreadMembers := List (JsString × Json)

/-- `SessionContentRefDto`: a reference to UTF-8 content in the epoch store. -/
structure SessionContentRef where
  serverEpoch : JsString
  sha256 : JsString
  byteLength : ℕ
  deriving DecidableEq

/-- `SessionAttachmentRefDto`: a reference to decoded image bytes. -/
structure SessionAttachmentRef where
  serverEpoch : JsString
  sha256 : JsString
  mediaType : JsString
  byteLength : ℕ
  deriving DecidableEq

/-- `SessionTextPayloadDto`: text inline or behind a content reference. -/
inductive SessionTextPayload where
  | inline (value : JsString)
  | external (ref : SessionContentRef)

/-- `SessionJsonRootDto`: a JSON root in its envelope, inline or behind a content reference. -/
inductive SessionJsonRoot where
  | inline (value : Json)
  | external (ref : SessionContentRef)

/-- The `data` of a `SessionImageContentDto`. -/
inductive SessionImageData where
  | base64 (data : JsString)
  | attachment (ref : SessionAttachmentRef)
  deriving DecidableEq

/-- `SessionImageContentDto`. -/
structure SessionImageContent where
  data : SessionImageData
  mimeType : JsString
  deriving DecidableEq

/-- `UsageDto`. Counts are safe integers, costs are finite numbers. -/
structure Usage where
  input : ℕ
  output : ℕ
  cacheRead : ℕ
  cacheWrite : ℕ
  totalTokens : ℕ
  /-- `cost.total`. -/
  costTotal : ℚ
  cacheWrite1h : Option ℕ := none
  reasoning : Option ℕ := none
  /-- `cost.input`, `cost.output`, `cost.cacheRead` and `cost.cacheWrite`. -/
  costParts : ℚ × ℚ × ℚ × ℚ := (0, 0, 0, 0)
  deriving DecidableEq

/-- `PiToolCallContentDto` and its content-reference form. -/
structure ToolCallContent (J : Type) where
  id : JsString
  name : JsString
  arguments : J
  unread : UnreadMembers := []

/-- A content block of a user message. -/
inductive UserContent where
  | text (text : JsString)
  | image (image : SessionImageContent)

/-- The content of a user message: one string or a list of blocks. -/
inductive UserMessageContent where
  | string (text : JsString)
  | blocks (blocks : List UserContent)

/-- A content block of an assistant message. -/
inductive AssistantContent (J : Type) where
  | text (text : JsString)
  | thinking (thinking : JsString) (redacted : Option Bool)
  | toolCall (toolCall : ToolCallContent J)

/-- A content block of a tool result. -/
inductive ToolResultContent (T : Type) where
  | text (text : T)
  | image (image : SessionImageContent)

/-- The stop reasons of an assistant message. -/
inductive StopReason where
  | pending | stop | length | toolUse | error | aborted | deferred
  deriving DecidableEq

/-- `PiAssistantMessageDto` and its content-reference form. -/
structure AssistantMessage (J : Type) where
  content : List (AssistantContent J)
  usage : Usage
  stopReason : StopReason
  errorMessage : Option JsString
  /-- The timestamp, the model and its answer, and the signatures of the parts. -/
  unread : UnreadMembers := []

/-- `PiToolResultMessageDto` and its content-reference form. -/
structure ToolResultMessage (J T : Type) where
  toolCallId : JsString
  toolName : JsString
  content : List (ToolResultContent T)
  details : Option J
  isError : Bool
  /-- The timestamp and what the tool added. -/
  unread : UnreadMembers := []

/-- `PiSessionMessageDto` and its content-reference form. -/
inductive SessionMessage (J T : Type) where
  | user (content : UserMessageContent) (unread : UnreadMembers)
  | assistant (message : AssistantMessage J)
  | toolResult (message : ToolResultMessage J T)
  /-- Bash executions, custom messages and summaries. -/
  | other (role : JsString) (unread : UnreadMembers)

/-- The append-only members of an assistant stream. -/
inductive DeltaType where
  | textDelta | thinkingDelta | toolcallDelta
  deriving DecidableEq

/-- `AssistantMessageStreamEventDto`. -/
inductive AssistantMessageStreamEvent (J : Type) where
  | start
  | textStart (contentIndex : ℕ)
  | thinkingStart (contentIndex : ℕ)
  | toolcallStart (contentIndex : ℕ) (id toolName : Option JsString)
  | delta (type : DeltaType) (contentIndex : ℕ) (delta : JsString)
  | textEnd (contentIndex : ℕ) (content : JsString)
  | thinkingEnd (contentIndex : ℕ) (content : JsString)
  | toolcallEnd (contentIndex : ℕ) (toolCall : ToolCallContent J)
  | done (reason : JsString) (message : Option (AssistantMessage J))
  | error (reason : JsString) (error : Option (AssistantMessage J))

/-- A `message_update` event. -/
structure MessageUpdate (J : Type) where
  usage : Usage
  assistantMessageEvent : AssistantMessageStreamEvent J

/-- Why a compaction runs. -/
inductive CompactionReason where
  | manual | threshold | overflow
  deriving DecidableEq

/-- The text of a compaction reason. -/
def CompactionReason.text : CompactionReason → JsString
  | .manual => js "manual"
  | .threshold => js "threshold"
  | .overflow => js "overflow"

/-- `ProductSessionEventDto` (`J`, `T` the content-reference roots) and `PiSessionEventDto`
(`J`, `T` the raw values). -/
inductive SessionEvent (J T : Type) where
  | agentStart
  | turnStart
  | agentSettled
  | agentEnd (messages : List (SessionMessage J T)) (willRetry : Bool)
  | turnEnd (message : SessionMessage J T) (toolResults : List (ToolResultMessage J T))
  | messageStart (message : SessionMessage J T)
  | messageEnd (message : SessionMessage J T)
  | messageUpdate (update : MessageUpdate J)
  | toolExecutionStart (toolCallId toolName : JsString) (args : J)
  | toolExecutionUpdate (toolCallId toolName : JsString) (args partialResult : J)
  | toolExecutionEnd (toolCallId toolName : JsString) (result : J) (isError : Bool)
  | queueUpdate (steering followUp : List JsString)
  | compactionStart (reason : CompactionReason)
  /-- `hasResult`: the event carries a truthy `result`. -/
  | compactionEnd (hasResult aborted willRetry : Bool) (errorMessage : Option JsString)
      (unread : UnreadMembers)
  | autoRetryStart (attempt maxAttempts delayMs : ℕ) (errorMessage : JsString)
  | autoRetryEnd (success : Bool) (finalError : Option JsString) (attempt : ℕ)
  | summarizationRetryScheduled (delayMs attempt maxAttempts : ℕ) (errorMessage : JsString)
  | summarizationRetryAttemptStart (source : JsString) (reason : Option CompactionReason)
  | summarizationRetryFinished
  | bashExecutionUpdate (id : Option JsString) (delta : JsString)
  | thinkingLevelChanged (level : JsString)
  | sessionInfoChanged (name : Option JsString)
  | entryAppended (entry : UnreadMembers)
  | extensionError (extensionPath event error : JsString)

/-- The events as Pi emits them: JSON roots and tool texts are raw values. -/
abbrev PiSessionEvent := SessionEvent Json Json

/-- `ExtensionUiRequestDto` and its Pi form: what an Extension asks the UI to show. -/
inductive ExtensionUiRequestBody (J T : Type) where
  | select (title : JsString) (options : List JsString) (timeout : Option ℕ)
  | confirm (title message : JsString) (timeout : Option ℕ)
  | input (title : JsString) (placeholder : Option JsString) (timeout : Option ℕ)
  | editor (title : JsString) (prefill : Option T)
  | notify (message : JsString) (notifyType : Option JsString)
  | setStatus (statusKey : JsString) (statusText : Option JsString)
  | setWidget (widgetKey : JsString) (widgetLines : Option J) (placement : Option JsString)
  | setTitle (title : JsString)
  | setEditorText (text : T)

/-- An Extension request with its id. -/
structure ExtensionUiRequest (J T : Type) where
  id : JsString
  body : ExtensionUiRequestBody J T

/-- The methods of `BLOCKING_EXTENSION_METHODS`: the request waits for an answer. -/
def ExtensionUiRequestBody.blocking {J T : Type} : ExtensionUiRequestBody J T → Bool
  | .select .. | .confirm .. | .input .. | .editor .. => true
  | _ => false

end PiAgentWeb
