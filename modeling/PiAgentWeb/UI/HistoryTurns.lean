import PiAgentWeb.UI.HistoryProjection
import PiAgentWeb.UI.DeltaMerging

/-!
# The turns of a message list

A message list is a few messages that belong to no turn, followed by turns: a user message and what
follows up to the next one. The projection shows each turn from its own messages, so that two lists
are shown like their concatenation unless the second one begins with messages that continue the last
turn of the first and change what is shown of it.
-/

namespace PiAgentWeb

variable {J T : Type}

/-- The messages that one turn is made from. -/
structure TurnSource (J T : Type) where
  content : UserMessageContent
  timestamp : Option ℤ
  rest : List (SessionMessage J T)

/-- The messages before the first user message, and the turns after it. -/
def turnSources :
    List (SettledMessage J T) → List (SessionMessage J T) × List (TurnSource J T)
  | [] => ([], [])
  | settled :: rest =>
    match settled.message with
    | .user content _ =>
      ([], { content, timestamp := settled.timestamp, rest := (turnSources rest).1 } ::
        (turnSources rest).2)
    | message => (message :: (turnSources rest).1, (turnSources rest).2)

namespace TurnSource

/-- The turn that continues with further messages. -/
def continued (source : TurnSource J T) (messages : List (SessionMessage J T)) : TurnSource J T :=
  { source with rest := source.rest ++ messages }

/-- What the projection shows of a turn. -/
def shown (representation : PayloadRepresentation J T) (source : TurnSource J T) : ProductTurn :=
  (convergeTurn (source.rest.foldl (continueTurn representation)
    (historyTurn 0 source.content source.timestamp))).erased

end TurnSource

/-! ## Keys do not matter -/

@[simp] theorem AssistantStep.erased_erased (step : AssistantStep) :
    step.erased.erased = step.erased := by
  simp [AssistantStep.erased, Function.comp_def]

theorem erased_historyStep (representation : PayloadRepresentation J T) (key other : JsString)
    (message : AssistantMessage J) :
    (historyStep representation key message).erased =
      (historyStep representation other message).erased := by
  simp only [AssistantStep.erased, historyStep, List.map_map, AssistantStep.mk.injEq, true_and,
    and_true]
  refine List.map_congr_left fun entry _ => ?_
  obtain ⟨content, index⟩ := entry
  cases content <;> rfl

theorem updateToolBlockIn_withKey (toolCallId : JsString) (blocks : List (Option ContentBlock)) :
    updateToolBlockIn toolCallId (fun block => { block with status := .error })
        (blocks.map (Option.map (ContentBlock.withKey []))) =
      (updateToolBlockIn toolCallId (fun block => { block with status := .error }) blocks).map
        (List.map (Option.map (ContentBlock.withKey []))) := by
  induction blocks with
  | nil => rfl
  | cons block rest ih =>
    rcases block with _ | ⟨thinking | text | call⟩
    · simp [updateToolBlockIn, ih, Function.comp_def]
    · simp [updateToolBlockIn, ContentBlock.withKey, ih, Function.comp_def]
    · simp [updateToolBlockIn, ContentBlock.withKey, ih, Function.comp_def]
    · by_cases hid : call.toolCallId = toolCallId
      · simp [updateToolBlockIn, ContentBlock.withKey, hid]
      · simp [updateToolBlockIn, ContentBlock.withKey, hid, ih, Function.comp_def]

theorem erased_applyToolResult (step : AssistantStep) (result : UiToolResult) :
    (applyToolResult step result).erased = (applyToolResult step.erased result).erased := by
  simp only [AssistantStep.erased, applyToolResult, updateToolBlockIn_withKey,
    AssistantStep.mk.injEq, true_and, and_true]
  split
  · cases updateToolBlockIn result.toolCallId (fun block => { block with status := .error })
      step.blocks <;> simp [Function.comp_def]
  · simp [Function.comp_def]

theorem erased_continueTurn (representation : PayloadRepresentation J T) (turn : ProductTurn)
    (message : SessionMessage J T) :
    (continueTurn representation turn message).erased =
      (continueTurn representation turn.erased message).erased := by
  cases message with
  | user | other => simp [continueTurn, ProductTurn.erased, Function.comp_def]
  | assistant message =>
    simp only [continueTurn]
    cases message.stopReason <;>
      simp only [ProductTurn.erased, List.map_append, List.map_cons, List.map_nil, List.map_map,
        List.length_map, ProductTurn.mk.injEq, true_and, and_true, Function.comp_def,
        AssistantStep.erased_erased, List.append_cancel_left_eq, List.cons.injEq] <;>
      exact erased_historyStep representation _ _ message
  | toolResult message =>
    simp only [continueTurn]
    have hlast : turn.erased.steps.getLast? = turn.steps.getLast?.map AssistantStep.erased := by
      simp [ProductTurn.erased]
    rw [hlast]
    cases turn.steps.getLast? with
    | none => simp [ProductTurn.erased, Function.comp_def]
    | some step =>
      simp [ProductTurn.erased, withLastStep, List.map_set, ← erased_applyToolResult,
        Function.comp_def]

theorem erased_foldl_continueTurn (representation : PayloadRepresentation J T)
    {turn other : ProductTurn} (h : turn.erased = other.erased)
    (messages : List (SessionMessage J T)) :
    (messages.foldl (continueTurn representation) turn).erased =
      (messages.foldl (continueTurn representation) other).erased := by
  induction messages generalizing turn other with
  | nil => exact h
  | cons message rest ih =>
    refine ih ?_
    rw [erased_continueTurn, h, ← erased_continueTurn]

theorem convergeToolCall_withKey (toolResults : List UiToolResult) (key : JsString)
    (block : ContentBlock) :
    convergeToolCall toolResults (block.withKey key) =
      (convergeToolCall toolResults block).withKey key := by
  rcases block with _ | _ | call
  · rfl
  · rfl
  · simp only [convergeToolCall, ContentBlock.withKey]
    cases toolResults.find? fun result => result.toolCallId == call.toolCallId <;> rfl

theorem erased_convergeTurn (turn : ProductTurn) :
    (convergeTurn turn).erased = convergeTurn turn.erased := by
  have hstep : ∀ step : AssistantStep, (convergeStep step).erased = convergeStep step.erased := by
    intro step
    simp only [AssistantStep.erased, convergeStep, List.map_map, AssistantStep.mk.injEq, true_and,
      and_true]
    refine List.map_congr_left fun block _ => ?_
    cases block <;> simp [convergeToolCall_withKey]
  simp [ProductTurn.erased, convergeTurn, hstep, Function.comp_def]

theorem erased_convergeTurn_congr {turn other : ProductTurn} (h : turn.erased = other.erased) :
    (convergeTurn turn).erased = (convergeTurn other).erased := by
  rw [erased_convergeTurn, erased_convergeTurn, h]

/-! ## Rebuilding turn by turn -/

theorem rebuildMessage_continue {representation : PayloadRepresentation J T}
    {projection : ConversationProjection} {settled : SettledMessage J T}
    (hmessage : ∀ content unread, settled.message ≠ .user content unread) :
    (rebuildMessage representation projection settled).turns =
      match projection.turns.getLast? with
      | none => projection.turns
      | some turn =>
        projection.turns.dropLast ++ [continueTurn representation turn settled.message] := by
  unfold rebuildMessage
  split
  · rename_i content unread huser
    exact absurd huser (hmessage content unread)
  · split <;> simp_all

theorem foldl_rebuildMessage_open (representation : PayloadRepresentation J T)
    {projection : ConversationProjection} {before : List ProductTurn} {turn : ProductTurn}
    (hturns : projection.turns = before ++ [turn]) (messages : List (SettledMessage J T)) :
    (messages.foldl (rebuildMessage representation) projection).turns.map
        (fun turn => (convergeTurn turn).erased) =
      before.map (fun turn => (convergeTurn turn).erased) ++
        (convergeTurn ((turnSources messages).1.foldl (continueTurn representation) turn)).erased ::
          (turnSources messages).2.map (TurnSource.shown representation) := by
  induction messages generalizing projection before turn with
  | nil => simp [turnSources, hturns]
  | cons settled rest ih =>
    rw [List.foldl_cons, turnSources]
    split
    · rename_i content unread huser
      have hopened : (rebuildMessage representation projection settled).turns =
          (before ++ [turn]) ++
            [historyTurn projection.turnSeq content settled.timestamp] := by
        rw [rebuildMessage, huser, hturns]
      have hkeys : (historyTurn projection.turnSeq content settled.timestamp).erased =
          (historyTurn 0 content settled.timestamp).erased := rfl
      rw [ih hopened, List.map_append, List.append_assoc]
      simp only [List.map_cons, List.map_nil, List.foldl_nil, List.cons_append, List.nil_append,
        TurnSource.shown]
      rw [erased_convergeTurn_congr (erased_foldl_continueTurn representation hkeys _)]
    · rename_i hmessage
      have hcontinued : (rebuildMessage representation projection settled).turns =
          before ++ [continueTurn representation turn settled.message] := by
        rw [rebuildMessage_continue hmessage, hturns]
        simp
      exact ih hcontinued

theorem rebuild_turns (representation : PayloadRepresentation J T) (sessionId : JsString)
    (messages : List (SettledMessage J T)) :
    (rebuildProjectionFromMessages representation sessionId messages).turns.map
        ProductTurn.erased =
      (turnSources messages).2.map (TurnSource.shown representation) := by
  have hloop : ∀ projection : ConversationProjection, projection.turns = [] →
      (messages.foldl (rebuildMessage representation) projection).turns.map
          (fun turn => (convergeTurn turn).erased) =
        (turnSources messages).2.map (TurnSource.shown representation) := by
    induction messages with
    | nil => exact fun projection hempty => by simp [turnSources, hempty]
    | cons settled rest ih =>
      intro projection hempty
      rw [List.foldl_cons, turnSources]
      split
      · rename_i content unread huser
        have hopened : (rebuildMessage representation projection settled).turns =
            [] ++ [historyTurn projection.turnSeq content settled.timestamp] := by
          rw [rebuildMessage, huser, hempty]
        have hkeys : (historyTurn projection.turnSeq content settled.timestamp).erased =
            (historyTurn 0 content settled.timestamp).erased := rfl
        rw [foldl_rebuildMessage_open representation hopened, List.map_nil, List.nil_append,
          List.map_cons, TurnSource.shown,
          erased_convergeTurn_congr (erased_foldl_continueTurn representation hkeys _)]
      · rename_i hmessage
        refine ih _ ?_
        rw [rebuildMessage_continue hmessage, hempty]
        rfl
  rw [rebuildProjectionFromMessages, List.map_map]
  exact hloop _ rfl

/-- The turns of two lists: the messages that the second one begins with continue the last turn of
the first. -/
theorem turnSources_append (first second : List (SettledMessage J T)) :
    turnSources (first ++ second) =
      match (turnSources first).2.getLast? with
      | none => ((turnSources first).1 ++ (turnSources second).1, (turnSources second).2)
      | some last =>
        ((turnSources first).1,
          (turnSources first).2.dropLast ++ last.continued (turnSources second).1 ::
            (turnSources second).2) := by
  induction first with
  | nil => rfl
  | cons settled rest ih =>
    rw [List.cons_append, turnSources, turnSources]
    split
    · rename_i content unread huser
      rw [ih]
      cases hlast : (turnSources rest).2.getLast? with
      | none =>
        obtain hnil := List.getLast?_eq_none_iff.mp hlast
        simp [hnil, TurnSource.continued]
      | some last =>
        have hne : (turnSources rest).2 ≠ [] := by
          rintro hnil
          rw [hnil] at hlast
          cases hlast
        simp [List.getLast?_cons, hlast, List.dropLast_cons_of_ne_nil hne]
    · rw [ih]
      cases (turnSources rest).2.getLast? <;> rfl

/-! ## Messages that leave a turn as it is -/

/-- An assistant message. -/
def SessionMessage.isAssistant : SessionMessage J T → Bool
  | .assistant _ => true
  | _ => false

/-- The results recorded for the last assistant message, after one more message. -/
def recordResult (representation : PayloadRepresentation J T)
    (results : Option (List UiToolResult)) : SessionMessage J T → Option (List UiToolResult)
  | .assistant _ => some []
  | .toolResult message => results.map (upsertResult (historyToolResult representation message))
  | .user .. | .other .. => results

/-- The results that the messages after a user message record for the last assistant message among
them, if there is one. -/
def recordedResults (representation : PayloadRepresentation J T)
    (messages : List (SessionMessage J T)) : Option (List UiToolResult) :=
  messages.foldl (recordResult representation) none

/-- Messages that continue a turn and add nothing to it: no assistant message is among them, and
they record no result for the last assistant message that was not recorded already. -/
def LeavesTurn (representation : PayloadRepresentation J T)
    (turn messages : List (SessionMessage J T)) : Prop :=
  (∀ message ∈ messages, message.isAssistant = false) ∧
    recordedResults representation (turn ++ messages) = recordedResults representation turn

theorem withLastStep_self {turn : ProductTurn} {step : AssistantStep}
    (h : turn.steps.getLast? = some step) : withLastStep turn step = turn := by
  rw [List.getLast?_eq_getElem?] at h
  obtain ⟨hindex, hstep⟩ := List.getElem?_eq_some_iff.mp h
  rw [withLastStep, ← hstep, List.set_getElem_self]

theorem length_steps_foldl (representation : PayloadRepresentation J T) (turn : ProductTurn)
    (messages : List (SessionMessage J T)) :
    (messages.foldl (continueTurn representation) turn).steps.length =
      turn.steps.length + messages.countP SessionMessage.isAssistant := by
  induction messages generalizing turn with
  | nil => rfl
  | cons message rest ih =>
    have hstep : (continueTurn representation turn message).steps.length =
        turn.steps.length + if message.isAssistant then 1 else 0 := by
      cases message with
      | user | other => rfl
      | assistant message =>
        simp only [continueTurn, SessionMessage.isAssistant]
        cases message.stopReason <;> simp
      | toolResult message =>
        simp only [continueTurn]
        cases turn.steps.getLast? <;> simp [withLastStep, SessionMessage.isAssistant]
    rw [List.foldl_cons, ih, hstep, List.countP_cons]
    omega

theorem recordedResults_foldl (representation : PayloadRepresentation J T) (turn : ProductTurn)
    (messages : List (SessionMessage J T)) :
    (messages.foldl (continueTurn representation) turn).steps.getLast?.map (·.toolResults) =
      messages.foldl (recordResult representation)
        (turn.steps.getLast?.map (·.toolResults)) := by
  induction messages generalizing turn with
  | nil => rfl
  | cons message rest ih =>
    rw [List.foldl_cons, List.foldl_cons, ih]
    congr 1
    cases message with
    | user | other => rfl
    | assistant message =>
      simp only [continueTurn, recordResult]
      cases message.stopReason <;> simp [historyStep]
    | toolResult message =>
      simp only [continueTurn, recordResult]
      cases hlast : turn.steps.getLast? with
      | none => simp [hlast]
      | some step => simp [getLast?_withLastStep hlast, applyToolResult]

theorem converge_applyToolResult (step : AssistantStep) (result : UiToolResult)
    (toolResults : List UiToolResult) :
    (applyToolResult step result).blocks.map (Option.map (convergeToolCall toolResults)) =
      step.blocks.map (Option.map (convergeToolCall toolResults)) := by
  have hmarked : ∀ blocks marked : List (Option ContentBlock),
      updateToolBlockIn result.toolCallId (fun block => { block with status := .error }) blocks =
        some marked →
      marked.map (Option.map (convergeToolCall toolResults)) =
        blocks.map (Option.map (convergeToolCall toolResults)) := by
    intro blocks
    induction blocks with
    | nil => exact fun marked h => nomatch h
    | cons block rest ih =>
      intro marked h
      rcases block with _ | ⟨_ | _ | call⟩
      · obtain ⟨marked, hmarked, rfl⟩ := Option.map_eq_some_iff.mp h
        rw [List.map_cons, ih marked hmarked, List.map_cons]
      · obtain ⟨marked, hmarked, rfl⟩ := Option.map_eq_some_iff.mp h
        rw [List.map_cons, ih marked hmarked, List.map_cons]
      · obtain ⟨marked, hmarked, rfl⟩ := Option.map_eq_some_iff.mp h
        rw [List.map_cons, ih marked hmarked, List.map_cons]
      · unfold updateToolBlockIn at h
        split at h
        · obtain rfl := Option.some.inj h
          rfl
        · obtain ⟨marked, hmarked, rfl⟩ := Option.map_eq_some_iff.mp h
          rw [List.map_cons, ih marked hmarked, List.map_cons]
  unfold applyToolResult
  dsimp only
  split
  · cases hupdate : updateToolBlockIn result.toolCallId
        (fun block => { block with status := .error }) step.blocks with
    | none => rfl
    | some marked => exact hmarked _ _ hupdate
  · rfl

theorem foldl_continueTurn_last (representation : PayloadRepresentation J T) {turn : ProductTurn}
    {step : AssistantStep} (hlast : turn.steps.getLast? = some step)
    {messages : List (SessionMessage J T)}
    (hmessages : ∀ message ∈ messages, message.isAssistant = false) :
    ∃ blocks toolResults,
      messages.foldl (continueTurn representation) turn =
        withLastStep turn { step with blocks := blocks, toolResults := toolResults } ∧
      messages.foldl (recordResult representation) (some step.toolResults) = some toolResults ∧
      ∀ results, blocks.map (Option.map (convergeToolCall results)) =
        step.blocks.map (Option.map (convergeToolCall results)) := by
  induction messages generalizing turn step with
  | nil => exact ⟨step.blocks, step.toolResults, (withLastStep_self hlast).symm, rfl, fun _ => rfl⟩
  | cons message rest ih =>
    obtain ⟨hmessage, hrest⟩ := List.forall_mem_cons.mp hmessages
    cases message with
    | user | other => exact ih hlast hrest
    | assistant => cases hmessage
    | toolResult message =>
      obtain ⟨blocks, toolResults, hturn, hresults, hblocks⟩ :=
        ih (getLast?_withLastStep hlast
          (applyToolResult step (historyToolResult representation message))) hrest
      refine ⟨blocks, toolResults, ?_, hresults, fun results => ?_⟩
      · rw [List.foldl_cons, continueTurn, hlast]
        rw [withLastStep_withLastStep] at hturn
        exact hturn
      · rw [hblocks, converge_applyToolResult]

theorem TurnSource.shown_continued_iff (representation : PayloadRepresentation J T)
    (source : TurnSource J T) (messages : List (SessionMessage J T)) :
    (source.continued messages).shown representation = source.shown representation ↔
      LeavesTurn representation source.rest messages := by
  have hsteps : ∀ turn : ProductTurn, (convergeTurn turn).erased.steps.length = turn.steps.length :=
    fun turn => by simp [ProductTurn.erased, convergeTurn]
  have hresults : ∀ turn : ProductTurn,
      (convergeTurn turn).erased.steps.getLast?.map (·.toolResults) =
        turn.steps.getLast?.map (·.toolResults) := by
    intro turn
    simp only [ProductTurn.erased, convergeTurn, List.map_map, List.getLast?_map, Option.map_map]
    rfl
  unfold TurnSource.shown TurnSource.continued LeavesTurn recordedResults
  dsimp only
  generalize hopened : historyTurn 0 source.content source.timestamp = opened
  have hnone : opened.steps.getLast?.map (·.toolResults) = none := by rw [← hopened]; rfl
  rw [List.foldl_append]
  constructor
  · intro hshown
    have hcount := congrArg (fun turn : ProductTurn => turn.steps.length) hshown
    have hrecorded := congrArg
      (fun turn : ProductTurn => turn.steps.getLast?.map (·.toolResults)) hshown
    simp only [hsteps, length_steps_foldl] at hcount
    simp only [hresults, recordedResults_foldl, hnone] at hrecorded
    have hzero : messages.countP SessionMessage.isAssistant = 0 := by omega
    refine ⟨fun message hmessage => ?_, by rw [List.foldl_append]; exact hrecorded⟩
    simpa using List.countP_eq_zero.mp hzero message hmessage
  · rintro ⟨hmessages, hrecorded⟩
    rw [List.foldl_append] at hrecorded
    have hinvariant := recordedResults_foldl representation opened source.rest
    rw [hnone] at hinvariant
    generalize source.rest.foldl (continueTurn representation) opened = turn at hinvariant ⊢
    rw [← hinvariant] at hrecorded
    cases hlast : turn.steps.getLast? with
    | none =>
      -- A turn without steps takes no tool results.
      have hunchanged : messages.foldl (continueTurn representation) turn = turn := by
        clear hrecorded hinvariant
        induction messages with
        | nil => rfl
        | cons message rest ih =>
          obtain ⟨hmessage, hrest⟩ := List.forall_mem_cons.mp hmessages
          have hstep : continueTurn representation turn message = turn := by
            cases message with
            | user | other => rfl
            | assistant => cases hmessage
            | toolResult message => simp [continueTurn, hlast]
          rw [List.foldl_cons, hstep]
          exact ih hrest
      rw [hunchanged]
    | some step =>
      obtain ⟨blocks, toolResults, hturn, hrecords, hblocks⟩ :=
        foldl_continueTurn_last representation hlast hmessages
      rw [hlast, Option.map_some, hrecords, Option.some.injEq] at hrecorded
      subst hrecorded
      have hstep : convergeStep { step with blocks := blocks } = convergeStep step := by
        simp only [convergeStep, hblocks]
      rw [hturn]
      congr 1
      have hsame : convergeTurn (withLastStep turn { step with blocks := blocks }) =
          convergeTurn (withLastStep turn step) := by
        simp only [convergeTurn, withLastStep, List.map_set, hstep]
      rw [hsame, withLastStep_self hlast]

/-! ## Lists in front of one another -/

/-- No list continues the last turn of the lists before it in a way that is shown. -/
def KeepsTurns (representation : PayloadRepresentation J T) :
    List (List (SettledMessage J T)) → Prop
  | [] => True
  | messages :: later =>
    (∀ source ∈ (turnSources messages).2.getLast?,
      LeavesTurn representation source.rest (turnSources later.flatten).1) ∧
    KeepsTurns representation later

/-- Lists that are rebuilt one by one show the turns of their concatenation, if none continues the
last turn of those before it in a way that is shown, and only then. -/
theorem flatMap_turnSources_iff (representation : PayloadRepresentation J T)
    (lists : List (List (SettledMessage J T))) :
    ((lists.flatMap fun messages =>
        (turnSources messages).2.map (TurnSource.shown representation)) =
      (turnSources lists.flatten).2.map (TurnSource.shown representation)) ↔
      KeepsTurns representation lists := by
  induction lists with
  | nil => simp [KeepsTurns, turnSources]
  | cons messages later ih =>
    rw [List.flatMap_cons, List.flatten_cons, turnSources_append, KeepsTurns, ← ih]
    cases hlast : (turnSources messages).2.getLast? with
    | none =>
      rw [List.getLast?_eq_none_iff.mp hlast]
      simp
    | some last =>
      obtain ⟨init, hinit⟩ := List.getLast?_eq_some_iff.mp hlast
      rw [hinit, List.map_append, List.map_append, List.append_assoc]
      simp only [List.dropLast_concat, List.map_cons, List.map_nil, List.cons_append,
        List.nil_append, List.append_cancel_left_eq, List.cons.injEq, Option.mem_def,
        Option.some.injEq, forall_eq']
      rw [eq_comm (a := last.shown representation), TurnSource.shown_continued_iff]

/-- **History pages show the whole transcript** exactly when no list of messages continues the last
turn of the older lists in a way that is shown. -/
theorem showPages_sameTranscript_iff (representation : PayloadRepresentation J T)
    (sessionId : JsString) (initial : List (SettledMessage J T))
    (pages : List (List (SettledMessage J T))) :
    SameTranscript (showPages representation sessionId initial pages).projection
        (rebuildProjectionFromMessages representation sessionId
          (pages.reverse ++ [initial]).flatten) ↔
      KeepsTurns representation (pages.reverse ++ [initial]) := by
  rw [SameTranscript, showPages_turns, rebuild_turns, ← flatMap_turnSources_iff]
  simp only [rebuild_turns]

end PiAgentWeb
