import PiAgentWeb.UI.ProjectionKeys

/-!
# Keys in every run

Every event, every rebuild and every page that is put in front keeps the projection of a Session
keyed. In particular a tool call that an event addresses by its content index is one block of the
projection, and no other block has its key.
-/

namespace PiAgentWeb

variable {J T : Type} {sessionId : JsString} {batch : ℕ}
  {projection projection' : ConversationProjection}

/-! ## Events -/

theorem ProjectionKeyed.assistantStart (h : ProjectionKeyed sessionId batch projection)
    (ctx : ReducerContext J T) (message : AssistantMessage J) :
    ProjectionKeyed sessionId batch (handleAssistantMessageStart projection ctx message) := by
  obtain ⟨hstate, hturn⟩ := h.ensureTurn ctx
  refine hstate.withTurn ((hturn.ensureOpenStep ctx).withLastStep (ensureOpenStep_spec _ ctx).2.1
    fun key hstep => ?_)
  split
  · exact hstep
  · refine ⟨hstep.own, fun index block hblock => ?_⟩
    obtain ⟨item, -, rfl⟩ := blockAt_zipIdx_map hblock
    rw [key_finalBlock, blockKeyOf, hstep.own]

theorem ProjectionKeyed.messageEnd (h : ProjectionKeyed sessionId batch projection)
    (ctx : ReducerContext J T) (message : SessionMessage J T) :
    ProjectionKeyed sessionId batch (handleMessageEnd projection ctx message) := by
  obtain ⟨hstate, hturn⟩ := h.ensureTurn ctx
  cases message with
  | assistant message =>
    simp only [handleMessageEnd]
    split
    · exact h
    · next last hlast =>
      have hsettled := hturn.withLastStep hlast fun key hstep => hstep.settle ctx message
      refine hstate.withTurn ?_
      split
      · exact ProductTurn.Keyed.converge (hsettled.of_same rfl rfl)
      · exact ProductTurn.Keyed.converge (hsettled.of_same rfl rfl)
      · exact hsettled
  | _ => exact h

theorem ProjectionKeyed.messageStart (h : ProjectionKeyed sessionId batch projection)
    (ctx : ReducerContext J T) (message : SessionMessage J T) :
    ProjectionKeyed sessionId batch (handleMessageStart projection ctx message) := by
  cases message with
  | user content =>
    obtain ⟨hstate, hturn⟩ := h.ensureTurn ctx
    exact hstate.withTurn (hturn.of_same rfl rfl)
  | assistant message => exact h.assistantStart ctx message
  | toolResult message =>
    obtain ⟨hstate, hturn⟩ := h.ensureTurn ctx
    simp only [handleMessageStart, handleToolResultMessageStart]
    split
    · exact h
    · next last hlast =>
      exact hstate.withTurn (hturn.withLastStep hlast fun key hstep => hstep.upsertToolResult _)
  | other role => exact h

theorem ProjectionKeyed.reduce (h : ProjectionKeyed sessionId batch projection)
    (ctx : ReducerContext J T) (event : SessionEvent J T) :
    ProjectionKeyed sessionId batch (reduceProjection ctx projection event) := by
  cases event with
  | agentStart =>
    refine (ProjectionKeyed.ensureTurn ?_ ctx).1
    refine h.mapTurns (f := fun turn =>
      if some turn.id = projection.activeTurnId ∧ turn.status = .running then
        convergeHangingToolCalls { turn with status := .settled }
      else turn) (fun turn => ?_) (fun turn hturn => ?_) rfl rfl (by simp)
    · split <;> rfl
    · split
      · exact ProductTurn.Keyed.converge (hturn.of_same rfl rfl)
      · exact hturn
  | turnStart =>
    obtain ⟨hstate, hturn⟩ := h.ensureTurn ctx
    exact hstate.withTurn (hturn.ensureStep ctx)
  | agentSettled =>
    simp only [reduceProjection]
    split
    · exact h.of_ids rfl h.keyed rfl fun _ => id
    · next turn hactive =>
      have hmem : turn ∈ projection.turns := by
        unfold activeTurn at hactive
        split at hactive
        · cases hactive
        · cases hactive
        · exact List.mem_of_find?_eq_some hactive
      have hstate : ProjectionKeyed sessionId batch
          { projection with activeTurnId := none, replayable := true } :=
        h.of_ids rfl h.keyed rfl (by simp)
      exact hstate.withTurn ((h.keyed turn hmem).converge.of_same rfl rfl)
  | turnEnd =>
    obtain ⟨hstate, hturn⟩ := h.ensureTurn ctx
    simp only [reduceProjection]
    split
    · exact h
    · next last hlast =>
      exact hstate.withTurn (hturn.withLastStep hlast fun key hstep => hstep.of_same rfl rfl)
  | messageStart message => exact h.messageStart ctx message
  | messageEnd message => exact h.messageEnd ctx message
  | messageUpdate update =>
    obtain ⟨hstate, hturn⟩ := h.ensureTurn ctx
    exact hstate.withTurn ((hturn.ensureOpenStep ctx).withLastStep (ensureOpenStep_spec _ ctx).2.1
      fun key hstep => (hstep.applyStreamEvent ctx update.assistantMessageEvent).of_same rfl rfl)
  | toolExecutionStart toolCallId toolName args =>
    obtain ⟨hstate, hturn⟩ := h.ensureTurn ctx
    refine hstate.withTurn ?_
    exact hturn.updateToolBlock (by exact fun _ => rfl)
  | toolExecutionUpdate toolCallId toolName args partialResult =>
    obtain ⟨hstate, hturn⟩ := h.ensureTurn ctx
    refine hstate.withTurn ?_
    exact hturn.updateToolBlock (by exact fun _ => rfl)
  | toolExecutionEnd toolCallId toolName result isError =>
    obtain ⟨hstate, hturn⟩ := h.ensureTurn ctx
    refine hstate.withTurn ?_
    exact hturn.updateToolBlock (by exact fun _ => rfl)
  | _ => exact h.of_ids rfl h.keyed rfl fun _ => id

theorem ProjectionKeyed.reduceEvents (h : ProjectionKeyed sessionId batch projection)
    (events : List LiveEvent) :
    ProjectionKeyed sessionId batch (reduceEvents projection events) := by
  induction events generalizing projection with
  | nil => exact h
  | cons live rest ih => exact ih (h.reduce live.ctx live.event)

/-! ## Settled messages -/

theorem stepKeyed_historyStep (representation : PayloadRepresentation J T) (key : JsString)
    (message : AssistantMessage J) : StepKeyed key (historyStep representation key message) := by
  refine ⟨rfl, fun index block hblock => ?_⟩
  obtain ⟨item, -, rfl⟩ := blockAt_zipIdx_map hblock
  cases item <;> rfl

theorem StepKeyed.applyToolResult {key : JsString} {step : AssistantStep}
    (h : StepKeyed key step) (result : UiToolResult) :
    StepKeyed key (applyToolResult step result) := by
  unfold PiAgentWeb.applyToolResult
  split
  · cases hblocks : updateToolBlockIn result.toolCallId
        (fun block => { block with status := .error }) step.blocks with
    | none => exact h.of_same rfl rfl
    | some blocks => exact (h.patch hblocks fun _ => rfl).of_same rfl rfl
  · exact h.of_same rfl rfl

variable {turn : ProductTurn}

theorem ProductTurn.Keyed.continueTurn (h : turn.Keyed)
    (representation : PayloadRepresentation J T) (message : SessionMessage J T) :
    (continueTurn representation turn message).Keyed ∧
      (continueTurn representation turn message).id = turn.id := by
  cases message with
  | assistant message =>
    have happend : ProductTurn.Keyed
        { turn with
          steps := turn.steps ++
            [historyStep representation (turn.id ++ js ":" ++ jsNat turn.steps.length) message] } :=
      h.append (stepKeyed_historyStep representation _ message) rfl rfl
    simp only [PiAgentWeb.continueTurn]
    split
    · exact ⟨happend.of_same rfl rfl, rfl⟩
    · exact ⟨happend.of_same rfl rfl, rfl⟩
    · exact ⟨happend, rfl⟩
  | toolResult message =>
    simp only [PiAgentWeb.continueTurn]
    split
    · exact ⟨h, rfl⟩
    · next step hstep =>
      exact ⟨h.withLastStep hstep fun key hkeyed => hkeyed.applyToolResult _, rfl⟩
  | user content => exact ⟨h, rfl⟩
  | other role => exact ⟨h, rfl⟩

theorem ProjectionKeyed.rebuildMessage (h : ProjectionKeyed sessionId batch projection)
    (representation : PayloadRepresentation J T) (settled : SettledMessage J T) :
    ProjectionKeyed sessionId batch (rebuildMessage representation projection settled) := by
  unfold PiAgentWeb.rebuildMessage
  split
  · exact h.append rfl (ProductTurn.keyed_of_nil rfl) rfl rfl fun _ => .inr
  · next message _ =>
    split
    · exact h
    · next turn hlast =>
      obtain ⟨hkeyed, hid⟩ :=
        (h.keyed turn (List.mem_of_getLast? hlast)).continueTurn representation settled.message
      have hturns : projection.turns.dropLast ++ [turn] = projection.turns :=
        List.dropLast_append_getLast? turn hlast
      refine h.of_ids ?_ ?_ rfl fun _ => id
      · rw [List.map_append, List.map_singleton, hid, ← List.map_singleton, ← List.map_append,
          hturns]
      · intro new hnew
        rcases List.mem_append.mp hnew with hold | hlast
        · exact h.keyed new (List.dropLast_subset _ hold)
        · obtain rfl := List.mem_singleton.mp hlast
          exact hkeyed

theorem ProductTurn.Keyed.convergeTurn (h : turn.Keyed) :
    (convergeTurn turn).Keyed := by
  refine h.mapSteps (fun key step hstep => ?_) rfl rfl
  refine hstep.map (fun block => ?_) rfl rfl
  cases block with
  | toolCall block =>
    simp only [convergeToolCall]
    split <;> rfl
  | _ => rfl

theorem SettledBatch.keyed (settled : SettledBatch) (sessionId : JsString) (batch : ℕ) :
    ProjectionKeyed sessionId batch (settled.rebuild sessionId) := by
  have hfold : ∀ (messages : List (SettledMessage settled.J settled.T))
      (start : ConversationProjection), ProjectionKeyed sessionId batch start →
      ProjectionKeyed sessionId batch
        (messages.foldl (PiAgentWeb.rebuildMessage settled.representation) start) := by
    intro messages
    induction messages with
    | nil => exact fun _ h => h
    | cons message rest ih => exact fun start h => ih _ (h.rebuildMessage _ message)
  exact (hfold settled.messages _ .empty).mapTurns (f := convergeTurn) (fun _ => rfl)
    (fun _ h => h.convergeTurn) rfl rfl fun _ => id

theorem SettledBatch.turnId (settled : SettledBatch) (sessionId : JsString)
    (h : turn ∈ (settled.rebuild sessionId).turns) : ∃ n, turn.id = turnIdOf n := by
  rcases (settled.keyed sessionId 0).issued turn h with ⟨n, -, -, hn⟩ | ⟨b, n, hb, hle, -⟩
  · exact ⟨n, hn⟩
  · omega

theorem keyed_remapHistoricalTurn (sessionId : JsString) (batch : ℕ) (turn : ProductTurn) :
    (remapHistoricalTurn sessionId batch turn).Keyed := by
  intro index step hstep
  simp only [remapHistoricalTurn, List.getElem?_map, List.getElem?_zipIdx, Option.map_map] at hstep
  obtain ⟨old, hold, rfl⟩ := Option.map_eq_some_iff.mp hstep
  refine ⟨by simp [AssistantStep.withKeys, stepKeyOf, remapHistoricalTurn], ?_⟩
  intro place block hblock
  simp only [Function.comp_apply, AssistantStep.withKeys, blockAt, List.getElem?_map,
    List.getElem?_zipIdx] at hblock
  cases hentry : old.blocks[place]? with
  | none => simp [hentry] at hblock
  | some entry =>
    cases entry with
    | none => simp [hentry] at hblock
    | some found =>
      simp only [hentry, Option.map_some, Option.join_some, Option.some.injEq] at hblock
      subst hblock
      cases found <;>
        simp [ContentBlock.withKey, ContentBlock.key, stepKeyOf, remapHistoricalTurn]

theorem ProjectionKeyed.prepend (h : ProjectionKeyed sessionId batch projection)
    (settled : SettledBatch) (hturns : projection'.turns =
      (settled.rebuild sessionId).turns.map (remapHistoricalTurn sessionId (batch + 1)) ++
        projection.turns)
    (hseq : projection'.turnSeq = projection.turnSeq)
    (hactive : projection'.activeTurnId = projection.activeTurnId) :
    ProjectionKeyed sessionId (batch + 1) projection' where
  issued turn hturn := by
    rw [hturns] at hturn
    rcases List.mem_append.mp hturn with hnew | hold
    · obtain ⟨older, holder, rfl⟩ := List.mem_map.mp hnew
      obtain ⟨n, hn⟩ := settled.turnId sessionId holder
      exact .inr ⟨batch + 1, n, Nat.le_add_left .., Nat.le_refl _, by rw [← hn]; rfl⟩
    · rw [hseq]
      rcases h.issued turn hold with hlive | ⟨b, n, hb, hle, hid⟩
      · exact .inl hlive
      · exact .inr ⟨b, n, hb, Nat.le_succ_of_le hle, hid⟩
  nodup := by
    have hids : ((settled.rebuild sessionId).turns.map
        (remapHistoricalTurn sessionId (batch + 1))).map (·.id) =
          ((settled.rebuild sessionId).turns.map (·.id)).map
            (historyTurnId sessionId (batch + 1)) := by
      rw [List.map_map, List.map_map]
      rfl
    rw [hturns, List.map_append, hids]
    refine List.nodup_append.mpr ⟨?_, h.nodup, ?_⟩
    · exact (settled.keyed sessionId 0).nodup.map fun _ _ heq => (historyTurnId_inj heq).2
    · intro id hnew id' hold heq
      subst heq
      obtain ⟨older, -, rfl⟩ := List.mem_map.mp hnew
      obtain ⟨turn, hturn, hid⟩ := List.mem_map.mp hold
      rcases h.issued turn hturn with ⟨n, -, -, hn⟩ | ⟨b, n, -, hle, hn⟩
      · exact turnIdOf_ne_historyTurnId sessionId n (batch + 1) older (hn.symm.trans hid)
      · have hbatch := (historyTurnId_inj (hn.symm.trans hid)).1
        omega
  keyed turn hturn := by
    rw [hturns] at hturn
    rcases List.mem_append.mp hturn with hnew | hold
    · obtain ⟨older, -, rfl⟩ := List.mem_map.mp hnew
      exact keyed_remapHistoricalTurn sessionId (batch + 1) older
    · exact h.keyed turn hold
  active id hid := by
    rw [hactive] at hid
    obtain ⟨turn, hturn, heq⟩ := h.active id hid
    exact ⟨turn, hturns ▸ List.mem_append_right _ hturn, heq⟩

/-! ## Runs -/

namespace SessionProjection

/-- The projection of the Session, if there is one, is keyed. -/
def Keyed (sessionId : JsString) (s : SessionProjection) : Prop :=
  ∀ projection, s.projection = some projection →
    ProjectionKeyed sessionId (s.batch.getD 0) projection

variable {s : SessionProjection}

theorem Keyed.current (h : s.Keyed sessionId) :
    ProjectionKeyed sessionId (s.batch.getD 0) (s.current sessionId) := by
  cases hprojection : s.projection with
  | none =>
    simp only [SessionProjection.current, hprojection, Option.getD_none]
    exact .empty
  | some projection =>
    simp only [SessionProjection.current, hprojection, Option.getD_some]
    exact h projection hprojection

theorem step_prepend (s : SessionProjection) {settled : SettledBatch}
    (hmessages : ¬ settled.messages.isEmpty = true)
    (hturns : ¬ (settled.rebuild sessionId).turns.isEmpty = true) :
    step sessionId s (.prependHistoricalMessages settled) =
      { projection := some
          { s.current sessionId with
            turns := (settled.rebuild sessionId).turns.map
              (remapHistoricalTurn sessionId (s.batch.getD 0 + 1)) ++
                (s.current sessionId).turns }
        batch := some (s.batch.getD 0 + 1) } := by
  have hview : PiAgentWeb.prependHistoricalMessages settled.representation sessionId
      { projection := s.current sessionId, batch := s.batch.getD 0 } settled.messages =
        { projection :=
            { s.current sessionId with
              turns := (settled.rebuild sessionId).turns.map
                (remapHistoricalTurn sessionId (s.batch.getD 0 + 1)) ++
                  (s.current sessionId).turns }
          batch := s.batch.getD 0 + 1 } := by
    rw [PiAgentWeb.prependHistoricalMessages, if_neg hmessages]
    exact if_neg hturns
  rw [SessionProjection.step, if_neg hmessages, if_neg hturns]
  dsimp only
  rw [hview]

theorem Keyed.step (h : s.Keyed sessionId) (action : SessionProjectionAction) :
    (step sessionId s action).Keyed sessionId := by
  intro projection hprojection
  cases action with
  | applyEvents events =>
    simp only [SessionProjection.step] at hprojection ⊢
    split at hprojection
    · rw [if_pos (by assumption)]
      exact h projection hprojection
    · rw [if_neg (by assumption)]
      obtain rfl := Option.some.inj hprojection
      exact h.current.reduceEvents events
  | rebuildFromMessages settled =>
    obtain rfl := Option.some.inj hprojection
    exact settled.keyed sessionId 0
  | prependHistoricalMessages settled =>
    by_cases hmessages : settled.messages.isEmpty = true
    · rw [SessionProjection.step, if_pos hmessages] at hprojection ⊢
      exact h projection hprojection
    · by_cases hturns : (settled.rebuild sessionId).turns.isEmpty = true
      · rw [SessionProjection.step, if_neg hmessages, if_pos hturns] at hprojection ⊢
        exact h projection hprojection
      · rw [step_prepend s hmessages hturns] at hprojection ⊢
        obtain rfl := Option.some.inj hprojection
        exact h.current.prepend settled rfl rfl rfl
  | applyAuthoritativeSnapshot settled projectionEvents =>
    obtain rfl := Option.some.inj hprojection
    exact (settled.keyed sessionId 0).reduceEvents _
  | markRuntimeFailure now error =>
    simp only [SessionProjection.step] at hprojection ⊢
    cases hold : s.projection with
    | none => simp [hold] at hprojection
    | some old =>
      simp only [hold] at hprojection ⊢
      split at hprojection
      · exact h projection hprojection
      · exact h projection hprojection
      · obtain rfl := Option.some.inj hprojection
        refine (h old hold).mapTurns (f := fun turn =>
          if some turn.id = old.activeTurnId then failTurn now error turn else turn)
          (fun turn => ?_) (fun turn hturn => ?_) rfl rfl nofun
        · split <;> rfl
        · split
          · exact ProductTurn.Keyed.converge (hturn.of_same rfl rfl)
          · exact hturn
  | resetSession => cases hprojection
  | prune => cases hprojection

theorem run_keyed (sessionId : JsString) (actions : List SessionProjectionAction) :
    (runFrom (step sessionId) initial actions).Keyed sessionId :=
  runFrom_invariant (fun _ action h => h.step action) actions nofun

end SessionProjection

/-! ## No two blocks have one key -/

/-- The keys of the blocks of a step. -/
def AssistantStep.blockKeys (step : AssistantStep) : List JsString :=
  step.blocks.filterMap (Option.map ContentBlock.key)

/-- The keys of the blocks of a turn. -/
def ProductTurn.blockKeys (turn : ProductTurn) : List JsString :=
  turn.steps.flatMap AssistantStep.blockKeys

/-- The keys of all blocks of the projection. -/
def ConversationProjection.blockKeys (projection : ConversationProjection) : List JsString :=
  projection.turns.flatMap ProductTurn.blockKeys

/-- The keys of all steps of the projection. -/
def ConversationProjection.stepKeys (projection : ConversationProjection) : List JsString :=
  projection.turns.flatMap fun turn => turn.steps.map (·.key)

theorem StepKeyed.mem_blockKeys {key found : JsString} {step : AssistantStep}
    (h : StepKeyed key step) (hfound : found ∈ step.blockKeys) :
    ∃ index, found = key ++ js ":" ++ jsNat index := by
  obtain ⟨entry, hentry, hkey⟩ := List.mem_filterMap.mp hfound
  obtain ⟨block, rfl, rfl⟩ := Option.map_eq_some_iff.mp hkey
  obtain ⟨index, hindex⟩ := List.mem_iff_getElem?.mp hentry
  exact ⟨index, h.blocks index block (by simp [blockAt, hindex])⟩

theorem StepKeyed.nodup_blockKeys {key : JsString} {step : AssistantStep}
    (h : StepKeyed key step) : step.blockKeys.Nodup := by
  rw [AssistantStep.blockKeys, List.Nodup, List.pairwise_filterMap, List.pairwise_iff_getElem]
  intro i j hi hj hij key₁ hkey₁ key₂ hkey₂ heq
  obtain ⟨block₁, hblock₁, rfl⟩ := Option.map_eq_some_iff.mp hkey₁
  obtain ⟨block₂, hblock₂, rfl⟩ := Option.map_eq_some_iff.mp hkey₂
  rw [h.blocks i block₁ (by simp [blockAt, List.getElem?_eq_getElem hi, hblock₁]),
    h.blocks j block₂ (by simp [blockAt, List.getElem?_eq_getElem hj, hblock₂])] at heq
  exact absurd (decimalKey_inj heq).2 (Nat.ne_of_lt hij)

theorem ProductTurn.Keyed.mem_blockKeys (h : turn.Keyed) {found : JsString}
    (hfound : found ∈ turn.blockKeys) :
    ∃ stepIndex index, found = stepKeyOf turn.id stepIndex ++ js ":" ++ jsNat index := by
  obtain ⟨step, hstep, hkey⟩ := List.mem_flatMap.mp hfound
  obtain ⟨stepIndex, hindex⟩ := List.mem_iff_getElem?.mp hstep
  exact ⟨stepIndex, (h stepIndex step hindex).mem_blockKeys hkey⟩

theorem ProductTurn.Keyed.nodup_blockKeys (h : turn.Keyed) :
    turn.blockKeys.Nodup := by
  refine List.nodup_flatMap.mpr ⟨fun step hstep => ?_, ?_⟩
  · obtain ⟨index, hindex⟩ := List.mem_iff_getElem?.mp hstep
    exact (h index step hindex).nodup_blockKeys
  · rw [List.pairwise_iff_getElem]
    intro i j hi hj hij found hleft hright
    obtain ⟨_, heq⟩ := (h i _ (List.getElem?_eq_getElem hi)).mem_blockKeys hleft
    obtain ⟨_, heq'⟩ := (h j _ (List.getElem?_eq_getElem hj)).mem_blockKeys hright
    exact absurd (decimalKey_inj (decimalKey_inj (heq.symm.trans heq')).1).2 (Nat.ne_of_lt hij)

theorem ProductTurn.Keyed.nodup_stepKeys (h : turn.Keyed) :
    (turn.steps.map (·.key)).Nodup := by
  rw [List.Nodup, List.pairwise_map, List.pairwise_iff_getElem]
  intro i j hi hj hij heq
  rw [(h i _ (List.getElem?_eq_getElem hi)).own, (h j _ (List.getElem?_eq_getElem hj)).own] at heq
  exact absurd (decimalKey_inj heq).2 (Nat.ne_of_lt hij)

theorem ProjectionKeyed.pairwise_id (h : ProjectionKeyed sessionId batch projection) :
    projection.turns.Pairwise fun turn turn' =>
      (turn.Keyed ∧ turn'.Keyed) ∧ turn.id ≠ turn'.id := by
  have hids := List.pairwise_map.mp h.nodup
  exact hids.imp_of_mem fun hleft hright hne => ⟨⟨h.keyed _ hleft, h.keyed _ hright⟩, hne⟩

theorem ProjectionKeyed.nodup_blockKeys (h : ProjectionKeyed sessionId batch projection) :
    projection.blockKeys.Nodup := by
  refine List.nodup_flatMap.mpr ⟨fun turn hturn => (h.keyed turn hturn).nodup_blockKeys, ?_⟩
  refine h.pairwise_id.imp fun {turn turn'} ⟨⟨hturn, hturn'⟩, hne⟩ found hleft hright => ?_
  obtain ⟨_, _, heq⟩ := hturn.mem_blockKeys hleft
  obtain ⟨_, _, heq'⟩ := hturn'.mem_blockKeys hright
  exact hne (decimalKey_inj (decimalKey_inj (heq.symm.trans heq')).1).1

theorem ProjectionKeyed.nodup_stepKeys (h : ProjectionKeyed sessionId batch projection) :
    projection.stepKeys.Nodup := by
  refine List.nodup_flatMap.mpr ⟨fun turn hturn => (h.keyed turn hturn).nodup_stepKeys, ?_⟩
  refine h.pairwise_id.imp fun {turn turn'} ⟨⟨hturn, hturn'⟩, hne⟩ found hleft hright => ?_
  have hkey : ∀ turn : ProductTurn, turn.Keyed → found ∈ turn.steps.map (·.key) →
      ∃ index, found = stepKeyOf turn.id index := by
    intro turn hturn hfound
    obtain ⟨step, hstep, rfl⟩ := List.mem_map.mp hfound
    obtain ⟨index, hindex⟩ := List.mem_iff_getElem?.mp hstep
    exact ⟨index, (hturn index step hindex).own⟩
  obtain ⟨_, heq⟩ := hkey turn hturn hleft
  obtain ⟨_, heq'⟩ := hkey turn' hturn' hright
  exact hne (decimalKey_inj (heq.symm.trans heq')).1

/-! ## Tool calls addressed by an index -/

/-- The content index at which a stream event addresses a tool call. -/
def AssistantMessageStreamEvent.toolCallIndex {J : Type} :
    AssistantMessageStreamEvent J → Option ℕ
  | .toolcallStart index _ _ | .delta .toolcallDelta index _ | .toolcallEnd index _ => some index
  | _ => none

theorem blockAt_ensureBlock (step : AssistantStep) {index : ℕ} (h : index < arrayIndexBound)
    (kind : BlockKind) :
    blockAt (ensureBlock step index kind).1.blocks index =
      some (ensureBlock step index kind).2 := by
  unfold ensureBlock
  split
  · next existing hexisting =>
    split
    · exact hexisting
    · exact blockAt_setBlock _ h _
  · exact blockAt_setBlock _ h _

theorem ensureBlock_of_le {index : ℕ} (h : arrayIndexBound ≤ index) (step : AssistantStep)
    (kind : BlockKind) : (ensureBlock step index kind).1 = step := by
  unfold ensureBlock
  simp only [replaceBlock_of_le h]
  split
  · split <;> rfl
  · rfl

theorem applyStreamEvent_toolCall (ctx : ReducerContext J T) (step : AssistantStep)
    {event : AssistantMessageStreamEvent J} {index : ℕ} (h : event.toolCallIndex = some index)
    (hbound : index < arrayIndexBound) :
    ∃ block, blockAt (applyStreamEvent ctx step event).blocks index = some (.toolCall block) := by
  obtain ⟨hkind, -⟩ := ensureBlock_spec step index .toolCall
  have hblock : ∃ block, (ensureBlock step index .toolCall).2 = .toolCall block := by
    cases hfound : (ensureBlock step index .toolCall).2 with
    | toolCall block => exact ⟨block, rfl⟩
    | _ => rw [hfound] at hkind; cases hkind
  obtain ⟨block, hblock⟩ := hblock
  cases event with
  | toolcallStart place =>
    obtain rfl : place = index := Option.some.inj h
    exact ⟨block, by rw [← hblock]; exact blockAt_ensureBlock _ hbound _⟩
  | toolcallEnd place toolCall =>
    obtain rfl : place = index := Option.some.inj h
    simp only [applyStreamEvent, hblock]
    exact ⟨_, blockAt_setBlock _ hbound _⟩
  | delta type place delta =>
    cases type with
    | toolcallDelta =>
      obtain rfl : place = index := Option.some.inj h
      rw [applyStreamEvent_delta]
      simp only [DeltaType.blockKind, hblock, ContentBlock.append]
      exact ⟨_, blockAt_setBlock _ hbound _⟩
    | _ => cases h
  | _ => cases h

/-- The tool call that a stream event addresses by its content index is a block of the last step of
the active turn, and its key occurs once in the projection. -/
def AddressedOnce (projection : ConversationProjection) (index : ℕ) : Prop :=
  ∃ turn ∈ projection.turns, projection.activeTurnId = some turn.id ∧
    ∃ step, turn.steps.getLast? = some step ∧
      ∃ block : ToolCallBlock, blockAt step.blocks index = some (.toolCall block) ∧
        block.key = blockKeyOf step index ∧ projection.blockKeys.count block.key = 1

theorem ProjectionKeyed.addressedOnce (h : ProjectionKeyed sessionId batch projection)
    (ctx : ReducerContext J T) {update : MessageUpdate J} {index : ℕ}
    (hindex : update.assistantMessageEvent.toolCallIndex = some index)
    (hbound : index < arrayIndexBound) :
    AddressedOnce (reduceProjection ctx projection (.messageUpdate update)) index := by
  have hnext := h.reduce ctx (.messageUpdate update)
  obtain ⟨hactive, hid, hmem⟩ := ensureTurn_spec projection ctx
  obtain ⟨hopenId, hlast, -⟩ := ensureOpenStep_spec (PiAgentWeb.ensureTurn projection ctx).2 ctx
  obtain ⟨block, hblock⟩ := applyStreamEvent_toolCall ctx
    (ensureOpenStep (PiAgentWeb.ensureTurn projection ctx).2 ctx).2 hindex hbound
  let step : AssistantStep :=
    { applyStreamEvent ctx (ensureOpenStep (PiAgentWeb.ensureTurn projection ctx).2 ctx).2
        update.assistantMessageEvent with usage := some update.usage }
  let turn := withLastStep (ensureOpenStep (PiAgentWeb.ensureTurn projection ctx).2 ctx).1 step
  have hturn : turn ∈ (reduceProjection ctx projection (.messageUpdate update)).turns :=
    List.mem_map.mpr ⟨_, hmem, if_pos hopenId.symm⟩
  have hstep : turn.steps.getLast? = some step := getLast?_withLastStep hlast step
  have hkeyed : StepKeyed (stepKeyOf turn.id (turn.steps.length - 1)) step := by
    refine hnext.keyed turn hturn _ step ?_
    rw [← List.getLast?_eq_getElem?]
    exact hstep
  have hkey : ContentBlock.key (.toolCall block) = blockKeyOf step index := by
    rw [blockKeyOf, hkeyed.own]
    exact hkeyed.blocks index _ hblock
  have hstepMem : step ∈ turn.steps := List.mem_of_getLast? hstep
  have hblockMem : some (ContentBlock.toolCall block) ∈ step.blocks :=
    List.mem_of_getElem? (Option.join_eq_some_iff.mp hblock)
  have hkeyMem : block.key ∈
      (reduceProjection ctx projection (.messageUpdate update)).blockKeys :=
    List.mem_flatMap.mpr ⟨turn, hturn, List.mem_flatMap.mpr ⟨step, hstepMem,
      List.mem_filterMap.mpr ⟨_, hblockMem, rfl⟩⟩⟩
  refine ⟨turn, hturn, ?_, step, hstep, block, hblock, hkey, ?_⟩
  · exact hactive.trans (congrArg some hopenId.symm)
  · exact List.count_eq_one_of_mem hnext.nodup_blockKeys hkeyMem

/-- In every run of the store the ids of the turns are distinct, every step has the key of its turn
and index and every block that of its step and index, no two steps and no two blocks have one key,
the active id names a turn, and an event addresses a tool call by an index of an array as exactly
one block. -/
theorem projection_keys (sessionId : JsString) (actions : List SessionProjectionAction)
    (projection : ConversationProjection) :
    (runFrom (SessionProjection.step sessionId) .initial actions).projection = some projection →
      (projection.turns.map (·.id)).Nodup ∧
      (∀ turn ∈ projection.turns, ∀ index step, turn.steps[index]? = some step →
        step.key = stepKeyOf turn.id index ∧
        ∀ place block, blockAt step.blocks place = some block →
          block.key = blockKeyOf step place) ∧
      (projection.stepKeys.Nodup ∧ projection.blockKeys.Nodup) ∧
      (∀ id, projection.activeTurnId = some id → ∃ turn ∈ projection.turns, turn.id = id) ∧
      ∀ (J T : Type) (ctx : ReducerContext J T) (update : MessageUpdate J) (index : ℕ),
        update.assistantMessageEvent.toolCallIndex = some index → index < arrayIndexBound →
          AddressedOnce (reduceProjection ctx projection (.messageUpdate update)) index := by
  intro hprojection
  have h := SessionProjection.run_keyed sessionId actions projection hprojection
  refine ⟨h.nodup, fun turn hturn index step hstep => ?_, ⟨h.nodup_stepKeys, h.nodup_blockKeys⟩,
    h.active, fun J T ctx update index hindex hbound => h.addressedOnce ctx hindex hbound⟩
  have hkeyed := h.keyed turn hturn index step hstep
  refine ⟨hkeyed.own, fun place block hblock => ?_⟩
  rw [blockKeyOf, hkeyed.own]
  exact hkeyed.blocks place block hblock

/-- The context of the sample run. -/
def sampleKeyContext : ReducerContext Json Json :=
  { now := 0, representation := wireRepresentation, resolveInjectionSource := fun _ => none,
    tt := fun _ => [] }

/-- A snapshot, a live tool call at the second content index, and an older page. -/
def sampleKeyActions : List SessionProjectionAction :=
  let user : SettledBatch :=
    { representation := wireRepresentation
      messages := [{ message := .user (.string (js "hi")) [], timestamp := none }] }
  [.applyAuthoritativeSnapshot user
      [{ ctx := sampleKeyContext, event := .agentStart },
        { ctx := sampleKeyContext
          event := .messageUpdate
            { usage := ⟨0, 0, 0, 0, 0, 0, none, none, 0, 0, 0, 0⟩
              assistantMessageEvent := .toolcallStart 1 none none } }],
    .prependHistoricalMessages user]

/-- The keys of the sample run. -/
theorem projection_keys_sample :
    ∃ projection,
      (runFrom (SessionProjection.step (js "s")) .initial sampleKeyActions).projection =
        some projection ∧
      (projection.turns.map (·.id) = [js "history:s:1:turn-1", js "turn-1", js "turn-2"] ∧
        projection.blockKeys = [js "turn-2:0:1"]) ∧ projection.blockKeys.Nodup := by
  obtain ⟨projection, hprojection⟩ := Option.isSome_iff_exists.mp
    (show (runFrom (SessionProjection.step (js "s")) .initial
      sampleKeyActions).projection.isSome = true by decide +kernel)
  have hkeys : (runFrom (SessionProjection.step (js "s")) .initial sampleKeyActions).projection.map
      (fun p => (p.turns.map (·.id), p.blockKeys)) =
        some ([js "history:s:1:turn-1", js "turn-1", js "turn-2"], [js "turn-2:0:1"]) := by
    decide +kernel
  rw [hprojection] at hkeys
  exact ⟨projection, hprojection, Prod.mk.inj (Option.some.inj hkeys),
    (projection_keys (js "s") sampleKeyActions projection hprojection).2.2.1.2⟩

/-- The start of a tool call at the first index that no element of an array has. -/
def sampleOutsideUpdate : MessageUpdate Json :=
  { usage := ⟨0, 0, 0, 0, 0, 0, none, none, 0, 0, 0, 0⟩
    assistantMessageEvent := .toolcallStart arrayIndexBound none none }

/-- A block that is addressed by such an index is nowhere in the projection. -/
theorem projection_drops_block :
    ∃ projection,
      (runFrom (SessionProjection.step (js "s")) .initial sampleKeyActions).projection =
        some projection ∧
      ¬AddressedOnce
        (reduceProjection sampleKeyContext projection (.messageUpdate sampleOutsideUpdate))
        arrayIndexBound := by
  obtain ⟨projection, hprojection⟩ := Option.isSome_iff_exists.mp
    (show (runFrom (SessionProjection.step (js "s")) .initial
      sampleKeyActions).projection.isSome = true by decide +kernel)
  have hnone : (runFrom (SessionProjection.step (js "s")) .initial
      sampleKeyActions).projection.all (fun p =>
        (reduceProjection sampleKeyContext p (.messageUpdate sampleOutsideUpdate)).turns.all
          fun turn => turn.steps.all fun step =>
            (blockAt step.blocks arrayIndexBound).isNone) = true := by
    decide +kernel
  rw [hprojection] at hnone
  refine ⟨projection, hprojection, fun haddressed => ?_⟩
  obtain ⟨turn, hturn, -, step, hstep, block, hblock, -⟩ := haddressed
  have hempty := List.all_eq_true.mp (List.all_eq_true.mp hnone turn hturn) step
    (List.mem_of_getLast? hstep)
  rw [hblock] at hempty
  cases hempty

end PiAgentWeb
