import PiAgentWeb.Library.DecimalKeys
import PiAgentWeb.UI.DeltaMerging
import PiAgentWeb.UI.ProjectionStore
import Mathlib.Data.List.Nodup

/-!
# Keys of the projection

The id of a turn comes from the sequence of live turns or from the page it was put in front with,
the key of a step from its turn and its index, the key of a block from its step and its content
index. Numbers stand after colons, so none of these keys can collide, whatever the order in which
live events, snapshots and pages arrive.
-/

namespace PiAgentWeb

variable {J T : Type}

/-- The key of a block. -/
def ContentBlock.key : ContentBlock → JsString
  | .thinking block => block.key
  | .text block => block.key
  | .toolCall block => block.key

/-- The key of the step of a turn at an index. -/
def stepKeyOf (turnId : JsString) (index : ℕ) : JsString := turnId ++ js ":" ++ jsNat index

/-! ## Steps -/

/-- The step has the key, and each of its blocks has the key of its index. -/
structure StepKeyed (key : JsString) (step : AssistantStep) : Prop where
  own : step.key = key
  blocks : ∀ index block, blockAt step.blocks index = some block →
    block.key = key ++ js ":" ++ jsNat index

theorem blockAt_setBlock_of_ne (blocks : List (Option ContentBlock)) {index other : ℕ}
    (h : other ≠ index) (block : ContentBlock) :
    blockAt (setBlock blocks index block) other = blockAt blocks other := by
  unfold blockAt setBlock
  split
  · rfl
  split
  · rw [List.getElem?_set_ne (Ne.symm h)]
  · rcases Nat.lt_or_ge other blocks.length with hold | hnew
    · rw [List.append_assoc, List.getElem?_append_left hold]
    · have hnone : blocks[other]? = none := List.getElem?_eq_none hnew
      rw [hnone]
      rcases Nat.lt_or_ge other index with hhole | hbeyond
      · rw [List.getElem?_append_left (by simp; omega), List.getElem?_append_right hnew,
          List.getElem?_replicate]
        rw [if_pos (by omega)]
        rfl
      · rw [List.getElem?_eq_none (by simp; omega)]

variable {key : JsString} {step step' : AssistantStep}

theorem StepKeyed.of_same (h : StepKeyed key step) (hkey : step'.key = step.key)
    (hblocks : step'.blocks = step.blocks) : StepKeyed key step' :=
  ⟨hkey.trans h.own, hblocks ▸ h.blocks⟩

theorem StepKeyed.map (h : StepKeyed key step) {f : ContentBlock → ContentBlock}
    (hf : ∀ block, (f block).key = block.key) (hkey : step'.key = step.key)
    (hblocks : step'.blocks = step.blocks.map (Option.map f)) : StepKeyed key step' where
  own := hkey.trans h.own
  blocks index block hblock := by
    rw [hblocks, blockAt, List.getElem?_map] at hblock
    cases hold : step.blocks[index]? with
    | none => simp [hold] at hblock
    | some entry =>
      cases entry with
      | none => simp [hold] at hblock
      | some old =>
        obtain rfl : f old = block := by simpa [hold] using hblock
        rw [hf]
        exact h.blocks index old (by simp [blockAt, hold])

theorem StepKeyed.replaceBlock (h : StepKeyed key step) {index : ℕ} {block : ContentBlock}
    (hblock : block.key = key ++ js ":" ++ jsNat index) :
    StepKeyed key (replaceBlock step index block) where
  own := h.own
  blocks other found hfound := by
    by_cases hother : other = index
    · subst hother
      rcases Nat.lt_or_ge other arrayIndexBound with hindex | hbound
      · rw [PiAgentWeb.replaceBlock, blockAt_setBlock _ hindex] at hfound
        obtain rfl := Option.some.inj hfound
        exact hblock
      · rw [replaceBlock_of_le hbound] at hfound
        exact h.blocks other found hfound
    · rw [PiAgentWeb.replaceBlock, blockAt_setBlock_of_ne _ hother] at hfound
      exact h.blocks other found hfound

theorem key_emptyBlock (key : JsString) (kind : BlockKind) : (emptyBlock key kind).key = key := by
  cases kind <;> rfl

theorem StepKeyed.ensureBlock (h : StepKeyed key step) (index : ℕ) (kind : BlockKind) :
    StepKeyed key (ensureBlock step index kind).1 ∧
      (ensureBlock step index kind).2.key = key ++ js ":" ++ jsNat index := by
  have hempty : (emptyBlock (blockKeyOf step index) kind).key = key ++ js ":" ++ jsNat index := by
    rw [key_emptyBlock, blockKeyOf, h.own]
  unfold PiAgentWeb.ensureBlock
  split
  · next existing hexisting =>
    split
    · exact ⟨h, h.blocks index existing hexisting⟩
    · exact ⟨h.replaceBlock hempty, hempty⟩
  · exact ⟨h.replaceBlock hempty, hempty⟩

theorem StepKeyed.applyStreamEvent (h : StepKeyed key step) (ctx : ReducerContext J T)
    (event : AssistantMessageStreamEvent J) : StepKeyed key (applyStreamEvent ctx step event) := by
  have hensure := fun index kind => h.ensureBlock index kind
  cases event with
  | start => exact h
  | done => exact h
  | error => exact h
  | textStart index => exact (hensure index .text).1
  | thinkingStart index => exact (hensure index .thinking).1
  | toolcallStart index => exact (hensure index .toolCall).1
  | delta type index delta =>
    obtain ⟨hkeyed, hblock⟩ := hensure index type.blockKind
    rw [applyStreamEvent_delta]
    refine h.replaceBlock ?_
    rw [← hblock]
    cases (PiAgentWeb.ensureBlock step index type.blockKind).2 <;> rfl
  | textEnd index content =>
    obtain ⟨hkeyed, hblock⟩ := hensure index .text
    simp only [PiAgentWeb.applyStreamEvent]
    split
    · next block hfound =>
      rw [hfound] at hblock
      exact hkeyed.replaceBlock hblock
    · exact h
  | thinkingEnd index content =>
    obtain ⟨hkeyed, hblock⟩ := hensure index .thinking
    simp only [PiAgentWeb.applyStreamEvent]
    split
    · next block hfound =>
      rw [hfound] at hblock
      exact hkeyed.replaceBlock hblock
    · exact h
  | toolcallEnd index toolCall =>
    obtain ⟨hkeyed, hblock⟩ := hensure index .toolCall
    simp only [PiAgentWeb.applyStreamEvent]
    split
    · next block hfound =>
      rw [hfound] at hblock
      exact hkeyed.replaceBlock hblock
    · exact h

theorem blockAt_zipIdx_map {A : Type} {content : List A} {f : A × ℕ → ContentBlock} {index : ℕ}
    {block : ContentBlock}
    (h : blockAt (content.zipIdx.map fun entry => some (f entry)) index = some block) :
    ∃ item, content[index]? = some item ∧ block = f (item, index) := by
  rw [blockAt, List.getElem?_map, List.getElem?_zipIdx] at h
  cases hitem : content[index]? with
  | none => simp [hitem] at h
  | some item => exact ⟨item, rfl, by simpa [hitem, eq_comm] using h⟩

theorem key_finalBlock (ctx : ReducerContext J T) (key : JsString)
    (historicalError : JsString → Bool) (existing : Option ContentBlock)
    (content : AssistantContent J) :
    (finalBlock ctx key historicalError existing content).key = key := by
  cases content <;> rfl

theorem StepKeyed.settle (h : StepKeyed key step) (ctx : ReducerContext J T)
    (message : AssistantMessage J) : StepKeyed key (settleAssistantStep ctx step message) := by
  have hmarked : ∀ marked : AssistantStep, marked.key = key → ∀ f : AssistantContent J × ℕ →
      ContentBlock, (∀ entry, (f entry).key = blockKeyOf marked entry.2) →
      ∀ index block, blockAt (message.content.zipIdx.map fun entry => some (f entry)) index =
        some block → block.key = key ++ js ":" ++ jsNat index := by
    intro marked hkey f hf index block hblock
    obtain ⟨item, -, rfl⟩ := blockAt_zipIdx_map hblock
    rw [hf, blockKeyOf, hkey]
  unfold settleAssistantStep
  split
  · exact ⟨h.own, hmarked _ h.own _ fun entry => key_finalBlock ..⟩
  · exact ⟨h.own, hmarked _ h.own _ fun entry => key_finalBlock ..⟩

theorem updateToolBlockIn_eq {toolCallId : JsString} {patch : ToolCallBlock → ToolCallBlock}
    {blocks blocks' : List (Option ContentBlock)}
    (h : updateToolBlockIn toolCallId patch blocks = some blocks') :
    ∃ index block, blocks[index]? = some (some (.toolCall block)) ∧
      block.toolCallId = toolCallId ∧
      blocks' = blocks.set index (some (.toolCall (patch block))) := by
  fun_induction updateToolBlockIn toolCallId patch blocks generalizing blocks' with
  | case1 => cases h
  | case2 block rest hid =>
    obtain rfl := Option.some.inj h
    exact ⟨0, block, rfl, hid, rfl⟩
  | case3 block rest hid ih =>
    obtain ⟨rest', hrest, rfl⟩ := Option.map_eq_some_iff.mp h
    obtain ⟨index, found, hfound, hcall, rfl⟩ := ih hrest
    exact ⟨index + 1, found, hfound, hcall, rfl⟩
  | case4 block rest hother ih =>
    obtain ⟨rest', hrest, rfl⟩ := Option.map_eq_some_iff.mp h
    obtain ⟨index, found, hfound, hcall, rfl⟩ := ih hrest
    exact ⟨index + 1, found, hfound, hcall, rfl⟩

theorem updateToolBlockSteps_eq (toolCallId : JsString) (patch : ToolCallBlock → ToolCallBlock)
    (steps : List AssistantStep) :
    updateToolBlockSteps toolCallId patch steps = steps ∨
      ∃ (index : ℕ) (step : AssistantStep) (blocks : List (Option ContentBlock)),
        steps[index]? = some step ∧
        updateToolBlockIn toolCallId patch step.blocks = some blocks ∧
        updateToolBlockSteps toolCallId patch steps =
          steps.set index { step with blocks := blocks } := by
  induction steps with
  | nil => exact .inl rfl
  | cons step rest ih =>
    unfold updateToolBlockSteps
    split
    · next blocks hblocks => exact .inr ⟨0, step, blocks, rfl, hblocks, rfl⟩
    · rcases ih with hsame | ⟨index, found, blocks, hfound, hblocks, heq⟩
      · exact .inl (by rw [hsame])
      · exact .inr ⟨index + 1, found, blocks, hfound, hblocks, by rw [heq]; rfl⟩

theorem StepKeyed.patch (h : StepKeyed key step) {toolCallId : JsString}
    {patch : ToolCallBlock → ToolCallBlock} {blocks : List (Option ContentBlock)}
    (hblocks : updateToolBlockIn toolCallId patch step.blocks = some blocks)
    (hpatch : ∀ block, (patch block).key = block.key) :
    StepKeyed key { step with blocks := blocks } where
  own := h.own
  blocks index found hfound := by
    obtain ⟨place, block, hblock, -, rfl⟩ := updateToolBlockIn_eq hblocks
    by_cases hindex : place = index
    · subst hindex
      have hlength : place < step.blocks.length := (List.getElem?_eq_some_iff.mp hblock).1
      simp only [blockAt, List.getElem?_set_self hlength, Option.join_some,
        Option.some.injEq] at hfound
      subst hfound
      refine (hpatch block).trans ?_
      exact h.blocks place (.toolCall block) (by simp [blockAt, hblock])
    · simp only [blockAt, List.getElem?_set_ne hindex] at hfound
      exact h.blocks index found hfound

/-! ## Turns -/

/-- Every step of the turn has the key of its index. -/
def ProductTurn.Keyed (turn : ProductTurn) : Prop :=
  ∀ index step, turn.steps[index]? = some step → StepKeyed (stepKeyOf turn.id index) step

variable {turn turn' : ProductTurn}

theorem ProductTurn.Keyed.of_same (h : turn.Keyed) (hid : turn'.id = turn.id)
    (hsteps : turn'.steps = turn.steps) : turn'.Keyed := by
  intro index step hstep
  rw [hid]
  exact h index step (hsteps ▸ hstep)

theorem ProductTurn.keyed_of_nil (h : turn.steps = []) : turn.Keyed := by
  intro index step hstep
  simp [h] at hstep

theorem ProductTurn.Keyed.mapSteps (h : turn.Keyed) {f : AssistantStep → AssistantStep}
    (hf : ∀ key step, StepKeyed key step → StepKeyed key (f step)) (hid : turn'.id = turn.id)
    (hsteps : turn'.steps = turn.steps.map f) : turn'.Keyed := by
  intro index step hstep
  rw [hsteps, List.getElem?_map] at hstep
  obtain ⟨old, hold, rfl⟩ := Option.map_eq_some_iff.mp hstep
  rw [hid]
  exact hf _ old (h index old hold)

theorem ProductTurn.Keyed.set (h : turn.Keyed) {index : ℕ} {old : AssistantStep}
    (hold : turn.steps[index]? = some old)
    (hstep : ∀ key, StepKeyed key old → StepKeyed key step) (hid : turn'.id = turn.id)
    (hsteps : turn'.steps = turn.steps.set index step) : turn'.Keyed := by
  intro other found hfound
  rw [hsteps] at hfound
  rw [hid]
  by_cases hother : index = other
  · subst hother
    rw [List.getElem?_set_self (List.getElem?_eq_some_iff.mp hold).1] at hfound
    obtain rfl := Option.some.inj hfound
    exact hstep _ (h index old hold)
  · rw [List.getElem?_set_ne hother] at hfound
    exact h other found hfound

theorem ProductTurn.Keyed.withLastStep (h : turn.Keyed) {last : AssistantStep}
    (hlast : turn.steps.getLast? = some last)
    (hstep : ∀ key, StepKeyed key last → StepKeyed key step) : (withLastStep turn step).Keyed := by
  rw [List.getLast?_eq_getElem?] at hlast
  exact h.set hlast hstep rfl rfl

theorem ProductTurn.Keyed.append (h : turn.Keyed)
    (hstep : StepKeyed (stepKeyOf turn.id turn.steps.length) step) (hid : turn'.id = turn.id)
    (hsteps : turn'.steps = turn.steps ++ [step]) : turn'.Keyed := by
  intro index found hfound
  rw [hsteps] at hfound
  rw [hid]
  rcases Nat.lt_trichotomy index turn.steps.length with hlt | heq | hgt
  · rw [List.getElem?_append_left hlt] at hfound
    exact h index found hfound
  · subst heq
    obtain rfl : step = found := by simpa using hfound
    exact hstep
  · rw [List.getElem?_eq_none (by simp; omega)] at hfound
    cases hfound

theorem stepKeyed_of_nil (hkey : step.key = key) (hblocks : step.blocks = []) :
    StepKeyed key step := by
  refine ⟨hkey, fun index block hblock => ?_⟩
  simp [hblocks, blockAt] at hblock

theorem ProductTurn.Keyed.ensureStep (h : turn.Keyed) (ctx : ReducerContext J T) :
    (ensureStep turn ctx).1.Keyed :=
  h.append (stepKeyed_of_nil rfl rfl) rfl rfl

theorem ProductTurn.Keyed.ensureOpenStep (h : turn.Keyed) (ctx : ReducerContext J T) :
    (ensureOpenStep turn ctx).1.Keyed := by
  unfold PiAgentWeb.ensureOpenStep
  split
  · split
    · exact h.ensureStep ctx
    · exact h
  · exact h.ensureStep ctx

theorem ProductTurn.Keyed.converge (h : turn.Keyed) : (convergeHangingToolCalls turn).Keyed := by
  refine h.mapSteps (fun key step hstep => ?_) rfl rfl
  refine hstep.map (fun block => ?_) rfl rfl
  cases block with
  | toolCall block =>
    simp only [interruptHanging]
    split <;> rfl
  | _ => rfl

theorem ProductTurn.Keyed.updateToolBlock (h : turn.Keyed) {toolCallId : JsString}
    {patch : ToolCallBlock → ToolCallBlock} (hpatch : ∀ block, (patch block).key = block.key) :
    (updateToolBlock turn toolCallId patch).Keyed := by
  rcases updateToolBlockSteps_eq toolCallId patch turn.steps with
    hsame | ⟨index, found, blocks, hfound, hblocks, hsteps⟩
  · exact h.of_same rfl hsame
  · exact h.set hfound (fun key hstep => hstep.patch hblocks hpatch) rfl hsteps

theorem StepKeyed.upsertToolResult (h : StepKeyed key step) (result : UiToolResult) :
    StepKeyed key (upsertToolResult step result) := by
  refine h.map (fun block => ?_) rfl rfl
  cases block with
  | toolCall block =>
    simp only [markToolError]
    split <;> rfl
  | _ => rfl

/-! ## Projections -/

/-- The id of a turn of an older page. -/
def historyTurnId (sessionId : JsString) (batch : ℕ) (turnId : JsString) : JsString :=
  js "history:" ++ sessionId ++ js ":" ++ jsNat batch ++ js ":" ++ turnId

/-- The ids of live turns and of turns of older pages, up to a turn and a page. -/
def IssuedId (sessionId : JsString) (batch turnSeq : ℕ) (id : JsString) : Prop :=
  (∃ n, 1 ≤ n ∧ n ≤ turnSeq ∧ id = turnIdOf n) ∨
    ∃ b n, 1 ≤ b ∧ b ≤ batch ∧ id = historyTurnId sessionId b (turnIdOf n)

theorem turnIdOf_injective : Function.Injective turnIdOf := fun _ _ h =>
  jsNat_injective (List.append_cancel_left h)

theorem turnIdOf_ne_historyTurnId (sessionId : JsString) (n batch : ℕ) (id : JsString) :
    turnIdOf n ≠ historyTurnId sessionId batch id := by
  intro h
  have hturn : (turnIdOf n).head? = some 0x74 := by
    unfold turnIdOf
    rw [List.head?_append]
    rfl
  have hhistory : (historyTurnId sessionId batch id).head? = some 0x68 := by
    unfold historyTurnId
    simp only [List.head?_append]
    rfl
  rw [h, hhistory] at hturn
  exact absurd hturn (by decide)

theorem historyTurnId_inj {sessionId : JsString} {batch batch' : ℕ} {id id' : JsString}
    (h : historyTurnId sessionId batch id = historyTurnId sessionId batch' id') :
    batch = batch' ∧ id = id' := by
  have hcolon : js ":" = [0x3A] := by decide
  unfold historyTurnId at h
  simp only [List.append_assoc, hcolon, List.singleton_append] at h
  have htail := List.cons.inj (List.append_cancel_left (List.append_cancel_left h))
  obtain ⟨hbatch, hid⟩ :=
    append_cons_inj_left (colon_notMem_jsNat batch) (colon_notMem_jsNat batch') htail.2
  exact ⟨jsNat_injective hbatch, hid⟩

/-- The ids are issued and distinct, every turn is keyed, and the active id names a turn. -/
structure ProjectionKeyed (sessionId : JsString) (batch : ℕ) (projection : ConversationProjection) :
    Prop where
  issued : ∀ turn ∈ projection.turns, IssuedId sessionId batch projection.turnSeq turn.id
  nodup : (projection.turns.map (·.id)).Nodup
  keyed : ∀ turn ∈ projection.turns, turn.Keyed
  active : ∀ id, projection.activeTurnId = some id → ∃ turn ∈ projection.turns, turn.id = id

variable {sessionId : JsString} {batch : ℕ} {projection projection' : ConversationProjection}

theorem ProjectionKeyed.empty : ProjectionKeyed sessionId batch (createEmptyProjection sessionId) :=
  ⟨by rintro _ ⟨⟩, List.nodup_nil, by rintro _ ⟨⟩, by rintro _ ⟨⟩⟩

theorem ProjectionKeyed.of_ids (h : ProjectionKeyed sessionId batch projection)
    (hids : projection'.turns.map (·.id) = projection.turns.map (·.id))
    (hkeyed : ∀ turn ∈ projection'.turns, turn.Keyed)
    (hseq : projection'.turnSeq = projection.turnSeq)
    (hactive : ∀ id, projection'.activeTurnId = some id → projection.activeTurnId = some id) :
    ProjectionKeyed sessionId batch projection' where
  issued turn hturn := by
    have hid : turn.id ∈ projection.turns.map (·.id) := hids ▸ List.mem_map_of_mem hturn
    obtain ⟨old, hold, heq⟩ := List.mem_map.mp hid
    rw [hseq, ← heq]
    exact h.issued old hold
  nodup := hids ▸ h.nodup
  keyed := hkeyed
  active id hid := by
    obtain ⟨turn, hturn, rfl⟩ := h.active id (hactive id hid)
    have hmem : turn.id ∈ projection'.turns.map (·.id) := hids ▸ List.mem_map_of_mem hturn
    obtain ⟨other, hother, heq⟩ := List.mem_map.mp hmem
    exact ⟨other, hother, heq⟩

theorem ProjectionKeyed.mapTurns (h : ProjectionKeyed sessionId batch projection)
    {f : ProductTurn → ProductTurn} (hid : ∀ turn, (f turn).id = turn.id)
    (hkeyed : ∀ turn, turn.Keyed → (f turn).Keyed)
    (hturns : projection'.turns = projection.turns.map f)
    (hseq : projection'.turnSeq = projection.turnSeq)
    (hactive : ∀ id, projection'.activeTurnId = some id → projection.activeTurnId = some id) :
    ProjectionKeyed sessionId batch projection' := by
  refine h.of_ids ?_ ?_ hseq hactive
  · rw [hturns, List.map_map]
    exact List.map_congr_left fun turn _ => hid turn
  · intro turn hturn
    rw [hturns] at hturn
    obtain ⟨old, hold, rfl⟩ := List.mem_map.mp hturn
    exact hkeyed old (h.keyed old hold)

theorem ProjectionKeyed.withTurn (h : ProjectionKeyed sessionId batch projection)
    (hturn : turn.Keyed) : ProjectionKeyed sessionId batch (withTurn projection turn) := by
  refine h.of_ids ?_ ?_ rfl fun _ => id
  · simp only [PiAgentWeb.withTurn, List.map_map]
    refine List.map_congr_left fun old _ => ?_
    simp only [Function.comp_apply]
    split
    · next heq => exact heq.symm
    · rfl
  · intro new hnew
    obtain ⟨old, hold, rfl⟩ := List.mem_map.mp hnew
    split
    · exact hturn
    · exact h.keyed old hold

theorem ProjectionKeyed.append (h : ProjectionKeyed sessionId batch projection)
    (hid : turn.id = turnIdOf (projection.turnSeq + 1)) (hturn : turn.Keyed)
    (hturns : projection'.turns = projection.turns ++ [turn])
    (hseq : projection'.turnSeq = projection.turnSeq + 1)
    (hactive : ∀ id, projection'.activeTurnId = some id →
      id = turn.id ∨ projection.activeTurnId = some id) :
    ProjectionKeyed sessionId batch projection' where
  issued new hnew := by
    rw [hturns] at hnew
    rw [hseq]
    rcases List.mem_append.mp hnew with hold | hlast
    · rcases h.issued new hold with ⟨n, hn, hle, heq⟩ | hhistory
      · exact .inl ⟨n, hn, Nat.le_succ_of_le hle, heq⟩
      · exact .inr hhistory
    · obtain rfl := List.mem_singleton.mp hlast
      exact .inl ⟨_, Nat.le_add_left .., Nat.le_refl _, hid⟩
  nodup := by
    rw [hturns, List.map_append, List.map_singleton]
    refine List.nodup_append.mpr ⟨h.nodup, List.nodup_singleton _, ?_⟩
    intro old hold last hlast heq
    obtain rfl := List.mem_singleton.mp hlast
    obtain ⟨other, hother, rfl⟩ := List.mem_map.mp hold
    rw [hid] at heq
    rcases h.issued other hother with ⟨n, -, hle, hn⟩ | ⟨b, n, -, -, hn⟩
    · have := turnIdOf_injective (hn.symm.trans heq)
      omega
    · exact turnIdOf_ne_historyTurnId _ _ _ _ (heq.symm.trans hn)
  keyed new hnew := by
    rw [hturns] at hnew
    rcases List.mem_append.mp hnew with hold | hlast
    · exact h.keyed new hold
    · obtain rfl := List.mem_singleton.mp hlast
      exact hturn
  active id hid' := by
    rw [hturns]
    rcases hactive id hid' with rfl | hold
    · exact ⟨turn, by simp, rfl⟩
    · obtain ⟨old, hmem, heq⟩ := h.active id hold
      exact ⟨old, List.mem_append_left _ hmem, heq⟩

theorem ProjectionKeyed.ensureTurn (h : ProjectionKeyed sessionId batch projection)
    (ctx : ReducerContext J T) :
    ProjectionKeyed sessionId batch (ensureTurn projection ctx).1 ∧
      (ensureTurn projection ctx).2.Keyed := by
  have hkeyed : ProjectionKeyed sessionId batch (PiAgentWeb.ensureTurn projection ctx).1 := by
    unfold PiAgentWeb.ensureTurn
    split
    · exact h
    · exact h.append rfl (ProductTurn.keyed_of_nil rfl) rfl rfl fun id hid =>
        .inl (Option.some.inj hid).symm
  exact ⟨hkeyed, hkeyed.keyed _ (ensureTurn_spec projection ctx).2.2⟩

end PiAgentWeb
