import PiAgentWeb.Library.Coalescing
import PiAgentWeb.UI.ProjectionReducer

/-!
# Merged deltas in the reducer

Two deltas of one type and one content index are compatible: their merge carries the
concatenated text and the later usage. In every state, compatible or not with the stream, the
reducer does for the merge what it does for both deltas in order. The first delta leaves its
turn active, its step open and a block of the right kind at its index, which the second delta
finds again.
-/

namespace PiAgentWeb

open Coalescing

variable {J T : Type}

/-- The merge of two compatible deltas. -/
def mergeDelta : SessionEvent J T → SessionEvent J T → Option (SessionEvent J T)
  | .messageUpdate { assistantMessageEvent := .delta type contentIndex delta, .. },
      .messageUpdate
        { usage := usage, assistantMessageEvent := .delta type' contentIndex' delta' } =>
    if type = type' ∧ contentIndex = contentIndex' then
      some (.messageUpdate
        { usage := usage, assistantMessageEvent := .delta type' contentIndex' (delta ++ delta') })
    else none
  | _, _ => none

theorem mergeDelta_eq_some {first next merged : SessionEvent J T}
    (h : mergeDelta first next = some merged) :
    ∃ usage usage' type contentIndex delta delta',
      first = .messageUpdate
        { usage := usage, assistantMessageEvent := .delta type contentIndex delta } ∧
      next = .messageUpdate
        { usage := usage', assistantMessageEvent := .delta type contentIndex delta' } ∧
      merged = .messageUpdate
        { usage := usage'
          assistantMessageEvent := .delta type contentIndex (delta ++ delta') } := by
  unfold mergeDelta at h
  split at h
  · rename_i usage type contentIndex delta usage' type' contentIndex' delta'
    split at h
    · rename_i hsame
      obtain ⟨rfl, rfl⟩ := hsame
      exact ⟨usage, usage', type, contentIndex, delta, delta', rfl, rfl, by simpa using h.symm⟩
    · simp at h
  · simp at h

theorem setBlock_of_le {contentIndex : ℕ} (h : arrayIndexBound ≤ contentIndex)
    (blocks : List (Option ContentBlock)) (block : ContentBlock) :
    setBlock blocks contentIndex block = blocks := if_pos h

theorem blockAt_setBlock (blocks : List (Option ContentBlock)) {contentIndex : ℕ}
    (h : contentIndex < arrayIndexBound) (block : ContentBlock) :
    blockAt (setBlock blocks contentIndex block) contentIndex = some block := by
  unfold blockAt setBlock
  rw [if_neg (Nat.not_le_of_lt h)]
  split
  · simp_all
  · rw [List.getElem?_append_right (by simp; omega)]
    simp only [List.length_append, List.length_replicate]
    have h : contentIndex - (blocks.length + (contentIndex - blocks.length)) = 0 := by omega
    simp [h]

theorem lt_length_setBlock (blocks : List (Option ContentBlock)) {contentIndex : ℕ}
    (h : contentIndex < arrayIndexBound) (block : ContentBlock) :
    contentIndex < (setBlock blocks contentIndex block).length := by
  unfold setBlock
  rw [if_neg (Nat.not_le_of_lt h)]
  split
  · simpa
  · simp only [List.length_append, List.length_replicate, List.length_cons, List.length_nil]
    omega

@[simp] theorem setBlock_setBlock (blocks : List (Option ContentBlock)) (contentIndex : ℕ)
    (first second : ContentBlock) :
    setBlock (setBlock blocks contentIndex first) contentIndex second =
      setBlock blocks contentIndex second := by
  rcases Nat.lt_or_ge contentIndex arrayIndexBound with hindex | hbound
  swap
  · rw [setBlock_of_le hbound blocks first]
  have hlength := lt_length_setBlock blocks hindex first
  conv_lhs => rw [setBlock, if_neg (Nat.not_le_of_lt hindex), if_pos hlength]
  unfold setBlock
  simp only [if_neg (Nat.not_le_of_lt hindex)]
  split
  · simp
  · rw [List.set_append_right _ _ (by simp; omega)]
    simp only [List.length_append, List.length_replicate]
    have h : contentIndex - (blocks.length + (contentIndex - blocks.length)) = 0 := by omega
    simp [h]

theorem replaceBlock_of_le {contentIndex : ℕ} (h : arrayIndexBound ≤ contentIndex)
    (step : AssistantStep) (block : ContentBlock) :
    replaceBlock step contentIndex block = step := by
  rw [replaceBlock, setBlock_of_le h]

@[simp] theorem replaceBlock_replaceBlock (step : AssistantStep) (contentIndex : ℕ)
    (first second : ContentBlock) :
    replaceBlock (replaceBlock step contentIndex first) contentIndex second =
      replaceBlock step contentIndex second := by
  simp [replaceBlock]

/-- `ensureBlock` returns a block of the requested kind; replacing it in the returned step is
replacing it in the given one. -/
theorem ensureBlock_spec (step : AssistantStep) (contentIndex : ℕ) (kind : BlockKind) :
    (ensureBlock step contentIndex kind).2.kind = kind ∧
      ∀ block, replaceBlock (ensureBlock step contentIndex kind).1 contentIndex block =
        replaceBlock step contentIndex block := by
  have hempty : ∀ key, (emptyBlock key kind).kind = kind := by
    intro key
    cases kind <;> rfl
  unfold ensureBlock
  split
  · split
    · rename_i hkind
      exact ⟨hkind, fun _ => rfl⟩
    · exact ⟨hempty _, fun block => replaceBlock_replaceBlock _ _ _ _⟩
  · exact ⟨hempty _, fun block => replaceBlock_replaceBlock _ _ _ _⟩

theorem ensureBlock_replaceBlock (step : AssistantStep) {contentIndex : ℕ}
    (h : contentIndex < arrayIndexBound) (block : ContentBlock) :
    ensureBlock (replaceBlock step contentIndex block) contentIndex block.kind =
      (replaceBlock step contentIndex block, block) := by
  simp [ensureBlock, replaceBlock, blockAt_setBlock _ h]

/-- The block kind a delta type appends to. -/
def DeltaType.blockKind : DeltaType → BlockKind
  | .textDelta => .text
  | .thinkingDelta => .thinking
  | .toolcallDelta => .toolCall

/-- A block with a delta appended to its streamed text. -/
def ContentBlock.append (delta : JsString) : ContentBlock → ContentBlock
  | .thinking block => .thinking { block with text := block.text ++ delta }
  | .text block => .text { block with markdown := block.markdown ++ delta }
  | .toolCall block => .toolCall { block with argsText := block.argsText ++ delta }

@[simp] theorem ContentBlock.kind_append (block : ContentBlock) (delta : JsString) :
    (block.append delta).kind = block.kind := by
  cases block <;> rfl

@[simp] theorem ContentBlock.append_append (block : ContentBlock) (delta delta' : JsString) :
    (block.append delta).append delta' = block.append (delta ++ delta') := by
  cases block <;> simp [ContentBlock.append, List.append_assoc]

theorem applyStreamEvent_delta (ctx : ReducerContext J T) (step : AssistantStep)
    (type : DeltaType) (contentIndex : ℕ) (delta : JsString) :
    applyStreamEvent ctx step (.delta type contentIndex delta) =
      replaceBlock step contentIndex
        ((ensureBlock step contentIndex type.blockKind).2.append delta) := by
  obtain ⟨hkind, hreplace⟩ := ensureBlock_spec step contentIndex type.blockKind
  cases type <;>
  · simp only [applyStreamEvent, DeltaType.blockKind] at hkind hreplace ⊢
    split
    · rename_i block hblock
      rw [hreplace, hblock]
      rfl
    · rename_i hother
      cases hblock : (ensureBlock step contentIndex _).2 <;>
        simp_all [ContentBlock.kind]

/-- Two deltas on one block append their concatenation. The usage written between them does not
reach the blocks. -/
theorem applyStreamEvent_delta_delta (ctx : ReducerContext J T) (step : AssistantStep)
    (type : DeltaType) (contentIndex : ℕ) (delta delta' : JsString) (usage : Option Usage) :
    applyStreamEvent ctx
        { applyStreamEvent ctx step (.delta type contentIndex delta) with usage := usage }
        (.delta type contentIndex delta') =
      { applyStreamEvent ctx step (.delta type contentIndex (delta ++ delta')) with
        usage := usage } := by
  obtain ⟨hkind, -⟩ := ensureBlock_spec step contentIndex type.blockKind
  simp only [applyStreamEvent_delta]
  rcases Nat.lt_or_ge contentIndex arrayIndexBound with hindex | hbound
  swap
  · simp only [replaceBlock_of_le hbound]
  set block := (ensureBlock step contentIndex type.blockKind).2 with hblock
  have hfound := ensureBlock_replaceBlock { step with usage := usage } hindex
    (block.append delta)
  rw [ContentBlock.kind_append, hkind] at hfound
  have hstep : { replaceBlock step contentIndex (block.append delta) with usage := usage } =
      replaceBlock { step with usage := usage } contentIndex (block.append delta) := rfl
  rw [hstep, hfound, ContentBlock.append_append, replaceBlock_replaceBlock]
  rfl

theorem applyStreamEvent_delta_isSettled (ctx : ReducerContext J T) (step : AssistantStep)
    (type : DeltaType) (contentIndex : ℕ) (delta : JsString) :
    (applyStreamEvent ctx step (.delta type contentIndex delta)).isSettled = step.isSettled := by
  rw [applyStreamEvent_delta]
  rfl

theorem ensureTurn_spec (state : ConversationProjection) (ctx : ReducerContext J T) :
    (ensureTurn state ctx).1.activeTurnId = some (ensureTurn state ctx).2.id ∧
      (ensureTurn state ctx).2.id ≠ [] ∧
      (ensureTurn state ctx).2 ∈ (ensureTurn state ctx).1.turns := by
  unfold ensureTurn
  split
  · rename_i turn hactive
    unfold activeTurn at hactive
    split at hactive
    · simp at hactive
    · simp at hactive
    · rename_i id hid hne
      have hmem := List.mem_of_find?_eq_some hactive
      have hturn : turn.id = id := by simpa using List.find?_some hactive
      subst hturn
      exact ⟨hne, hid, hmem⟩
  · refine ⟨rfl, fun h => ?_, by simp⟩
    exact absurd (List.append_eq_nil_iff.mp h).1 (by decide)

theorem ensureOpenStep_spec (turn : ProductTurn) (ctx : ReducerContext J T) :
    (ensureOpenStep turn ctx).1.id = turn.id ∧
      (ensureOpenStep turn ctx).1.steps.getLast? = some (ensureOpenStep turn ctx).2 ∧
      (ensureOpenStep turn ctx).2.isSettled = false := by
  unfold ensureOpenStep
  split
  · rename_i latest hlatest
    split
    · exact ⟨rfl, by simp [ensureStep], rfl⟩
    · rename_i hopen
      exact ⟨rfl, hlatest, by simpa using hopen⟩
  · exact ⟨rfl, by simp [ensureStep], rfl⟩

@[simp] theorem withLastStep_id (turn : ProductTurn) (step : AssistantStep) :
    (withLastStep turn step).id = turn.id := rfl

theorem getLast?_withLastStep {turn : ProductTurn} {last : AssistantStep}
    (hlast : turn.steps.getLast? = some last) (step : AssistantStep) :
    (withLastStep turn step).steps.getLast? = some step := by
  have hne : turn.steps ≠ [] := by
    intro h
    simp [h] at hlast
  have hpos : turn.steps.length - 1 < turn.steps.length := by
    have := List.length_pos_iff.mpr hne
    omega
  simp only [withLastStep, List.getLast?_eq_getElem?, List.length_set]
  exact List.getElem?_set_self hpos

@[simp] theorem withLastStep_withLastStep (turn : ProductTurn) (first second : AssistantStep) :
    withLastStep (withLastStep turn first) second = withLastStep turn second := by
  simp [withLastStep]

theorem withTurn_withTurn (state : ConversationProjection) {first second : ProductTurn}
    (hid : first.id = second.id) :
    withTurn (withTurn state first) second = withTurn state second := by
  simp only [withTurn, List.map_map]
  congr 1
  apply List.map_congr_left
  intro turn _
  simp only [Function.comp_apply, hid]
  by_cases hturn : turn.id = second.id <;> simp [hturn, hid]

theorem activeTurn_withTurn (state : ConversationProjection) (turn old : ProductTurn)
    (hactive : state.activeTurnId = some turn.id) (hid : turn.id ≠ [])
    (hmem : old ∈ state.turns) (hold : old.id = turn.id) :
    activeTurn (withTurn state turn) = some turn := by
  have hfind : ∀ turns : List ProductTurn, old ∈ turns →
      (turns.map fun t => if t.id = turn.id then turn else t).find?
        (fun t => t.id == turn.id) = some turn := by
    intro turns
    induction turns with
    | nil => simp
    | cons t rest ih =>
      intro h
      by_cases ht : t.id = turn.id
      · simp [ht]
      · have hrest : old ∈ rest := by
          rcases List.mem_cons.mp h with rfl | hrest
          · exact absurd hold ht
          · exact hrest
        simpa [ht] using ih hrest
  unfold activeTurn withTurn
  simp only [hactive]
  exact hfind _ hmem

theorem ensure_after_delta (state : ConversationProjection) (ctx : ReducerContext J T)
    (step : AssistantStep) (hopen : step.isSettled = false) :
    let ensured := ensureTurn state ctx
    let turn := withLastStep (ensureOpenStep ensured.2 ctx).1 step
    ensureTurn (withTurn ensured.1 turn) ctx = (withTurn ensured.1 turn, turn) ∧
      ensureOpenStep turn ctx = (turn, step) := by
  intro ensured turn
  obtain ⟨hactive, hid, hmem⟩ := ensureTurn_spec state ctx
  obtain ⟨hstepId, hlast, -⟩ := ensureOpenStep_spec ensured.2 ctx
  have hturnId : turn.id = ensured.2.id := hstepId
  constructor
  · have h := activeTurn_withTurn ensured.1 turn ensured.2
      (by rw [hturnId]; exact hactive) (by rw [hturnId]; exact hid) hmem hturnId.symm
    simp [ensureTurn, h]
  · have h : turn.steps.getLast? = some step := getLast?_withLastStep hlast step
    rw [ensureOpenStep, h]
    simp [hopen]

/-- **Merged deltas.** In every state, reducing the merge of two compatible deltas is reducing
both in order, whatever the clock. -/
theorem reduceProjection_mergeDelta (ctx : ReducerContext J T) :
    MergeLaw mergeDelta (reduceProjection ctx) := by
  intro state first next merged hmerge
  obtain ⟨usage, usage', type, contentIndex, delta, delta', rfl, rfl, rfl⟩ :=
    mergeDelta_eq_some hmerge
  simp only [reduceProjection, handleMessageUpdate]
  set ensured := ensureTurn state ctx with hensured
  set stepped := ensureOpenStep ensured.2 ctx with hstepped
  obtain ⟨hstepId, -, hopen⟩ := ensureOpenStep_spec ensured.2 ctx
  have hstep : (applyStreamEvent ctx stepped.2 (.delta type contentIndex delta)).isSettled =
      false := by
    rw [applyStreamEvent_delta_isSettled]
    exact hopen
  obtain ⟨hturn, hlast⟩ := ensure_after_delta state ctx
    { applyStreamEvent ctx stepped.2 (.delta type contentIndex delta) with
      usage := some usage } hstep
  rw [hturn]
  dsimp only
  rw [hlast]
  dsimp only
  rw [applyStreamEvent_delta_delta, withLastStep_withLastStep,
    withTurn_withTurn _ (by simp)]

end PiAgentWeb
