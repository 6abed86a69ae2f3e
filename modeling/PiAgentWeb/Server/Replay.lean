import PiAgentWeb.Server.TransitionBatch

/-!
# Replay

A client resumes behind the last frame it has. It gets the frames that were published since, or it
is told to take a snapshot: the ring holds the newest replayable frames, and a client that lacks a
frame which is not kept resumes by a snapshot only. The frames of a generation are numbered
without a gap, so an answer is complete.
-/

namespace PiAgentWeb

variable {J T : Type}

/-- `ReplayCursor`. -/
structure ReplayCursor where
  serverEpoch : JsString
  generation : ℕ
  seq : ℤ

/-- The reasons of a `resync_required`. -/
inductive ResyncReason where
  | initial | serverEpochChanged | generationChanged | invalidCursor | gap
  deriving DecidableEq

/-- `ReplayResult`, without the runtime and the snapshot that go with it. -/
inductive ReplayResult (J T : Type) where
  | replay (frames : List (SessionReplayFrame J T))
  | resyncRequired (reason : ResyncReason)

namespace SessionRuntimeCore

variable (opts : SessionRuntimeOptions J T) {r r' r'' : SessionRuntimeCore J T}

/-- `getReplay`. -/
def getReplay (r : SessionRuntimeCore J T) (requestedHandle : JsString) :
    Option ReplayCursor → ReplayResult J T
  | none => .resyncRequired .initial
  | some cursor =>
    if cursor.serverEpoch ≠ r.identity.serverEpoch then .resyncRequired .serverEpochChanged
    else if requestedHandle ≠ r.identity.sessionHandle then .resyncRequired .generationChanged
    else if cursor.generation ≠ r.identity.generation then .resyncRequired .generationChanged
    else if cursor.seq < 0 ∨ cursor.seq > r.lastSeq then .resyncRequired .invalidCursor
    else if cursor.seq = r.lastSeq then .replay []
    else if cursor.seq < r.lastTransientSeq then .resyncRequired .gap
    else
      let oldestSeq := (r.replay.replay.head?.map (·.seq)).getD (r.lastSeq + 1)
      if cursor.seq < (oldestSeq : ℤ) - 1 then .resyncRequired .gap
      else .replay (r.replay.replay.filter fun frame => cursor.seq < frame.seq)

/-- What publications change of a runtime: the frames given out, those that are kept, and how far
the projection has come. -/
structure Tape (J T : Type) where
  identity : SessionLiveProjectionIdentity
  published : List (SessionReplayFrame J T)
  lastSeq : ℕ
  replay : ReplayRing J T
  lastTransientSeq : ℕ
  asOfSeq : Option ℕ

/-- The tape of a runtime. -/
def tape (r : SessionRuntimeCore J T) : Tape J T where
  identity := r.identity
  published := r.published
  lastSeq := r.lastSeq
  replay := r.replay
  lastTransientSeq := r.lastTransientSeq
  asOfSeq := r.liveProjection.map (·.live.asOfSeq)

/-- The frames have been published, each under the next number, and the ring holds what is kept of
them; or the generation has been given up since. -/
structure Advances (t t' : Tape J T) (frames : List (BufferedFrame J T)) : Prop where
  identity : t'.identity = t.identity
  published : t'.published = t.published ++ envelopesFrom t.identity (t.lastSeq + 1) frames
  lastSeq : t'.lastSeq = t.lastSeq + frames.length
  ring : (t'.replay, t'.lastTransientSeq) =
      keepAll opts (envelopesFrom t.identity (t.lastSeq + 1) frames) t.replay t.lastTransientSeq ∨
    t'.replay = .empty ∧ t'.lastTransientSeq = 0 ∧ t'.asOfSeq = none
  synced : ∀ seq ∈ t'.asOfSeq, seq = t'.lastSeq
  halted : t.asOfSeq = none → frames = [] ∧ t'.asOfSeq = none

/-- If the projection has come as far as the published frames, then frames have been published. -/
def Goes (r r' : SessionRuntimeCore J T) : Prop :=
  (∀ seq ∈ r.tape.asOfSeq, seq = r.lastSeq) → ∃ frames, Advances opts r.tape r'.tape frames

variable {opts}

/-- Nothing has been published. -/
theorem goes_of_tape (h : r'.tape = r.tape) : r.Goes opts r' := by
  intro hsynced
  rw [h]
  exact ⟨[], rfl, (List.append_nil _).symm, rfl, .inl rfl, hsynced, fun hnone => ⟨rfl, hnone⟩⟩

theorem Goes.trans (h : r.Goes opts r') (h' : r'.Goes opts r'') : r.Goes opts r'' := by
  intro hsynced
  obtain ⟨first, hfirst⟩ := h hsynced
  obtain ⟨second, hsecond⟩ := h' hfirst.synced
  have hseq : r.tape.lastSeq + 1 + first.length = r'.tape.lastSeq + 1 := by
    rw [hfirst.lastSeq]
    omega
  refine ⟨first ++ second, hsecond.identity.trans hfirst.identity, ?_, ?_, ?_, hsecond.synced,
    fun hnone => ?_⟩
  · rw [hsecond.published, hfirst.published, envelopesFrom_append, hseq, hfirst.identity,
      List.append_assoc]
  · rw [hsecond.lastSeq, hfirst.lastSeq, List.length_append, Nat.add_assoc]
  · rcases hsecond.ring with hring | hended
    · rcases hfirst.ring with hring' | ⟨hempty, hzero, hnone⟩
      · left
        rw [hring, envelopesFrom_append, keepAll_append, ← hring', hseq, hfirst.identity]
      · obtain ⟨rfl, hnone'⟩ := hsecond.halted hnone
        exact .inr ⟨(congrArg Prod.fst hring).trans hempty, (congrArg Prod.snd hring).trans hzero,
          hnone'⟩
    · exact .inr hended
  · obtain ⟨rfl, hnone'⟩ := hfirst.halted hnone
    obtain ⟨rfl, hnone''⟩ := hsecond.halted hnone'
    exact ⟨rfl, hnone''⟩

theorem andThen_goes {A B : Type} {result : Result J T A}
    {next : SessionRuntimeCore J T → A → Result J T B} (h : r.Goes opts result.1)
    (hnext : ∀ (s : SessionRuntimeCore J T) value, s.Goes opts (next s value).1) :
    r.Goes opts (result.andThen next).1 := by
  obtain ⟨s, outcome⟩ := result
  cases outcome with
  | error error => exact h
  | ok value => exact h.trans (hnext s value)

/-- A generation that is given up keeps its numbers but nothing to replay. -/
theorem terminalizeProjection_goes (r : SessionRuntimeCore J T) :
    r.Goes opts r.terminalizeProjection :=
  fun _ => ⟨[], rfl, (List.append_nil _).symm, rfl, .inr ⟨rfl, rfl, rfl⟩,
    (fun _ hsome => by cases hsome), fun _ => ⟨rfl, rfl⟩⟩

/-- An error of the projection publishes nothing, also where something would come after it. -/
theorem throwProjection_goes {A B : Type} (r : SessionRuntimeCore J T)
    (error : SessionLiveProjectionError) (next : SessionRuntimeCore J T → A → Result J T B) :
    r.Goes opts ((r.throwProjection error).andThen next).1 := by
  cases error with
  | limitExceeded boundary =>
    simp only [throwProjection, normalizeProjectionError, terminalizeSnapshotOverflow,
      Result.andThen]
    split
    · split
      · exact goes_of_tape rfl
      · exact (terminalizeProjection_goes { r with snapshotOverflow := true })
    · exact goes_of_tape rfl
  | _ => exact goes_of_tape rfl

theorem throw_goes {A : Type} (r : SessionRuntimeCore J T) (error : SessionLiveProjectionError) :
    r.Goes opts (r.throwProjection (A := A) error).1 := by
  have hgoes : r.Goes opts ((r.throwProjection (A := A) error).andThen fun s _ =>
      (s, (.ok () : Except RuntimeError Unit))).1 := throwProjection_goes r error _
  cases error <;> exact hgoes

theorem normalizeResult_goes {A : Type} {result : Result J T A} (h : r.Goes opts result.1) :
    r.Goes opts (normalizeResult result).1 := by
  obtain ⟨s, error | value⟩ := result
  · cases error with
    | projection error => exact h.trans (throw_goes s error)
    | rpc => exact h
  · exact h

theorem terminalizeOnError_goes {processToken owner : ℕ} {result : Result J T Unit}
    (h : r.Goes opts result.1) :
    r.Goes opts (terminalizeOnError processToken owner result).1 := by
  obtain ⟨s, outcome⟩ := result
  cases outcome with
  | ok value => exact h
  | error error =>
    rw [terminalizeOnError]
    split
    · exact h.trans (terminalizeProjection_goes s)
    · exact h

/-! ### Changes of the phase -/

theorem tape_setState (r : SessionRuntimeCore J T) (state : SessionLiveRuntimePhase) :
    (r.setState state).1.tape = r.tape := by
  unfold setState
  split
  · rfl
  split
  · rfl
  rename_i projection hlive
  split
  · rename_i next hphase
    have hseq := congrArg (·.live.asOfSeq) (SessionLiveProjection.content_setRuntimePhase hphase)
    simp only [tape, hlive, Option.map_some]
    exact congrArg _ (congrArg some hseq)
  · rfl

theorem tape_refreshOperationalState (r : SessionRuntimeCore J T) :
    r.refreshOperationalState.1.tape = r.tape := by
  unfold refreshOperationalState
  split
  · exact tape_setState r _
  · rfl

theorem tape_applyEventState (r : SessionRuntimeCore J T) (event : SessionEvent J T) :
    (r.applyEventState event).1.tape = r.tape := by
  unfold applyEventState
  split
  · unfold applyQueueUpdate
    dsimp only
    split
    · exact tape_refreshOperationalState _
    · rfl
  · exact tape_setState _ _
  · exact tape_refreshOperationalState _
  · split
    · exact tape_setState _ _
    · split
      · exact tape_refreshOperationalState _
      · rfl

/-! ### Publications -/

theorem tape_withProjection {p q : SessionLiveProjection J T} (hlive : r.liveProjection = some p)
    (hseq : q.live.asOfSeq = p.live.asOfSeq) :
    { r with liveProjection := some q }.tape = r.tape := by
  simp only [tape, hlive, Option.map_some, hseq]

section Commit

variable {p prepared next : SessionLiveProjection J T}
  {identity : SessionLiveProjectionIdentity} {inputs : List (SessionLiveProjectionInput J T)}
  {phase : SessionLiveRuntimePhase} {token : ℕ}

/-- A prepared batch has not moved its projection. -/
theorem asOfSeq_of_prepareBatch
    (h : p.prepareBatch identity inputs (some phase) = .ok (prepared, token)) :
    prepared.live.asOfSeq = p.live.asOfSeq := by
  obtain ⟨candidate, -, -, rfl⟩ := SessionLiveProjection.prepareBatch_ok h
  rfl

/-- A commit that is refused has not moved its projection. -/
theorem asOfSeq_of_commit_none (h : p.commitPreparedBatch token = (next, none)) :
    next.live.asOfSeq = p.live.asOfSeq := by
  rcases p.commitPreparedBatch_spec token with ⟨batch, -, -, heq⟩ | ⟨-, hunchanged, -⟩
  · rw [h] at heq
    cases heq
  · rw [h] at hunchanged
    exact congrArg (·.live.asOfSeq) hunchanged.same

end Commit

theorem Emitted.goes {p q : SessionLiveProjection J T} {frames : List (BufferedFrame J T)}
    (h : r.Emitted opts r' p q frames) : r.Goes opts r' := by
  intro hsynced
  have hseq : p.live.asOfSeq = r.tape.lastSeq := hsynced _ (by simp [tape, h.before])
  have hmoved := SessionLiveProjection.asOfSeq_of_publishing h.content
  rw [List.length_map, hseq] at hmoved
  have hlast : r'.tape.lastSeq = r.tape.lastSeq + frames.length := by
    rw [← hmoved]
    refine h.lastSeq.trans ?_
    split
    · rename_i hnil
      rw [hmoved, List.isEmpty_iff.mp hnil]
      rfl
    · rfl
  refine ⟨frames, h.identity, ?_, hlast, .inl ?_, fun seq hsome => ?_, fun hnone => ?_⟩
  · rw [← hseq]
    exact h.published
  · rw [← hseq]
    exact h.ring
  · simp only [tape, h.after, Option.map_some, Option.mem_some_iff] at hsome
    rw [← hsome, hmoved, hlast]
  · simp [tape, h.before] at hnone

theorem emitFrame_goes (r : SessionRuntimeCore J T) (frame : BufferedFrame J T)
    {after : SessionRuntimeCore J T → SessionRuntimeCore J T}
    (hafter : ∀ (s : SessionRuntimeCore J T),
      (after s).tape = s.tape ∧ (after s).liveProjection = s.liveProjection) :
    r.Goes opts (emitFrame opts r frame after).1 := by
  unfold emitFrame
  split
  · exact goes_of_tape rfl
  rename_i projection hlive
  split
  · exact throw_goes r _
  rename_i turnBudget _
  split
  · exact throw_goes r _
  rename_i prepared token hprepare
  split
  · rename_i next hcommit
    exact (goes_of_tape (tape_withProjection hlive
      ((asOfSeq_of_commit_none hcommit).trans (asOfSeq_of_prepareBatch hprepare)))).trans
        (throw_goes _ _)
  · rename_i next seq hcommit
    obtain ⟨hcontent, rfl⟩ :=
      SessionLiveProjection.commitPreparedBatch_publishing hprepare hcommit
    have hmoved := SessionLiveProjection.asOfSeq_of_publishing hcontent
    obtain ⟨htape, hafterLive⟩ :=
      hafter { r with liveProjection := some next, turnBudget := turnBudget }
    have hidentity := congrArg Tape.identity htape
    have hpublished := congrArg Tape.published htape
    have hreplay := congrArg Tape.replay htape
    have htransient := congrArg Tape.lastTransientSeq htape
    dsimp only [tape] at hidentity hpublished hreplay htransient
    suffices hemitted : r.Emitted opts _ projection next [frame] from hemitted.goes
    refine ⟨hlive, hafterLive, hcontent, hidentity, ?_, rfl, ?_⟩
    · simp only [hreplay, htransient, hidentity, hmoved]
      rfl
    · simp only [hpublished, hidentity, hmoved]
      rfl

theorem publishFrame_goes (r : SessionRuntimeCore J T) (event : SessionEvent J T) :
    r.Goes opts (publishFrame opts r event).1 := by
  unfold publishFrame prepareActiveEventPublication
  split
  · exact goes_of_tape rfl
  rename_i projection hlive
  split
  · exact throwProjection_goes r _ _
  rename_i turnBudget _
  split
  · exact throwProjection_goes r _ _
  rename_i prepared token hprepare
  have hissued : r.Goes opts { r with liveProjection := some prepared } :=
    goes_of_tape (tape_withProjection hlive (asOfSeq_of_prepareBatch hprepare))
  dsimp only
  split
  · exact hissued.trans (throwProjection_goes _ _ _)
  rename_i logicalBytes _
  split
  · exact hissued.trans (throwProjection_goes _ _ _)
  simp only [Result.andThen, commitActiveEventPublication]
  split
  · exact hissued
  rename_i live hfilter
  obtain ⟨⟨⟩, -⟩ := Option.mem_filter_iff.mp hfilter
  split
  · rename_i next hcommit
    exact goes_of_tape (tape_withProjection hlive
      ((asOfSeq_of_commit_none hcommit).trans (asOfSeq_of_prepareBatch hprepare)))
  rename_i next seq hcommit
  obtain ⟨hcontent, rfl⟩ :=
    SessionLiveProjection.commitPreparedBatch_publishing hprepare hcommit
  split
  · rename_i hdiffers
    exact absurd (SessionLiveProjection.asOfSeq_of_publishing hcontent) hdiffers
  · refine Goes.trans ?_ (goes_of_tape (tape_applyEventState _ event))
    suffices hemitted : r.Emitted opts _ projection next [.event event] from hemitted.goes
    exact ⟨hlive, rfl, hcontent, rfl, rfl, rfl, rfl⟩

theorem publishEvent_goes (r : SessionRuntimeCore J T) (event : SessionEvent J T) :
    r.Goes opts (publishEvent opts r event).1 := by
  have hframe : r.Goes opts (publishFrame opts r event).1 := publishFrame_goes r event
  unfold publishFrame at hframe
  unfold publishEvent
  rcases hprepare : prepareActiveEventPublication opts r event with ⟨s, error | prepared⟩
  · rwa [hprepare] at hframe
  · rw [hprepare] at hframe
    exact terminalizeOnError_goes hframe

/-- Unused object numbers and tokens do not matter to what was published. -/
theorem Unpublished.tape (h : r.Unpublished r') : r'.tape = r.tape := by
  obtain ⟨hruntime, hprojection⟩ := h
  have hseq := congrArg (Option.map (·.live.asOfSeq)) hprojection
  rw [Option.map_map, Option.map_map] at hseq
  rw [hruntime]
  exact congrArg (fun seq => { r.tape with asOfSeq := seq }) hseq

theorem semanticOperation_goes (r : SessionRuntimeCore J T) (processToken : ℕ)
    (plan : ExtensionSemanticPlan J T) :
    r.Goes opts ((prepareExtensionSemanticOperation opts r processToken plan).andThen
      fun r prepared => r.commitExtensionSemanticOperation prepared).1 := by
  rcases hresult : (prepareExtensionSemanticOperation opts r processToken plan).andThen
    fun r prepared => r.commitExtensionSemanticOperation prepared with ⟨r₂, error | value⟩
  swap
  · obtain ⟨p, q, hemitted, -⟩ := semanticOperation_emitted hresult
    exact hemitted.goes
  rw [← hresult]
  unfold prepareExtensionSemanticOperation
  split
  · exact goes_of_tape rfl
  rename_i projection hlive
  split
  · exact throwProjection_goes r _ _
  rename_i prepared token hprepare
  have hissued : r.Goes opts { r with liveProjection := some prepared } :=
    goes_of_tape (tape_withProjection hlive (asOfSeq_of_prepareBatch hprepare))
  dsimp only
  split
  · rename_i hfits
    simp only [prepareExtensionSemanticOperation, hlive, hprepare, hfits, if_true, Result.andThen]
      at hresult ⊢
    rw [hresult]
    exact hissued.trans (goes_of_tape (commitExtensionSemanticOperation_error hresult).tape)
  · exact hissued.trans (throwProjection_goes _ _ _)

theorem publishRequest_goes (r : SessionRuntimeCore J T) (request : ExtensionUiRequest J T) :
    r.Goes opts (publishRequest opts r request).1 := by
  unfold publishRequest
  dsimp only
  split
  · exact goes_of_tape rfl
  rename_i plan nextObject _
  have hnumber : r.Goes opts { r with nextObject := nextObject } := goes_of_tape rfl
  have hoperation : Goes opts { r with nextObject := nextObject } _ :=
    semanticOperation_goes _ r.processToken plan
  refine hnumber.trans ?_
  rcases hprepare : prepareExtensionSemanticOperation opts { r with nextObject := nextObject }
    r.processToken plan with ⟨s, error | prepared⟩
  · rwa [hprepare] at hoperation
  · rw [hprepare] at hoperation
    exact terminalizeOnError_goes hoperation

theorem closeDialog_goes (r : SessionRuntimeCore J T) (requestId : JsString)
    (reason : ExtensionUiCloseReason) : r.Goes opts (closeDialog opts r requestId reason).1 := by
  have hclose : ∀ dialog (s : SessionRuntimeCore J T),
      (commitClose requestId dialog s).tape = s.tape ∧
        (commitClose requestId dialog s).liveProjection = s.liveProjection := by
    intro dialog s
    unfold commitClose
    split <;> exact ⟨rfl, rfl⟩
  unfold closeDialog
  split
  · exact goes_of_tape rfl
  · split
    · exact emitFrame_goes r _ (hclose _)
    · exact goes_of_tape (hclose _ r).1

/-! ### Runs -/

theorem tape_withProjection_map (r : SessionRuntimeCore J T)
    {change : SessionLiveProjection J T → SessionLiveProjection J T}
    (hchange : ∀ p, (change p).live.asOfSeq = p.live.asOfSeq) :
    (r.withProjection change).tape = r.tape := by
  simp only [tape, withProjection, Option.map_map]
  exact congrArg _ (congrArg (Option.map · r.liveProjection) (funext hchange))

theorem turnStep_goes (r : SessionRuntimeCore J T) (action : TurnAction J T) :
    r.Goes opts (turnStep opts r action) := by
  cases action with
  | publishEvent event => exact publishEvent_goes r event
  | publishRequest request => exact publishRequest_goes r request
  | closeDialog requestId reason => exact closeDialog_goes r requestId reason
  | admitTurn command =>
    simp only [turnStep, takeTurnAction, admitTurn]
    split
    · exact goes_of_tape rfl
    · split
      · exact goes_of_tape (tape_setState _ _)
      · exact goes_of_tape rfl
  | finishWorkCommand success reservation => exact goes_of_tape (tape_refreshOperationalState _)
  | releaseQueuedWork cutoff => exact goes_of_tape (tape_refreshOperationalState _)
  | expireTurn reservation =>
    simp only [turnStep, takeTurnAction, expireTurn]
    split
    · exact goes_of_tape (tape_refreshOperationalState _)
    · exact goes_of_tape rfl
  | beginIdleBaseCompaction =>
    refine goes_of_tape (tape_withProjection_map r fun p => ?_)
    unfold SessionLiveProjection.beginIdleBaseCompaction
    split <;> rfl
  | prepareIdleBaseCompaction token settledMessages =>
    refine goes_of_tape (tape_withProjection_map r fun p => ?_)
    unfold SessionLiveProjection.prepareIdleBaseCompaction
    dsimp only
    split <;> rfl
  | commitPreparedIdleBaseCompaction token =>
    refine goes_of_tape (tape_withProjection_map r fun p => ?_)
    unfold SessionLiveProjection.commitPreparedIdleBaseCompaction
    split <;> (try split) <;> rfl
  | endIdleBaseCompaction => exact goes_of_tape (tape_refreshOperationalState _)

/-- A step of a generation: of a turn, or the commit of the frames that a transition staged. -/
inductive ReplayAction (J T : Type) where
  | turn (action : TurnAction J T)
  | commitTransition (stage : TransitionStage J T)

/-- The state after a step. -/
def replayStep (opts : SessionRuntimeOptions J T) (r : SessionRuntimeCore J T) :
    ReplayAction J T → SessionRuntimeCore J T
  | .turn action => turnStep opts r action
  | .commitTransition stage =>
    (commitTransitionFrames opts { r with transitionStage := some stage }).1

theorem tape_applyFrames (frames : List (BufferedFrame J T)) (r : SessionRuntimeCore J T) :
    (applyFrames frames r).1.tape = r.tape := by
  induction frames generalizing r with
  | nil => rfl
  | cons frame rest ih =>
    cases frame with
    | event event =>
      have happly := tape_applyEventState r event
      rw [applyFrames]
      rcases hresult : r.applyEventState event with ⟨s, error | value⟩ <;> rw [hresult] at happly
      · exact happly
      · exact (ih s).trans happly
    | _ => exact ih r

theorem commitTransitionFrames_goes (r : SessionRuntimeCore J T) :
    r.Goes opts (commitTransitionFrames opts r).1 := by
  refine normalizeResult_goes ?_
  split
  · exact goes_of_tape rfl
  rename_i stage _
  split
  · exact goes_of_tape rfl
  split
  · exact goes_of_tape rfl
  rename_i plan nextObject _
  dsimp only
  split
  · exact goes_of_tape rfl
  · exact goes_of_tape rfl
  split
  · exact goes_of_tape rfl
  split
  · exact goes_of_tape rfl
  have hnumber : r.Goes opts { r with nextObject := nextObject } := goes_of_tape rfl
  have hoperation : Goes opts { r with nextObject := nextObject } _ :=
    semanticOperation_goes _ stage.processToken plan
  refine hnumber.trans ?_
  rcases hprepare : prepareExtensionSemanticOperation opts { r with nextObject := nextObject }
    stage.processToken plan with ⟨s, error | prepared⟩ <;> rw [hprepare] at hoperation
  · exact hoperation
  · change Goes opts _ ((s.commitExtensionSemanticOperation prepared).andThen _).1
    exact andThen_goes hoperation fun s _ =>
      andThen_goes (goes_of_tape (tape_applyFrames plan.frames s)) fun s _ => goes_of_tape rfl

theorem replayStep_goes (r : SessionRuntimeCore J T) (action : ReplayAction J T) :
    r.Goes opts (replayStep opts r action) := by
  cases action with
  | turn action => exact turnStep_goes r action
  | commitTransition stage =>
    have hstaged : r.Goes opts { r with transitionStage := some stage } := goes_of_tape rfl
    exact hstaged.trans (commitTransitionFrames_goes _)

theorem flushFrames_goes (frames : List (BufferedFrame J T)) (r : SessionRuntimeCore J T) :
    r.Goes opts (flushFrames opts frames r).1 := by
  induction frames generalizing r with
  | nil => exact goes_of_tape rfl
  | cons frame rest ih =>
    cases frame with
    | event event => exact andThen_goes (publishFrame_goes r event) fun s _ => ih s
    | _ => exact andThen_goes (emitFrame_goes r _ fun s => ⟨rfl, rfl⟩) fun s _ => ih s

theorem completeStartup_goes (r : SessionRuntimeCore J T) :
    r.Goes opts (completeStartup opts r).1 := by
  refine andThen_goes (goes_of_tape (tape_setState r _)) fun s _ => ?_
  refine andThen_goes (flushFrames_goes _ s) fun s _ => ?_
  refine andThen_goes (goes_of_tape (tape_setState _ _)) fun s _ => ?_
  unfold assertSnapshotFits
  split
  · exact goes_of_tape rfl
  · split
    · exact goes_of_tape rfl
    · exact throwProjection_goes s _ _

/-- A runtime without a frame of its generation. -/
structure Fresh (r : SessionRuntimeCore J T) : Prop where
  published : r.published = []
  lastSeq : r.lastSeq = 0
  replay : r.replay = .empty
  lastTransientSeq : r.lastTransientSeq = 0
  projection : r.liveProjection = none

/-- A generation begins with the startup of a process, or as the child that a transition adopts. -/
inductive Begins (opts : SessionRuntimeOptions J T) : SessionRuntimeCore J T → Prop
  | spawned {r : SessionRuntimeCore J T} (hfresh : r.Fresh)
      (settledMessages : List (SessionMessage J T)) :
      Begins opts (startIncarnation opts r settledMessages).1
  | adopted {r : SessionRuntimeCore J T} (hfresh : r.Fresh)
      (settledMessages : List (SessionMessage J T)) :
      Begins opts (initializeProjectionBase opts r settledMessages).1

/-- A new base is at frame zero. -/
theorem asOfSeq_of_projectionBase {identity : SessionLiveProjectionIdentity}
    {settledMessages : List (SessionMessage J T)} {phase : SessionLiveRuntimePhase}
    {p : SessionLiveProjection J T}
    (h : projectionBase opts identity settledMessages phase = .ok p) : p.live.asOfSeq = 0 := by
  simp only [projectionBase, SessionLiveProjection.create, bind, Except.bind, pure, Except.pure,
    throw, throwThe, MonadExceptOf.throw] at h
  repeat' split at h
  all_goals cases h
  rfl

/-- A generation goes on from nothing but its base. -/
theorem Begins.goes {start : SessionRuntimeCore J T} (h : start.Begins opts) :
    ∃ (r s : SessionRuntimeCore J T) (asOfSeq : Option ℕ), r.Fresh ∧
      s.tape = { r.tape with asOfSeq := asOfSeq } ∧ (∀ seq ∈ s.tape.asOfSeq, seq = s.lastSeq) ∧
      s.Goes opts start := by
  have hnone : ∀ {r : SessionRuntimeCore J T}, r.Fresh → ∀ seq ∈ r.tape.asOfSeq, seq = r.lastSeq :=
    fun hfresh _ hsome => by simp [tape, hfresh.projection] at hsome
  have hbased : ∀ {asOfSeq lastSeq : ℕ}, asOfSeq = 0 → lastSeq = 0 →
      ∀ seq ∈ some asOfSeq, seq = lastSeq := fun hzero hlast _ hsome =>
    (Option.mem_some_iff.mp hsome).symm.trans (hzero.trans hlast.symm)
  cases h with
  | @spawned r hfresh settledMessages =>
    unfold startIncarnation initializeProjectionBase
    split
    · exact ⟨r, r, _, hfresh, rfl, hnone hfresh, throwProjection_goes r _ _⟩
    · rename_i p hp
      exact ⟨r, { r with liveProjection := some p }, _, hfresh, rfl,
        hbased (asOfSeq_of_projectionBase hp) hfresh.lastSeq, completeStartup_goes _⟩
  | @adopted r hfresh settledMessages =>
    unfold initializeProjectionBase
    split
    · exact ⟨r, r, _, hfresh, rfl, hnone hfresh, throw_goes r _⟩
    · rename_i p hp
      exact ⟨r, { r with liveProjection := some p }, _, hfresh, rfl,
        hbased (asOfSeq_of_projectionBase hp) hfresh.lastSeq, goes_of_tape rfl⟩

/-- What is published and kept of a generation is determined by the frames it published. -/
theorem Begins.advances {start : SessionRuntimeCore J T} (h : start.Begins opts)
    (actions : List (ReplayAction J T)) :
    ∃ (r : SessionRuntimeCore J T) (asOfSeq : Option ℕ) (frames : List (BufferedFrame J T)),
      r.Fresh ∧ Advances opts { r.tape with asOfSeq := asOfSeq }
        (runFrom (replayStep opts) start actions).tape frames := by
  obtain ⟨r, s, asOfSeq, hfresh, htape, hsynced, hstart⟩ := h.goes
  have hrun : s.Goes opts (runFrom (replayStep opts) start actions) :=
    runFrom_invariant (I := s.Goes opts) (fun t action h => h.trans (replayStep_goes t action))
      actions hstart
  obtain ⟨frames, hadvances⟩ := hrun hsynced
  exact ⟨r, asOfSeq, frames, hfresh, htape ▸ hadvances⟩

/-! ### Answers -/

/-- The frames of a generation are numbered from one without a gap. -/
theorem envelopesFrom_seqs (identity : SessionLiveProjectionIdentity) (firstSeq : ℕ)
    (frames : List (BufferedFrame J T)) :
    (envelopesFrom identity firstSeq frames).map (·.seq) =
      List.range' firstSeq frames.length := by
  rw [envelopesFrom, List.map_map, List.range'_eq_map_range, List.range_eq_range',
    ← List.zipIdx_map_snd 0 frames, List.map_map]
  rfl

/-- The ring gets the replayable frames, and the watermark is the last of the others. -/
theorem foldl_enter (opts : SessionRuntimeOptions J T)
    (envelopes : List (SessionReplayFrame J T))
    (hsorted : envelopes.Pairwise (·.seq < ·.seq)) :
    (envelopes.foldl (enter opts) (.empty, 0)).1.replay =
        envelopes.filter (fun e => isReplayableFrame e.frame) ∧
      (∀ e ∈ envelopes, isReplayableFrame e.frame = false →
        e.seq ≤ (envelopes.foldl (enter opts) (.empty, 0)).2) ∧
      ((envelopes.foldl (enter opts) (.empty, 0)).2 = 0 ∨ ∃ e ∈ envelopes,
        isReplayableFrame e.frame = false ∧
          e.seq = (envelopes.foldl (enter opts) (.empty, 0)).2) := by
  induction envelopes using List.reverseRecOn with
  | nil => exact ⟨rfl, fun _ h => by simp at h, .inl rfl⟩
  | append_singleton envelopes last ih =>
    obtain ⟨hsorted', -, hlast⟩ := List.pairwise_append.mp hsorted
    obtain ⟨hring, hbound, hwitness⟩ := ih hsorted'
    simp only [List.foldl_append, List.foldl_cons, List.foldl_nil, List.filter_append]
    cases hreplayable : isReplayableFrame last.frame with
    | true =>
      simp only [enter, hreplayable, if_true, List.filter_cons_of_pos, List.filter_nil]
      refine ⟨congrArg (· ++ [last]) hring, fun e he htransient => ?_, ?_⟩
      · rcases List.mem_append.mp he with he | he
        · exact hbound e he htransient
        · rw [List.mem_singleton.mp he, hreplayable] at htransient
          cases htransient
      · refine hwitness.imp id fun h => ?_
        obtain ⟨e, he, h⟩ := h
        exact ⟨e, List.mem_append_left _ he, h⟩
    | false =>
      simp only [enter, hreplayable, Bool.false_eq_true, if_false, not_false_eq_true,
        List.filter_cons_of_neg, List.filter_nil, List.append_nil]
      refine ⟨hring, fun e he _ => ?_, .inr ⟨last, by simp, hreplayable, rfl⟩⟩
      rcases List.mem_append.mp he with he | he
      · exact (hlast e he last (by simp)).le
      · rw [List.mem_singleton.mp he]

/-- What an answer relies on: the published frames are numbered without a gap, the ring holds the
newest replayable ones, and the others are not behind the watermark. -/
structure Numbered (s : SessionRuntimeCore J T) : Prop where
  seqs : s.published.map (·.seq) = List.range' 1 s.lastSeq
  identity : ∀ e ∈ s.published, e.identity = s.identity
  kept : ∃ n, s.replay.replay = (s.published.filter (fun e => isReplayableFrame e.frame)).drop n
  bound : s.replay.replay = [] ∨
    ∀ e ∈ s.published, isReplayableFrame e.frame = false → e.seq ≤ s.lastTransientSeq
  watermark : s.lastTransientSeq = 0 ∨
    ∃ e ∈ s.published, isReplayableFrame e.frame = false ∧ e.seq = s.lastTransientSeq

variable {s : SessionRuntimeCore J T}

/-- What a generation has published and kept is numbered. -/
theorem Advances.numbered {asOfSeq : Option ℕ} {frames : List (BufferedFrame J T)}
    (hfresh : r.Fresh) (h : Advances opts { r.tape with asOfSeq := asOfSeq } s.tape frames) :
    s.Numbered := by
  have hpublished : s.published = envelopesFrom s.identity 1 frames := by
    have hall : s.published = r.published ++ envelopesFrom r.identity (r.lastSeq + 1) frames :=
      h.published
    rw [hall, hfresh.published, hfresh.lastSeq, show s.identity = r.identity from h.identity]
    rfl
  have hlength : s.lastSeq = frames.length := by
    have hlast : s.lastSeq = r.lastSeq + frames.length := h.lastSeq
    rw [hlast, hfresh.lastSeq, Nat.zero_add]
  have hrings : (s.replay, s.lastTransientSeq) = keepAll opts s.published .empty 0 ∨
      s.replay = .empty ∧ s.lastTransientSeq = 0 := by
    refine h.ring.imp (fun hkept => ?_) fun hended => ⟨hended.1, hended.2.1⟩
    have hall : (s.replay, s.lastTransientSeq) =
        keepAll opts (envelopesFrom r.identity (r.lastSeq + 1) frames) r.replay
          r.lastTransientSeq := hkept
    rw [hall, hfresh.lastSeq, hfresh.replay, hfresh.lastTransientSeq, hpublished,
      show s.identity = r.identity from h.identity]
  have hseqs : s.published.map (·.seq) = List.range' 1 s.lastSeq := by
    rw [hpublished, envelopesFrom_seqs, hlength]
  have hsorted : s.published.Pairwise (·.seq < ·.seq) := by
    refine List.pairwise_map.mp ?_
    rw [hseqs]
    exact List.pairwise_lt_range'
  have hidentity : ∀ e ∈ s.published, e.identity = s.identity := by
    intro e he
    rw [hpublished, envelopesFrom, List.mem_map] at he
    obtain ⟨entry, -, rfl⟩ := he
    rfl
  obtain ⟨hring, hbound, hwitness⟩ := foldl_enter opts s.published hsorted
  rcases hrings with hkept | ⟨hempty, hzero⟩
  · rw [keepAll] at hkept
    split at hkept
    · rename_i hnil
      rw [List.isEmpty_iff] at hnil
      obtain ⟨hreplay, hzero⟩ := Prod.ext_iff.mp hkept
      refine ⟨hseqs, hidentity, ⟨0, ?_⟩, .inl ?_, .inl hzero⟩
      · rw [show s.replay = .empty from hreplay, hnil]
        rfl
      · rw [show s.replay = .empty from hreplay]
        rfl
    · rw [keep_eq] at hkept
      obtain ⟨hreplay, hlast⟩ := Prod.ext_iff.mp hkept
      dsimp only at hreplay hlast
      refine ⟨hseqs, hidentity, ?_, .inr ?_, ?_⟩
      · rw [hreplay, ← hring]
        exact ⟨_, rfl⟩
      · rwa [hlast]
      · rwa [hlast]
  · refine ⟨hseqs, hidentity, ⟨s.published.length, ?_⟩, .inl ?_, .inl hzero⟩
    · rw [hempty, List.drop_eq_nil_of_le (List.length_filter_le _ _)]
      rfl
    · rw [hempty]
      rfl

namespace Numbered

theorem sorted (h : s.Numbered) : s.published.Pairwise (·.seq < ·.seq) := by
  refine List.pairwise_map.mp ?_
  rw [h.seqs]
  exact List.pairwise_lt_range'

/-- The numbers of the frames behind a cursor. -/
theorem seqs_since (h : s.Numbered) {seq : ℕ} (hseq : seq ≤ s.lastSeq) :
    (s.published.filter fun e => seq < e.seq).map (·.seq) =
      List.range' (seq + 1) (s.lastSeq - seq) := by
  have hsplit : List.range' 1 s.lastSeq =
      List.range' 1 seq ++ List.range' (seq + 1) (s.lastSeq - seq) := by
    rw [Nat.add_comm seq 1, List.range'_append_1, Nat.add_sub_cancel' hseq]
  calc (s.published.filter fun e => seq < e.seq).map (·.seq)
      = (s.published.map (·.seq)).filter fun n => seq < n := by
        rw [List.filter_map]
        rfl
    _ = (List.range' 1 seq).filter (fun n => seq < n) ++
          (List.range' (seq + 1) (s.lastSeq - seq)).filter fun n => seq < n := by
        rw [h.seqs, hsplit, List.filter_append]
    _ = List.range' (seq + 1) (s.lastSeq - seq) := by
        rw [List.filter_eq_nil_iff.mpr, List.filter_eq_self.mpr, List.nil_append]
        · intro n hn
          simp only [List.mem_range'_1] at hn
          simp
          omega
        · intro n hn
          simp only [List.mem_range'_1] at hn
          simp
          omega

/-- The ring holds every frame behind a cursor that is neither ahead of the watermark's frame nor
older than the ring. -/
theorem replay_since (h : s.Numbered) {seq : ℕ} (hseq : seq < s.lastSeq)
    (htransient : s.lastTransientSeq ≤ seq)
    (holdest : (s.replay.replay.head?.map (·.seq)).getD (s.lastSeq + 1) ≤ seq + 1) :
    (s.replay.replay.filter fun e => seq < e.seq) = s.published.filter fun e => seq < e.seq := by
  obtain ⟨n, hkept⟩ := h.kept
  cases hring : s.replay.replay with
  | nil =>
    rw [hring] at holdest
    simp only [List.head?_nil, Option.map_none, Option.getD_none] at holdest
    omega
  | cons oldest rest =>
    rw [hring] at holdest hkept
    simp only [List.head?_cons, Option.map_some, Option.getD_some] at holdest
    have hbound := h.bound.resolve_left (by simp [hring])
    have hsorted : (s.published.filter fun e => isReplayableFrame e.frame).Pairwise
        (·.seq < ·.seq) := h.sorted.filter _
    rw [← List.take_append_drop n (s.published.filter _), ← hkept] at hsorted
    obtain ⟨-, -, hbefore⟩ := List.pairwise_append.mp hsorted
    have hgone : ((s.published.filter fun e => isReplayableFrame e.frame).take n).filter
        (fun e => seq < e.seq) = [] := by
      rw [List.filter_eq_nil_iff]
      intro e he
      have := hbefore e he oldest (by simp)
      simp
      omega
    calc (oldest :: rest).filter (fun e => seq < e.seq)
        = (s.published.filter fun e => isReplayableFrame e.frame).filter fun e => seq < e.seq := by
          rw [← List.take_append_drop n (s.published.filter _), List.filter_append, hgone, ← hkept,
            List.nil_append]
      _ = s.published.filter fun e => seq < e.seq := by
          rw [List.filter_filter]
          refine List.filter_congr fun e he => ?_
          cases hreplayable : isReplayableFrame e.frame with
          | true => simp
          | false =>
            have := hbound e he hreplayable
            simp
            omega

/-- A published frame under every number up to the last. -/
theorem exists_frame (h : s.Numbered) {seq : ℕ} (hpos : 1 ≤ seq) (hseq : seq ≤ s.lastSeq) :
    ∃ e ∈ s.published, e.seq = seq := by
  have hmem : seq ∈ s.published.map (·.seq) := by
    rw [h.seqs, List.mem_range'_1]
    omega
  exact List.mem_map.mp hmem

/-- A replay answers a cursor of this generation with the published frames behind it. -/
theorem getReplay_replay (h : s.Numbered) {requestedHandle : JsString} {cursor : ReplayCursor}
    {frames : List (SessionReplayFrame J T)}
    (hreplay : s.getReplay requestedHandle (some cursor) = .replay frames) :
    cursor.serverEpoch = s.identity.serverEpoch ∧ requestedHandle = s.identity.sessionHandle ∧
      cursor.generation = s.identity.generation ∧
      ∃ seq ≤ s.lastSeq, cursor.seq = (seq : ℤ) ∧
        frames = s.published.filter fun e => seq < e.seq := by
  simp only [getReplay] at hreplay
  split at hreplay
  · cases hreplay
  rename_i hepoch
  split at hreplay
  · cases hreplay
  rename_i hhandle
  split at hreplay
  · cases hreplay
  rename_i hgeneration
  split at hreplay
  · cases hreplay
  rename_i hvalid
  obtain ⟨seq, hseq⟩ : ∃ seq : ℕ, cursor.seq = (seq : ℤ) := ⟨cursor.seq.toNat, by omega⟩
  refine ⟨of_not_not hepoch, of_not_not hhandle, of_not_not hgeneration, seq, by omega, hseq, ?_⟩
  rw [hseq] at hreplay
  split at hreplay
  · rename_i hlast
    cases hreplay
    have hnone := h.seqs_since (Nat.le_of_eq (Int.ofNat.inj hlast))
    rw [Int.ofNat.inj hlast, Nat.sub_self, List.range'_zero, List.map_eq_nil_iff] at hnone
    rw [Int.ofNat.inj hlast, hnone]
  rename_i hbehind
  split at hreplay
  · cases hreplay
  rename_i htransient
  split at hreplay
  · cases hreplay
  rename_i holdest
  cases hreplay
  have hlt : seq < s.lastSeq := by omega
  have hsince := h.replay_since hlt (by omega) (by omega)
  simpa only [Int.ofNat_lt] using hsince

/-- A gap is answered only where a frame behind the cursor is not in the ring. -/
theorem getReplay_gap (h : s.Numbered) {requestedHandle : JsString} {cursor : ReplayCursor}
    (hgap : s.getReplay requestedHandle (some cursor) = .resyncRequired .gap) :
    ∃ e ∈ s.published, cursor.seq < e.seq ∧ e ∉ s.replay.replay := by
  simp only [getReplay] at hgap
  split at hgap
  · cases hgap
  split at hgap
  · cases hgap
  split at hgap
  · cases hgap
  split at hgap
  · cases hgap
  rename_i hvalid
  split at hgap
  · cases hgap
  rename_i hbehind
  obtain ⟨n, hkept⟩ := h.kept
  split at hgap
  · rename_i htransient
    obtain ⟨e, he, hreplayable, hseq⟩ := h.watermark.resolve_left (by omega)
    refine ⟨e, he, by omega, fun hmem => ?_⟩
    rw [hkept] at hmem
    have hfiltered := (List.mem_filter.mp (List.mem_of_mem_drop hmem)).2
    rw [hreplayable] at hfiltered
    cases hfiltered
  split at hgap
  · rename_i holdest
    have hpos : 1 ≤ cursor.seq.toNat + 1 := by omega
    obtain ⟨e, he, hseq⟩ := h.exists_frame hpos (by omega)
    refine ⟨e, he, by omega, fun hmem => ?_⟩
    cases hring : s.replay.replay with
    | nil =>
      rw [hring] at hmem
      cases hmem
    | cons oldest rest =>
      rw [hring] at hmem holdest hkept
      have hsorted := (h.sorted.filter fun e => isReplayableFrame e.frame).drop (i := n)
      rw [← hkept, List.pairwise_cons] at hsorted
      simp only [List.head?_cons, Option.map_some, Option.getD_some] at holdest
      rcases List.mem_cons.mp hmem with rfl | hmem
      · omega
      · have := hsorted.1 e hmem
        omega
  · cases hgap

end Numbered

/-- Replay completeness, within one generation: after any events, requests, answers, commands,
compactions and committed transitions, an answer that replays has exactly the published frames
behind the cursor, numbered without a gap, for a cursor of this server, handle and generation; and a
cursor is answered with a gap only where such a frame is no longer kept. -/
theorem replay_complete (opts : SessionRuntimeOptions J T) {start : SessionRuntimeCore J T}
    (hbegins : start.Begins opts) (actions : List (ReplayAction J T)) (requestedHandle : JsString)
    (cursor : ReplayCursor) :
    let s := runFrom (replayStep opts) start actions
    (∀ frames, s.getReplay requestedHandle (some cursor) = .replay frames →
      cursor.serverEpoch = s.identity.serverEpoch ∧ requestedHandle = s.identity.sessionHandle ∧
        cursor.generation = s.identity.generation ∧
        (∀ e ∈ frames, e.identity = s.identity) ∧
        ∃ seq ≤ s.lastSeq, cursor.seq = (seq : ℤ) ∧
          frames = (s.published.filter fun e => seq < e.seq) ∧
          frames.map (·.seq) = List.range' (seq + 1) (s.lastSeq - seq)) ∧
      (s.getReplay requestedHandle (some cursor) = .resyncRequired .gap →
        ∃ e ∈ s.published, cursor.seq < e.seq ∧ e ∉ s.replay.replay) := by
  intro s
  obtain ⟨_, _, _, hfresh, hadvances⟩ := hbegins.advances actions
  have hnumbered : s.Numbered := hadvances.numbered hfresh
  refine ⟨fun frames hreplay => ?_, hnumbered.getReplay_gap⟩
  obtain ⟨hepoch, hhandle, hgeneration, seq, hle, hseq, rfl⟩ := hnumbered.getReplay_replay hreplay
  exact ⟨hepoch, hhandle, hgeneration,
    fun e he => hnumbered.identity e (List.mem_of_mem_filter he), seq, hle, hseq, rfl,
    hnumbered.seqs_since hle⟩

/-- The steps of the evaluated run: a turn, and a transition that staged three frames. -/
def sampleReplayActions : List (ReplayAction Json Json) :=
  (sampleSettledTurn ++ [TurnAction.admitTurn "prompt"] ++ sampleTurn).map .turn ++
    [.commitTransition
      { phase := .awaitingResponse, frames := sampleTransition, bytes := 0, processToken := 0
        parentGeneration := 1 }]

/-- Behind the fourth of seven frames, the three of the transition are replayed. -/
theorem replay_complete_sample :
    let s := runFrom (replayStep (sampleTurnOptions 4096))
      (startIncarnation (sampleTurnOptions 4096) sampleSpawned []).1 sampleReplayActions
    ∃ frames, s.getReplay (js "s") (some ⟨js "e", 1, 4⟩) = .replay frames ∧
      frames.map (·.seq) = [5, 6, 7] ∧ ∀ e ∈ frames, e ∈ s.published := by
  intro s
  obtain ⟨hepoch, hhandle, hgeneration, hlast, htransient, holdest⟩ :
      s.identity.serverEpoch = js "e" ∧ s.identity.sessionHandle = js "s" ∧
        s.identity.generation = 1 ∧ s.lastSeq = 7 ∧ s.lastTransientSeq = 0 ∧
        s.replay.replay.head?.map (·.seq) = some 1 := by
    decide +kernel
  have hreplay : s.getReplay (js "s") (some ⟨js "e", 1, 4⟩) =
      .replay (s.replay.replay.filter fun frame => (4 : ℤ) < frame.seq) := by
    simp [getReplay, hepoch, hhandle, hgeneration, hlast, htransient, holdest]
  obtain ⟨-, -, -, -, seq, -, hseq, hframes, hseqs⟩ :=
    (replay_complete (sampleTurnOptions 4096) (.spawned ⟨rfl, rfl, rfl, rfl, rfl⟩ [])
      sampleReplayActions (js "s") ⟨js "e", 1, 4⟩).1 _ hreplay
  refine ⟨_, hreplay, ?_, fun e he => ?_⟩
  · obtain rfl : 4 = seq := Int.ofNat.inj hseq
    exact hseqs.trans (congrArg (fun last => List.range' 5 (last - 4)) hlast)
  · rw [hframes] at he
    exact List.mem_of_mem_filter he

end SessionRuntimeCore

end PiAgentWeb
