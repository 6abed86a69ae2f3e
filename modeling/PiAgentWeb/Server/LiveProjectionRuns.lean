import PiAgentWeb.Server.LiveProjection
import PiAgentWeb.UI.DeltaMerging

/-!
# Runs of the live projection

A run applies any sequence of prepares, commits, phase changes and compactions to a projection.
It records the events committed since the settled base, one by one, beside the suffix that the
projection keeps. The invariant is that the suffix coalesces the recorded events; a prepared
batch of the current revision carries the same fact for the events it would commit.
-/

namespace PiAgentWeb

open Coalescing

variable {J T : Type}

/-- An operation on a live projection. -/
inductive LiveProjectionOp (J T : Type) where
  | prepareBatch (identity : SessionLiveProjectionIdentity)
      (inputs : List (SessionLiveProjectionInput J T))
      (runtimePhase : Option SessionLiveRuntimePhase)
  | commitPreparedBatch (token : ℕ)
  | setRuntimePhase (identity : SessionLiveProjectionIdentity) (phase : SessionLiveRuntimePhase)
  | beginIdleBaseCompaction
  | prepareIdleBaseCompaction (token : ℕ) (settledMessages : List (SessionMessage J T))
  | commitPreparedIdleBaseCompaction (token : ℕ)

/-- A projection with the history of its run. -/
structure LiveProjectionRun (J T : Type) where
  projection : SessionLiveProjection J T
  /-- The inputs under each batch token. -/
  batchInputs : InsertionMap ℕ (List (SessionLiveProjectionInput J T))
  /-- The Pi events committed since the settled base, in commit order. -/
  committedEvents : List (SessionEvent J T)

/-- The Pi events among the inputs of a batch. -/
def inputEvents (inputs : List (SessionLiveProjectionInput J T)) : List (SessionEvent J T) :=
  inputs.filterMap fun
    | .event event => some event
    | _ => none

/-- One operation. An operation that throws before it changes anything leaves the run as it is. -/
def LiveProjectionRun.step (run : LiveProjectionRun J T) :
    LiveProjectionOp J T → LiveProjectionRun J T
  | .prepareBatch identity inputs runtimePhase =>
    match run.projection.prepareBatch identity inputs runtimePhase with
    | .ok (projection, token) =>
      { run with projection := projection, batchInputs := run.batchInputs.insert token inputs }
    | .error _ => run
  | .commitPreparedBatch token =>
    match run.projection.commitPreparedBatch token with
    | (projection, some _) =>
      { run with
        projection := projection
        committedEvents :=
          run.committedEvents ++ inputEvents ((run.batchInputs.get? token).getD []) }
    | (projection, none) => { run with projection := projection }
  | .setRuntimePhase identity phase =>
    match run.projection.setRuntimePhase identity phase with
    | .ok projection => { run with projection := projection }
    | .error _ => run
  | .beginIdleBaseCompaction =>
    { run with projection := run.projection.beginIdleBaseCompaction.1 }
  | .prepareIdleBaseCompaction token settledMessages =>
    { run with
      projection := (run.projection.prepareIdleBaseCompaction token settledMessages).1 }
  | .commitPreparedIdleBaseCompaction token =>
    match run.projection.commitPreparedIdleBaseCompaction token with
    | (projection, true) => { run with projection := projection, committedEvents := [] }
    | (projection, false) => { run with projection := projection }

/-- The run of a sequence of operations on a fresh projection. -/
def SessionLiveProjection.run (projection : SessionLiveProjection J T)
    (ops : List (LiveProjectionOp J T)) : LiveProjectionRun J T :=
  ops.foldl LiveProjectionRun.step
    { projection := projection, batchInputs := .empty, committedEvents := [] }

theorem mergeDelta_of_mergeCompatibleDelta {guardEvent : SessionEvent J T → Bool}
    {previous next merged : SessionEvent J T}
    (h : mergeCompatibleDelta guardEvent previous next = some merged) :
    mergeDelta previous next = some merged := by
  unfold mergeCompatibleDelta at h
  split at h
  · rename_i previous next
    obtain ⟨usage, previousEvent⟩ := previous
    obtain ⟨usage', nextEvent⟩ := next
    simp only at h
    split at h
    · split at h
      · simp at h
      · rename_i hsame
        rw [not_or, not_not, not_not] at hsame
        split at h
        · simpa [mergeDelta, hsame.1, hsame.2] using h
        · simp at h
    · simp at h
  · simp at h

/-- The event of a frame of a candidate. -/
def ProjectionCandidate.events (candidate : ProjectionCandidate J T) :
    List (SessionEvent J T) := candidate.projectionEvents.map (·.event)

variable {p : SessionLiveProjection J T} {candidate reduced : ProjectionCandidate J T}

theorem SessionLiveProjection.reduceEvent_ok {event : SessionEvent J T}
    (h : p.reduceEvent candidate event = .ok reduced) :
    Extends mergeDelta candidate.events reduced.events event := by
  have hevents : reduced.events =
      (if (p.mergedEvent candidate event).isSome then candidate.projectionEvents.dropLast
        else candidate.projectionEvents).map (·.event) ++
      [(p.mergedEvent candidate event).getD event] := by
    simp only [reduceEvent, bind, Except.bind, pure, Except.pure, throw,
      throwThe, MonadExceptOf.throw] at h
    repeat' split at h
    all_goals cases h <;> simp [ProjectionCandidate.events, *]
  cases hmerged : p.mergedEvent candidate event with
  | none =>
    left
    simpa [hmerged, ProjectionCandidate.events] using hevents
  | some merged =>
    right
    have hmerged' := hmerged
    unfold mergedEvent at hmerged
    split at hmerged
    · rename_i previousFrame hlast
      split at hmerged
      · obtain ⟨rest, hrest⟩ := List.getLast?_eq_some_iff.mp hlast
        refine ⟨rest.map (·.event), previousFrame.event, merged, ?_,
          mergeDelta_of_mergeCompatibleDelta hmerged, ?_⟩
        · simp [ProjectionCandidate.events, hrest]
        · rw [hevents, hrest]
          simp [hmerged']
      · simp at hmerged
    · simp at hmerged

variable {runtimePhase : Option SessionLiveRuntimePhase}

theorem SessionLiveProjection.reduceCandidate_ok {input : SessionLiveProjectionInput J T}
    (h : p.reduceCandidate runtimePhase candidate input = .ok reduced) :
    ∃ branch, p.reduceInput candidate input = .ok branch ∧
      reduced = { branch with
        asOfSeq := candidate.asOfSeq + 1
        runtimePhase := runtimePhase.getD candidate.runtimePhase } ∧
      p.assertSnapshotFits p.baseSeq p.settledMessageBytes reduced = .ok () := by
  simp only [reduceCandidate, bind, Except.bind, pure, Except.pure, throw, throwThe,
    MonadExceptOf.throw] at h
  split at h
  · cases h
  split at h
  · cases h
  rename_i branch hbranch
  split at h
  · cases h
  · rename_i hfits
    cases h
    exact ⟨branch, hbranch, rfl, hfits⟩

/-- A request changes nothing but the open requests. -/
theorem SessionLiveProjection.reduceExtensionRequest_ok
    {candidate branch : ProjectionCandidate J T} {request : ExtensionUiRequest J T}
    (h : p.reduceExtensionRequest candidate request = .ok branch) :
    ∃ pending, branch = { candidate with pendingExtensionRequests := pending } := by
  simp only [reduceExtensionRequest, bind, Except.bind, pure, Except.pure, throw, throwThe,
    MonadExceptOf.throw] at h
  repeat' split at h
  all_goals cases h <;> exact ⟨_, rfl⟩

theorem SessionLiveProjection.reduceCandidate_coalesces
    {input : SessionLiveProjectionInput J T} {committed : List (SessionEvent J T)}
    (hstep : p.reduceCandidate runtimePhase candidate input = .ok reduced)
    (h : Coalesces mergeDelta committed candidate.events) :
    Coalesces mergeDelta (committed ++ inputEvents [input]) reduced.events := by
  obtain ⟨branch, hbranch, rfl, -⟩ := reduceCandidate_ok hstep
  change Coalesces mergeDelta _ branch.events
  cases input with
  | event event =>
    change Coalesces mergeDelta (committed ++ [event]) branch.events
    exact h.extend (reduceEvent_ok hbranch)
  | extensionUiRequest request =>
    obtain ⟨pending, rfl⟩ := reduceExtensionRequest_ok hbranch
    simpa [inputEvents, ProjectionCandidate.events] using h
  | extensionUiClosed requestId =>
    cases hbranch
    change Coalesces mergeDelta _ candidate.events
    simpa [inputEvents] using h

theorem SessionLiveProjection.foldlM_reduceCandidate_coalesces
    {inputs : List (SessionLiveProjectionInput J T)} {committed : List (SessionEvent J T)}
    (hfold : inputs.foldlM (p.reduceCandidate runtimePhase) candidate = .ok reduced)
    (h : Coalesces mergeDelta committed candidate.events) :
    Coalesces mergeDelta (committed ++ inputEvents inputs) reduced.events := by
  induction inputs generalizing candidate committed with
  | nil =>
    cases hfold
    simpa [inputEvents] using h
  | cons input rest ih =>
    rw [List.foldlM_cons] at hfold
    cases hstep : p.reduceCandidate runtimePhase candidate input with
    | error error => simp [hstep, bind, Except.bind] at hfold
    | ok next =>
      have hrest := ih (by simpa [hstep, bind, Except.bind] using hfold)
        (reduceCandidate_coalesces hstep h)
      have happend : inputEvents (input :: rest) = inputEvents [input] ++ inputEvents rest := by
        simp only [inputEvents, ← List.filterMap_append, List.singleton_append]
      rw [happend, ← List.append_assoc]
      exact hrest

/-- A prepared batch of the current revision would commit a suffix that coalesces the committed
events followed by its own. -/
def LiveProjectionRun.BatchSound (run : LiveProjectionRun J T) (token : ℕ)
    (prepared : PreparedBatchState J T) : Prop :=
  prepared.revision = run.projection.revision →
    Coalesces mergeDelta
      (run.committedEvents ++ inputEvents ((run.batchInputs.get? token).getD []))
      prepared.candidate.events

/-- The invariant of a run. -/
structure LiveProjectionRun.Invariant (run : LiveProjectionRun J T) : Prop where
  /-- The suffix coalesces the events committed since the base. -/
  suffix : Coalesces mergeDelta run.committedEvents run.projection.live.events
  /-- Issued tokens are older than the next one. -/
  issued : ∀ token prepared, run.projection.preparedBatches.get? token = some prepared →
    token < run.projection.nextToken
  /-- No batch was prepared at a later revision. -/
  past : ∀ token prepared, run.projection.preparedBatches.get? token = some prepared →
    prepared.revision ≤ run.projection.revision
  /-- A current batch carries its events. -/
  sound : ∀ token prepared, run.projection.preparedBatches.get? token = some prepared →
    run.BatchSound token prepared

theorem get?_of_get?_erase {α : Type} {tokens : InsertionMap ℕ α} {spent token : ℕ} {value : α}
    (h : (tokens.erase spent).get? token = some value) : tokens.get? token = some value := by
  rw [InsertionMap.get?_erase] at h
  split at h
  · cases h
  · exact h

theorem LiveProjectionRun.Invariant.of_revised {run next : LiveProjectionRun J T}
    (h : run.Invariant)
    (hsuffix : Coalesces mergeDelta next.committedEvents next.projection.live.events)
    (hbatches : ∀ token prepared,
      next.projection.preparedBatches.get? token = some prepared →
        run.projection.preparedBatches.get? token = some prepared)
    (htoken : next.projection.nextToken = run.projection.nextToken)
    (hrevision : next.projection.revision = run.projection.revision + 1) : next.Invariant where
  suffix := hsuffix
  issued token prepared hget := htoken ▸ h.issued token prepared (hbatches token prepared hget)
  past token prepared hget := by
    have := h.past token prepared (hbatches token prepared hget)
    omega
  sound token prepared hget hcurrent := by
    have := h.past token prepared (hbatches token prepared hget)
    omega

/-- A step that changes neither the suffix nor the revision keeps the invariant when it issues
no batch token. -/
theorem LiveProjectionRun.Invariant.of_unrevised {run next : LiveProjectionRun J T}
    (h : run.Invariant) (hcommitted : next.committedEvents = run.committedEvents)
    (hlive : next.projection.live = run.projection.live)
    (hinputs : next.batchInputs = run.batchInputs) (hbatches : ∀ token prepared,
      next.projection.preparedBatches.get? token = some prepared →
        run.projection.preparedBatches.get? token = some prepared)
    (htoken : run.projection.nextToken ≤ next.projection.nextToken)
    (hrevision : next.projection.revision = run.projection.revision) : next.Invariant where
  suffix := by
    rw [hcommitted, hlive]
    exact h.suffix
  issued token prepared hget := by
    have := h.issued token prepared (hbatches token prepared hget)
    omega
  past token prepared hget := hrevision ▸ h.past token prepared (hbatches token prepared hget)
  sound token prepared hget hcurrent := by
    rw [hcommitted, hinputs]
    exact h.sound token prepared (hbatches token prepared hget) (hcurrent.trans hrevision)

theorem SessionLiveProjection.prepareBatch_ok {p next : SessionLiveProjection J T} {token : ℕ}
    {identity : SessionLiveProjectionIdentity} {inputs : List (SessionLiveProjectionInput J T)}
    (h : p.prepareBatch identity inputs runtimePhase = .ok (next, token)) :
    ∃ candidate, inputs.foldlM (p.reduceCandidate runtimePhase) p.live = .ok candidate ∧
      token = p.nextToken ∧
      next = { p with
        preparedBatches := p.preparedBatches.insert p.nextToken
          { revision := p.revision, firstSeq := p.live.asOfSeq + 1,
            lastSeq := candidate.asOfSeq, count := inputs.length, candidate := candidate }
        nextToken := p.nextToken + 1 } := by
  simp only [prepareBatch, bind, Except.bind, pure, Except.pure, throw, throwThe,
    MonadExceptOf.throw] at h
  split at h
  · cases h
  split at h
  · cases h
  split at h
  · cases h
  split at h
  · cases h
  rename_i candidate hfold
  cases h
  exact ⟨candidate, hfold, rfl, rfl⟩

theorem SessionLiveProjection.commitPreparedBatch_cases (p : SessionLiveProjection J T)
    (token : ℕ) :
    (∃ prepared, p.preparedBatches.get? token = some prepared ∧
        prepared.revision = p.revision ∧
        p.commitPreparedBatch token =
          ({ p with
            preparedBatches := p.preparedBatches.erase token
            live := prepared.candidate
            revision := p.revision + 1 }, some prepared.candidate.asOfSeq)) ∨
      (∃ batches, (∀ other prepared, batches.get? other = some prepared →
          p.preparedBatches.get? other = some prepared) ∧
        p.commitPreparedBatch token = ({ p with preparedBatches := batches }, none)) := by
  unfold commitPreparedBatch
  split
  · exact Or.inr ⟨p.preparedBatches, fun _ _ h => h, rfl⟩
  · rename_i prepared hstate
    dsimp only
    split
    · rename_i heligible
      simp only [batchEligible, Bool.and_eq_true, beq_iff_eq] at heligible
      exact Or.inl ⟨prepared, hstate, heligible.1.1.1, rfl⟩
    · exact Or.inr ⟨_, fun _ _ h => get?_of_get?_erase h, rfl⟩

/-- What `setRuntimePhase` checks and writes. -/
theorem SessionLiveProjection.setRuntimePhase_ok {p q : SessionLiveProjection J T}
    {identity : SessionLiveProjectionIdentity} {phase : SessionLiveRuntimePhase}
    (h : p.setRuntimePhase identity phase = .ok q) :
    p.assertSnapshotFits p.baseSeq p.settledMessageBytes { p.live with runtimePhase := phase } =
        .ok () ∧
      q = { p with
        live := { p.live with runtimePhase := phase }
        revision := p.revision + 1 } := by
  simp only [setRuntimePhase, bind, Except.bind, pure, Except.pure, throw, throwThe,
    MonadExceptOf.throw] at h
  split at h
  · cases h
  split at h
  · cases h
  · rename_i hfits
    cases h
    exact ⟨hfits, rfl⟩

theorem LiveProjectionRun.Invariant.step {run : LiveProjectionRun J T} (h : run.Invariant)
    (op : LiveProjectionOp J T) : (run.step op).Invariant := by
  cases op with
  | prepareBatch identity inputs runtimePhase =>
    simp only [LiveProjectionRun.step]
    split
    · rename_i projection token hok
      obtain ⟨candidate, hfold, rfl, rfl⟩ := SessionLiveProjection.prepareBatch_ok hok
      refine ⟨h.suffix, ?_, ?_, ?_⟩
      · intro token prepared hget
        rw [InsertionMap.get?_insert] at hget
        split at hget
        · rename_i htoken
          exact htoken ▸ Nat.lt_succ_self _
        · exact Nat.lt_succ_of_lt (h.issued token prepared hget)
      · intro token prepared hget
        rw [InsertionMap.get?_insert] at hget
        split at hget
        · cases hget
          exact Nat.le_refl _
        · exact h.past token prepared hget
      · intro token prepared hget hcurrent
        rw [InsertionMap.get?_insert] at hget
        split at hget
        · rename_i htoken
          cases hget
          simpa [htoken] using
            SessionLiveProjection.foldlM_reduceCandidate_coalesces hfold h.suffix
        · rename_i htoken
          simpa [InsertionMap.get?_insert_of_ne _ htoken] using
            h.sound token prepared hget hcurrent
    · exact h
  | commitPreparedBatch token =>
    rcases run.projection.commitPreparedBatch_cases token with
      ⟨prepared, hstate, hcurrent, heq⟩ | ⟨batches, hbatches, heq⟩
    · simp only [LiveProjectionRun.step, heq]
      exact h.of_revised (h.sound _ _ hstate hcurrent)
        (fun _ _ hget => get?_of_get?_erase hget) rfl rfl
    · simp only [LiveProjectionRun.step, heq]
      exact h.of_unrevised rfl rfl rfl hbatches (Nat.le_refl _) rfl
  | setRuntimePhase identity phase =>
    simp only [LiveProjectionRun.step]
    split
    · rename_i projection hok
      obtain ⟨-, rfl⟩ := SessionLiveProjection.setRuntimePhase_ok hok
      exact h.of_revised h.suffix (fun _ _ hget => hget) rfl rfl
    · exact h
  | beginIdleBaseCompaction =>
    simp only [LiveProjectionRun.step, SessionLiveProjection.beginIdleBaseCompaction]
    split
    · exact h
    · exact h.of_unrevised rfl rfl rfl (fun _ _ hget => hget) (Nat.le_succ _) rfl
  | prepareIdleBaseCompaction token settledMessages =>
    simp only [LiveProjectionRun.step, SessionLiveProjection.prepareIdleBaseCompaction]
    split
    · exact h.of_unrevised rfl rfl rfl (fun _ _ hget => hget) (Nat.le_refl _) rfl
    · exact h.of_unrevised rfl rfl rfl (fun _ _ hget => hget) (Nat.le_refl _) rfl
    · exact h.of_unrevised rfl rfl rfl (fun _ _ hget => hget) (Nat.le_succ _) rfl
  | commitPreparedIdleBaseCompaction token =>
    simp only [LiveProjectionRun.step, SessionLiveProjection.commitPreparedIdleBaseCompaction]
    split
    · rename_i projection hcommit
      split at hcommit
      · cases hcommit
      · split at hcommit <;> cases hcommit
        exact h.of_revised Coalesces.nil (fun _ _ hget => hget) rfl rfl
    · rename_i projection hcommit
      split at hcommit
      · cases hcommit
        exact h
      · split at hcommit <;> cases hcommit
        exact h.of_unrevised rfl rfl rfl (fun _ _ hget => hget) (Nat.le_refl _) rfl

/-- A new projection is empty and uses the given codec. -/
theorem SessionLiveProjection.create_ok {identity : SessionLiveProjectionIdentity}
    {limits : SessionLiveProjectionLimits} {codec : PayloadCodec J T}
    {schema : Option (SessionProjectionProductSchema J T)}
    {settledMessages : List (SessionMessage J T)} {baseSeq : ℕ}
    {runtimePhase : SessionLiveRuntimePhase}
    (h : create identity limits codec schema settledMessages baseSeq runtimePhase = .ok p) :
    p.live.projectionEvents = [] ∧ p.preparedBatches = .empty ∧ p.preparedCompactions = .empty ∧
      p.codec = codec := by
  simp only [create, bind, Except.bind, pure, Except.pure, throw, throwThe,
    MonadExceptOf.throw] at h
  repeat' split at h
  all_goals cases h <;> exact ⟨rfl, rfl, rfl, rfl⟩

theorem SessionLiveProjection.run_invariant
    (hevents : p.live.projectionEvents = []) (hbatches : p.preparedBatches = .empty)
    (ops : List (LiveProjectionOp J T)) : (p.run ops).Invariant := by
  have hstart : LiveProjectionRun.Invariant
      { projection := p, batchInputs := .empty, committedEvents := [] } := by
    refine ⟨?_, ?_, ?_, ?_⟩
    · simpa [ProjectionCandidate.events, hevents] using Coalesces.nil
    all_goals simp [hbatches]
  unfold run
  generalize ({ projection := p, batchInputs := .empty, committedEvents := [] } :
    LiveProjectionRun J T) = start at hstart
  induction ops generalizing start with
  | nil => exact hstart
  | cons op rest ih => exact ih _ (hstart.step op)

/-- **Coalescing preserves the projection.** In every run of a live projection, folding the
reducer over the events of the snapshot is folding it, from any projection and with one clock,
over the events committed since the settled base. -/
theorem snapshotEvents_foldl_eq {identity : SessionLiveProjectionIdentity}
    {limits : SessionLiveProjectionLimits} {codec : PayloadCodec J T}
    {schema : Option (SessionProjectionProductSchema J T)}
    {settledMessages : List (SessionMessage J T)} {baseSeq : ℕ}
    {runtimePhase : SessionLiveRuntimePhase} {p : SessionLiveProjection J T}
    (hcreate : SessionLiveProjection.create identity limits codec schema settledMessages baseSeq
      runtimePhase = .ok p)
    (ops : List (LiveProjectionOp J T)) (ctx : ReducerContext J T)
    (state : ConversationProjection) :
    (p.run ops).projection.snapshotEvents.foldl (reduceProjection ctx) state =
      (p.run ops).committedEvents.foldl (reduceProjection ctx) state := by
  obtain ⟨hevents, hbatches, -⟩ := SessionLiveProjection.create_ok hcreate
  have hinvariant := SessionLiveProjection.run_invariant hevents hbatches ops
  exact (hinvariant.suffix.foldl_eq (reduceProjection_mergeDelta ctx) state).symm

/-- The identity of the evaluated run. -/
def sampleIdentity : SessionLiveProjectionIdentity where
  serverEpoch := js "e"
  sessionHandle := js "s"
  workspaceId := js "w"
  generation := 1

/-- The creation of the evaluated run: small limits and a codec that admits everything. -/
def sampleProjection : Except SessionLiveProjectionError (SessionLiveProjection Json Json) :=
  SessionLiveProjection.create sampleIdentity
    { maxSettledMessageItems := 8, maxSettledMessageBytes := 4096, maxLiveEventItems := 8,
      maxLiveEventBytes := 4096, maxQueueItems := 8, maxExtensionItems := 8,
      maxExtensionBytes := 4096, maxSnapshotBytes := 4096 }
    { guardMessage := fun _ => true, guardEvent := fun _ => true,
      guardExtensionRequest := fun _ => true, messageJson := fun _ => .null,
      eventJson := fun _ => .null, extensionRequestJson := fun _ => .null }
    none [] 4 .idle

/-- A text delta of the evaluated run. -/
def sampleDelta (text : String) : SessionEvent Json Json :=
  .messageUpdate
    { usage :=
        { input := 1, output := 2, cacheRead := 0, cacheWrite := 0, totalTokens := 3,
          costTotal := 0 }
      assistantMessageEvent := .delta .textDelta 0 (js text) }

/-- The evaluated run: two deltas committed as one batch. -/
def sampleOps : List (LiveProjectionOp Json Json) :=
  [.prepareBatch sampleIdentity [.event (sampleDelta "He"), .event (sampleDelta "llo")] none,
    .commitPreparedBatch 0]

/-- Two deltas of one block, committed as a batch, leave one event in the snapshot. -/
theorem snapshotEvents_foldl_eq_two_deltas :
    ∃ p, sampleProjection = .ok p ∧
      (p.run sampleOps).committedEvents.length = 2 ∧
      (p.run sampleOps).projection.snapshotEvents.length = 1 ∧
      ∀ ctx state,
        (p.run sampleOps).projection.snapshotEvents.foldl (reduceProjection ctx) state =
          (p.run sampleOps).committedEvents.foldl (reduceProjection ctx) state := by
  have hlengths : (sampleProjection.toOption.map fun p =>
      ((p.run sampleOps).committedEvents.length,
        (p.run sampleOps).projection.snapshotEvents.length)) = some (2, 1) := by
    decide +kernel
  cases hcreate : sampleProjection with
  | error error => simp [hcreate, Except.toOption] at hlengths
  | ok p =>
    have hcounts := (Option.some.inj (by simpa [hcreate, Except.toOption] using hlengths) :
      ((p.run sampleOps).committedEvents.length,
        (p.run sampleOps).projection.snapshotEvents.length) = (2, 1))
    exact ⟨p, rfl, congrArg Prod.fst hcounts, congrArg Prod.snd hcounts,
      fun ctx state => snapshotEvents_foldl_eq hcreate sampleOps ctx state⟩

end PiAgentWeb
