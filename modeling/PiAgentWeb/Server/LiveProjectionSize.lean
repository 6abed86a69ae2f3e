import PiAgentWeb.Server.LiveProjectionRuns
import PiAgentWeb.Library.JsonSize

/-!
# The size of a snapshot

The projection never serializes its snapshot to learn its size: it adds up the sizes of the parts,
which it adjusts whenever a frame is appended or merged, and checks the sum before it changes. The
invariant says that the recorded sizes are those of the frames and of the settled messages, that the
frames are numbered after the base, and that the sum is within the limit; a prepared batch or
compaction of the current revision carries the same facts for the state that it would commit.
-/

namespace PiAgentWeb

variable {J T : Type}

namespace SessionLiveProjection

/-- The JSON form of `snapshot()`. -/
def snapshotJson (p : SessionLiveProjection J T) : Json :=
  .obj (p.identity.fields ++
    [natField "baseSeq" p.baseSeq, natField "asOfSeq" p.live.asOfSeq,
      strField "runtimePhase" p.snapshotRuntimePhase.text,
      (js "settledMessages", .arr (p.settledMessages.map p.codec.messageJson)),
      (js "projectionEvents", .arr (p.live.projectionEvents.map p.frameJson)),
      (js "queue", p.live.queue.json),
      (js "pendingExtensionRequests", p.pendingJson p.live.pendingExtensionRequests),
      (js "stickyExtensionState", .arr [])])

/-- The recorded sizes of a candidate are those of its frames, and its frames are numbered after
the base, up to its sequence number. -/
structure Recorded (p : SessionLiveProjection J T) (candidate : ProjectionCandidate J T) :
    Prop where
  frameBytes : candidate.projectionEventFrameBytes =
    candidate.projectionEvents.map fun frame => (p.frameJson frame).byteLength
  total : candidate.projectionEventBytes = candidate.projectionEventFrameBytes.sum
  increasing : candidate.projectionEvents.Pairwise fun frame later => frame.seq < later.seq
  bounded : ∀ frame ∈ candidate.projectionEvents,
    p.baseSeq < frame.seq ∧ frame.seq ≤ candidate.asOfSeq
  base : p.baseSeq ≤ candidate.asOfSeq

/-- A candidate without frames. -/
def withoutEvents (candidate : ProjectionCandidate J T) : ProjectionCandidate J T :=
  { candidate with
    projectionEvents := [], projectionEventFrameBytes := [], projectionEventBytes := 0 }

/-- A prepared batch would commit a candidate that is recorded and fits. -/
def BatchFits (p : SessionLiveProjection J T) (prepared : PreparedBatchState J T) : Prop :=
  p.Recorded prepared.candidate ∧
    p.estimatedSnapshotBytes p.baseSeq p.settledMessageBytes prepared.candidate ≤
      p.maxSnapshotWireBytes

/-- A prepared compaction would commit a base that fits without frames. -/
def CompactionFits (p : SessionLiveProjection J T) (prepared : PreparedCompactionState J T) :
    Prop :=
  prepared.settledMessageBytes =
      (Json.arr (prepared.settledMessages.map p.codec.messageJson)).byteLength ∧
    p.estimatedSnapshotBytes prepared.baseSeq prepared.settledMessageBytes
      (withoutEvents p.live) ≤ p.maxSnapshotWireBytes

/-- The invariant of a projection. -/
structure Sized (p : SessionLiveProjection J T) : Prop where
  settled : p.settledMessageBytes =
    (Json.arr (p.settledMessages.map p.codec.messageJson)).byteLength
  live : p.Recorded p.live
  fits : p.estimatedSnapshotBytes p.baseSeq p.settledMessageBytes p.live ≤ p.maxSnapshotWireBytes
  /-- No batch was prepared at a later revision. -/
  pastBatch : ∀ token prepared, p.preparedBatches.get? token = some prepared →
    prepared.revision ≤ p.revision
  batch : ∀ token prepared, p.preparedBatches.get? token = some prepared →
    prepared.revision = p.revision → p.BatchFits prepared
  /-- No compaction was prepared at a later revision. -/
  pastCompaction : ∀ token prepared, p.preparedCompactions.get? token = some prepared →
    prepared.revision ≤ p.revision
  compaction : ∀ token prepared, p.preparedCompactions.get? token = some prepared →
    prepared.revision = p.revision → p.CompactionFits prepared

theorem two_le_byteLength_arr (items : List Json) : 2 ≤ (Json.arr items).byteLength := by
  rw [Json.byteLength_arr]
  omega

theorem estimatedSnapshotBytes_eq {p : SessionLiveProjection J T} (h : p.Sized) :
    p.estimatedSnapshotBytes p.baseSeq p.settledMessageBytes p.live =
      p.snapshotJson.byteLength := by
  have hempty : (Json.arr []).byteLength = 2 := by
    rw [Json.byteLength_arr]
    rfl
  have hsettled := two_le_byteLength_arr (p.settledMessages.map p.codec.messageJson)
  have hpending := two_le_byteLength_arr
    (p.live.pendingExtensionRequests.map fun entry => p.codec.extensionRequestJson entry.2)
  have hevents : (Json.arr (p.live.projectionEvents.map p.frameJson)).byteLength =
      2 + serializedItemsArrayContentsBytes p.live.projectionEventBytes
        p.live.projectionEvents.length := by
    rw [Json.byteLength_arr, h.live.total, h.live.frameBytes, List.map_map, List.length_map]
    unfold serializedItemsArrayContentsBytes
    split
    · rename_i hnone
      rw [List.length_eq_zero_iff] at hnone
      simp [hnone]
    · simp only [Function.comp_def]
      omega
  unfold estimatedSnapshotBytes snapshotJson
  dsimp only
  rw [Json.byteLength_obj, Json.byteLength_obj]
  simp only [List.map_append, List.sum_append, List.map_cons, List.map_nil, List.sum_cons,
    List.sum_nil, List.length_append, List.length_cons, List.length_nil, hempty, hevents,
    ← h.settled, pendingJson, serializedArrayContentsBytes, snapshotRuntimePhase]
  rw [← h.settled] at hsettled
  omega

variable {p : SessionLiveProjection J T}

/-- The check of a snapshot succeeds only if the estimate is within the limit. -/
theorem assertSnapshotFits_ok {baseSeq settledMessageBytes : ℕ}
    {candidate : ProjectionCandidate J T}
    (h : p.assertSnapshotFits baseSeq settledMessageBytes candidate = .ok ()) :
    p.estimatedSnapshotBytes baseSeq settledMessageBytes candidate ≤ p.maxSnapshotWireBytes := by
  unfold assertSnapshotFits at h
  split at h
  · cases h
  · omega

variable {candidate reduced : ProjectionCandidate J T}

theorem reduceEvent_eq {event : SessionEvent J T}
    (h : p.reduceEvent candidate event = .ok reduced) :
    let merged := p.mergedEvent candidate event
    let frame : SessionLiveProjectionEventFrame J T :=
      { seq := candidate.asOfSeq + 1, event := merged.getD event }
    reduced.projectionEvents =
        (if merged.isSome then candidate.projectionEvents.dropLast
          else candidate.projectionEvents) ++ [frame] ∧
      reduced.projectionEventFrameBytes =
        (if merged.isSome then candidate.projectionEventFrameBytes.dropLast
          else candidate.projectionEventFrameBytes) ++ [(p.frameJson frame).byteLength] ∧
      reduced.projectionEventBytes =
        candidate.projectionEventBytes -
            (if merged.isSome then (candidate.projectionEventFrameBytes.getLast?).getD 0 else 0) +
          (p.frameJson frame).byteLength := by
  simp only [reduceEvent, bind, Except.bind, pure, Except.pure, throw, throwThe,
    MonadExceptOf.throw] at h
  repeat' split at h
  all_goals cases h <;> simp [*]

theorem Recorded.reduceEvent (h : p.Recorded candidate) {event : SessionEvent J T}
    (hstep : p.reduceEvent candidate event = .ok reduced) :
    p.Recorded { reduced with asOfSeq := candidate.asOfSeq + 1 } := by
  obtain ⟨hevents, hframeBytes, htotal⟩ := reduceEvent_eq hstep
  have hbase := h.base
  have hsum := h.total
  -- the kept frames with their sizes: all but the last one when the event is merged
  obtain ⟨kept, hkept, hkeptBytes, hkeptTotal, hsub⟩ :
      ∃ kept, (if (p.mergedEvent candidate event).isSome then candidate.projectionEvents.dropLast
            else candidate.projectionEvents) = kept ∧
        (if (p.mergedEvent candidate event).isSome then
            candidate.projectionEventFrameBytes.dropLast
          else candidate.projectionEventFrameBytes) =
          kept.map (fun frame => (p.frameJson frame).byteLength) ∧
        candidate.projectionEventBytes -
            (if (p.mergedEvent candidate event).isSome then
              (candidate.projectionEventFrameBytes.getLast?).getD 0 else 0) =
          (kept.map fun frame => (p.frameJson frame).byteLength).sum ∧
        kept.Sublist candidate.projectionEvents := by
    rw [h.frameBytes] at hsum
    rw [h.frameBytes]
    cases hmerged : p.mergedEvent candidate event with
    | none =>
      refine ⟨candidate.projectionEvents, by simp, by simp, ?_, List.Sublist.refl _⟩
      simpa using hsum
    | some merged =>
      unfold mergedEvent at hmerged
      split at hmerged
      · rename_i previousFrame hlast
        obtain ⟨rest, hrest⟩ := List.getLast?_eq_some_iff.mp hlast
        rw [hrest] at hsum ⊢
        refine ⟨rest, by simp, by simp, ?_, List.sublist_append_left _ _⟩
        simp only [List.map_append, List.sum_append, List.map_cons, List.map_nil, List.sum_cons,
          List.sum_nil] at hsum
        simp only [Option.isSome_some, if_true, List.map_append, List.map_cons, List.map_nil,
          List.getLast?_append, List.getLast?_singleton, Option.some_or, Option.getD_some]
        omega
      · cases hmerged
  rw [hkept] at hevents
  rw [hkeptBytes] at hframeBytes
  rw [hkeptTotal] at htotal
  have hlow : ∀ frame ∈ kept, p.baseSeq < frame.seq ∧ frame.seq ≤ candidate.asOfSeq :=
    fun frame hmem => h.bounded frame (hsub.subset hmem)
  refine ⟨?_, ?_, ?_, ?_, ?_⟩
  · change reduced.projectionEventFrameBytes = reduced.projectionEvents.map _
    rw [hframeBytes, hevents]
    simp
  · change reduced.projectionEventBytes = reduced.projectionEventFrameBytes.sum
    rw [htotal, hframeBytes]
    simp
  · change reduced.projectionEvents.Pairwise _
    rw [hevents, List.pairwise_append]
    refine ⟨h.increasing.sublist hsub, List.pairwise_singleton _ _, ?_⟩
    intro frame hmem later hlater
    rw [List.mem_singleton.mp hlater]
    have := (hlow frame hmem).2
    change frame.seq < candidate.asOfSeq + 1
    omega
  · intro frame hmem
    change frame ∈ reduced.projectionEvents at hmem
    change p.baseSeq < frame.seq ∧ frame.seq ≤ candidate.asOfSeq + 1
    rw [hevents] at hmem
    rcases List.mem_append.mp hmem with hold | hnew
    · have := hlow frame hold
      omega
    · rw [List.mem_singleton.mp hnew]
      change p.baseSeq < candidate.asOfSeq + 1 ∧ candidate.asOfSeq + 1 ≤ candidate.asOfSeq + 1
      omega
  · change p.baseSeq ≤ candidate.asOfSeq + 1
    omega

theorem Recorded.congr {candidate next : ProjectionCandidate J T} (h : p.Recorded candidate)
    (hevents : next.projectionEvents = candidate.projectionEvents)
    (hframeBytes : next.projectionEventFrameBytes = candidate.projectionEventFrameBytes)
    (htotal : next.projectionEventBytes = candidate.projectionEventBytes)
    (hseq : candidate.asOfSeq ≤ next.asOfSeq) : p.Recorded next := by
  have hbase := h.base
  refine ⟨?_, ?_, ?_, ?_, by omega⟩
  · rw [hframeBytes, hevents, h.frameBytes]
  · rw [htotal, hframeBytes, h.total]
  · rw [hevents]
    exact h.increasing
  · intro frame hmem
    have := h.bounded frame (hevents ▸ hmem)
    omega

theorem Recorded.reduceCandidate
    (h : p.Recorded candidate) {runtimePhase : Option SessionLiveRuntimePhase}
    {input : SessionLiveProjectionInput J T}
    (hstep : p.reduceCandidate runtimePhase candidate input = .ok reduced) :
    p.Recorded reduced ∧
      p.estimatedSnapshotBytes p.baseSeq p.settledMessageBytes reduced ≤
        p.maxSnapshotWireBytes := by
  obtain ⟨branch, hbranch, rfl, hfits⟩ := reduceCandidate_ok hstep
  refine ⟨?_, assertSnapshotFits_ok hfits⟩
  cases input with
  | event event => exact (h.reduceEvent hbranch).congr rfl rfl rfl (Nat.le_refl _)
  | extensionUiRequest request =>
    obtain ⟨pending, rfl⟩ := reduceExtensionRequest_ok hbranch
    exact h.congr rfl rfl rfl (Nat.le_succ _)
  | extensionUiClosed requestId =>
    cases hbranch
    exact h.congr rfl rfl rfl (Nat.le_succ _)

theorem Recorded.foldlM_reduceCandidate {inputs : List (SessionLiveProjectionInput J T)}
    (h : p.Recorded candidate)
    (hfits : p.estimatedSnapshotBytes p.baseSeq p.settledMessageBytes candidate ≤
      p.maxSnapshotWireBytes)
    {runtimePhase : Option SessionLiveRuntimePhase}
    (hfold : inputs.foldlM (p.reduceCandidate runtimePhase) candidate = .ok reduced) :
    p.Recorded reduced ∧
      p.estimatedSnapshotBytes p.baseSeq p.settledMessageBytes reduced ≤
        p.maxSnapshotWireBytes := by
  induction inputs generalizing candidate with
  | nil =>
    cases hfold
    exact ⟨h, hfits⟩
  | cons input rest ih =>
    rw [List.foldlM_cons] at hfold
    cases hstep : p.reduceCandidate runtimePhase candidate input with
    | error error => simp [hstep, bind, Except.bind] at hfold
    | ok next =>
      obtain ⟨hnext, hnextFits⟩ := h.reduceCandidate hstep
      exact ih hnext hnextFits (by simpa [hstep, bind, Except.bind] using hfold)

theorem Recorded.transfer {candidate : ProjectionCandidate J T} (h : p.Recorded candidate)
    {next : SessionLiveProjection J T} (hidentity : next.identity = p.identity)
    (hcodec : next.codec = p.codec) (hbase : next.baseSeq = p.baseSeq) :
    next.Recorded candidate := by
  have hframeJson : next.frameJson = p.frameJson := by
    funext frame
    simp only [frameJson, hidentity, hcodec]
  refine ⟨?_, h.total, h.increasing, ?_, hbase ▸ h.base⟩
  · rw [hframeJson]
    exact h.frameBytes
  · rw [hbase]
    exact h.bounded

theorem Sized.tokens (h : p.Sized) (compactionTokens : InsertionMap ℕ CompactionToken)
    (preparedBatches : InsertionMap ℕ (PreparedBatchState J T))
    (preparedCompactions : InsertionMap ℕ (PreparedCompactionState J T)) (nextToken : ℕ)
    (hbatches : ∀ token prepared, preparedBatches.get? token = some prepared →
      p.preparedBatches.get? token = some prepared ∨
        (prepared.revision = p.revision ∧ p.BatchFits prepared))
    (hcompactions : ∀ token prepared, preparedCompactions.get? token = some prepared →
      p.preparedCompactions.get? token = some prepared ∨
        (prepared.revision = p.revision ∧ p.CompactionFits prepared)) :
    Sized { p with
      compactionTokens := compactionTokens, preparedBatches := preparedBatches
      preparedCompactions := preparedCompactions, nextToken := nextToken } where
  settled := h.settled
  live := h.live.transfer rfl rfl rfl
  fits := h.fits
  pastBatch token prepared hget := by
    rcases hbatches token prepared hget with hold | ⟨hnew, _⟩
    · exact h.pastBatch token prepared hold
    · exact Nat.le_of_eq hnew
  batch token prepared hget hcurrent := by
    rcases hbatches token prepared hget with hold | ⟨_, hnew⟩
    · obtain ⟨hrecorded, hfits⟩ := h.batch token prepared hold hcurrent
      exact ⟨hrecorded.transfer rfl rfl rfl, hfits⟩
    · exact ⟨hnew.1.transfer rfl rfl rfl, hnew.2⟩
  pastCompaction token prepared hget := by
    rcases hcompactions token prepared hget with hold | ⟨hnew, _⟩
    · exact h.pastCompaction token prepared hold
    · exact Nat.le_of_eq hnew
  compaction token prepared hget hcurrent := by
    rcases hcompactions token prepared hget with hold | ⟨_, hnew⟩
    · exact h.compaction token prepared hold hcurrent
    · exact hnew

theorem Sized.revised (h : p.Sized) {next : SessionLiveProjection J T}
    (hsettled : next.settledMessageBytes =
      (Json.arr (next.settledMessages.map next.codec.messageJson)).byteLength)
    (hlive : next.Recorded next.live)
    (hfits : next.estimatedSnapshotBytes next.baseSeq next.settledMessageBytes next.live ≤
      next.maxSnapshotWireBytes)
    (hbatches : ∀ token prepared, next.preparedBatches.get? token = some prepared →
      p.preparedBatches.get? token = some prepared)
    (hcompactions : ∀ token prepared, next.preparedCompactions.get? token = some prepared →
      p.preparedCompactions.get? token = some prepared)
    (hrevision : next.revision = p.revision + 1) : next.Sized where
  settled := hsettled
  live := hlive
  fits := hfits
  pastBatch token prepared hget := by
    have := h.pastBatch token prepared (hbatches token prepared hget)
    omega
  batch token prepared hget hcurrent := by
    have := h.pastBatch token prepared (hbatches token prepared hget)
    omega
  pastCompaction token prepared hget := by
    have := h.pastCompaction token prepared (hcompactions token prepared hget)
    omega
  compaction token prepared hget hcurrent := by
    have := h.pastCompaction token prepared (hcompactions token prepared hget)
    omega

theorem Sized.create {identity : SessionLiveProjectionIdentity}
    {limits : SessionLiveProjectionLimits} {codec : PayloadCodec J T}
    {schema : Option (SessionProjectionProductSchema J T)}
    {settledMessages : List (SessionMessage J T)} {baseSeq : ℕ}
    {runtimePhase : SessionLiveRuntimePhase}
    (h : create identity limits codec schema settledMessages baseSeq runtimePhase = .ok p) :
    p.Sized := by
  simp only [SessionLiveProjection.create, bind, Except.bind, pure, Except.pure, throw, throwThe,
    MonadExceptOf.throw] at h
  repeat' split at h
  all_goals cases h
  all_goals
    rename_i hfits
    refine ⟨rfl, ⟨rfl, rfl, List.Pairwise.nil, ?_, Nat.le_refl _⟩,
      assertSnapshotFits_ok hfits, ?_, ?_,
      ?_, ?_⟩
    · intro frame hmem
      cases hmem
    all_goals simp

end SessionLiveProjection

open SessionLiveProjection

/-- A compaction is prepared only for an idle projection, so that the base it checks is the one
that it would commit. -/
theorem SessionLiveProjection.compactionCandidate_fits {p : SessionLiveProjection J T}
    {token : Option CompactionToken} {settledMessages : List (SessionMessage J T)}
    {prepared : PreparedCompactionState J T}
    (h : p.compactionCandidate token settledMessages = .ok (some prepared)) :
    prepared.revision = p.revision ∧ p.CompactionFits prepared := by
  unfold compactionCandidate at h
  cases token with
  | none => cases h
  | some captured =>
    dsimp only at h
    split at h
    · cases h
    · rename_i hvalid
      simp only [not_or, not_not] at hvalid
      obtain ⟨_, _, _, hidle⟩ := hvalid
      have hphase : p.live.runtimePhase = .idle := by
        unfold snapshotRuntimePhase snapshotPhase at hidle
        split at hidle
        · exact hidle
        · cases hidle
      simp only [bind, Except.bind, pure, Except.pure, throw, throwThe, MonadExceptOf.throw] at h
      split at h
      · cases h
      split at h
      · cases h
      split at h
      · cases h
      rename_i hfits
      cases h
      refine ⟨rfl, rfl, ?_⟩
      have hbound := assertSnapshotFits_ok hfits
      rw [← hphase] at hbound
      exact hbound

theorem LiveProjectionRun.step_sized {run : LiveProjectionRun J T} (h : run.projection.Sized)
    (op : LiveProjectionOp J T) : (run.step op).projection.Sized := by
  have hold : ∀ token prepared, run.projection.preparedBatches.get? token = some prepared →
      run.projection.preparedBatches.get? token = some prepared ∨
        (prepared.revision = run.projection.revision ∧ run.projection.BatchFits prepared) :=
    fun _ _ hget => Or.inl hget
  have holdCompaction : ∀ token prepared,
      run.projection.preparedCompactions.get? token = some prepared →
      run.projection.preparedCompactions.get? token = some prepared ∨
        (prepared.revision = run.projection.revision ∧
          run.projection.CompactionFits prepared) :=
    fun _ _ hget => Or.inl hget
  cases op with
  | prepareBatch identity inputs runtimePhase =>
    simp only [LiveProjectionRun.step]
    split
    · rename_i projection token hok
      obtain ⟨candidate, hfold, rfl, rfl⟩ := prepareBatch_ok hok
      refine h.tokens _ _ _ _ ?_ holdCompaction
      intro token prepared hget
      rw [InsertionMap.get?_insert] at hget
      split at hget
      · cases hget
        exact Or.inr ⟨rfl, h.live.foldlM_reduceCandidate h.fits hfold⟩
      · exact Or.inl hget
    · exact h
  | commitPreparedBatch token =>
    rcases run.projection.commitPreparedBatch_cases token with
      ⟨prepared, hstate, hcurrent, heq⟩ | ⟨batches, hbatches, heq⟩
    · simp only [LiveProjectionRun.step, heq]
      obtain ⟨hrecorded, hfits⟩ := h.batch token prepared hstate hcurrent
      exact h.revised h.settled (hrecorded.transfer rfl rfl rfl) hfits
        (fun _ _ hget => get?_of_get?_erase hget) (fun _ _ hget => hget) rfl
    · simp only [LiveProjectionRun.step, heq]
      exact h.tokens _ _ _ _ (fun _ _ hget => Or.inl (hbatches _ _ hget)) holdCompaction
  | setRuntimePhase identity phase =>
    simp only [LiveProjectionRun.step]
    split
    · rename_i projection hok
      obtain ⟨hfits, rfl⟩ := setRuntimePhase_ok hok
      have hlive : run.projection.Recorded { run.projection.live with runtimePhase := phase } :=
        h.live.congr rfl rfl rfl (Nat.le_refl _)
      exact h.revised h.settled (hlive.transfer rfl rfl rfl) (assertSnapshotFits_ok hfits)
        (fun _ _ hget => hget) (fun _ _ hget => hget) rfl
    · exact h
  | beginIdleBaseCompaction =>
    simp only [LiveProjectionRun.step, beginIdleBaseCompaction]
    split
    · exact h
    · exact h.tokens _ _ _ _ hold holdCompaction
  | prepareIdleBaseCompaction token settledMessages =>
    simp only [LiveProjectionRun.step, prepareIdleBaseCompaction]
    split
    · exact h.tokens _ _ _ _ hold holdCompaction
    · exact h.tokens _ _ _ _ hold holdCompaction
    · rename_i prepared hok
      refine h.tokens _ _ _ _ hold ?_
      intro other compaction hget
      rw [InsertionMap.get?_insert] at hget
      split at hget
      · cases hget
        exact Or.inr (compactionCandidate_fits hok)
      · exact Or.inl hget
  | commitPreparedIdleBaseCompaction token =>
    simp only [LiveProjectionRun.step, commitPreparedIdleBaseCompaction]
    cases hget : run.projection.preparedCompactions.get? token with
    | none => exact h
    | some prepared =>
      dsimp only
      by_cases hcurrent : prepared.revision = run.projection.revision ∧
          prepared.baseSeq = run.projection.live.asOfSeq
      · rw [if_pos hcurrent]
        obtain ⟨hsettled, hfits⟩ := h.compaction token prepared hget hcurrent.1
        refine h.revised hsettled ?_ hfits (fun _ _ hget => hget)
          (fun _ _ hget => get?_of_get?_erase hget) rfl
        refine ⟨rfl, rfl, List.Pairwise.nil, ?_, ?_⟩
        · intro frame hmem
          cases hmem
        · exact Nat.le_of_eq hcurrent.2
      · rw [if_neg hcurrent]
        exact h.tokens _ _ _ _ hold fun _ _ hget => Or.inl (get?_of_get?_erase hget)

theorem SessionLiveProjection.run_sized {p : SessionLiveProjection J T} (h : p.Sized)
    (ops : List (LiveProjectionOp J T)) : (p.run ops).projection.Sized := by
  unfold run
  have hstart : (({ projection := p, batchInputs := .empty, committedEvents := [] } :
      LiveProjectionRun J T)).projection.Sized := h
  generalize ({ projection := p, batchInputs := .empty, committedEvents := [] } :
    LiveProjectionRun J T) = start at hstart ⊢
  induction ops generalizing start with
  | nil => exact hstart
  | cons op rest ih => exact ih _ (LiveProjectionRun.step_sized hstart op)

/-- **The snapshot has the size that was added up for it.** In every run of a live projection the
estimate is the size of the serialized snapshot and within the limit, the recorded sizes are those
of the kept frames, and these are numbered in increasing order after the settled base. -/
theorem snapshot_size_exact {identity : SessionLiveProjectionIdentity}
    {limits : SessionLiveProjectionLimits} {codec : PayloadCodec J T}
    {schema : Option (SessionProjectionProductSchema J T)}
    {settledMessages : List (SessionMessage J T)} {baseSeq : ℕ}
    {runtimePhase : SessionLiveRuntimePhase} {p : SessionLiveProjection J T}
    (hcreate : SessionLiveProjection.create identity limits codec schema settledMessages baseSeq
      runtimePhase = .ok p)
    (ops : List (LiveProjectionOp J T)) :
    let q := (p.run ops).projection
    q.estimatedSnapshotBytes q.baseSeq q.settledMessageBytes q.live =
        q.snapshotJson.byteLength ∧
      q.snapshotJson.byteLength ≤ q.maxSnapshotWireBytes ∧
      q.live.projectionEventFrameBytes =
        q.live.projectionEvents.map (fun frame => (q.frameJson frame).byteLength) ∧
      q.live.projectionEventBytes =
        (q.live.projectionEvents.map fun frame => (q.frameJson frame).byteLength).sum ∧
      (q.live.projectionEvents.map (·.seq)).Pairwise (· < ·) ∧
      ∀ frame ∈ q.live.projectionEvents, q.baseSeq < frame.seq ∧ frame.seq ≤ q.live.asOfSeq := by
  intro q
  have hsized : q.Sized := run_sized (Sized.create hcreate) ops
  have hexact := estimatedSnapshotBytes_eq hsized
  refine ⟨hexact, ?_, hsized.live.frameBytes, ?_, ?_, hsized.live.bounded⟩
  · rw [← hexact]
    exact hsized.fits
  · rw [← hsized.live.frameBytes]
    exact hsized.live.total
  · rw [List.pairwise_map]
    exact hsized.live.increasing

/-- The sizes are exact after two deltas were committed as one merged frame. -/
theorem snapshot_size_exact_two_deltas :
    ∃ p, sampleProjection = .ok p ∧
      let q := (p.run sampleOps).projection
      q.live.projectionEvents.length = 1 ∧
        q.estimatedSnapshotBytes q.baseSeq q.settledMessageBytes q.live =
          q.snapshotJson.byteLength ∧
        q.snapshotJson.byteLength ≤ q.maxSnapshotWireBytes := by
  have hlength : (sampleProjection.toOption.map fun p =>
      (p.run sampleOps).projection.live.projectionEvents.length) = some 1 := by
    decide +kernel
  cases hcreate : sampleProjection with
  | error error => simp [hcreate, Except.toOption] at hlength
  | ok p =>
    have hsize := snapshot_size_exact hcreate sampleOps
    exact ⟨p, rfl, Option.some.inj (by simpa [hcreate, Except.toOption] using hlength), hsize.1,
      hsize.2.1⟩

end PiAgentWeb
