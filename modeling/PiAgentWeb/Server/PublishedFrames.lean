import PiAgentWeb.Server.LiveProjectionCommits

/-!
# What publishing frames accumulates

A published frame is accepted by the live projection, enters the replay ring, and counts for the
active turn. Each of these is a fold: it does not depend on whether the frames came one at a time
or as a batch. The phase is one as well, as long as no dialog is open.
-/

namespace PiAgentWeb

variable {J T : Type}

/-! ## The replay ring -/

namespace ReplayRing

theorem eq_of_frames {ring ring' : ReplayRing J T} (hreplay : ring.replay = ring'.replay)
    (hbytes : ring.replayFrameBytes = ring'.replayFrameBytes) : ring = ring' := by
  obtain ⟨replay, replayFrameBytes, replayBytes, lengths, total⟩ := ring
  obtain ⟨replay', replayFrameBytes', replayBytes', lengths', total'⟩ := ring'
  obtain rfl : replay = replay' := hreplay
  obtain rfl : replayFrameBytes = replayFrameBytes' := hbytes
  obtain rfl : replayBytes = replayBytes' := total.trans total'.symm
  rfl

theorem removeCount_append (replayLimit replayMaxBytes : ℕ) (sizes : List ℕ) (size : ℕ) :
    removeCount replayLimit replayMaxBytes (sizes ++ [size]) (sizes ++ [size]).sum =
      removeCount replayLimit replayMaxBytes sizes sizes.sum +
        removeCount replayLimit replayMaxBytes
          (sizes.drop (removeCount replayLimit replayMaxBytes sizes sizes.sum) ++ [size])
          (sizes.drop (removeCount replayLimit replayMaxBytes sizes sizes.sum) ++ [size]).sum := by
  induction sizes with
  | nil => simp [removeCount]
  | cons first rest ih =>
    by_cases hover : rest.length + 1 > replayLimit ∨ (first :: rest).sum > replayMaxBytes
    · have hover' : (rest ++ [size]).length + 1 > replayLimit ∨
          (first :: (rest ++ [size])).sum > replayMaxBytes := by
        simp only [List.sum_cons, List.length_append, List.sum_append] at hover ⊢
        omega
      have hrest : (first :: rest).sum - first = rest.sum := by simp
      have hrest' : (first :: (rest ++ [size])).sum - first = (rest ++ [size]).sum := by simp
      rw [List.cons_append, removeCount, if_pos hover', hrest', ih, removeCount, if_pos hover,
        hrest, List.drop_succ_cons]
      omega
    · have hzero : removeCount replayLimit replayMaxBytes (first :: rest) (first :: rest).sum =
          0 := by
        rw [removeCount, if_neg hover]
      rw [hzero, List.drop_zero, Nat.zero_add]

theorem removeCount_le (replayLimit replayMaxBytes : ℕ) (sizes : List ℕ) (bytes : ℕ) :
    removeCount replayLimit replayMaxBytes sizes bytes ≤ sizes.length := by
  induction sizes generalizing bytes with
  | nil => exact Nat.le_refl _
  | cons first rest ih =>
    rw [removeCount]
    split
    · exact Nat.succ_le_succ (ih _)
    · exact Nat.zero_le _

theorem trim_frames (ring : ReplayRing J T) (replayLimit replayMaxBytes : ℕ) :
    (ring.trim replayLimit replayMaxBytes).replay = ring.replay.drop
        (removeCount replayLimit replayMaxBytes ring.replayFrameBytes
          ring.replayFrameBytes.sum) ∧
      (ring.trim replayLimit replayMaxBytes).replayFrameBytes = ring.replayFrameBytes.drop
        (removeCount replayLimit replayMaxBytes ring.replayFrameBytes
          ring.replayFrameBytes.sum) := by
  simp only [trim, ring.total, and_self]

theorem trim_push_trim (ring : ReplayRing J T) (replayLimit replayMaxBytes : ℕ)
    (envelope : SessionReplayFrame J T) (bytes : ℕ) :
    ((ring.trim replayLimit replayMaxBytes).push envelope bytes).trim replayLimit replayMaxBytes =
      (ring.push envelope bytes).trim replayLimit replayMaxBytes := by
  have hring := trim_frames ring replayLimit replayMaxBytes
  have happend := removeCount_append replayLimit replayMaxBytes ring.replayFrameBytes bytes
  have hle := removeCount_le replayLimit replayMaxBytes ring.replayFrameBytes
    ring.replayFrameBytes.sum
  have hle' : removeCount replayLimit replayMaxBytes ring.replayFrameBytes
      ring.replayFrameBytes.sum ≤ ring.replay.length := ring.lengths ▸ hle
  have hpush : ((ring.trim replayLimit replayMaxBytes).push envelope bytes).replay =
      ring.replay.drop (removeCount replayLimit replayMaxBytes ring.replayFrameBytes
        ring.replayFrameBytes.sum) ++ [envelope] := congrArg (· ++ [envelope]) hring.1
  have hpushBytes : ((ring.trim replayLimit replayMaxBytes).push envelope bytes).replayFrameBytes =
      ring.replayFrameBytes.drop (removeCount replayLimit replayMaxBytes ring.replayFrameBytes
        ring.replayFrameBytes.sum) ++ [bytes] := congrArg (· ++ [bytes]) hring.2
  have hfirst := trim_frames ((ring.trim replayLimit replayMaxBytes).push envelope bytes)
    replayLimit replayMaxBytes
  have hsecond := trim_frames (ring.push envelope bytes) replayLimit replayMaxBytes
  rw [hpush, hpushBytes] at hfirst
  rw [show (ring.push envelope bytes).replay = ring.replay ++ [envelope] from rfl,
    show (ring.push envelope bytes).replayFrameBytes = ring.replayFrameBytes ++ [bytes] from rfl,
    happend, ← List.drop_drop, ← List.drop_drop, List.drop_append_of_le_length hle,
    List.drop_append_of_le_length hle'] at hsecond
  exact eq_of_frames (hfirst.1.trans hsecond.1.symm) (hfirst.2.trans hsecond.2.symm)

theorem trim_trim (ring : ReplayRing J T) (replayLimit replayMaxBytes : ℕ) :
    (ring.trim replayLimit replayMaxBytes).trim replayLimit replayMaxBytes =
      ring.trim replayLimit replayMaxBytes := by
  have hspec := removeCount_spec replayLimit replayMaxBytes ring.replayFrameBytes
  have hring := trim_frames ring replayLimit replayMaxBytes
  have hagain := trim_frames (ring.trim replayLimit replayMaxBytes) replayLimit replayMaxBytes
  rw [← hring.2] at hspec
  have hzero : removeCount replayLimit replayMaxBytes
      (ring.trim replayLimit replayMaxBytes).replayFrameBytes
      (ring.trim replayLimit replayMaxBytes).replayFrameBytes.sum = 0 := by
    generalize (ring.trim replayLimit replayMaxBytes).replayFrameBytes = sizes at hspec ⊢
    cases sizes with
    | nil => rfl
    | cons first rest =>
      rw [removeCount, if_neg]
      rw [List.length_cons] at hspec
      omega
  rw [hzero, List.drop_zero, List.drop_zero] at hagain
  exact eq_of_frames hagain.1 hagain.2

end ReplayRing

namespace SessionRuntimeCore

variable (opts : SessionRuntimeOptions J T)

/-- A frame enters the ring, or moves the watermark of the transient ones. -/
def enter (kept : ReplayRing J T × ℕ) (envelope : SessionReplayFrame J T) : ReplayRing J T × ℕ :=
  if isReplayableFrame envelope.frame then
    (kept.1.push envelope (envelopeBytes opts.codec envelope), kept.2)
  else (kept.1, envelope.seq)

theorem keep_eq (envelopes : List (SessionReplayFrame J T)) (ring : ReplayRing J T)
    (lastTransientSeq : ℕ) :
    keep opts envelopes ring lastTransientSeq =
      ((envelopes.foldl (enter opts) (ring, lastTransientSeq)).1.trim opts.replayLimit
          opts.replayMaxBytes,
        (envelopes.foldl (enter opts) (ring, lastTransientSeq)).2) := rfl

theorem keep_trim (envelopes : List (SessionReplayFrame J T)) (ring : ReplayRing J T)
    (lastTransientSeq : ℕ) :
    keep opts envelopes (ring.trim opts.replayLimit opts.replayMaxBytes) lastTransientSeq =
      keep opts envelopes ring lastTransientSeq := by
  induction envelopes generalizing ring lastTransientSeq with
  | nil =>
    rw [keep_eq, keep_eq]
    simp only [List.foldl_nil, ReplayRing.trim_trim]
  | cons envelope rest ih =>
    rw [keep_eq, keep_eq] at *
    simp only [List.foldl_cons, enter]
    split
    · have hfirst := ih (((ring.trim opts.replayLimit opts.replayMaxBytes).push envelope
        (envelopeBytes opts.codec envelope))) lastTransientSeq
      have hsecond := ih (ring.push envelope (envelopeBytes opts.codec envelope)) lastTransientSeq
      simp only [keep_eq] at hfirst hsecond
      rw [ReplayRing.trim_push_trim] at hfirst
      exact hfirst.symm.trans hsecond
    · have hrest := ih ring envelope.seq
      simpa only [keep_eq] using hrest

theorem keep_append (first second : List (SessionReplayFrame J T)) (ring : ReplayRing J T)
    (lastTransientSeq : ℕ) :
    keep opts (first ++ second) ring lastTransientSeq =
      keep opts second (keep opts first ring lastTransientSeq).1
        (keep opts first ring lastTransientSeq).2 := by
  rw [keep_eq opts first, keep_trim, keep_eq, keep_eq, List.foldl_append]

end SessionRuntimeCore

/-! ## The live projection -/

/-- A candidate without the phase that was recorded last. -/
def ProjectionCandidate.withoutPhase (candidate : ProjectionCandidate J T) :
    ProjectionCandidate J T := { candidate with runtimePhase := .idle }

namespace SessionLiveProjection

variable {p q : SessionLiveProjection J T}

/-- All of a projection but its tokens, its revision and the recorded phase. -/
def content (p : SessionLiveProjection J T) : SessionLiveProjection J T :=
  { p.withoutTokens with revision := 0, live := p.live.withoutPhase }

/-- What an accepted input makes of a candidate. -/
def accepted (p : SessionLiveProjection J T) (candidate : ProjectionCandidate J T) :
    SessionLiveProjectionInput J T → ProjectionCandidate J T
  | .event event =>
    let merged := p.mergedEvent candidate event
    let nextFrame : SessionLiveProjectionEventFrame J T :=
      { seq := candidate.asOfSeq + 1, event := merged.getD event }
    let frameBytes := (p.frameJson nextFrame).byteLength
    { candidate with
      asOfSeq := candidate.asOfSeq + 1
      projectionEvents :=
        (if merged.isSome then candidate.projectionEvents.dropLast
          else candidate.projectionEvents) ++ [nextFrame]
      projectionEventFrameBytes :=
        (if merged.isSome then candidate.projectionEventFrameBytes.dropLast
          else candidate.projectionEventFrameBytes) ++ [frameBytes]
      projectionEventBytes :=
        candidate.projectionEventBytes -
            (if merged.isSome then (candidate.projectionEventFrameBytes.getLast?).getD 0 else 0) +
          frameBytes
      queue := (queueUpdate event).getD candidate.queue }
  | .extensionUiRequest request =>
    { candidate with
      asOfSeq := candidate.asOfSeq + 1
      pendingExtensionRequests :=
        if request.body.blocking then
          (candidate.pendingExtensionRequests.filter fun entry => entry.1 != request.id) ++
            [(request.id, request)]
        else candidate.pendingExtensionRequests }
  | .extensionUiClosed requestId =>
    { candidate.closeExtension requestId with asOfSeq := candidate.asOfSeq + 1 }

variable {runtimePhase : SessionLiveRuntimePhase} {candidate reduced : ProjectionCandidate J T}

theorem reduceCandidate_accepted {input : SessionLiveProjectionInput J T}
    (h : p.reduceCandidate (some runtimePhase) candidate input = .ok reduced) :
    reduced = { p.accepted candidate input with runtimePhase := runtimePhase } := by
  obtain ⟨branch, hbranch, rfl, -⟩ := reduceCandidate_ok h
  cases input with
  | event event =>
    simp only [reduceInput, reduceEvent, bind, Except.bind, pure, Except.pure, throw, throwThe,
      MonadExceptOf.throw] at hbranch
    repeat' split at hbranch
    all_goals cases hbranch <;> simp [accepted, *]
  | extensionUiRequest request =>
    simp only [reduceInput, reduceExtensionRequest, bind, Except.bind, pure, Except.pure, throw,
      throwThe, MonadExceptOf.throw] at hbranch
    repeat' split at hbranch
    all_goals cases hbranch <;> simp [accepted, *]
  | extensionUiClosed requestId =>
    cases hbranch
    rfl

theorem accepted_withoutPhase (candidate : ProjectionCandidate J T)
    (input : SessionLiveProjectionInput J T) :
    (p.accepted candidate input).withoutPhase = p.accepted candidate.withoutPhase input := by
  cases input <;> rfl

theorem foldl_accepted_withoutPhase (inputs : List (SessionLiveProjectionInput J T))
    (candidate : ProjectionCandidate J T) :
    (inputs.foldl p.accepted candidate).withoutPhase =
      inputs.foldl p.accepted candidate.withoutPhase := by
  induction inputs generalizing candidate with
  | nil => rfl
  | cons input rest ih => rw [List.foldl_cons, ih, accepted_withoutPhase, List.foldl_cons]

theorem accepted_congr (h : q.content = p.content) : q.accepted = p.accepted := by
  have hidentity : q.identity = p.identity := congrArg (·.identity) h
  have hcodec : q.codec = p.codec := congrArg (·.codec) h
  have hmerged : q.mergedEvent = p.mergedEvent := by
    funext candidate event
    rw [mergedEvent, mergedEvent, hcodec]
  have hframe : q.frameJson = p.frameJson := by
    funext frame
    rw [frameJson, frameJson, hidentity, hcodec]
  funext candidate input
  cases input with
  | event event =>
    dsimp only [accepted]
    rw [hmerged, hframe]
  | extensionUiRequest request => rfl
  | extensionUiClosed requestId => rfl

theorem foldl_accepted_asOfSeq (inputs : List (SessionLiveProjectionInput J T))
    (candidate : ProjectionCandidate J T) :
    (inputs.foldl p.accepted candidate).asOfSeq = candidate.asOfSeq + inputs.length := by
  induction inputs generalizing candidate with
  | nil => rfl
  | cons input rest ih =>
    have hnext : (p.accepted candidate input).asOfSeq = candidate.asOfSeq + 1 := by
      cases input <;> rfl
    rw [List.foldl_cons, ih, hnext, List.length_cons]
    omega

variable {inputs : List (SessionLiveProjectionInput J T)}

theorem foldlM_reduceCandidate_accepted
    (h : inputs.foldlM (p.reduceCandidate (some runtimePhase)) candidate = .ok reduced) :
    reduced.withoutPhase = (inputs.foldl p.accepted candidate).withoutPhase := by
  induction inputs generalizing candidate with
  | nil =>
    cases h
    rfl
  | cons input rest ih =>
    rw [List.foldlM_cons] at h
    cases hfirst : p.reduceCandidate (some runtimePhase) candidate input with
    | error error =>
      rw [hfirst] at h
      cases h
    | ok next =>
      rw [hfirst] at h
      rw [ih h, foldl_accepted_withoutPhase, reduceCandidate_accepted hfirst, List.foldl_cons,
        foldl_accepted_withoutPhase]
      rfl

/-- The content of a projection that accepted the inputs. -/
def publishing (p : SessionLiveProjection J T) (inputs : List (SessionLiveProjectionInput J T)) :
    SessionLiveProjection J T :=
  { p.content with live := (inputs.foldl p.accepted p.live).withoutPhase }

theorem publishing_append {first : List (SessionLiveProjectionInput J T)}
    (h : q.content = p.publishing first) (second : List (SessionLiveProjectionInput J T)) :
    q.publishing second = p.publishing (first ++ second) := by
  have hbase : { q.content with live := p.live.withoutPhase } = p.content := by
    rw [h]
    rfl
  have haccepted : q.accepted = p.accepted := by
    have hsame := accepted_congr (p := p) (q := { q with live := p.live }) hbase
    funext candidate input
    have hinput := congrFun (congrFun hsame candidate) input
    cases input <;> exact hinput
  have hlive : q.live.withoutPhase = (first.foldl p.accepted p.live).withoutPhase :=
    congrArg (·.live) h
  rw [publishing, publishing, List.foldl_append, foldl_accepted_withoutPhase,
    foldl_accepted_withoutPhase (p := p), haccepted, hlive, h]
  rfl

theorem asOfSeq_of_publishing (h : q.content = p.publishing inputs) :
    q.live.asOfSeq = p.live.asOfSeq + inputs.length := by
  have hlive : q.live.withoutPhase = (inputs.foldl p.accepted p.live).withoutPhase :=
    congrArg (·.live) h
  have hseq : q.live.asOfSeq = (inputs.foldl p.accepted p.live).asOfSeq :=
    congrArg (·.asOfSeq) hlive
  rw [hseq, foldl_accepted_asOfSeq]

variable {identity : SessionLiveProjectionIdentity}

theorem prepareBatch_identity {runtimePhase : Option SessionLiveRuntimePhase} {token : ℕ}
    (h : p.prepareBatch identity inputs runtimePhase = .ok (q, token)) :
    p.identity = identity := by
  simp only [prepareBatch, bind, Except.bind, throw, throwThe, MonadExceptOf.throw] at h
  split at h
  · cases h
  · rename_i hidentity
    exact (not_not.mp hidentity).symm

theorem commitPreparedBatch_publishing {prepared next : SessionLiveProjection J T} {token seq : ℕ}
    (hprepare : p.prepareBatch identity inputs (some runtimePhase) = .ok (prepared, token))
    (hcommit : prepared.commitPreparedBatch token = (next, some seq)) :
    next.content = p.publishing inputs ∧ seq = next.live.asOfSeq := by
  obtain ⟨candidate, hfold, rfl, rfl⟩ := prepareBatch_ok hprepare
  rw [commitPreparedBatch, InsertionMap.get?_insert_self] at hcommit
  dsimp only at hcommit
  split at hcommit
  · cases hcommit
    refine ⟨?_, rfl⟩
    rw [publishing, ← foldlM_reduceCandidate_accepted hfold]
    rfl
  · cases hcommit

theorem foldlM_reduceCandidate_phase
    (h : inputs.foldlM (p.reduceCandidate (some runtimePhase)) candidate = .ok reduced)
    (hphase : inputs = [] → candidate.runtimePhase = runtimePhase) :
    reduced.runtimePhase = runtimePhase := by
  induction inputs generalizing candidate with
  | nil =>
    cases h
    exact hphase rfl
  | cons input rest ih =>
    rw [List.foldlM_cons] at h
    cases hfirst : p.reduceCandidate (some runtimePhase) candidate input with
    | error error =>
      rw [hfirst] at h
      cases h
    | ok next =>
      rw [hfirst] at h
      refine ih h fun _ => ?_
      rw [reduceCandidate_accepted hfirst]

theorem prepareBatch_inputs {runtimePhase : Option SessionLiveRuntimePhase} {token : ℕ}
    (h : p.prepareBatch identity inputs runtimePhase = .ok (q, token)) : inputs ≠ [] := by
  rintro rfl
  simp only [prepareBatch, List.isEmpty_nil, bind, Except.bind, throw, throwThe,
    MonadExceptOf.throw] at h
  split at h <;> cases h

theorem commitPreparedBatch_phase {prepared next : SessionLiveProjection J T} {token seq : ℕ}
    (hprepare : p.prepareBatch identity inputs (some runtimePhase) = .ok (prepared, token))
    (hcommit : prepared.commitPreparedBatch token = (next, some seq)) :
    next.live.runtimePhase = runtimePhase := by
  have hinputs := prepareBatch_inputs hprepare
  obtain ⟨candidate, hfold, rfl, rfl⟩ := prepareBatch_ok hprepare
  rw [commitPreparedBatch, InsertionMap.get?_insert_self] at hcommit
  dsimp only at hcommit
  split at hcommit
  · cases hcommit
    exact foldlM_reduceCandidate_phase hfold fun hnil => absurd hnil hinputs
  · cases hcommit

theorem content_setRuntimePhase
    {phase : SessionLiveRuntimePhase} (h : p.setRuntimePhase identity phase = .ok q) :
    q.content = p.content := by
  obtain ⟨-, rfl⟩ := setRuntimePhase_ok h
  rfl

end SessionLiveProjection

/-! ## Published frames -/

namespace SessionRuntimeCore

variable (opts : SessionRuntimeOptions J T) {r r' r'' : SessionRuntimeCore J T}

/-- The ring and the watermark after the frames, if there are any. -/
def keepAll (envelopes : List (SessionReplayFrame J T)) (ring : ReplayRing J T)
    (lastTransientSeq : ℕ) : ReplayRing J T × ℕ :=
  if envelopes.isEmpty then (ring, lastTransientSeq) else keep opts envelopes ring lastTransientSeq

theorem keepAll_append (first second : List (SessionReplayFrame J T)) (ring : ReplayRing J T)
    (lastTransientSeq : ℕ) :
    keepAll opts (first ++ second) ring lastTransientSeq =
      keepAll opts second (keepAll opts first ring lastTransientSeq).1
        (keepAll opts first ring lastTransientSeq).2 := by
  cases first with
  | nil => rfl
  | cons envelope rest =>
    cases second with
    | nil => rw [List.append_nil]; rfl
    | cons envelope' rest' => exact keep_append opts _ _ ring lastTransientSeq

theorem envelopesFrom_append (identity : SessionLiveProjectionIdentity) (firstSeq : ℕ)
    (first second : List (BufferedFrame J T)) :
    envelopesFrom identity firstSeq (first ++ second) =
      envelopesFrom identity firstSeq first ++
        envelopesFrom identity (firstSeq + first.length) second := by
  rw [envelopesFrom, envelopesFrom, envelopesFrom, List.zipIdx_append, List.map_append,
    List.append_cancel_left_eq, List.zipIdx_eq_map_add, List.map_map]
  refine List.map_congr_left ?_
  rintro ⟨frame, index⟩ -
  simp only [Function.comp_apply, SessionReplayFrame.mk.injEq, true_and]
  omega

/-- What a change of the phase or of the counters leaves alone. -/
structure Rests (r r' : SessionRuntimeCore J T) : Prop where
  identity : r'.identity = r.identity
  startupReady : r'.startupReady = r.startupReady
  replay : r'.replay = r.replay
  lastTransientSeq : r'.lastTransientSeq = r.lastTransientSeq
  lastSeq : r'.lastSeq = r.lastSeq
  published : r'.published = r.published
  extension : r'.extension = r.extension
  nextObject : r'.nextObject = r.nextObject
  projection : r'.liveProjection.map (·.content) = r.liveProjection.map (·.content)

theorem setState_rests {state : SessionLiveRuntimePhase} (h : r.setState state = (r', .ok ())) :
    r.Rests r' ∧ r'.operational = r.operational ∧ r'.turnBudget = r.turnBudget := by
  unfold setState at h
  split at h
  · cases h
    exact ⟨⟨rfl, rfl, rfl, rfl, rfl, rfl, rfl, rfl, rfl⟩, rfl, rfl⟩
  · split at h
    · cases h
      exact ⟨⟨rfl, rfl, rfl, rfl, rfl, rfl, rfl, rfl, rfl⟩, rfl, rfl⟩
    · rename_i projection hlive
      split at h
      · rename_i next hphase
        cases h
        refine ⟨⟨rfl, rfl, rfl, rfl, rfl, rfl, rfl, rfl, ?_⟩, rfl, rfl⟩
        rw [hlive, Option.map_some, Option.map_some,
          SessionLiveProjection.content_setRuntimePhase hphase]
      · cases h

theorem refreshOperationalState_rests (h : r.refreshOperationalState = (r', .ok ())) :
    r.Rests r' ∧ r'.operational = r.operational ∧ r'.turnBudget = r.turnBudget := by
  unfold refreshOperationalState at h
  split at h
  · exact setState_rests h
  · cases h
    exact ⟨⟨rfl, rfl, rfl, rfl, rfl, rfl, rfl, rfl, rfl⟩, rfl, rfl⟩

theorem Rests.of_counters {operational : OperationalState} {turnBudget : TurnBudget}
    (h : Rests { r with operational := operational, turnBudget := turnBudget } r') : r.Rests r' :=
  ⟨h.identity, h.startupReady, h.replay, h.lastTransientSeq, h.lastSeq, h.published, h.extension,
    h.nextObject, h.projection⟩

/-- The event is a compaction whose work goes on. -/
def retriesWork : SessionEvent J T → Bool
  | .compactionEnd _ _ willRetry .. => willRetry
  | _ => false

variable {event : SessionEvent J T}

theorem applyEventState_of_starts (hstarts : eventStartsWork event = true) :
    r.applyEventState event =
      { r with
        operational :=
          { (if r.operational.agentBusy then r.operational
            else
              { r.operational with
                pendingTurnReservations := r.operational.pendingTurnReservations.tail
                activeTurnHeadroomReserved := true }) with agentBusy := true } }.setState
        .running := by
  cases event <;> first | rfl | cases hstarts

theorem applyEventState_rests (h : r.applyEventState event = (r', .ok ())) :
    r.Rests r' ∧
      r'.operational.agentBusy =
        (if eventSettlesWork event then false
          else r.operational.agentBusy || eventStartsWork event || retriesWork event) ∧
      r'.turnBudget = if eventSettlesWork event then .zero else r.turnBudget := by
  by_cases hstarts : eventStartsWork event = true
  · have hsettles : eventSettlesWork event = false := by
      cases event <;> first | rfl | cases hstarts
    rw [applyEventState_of_starts hstarts] at h
    obtain ⟨hrests, hoperational, hturn⟩ := setState_rests h
    refine ⟨.of_counters hrests, ?_, ?_⟩
    · simp [hoperational, hsettles, hstarts]
    · simpa [hsettles] using hturn
  · rw [Bool.not_eq_true] at hstarts
    cases event with
    | queueUpdate steering followUp =>
      simp only [applyEventState, applyQueueUpdate] at h
      split at h
      · obtain ⟨hrests, hoperational, hturn⟩ := refreshOperationalState_rests h
        refine ⟨.of_counters hrests, ?_, hturn⟩
        rw [hoperational]
        exact (Bool.or_false _).symm.trans (congrArg (· || false) (Bool.or_false _).symm)
      · cases h
        refine ⟨⟨rfl, rfl, rfl, rfl, rfl, rfl, rfl, rfl, rfl⟩, ?_, rfl⟩
        exact (Bool.or_false _).symm.trans (congrArg (· || false) (Bool.or_false _).symm)
    | compactionStart reason =>
      obtain ⟨hrests, hoperational, hturn⟩ := setState_rests h
      refine ⟨.of_counters hrests, ?_, hturn⟩
      rw [hoperational]
      exact (Bool.or_false _).symm.trans (congrArg (· || false) (Bool.or_false _).symm)
    | compactionEnd hasResult aborted willRetry errorMessage =>
      obtain ⟨hrests, hoperational, hturn⟩ := refreshOperationalState_rests h
      refine ⟨.of_counters hrests, ?_, hturn⟩
      rw [hoperational]
      exact congrArg (· || willRetry) (Bool.or_false _).symm
    | agentSettled =>
      obtain ⟨hrests, hoperational, hturn⟩ := refreshOperationalState_rests h
      refine ⟨.of_counters hrests, ?_, hturn⟩
      rw [hoperational]
      dsimp only
      split <;> rfl
    | _ =>
      first
        | cases hstarts; done
        | cases h
          exact ⟨⟨rfl, rfl, rfl, rfl, rfl, rfl, rfl, rfl, rfl⟩,
            (Bool.or_false _).symm.trans (congrArg (· || false) (Bool.or_false _).symm), rfl⟩

/-! ## The phase -/

/-- The part of a runtime that decides its phase when no dialog is open. -/
def workOf (r : SessionRuntimeCore J T) : SessionRuntimeCore J T :=
  { initial r.identity with
    proc := r.proc
    leaderRunning := r.leaderRunning
    stopPromise := r.stopPromise
    startupReady := r.startupReady
    state := r.state
    operational := r.operational }

/-- What a published frame does to the work. -/
def workAfter (work : SessionRuntimeCore J T) : BufferedFrame J T → SessionRuntimeCore J T
  | .event event => (work.applyEventState event).1
  | _ => work

/-- The projection has recorded the phase of the runtime. -/
def PhaseRecorded (r : SessionRuntimeCore J T) : Prop :=
  ∀ p, r.liveProjection = some p → p.live.runtimePhase = r.state

theorem setState_work {state : SessionLiveRuntimePhase} (h : r.setState state = (r', .ok ())) :
    r'.workOf = (r.workOf.setState state).1 ∧ (r.PhaseRecorded → r'.PhaseRecorded) := by
  have hwork : (r.workOf.setState state).1 = { r.workOf with state := state } := by
    unfold setState
    split
    · rename_i hsame
      rw [← hsame.1]
    · rfl
  rw [hwork]
  unfold setState at h
  split at h
  · rename_i hsame
    cases h
    refine ⟨?_, id⟩
    rw [← hsame.1]
    rfl
  · split at h
    · rename_i hlive
      cases h
      refine ⟨rfl, fun _ p hp => ?_⟩
      rw [hlive] at hp
      cases hp
    · rename_i projection hlive
      split at h
      · rename_i next hphase
        cases h
        refine ⟨rfl, ?_⟩
        rintro - p ⟨⟩
        obtain ⟨-, rfl⟩ := SessionLiveProjection.setRuntimePhase_ok hphase
        rfl
      · cases h

theorem refreshOperationalState_work (hdialogs : r.extension.pendingDialogs.entries = [])
    (h : r.refreshOperationalState = (r', .ok ())) :
    r'.workOf = (r.workOf.refreshOperationalState).1 ∧ (r.PhaseRecorded → r'.PhaseRecorded) := by
  have hbusy : r.busyState = r.workOf.busyState := by
    simp only [busyState, hdialogs]
    rfl
  unfold refreshOperationalState at h
  have hactive : (r.workOf.startupReady && r.workOf.running) = (r.startupReady && r.running) := rfl
  rw [refreshOperationalState, hactive]
  split at h
  · rename_i hcondition
    rw [if_pos hcondition, ← hbusy]
    exact setState_work h
  · rename_i hcondition
    rw [if_neg hcondition]
    cases h
    exact ⟨rfl, id⟩

theorem applyEventState_work (hdialogs : r.extension.pendingDialogs.entries = [])
    (h : r.applyEventState event = (r', .ok ())) :
    r'.workOf = workAfter r.workOf (.event event) ∧ (r.PhaseRecorded → r'.PhaseRecorded) := by
  unfold workAfter
  dsimp only
  by_cases hstarts : eventStartsWork event = true
  · rw [applyEventState_of_starts hstarts] at h ⊢
    obtain ⟨hwork, hphase⟩ := setState_work h
    exact ⟨hwork, hphase⟩
  · rw [Bool.not_eq_true] at hstarts
    cases event with
    | queueUpdate steering followUp =>
      have hqueue : r.workOf.operational = r.operational := rfl
      simp only [applyEventState, applyQueueUpdate, hqueue] at h ⊢
      split at h
      · rename_i hcondition
        rw [if_pos hcondition]
        obtain ⟨hwork, hphase⟩ := refreshOperationalState_work (by exact hdialogs) h
        exact ⟨hwork, hphase⟩
      · rename_i hcondition
        rw [if_neg hcondition]
        cases h
        exact ⟨rfl, id⟩
    | compactionStart reason =>
      obtain ⟨hwork, hphase⟩ := setState_work h
      exact ⟨hwork, hphase⟩
    | compactionEnd hasResult aborted willRetry errorMessage =>
      obtain ⟨hwork, hphase⟩ := refreshOperationalState_work (by exact hdialogs) h
      exact ⟨hwork, hphase⟩
    | agentSettled =>
      obtain ⟨hwork, hphase⟩ := refreshOperationalState_work (by exact hdialogs) h
      exact ⟨hwork, hphase⟩
    | _ =>
      first
        | cases hstarts; done
        | cases h
          exact ⟨rfl, id⟩

/-! ## The turn -/

variable {opts} {p q s : SessionLiveProjection J T}

/-- The counters of the active turn that do not depend on sequence numbers. -/
def turnCounters (r : SessionRuntimeCore J T) : Bool × ℕ × ℕ :=
  (r.operational.agentBusy, r.turnBudget.items, r.turnBudget.logicalBytes)

/-- What a published frame does to the counters. -/
def countFrame (opts : SessionRuntimeOptions J T) (counters : Bool × ℕ × ℕ) :
    BufferedFrame J T → Bool × ℕ × ℕ
  | .event event =>
    let reset := !counters.1 && eventStartsWork event
    if eventSettlesWork event then (false, 0, 0)
    else
      (counters.1 || eventStartsWork event || retriesWork event,
        (if reset then 0 else counters.2.1) + 1,
        (if reset then 0 else counters.2.2) +
          (opts.schema.activeTurnEventLogicalBytes event).getD 0)
  | _ => counters

variable {frames : List (BufferedFrame J T)}

/-- Frames without an event leave a count of events alone. -/
theorem foldl_of_no_events {β : Type*} {f : β → BufferedFrame J T → β}
    (hrequest : ∀ b request object, f b (.extensionUiRequest request object) = b)
    (hclosed : ∀ b requestId reason, f b (.extensionUiClosed requestId reason) = b)
    (h : frameEvents frames = []) (b : β) : frames.foldl f b = b := by
  induction frames with
  | nil => rfl
  | cons frame rest ih =>
    have hsplit := frameEvents_append [frame] rest
    rw [List.singleton_append, h] at hsplit
    obtain ⟨hframe, hrest⟩ := List.append_eq_nil_iff.mp hsplit.symm
    rw [List.foldl_cons]
    cases frame with
    | event event => cases hframe
    | extensionUiRequest request object => rw [hrequest, ih hrest]
    | extensionUiClosed requestId reason => rw [hclosed, ih hrest]

theorem turnLogicalBytes_ok {logicalBytes : ℕ}
    (h : turnLogicalBytes opts r event = .ok logicalBytes) :
    logicalBytes =
      (if !r.operational.agentBusy && eventStartsWork event then 0
        else r.turnBudget.logicalBytes) +
        (opts.schema.activeTurnEventLogicalBytes event).getD 0 := by
  unfold turnLogicalBytes at h
  dsimp only at h
  generalize (if (!r.operational.agentBusy && eventStartsWork event) = true then 0
    else r.turnBudget.logicalBytes) = logicalBase at h ⊢
  cases hcontribution : opts.schema.activeTurnEventLogicalBytes event with
  | none =>
    rw [hcontribution] at h
    cases h
  | some contribution =>
    rw [hcontribution] at h
    dsimp only at h
    split at h
    · cases h
    · cases h
      rfl

theorem turnCounters_event {turnBudget : TurnBudget} {logicalBytes : ℕ}
    (hwithin : r.turnWithEvent p event = .ok turnBudget)
    (hlogical : turnLogicalBytes opts r event = .ok logicalBytes)
    (hbusy : r'.operational.agentBusy =
      (if eventSettlesWork event then false
        else r.operational.agentBusy || eventStartsWork event || retriesWork event))
    (hturn : r'.turnBudget =
      if eventSettlesWork event then .zero
      else { turnBudget with logicalBytes := logicalBytes }) :
    r'.turnCounters = countFrame opts r.turnCounters (.event event) := by
  have hitems := (turnWithEvent_ok hwithin).1
  have hbytes := turnLogicalBytes_ok hlogical
  unfold turnCounters countFrame
  rw [hbusy, hturn]
  by_cases hsettles : eventSettlesWork event = true
  · simp only [hsettles, if_true, TurnBudget.zero]
  · rw [Bool.not_eq_true] at hsettles
    simp only [hsettles, Bool.false_eq_true, if_false, hitems, hbytes]

/-- The wire bytes of the active turn, and whether the agent is busy. -/
def turnBytes (r : SessionRuntimeCore J T) : Bool × ℕ :=
  (r.operational.agentBusy, r.turnBudget.bytes)

/-- What a frame with a sequence number does to the wire bytes. -/
def countBytes (p : SessionLiveProjection J T) (seq : ℕ) (counters : Bool × ℕ) :
    BufferedFrame J T → Bool × ℕ
  | .event event =>
    if eventSettlesWork event then (false, 0)
    else
      (counters.1 || eventStartsWork event || retriesWork event,
        (if !counters.1 && eventStartsWork event then 0 else counters.2) +
          (p.frameJson ⟨seq, event⟩).byteLength)
  | _ => counters

/-- The frames count one after another, the sequence numbers in steps. -/
def countBytesFrom (p : SessionLiveProjection J T) (step : ℕ) :
    ℕ → List (BufferedFrame J T) → Bool × ℕ → Bool × ℕ
  | _, [], counters => counters
  | seq, frame :: rest, counters =>
    countBytesFrom p step (seq + step) rest (countBytes p seq counters frame)

theorem countBytesFrom_congr (hidentity : q.identity = p.identity) (hcodec : q.codec = p.codec)
    (step seq : ℕ) (frames : List (BufferedFrame J T)) (counters : Bool × ℕ) :
    countBytesFrom q step seq frames counters = countBytesFrom p step seq frames counters := by
  induction frames generalizing seq counters with
  | nil => rfl
  | cons frame rest ih =>
    have hframe : countBytes q seq counters frame = countBytes p seq counters frame := by
      cases frame <;> simp only [countBytes, SessionLiveProjection.frameJson, hidentity, hcodec]
    rw [countBytesFrom, countBytesFrom, hframe, ih]

theorem countBytesFrom_append (first second : List (BufferedFrame J T)) (seq : ℕ)
    (counters : Bool × ℕ) :
    countBytesFrom p 1 seq (first ++ second) counters =
      countBytesFrom p 1 (seq + first.length) second (countBytesFrom p 1 seq first counters) := by
  induction first generalizing seq counters with
  | nil => rfl
  | cons frame rest ih =>
    rw [List.cons_append, countBytesFrom, ih, countBytesFrom, List.length_cons,
      show seq + 1 + rest.length = seq + (rest.length + 1) by omega]

theorem countBytesFrom_of_no_events
    (h : frameEvents frames = []) (step seq : ℕ) (counters : Bool × ℕ) :
    countBytesFrom p step seq frames counters = counters := by
  induction frames generalizing seq counters with
  | nil => rfl
  | cons frame rest ih =>
    have hsplit := frameEvents_append [frame] rest
    rw [List.singleton_append, h] at hsplit
    obtain ⟨hframe, hrest⟩ := List.append_eq_nil_iff.mp hsplit.symm
    cases frame with
    | event event => cases hframe
    | extensionUiRequest request object => exact ih hrest _ counters
    | extensionUiClosed requestId reason => exact ih hrest _ counters

theorem byteLength_frameJson_seq (p : SessionLiveProjection J T) {seq seq' : ℕ}
    (h : (Json.num (jsNat seq)).byteLength = (Json.num (jsNat seq')).byteLength)
    (event : SessionEvent J T) :
    (p.frameJson ⟨seq, event⟩).byteLength = (p.frameJson ⟨seq', event⟩).byteLength := by
  unfold SessionLiveProjection.frameJson
  simp only [Json.byteLength_obj, List.map_append, List.map_cons, List.map_nil, List.sum_append,
    List.sum_cons, List.sum_nil, List.length_append, List.length_cons, List.length_nil, natField, h]

theorem countBytesFrom_step {first seq : ℕ} (h : ∀ index, index < frames.length →
      (Json.num (jsNat (seq + index))).byteLength = (Json.num (jsNat first)).byteLength)
    (counters : Bool × ℕ) :
    countBytesFrom p 1 seq frames counters = countBytesFrom p 0 first frames counters := by
  induction frames generalizing seq counters with
  | nil => rfl
  | cons frame rest ih =>
    have hframe : countBytes p seq counters frame = countBytes p first counters frame := by
      have hsize := h 0 (Nat.succ_pos _)
      rw [Nat.add_zero] at hsize
      cases frame with
      | event event => simp only [countBytes, byteLength_frameJson_seq p hsize event]
      | extensionUiRequest request object => rfl
      | extensionUiClosed requestId reason => rfl
    rw [countBytesFrom, countBytesFrom, hframe]
    refine ih (fun index hindex => ?_) _
    have hsize := h (index + 1) (Nat.succ_lt_succ hindex)
    rwa [show seq + 1 + index = seq + (index + 1) by omega]

theorem turnBytes_event {turnBudget : TurnBudget} {logicalBytes : ℕ}
    (hwithin : r.turnWithEvent p event = .ok turnBudget) (hbusy : r'.operational.agentBusy =
      (if eventSettlesWork event then false
        else r.operational.agentBusy || eventStartsWork event || retriesWork event))
    (hturn : r'.turnBudget =
      if eventSettlesWork event then .zero
      else { turnBudget with logicalBytes := logicalBytes }) :
    r'.turnBytes = countBytes p (p.live.asOfSeq + 1) r.turnBytes (.event event) := by
  have hbytes := (turnWithEvent_ok hwithin).2.1
  unfold turnBytes countBytes
  rw [hbusy, hturn]
  by_cases hsettles : eventSettlesWork event = true
  · simp only [hsettles, if_true, TurnBudget.zero]
  · rw [Bool.not_eq_true] at hsettles
    simp only [hsettles, Bool.false_eq_true, if_false, hbytes, activeTurnEventBytes]

end SessionRuntimeCore

end PiAgentWeb
