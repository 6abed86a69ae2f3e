import PiAgentWeb.Server.TurnHeadroom

/-!
# Reserved headroom in runs

Two facts carry the headroom through a run. The rest of an incarnation *spares* the suffix: it adds
no event, spends nothing of the active turn and makes no reservation, or it ends the generation. An
event that is paid for takes its room from the active turn, or from the reservation that it turns
into the active turn. What an admission has checked therefore still holds when the turn publishes.
-/

namespace PiAgentWeb

variable {J T : Type}

namespace Json

/-- A concatenated string takes no more than its parts: a surrogate pair that is completed at the
seam takes less than two lone surrogates. -/
theorem bodyBytes_append_le (first rest : JsString) :
    bodyBytes (first ++ rest) ≤ bodyBytes first + bodyBytes rest := by
  induction first using bodyBytes.induct with
  | case1 => simp [bodyBytes]
  | case2 u =>
    cases rest with
    | nil => simp [bodyBytes]
    | cons v rest =>
      change (if isHighSurrogate u && isLowSurrogate v then 4 + bodyBytes rest
        else unitBytes u + bodyBytes (v :: rest)) ≤ unitBytes u + bodyBytes (v :: rest)
      split
      · rename_i hpair
        obtain ⟨hu, hv⟩ := Bool.and_eq_true_iff.mp hpair
        have hsix : ∀ w : UInt16, 0xD800 ≤ w → (isHighSurrogate w ∨ isLowSurrogate w) →
            unitBytes w = 6 := by
          intro w hw hsurrogate
          have h22 : (0x22 : UInt16).toNat = 34 := rfl
          have h5c : (0x5C : UInt16).toNat = 92 := rfl
          have h1f : (0x1F : UInt16).toNat = 31 := rfl
          have hd8 : (0xD800 : UInt16).toNat = 55296 := rfl
          rw [UInt16.le_iff_toNat_le] at hw
          unfold unitBytes
          rw [if_neg, if_neg, if_pos hsurrogate]
          · rw [UInt16.le_iff_toNat_le]
            omega
          · rintro (rfl | rfl) <;> omega
        have hu6 := hsix u (by
          simp only [isHighSurrogate, Bool.and_eq_true, decide_eq_true_eq] at hu
          exact hu.1) (Or.inl hu)
        have hbody : bodyBytes rest ≤ bodyBytes (v :: rest) := by
          have hvhigh : isHighSurrogate v = false := by
            have hdb : (0xDBFF : UInt16).toNat = 56319 := rfl
            have hdc : (0xDC00 : UInt16).toNat = 56320 := rfl
            simp only [isLowSurrogate, isHighSurrogate, Bool.and_eq_true, Bool.and_eq_false_iff,
              decide_eq_true_eq, decide_eq_false_iff_not, UInt16.le_iff_toNat_le] at hv ⊢
            omega
          cases rest with
          | nil => simp [bodyBytes]
          | cons w rest =>
            rw [bodyBytes, hvhigh, Bool.false_and, if_neg (by simp)]
            omega
        omega
      · exact Nat.le_refl _
  | case3 u v first hpair ih =>
    simp only [List.cons_append, bodyBytes, hpair, if_true]
    omega
  | case4 u v first hpair ih =>
    simp only [List.cons_append, bodyBytes, hpair] at ih ⊢
    simp only [Bool.false_eq_true, if_false]
    omega

end Json

/-- `JSON.stringify` of a delta: an object in which the text stands as a member of the stream event,
and the other members do not depend on it. -/
def PayloadCodec.RendersDeltas (codec : PayloadCodec J T) : Prop :=
  ∀ usage type contentIndex, ∃ before after inner inner' : List (JsString × Json),
    ∀ delta, codec.eventJson (.messageUpdate
        { usage := usage, assistantMessageEvent := .delta type contentIndex delta }) =
      .obj (before ++ [(js "assistantMessageEvent",
        .obj (inner ++ [(js "delta", .str delta)] ++ inner'))] ++ after)

namespace SessionLiveProjection

theorem byteLength_delta {codec : PayloadCodec J T} (h : codec.RendersDeltas) (usage : Usage)
    (type : DeltaType) (contentIndex : ℕ) :
    ∃ rest, ∀ delta, (codec.eventJson (.messageUpdate
      { usage := usage, assistantMessageEvent := .delta type contentIndex delta })).byteLength =
        rest + Json.bodyBytes delta := by
  obtain ⟨before, after, inner, inner', hjson⟩ := h usage type contentIndex
  refine ⟨(codec.eventJson (.messageUpdate
    { usage := usage, assistantMessageEvent := .delta type contentIndex [] })).byteLength, ?_⟩
  intro delta
  have hstr : ∀ s : JsString, (Json.str s).byteLength = Json.bodyBytes s + 2 := fun s =>
    Json.utf8ByteLength_quote s
  have hnil : Json.bodyBytes [] = 0 := rfl
  rw [hjson delta, hjson []]
  simp only [Json.byteLength_obj, List.map_append, List.map_cons, List.map_nil, List.sum_append,
    List.sum_cons, List.sum_nil, List.length_append, List.length_cons, List.length_nil, hstr, hnil]
  omega

variable {p q : SessionLiveProjection J T}

theorem byteLength_frameJson (p : SessionLiveProjection J T) (seq : ℕ)
    (event event' : SessionEvent J T) :
    (p.frameJson ⟨seq, event⟩).byteLength + (p.codec.eventJson event').byteLength =
      (p.frameJson ⟨seq, event'⟩).byteLength + (p.codec.eventJson event).byteLength := by
  unfold frameJson
  simp only [Json.byteLength_obj, List.map_append, List.map_cons, List.map_nil, List.sum_append,
    List.sum_cons, List.sum_nil, List.length_append, List.length_cons, List.length_nil]
  omega

theorem eventJson_le_frameJson (p : SessionLiveProjection J T)
    (frame : SessionLiveProjectionEventFrame J T) :
    (p.codec.eventJson frame.event).byteLength ≤ (p.frameJson frame).byteLength := by
  unfold frameJson
  simp only [Json.byteLength_obj, List.map_append, List.map_cons, List.map_nil, List.sum_append,
    List.sum_cons, List.sum_nil]
  omega

theorem mergedEvent_byteLength_le (hjson : p.codec.RendersDeltas)
    {previousFrame : SessionLiveProjectionEventFrame J T} {event merged : SessionEvent J T}
    (h : mergeCompatibleDelta p.codec.guardEvent previousFrame.event event = some merged)
    (seq : ℕ) :
    (p.frameJson ⟨seq, merged⟩).byteLength ≤
      (p.frameJson previousFrame).byteLength + (p.frameJson ⟨seq, event⟩).byteLength := by
  obtain ⟨usage, usage', type, contentIndex, delta, delta', hprevious, hnext, hmerged⟩ :=
    mergeDelta_eq_some (mergeDelta_of_mergeCompatibleDelta h)
  obtain ⟨rest, hrest⟩ := byteLength_delta hjson usage type contentIndex
  obtain ⟨rest', hrest'⟩ := byteLength_delta hjson usage' type contentIndex
  have hold := p.eventJson_le_frameJson previousFrame
  have hframe := p.byteLength_frameJson seq merged event
  have happend := Json.bodyBytes_append_le delta delta'
  rw [hmerged, hnext, hrest', hrest'] at hframe
  rw [hprevious, hrest] at hold
  rw [hmerged, hnext]
  omega

theorem suffixWithEvent_le (hjson : p.codec.RendersDeltas) (h : p.Recorded p.live)
    (event : SessionEvent J T) :
    (p.suffixWithEvent p.live event).1 ≤ p.live.projectionEvents.length + 1 ∧
      (p.suffixWithEvent p.live event).2 ≤
        p.live.projectionEventBytes + SessionRuntimeCore.activeTurnEventBytes p event := by
  unfold suffixWithEvent nextFrame SessionRuntimeCore.activeTurnEventBytes
  dsimp only
  cases hmerged : p.mergedEvent p.live event with
  | none => simp
  | some merged =>
    unfold mergedEvent at hmerged
    split at hmerged
    · rename_i previousFrame hlast
      split at hmerged
      · have hbytes := mergedEvent_byteLength_le hjson hmerged (p.live.asOfSeq + 1)
        obtain ⟨kept, hkept⟩ := List.getLast?_eq_some_iff.mp hlast
        have htotal := h.total
        rw [h.frameBytes] at htotal ⊢
        simp only [hkept, List.map_append, List.sum_append, List.map_cons, List.map_nil,
          List.sum_cons, List.sum_nil, List.getLast?_append, List.getLast?_singleton,
          Option.some_or, Option.getD_some, Option.isSome_some, if_true, List.dropLast_concat,
          List.length_append, List.length_cons, List.length_nil] at htotal ⊢
        omega
      · cases hmerged
    · cases hmerged

theorem reduceEvent_suffix {candidate reduced : ProjectionCandidate J T}
    {event : SessionEvent J T} (h : p.reduceEvent candidate event = .ok reduced) :
    (reduced.projectionEvents.length, reduced.projectionEventBytes) =
      p.suffixWithEvent candidate event := by
  obtain ⟨hevents, _, hbytes⟩ := reduceEvent_eq h
  unfold suffixWithEvent nextFrame
  dsimp only
  rw [hevents, hbytes, List.length_append]
  rfl

/-- Apart from the limits of a single frame, only the capacity check rejects an event as too
large. -/
theorem capacityExceeded_of_reduceEvent {candidate : ProjectionCandidate J T}
    {event : SessionEvent J T}
    (h : p.reduceEvent candidate event = .error (.limitExceeded .liveEvents)) :
    p.assertFrameFits (p.nextFrame candidate event)
        (p.frameJson (p.nextFrame candidate event)).byteLength ≠ .ok () ∨
      p.CapacityExceeded candidate event := by
  by_cases hcapacity : p.CapacityExceeded candidate event
  · exact Or.inr hcapacity
  · left
    simp only [CapacityExceeded, suffixWithEvent, nextFrame, not_or] at hcapacity
    simp only [reduceEvent, bind, Except.bind, pure, Except.pure, throw, throwThe,
      MonadExceptOf.throw] at h
    repeat' split at h
    all_goals try cases h
    · rename_i hframe
      intro hok
      rw [nextFrame] at hok
      rw [hframe] at hok
      cases hok
    all_goals
      rename_i hmerged hover
      simp [hmerged] at hcapacity hover
      omega

/-- A change that keeps the limits and the exact sizes. -/
structure SameLimits (p q : SessionLiveProjection J T) : Prop where
  limits : q.limits = p.limits
  codec : q.codec = p.codec
  schema : q.schema = p.schema
  sized : p.Sized → q.Sized

/-- A change that moreover adds nothing to the suffix. -/
structure SparesSuffix (p q : SessionLiveProjection J T) : Prop extends SameLimits p q where
  items : q.live.projectionEvents.length ≤ p.live.projectionEvents.length
  bytes : q.live.projectionEventBytes ≤ p.live.projectionEventBytes

theorem SameLimits.trans {r : SessionLiveProjection J T} (h : p.SameLimits q)
    (h' : q.SameLimits r) : p.SameLimits r where
  limits := h'.limits.trans h.limits
  codec := h'.codec.trans h.codec
  schema := h'.schema.trans h.schema
  sized hsized := h'.sized (h.sized hsized)

theorem SparesSuffix.refl (p : SessionLiveProjection J T) : p.SparesSuffix p where
  limits := rfl
  codec := rfl
  schema := rfl
  sized := id
  items := Nat.le_refl _
  bytes := Nat.le_refl _

theorem SparesSuffix.trans {r : SessionLiveProjection J T} (h : p.SparesSuffix q)
    (h' : q.SparesSuffix r) : p.SparesSuffix r where
  toSameLimits := h.toSameLimits.trans h'.toSameLimits
  items := h'.items.trans h.items
  bytes := h'.bytes.trans h.bytes

theorem SameLimits.maxLiveEventWireBytes (h : p.SameLimits q) :
    q.maxLiveEventWireBytes = p.maxLiveEventWireBytes := by
  simp only [SessionLiveProjection.maxLiveEventWireBytes, h.limits, h.schema]

theorem SameLimits.activeTurnBudget (h : p.SameLimits q) :
    SessionRuntimeCore.activeTurnBudget q = SessionRuntimeCore.activeTurnBudget p := by
  simp only [SessionRuntimeCore.activeTurnBudget, h.limits, h.maxLiveEventWireBytes]

theorem Sized.step (h : p.Sized) (op : LiveProjectionOp J T) :
    (({ projection := p, batchInputs := .empty, committedEvents := [] } :
      LiveProjectionRun J T).step op).projection.Sized :=
  LiveProjectionRun.step_sized h op

theorem sparesSuffix_setRuntimePhase {identity : SessionLiveProjectionIdentity}
    {phase : SessionLiveRuntimePhase} (h : p.setRuntimePhase identity phase = .ok q) :
    p.SparesSuffix q := by
  have hsized : p.Sized → q.Sized := fun hp => by
    simpa [LiveProjectionRun.step, h] using hp.step (.setRuntimePhase identity phase)
  obtain ⟨-, rfl⟩ := setRuntimePhase_ok h
  exact ⟨⟨rfl, rfl, rfl, hsized⟩, Nat.le_refl _, Nat.le_refl _⟩

theorem sparesSuffix_prepareBatch {identity : SessionLiveProjectionIdentity}
    {inputs : List (SessionLiveProjectionInput J T)}
    {runtimePhase : Option SessionLiveRuntimePhase} {token : ℕ}
    (h : p.prepareBatch identity inputs runtimePhase = .ok (q, token)) : p.SparesSuffix q := by
  have hsized : p.Sized → q.Sized := fun hp => by
    simpa [LiveProjectionRun.step, h] using hp.step (.prepareBatch identity inputs runtimePhase)
  obtain ⟨candidate, _, _, rfl⟩ := prepareBatch_ok h
  exact ⟨⟨rfl, rfl, rfl, hsized⟩, Nat.le_refl _, Nat.le_refl _⟩

theorem commitPreparedBatch_of_prepareBatch {identity : SessionLiveProjectionIdentity}
    {inputs : List (SessionLiveProjectionInput J T)}
    {runtimePhase : Option SessionLiveRuntimePhase} {token : ℕ}
    (h : p.prepareBatch identity inputs runtimePhase = .ok (q, token)) :
    p.SameLimits (q.commitPreparedBatch token).1 ∧
      (((q.commitPreparedBatch token).2 = none ∧ (q.commitPreparedBatch token).1.live = p.live) ∨
        ((q.commitPreparedBatch token).2 = some (q.commitPreparedBatch token).1.live.asOfSeq ∧
          inputs.foldlM (p.reduceCandidate runtimePhase) p.live =
            .ok (q.commitPreparedBatch token).1.live)) := by
  have hspares := sparesSuffix_prepareBatch h
  have hsized : q.Sized → (q.commitPreparedBatch token).1.Sized := fun hq => by
    have hstep := hq.step (.commitPreparedBatch token)
    simp only [LiveProjectionRun.step] at hstep
    cases hcommit : q.commitPreparedBatch token with
    | mk next seq =>
      cases seq <;> simpa [hcommit] using hstep
  obtain ⟨candidate, hfold, rfl, rfl⟩ := prepareBatch_ok h
  rcases commitPreparedBatch_cases _ _ with ⟨prepared, hget, _, heq⟩ | ⟨batches, _, heq⟩
  · rw [heq] at hsized ⊢
    refine ⟨hspares.toSameLimits.trans ⟨rfl, rfl, rfl, hsized⟩, Or.inr ⟨rfl, ?_⟩⟩
    simp only [InsertionMap.get?_insert, if_true, Option.some.injEq] at hget
    rw [← hget]
    exact hfold
  · rw [heq] at hsized ⊢
    exact ⟨hspares.toSameLimits.trans ⟨rfl, rfl, rfl, hsized⟩, Or.inl ⟨rfl, rfl⟩⟩

theorem foldlM_reduceCandidate_suffix {inputs : List (SessionLiveProjectionInput J T)}
    {runtimePhase : Option SessionLiveRuntimePhase} {candidate reduced : ProjectionCandidate J T}
    (hinputs : inputEvents inputs = [])
    (h : inputs.foldlM (p.reduceCandidate runtimePhase) candidate = .ok reduced) :
    reduced.projectionEvents = candidate.projectionEvents ∧
      reduced.projectionEventBytes = candidate.projectionEventBytes := by
  induction inputs generalizing candidate with
  | nil =>
    cases h
    exact ⟨rfl, rfl⟩
  | cons input rest ih =>
    rw [List.foldlM_cons] at h
    cases hstep : p.reduceCandidate runtimePhase candidate input with
    | error error => simp [hstep, bind, Except.bind] at h
    | ok next =>
      have hrest : inputEvents rest = [] := by
        cases input <;> simp_all [inputEvents]
      obtain ⟨hevents, hbytes⟩ := ih hrest (by simpa [hstep, bind, Except.bind] using h)
      obtain ⟨branch, hbranch, rfl, -⟩ := reduceCandidate_ok hstep
      have hsame : branch.projectionEvents = candidate.projectionEvents ∧
          branch.projectionEventBytes = candidate.projectionEventBytes := by
        cases input with
        | event event => simp [inputEvents] at hinputs
        | extensionUiRequest request =>
          obtain ⟨pending, rfl⟩ := reduceExtensionRequest_ok hbranch
          exact ⟨rfl, rfl⟩
        | extensionUiClosed requestId =>
          cases hbranch
          exact ⟨rfl, rfl⟩
      exact ⟨hevents.trans hsame.1, hbytes.trans hsame.2⟩

theorem sparesSuffix_commitPreparedBatch {identity : SessionLiveProjectionIdentity}
    {inputs : List (SessionLiveProjectionInput J T)}
    {runtimePhase : Option SessionLiveRuntimePhase} {token : ℕ}
    (h : p.prepareBatch identity inputs runtimePhase = .ok (q, token))
    (hinputs : inputEvents inputs = []) : p.SparesSuffix (q.commitPreparedBatch token).1 := by
  obtain ⟨hlimits, ⟨_, hlive⟩ | ⟨_, hfold⟩⟩ := commitPreparedBatch_of_prepareBatch h
  · exact ⟨hlimits, Nat.le_of_eq (by rw [hlive]), Nat.le_of_eq (by rw [hlive])⟩
  · obtain ⟨hevents, hbytes⟩ := foldlM_reduceCandidate_suffix hinputs hfold
    exact ⟨hlimits, Nat.le_of_eq (by rw [hevents]), Nat.le_of_eq hbytes⟩

theorem sparesSuffix_beginIdleBaseCompaction (p : SessionLiveProjection J T) :
    p.SparesSuffix p.beginIdleBaseCompaction.1 := by
  have hsized : p.Sized → p.beginIdleBaseCompaction.1.Sized := fun hp =>
    hp.step .beginIdleBaseCompaction
  unfold beginIdleBaseCompaction at hsized ⊢
  split
  · exact .refl p
  · rename_i hphase
    rw [if_neg hphase] at hsized
    exact ⟨⟨rfl, rfl, rfl, hsized⟩, Nat.le_refl _, Nat.le_refl _⟩

theorem sparesSuffix_prepareIdleBaseCompaction (p : SessionLiveProjection J T) (token : ℕ)
    (settledMessages : List (SessionMessage J T)) :
    p.SparesSuffix (p.prepareIdleBaseCompaction token settledMessages).1 := by
  have hsized : p.Sized → (p.prepareIdleBaseCompaction token settledMessages).1.Sized := fun hp =>
    hp.step (.prepareIdleBaseCompaction token settledMessages)
  refine ⟨⟨?_, ?_, ?_, hsized⟩, Nat.le_of_eq ?_, Nat.le_of_eq ?_⟩
  all_goals
    unfold prepareIdleBaseCompaction
    dsimp only
    split <;> rfl

theorem sparesSuffix_commitPreparedIdleBaseCompaction (p : SessionLiveProjection J T)
    (token : ℕ) : p.SparesSuffix (p.commitPreparedIdleBaseCompaction token).1 := by
  have hsized : p.Sized → (p.commitPreparedIdleBaseCompaction token).1.Sized := fun hp => by
    have hstep := hp.step (.commitPreparedIdleBaseCompaction token)
    simp only [LiveProjectionRun.step] at hstep
    cases hcommit : p.commitPreparedIdleBaseCompaction token with
    | mk next committed =>
      cases committed <;> simpa [hcommit] using hstep
  refine ⟨⟨?_, ?_, ?_, hsized⟩, ?_, ?_⟩
  all_goals
    unfold commitPreparedIdleBaseCompaction
    split
    · rfl
    · dsimp only
      split <;> first | rfl | exact Nat.zero_le _

end SessionLiveProjection

open SessionLiveProjection

namespace SessionRuntimeCore

/-- The generation has ended. -/
def Ended (r : SessionRuntimeCore J T) : Prop :=
  r.liveProjection = none ∧ r.operational.activeTurnHeadroomReserved = false

/-- The runtime goes on with no more in its suffix, the same active turn and no new reservation. -/
structure Keeps (r r' : SessionRuntimeCore J T) : Prop where
  projection : ∀ q, r'.liveProjection = some q →
    ∃ p, r.liveProjection = some p ∧ p.SparesSuffix q
  turnBudget : r'.turnBudget = r.turnBudget
  agentBusy : r'.operational.agentBusy = r.operational.agentBusy
  reserved : r'.operational.activeTurnHeadroomReserved = r.operational.activeTurnHeadroomReserved
  pending : r'.operational.pendingTurnReservations.length ≤
    r.operational.pendingTurnReservations.length

/-- A step that spares the suffix of the runtime, or ends the generation. -/
def Spares (r r' : SessionRuntimeCore J T) : Prop := r'.Ended ∨ r.Keeps r'

/-- The sizes are exact, and only an active turn has reserved headroom. -/
structure Accounted (codec : PayloadCodec J T) (r : SessionRuntimeCore J T) : Prop where
  projection : ∀ p, r.liveProjection = some p → p.Sized ∧ p.codec = codec
  reserved : r.operational.activeTurnHeadroomReserved = true → r.operational.agentBusy = true

/-- There is room for the pending turns and for the rest of the active one. -/
def HasHeadroom (r : SessionRuntimeCore J T) : Prop :=
  ∀ p, r.liveProjection = some p →
    p.hasActiveTurnReservationCapacity r.operational.pendingTurnReservations.length
      r.turnBudget.items r.turnBudget.bytes r.operational.activeTurnHeadroomReserved = true

variable {r r' r'' : SessionRuntimeCore J T}

/-- The same projection, or one that spares its suffix, beside the same counters. -/
theorem Keeps.of_eq (hprojection : ∀ q, r'.liveProjection = some q →
      ∃ p, r.liveProjection = some p ∧ p.SparesSuffix q)
    (hturnBudget : r'.turnBudget = r.turnBudget) (hoperational : r'.operational = r.operational) :
    r.Keeps r' where
  projection := hprojection
  turnBudget := hturnBudget
  agentBusy := by rw [hoperational]
  reserved := by rw [hoperational]
  pending := Nat.le_of_eq (by rw [hoperational])

theorem Keeps.refl (r : SessionRuntimeCore J T) : r.Keeps r :=
  .of_eq (fun q hq => ⟨q, hq, .refl q⟩) rfl rfl

theorem Keeps.trans (h : r.Keeps r') (h' : r'.Keeps r'') : r.Keeps r'' where
  projection q hq := by
    obtain ⟨p', hp', hspares'⟩ := h'.projection q hq
    obtain ⟨p, hp, hspares⟩ := h.projection p' hp'
    exact ⟨p, hp, hspares.trans hspares'⟩
  turnBudget := h'.turnBudget.trans h.turnBudget
  agentBusy := h'.agentBusy.trans h.agentBusy
  reserved := h'.reserved.trans h.reserved
  pending := h'.pending.trans h.pending

theorem Spares.refl (r : SessionRuntimeCore J T) : r.Spares r := Or.inr (.refl r)

theorem Spares.trans (h : r.Spares r') (h' : r'.Spares r'') : r.Spares r'' := by
  rcases h' with hended | hkeeps'
  · exact Or.inl hended
  rcases h with hended | hkeeps
  · refine Or.inl ⟨?_, hkeeps'.reserved.trans hended.2⟩
    by_contra hsome
    obtain ⟨q, hq⟩ := Option.ne_none_iff_exists'.mp hsome
    obtain ⟨p, hp, _⟩ := hkeeps'.projection q hq
    rw [hended.1] at hp
    cases hp
  · exact Or.inr (hkeeps.trans hkeeps')

theorem Spares.andThen {A B : Type} {result : Result J T A}
    {next : SessionRuntimeCore J T → A → Result J T B} (h : r.Spares result.1)
    (hnext : ∀ value, result.2 = .ok value → result.1.Spares (next result.1 value).1) :
    r.Spares (result.andThen next).1 := by
  obtain ⟨r', value | value⟩ := result
  · exact h
  · exact h.trans (hnext value rfl)

theorem Accounted.spares {codec : PayloadCodec J T} (h : Accounted codec r) (hs : r.Spares r') :
    Accounted codec r' := by
  rcases hs with ⟨hnone, hreserved⟩ | hkeeps
  · refine ⟨?_, ?_⟩
    · intro p hp
      rw [hnone] at hp
      cases hp
    · intro htrue
      rw [hreserved] at htrue
      cases htrue
  · refine ⟨?_, ?_⟩
    · intro q hq
      obtain ⟨p, hp, hspares⟩ := hkeeps.projection q hq
      obtain ⟨hsized, hcodec⟩ := h.projection p hp
      exact ⟨hspares.sized hsized, hspares.codec.trans hcodec⟩
    · rw [hkeeps.reserved, hkeeps.agentBusy]
      exact h.reserved

theorem hasCapacity_iff {p : SessionLiveProjection J T} {pending items bytes : ℕ}
    {reserved : Bool} :
    p.hasActiveTurnReservationCapacity pending items bytes reserved = true ↔
      p.live.projectionEvents.length + pending * (activeTurnBudget p).1 +
          (if reserved then (activeTurnBudget p).1 - items else 0) ≤
        p.limits.maxLiveEventItems ∧
      p.live.projectionEventBytes + pending * (activeTurnBudget p).2 +
          (if reserved then (activeTurnBudget p).2 - bytes else 0) ≤ p.maxLiveEventWireBytes := by
  simp only [hasActiveTurnReservationCapacity, Bool.and_eq_true, decide_eq_true_eq]

theorem hasCapacity_mono {p q : SessionLiveProjection J T} {pending pending' items bytes : ℕ}
    {reserved : Bool} (h : p.hasActiveTurnReservationCapacity pending items bytes reserved = true)
    (hspares : p.SparesSuffix q) (hpending : pending' ≤ pending) :
    q.hasActiveTurnReservationCapacity pending' items bytes reserved = true := by
  rw [hasCapacity_iff] at h ⊢
  rw [hspares.activeTurnBudget, hspares.limits, hspares.maxLiveEventWireBytes]
  have hitems := Nat.mul_le_mul_right (activeTurnBudget p).1 hpending
  have hbytes := Nat.mul_le_mul_right (activeTurnBudget p).2 hpending
  have hsuffixItems := hspares.items
  have hsuffixBytes := hspares.bytes
  omega

theorem HasHeadroom.spares (h : r.HasHeadroom) (hs : r.Spares r') : r'.HasHeadroom := by
  rcases hs with ⟨hnone, _⟩ | hkeeps
  · intro p hp
    rw [hnone] at hp
    cases hp
  · intro q hq
    obtain ⟨p, hp, hspares⟩ := hkeeps.projection q hq
    rw [hkeeps.turnBudget, hkeeps.reserved]
    exact hasCapacity_mono (h p hp) hspares hkeeps.pending

/-! ## Steps that spare the suffix -/

theorem spares_throwProjection {A : Type} (r : SessionRuntimeCore J T)
    (error : SessionLiveProjectionError) :
    r.Spares (r.throwProjection error : Result J T A).1 := by
  cases error with
  | identityMismatch => exact .refl r
  | payloadInvalid => exact .refl r
  | limitExceeded boundary =>
    simp only [throwProjection, normalizeProjectionError]
    split
    · unfold terminalizeSnapshotOverflow
      split
      · exact .refl r
      · exact Or.inl ⟨rfl, rfl⟩
    · exact Or.inr (.of_eq (fun q hq => ⟨q, hq, .refl q⟩) rfl rfl)

theorem spares_terminalizeOnError {processToken owner : ℕ} {result : Result J T Unit}
    (h : r.Spares result.1) : r.Spares (terminalizeOnError processToken owner result).1 := by
  obtain ⟨r', error | value⟩ := result
  · unfold terminalizeOnError
    dsimp only
    split
    · exact Or.inl ⟨rfl, rfl⟩
    · exact h
  · exact h

theorem spares_setState (r : SessionRuntimeCore J T) (state : SessionLiveRuntimePhase) :
    r.Spares (r.setState state).1 := by
  unfold setState
  split
  · exact .refl r
  split
  · rename_i hnone
    exact Or.inr (.of_eq (fun q hq => ⟨q, hq, .refl q⟩) rfl rfl)
  rename_i projection hsome
  split
  · rename_i next hok
    refine Or.inr (.of_eq ?_ rfl rfl)
    intro q hq
    cases hq
    exact ⟨projection, hsome, sparesSuffix_setRuntimePhase hok⟩
  · exact Or.inr (.of_eq (fun q hq => ⟨q, hq, .refl q⟩) rfl rfl)

theorem spares_refreshOperationalState (r : SessionRuntimeCore J T) :
    r.Spares r.refreshOperationalState.1 := by
  unfold refreshOperationalState
  split
  · exact spares_setState r _
  · exact .refl r

theorem spares_operational (r : SessionRuntimeCore J T) {operational : OperationalState}
    (hbusy : operational.agentBusy = r.operational.agentBusy)
    (hreserved : operational.activeTurnHeadroomReserved =
      r.operational.activeTurnHeadroomReserved)
    (hpending : operational.pendingTurnReservations.length ≤
      r.operational.pendingTurnReservations.length) :
    r.Spares { r with operational := operational } :=
  Or.inr ⟨fun q hq => ⟨q, hq, .refl q⟩, rfl, hbusy, hreserved, hpending⟩

theorem spares_refreshed (r : SessionRuntimeCore J T) {operational : OperationalState}
    (hbusy : operational.agentBusy = r.operational.agentBusy)
    (hreserved : operational.activeTurnHeadroomReserved =
      r.operational.activeTurnHeadroomReserved)
    (hpending : operational.pendingTurnReservations.length ≤
      r.operational.pendingTurnReservations.length) :
    r.Spares { r with operational := operational }.refreshOperationalState.1 :=
  (spares_operational r hbusy hreserved hpending).trans (spares_refreshOperationalState _)

theorem spares_withProjection (r : SessionRuntimeCore J T)
    {change : SessionLiveProjection J T → SessionLiveProjection J T}
    (hchange : ∀ p : SessionLiveProjection J T, p.SparesSuffix (change p)) :
    r.Spares (r.withProjection change) := by
  refine Or.inr (.of_eq ?_ rfl rfl)
  intro q hq
  obtain ⟨p, hp, rfl⟩ := Option.map_eq_some_iff.mp hq
  exact ⟨p, hp, hchange p⟩

variable (opts : SessionRuntimeOptions J T)

theorem spares_emitFrame (r : SessionRuntimeCore J T) {frame : BufferedFrame J T}
    (hframe : inputEvents [frame.input] = [])
    {afterProjectionCommit : SessionRuntimeCore J T → SessionRuntimeCore J T}
    (hafter : ∀ r, (afterProjectionCommit r).liveProjection = r.liveProjection ∧
      (afterProjectionCommit r).turnBudget = r.turnBudget ∧
      (afterProjectionCommit r).operational = r.operational) :
    r.Spares (emitFrame opts r frame afterProjectionCommit).1 := by
  unfold emitFrame
  cases hlive : r.liveProjection with
  | none => exact .refl r
  | some projection =>
    cases frame with
    | event event => simp [inputEvents, BufferedFrame.input] at hframe
    | _ =>
      dsimp only
      split
      · exact spares_throwProjection r _
      · rename_i prepared token hprepare
        have hspares := sparesSuffix_commitPreparedBatch hprepare hframe
        cases hcommit : prepared.commitPreparedBatch token with
        | mk next seq =>
          rw [hcommit] at hspares
          have hkeeps : r.Keeps { r with liveProjection := some next } :=
            .of_eq (fun q hq => ⟨projection, hlive, by cases hq; exact hspares⟩) rfl rfl
          cases seq with
          | none =>
            exact Spares.trans (Or.inr hkeeps) (spares_throwProjection _ _)
          | some seq =>
            obtain ⟨hprojection, hturnBudget, hoperational⟩ :=
              hafter { r with liveProjection := some next, turnBudget := r.turnBudget }
            refine Or.inr (.of_eq ?_ hturnBudget hoperational)
            intro q hq
            exact hkeeps.projection q (hprojection.symm.trans hq)

theorem commitClose_spares (requestId : JsString) (dialog : PendingDialog J T)
    (r : SessionRuntimeCore J T) :
    (commitClose requestId dialog r).liveProjection = r.liveProjection ∧
      (commitClose requestId dialog r).turnBudget = r.turnBudget ∧
      (commitClose requestId dialog r).operational = r.operational := by
  unfold commitClose
  split <;> exact ⟨rfl, rfl, rfl⟩

theorem spares_closeDialog (r : SessionRuntimeCore J T) (requestId : JsString)
    (reason : ExtensionUiCloseReason) : r.Spares (closeDialog opts r requestId reason).1 := by
  unfold closeDialog
  split
  · exact .refl r
  · rename_i dialog _
    split
    · exact spares_emitFrame opts r rfl (commitClose_spares requestId dialog)
    · obtain ⟨hprojection, hturnBudget, hoperational⟩ := commitClose_spares requestId dialog r
      exact Or.inr (.of_eq (fun q hq => ⟨q, hprojection ▸ hq, .refl q⟩) hturnBudget hoperational)

/-- The events among the frames of a plan. -/
abbrev frameEvents (frames : List (BufferedFrame J T)) : List (SessionEvent J T) :=
  inputEvents (frames.map (·.input))

theorem stickyClearRequest_events {request : ExtensionUiRequest J T} {object : ℕ}
    {frame : BufferedFrame J T} (h : stickyClearRequest opts request object = .ok frame) :
    frameEvents [frame] = [] := by
  unfold stickyClearRequest at h
  dsimp only at h
  split at h
  · cases h
  · split at h <;> cases h
    rfl

theorem frameEvents_append (frames frames' : List (BufferedFrame J T)) :
    frameEvents (frames ++ frames') = frameEvents frames ++ frameEvents frames' := by
  simp [frameEvents, inputEvents]

theorem evictSticky_events {key : JsString} {request : ExtensionUiRequest J T} (fuel : ℕ)
    {extension extension' : ExtensionState J T} {nextObject nextObject' : ℕ}
    {frames : List (BufferedFrame J T)}
    (h : evictSticky opts key request fuel extension nextObject =
      .ok (extension', frames, nextObject')) : frameEvents frames = [] := by
  induction fuel generalizing extension nextObject frames extension' nextObject' with
  | zero =>
    cases h
    rfl
  | succ fuel ih =>
    unfold evictSticky at h
    split at h
    · cases h
      rfl
    · split at h
      · cases h
        rfl
      · split at h
        · cases h
        · rename_i cleared hcleared
          split at h
          · cases h
          · rename_i later hlater
            cases h
            have hfirst := stickyClearRequest_events opts hcleared
            have hrest := ih hlater
            change frameEvents ([cleared] ++ _) = []
            rw [frameEvents_append, hfirst, hrest]
            rfl

theorem planExtensionRequest_events {request : ExtensionUiRequest J T} {object : ℕ}
    {publishReplacedClose : Bool} {extension : ExtensionState J T} {nextObject nextObject' : ℕ}
    {plan : ExtensionSemanticPlan J T}
    (h : planExtensionRequestSemanticMutation opts request object publishReplacedClose extension
      nextObject = .ok (plan, nextObject')) : frameEvents plan.frames = [] := by
  unfold planExtensionRequestSemanticMutation at h
  dsimp only at h
  split at h
  · split at h
    · cases h
    · cases h
      dsimp only
      split <;> rfl
  split at h
  · split at h
    · cases h
      rfl
    · split at h
      · cases h
      · rename_i extension' frames nextObject'' hevict
        have hframes := evictSticky_events opts _ hevict
        split at h
        · cases h
          rw [frameEvents_append, hframes]
          rfl
        · split at h
          · cases h
          · rename_i cleared hcleared
            cases h
            rw [frameEvents_append, hframes, stickyClearRequest_events opts hcleared]
            rfl
  · cases h
    rfl

theorem spares_publishRequest (r : SessionRuntimeCore J T) (request : ExtensionUiRequest J T) :
    r.Spares (publishRequest opts r request).1 := by
  unfold publishRequest
  dsimp only
  cases hplan : planExtensionRequestSemanticMutation opts request r.nextObject true r.extension
      (r.nextObject + 1) with
  | error error => exact Or.inr (.of_eq (fun q hq => ⟨q, hq, .refl q⟩) rfl rfl)
  | ok result =>
    obtain ⟨plan, nextObject⟩ := result
    have hevents := planExtensionRequest_events opts hplan
    dsimp only
    have hstart : r.Spares { r with nextObject := nextObject } :=
      Or.inr (.of_eq (fun q hq => ⟨q, hq, .refl q⟩) rfl rfl)
    refine hstart.trans ?_
    generalize ({ r with nextObject := nextObject } : SessionRuntimeCore J T) = r
    unfold prepareExtensionSemanticOperation
    cases hlive : r.liveProjection with
    | none => exact .refl r
    | some projection =>
      dsimp only
      cases hprepare : projection.prepareBatch r.identity (plan.frames.map (·.input))
          (some r.state) with
      | error error =>
        exact Spares.andThen (spares_throwProjection r error) fun _ hok => by
          cases error <;> cases hok
      | ok result =>
        obtain ⟨prepared, token⟩ := result
        dsimp only
        have hprepared : r.Spares { r with liveProjection := some prepared } :=
          Or.inr (.of_eq (fun q hq =>
            ⟨projection, hlive, by cases hq; exact sparesSuffix_prepareBatch hprepare⟩) rfl rfl)
        split
        · have hspares := sparesSuffix_commitPreparedBatch hprepare hevents
          apply spares_terminalizeOnError
          unfold commitExtensionSemanticOperation
          dsimp only
          split
          · exact hprepared
          · cases hcommit : prepared.commitPreparedBatch token with
            | mk next seq =>
              rw [hcommit] at hspares
              cases seq <;>
                exact Or.inr (.of_eq (fun q hq =>
                  ⟨projection, hlive, by cases hq; exact hspares⟩) rfl rfl)
        · refine Spares.andThen (hprepared.trans (spares_throwProjection _ _)) fun _ hok => ?_
          cases hok

theorem length_releasePendingTurn_le (operational : OperationalState) (reservation : ℕ) :
    (releasePendingTurn operational reservation).pendingTurnReservations.length ≤
      operational.pendingTurnReservations.length := List.length_filter_le _ _

theorem length_releasePendingTurnsThrough_le (operational : OperationalState) (cutoff : ℕ) :
    (releasePendingTurnsThrough operational cutoff).pendingTurnReservations.length ≤
      operational.pendingTurnReservations.length := List.length_filter_le _ _

theorem length_queueSettled_le (operational : OperationalState) :
    (queueSettled operational).pendingTurnReservations.length ≤
      operational.pendingTurnReservations.length :=
  length_releasePendingTurnsThrough_le _ _

theorem spares_takeTurnAction (r : SessionRuntimeCore J T) {action : TurnAction J T}
    (hevent : ∀ event, action ≠ .publishEvent event)
    (hadmission : ∀ command, action ≠ .admitTurn command) :
    r.Spares (takeTurnAction opts r action).1 := by
  cases action with
  | publishEvent event => exact absurd rfl (hevent event)
  | admitTurn command => exact absurd rfl (hadmission command)
  | publishRequest request => exact spares_publishRequest opts r request
  | closeDialog requestId reason => exact spares_closeDialog opts r requestId reason
  | finishWorkCommand success reservation =>
    refine spares_refreshed r ?_ ?_ ?_
    · cases success <;> rfl
    · cases success <;> rfl
    · cases success
      · exact length_releasePendingTurn_le _ _
      · exact Nat.le_refl _
  | releaseQueuedWork turnReleaseCutoff =>
    exact spares_refreshed r rfl rfl (length_releasePendingTurnsThrough_le _ _)
  | expireTurn reservation =>
    unfold takeTurnAction expireTurn
    dsimp only
    split
    · exact spares_refreshed r rfl rfl (length_releasePendingTurn_le _ _)
    · exact .refl r
  | beginIdleBaseCompaction =>
    exact (spares_withProjection r sparesSuffix_beginIdleBaseCompaction).trans
      (spares_operational _ rfl rfl (Nat.le_refl _))
  | prepareIdleBaseCompaction token settledMessages =>
    exact spares_withProjection r fun p =>
      sparesSuffix_prepareIdleBaseCompaction p token settledMessages
  | commitPreparedIdleBaseCompaction token =>
    exact spares_withProjection r fun p => sparesSuffix_commitPreparedIdleBaseCompaction p token
  | endIdleBaseCompaction =>
    exact spares_refreshed r rfl rfl (Nat.le_refl _)

/-! ## Events -/

theorem turnWithEvent_ok {p : SessionLiveProjection J T} {event : SessionEvent J T}
    {turnBudget : TurnBudget} (h : r.turnWithEvent p event = .ok turnBudget) :
    let reset := !r.operational.agentBusy && eventStartsWork event
    turnBudget.items = (if reset then 0 else r.turnBudget.items) + 1 ∧
      turnBudget.bytes = (if reset then 0 else r.turnBudget.bytes) +
        activeTurnEventBytes p event ∧
      turnBudget.items ≤ (activeTurnBudget p).1 ∧ turnBudget.bytes ≤ (activeTurnBudget p).2 := by
  unfold turnWithEvent at h
  dsimp only at h ⊢
  generalize (if (!r.operational.agentBusy && eventStartsWork event) = true then 0
    else r.turnBudget.items) + 1 = items at h ⊢
  generalize (if (!r.operational.agentBusy && eventStartsWork event) = true then 0
    else r.turnBudget.bytes) + activeTurnEventBytes p event = bytes at h ⊢
  split at h
  · cases h
  · rename_i hwithin
    cases h
    rw [not_or, Nat.not_lt, Nat.not_lt] at hwithin
    exact ⟨rfl, rfl, hwithin.1, hwithin.2⟩

/-- The part of a state that the headroom reads, with a new suffix and a new turn. -/
structure CommitsEvent (r committed : SessionRuntimeCore J T) (event : SessionEvent J T)
    (p q : SessionLiveProjection J T) (turnBudget : TurnBudget) : Prop where
  before : r.liveProjection = some p
  within : r.turnWithEvent p event = .ok turnBudget
  limits : p.SameLimits q
  after : committed.liveProjection = some q
  items : q.live.projectionEvents.length ≤ (p.suffixWithEvent p.live event).1
  bytes : q.live.projectionEventBytes ≤ (p.suffixWithEvent p.live event).2
  turnItems : committed.turnBudget.items = turnBudget.items
  turnBytes : committed.turnBudget.bytes = turnBudget.bytes
  operational : committed.operational = r.operational

theorem foldlM_single_event {p : SessionLiveProjection J T}
    {runtimePhase : Option SessionLiveRuntimePhase} {event : SessionEvent J T}
    {reduced : ProjectionCandidate J T}
    (h : [SessionLiveProjectionInput.event event].foldlM (p.reduceCandidate runtimePhase) p.live =
      .ok reduced) :
    reduced.asOfSeq = p.live.asOfSeq + 1 ∧
      (reduced.projectionEvents.length, reduced.projectionEventBytes) =
        p.suffixWithEvent p.live event := by
  have hstep : p.reduceCandidate runtimePhase p.live (.event event) = .ok reduced := by
    cases hresult : p.reduceCandidate runtimePhase p.live (.event event) with
    | error error => simp [List.foldlM_cons, hresult, bind, Except.bind] at h
    | ok next =>
      simpa [List.foldlM_cons, List.foldlM_nil, hresult, bind, Except.bind, pure,
        Except.pure] using h
  obtain ⟨branch, hbranch, rfl, -⟩ := reduceCandidate_ok hstep
  have hsuffix : (branch.projectionEvents.length, branch.projectionEventBytes) =
      p.suffixWithEvent p.live event := reduceEvent_suffix hbranch
  exact ⟨rfl, hsuffix⟩

/-- A published event is committed and applied, unless an error spares the suffix or ends the
generation. -/
theorem publishFrame_cases (r : SessionRuntimeCore J T) (event : SessionEvent J T) :
    r.Spares (publishFrame opts r event).1 ∨
      ∃ committed p q turnBudget, CommitsEvent r committed event p q turnBudget ∧
        (committed.applyEventState event).1.Spares (publishFrame opts r event).1 := by
  unfold publishFrame prepareActiveEventPublication
  cases hlive : r.liveProjection with
  | none => exact Or.inl (.refl r)
  | some p =>
    dsimp only
    cases hwithin : r.turnWithEvent p event with
    | error error =>
      exact Or.inl (Spares.andThen (spares_throwProjection r error) fun _ hok => by
        cases error <;> cases hok)
    | ok turnBudget =>
      dsimp only
      cases hprepare : p.prepareBatch r.identity [.event event] (some r.state) with
      | error error =>
        exact Or.inl (Spares.andThen (spares_throwProjection r error) fun _ hok => by
          cases error <;> cases hok)
      | ok result =>
        obtain ⟨prepared, token⟩ := result
        have hspares : r.Spares { r with liveProjection := some prepared } :=
          Or.inr (.of_eq (fun q hq =>
            ⟨p, hlive, by cases hq; exact sparesSuffix_prepareBatch hprepare⟩) rfl rfl)
        dsimp only
        split
        · rename_i error _
          exact Or.inl (Spares.andThen (hspares.trans (spares_throwProjection _ error))
            fun _ hok => by cases error <;> cases hok)
        split
        · exact Or.inl (Spares.andThen (hspares.trans (spares_throwProjection _ _))
            fun _ hok => by cases hok)
        rename_i logicalBytes _ _
        simp only [Result.andThen, commitActiveEventPublication]
        split
        · exact Or.inl hspares
        rename_i projection hfilter
        have hsame : prepared = projection := by
          have := Option.mem_filter_iff.mp hfilter
          simpa using this.1
        subst hsame
        obtain ⟨hlimits, hcommitted⟩ := commitPreparedBatch_of_prepareBatch hprepare
        cases hcommit : prepared.commitPreparedBatch token with
        | mk q seq =>
          rw [hcommit] at hlimits hcommitted
          rcases hcommitted with ⟨hnone, hlive'⟩ | ⟨hsome, hfold⟩
          · obtain rfl : seq = none := hnone
            have hkept : p.SparesSuffix q :=
              ⟨hlimits, Nat.le_of_eq (by rw [hlive']), Nat.le_of_eq (by rw [hlive'])⟩
            refine Or.inl (Or.inr (.of_eq ?_ rfl rfl))
            intro next hnext
            cases hnext
            exact ⟨p, hlive, hkept⟩
          · obtain rfl : seq = some q.live.asOfSeq := hsome
            obtain ⟨hseq, hsuffix⟩ := foldlM_single_event hfold
            have hitems := congrArg Prod.fst hsuffix
            have hbytes := congrArg Prod.snd hsuffix
            dsimp only at hseq ⊢
            rw [if_neg (not_not_intro hseq)]
            refine Or.inr ⟨_, p, q, turnBudget, ?_, .refl _⟩
            exact ⟨hlive, hwithin, hlimits, rfl, Nat.le_of_eq hitems, Nat.le_of_eq hbytes, rfl, rfl,
              rfl⟩

theorem publishFrame_spares_publishEvent (r : SessionRuntimeCore J T) (event : SessionEvent J T) :
    (publishFrame opts r event).1.Spares (publishEvent opts r event).1 := by
  unfold publishFrame publishEvent
  obtain ⟨r', error | prepared⟩ := prepareActiveEventPublication opts r event
  · exact .refl _
  · exact spares_terminalizeOnError (.refl _)

/-- What an event does to the counters and reservations: it leaves them alone, starts a turn at the
expense of a reservation, or settles the active one. -/
theorem applyEventState_cases (r : SessionRuntimeCore J T) (event : SessionEvent J T) :
    (∃ operational : OperationalState,
      operational.activeTurnHeadroomReserved = r.operational.activeTurnHeadroomReserved ∧
        (r.operational.agentBusy = true → operational.agentBusy = true) ∧
        operational.pendingTurnReservations.length ≤
          r.operational.pendingTurnReservations.length ∧
        (eventStartsWork event = true → r.operational.agentBusy = true) ∧
        { r with operational := operational }.Spares (r.applyEventState event).1) ∨
      (eventStartsWork event = true ∧ r.operational.agentBusy = false ∧
        { r with
          operational :=
            { r.operational with
              pendingTurnReservations := r.operational.pendingTurnReservations.tail
              activeTurnHeadroomReserved := true
              agentBusy := true } }.Spares (r.applyEventState event).1) ∨
      (∃ operational : OperationalState, eventStartsWork event = false ∧
        operational.activeTurnHeadroomReserved = false ∧
        operational.pendingTurnReservations.length ≤
          r.operational.pendingTurnReservations.length ∧
        { r with turnBudget := .zero, operational := operational }.Spares
          (r.applyEventState event).1) := by
  have hsame : r.applyEventState event = (r, .ok ()) → eventStartsWork event = false →
      ∃ operational : OperationalState,
        operational.activeTurnHeadroomReserved = r.operational.activeTurnHeadroomReserved ∧
          (r.operational.agentBusy = true → operational.agentBusy = true) ∧
          operational.pendingTurnReservations.length ≤
            r.operational.pendingTurnReservations.length ∧
          (eventStartsWork event = true → r.operational.agentBusy = true) ∧
          { r with operational := operational }.Spares (r.applyEventState event).1 := by
    intro heq hstarts
    refine ⟨r.operational, rfl, id, Nat.le_refl _, ?_, ?_⟩
    · intro htrue
      rw [hstarts] at htrue
      cases htrue
    · rw [heq]
      exact .refl r
  have hstart : eventStartsWork event = true → r.applyEventState event =
      { r with
        operational :=
          { (if r.operational.agentBusy then r.operational
            else
              { r.operational with
                pendingTurnReservations := r.operational.pendingTurnReservations.tail
                activeTurnHeadroomReserved := true }) with agentBusy := true } }.setState
        .running := by
    intro hstarts
    cases event <;> first | rfl | cases hstarts
  by_cases hstarts : eventStartsWork event = true
  · have heq := hstart hstarts
    by_cases hbusy : r.operational.agentBusy = true
    · refine Or.inl ⟨{ r.operational with agentBusy := true }, rfl, fun _ => rfl, Nat.le_refl _,
        fun _ => hbusy, ?_⟩
      rw [heq, if_pos hbusy]
      exact spares_setState _ _
    · refine Or.inr (Or.inl ⟨hstarts, by simpa using hbusy, ?_⟩)
      rw [heq, if_neg hbusy]
      exact spares_setState _ _
  · rw [Bool.not_eq_true] at hstarts
    have hnot : ¬ (eventStartsWork event = true) := by simp [hstarts]
    cases event with
    | queueUpdate steering followUp =>
      refine Or.inl ?_
      simp only [applyEventState, applyQueueUpdate]
      split
      · exact ⟨queueSettled (queueChanged r.operational (steering.length + followUp.length)), rfl,
          id, length_queueSettled_le _, fun htrue => absurd htrue hnot,
          spares_refreshOperationalState _⟩
      · exact ⟨queueChanged r.operational (steering.length + followUp.length), rfl, id,
          Nat.le_refl _, fun htrue => absurd htrue hnot, .refl _⟩
    | compactionStart reason =>
      exact Or.inl ⟨{ r.operational with compactionBusy := true }, rfl, id, Nat.le_refl _,
        fun htrue => absurd htrue hnot, spares_setState _ _⟩
    | compactionEnd hasResult aborted willRetry errorMessage =>
      refine Or.inl ⟨{ r.operational with
          compactionBusy := false
          agentBusy := r.operational.agentBusy || willRetry },
        rfl, ?_, Nat.le_refl _, fun htrue => absurd htrue hnot, spares_refreshOperationalState _⟩
      intro hbusy
      simp [hbusy]
    | agentSettled =>
      let operational :=
        { r.operational with agentBusy := false, activeTurnHeadroomReserved := false }
      refine Or.inr (Or.inr ⟨if operational.activeQueueDepth = 0 ∧
          0 < operational.queueReservationReleaseCutoff then queueSettled operational
        else operational, hstarts, ?_, ?_, spares_refreshOperationalState _⟩)
      · split <;> rfl
      · split
        · exact length_queueSettled_le _
        · exact Nat.le_refl _
    | _ => first | exact Or.inl (hsame rfl hstarts) | cases hstarts

theorem Accounted.applyEventState {codec : PayloadCodec J T} (h : Accounted codec r)
    (event : SessionEvent J T) : Accounted codec (r.applyEventState event).1 := by
  rcases applyEventState_cases r event with
    ⟨operational, hreserved, hbusy, _, _, hspares⟩ | ⟨_, _, hspares⟩ |
    ⟨operational, _, hreserved, _, hspares⟩
  · refine Accounted.spares ?_ hspares
    exact ⟨h.projection, fun htrue => hbusy (h.reserved (hreserved.symm.trans htrue))⟩
  · refine Accounted.spares ?_ hspares
    exact ⟨h.projection, fun _ => rfl⟩
  · refine Accounted.spares ?_ hspares
    refine ⟨h.projection, fun htrue => ?_⟩
    exact absurd (hreserved.symm.trans htrue) (by simp)

theorem Accounted.publishFrame {codec : PayloadCodec J T} (h : Accounted codec r)
    (event : SessionEvent J T) : Accounted codec (publishFrame opts r event).1 := by
  rcases publishFrame_cases opts r event with
    hspares | ⟨committed, p, q, turnBudget, hcommits, hspares⟩
  · exact h.spares hspares
  · have hcommitted : Accounted codec committed := by
      obtain ⟨hsized, hcodec⟩ := h.projection p hcommits.before
      refine ⟨?_, hcommits.operational ▸ h.reserved⟩
      intro next hnext
      rw [hcommits.after] at hnext
      cases hnext
      exact ⟨hcommits.limits.sized hsized, hcommits.limits.codec.trans hcodec⟩
    exact (hcommitted.applyEventState event).spares hspares

theorem Accounted.admitTurn {codec : PayloadCodec J T} (h : Accounted codec r)
    (command : String) : Accounted codec (r.admitTurn command).1 := by
  unfold SessionRuntimeCore.admitTurn
  split
  · exact h
  · dsimp only
    split
    · refine Accounted.spares ?_ (spares_setState _ _)
      exact ⟨h.projection, h.reserved⟩
    · exact ⟨h.projection, h.reserved⟩

theorem Accounted.turnStep {codec : PayloadCodec J T} (h : Accounted codec r)
    (action : TurnAction J T) : Accounted codec (turnStep opts r action) := by
  by_cases hevent : ∃ event, action = .publishEvent event
  · obtain ⟨event, rfl⟩ := hevent
    exact (h.publishFrame opts event).spares (publishFrame_spares_publishEvent opts r event)
  by_cases hadmission : ∃ command, action = .admitTurn command
  · obtain ⟨command, rfl⟩ := hadmission
    exact h.admitTurn command
  · exact h.spares (spares_takeTurnAction opts r (fun event heq => hevent ⟨event, heq⟩)
      fun command heq => hadmission ⟨command, heq⟩)

/-! ## Reserved headroom -/

theorem Charged.cases {codec : PayloadCodec J T} {event : SessionEvent J T}
    (h : r.Charged (.publishEvent event)) (haccounted : Accounted codec r) :
    (r.operational.activeTurnHeadroomReserved = true ∧ r.operational.agentBusy = true) ∨
      (r.operational.activeTurnHeadroomReserved = false ∧ r.operational.agentBusy = false ∧
        eventStartsWork event = true ∧
        ∃ first rest, r.operational.pendingTurnReservations = first :: rest) := by
  rcases h with hreserved | ⟨hbusy, hstarts, hpending⟩
  · exact Or.inl ⟨hreserved, haccounted.reserved hreserved⟩
  · refine Or.inr ⟨?_, hbusy, hstarts, List.exists_cons_of_ne_nil hpending⟩
    by_contra hreserved
    have := haccounted.reserved (by simpa using hreserved)
    rw [hbusy] at this
    cases this

/-- An event that is paid for and within the budget of its turn has room in the suffix, and the
room of the turn shrinks by no more than the event. -/
theorem Charged.room {codec : PayloadCodec J T} {event : SessionEvent J T}
    {p : SessionLiveProjection J T} {turnBudget : TurnBudget}
    (h : r.Charged (.publishEvent event)) (haccounted : Accounted codec r)
    (hheadroom : r.HasHeadroom) (hlive : r.liveProjection = some p)
    (hwithin : r.turnWithEvent p event = .ok turnBudget) :
    let spent := if r.operational.agentBusy then r.operational.pendingTurnReservations.length
      else r.operational.pendingTurnReservations.tail.length
    p.live.projectionEvents.length + 1 + spent * (activeTurnBudget p).1 +
        ((activeTurnBudget p).1 - turnBudget.items) ≤ p.limits.maxLiveEventItems ∧
      p.live.projectionEventBytes + activeTurnEventBytes p event +
          spent * (activeTurnBudget p).2 + ((activeTurnBudget p).2 - turnBudget.bytes) ≤
        p.maxLiveEventWireBytes := by
  have hcapacity := hasCapacity_iff.mp (hheadroom p hlive)
  have hturn := turnWithEvent_ok hwithin
  rcases h.cases haccounted with ⟨hreserved, hbusy⟩ | ⟨hreserved, hbusy, hstarts, first, rest, heq⟩
  · rw [hreserved] at hcapacity
    simp only [hbusy, Bool.not_true, Bool.false_and, Bool.false_eq_true, if_false, if_true]
      at hcapacity hturn ⊢
    omega
  · rw [hreserved, heq, List.length_cons, Nat.succ_mul, Nat.succ_mul] at hcapacity
    simp only [hbusy, hstarts, heq, Bool.not_false, Bool.and_self, Bool.false_eq_true, if_false,
      if_true, List.tail_cons] at hcapacity hturn ⊢
    omega

theorem HasHeadroom.publishFrame {codec : PayloadCodec J T} (hheadroom : r.HasHeadroom)
    (haccounted : Accounted codec r) (hjson : codec.RendersDeltas) {event : SessionEvent J T}
    (hcharged : r.Charged (.publishEvent event)) :
    (publishFrame opts r event).1.HasHeadroom := by
  rcases publishFrame_cases opts r event with
    hspares | ⟨committed, p, q, turnBudget, hcommits, hspares⟩
  · exact hheadroom.spares hspares
  refine HasHeadroom.spares ?_ hspares
  obtain ⟨hsized, hcodec⟩ := haccounted.projection p hcommits.before
  have hsuffix := suffixWithEvent_le (by rw [hcodec]; exact hjson) hsized.live event
  have hroom := hcharged.room haccounted hheadroom hcommits.before hcommits.within
  have hitems := hcommits.items
  have hbytes := hcommits.bytes
  have hbudget := hcommits.limits.activeTurnBudget
  have hwire := hcommits.limits.maxLiveEventWireBytes
  have hmax : q.limits.maxLiveEventItems = p.limits.maxLiveEventItems := by
    rw [hcommits.limits.limits]
  have hoperational := hcommits.operational
  rcases applyEventState_cases committed event with
    ⟨operational, hreserved, _, hpending, hstarts, happly⟩ | ⟨_, hidle, happly⟩ |
    ⟨operational, hstarts, hreserved, hpending, happly⟩
  · -- the counters go on: the event belongs to the active turn
    refine HasHeadroom.spares ?_ happly
    intro next hnext
    obtain rfl : q = next := Option.some.inj (hcommits.after.symm.trans hnext)
    rw [hoperational] at hreserved hpending hstarts
    rcases hcharged.cases haccounted with ⟨hactive, hbusy⟩ | ⟨_, hbusy, hnew, _⟩
    · rw [hbusy, if_pos rfl] at hroom
      have hitemsMul := Nat.mul_le_mul_right (activeTurnBudget p).1 hpending
      have hbytesMul := Nat.mul_le_mul_right (activeTurnBudget p).2 hpending
      rw [hasCapacity_iff, hbudget, hwire, hmax, hcommits.turnItems, hcommits.turnBytes]
      dsimp only
      rw [hreserved, hactive, if_pos rfl, if_pos rfl]
      omega
    · rw [hstarts hnew] at hbusy
      cases hbusy
  · -- a reservation becomes the active turn
    refine HasHeadroom.spares ?_ happly
    intro next hnext
    obtain rfl : q = next := Option.some.inj (hcommits.after.symm.trans hnext)
    rw [hoperational] at hidle
    rw [hidle] at hroom
    rw [hasCapacity_iff, hbudget, hwire, hmax, hcommits.turnItems, hcommits.turnBytes]
    dsimp only
    rw [if_pos rfl, if_pos rfl, hoperational]
    simp only [Bool.false_eq_true, if_false] at hroom
    omega
  · -- the active turn is settled
    refine HasHeadroom.spares ?_ happly
    intro next hnext
    obtain rfl : q = next := Option.some.inj (hcommits.after.symm.trans hnext)
    rw [hoperational] at hpending
    rcases hcharged.cases haccounted with ⟨_, hbusy⟩ | ⟨_, _, hnew, _⟩
    · rw [hbusy, if_pos rfl] at hroom
      have hitemsMul := Nat.mul_le_mul_right (activeTurnBudget p).1 hpending
      have hbytesMul := Nat.mul_le_mul_right (activeTurnBudget p).2 hpending
      rw [hasCapacity_iff, hbudget, hwire, hmax]
      dsimp only
      rw [hreserved]
      simp only [Bool.false_eq_true, if_false]
      omega
    · rw [hstarts] at hnew
      cases hnew

theorem ensureProjectionHeadroomForWork_ok {command : String}
    (h : r.ensureProjectionHeadroomForWork command = .ok ()) :
    ∃ p, r.liveProjection = some p ∧
      p.hasActiveTurnReservationCapacity (r.operational.pendingTurnReservations.length + 1)
        r.turnBudget.items r.turnBudget.bytes r.operational.activeTurnHeadroomReserved = true := by
  unfold ensureProjectionHeadroomForWork at h
  split at h
  · rename_i hany
    cases hlive : r.liveProjection with
    | none => simp [hlive] at hany
    | some p => exact ⟨p, rfl, by simpa [hlive] using hany⟩
  · cases h

theorem HasHeadroom.admitTurn {command : String}
    (h : r.ensureProjectionHeadroomForWork command = .ok ()) :
    (r.admitTurn command).1.HasHeadroom := by
  obtain ⟨p, hlive, hcapacity⟩ := ensureProjectionHeadroomForWork_ok h
  have hlength : (reservePendingTurn r.operational).pendingTurnReservations.length =
      r.operational.pendingTurnReservations.length + 1 := by
    simp [reservePendingTurn]
  unfold SessionRuntimeCore.admitTurn
  rw [h]
  dsimp only
  split
  · refine HasHeadroom.spares ?_ (spares_setState _ _)
    intro q hq
    obtain rfl : p = q := Option.some.inj (hlive.symm.trans hq)
    exact hasCapacity_mono hcapacity (.refl p) (Nat.le_of_eq hlength)
  · intro q hq
    obtain rfl : p = q := Option.some.inj (hlive.symm.trans hq)
    exact hasCapacity_mono hcapacity (.refl p)
      ((length_releasePendingTurn_le _ _).trans (Nat.le_of_eq hlength))

theorem admitTurn_rejected {command : String} {error : RuntimeError}
    (h : r.ensureProjectionHeadroomForWork command = .error error) :
    (r.admitTurn command).1 = r := by
  unfold SessionRuntimeCore.admitTurn
  rw [h]

theorem HasHeadroom.turnStep {codec : PayloadCodec J T} (hheadroom : r.HasHeadroom)
    (haccounted : Accounted codec r) (hjson : codec.RendersDeltas) {action : TurnAction J T}
    (hcharged : r.Charged action) : (turnStep opts r action).HasHeadroom := by
  by_cases hevent : ∃ event, action = .publishEvent event
  · obtain ⟨event, rfl⟩ := hevent
    exact (hheadroom.publishFrame opts haccounted hjson hcharged).spares
      (publishFrame_spares_publishEvent opts r event)
  by_cases hadmission : ∃ command, action = .admitTurn command
  · obtain ⟨command, rfl⟩ := hadmission
    change (r.admitTurn command).1.HasHeadroom
    cases hadmitted : r.ensureProjectionHeadroomForWork command with
    | error error =>
      rw [admitTurn_rejected hadmitted]
      exact hheadroom
    | ok => exact HasHeadroom.admitTurn hadmitted
  · exact hheadroom.spares (spares_takeTurnAction opts r (fun event heq => hevent ⟨event, heq⟩)
      fun command heq => hadmission ⟨command, heq⟩)

/-! ## The start of an incarnation -/

theorem Accounted.andThen {codec : PayloadCodec J T} {A B : Type} {result : Result J T A}
    {next : SessionRuntimeCore J T → A → Result J T B} (h : Accounted codec result.1)
    (hnext : ∀ r value, Accounted codec r → Accounted codec (next r value).1) :
    Accounted codec (result.andThen next).1 := by
  obtain ⟨r', error | value⟩ := result
  · exact h
  · exact hnext r' value h

theorem Accounted.flushFrames {codec : PayloadCodec J T} (frames : List (BufferedFrame J T))
    {r : SessionRuntimeCore J T} (h : Accounted codec r) :
    Accounted codec (flushFrames opts frames r).1 := by
  induction frames generalizing r with
  | nil => exact h
  | cons frame rest ih =>
    cases frame with
    | event event =>
      exact Accounted.andThen (h.publishFrame opts event) fun r _ hr => ih hr
    | extensionUiRequest request object =>
      exact Accounted.andThen (h.spares (spares_emitFrame opts r rfl fun _ => ⟨rfl, rfl, rfl⟩))
        fun r _ hr => ih hr
    | extensionUiClosed requestId reason =>
      exact Accounted.andThen (h.spares (spares_emitFrame opts r rfl fun _ => ⟨rfl, rfl, rfl⟩))
        fun r _ hr => ih hr

theorem Accounted.startIncarnation {settledMessages : List (SessionMessage J T)}
    {start : SessionRuntimeCore J T} (hidle : r.operational.activeTurnHeadroomReserved = false)
    (h : startIncarnation opts r settledMessages = (start, .ok ())) :
    Accounted opts.codec start := by
  have hstart : (SessionRuntimeCore.startIncarnation opts r settledMessages).1 = start := by rw [h]
  rw [← hstart]
  unfold SessionRuntimeCore.startIncarnation initializeProjectionBase
  cases hcreate : projectionBase opts r.identity settledMessages r.basePhase with
  | error error =>
    exfalso
    unfold SessionRuntimeCore.startIncarnation initializeProjectionBase at h
    rw [hcreate] at h
    cases error <;> cases h
  | ok p =>
    have hbase : Accounted opts.codec { r with liveProjection := some p } := by
      refine ⟨?_, fun hreserved => absurd (hidle.symm.trans hreserved) (by simp)⟩
      intro q hq
      cases hq
      exact ⟨Sized.create hcreate, (create_ok hcreate).2.2.2⟩
    refine hbase.spares (spares_setState _ _) |>.andThen fun r _ hr => ?_
    refine (hr.flushFrames opts _).andThen fun r _ hr => ?_
    have hemptied : Accounted opts.codec
        { r with startupFrames := [], startupFrameBytes := 0 } := ⟨hr.projection, hr.reserved⟩
    refine hemptied.spares (spares_setState _ _) |>.andThen fun r _ hr => ?_
    refine Accounted.andThen ?_ fun r _ hr => ⟨hr.projection, hr.reserved⟩
    unfold assertSnapshotFits
    split
    · exact hr
    · split
      · exact hr
      · exact hr.spares (spares_throwProjection _ _)

/-- **An admitted turn has its headroom.** In every run of an incarnation, from an admission on, as
long as every published event belongs to a turn with reserved headroom, an event of such a turn that
stays within the budget of the turn does not exceed the capacity of the live suffix: only the limits
of a single frame can still reject it as too large. -/
theorem turn_headroom_sound {settledMessages : List (SessionMessage J T)}
    {r start : SessionRuntimeCore J T} (hjson : opts.codec.RendersDeltas)
    (hidle : r.operational.activeTurnHeadroomReserved = false)
    (hstart : startIncarnation opts r settledMessages = (start, .ok ()))
    (before after : List (TurnAction J T)) (command : String)
    (hadmits : (runFrom (turnStep opts) start before).ensureProjectionHeadroomForWork command =
      .ok ())
    (hcharged : RunMeets (turnStep opts) Charged
      (runFrom (turnStep opts) start (before ++ [.admitTurn command])) after) :
    let s := runFrom (turnStep opts) start (before ++ [.admitTurn command] ++ after)
    ∀ p event turnBudget, s.liveProjection = some p → s.Charged (.publishEvent event) →
      s.turnWithEvent p event = .ok turnBudget →
        ¬ p.CapacityExceeded p.live event ∧
          (p.reduceEvent p.live event = .error (.limitExceeded .liveEvents) →
            p.assertFrameFits (p.nextFrame p.live event)
              (p.frameJson (p.nextFrame p.live event)).byteLength ≠ .ok ()) := by
  intro s p event turnBudget hlive hpaid hwithin
  have hbefore : Accounted opts.codec (runFrom (turnStep opts) start before) :=
    runFrom_invariant (fun s action hs => hs.turnStep opts action) before
      (Accounted.startIncarnation opts hidle hstart)
  have hadmitted : Accounted opts.codec
      (runFrom (turnStep opts) start (before ++ [.admitTurn command])) ∧
      (runFrom (turnStep opts) start (before ++ [.admitTurn command])).HasHeadroom := by
    rw [runFrom_append]
    exact ⟨hbefore.turnStep opts _, HasHeadroom.admitTurn hadmits⟩
  obtain ⟨haccounted, hheadroom⟩ : Accounted opts.codec s ∧ s.HasHeadroom := by
    change Accounted opts.codec (runFrom _ start (before ++ [.admitTurn command] ++ after)) ∧
      (runFrom _ start (before ++ [.admitTurn command] ++ after)).HasHeadroom
    rw [runFrom_append]
    refine RunMeets.invariant (I := fun s => Accounted opts.codec s ∧ s.HasHeadroom)
      (fun s action hcharged hs => ?_) hcharged hadmitted
    exact ⟨hs.1.turnStep opts action, hs.2.turnStep opts hs.1 hjson hcharged⟩
  obtain ⟨hsized, hcodec⟩ := haccounted.projection p hlive
  have hroom := hpaid.room haccounted hheadroom hlive hwithin
  have hsuffix := suffixWithEvent_le (by rw [hcodec]; exact hjson) hsized.live event
  have hcapacity : ¬ p.CapacityExceeded p.live event := by
    unfold CapacityExceeded
    omega
  exact ⟨hcapacity, fun herror =>
    (capacityExceeded_of_reduceEvent herror).resolve_right hcapacity⟩

/-! ## Evaluated runs -/

/-- The codec of the evaluated runs: only deltas are rendered. -/
def sampleTurnCodec : PayloadCodec Json Json where
  guardMessage _ := true
  guardEvent _ := true
  guardExtensionRequest _ := true
  messageJson _ := .null
  eventJson
    | .messageUpdate { assistantMessageEvent := .delta _ _ delta, .. } =>
      .obj [strField "type" (js "message_update"),
        (js "assistantMessageEvent", .obj [(js "delta", .str delta)])]
    | _ => .null
  extensionRequestJson _ := .null

/-- The options of the evaluated runs, with room for six events. -/
def sampleTurnOptions (maxSnapshotBytes : ℕ) : SessionRuntimeOptions Json Json where
  codec := sampleTurnCodec
  schema :=
    { serverEpoch := none, maxNormalizedEventWireBytes := 4096
      maxProjectionSuffixWireBytes := 4096, maxSnapshotCanonicalWireBytes := 4096
      maxActiveTurnLogicalBytes := 4096, activeTurnEventLogicalBytes := fun _ => some 1
      extensionRequestLogicalBytes := fun _ => some 1 }
  projectionLimits :=
    { maxSettledMessageItems := 8, maxSettledMessageBytes := 4096, maxLiveEventItems := 6
      maxLiveEventBytes := 4096, maxQueueItems := 8, maxExtensionItems := 8
      maxExtensionBytes := 4096, maxSnapshotBytes := maxSnapshotBytes }
  replayLimit := 8
  replayMaxBytes := 4096
  transientBufferMaxBytes := 4096
  extensionStateMaxBytes := 4096
  extensionStateMaxItems := 8
  pendingDialogLimit := 8
  maxReplayFrameWireBytes := 4096
  maxSnapshotLogicalBytes := 4096
  snapshotFits _ _ := true
  emptyText := .null

/-- A process that has just been spawned. -/
def sampleSpawned : SessionRuntimeCore Json Json :=
  { initial sampleIdentity with proc := some 0, leaderRunning := true, contentOwner := some 1 }

/-- The runtime of an evaluated run. -/
def sampleTurnRun (maxSnapshotBytes : ℕ) (actions : List (TurnAction Json Json)) :
    SessionRuntimeCore Json Json :=
  runFrom (turnStep (sampleTurnOptions maxSnapshotBytes))
    (startIncarnation (sampleTurnOptions maxSnapshotBytes) sampleSpawned []).1 actions

/-- A turn that was settled before the admission. -/
def sampleSettledTurn : List (TurnAction Json Json) :=
  [.publishEvent .agentStart, .publishEvent .agentSettled]

/-- The end of a turn. -/
def sampleTurnEnd : SessionEvent Json Json := .turnEnd (.other (js "custom") []) []

/-- The first events of the admitted turn. -/
def sampleTurn : List (TurnAction Json Json) :=
  [.publishEvent .agentStart, .publishEvent (sampleDelta "He")]

/-- The error of an operation, if it throws. -/
def thrown {A : Type} : Except SessionLiveProjectionError A → Option SessionLiveProjectionError
  | .error error => some error
  | .ok _ => none

theorem eq_error_of_thrown {A : Type} {result : Except SessionLiveProjectionError A}
    {error : SessionLiveProjectionError} (h : thrown result = some error) :
    result = .error error := by
  cases result with
  | error other => rw [Option.some.inj h]
  | ok value => cases h

theorem eq_ok_of_thrown {A : Type} {result : Except SessionLiveProjectionError A}
    (h : thrown result = none) : ∃ value, result = .ok value := by
  cases result with
  | error other => cases h
  | ok value => exact ⟨value, rfl⟩

theorem sampleTurnCodec_rendersDeltas : sampleTurnCodec.RendersDeltas :=
  fun _ _ _ => ⟨[strField "type" (js "message_update")], [], [], [], fun _ => rfl⟩

/-- A turn of two events, started after a settled one, has room for its third. -/
theorem turn_headroom_sound_third_event :
    ∃ start p,
      startIncarnation (sampleTurnOptions 4096) sampleSpawned [] = (start, .ok ()) ∧
      (runFrom (turnStep (sampleTurnOptions 4096)) start
        (sampleSettledTurn ++ [.admitTurn "prompt"] ++ sampleTurn)).liveProjection = some p ∧
      p.live.projectionEvents.length = 4 ∧
      ¬ p.CapacityExceeded p.live (sampleDelta "llo") := by
  have hok : (startIncarnation (sampleTurnOptions 4096) sampleSpawned []).2 = .ok () := by
    decide +kernel
  have hadmits : (runFrom (turnStep (sampleTurnOptions 4096))
      (startIncarnation (sampleTurnOptions 4096) sampleSpawned []).1
        sampleSettledTurn).ensureProjectionHeadroomForWork "prompt" = .ok () := by
    decide +kernel
  have hcharged : RunMeets (turnStep (sampleTurnOptions 4096)) Charged
      (runFrom (turnStep (sampleTurnOptions 4096))
        (startIncarnation (sampleTurnOptions 4096) sampleSpawned []).1
          (sampleSettledTurn ++ [.admitTurn "prompt"])) sampleTurn := by
    decide +kernel
  have hlast : (runFrom (turnStep (sampleTurnOptions 4096))
        (startIncarnation (sampleTurnOptions 4096) sampleSpawned []).1
          (sampleSettledTurn ++ [.admitTurn "prompt"] ++ sampleTurn)).Charged
            (.publishEvent (sampleDelta "llo")) ∧
      ((runFrom (turnStep (sampleTurnOptions 4096))
        (startIncarnation (sampleTurnOptions 4096) sampleSpawned []).1
          (sampleSettledTurn ++ [.admitTurn "prompt"] ++ sampleTurn)).liveProjection.map fun p =>
            (p.live.projectionEvents.length,
              thrown ((runFrom (turnStep (sampleTurnOptions 4096))
                (startIncarnation (sampleTurnOptions 4096) sampleSpawned []).1
                  (sampleSettledTurn ++ [.admitTurn "prompt"] ++ sampleTurn)).turnWithEvent p
                    (sampleDelta "llo")))) = some (4, none) := by
    decide +kernel
  generalize hresult : startIncarnation (sampleTurnOptions 4096) sampleSpawned [] = result
    at hok hadmits hcharged hlast ⊢
  obtain ⟨hpaid, hstate⟩ := hlast
  obtain ⟨start, value⟩ := result
  obtain rfl : value = .ok () := hok
  obtain ⟨p, hlive, hp⟩ := Option.map_eq_some_iff.mp hstate
  obtain ⟨hlength, hthrown⟩ := Prod.mk.inj hp
  obtain ⟨turnBudget, hwithin⟩ := eq_ok_of_thrown hthrown
  exact ⟨start, p, rfl, hlive, hlength,
    (turn_headroom_sound (sampleTurnOptions 4096) sampleTurnCodec_rendersDeltas rfl hresult
      sampleSettledTurn sampleTurn "prompt" hadmits hcharged p (sampleDelta "llo") turnBudget hlive
      hpaid hwithin).1⟩

/-- Events that are published before the admitted turn starts are charged to no turn: the suffix is
full before the turn has used its budget. And an event within its budget and within the capacity of
the suffix may be too large for the snapshot, in which nothing is reserved. -/
theorem not_turn_headroom_sound_unpaid :
    ((startIncarnation (sampleTurnOptions 4096) sampleSpawned []).2 = .ok () ∧
      (sampleTurnRun 4096 sampleSettledTurn).ensureProjectionHeadroomForWork "prompt" = .ok () ∧
      ∃ p, (sampleTurnRun 4096 (sampleSettledTurn ++ [.admitTurn "prompt",
          .publishEvent (.thinkingLevelChanged []), .publishEvent (.queueUpdate [] []),
          .publishEvent .agentStart, .publishEvent .turnStart])).liveProjection = some p ∧
        thrown ((sampleTurnRun 4096 (sampleSettledTurn ++ [.admitTurn "prompt",
          .publishEvent (.thinkingLevelChanged []), .publishEvent (.queueUpdate [] []),
          .publishEvent .agentStart, .publishEvent .turnStart])).turnWithEvent p
            sampleTurnEnd) = none ∧
        p.CapacityExceeded p.live sampleTurnEnd ∧
        p.prepareBatch sampleIdentity [.event sampleTurnEnd] none =
          .error (.limitExceeded .liveEvents)) ∧
    ((startIncarnation (sampleTurnOptions 500) sampleSpawned []).2 = .ok () ∧
      (sampleTurnRun 500 []).ensureProjectionHeadroomForWork "prompt" = .ok () ∧
      ∃ p, (sampleTurnRun 500 [.admitTurn "prompt", .publishEvent .agentStart,
          .publishEvent .turnStart]).liveProjection = some p ∧
        thrown ((sampleTurnRun 500 [.admitTurn "prompt", .publishEvent .agentStart,
          .publishEvent .turnStart]).turnWithEvent p sampleTurnEnd) = none ∧
        ¬ p.CapacityExceeded p.live sampleTurnEnd ∧
        p.prepareBatch sampleIdentity [.event sampleTurnEnd] none =
          .error (.limitExceeded .snapshot)) := by
  refine ⟨⟨by decide +kernel, by decide +kernel, ?_⟩, by decide +kernel, by decide +kernel, ?_⟩
  · have hstate : ((sampleTurnRun 4096 (sampleSettledTurn ++ [.admitTurn "prompt",
        .publishEvent (.thinkingLevelChanged []), .publishEvent (.queueUpdate [] []),
        .publishEvent .agentStart, .publishEvent .turnStart])).liveProjection.map fun p =>
          (thrown ((sampleTurnRun 4096 (sampleSettledTurn ++ [.admitTurn "prompt",
            .publishEvent (.thinkingLevelChanged []), .publishEvent (.queueUpdate [] []),
            .publishEvent .agentStart, .publishEvent .turnStart])).turnWithEvent p sampleTurnEnd),
            decide (p.CapacityExceeded p.live sampleTurnEnd),
            thrown (p.prepareBatch sampleIdentity [.event sampleTurnEnd] none))) =
        some (none, true, some (.limitExceeded .liveEvents)) := by
      decide +kernel
    obtain ⟨p, hlive, hp⟩ := Option.map_eq_some_iff.mp hstate
    obtain ⟨hwithin, hp⟩ := Prod.mk.inj hp
    obtain ⟨hcapacity, hthrown⟩ := Prod.mk.inj hp
    exact ⟨p, hlive, hwithin, of_decide_eq_true hcapacity, eq_error_of_thrown hthrown⟩
  · have hstate : ((sampleTurnRun 500 [.admitTurn "prompt", .publishEvent .agentStart,
        .publishEvent .turnStart]).liveProjection.map fun p =>
          (thrown ((sampleTurnRun 500 [.admitTurn "prompt", .publishEvent .agentStart,
            .publishEvent .turnStart]).turnWithEvent p sampleTurnEnd),
            decide (p.CapacityExceeded p.live sampleTurnEnd),
            thrown (p.prepareBatch sampleIdentity [.event sampleTurnEnd] none))) =
        some (none, false, some (.limitExceeded .snapshot)) := by
      decide +kernel
    obtain ⟨p, hlive, hp⟩ := Option.map_eq_some_iff.mp hstate
    obtain ⟨hwithin, hp⟩ := Prod.mk.inj hp
    obtain ⟨hcapacity, hthrown⟩ := Prod.mk.inj hp
    exact ⟨p, hlive, hwithin, of_decide_eq_false hcapacity, eq_error_of_thrown hthrown⟩

end SessionRuntimeCore

end PiAgentWeb
