import PiAgentWeb.Server.PublishedFrames

/-!
# A transition batch and single publications

The frames that were staged during an identity transition are committed as one batch, on copies of
the replay ring, the Extension state and the turn counters. The batch leaves what the frames leave
when they are published one at a time. A batch that throws leaves the runtime as it was, or gives
the generation up.
-/

namespace PiAgentWeb

namespace SessionRuntimeCore

variable {J T : Type} (opts : SessionRuntimeOptions J T) {r r' r'' : SessionRuntimeCore J T}

/-! ## Published frames -/

/-- The frames have been emitted one after another. -/
structure Emitted (r r' : SessionRuntimeCore J T) (p q : SessionLiveProjection J T)
    (frames : List (BufferedFrame J T)) : Prop where
  before : r.liveProjection = some p
  after : r'.liveProjection = some q
  content : q.content = p.publishing (frames.map (·.input))
  identity : r'.identity = r.identity
  ring : (r'.replay, r'.lastTransientSeq) =
    keepAll opts (envelopesFrom r.identity (p.live.asOfSeq + 1) frames) r.replay r.lastTransientSeq
  lastSeq : r'.lastSeq = if frames.isEmpty then r.lastSeq else q.live.asOfSeq
  published : r'.published =
    r.published ++ envelopesFrom r.identity (p.live.asOfSeq + 1) frames

variable {opts} {p q s : SessionLiveProjection J T}

theorem Emitted.refl (h : r.liveProjection = some p) : r.Emitted opts r p p [] where
  before := h
  after := h
  content := rfl
  identity := rfl
  ring := rfl
  lastSeq := rfl
  published := (List.append_nil _).symm

theorem Emitted.trans {first second : List (BufferedFrame J T)}
    (h : r.Emitted opts r' p q first) (h' : r'.Emitted opts r'' q s second) :
    r.Emitted opts r'' p s (first ++ second) := by
  have hseq := SessionLiveProjection.asOfSeq_of_publishing h.content
  rw [List.length_map] at hseq
  have hfirst : q.live.asOfSeq + 1 = p.live.asOfSeq + 1 + first.length := by omega
  have hring := h'.ring
  have hpublished := h'.published
  rw [h.identity, hfirst] at hring hpublished
  refine ⟨h.before, h'.after, ?_, h'.identity.trans h.identity, ?_, ?_, ?_⟩
  · rw [h'.content, SessionLiveProjection.publishing_append h.content, List.map_append]
  · rw [hring, envelopesFrom_append, keepAll_append, ← h.ring]
  · rw [h'.lastSeq, h.lastSeq]
    cases second with
    | nil =>
      have hsame : s.live.asOfSeq = q.live.asOfSeq :=
        SessionLiveProjection.asOfSeq_of_publishing h'.content
      rw [List.append_nil, hsame]
      rfl
    | cons frame rest =>
      have hnil : (first ++ frame :: rest).isEmpty = false := by simp
      rw [hnil]
      rfl
  · rw [hpublished, h.published, envelopesFrom_append, List.append_assoc]

variable {frames : List (BufferedFrame J T)}

theorem Emitted.rests (h : r.Emitted opts r' p q frames)
    (hrests : r'.Rests r'') : ∃ s, r.Emitted opts r'' p s frames := by
  have hprojection := hrests.projection
  rw [h.after, Option.map_some] at hprojection
  obtain ⟨s, hs, hcontent⟩ := Option.map_eq_some_iff.mp hprojection
  have hcontent' : s.content = p.publishing (frames.map (·.input)) := hcontent.trans h.content
  have hseq : s.live.asOfSeq = q.live.asOfSeq :=
    congrArg (·.live.asOfSeq) (hcontent : s.content = q.content)
  refine ⟨s, h.before, hs, hcontent', hrests.identity.trans h.identity, ?_, ?_, ?_⟩
  · rw [hrests.replay, hrests.lastTransientSeq, h.ring]
  · rw [hrests.lastSeq, h.lastSeq, hseq]
  · rw [hrests.published, h.published]

variable (opts) in
/-- The frames have been published one after another. -/
structure Published (r r' : SessionRuntimeCore J T) (p q : SessionLiveProjection J T)
    (frames : List (BufferedFrame J T)) : Prop extends r.Emitted opts r' p q frames where
  counters : r'.turnCounters = frames.foldl (countFrame opts) r.turnCounters
  bytes : r'.turnBytes = countBytesFrom p 1 (p.live.asOfSeq + 1) frames r.turnBytes
  dialogs : r'.extension.pendingDialogs = r.extension.pendingDialogs
  work : r.extension.pendingDialogs.entries = [] → r'.workOf = frames.foldl workAfter r.workOf
  phase : r.extension.pendingDialogs.entries = [] →
    q.live.runtimePhase = if frames.isEmpty then p.live.runtimePhase else r'.state

theorem Published.refl (h : r.liveProjection = some p) : r.Published opts r p p [] where
  toEmitted := .refl h
  counters := rfl
  bytes := rfl
  dialogs := rfl
  work := fun _ => rfl
  phase := fun _ => rfl

theorem Published.trans {first second : List (BufferedFrame J T)}
    (h : r.Published opts r' p q first) (h' : r'.Published opts r'' q s second) :
    r.Published opts r'' p s (first ++ second) := by
  have hseq := SessionLiveProjection.asOfSeq_of_publishing h.content
  rw [List.length_map] at hseq
  refine ⟨h.toEmitted.trans h'.toEmitted, ?_, ?_, h'.dialogs.trans h.dialogs, ?_, ?_⟩
  · rw [h'.counters, h.counters, List.foldl_append]
  · have hidentity : q.identity = p.identity := congrArg (·.identity) h.content
    have hcodec : q.codec = p.codec := congrArg (·.codec) h.content
    rw [h'.bytes, h.bytes, countBytesFrom_append, countBytesFrom_congr hidentity hcodec, hseq,
      show p.live.asOfSeq + first.length + 1 = p.live.asOfSeq + 1 + first.length by omega]
  · intro hdialogs
    rw [h'.work (h.dialogs ▸ hdialogs), h.work hdialogs, List.foldl_append]
  · intro hdialogs
    rw [h'.phase (h.dialogs ▸ hdialogs), h.phase hdialogs]
    cases second with
    | nil =>
      have hstate : r''.state = r'.state :=
        congrArg (·.state) (h'.work (h.dialogs ▸ hdialogs))
      rw [List.append_nil, hstate]
      rfl
    | cons frame rest =>
      have hnil : (first ++ frame :: rest).isEmpty = false := by simp
      rw [hnil]
      rfl

theorem emitFrame_published {frame : BufferedFrame J T} (hframe : frameEvents [frame] = [])
    (h : emitFrame opts r frame id = (r', .ok ())) :
    ∃ p q, r.Published opts r' p q [frame] ∧ r'.extension = r.extension ∧
      r'.nextObject = r.nextObject := by
  cases frame with
  | event event => cases hframe
  | _ =>
    unfold emitFrame at h
    split at h
    · cases h
    rename_i projection hlive
    dsimp only at h
    split at h
    · rename_i error _
      cases error <;> cases h
    rename_i prepared token hprepare
    split at h
    · cases h
    rename_i next seq hcommit
    obtain ⟨hcontent, rfl⟩ :=
      SessionLiveProjection.commitPreparedBatch_publishing hprepare hcommit
    have hseq := SessionLiveProjection.asOfSeq_of_publishing hcontent
    cases h
    refine ⟨projection, next, ⟨⟨hlive, rfl, hcontent, rfl, ?_, rfl, ?_⟩, rfl, rfl, rfl,
      fun _ => rfl, fun _ => SessionLiveProjection.commitPreparedBatch_phase hprepare hcommit⟩,
      rfl, rfl⟩
    · rw [hseq]
      rfl
    · rw [hseq]
      rfl

theorem publishFrame_published {event : SessionEvent J T}
    (h : publishFrame opts r event = (r', .ok ())) :
    ∃ p q, r.Published opts r' p q [.event event] ∧ r'.extension = r.extension ∧
      r'.nextObject = r.nextObject := by
  unfold publishFrame prepareActiveEventPublication at h
  split at h
  · cases h
  rename_i projection hlive
  cases hwithin : r.turnWithEvent projection event with
  | error error =>
    rw [hwithin] at h
    cases error <;> cases h
  | ok turnBudget =>
    rw [hwithin] at h
    dsimp only at h
    cases hprepare : projection.prepareBatch r.identity [.event event] (some r.state) with
    | error error =>
      rw [hprepare] at h
      cases error <;> cases h
    | ok result =>
      obtain ⟨prepared, token⟩ := result
      rw [hprepare] at h
      dsimp only at h
      cases hlogical : turnLogicalBytes opts r event with
      | error error =>
        have hlogical' : turnLogicalBytes opts { r with liveProjection := some prepared } event =
            .error error := hlogical
        rw [hlogical'] at h
        cases error <;> cases h
      | ok logicalBytes =>
        have hlogical' : turnLogicalBytes opts { r with liveProjection := some prepared } event =
            .ok logicalBytes := hlogical
        rw [hlogical'] at h
        dsimp only at h
        split at h
        · cases h
        simp only [Result.andThen, commitActiveEventPublication] at h
        split at h
        · cases h
        rename_i live hfilter
        have hsame : prepared = live := by
          have := Option.mem_filter_iff.mp hfilter
          simpa using this.1
        subst hsame
        split at h
        · cases h
        rename_i next seq hcommit
        obtain ⟨hcontent, rfl⟩ :=
          SessionLiveProjection.commitPreparedBatch_publishing hprepare hcommit
        have hseq := SessionLiveProjection.asOfSeq_of_publishing hcontent
        split at h
        · cases h
        have hcommitted : r.Emitted opts
            { r with
              liveProjection := some next
              turnBudget := { turnBudget with logicalBytes := logicalBytes }
              replay := (keep opts [⟨.event event, r.identity, projection.live.asOfSeq + 1⟩]
                r.replay r.lastTransientSeq).1
              lastSeq := next.live.asOfSeq
              published :=
                r.published ++ [⟨.event event, r.identity, projection.live.asOfSeq + 1⟩] }
            projection next [.event event] :=
          ⟨hlive, rfl, hcontent, rfl, rfl, rfl, rfl⟩
        obtain ⟨hrests, hbusy, hturn⟩ := applyEventState_rests h
        obtain ⟨s, hemitted⟩ := hcommitted.rests hrests
        have hextension : r'.extension = r.extension := hrests.extension
        have hcounters := turnCounters_event hwithin hlogical hbusy hturn
        have hbytes := turnBytes_event hwithin hbusy hturn
        have hdialogs : r'.extension.pendingDialogs = r.extension.pendingDialogs := by
          rw [hextension]
        refine ⟨projection, s, ⟨hemitted, hcounters, hbytes, hdialogs, ?_, ?_⟩, hextension,
          hrests.nextObject⟩
        · intro hdialogs
          exact (applyEventState_work (by exact hdialogs) h).1
        · intro hdialogs
          refine (applyEventState_work (by exact hdialogs) h).2 ?_ s hemitted.after
          rintro q ⟨⟩
          exact SessionLiveProjection.commitPreparedBatch_phase hprepare hcommit

/-- The projection is that of the runtime's identity. -/
def Aligned (r : SessionRuntimeCore J T) : Prop :=
  ∀ p, r.liveProjection = some p → p.identity = r.identity

variable {plan : ExtensionSemanticPlan J T}

theorem semanticOperation_emitted {processToken : ℕ}
    (h : ((prepareExtensionSemanticOperation opts r processToken plan).andThen fun r prepared =>
      r.commitExtensionSemanticOperation prepared) = (r', .ok ())) :
    ∃ p q, r.Emitted opts r' p q plan.frames ∧ r'.extension = plan.extension ∧
      r'.nextObject = r.nextObject ∧ r'.turnCounters = r.turnCounters ∧
      r'.turnBytes = r.turnBytes ∧
      (plan.extension.pendingDialogs.entries = [] →
        r'.workOf = r.workOf ∧ q.live.runtimePhase = r'.state) ∧
      r'.startupReady = r.startupReady ∧ r'.Aligned := by
  unfold prepareExtensionSemanticOperation at h
  split at h
  · cases h
  rename_i projection hlive
  cases hprepare : projection.prepareBatch r.identity (plan.frames.map (·.input))
      (some r.state) with
  | error error =>
    rw [hprepare] at h
    cases error <;> cases h
  | ok result =>
    obtain ⟨prepared, token⟩ := result
    rw [hprepare] at h
    dsimp only at h
    split at h
    · simp only [Result.andThen, commitExtensionSemanticOperation] at h
      split at h
      · cases h
      split at h
      · cases h
      rename_i next seq hcommit
      obtain ⟨hcontent, rfl⟩ :=
        SessionLiveProjection.commitPreparedBatch_publishing hprepare hcommit
      cases h
      have hframes : plan.frames ≠ [] :=
        fun hnil => SessionLiveProjection.prepareBatch_inputs hprepare (by rw [hnil]; rfl)
      have haligned : next.identity = r.identity := by
        have hidentity : next.identity = projection.identity := congrArg (·.identity) hcontent
        rw [hidentity, SessionLiveProjection.prepareBatch_identity hprepare]
      have hphase : next.live.runtimePhase = r.state :=
        SessionLiveProjection.commitPreparedBatch_phase hprepare hcommit
      refine ⟨projection, next, ⟨hlive, rfl, hcontent, rfl, ?_, ?_, rfl⟩, rfl, rfl, rfl, rfl, ?_,
        rfl, ?_⟩
      · obtain ⟨frame, rest, hcons⟩ := List.exists_cons_of_ne_nil hframes
        rw [hcons]
        rfl
      · exact (if_neg (mt List.isEmpty_iff.mp hframes)).symm
      · intro hdialogs
        simp only [hdialogs, List.isEmpty_nil, Bool.not_true, Bool.false_eq_true, if_false]
        exact ⟨rfl, hphase⟩
      · rintro _ ⟨⟩
        exact haligned
    · cases h

/-! ## Single publications -/

variable (opts)

/-- A staged frame is published on its own, as outside a transition: an event, the frames of a
request, or a dialog that is still open. -/
def publishStagedFrame (r : SessionRuntimeCore J T) (frame : BufferedFrame J T) :
    Result J T Unit :=
  match frame with
  | .event event => publishFrame opts r event
  | .extensionUiRequest request object =>
    if request.body.blocking then
      if (r.extension.pendingDialogs.get? request.id).any (·.object = object) then
        (emitFrame opts r frame id).andThen fun r _ => r.applyFrameState frame
      else (r, .ok ())
    else
      match planExtensionRequestSemanticMutation opts request object true r.extension
        r.nextObject with
      | .error error => (r, .error error)
      | .ok (plan, nextObject) =>
        (prepareExtensionSemanticOperation opts { r with nextObject := nextObject } r.processToken
          plan).andThen fun r prepared => r.commitExtensionSemanticOperation prepared
  | .extensionUiClosed _ _ => emitFrame opts r frame id

/-- The staged frames are published one at a time. -/
def publishStagedFrames : List (BufferedFrame J T) → SessionRuntimeCore J T → Result J T Unit
  | [], r => (r, .ok ())
  | frame :: rest, r =>
    (publishStagedFrame opts r frame).andThen fun r _ => publishStagedFrames rest r

variable {opts} {request : ExtensionUiRequest J T} {nextObject nextObject' : ℕ}

theorem evictSticky_pendingDialogs {key : JsString} (fuel : ℕ)
    {extension extension' : ExtensionState J T}
    (h : evictSticky opts key request fuel extension nextObject =
      .ok (extension', frames, nextObject')) :
    extension'.pendingDialogs = extension.pendingDialogs := by
  induction fuel generalizing extension nextObject frames extension' nextObject' with
  | zero =>
    cases h
    rfl
  | succ fuel ih =>
    unfold evictSticky at h
    split at h
    · cases h
      rfl
    · split at h
      · cases h
        rfl
      · split at h
        · cases h
        · split at h
          · cases h
          · rename_i hlater
            cases h
            have hdialogs := ih hlater
            exact hdialogs

theorem planExtensionRequest_pendingDialogs {object : ℕ}
    {publishReplacedClose : Bool} {extension : ExtensionState J T}
    (hrequest : request.body.blocking = false)
    (h : planExtensionRequestSemanticMutation opts request object publishReplacedClose extension
      nextObject = .ok (plan, nextObject')) :
    plan.extension.pendingDialogs = extension.pendingDialogs := by
  unfold planExtensionRequestSemanticMutation at h
  dsimp only at h
  rw [if_neg (by simp [hrequest])] at h
  split at h
  · split at h
    · cases h
      rfl
    · split at h
      · cases h
      · rename_i extension' frames nextObject'' hevict
        have hdialogs := evictSticky_pendingDialogs _ hevict
        split at h
        · cases h
          exact hdialogs
        · split at h
          · cases h
          · cases h
            exact hdialogs
  · cases h
    rfl

theorem andThen_ok {A B : Type} {result : Result J T A}
    {next : SessionRuntimeCore J T → A → Result J T B} {value : B}
    (h : result.andThen next = (r', .ok value)) :
    ∃ r₁ value₁, result = (r₁, .ok value₁) ∧ next r₁ value₁ = (r', .ok value) := by
  obtain ⟨r₁, error | value₁⟩ := result
  · cases h
  · exact ⟨r₁, value₁, rfl, h⟩

theorem planExtensionRequest_frames {object : ℕ}
    {publishReplacedClose : Bool} {extension : ExtensionState J T}
    (h : planExtensionRequestSemanticMutation opts request object publishReplacedClose extension
      nextObject = .ok (plan, nextObject')) : plan.frames ≠ [] := by
  unfold planExtensionRequestSemanticMutation at h
  dsimp only at h
  repeat' split at h
  all_goals cases h
  all_goals simp

/-- The frames of a request that is no dialog are published one after another. -/
theorem request_published {object nextObject : ℕ} (hblocking : request.body.blocking = false)
    (hplan : planExtensionRequestSemanticMutation opts request object true r.extension
      r.nextObject = .ok (plan, nextObject))
    (hlive : r.liveProjection = some p)
    (h : ((prepareExtensionSemanticOperation opts { r with nextObject := nextObject }
      r.processToken plan).andThen fun r prepared =>
        r.commitExtensionSemanticOperation prepared) = (r', .ok ())) :
    ∃ q, r.Published opts r' p q plan.frames ∧ r'.extension = plan.extension ∧
      r'.nextObject = nextObject := by
  obtain ⟨p', q, hemitted, hextension, hobject, hcounters, hbytes, hidle, -⟩ :=
    semanticOperation_emitted h
  have hdialogs := planExtensionRequest_pendingDialogs hblocking hplan
  obtain rfl : p = p' := Option.some.inj (hlive.symm.trans hemitted.before)
  have hevents := planExtensionRequest_events opts hplan
  refine ⟨q, ⟨⟨hlive, hemitted.after, hemitted.content, hemitted.identity, hemitted.ring,
    hemitted.lastSeq, hemitted.published⟩, ?_, ?_, ?_, fun hnil => ?_, fun hnil => ?_⟩,
    hextension, hobject⟩
  · rw [foldl_of_no_events (fun _ _ _ => rfl) (fun _ _ _ => rfl) hevents]
    exact hcounters
  · rw [countBytesFrom_of_no_events hevents]
    exact hbytes
  · rw [hextension, hdialogs]
  · rw [foldl_of_no_events (fun _ _ _ => rfl) (fun _ _ _ => rfl) hevents]
    exact (hidle (by rw [hdialogs, hnil])).1
  · rw [(hidle (by rw [hdialogs, hnil])).2,
      if_neg (mt List.isEmpty_iff.mp (planExtensionRequest_frames hplan))]

theorem openDialog_published {object : ℕ}
    (hopen : (r.extension.pendingDialogs.get? request.id).any (·.object = object) = true)
    (hlive : r.liveProjection = some p)
    (h : (emitFrame opts r (.extensionUiRequest request object) id).andThen (fun r _ =>
      r.applyFrameState (.extensionUiRequest request object)) = (r', .ok ())) :
    ∃ q, r.Published opts r' p q [.extensionUiRequest request object] ∧
      r'.extension = r.extension ∧ r'.nextObject = r.nextObject := by
  obtain ⟨r₁, ⟨⟩, hemit, happly⟩ := andThen_ok h
  obtain ⟨p', q, hpublished, hextension, hobject⟩ := emitFrame_published rfl hemit
  obtain rfl : p = p' := Option.some.inj (hlive.symm.trans hpublished.before)
  obtain ⟨hrests, hoperational, hbudget⟩ : r₁.Rests r' ∧
      r'.operational = r₁.operational ∧ r'.turnBudget = r₁.turnBudget := by
    unfold applyFrameState at happly
    dsimp only at happly
    split at happly
    · exact setState_rests happly
    · cases happly
      exact ⟨⟨rfl, rfl, rfl, rfl, rfl, rfl, rfl, rfl, rfl⟩, rfl, rfl⟩
  have hdialogs : r.extension.pendingDialogs.entries ≠ [] := by
    intro hnil
    rw [InsertionMap.get?, hnil] at hopen
    cases hopen
  obtain ⟨s, hemitted⟩ := hpublished.toEmitted.rests hrests
  refine ⟨s, ⟨hemitted, ?_, ?_, ?_, fun hnil => absurd hnil hdialogs,
    fun hnil => absurd hnil hdialogs⟩, hrests.extension.trans hextension,
    hrests.nextObject.trans hobject⟩
  · rw [← hpublished.counters, turnCounters, turnCounters, hoperational, hbudget]
  · rw [← hpublished.bytes, turnBytes, turnBytes, hoperational, hbudget]
  · rw [hrests.extension, hpublished.dialogs]

theorem publishStagedFrames_published {tracked : ExtensionState J T}
    (htracked : tracked.pendingDialogs = r.extension.pendingDialogs)
    (hlive : r.liveProjection = some p) (h : publishStagedFrames opts frames r = (r', .ok ())) :
    ∃ plan q, expandTransitionPlan opts tracked frames r.extension r.nextObject =
        .ok (plan, r'.nextObject) ∧
      r.Published opts r' p q plan.frames ∧ r'.extension = plan.extension := by
  induction frames generalizing r p with
  | nil =>
    cases h
    exact ⟨{ frames := [], extension := r'.extension }, p, rfl, .refl hlive, rfl⟩
  | cons frame rest ih =>
    obtain ⟨r₁, ⟨⟩, hfirst, hrest⟩ := andThen_ok h
    -- the frame is published as it is, and the plan goes on with the others
    have hkeep : ∀ {p' q}, r.Published opts r₁ p' q [frame] → r₁.extension = r.extension →
        r₁.nextObject = r.nextObject →
        (∀ plan nextObject, expandTransitionPlan opts tracked rest r.extension r.nextObject =
            .ok (plan, nextObject) →
          expandTransitionPlan opts tracked (frame :: rest) r.extension r.nextObject =
            .ok ({ plan with frames := frame :: plan.frames }, nextObject)) →
        ∃ plan q, expandTransitionPlan opts tracked (frame :: rest) r.extension r.nextObject =
            .ok (plan, r'.nextObject) ∧
          r.Published opts r' p q plan.frames ∧ r'.extension = plan.extension := by
      intro p' q hpublished hextension hobject hplan
      obtain rfl : p = p' := Option.some.inj (hlive.symm.trans hpublished.before)
      obtain ⟨plan, s, hexpand, hlater, hplanned⟩ :=
        ih (by rw [hextension, htracked]) hpublished.after hrest
      rw [hextension, hobject] at hexpand
      exact ⟨_, s, hplan plan _ hexpand, hpublished.trans hlater, hplanned⟩
    cases frame with
    | event event =>
      obtain ⟨p', q, hpublished, hextension, hobject⟩ := publishFrame_published hfirst
      refine hkeep hpublished hextension hobject ?_
      intro plan nextObject hexpand
      simp only [expandTransitionPlan, hexpand, bind, Except.bind, pure, Except.pure]
    | extensionUiClosed requestId reason =>
      have hemit : emitFrame opts r (.extensionUiClosed requestId reason) id = (r₁, .ok ()) :=
        hfirst
      obtain ⟨p', q, hpublished, hextension, hobject⟩ := emitFrame_published rfl hemit
      refine hkeep hpublished hextension hobject ?_
      intro plan nextObject hexpand
      simp only [expandTransitionPlan, hexpand, bind, Except.bind, pure, Except.pure]
    | extensionUiRequest request object =>
      unfold publishStagedFrame at hfirst
      dsimp only at hfirst
      by_cases hblocking : request.body.blocking = true
      · rw [if_pos hblocking] at hfirst
        by_cases hopen :
            (r.extension.pendingDialogs.get? request.id).any (·.object = object) = true
        · rw [if_pos hopen] at hfirst
          obtain ⟨q, hpublished, hextension, hobject⟩ := openDialog_published hopen hlive hfirst
          refine hkeep hpublished hextension hobject ?_
          intro plan nextObject hexpand
          simp only [expandTransitionPlan, hblocking, if_true, htracked, hopen, hexpand, bind,
            Except.bind, pure, Except.pure]
        · rw [if_neg hopen] at hfirst
          cases hfirst
          obtain ⟨plan, q, hexpand, hlater⟩ := ih htracked hlive hrest
          refine ⟨plan, q, ?_, hlater⟩
          simp only [expandTransitionPlan, hblocking, if_true, htracked, if_neg hopen, hexpand]
      · rw [Bool.not_eq_true] at hblocking
        rw [if_neg (by simp [hblocking])] at hfirst
        cases hplan : planExtensionRequestSemanticMutation opts request object true r.extension
            r.nextObject with
        | error error =>
          rw [hplan] at hfirst
          cases hfirst
        | ok result =>
          obtain ⟨plan, nextObject⟩ := result
          rw [hplan] at hfirst
          obtain ⟨q, hpublished, hextension, hobject⟩ :=
            request_published hblocking hplan hlive hfirst
          obtain ⟨later, s, hexpand, hlater, hplanned⟩ :=
            ih (by rw [hpublished.dialogs, htracked]) hpublished.after hrest
          rw [hextension, hobject] at hexpand
          refine ⟨{ later with frames := plan.frames ++ later.frames }, s, ?_,
            hpublished.trans hlater, hplanned⟩
          simp only [expandTransitionPlan, hblocking, Bool.false_eq_true, if_false, hplan,
            hexpand, bind, Except.bind, pure, Except.pure]

/-! ## The batch -/

/-- The frames of the stage. -/
def stagedFrames (r : SessionRuntimeCore J T) : List (BufferedFrame J T) :=
  r.transitionStage.elim [] (·.frames)

theorem Rests.trans (h : r.Rests r') (h' : r'.Rests r'') : r.Rests r'' :=
  ⟨h'.identity.trans h.identity, h'.startupReady.trans h.startupReady,
    h'.replay.trans h.replay, h'.lastTransientSeq.trans h.lastTransientSeq,
    h'.lastSeq.trans h.lastSeq,
    h'.published.trans h.published, h'.extension.trans h.extension,
    h'.nextObject.trans h.nextObject, h'.projection.trans h.projection⟩

theorem applyFrames_rests (h : applyFrames frames r = (r', .ok ())) : r.Rests r' := by
  induction frames generalizing r with
  | nil =>
    cases h
    exact ⟨rfl, rfl, rfl, rfl, rfl, rfl, rfl, rfl, rfl⟩
  | cons frame rest ih =>
    cases frame with
    | event event =>
      obtain ⟨r₁, ⟨⟩, hfirst, hrest⟩ := andThen_ok h
      exact (applyEventState_rests hfirst).1.trans (ih hrest)
    | extensionUiRequest request object => exact ih h
    | extensionUiClosed requestId reason => exact ih h

theorem applyFrames_work (hdialogs : r.extension.pendingDialogs.entries = [])
    (h : applyFrames frames r = (r', .ok ())) :
    r'.workOf = frames.foldl workAfter r.workOf ∧ (r.PhaseRecorded → r'.PhaseRecorded) := by
  induction frames generalizing r with
  | nil =>
    cases h
    exact ⟨rfl, id⟩
  | cons frame rest ih =>
    cases frame with
    | event event =>
      obtain ⟨r₁, ⟨⟩, hfirst, hrest⟩ := andThen_ok h
      obtain ⟨hwork, hphase⟩ := applyEventState_work hdialogs hfirst
      have hextension : r₁.extension = r.extension := (applyEventState_rests hfirst).1.extension
      obtain ⟨hlater, hrecorded⟩ := ih (by rw [hextension, hdialogs]) hrest
      rw [hlater, hwork]
      exact ⟨rfl, hrecorded ∘ hphase⟩
    | extensionUiRequest request object => exact ih hdialogs h
    | extensionUiClosed requestId reason => exact ih hdialogs h

/-- The budget of the batch counts its frames one after another, and the wire bytes as if each
frame had the first sequence number. -/
theorem prepareTransitionTurnBudget_counters {turnBudget : TurnBudget}
    (h : prepareTransitionTurnBudget opts p frames r = .ok turnBudget) :
    (frames.foldl (countFrame opts) r.turnCounters).2 =
        (turnBudget.items, turnBudget.logicalBytes) ∧
      (countBytesFrom p 0 (p.live.asOfSeq + 1) frames r.turnBytes).2 = turnBudget.bytes := by
  induction frames generalizing r with
  | nil =>
    cases h
    exact ⟨rfl, rfl⟩
  | cons frame rest ih =>
    cases frame with
    | event event =>
      cases hwithin : r.turnWithEvent p event with
      | error error =>
        simp only [prepareTransitionTurnBudget, hwithin, bind, Except.bind] at h
        cases h
      | ok withEvent =>
        cases hlogical : turnLogicalBytes opts r event with
        | error error =>
          simp only [prepareTransitionTurnBudget, hwithin, hlogical, bind, Except.bind] at h
          cases h
        | ok logicalBytes =>
          simp only [prepareTransitionTurnBudget, hwithin, hlogical, bind, Except.bind] at h
          obtain ⟨hcounters, hbytes⟩ := ih h
          rw [List.foldl_cons, countBytesFrom, ← hcounters, ← hbytes]
          refine ⟨congrArg (fun counters => (rest.foldl (countFrame opts) counters).2) ?_,
            congrArg (fun counters =>
              (countBytesFrom p 0 (p.live.asOfSeq + 1) rest counters).2) ?_⟩
          · refine (turnCounters_event hwithin hlogical ?_ rfl).symm
            cases event <;> rfl
          · refine (turnBytes_event hwithin ?_ rfl).symm
            cases event <;> rfl
    | extensionUiRequest request object => exact ih h
    | extensionUiClosed requestId reason => exact ih h

theorem expandTransitionPlan_nil {tracked extension : ExtensionState J T}
    (h : expandTransitionPlan opts tracked frames extension nextObject = .ok (plan, nextObject'))
    (hnil : plan.frames = []) : plan.extension = extension := by
  induction frames generalizing extension nextObject plan nextObject' with
  | nil =>
    cases h
    rfl
  | cons frame rest ih =>
    have hkeep : (do
        let result ← expandTransitionPlan opts tracked rest extension nextObject
        return ({ result.1 with frames := frame :: result.1.frames }, result.2)) ≠
          Except.ok (plan, nextObject') := by
      intro heq
      cases hrest : expandTransitionPlan opts tracked rest extension nextObject with
      | error error =>
        rw [hrest] at heq
        cases heq
      | ok result =>
        rw [hrest] at heq
        cases heq
        cases hnil
    cases frame with
    | event event => exact absurd h hkeep
    | extensionUiClosed requestId reason => exact absurd h hkeep
    | extensionUiRequest request object =>
      unfold expandTransitionPlan at h
      dsimp only at h
      split at h
      · split at h
        · exact absurd h hkeep
        · exact ih h hnil
      · cases hplan : planExtensionRequestSemanticMutation opts request object true extension
            nextObject with
        | error error =>
          rw [hplan] at h
          cases h
        | ok result =>
          rw [hplan] at h
          simp only [bind, Except.bind] at h
          split at h
          · cases h
          · cases h
            exact absurd (List.append_eq_nil_iff.mp hnil).1 (planExtensionRequest_frames hplan)

theorem normalizeResult_ok {A : Type} {result : Result J T A} {value : A}
    (h : normalizeResult result = (r', .ok value)) : result = (r', .ok value) := by
  unfold normalizeResult at h
  split at h
  · rename_i error
    cases error <;> cases h
  · exact h

theorem commitTransitionFrames_ok (h : commitTransitionFrames opts r = (r', .ok ())) :
    (r.stagedFrames = [] ∧ r' = r) ∨
      ∃ p q plan nextObject, r.liveProjection = some p ∧
        expandTransitionPlan opts r.extension r.stagedFrames r.extension r.nextObject =
          .ok (plan, nextObject) ∧
        r.Emitted opts r' p q plan.frames ∧ r'.extension = plan.extension ∧
        (r'.turnBudget.items, r'.turnBudget.logicalBytes) =
          (plan.frames.foldl (countFrame opts) r.turnCounters).2 ∧
        r'.turnBudget.bytes =
          (countBytesFrom p 0 (p.live.asOfSeq + 1) plan.frames r.turnBytes).2 ∧
        (plan.extension.pendingDialogs.entries = [] →
          r'.workOf = plan.frames.foldl workAfter r.workOf ∧
          q.live.runtimePhase =
            if plan.frames.isEmpty then p.live.runtimePhase else r'.state) := by
  have h := normalizeResult_ok h
  split at h
  · cases h
  rename_i stage hstage
  rw [stagedFrames, hstage, Option.elim_some]
  split at h
  · rename_i hempty
    cases h
    exact .inl ⟨List.isEmpty_iff.mp hempty, rfl⟩
  split at h
  · cases h
  rename_i plan nextObject hplan
  dsimp only at h
  split at h
  · cases h
  · cases h
  rename_i bytes projection hbytes hlive
  refine .inr ⟨projection, ?_⟩
  split at h
  · rename_i hempty
    cases h
    have hnil := List.isEmpty_iff.mp hempty
    refine ⟨projection, plan, nextObject, hlive, hplan, ?_, ?_, ?_⟩
    · rw [hnil]
      exact ⟨hlive, hlive, rfl, rfl, rfl, rfl, (List.append_nil _).symm⟩
    · exact (expandTransitionPlan_nil hplan hnil).symm
    · rw [hnil]
      exact ⟨rfl, rfl, fun _ => ⟨rfl, rfl⟩⟩
  split at h
  · cases h
  rename_i turnBudget hbudget
  obtain ⟨r₁, prepared, hprepared, h⟩ := andThen_ok h
  obtain ⟨r₂, ⟨⟩, hcommitted, h⟩ := andThen_ok h
  obtain ⟨r₃, ⟨⟩, happlied, h⟩ := andThen_ok h
  cases h
  have hoperation : ((prepareExtensionSemanticOperation opts { r with nextObject := nextObject }
      stage.processToken plan).andThen fun r prepared =>
        r.commitExtensionSemanticOperation prepared) = (r₂, .ok ()) := by
    rw [hprepared]
    exact hcommitted
  obtain ⟨p, q, hemitted, hextension, hobject, -, -, hidle, -⟩ :=
    semanticOperation_emitted hoperation
  obtain rfl : projection = p := Option.some.inj (hlive.symm.trans hemitted.before)
  have hrests := applyFrames_rests happlied
  obtain ⟨s, hemitted'⟩ := hemitted.rests hrests
  obtain ⟨hcounters, hbytes⟩ := prepareTransitionTurnBudget_counters hbudget
  refine ⟨s, plan, nextObject, hlive, hplan, ?_, hrests.extension.trans hextension,
    hcounters.symm, hbytes.symm, ?_⟩
  · exact ⟨hlive, hemitted'.after, hemitted'.content, hemitted'.identity, hemitted'.ring,
      hemitted'.lastSeq, hemitted'.published⟩
  · intro hdialogs
    obtain ⟨hwork, hphase⟩ := hidle hdialogs
    obtain ⟨hlater, hrecorded⟩ := applyFrames_work (by rw [hextension, hdialogs]) happlied
    rw [hwork] at hlater
    refine ⟨hlater, ?_⟩
    rw [if_neg (by assumption)]
    refine hrecorded (fun p hp => ?_) s hemitted'.after
    rw [hemitted.after] at hp
    cases hp
    exact hphase

/-! ## A batch that throws -/

/-- Nothing but unused object numbers and tokens has changed. -/
structure Unpublished (r r' : SessionRuntimeCore J T) : Prop where
  runtime : r' = { r with nextObject := r'.nextObject, liveProjection := r'.liveProjection }
  projection : r'.liveProjection.map (·.withoutTokens) = r.liveProjection.map (·.withoutTokens)

/-- The generation was given up. -/
structure GivenUp (startupReady : Bool) (r' : SessionRuntimeCore J T) (error : RuntimeError) :
    Prop where
  error : error = rpc "session_snapshot" "session_snapshot_overflow"
  overflow : r'.snapshotOverflow = true
  crashed : startupReady = true → r'.state = .crashed

theorem throwProjection_cases {A : Type} (r : SessionRuntimeCore J T)
    (error : SessionLiveProjectionError) :
    ((∀ boundary, error ≠ .limitExceeded boundary) ∧
        r.throwProjection (A := A) error = (r, .error (.projection error))) ∨
      ∃ r' error', r.throwProjection (A := A) error = (r', .error error') ∧
        GivenUp r.startupReady r' error' := by
  cases error with
  | limitExceeded boundary =>
    refine .inr ⟨_, _, rfl, rfl, ?_, ?_⟩
    · simp only [normalizeProjectionError, terminalizeSnapshotOverflow]
      split
      · split
        · rename_i hover
          exact hover.1
        · rfl
      · rfl
    · intro hready
      simp only [normalizeProjectionError, terminalizeSnapshotOverflow, hready, if_true]
      split
      · rename_i hover
        exact hover.2
      · rfl
  | _ => exact .inl ⟨by simp, rfl⟩

variable {error : RuntimeError}

theorem setState_error {state : SessionLiveRuntimePhase}
    (haligned : r.Aligned) (h : r.setState state = (r', .error error)) :
    (∃ boundary, error = .projection (.limitExceeded boundary)) ∧
      r'.startupReady = r.startupReady := by
  unfold setState at h
  split at h
  · cases h
  split at h
  · cases h
  rename_i projection hlive
  split at h
  · cases h
  rename_i failure hphase
  cases h
  refine ⟨?_, rfl⟩
  simp only [SessionLiveProjection.setRuntimePhase, bind, Except.bind, pure, Except.pure, throw,
    throwThe, MonadExceptOf.throw] at hphase
  rw [if_neg (by simp [haligned projection hlive])] at hphase
  split at hphase
  · rename_i hfits
    cases hphase
    unfold SessionLiveProjection.assertSnapshotFits at hfits
    split at hfits
    · cases hfits
      exact ⟨_, rfl⟩
    · cases hfits
  · cases hphase

theorem refreshOperationalState_error (haligned : r.Aligned)
    (h : r.refreshOperationalState = (r', .error error)) :
    (∃ boundary, error = .projection (.limitExceeded boundary)) ∧
      r'.startupReady = r.startupReady := by
  unfold refreshOperationalState at h
  split at h
  · exact setState_error haligned h
  · cases h

theorem applyEventState_error {event : SessionEvent J T}
    (haligned : r.Aligned) (h : r.applyEventState event = (r', .error error)) :
    (∃ boundary, error = .projection (.limitExceeded boundary)) ∧
      r'.startupReady = r.startupReady := by
  by_cases hstarts : eventStartsWork event = true
  · rw [applyEventState_of_starts hstarts] at h
    obtain ⟨hlimit, hready⟩ := setState_error (by exact haligned) h
    exact ⟨hlimit, hready⟩
  · rw [Bool.not_eq_true] at hstarts
    cases event with
    | queueUpdate steering followUp =>
      simp only [applyEventState, applyQueueUpdate] at h
      split at h
      · obtain ⟨hlimit, hready⟩ := refreshOperationalState_error (by exact haligned) h
        exact ⟨hlimit, hready⟩
      · cases h
    | compactionStart reason =>
      obtain ⟨hlimit, hready⟩ := setState_error (by exact haligned) h
      exact ⟨hlimit, hready⟩
    | compactionEnd hasResult aborted willRetry errorMessage =>
      obtain ⟨hlimit, hready⟩ := refreshOperationalState_error (by exact haligned) h
      exact ⟨hlimit, hready⟩
    | agentSettled =>
      obtain ⟨hlimit, hready⟩ := refreshOperationalState_error (by exact haligned) h
      exact ⟨hlimit, hready⟩
    | _ => first | cases hstarts; done | cases h

theorem applyFrames_error (haligned : r.Aligned) (h : applyFrames frames r = (r', .error error)) :
    (∃ boundary, error = .projection (.limitExceeded boundary)) ∧
      r'.startupReady = r.startupReady := by
  induction frames generalizing r with
  | nil => cases h
  | cons frame rest ih =>
    cases frame with
    | event event =>
      unfold applyFrames at h
      cases happly : r.applyEventState event with
      | mk r₁ result =>
        rw [happly] at h
        cases result with
        | error first =>
          cases h
          exact applyEventState_error haligned happly
        | ok value =>
          obtain ⟨hrests, -⟩ := applyEventState_rests happly
          have haligned' : r₁.Aligned := by
            intro q hq
            have hprojection := hrests.projection
            rw [hq, Option.map_some] at hprojection
            obtain ⟨p, hp, hcontent⟩ := Option.map_eq_some_iff.mp hprojection.symm
            have hidentity : p.identity = q.identity := congrArg (·.identity) hcontent
            rw [← hidentity, haligned p hp, hrests.identity]
          rw [← hrests.startupReady]
          exact ih haligned' h
    | extensionUiRequest request object => exact ih haligned h
    | extensionUiClosed requestId reason => exact ih haligned h

theorem Unpublished.refl (r : SessionRuntimeCore J T) : r.Unpublished r := ⟨rfl, rfl⟩

theorem Unpublished.trans (h : r.Unpublished r') (h' : r'.Unpublished r'') :
    r.Unpublished r'' where
  runtime := by
    rw [h'.runtime, h.runtime]
  projection := h'.projection.trans h.projection

theorem prepareExtensionSemanticOperation_cases {processToken : ℕ}
    {result : Except RuntimeError (PreparedExtensionSemanticOperation J T)}
    (h : prepareExtensionSemanticOperation opts r processToken plan = (r', result)) :
    r.Unpublished r' ∨ ∃ error, result = .error error ∧ GivenUp r.startupReady r' error := by
  unfold prepareExtensionSemanticOperation at h
  split at h
  · cases h
    exact .inl (.refl r)
  rename_i projection hlive
  split at h
  · rename_i error _
    rcases throwProjection_cases r error with ⟨-, heq⟩ | ⟨r₁, error', heq, hgiven⟩
    · rw [heq] at h
      cases h
      exact .inl (.refl r)
    · rw [heq] at h
      cases h
      exact .inr ⟨_, rfl, hgiven⟩
  rename_i prepared token hprepare
  have hissued : r.Unpublished { r with liveProjection := some prepared } := by
    obtain ⟨candidate, -, -, rfl⟩ := SessionLiveProjection.prepareBatch_ok hprepare
    refine ⟨rfl, ?_⟩
    rw [hlive]
    rfl
  dsimp only at h
  split at h
  · cases h
    exact .inl hissued
  · rcases throwProjection_cases (A := PreparedExtensionSemanticOperation J T)
      { r with liveProjection := some prepared } (.limitExceeded .snapshot) with
      ⟨hlimit, -⟩ | ⟨r₁, error', heq, hgiven⟩
    · exact absurd rfl (hlimit _)
    · rw [heq] at h
      cases h
      exact .inr ⟨_, rfl, hgiven⟩

theorem commitExtensionSemanticOperation_error {prepared : PreparedExtensionSemanticOperation J T}
    (h : r.commitExtensionSemanticOperation prepared = (r', .error error)) :
    r.Unpublished r' := by
  unfold commitExtensionSemanticOperation at h
  split at h
  · cases h
    exact .refl r
  split at h
  · cases h
    exact .refl r
  rename_i projection hlive
  split at h
  · rename_i next hcommit
    cases h
    refine ⟨rfl, ?_⟩
    rcases projection.commitPreparedBatch_spec prepared.token with
      ⟨batch, -, -, heq⟩ | ⟨-, hunchanged, -⟩
    · rw [hcommit] at heq
      cases heq
    · rw [hcommit] at hunchanged
      rw [hlive, Option.map_some, Option.map_some, hunchanged.same]
  · cases h

/-- Before the errors are normalized: nothing has changed, the generation is given up, or a limit
was exceeded when the events were applied. -/
def Failed (r r' : SessionRuntimeCore J T) (error : RuntimeError) : Prop :=
  r.Unpublished r' ∨ GivenUp r.startupReady r' error ∨
    (∃ boundary, error = .projection (.limitExceeded boundary)) ∧ r'.startupReady = r.startupReady

theorem Failed.normalize {A : Type} {result : Result J T A}
    (hfailed : ∀ r₁ error₁, result = (r₁, .error error₁) → r.Failed r₁ error₁)
    (h : normalizeResult result = (r', .error error)) :
    r.Unpublished r' ∨ GivenUp r.startupReady r' error := by
  unfold normalizeResult at h
  split at h
  · rename_i r₁ failure
    rcases hfailed r₁ _ rfl with hunpublished | hgiven | ⟨⟨boundary, hlimit⟩, hready⟩
    · have hready : r₁.startupReady = r.startupReady := congrArg (·.startupReady)
        hunpublished.runtime
      rcases throwProjection_cases (A := A) r₁ failure with ⟨-, heq⟩ | ⟨r₂, error', heq, hgiven⟩
      · rw [heq] at h
        cases h
        exact .inl hunpublished
      · rw [heq] at h
        cases h
        exact .inr (hready ▸ hgiven)
    · cases hgiven.error
    · cases hlimit
      rcases throwProjection_cases (A := A) r₁ (.limitExceeded boundary) with
        ⟨hnot, -⟩ | ⟨r₂, error', heq, hgiven⟩
      · exact absurd rfl (hnot boundary)
      · rw [heq] at h
        cases h
        exact .inr (hready ▸ hgiven)
  · rename_i hnormal
    rcases hfailed r' error h with hunpublished | hgiven | ⟨⟨boundary, rfl⟩, -⟩
    · exact .inl hunpublished
    · exact .inr hgiven
    · exact (hnormal _ _ h).elim

theorem commitTransitionFrames_error (h : commitTransitionFrames opts r = (r', .error error)) :
    r.Unpublished r' ∨ GivenUp r.startupReady r' error := by
  refine Failed.normalize ?_ h
  intro r₁ error₁ h
  split at h
  · cases h
    exact .inl (.refl r)
  rename_i stage hstage
  split at h
  · cases h
  split at h
  · cases h
    exact .inl (.refl r)
  rename_i plan nextObject hplan
  dsimp only at h
  split at h
  · cases h
    exact .inl ⟨rfl, rfl⟩
  · cases h
    exact .inl ⟨rfl, rfl⟩
  split at h
  · cases h
  split at h
  · cases h
    exact .inl ⟨rfl, rfl⟩
  have hplanned : r.Unpublished { r with nextObject := nextObject } := ⟨rfl, rfl⟩
  cases hprepare : prepareExtensionSemanticOperation opts { r with nextObject := nextObject }
      stage.processToken plan with
  | mk r₂ prepared =>
    rw [hprepare] at h
    have hcases := prepareExtensionSemanticOperation_cases hprepare
    cases prepared with
    | error failure =>
      cases h
      rcases hcases with hunpublished | ⟨failure, ⟨⟩, hgiven⟩
      · exact .inl (hplanned.trans hunpublished)
      · exact .inr (.inl hgiven)
    | ok prepared =>
      have hunpublished : r.Unpublished r₂ := by
        rcases hcases with hunpublished | ⟨failure, ⟨⟩, -⟩
        exact hplanned.trans hunpublished
      cases hcommit : r₂.commitExtensionSemanticOperation prepared with
      | mk r₃ committed =>
        simp only [Result.andThen, hcommit] at h
        cases committed with
        | error failure =>
          cases h
          exact .inl (hunpublished.trans (commitExtensionSemanticOperation_error hcommit))
        | ok value =>
          have hoperation : ((prepareExtensionSemanticOperation opts
              { r with nextObject := nextObject } stage.processToken plan).andThen
                fun r prepared => r.commitExtensionSemanticOperation prepared) =
              (r₃, .ok ()) := by
            rw [hprepare]
            exact hcommit
          obtain ⟨p, q, -, -, -, -, -, -, hready, haligned⟩ :=
            semanticOperation_emitted hoperation
          cases happly : applyFrames plan.frames r₃ with
          | mk r₄ applied =>
            simp only [happly] at h
            cases applied with
            | error failure =>
              cases h
              obtain ⟨hlimit, hready'⟩ := applyFrames_error haligned happly
              exact .inr (.inr ⟨hlimit, hready'.trans hready⟩)
            | ok value => cases h

/-! ## The batch and the single publications -/

/-- The numbers from the first to the last have as many digits as the first. -/
def OneSize (first last : ℕ) : Prop :=
  ∀ seq, first ≤ seq → seq ≤ last →
    (Json.num (jsNat seq)).byteLength = (Json.num (jsNat first)).byteLength

/-- A batch from the runtime left what single publications left. -/
structure SamePublication (r batch single : SessionRuntimeCore J T) : Prop where
  content : batch.liveProjection.map (·.content) = single.liveProjection.map (·.content)
  replay : batch.replay = single.replay
  lastSeq : batch.lastSeq = single.lastSeq
  lastTransientSeq : batch.lastTransientSeq = single.lastTransientSeq
  extension : batch.extension = single.extension
  items : batch.turnBudget.items = single.turnBudget.items
  logicalBytes : batch.turnBudget.logicalBytes = single.turnBudget.logicalBytes
  bytes : (∀ p q, r.liveProjection = some p → batch.liveProjection = some q →
      OneSize (p.live.asOfSeq + 1) q.live.asOfSeq) →
    batch.turnBudget.bytes = single.turnBudget.bytes
  phase : r.extension.pendingDialogs.entries = [] →
    batch.state = single.state ∧ batch.operational = single.operational ∧
      batch.liveProjection.map (·.live.runtimePhase) =
        single.liveProjection.map (·.live.runtimePhase)
  published : batch.published = single.published

theorem SamePublication.of_plan
    {batch single : SessionRuntimeCore J T} (hbatch : r.Emitted opts batch p q plan.frames)
    (hsingle : r.Published opts single p s plan.frames)
    (hextension : batch.extension = plan.extension)
    (hextension' : single.extension = plan.extension)
    (hcounters : (batch.turnBudget.items, batch.turnBudget.logicalBytes) =
      (plan.frames.foldl (countFrame opts) r.turnCounters).2)
    (hbytes : batch.turnBudget.bytes =
      (countBytesFrom p 0 (p.live.asOfSeq + 1) plan.frames r.turnBytes).2)
    (hidle : plan.extension.pendingDialogs.entries = [] →
      batch.workOf = plan.frames.foldl workAfter r.workOf ∧
      q.live.runtimePhase = if plan.frames.isEmpty then p.live.runtimePhase else batch.state) :
    SamePublication r batch single := by
  have hcontent : q.content = s.content := hbatch.content.trans hsingle.content.symm
  have hring := hbatch.ring.trans hsingle.ring.symm
  have hseq : q.live.asOfSeq = s.live.asOfSeq := congrArg (·.live.asOfSeq) hcontent
  have hlast := SessionLiveProjection.asOfSeq_of_publishing hbatch.content
  rw [List.length_map] at hlast
  have hsame : (batch.turnBudget.items, batch.turnBudget.logicalBytes) =
      (single.turnBudget.items, single.turnBudget.logicalBytes) := by
    rw [hcounters, ← hsingle.counters]
    rfl
  refine ⟨?_, congrArg Prod.fst hring, ?_, congrArg Prod.snd hring,
    hextension.trans hextension'.symm, congrArg Prod.fst hsame, congrArg Prod.snd hsame, ?_, ?_,
    hbatch.published.trans hsingle.published.symm⟩
  · rw [hbatch.after, hsingle.after, Option.map_some, Option.map_some, hcontent]
  · rw [hbatch.lastSeq, hsingle.lastSeq, hseq]
  · intro hsizes
    have hone := hsizes p q hbatch.before hbatch.after
    have hsteps : countBytesFrom p 1 (p.live.asOfSeq + 1) plan.frames r.turnBytes =
        countBytesFrom p 0 (p.live.asOfSeq + 1) plan.frames r.turnBytes :=
      countBytesFrom_step (fun index hindex => hone _ (by omega) (by omega)) r.turnBytes
    rw [hbytes, ← hsteps, ← hsingle.bytes]
    rfl
  · intro hdialogs
    have hdialogs' : plan.extension.pendingDialogs.entries = [] := by
      rw [← hextension', hsingle.dialogs, hdialogs]
    obtain ⟨hwork, hphase⟩ := hidle hdialogs'
    have hworks : batch.workOf = single.workOf := hwork.trans (hsingle.work hdialogs).symm
    have hstate : batch.state = single.state := congrArg (·.state) hworks
    refine ⟨hstate, congrArg (·.operational) hworks, ?_⟩
    rw [hbatch.after, hsingle.after, Option.map_some, Option.map_some, hphase,
      hsingle.phase hdialogs, hstate]

/-- A batch of staged frames leaves what the frames leave one at a time, and a batch that throws
leaves the runtime as it was or gives the generation up. -/
theorem transition_batch_as_published (opts : SessionRuntimeOptions J T)
    (r : SessionRuntimeCore J T) :
    (∀ batch single, commitTransitionFrames opts r = (batch, .ok ()) →
        publishStagedFrames opts r.stagedFrames r = (single, .ok ()) →
        SamePublication r batch single) ∧
      ∀ failed error, commitTransitionFrames opts r = (failed, .error error) →
        r.Unpublished failed ∨ GivenUp r.startupReady failed error := by
  refine ⟨fun batch single hbatch hsingle => ?_, fun failed error => commitTransitionFrames_error⟩
  rcases commitTransitionFrames_ok hbatch with ⟨hnone, rfl⟩ |
    ⟨p, q, plan, nextObject, hlive, hplan, hemitted, hextension, hcounters, hbytes, hidle⟩
  · rw [hnone] at hsingle
    cases hsingle
    exact ⟨rfl, rfl, rfl, rfl, rfl, rfl, rfl, fun _ => rfl, fun _ => ⟨rfl, rfl, rfl⟩, rfl⟩
  · obtain ⟨plan', s, hplan', hpublished, hextension'⟩ :=
      publishStagedFrames_published rfl hlive hsingle
    rw [hplan] at hplan'
    cases hplan'
    exact .of_plan hemitted hpublished hextension hextension' hcounters hbytes hidle

/-! ## Evaluated batches -/

/-- The options of the evaluated batches. -/
def sampleBatchOptions (maxLiveEventItems maxReplayFrameWireBytes : ℕ) :
    SessionRuntimeOptions Json Json :=
  { sampleTurnOptions 4096 with
    projectionLimits :=
      { (sampleTurnOptions 4096).projectionLimits with maxLiveEventItems := maxLiveEventItems }
    maxReplayFrameWireBytes := maxReplayFrameWireBytes }

/-- A runtime that has staged the frames. -/
def sampleStaged (opts : SessionRuntimeOptions Json Json)
    (frames : List (BufferedFrame Json Json)) : SessionRuntimeCore Json Json :=
  { (startIncarnation opts sampleSpawned []).1 with
    transitionStage :=
      some { phase := .applying, frames := frames, bytes := 0, processToken := 0,
             parentGeneration := 1 } }

/-- A status text that an Extension has set. -/
def sampleStatus (text : String) : BufferedFrame Json Json :=
  .extensionUiRequest ⟨js text, .setStatus (js text) (some (js text))⟩ 7

/-- The start of a turn and two status texts. -/
def sampleTransition : List (BufferedFrame Json Json) :=
  [.event .agentStart, sampleStatus "a", sampleStatus "b"]

/-- A runtime with an open dialog that has staged the frames. -/
def sampleAsked (frames : List (BufferedFrame Json Json)) : SessionRuntimeCore Json Json :=
  (trackDialog (sampleBatchOptions 6 4096) (sampleStaged (sampleBatchOptions 6 4096) frames)
    ⟨js "d", .input (js "t") none none⟩ 3 true).1

/-- The start of a turn and two status texts are published as one batch and one at a time. -/
theorem transition_batch_as_published_sample :
    ∃ batch single, commitTransitionFrames (sampleTurnOptions 4096)
          (sampleStaged (sampleTurnOptions 4096) sampleTransition) = (batch, .ok ()) ∧
      batch.published.length = 3 ∧
      SamePublication (sampleStaged (sampleTurnOptions 4096) sampleTransition) batch single := by
  have hbatch : (commitTransitionFrames (sampleTurnOptions 4096)
      (sampleStaged (sampleTurnOptions 4096) sampleTransition)).2 = .ok () ∧
      (commitTransitionFrames (sampleTurnOptions 4096)
        (sampleStaged (sampleTurnOptions 4096) sampleTransition)).1.published.length = 3 := by
    decide +kernel
  have hsingle : (publishStagedFrames (sampleTurnOptions 4096) sampleTransition
      (sampleStaged (sampleTurnOptions 4096) sampleTransition)).2 = .ok () := by
    decide +kernel
  generalize hcommit : commitTransitionFrames (sampleTurnOptions 4096)
    (sampleStaged (sampleTurnOptions 4096) sampleTransition) = committed at hbatch ⊢
  generalize hpublish : publishStagedFrames (sampleTurnOptions 4096) sampleTransition
    (sampleStaged (sampleTurnOptions 4096) sampleTransition) = published at hsingle
  obtain ⟨batch, value⟩ := committed
  obtain ⟨single, value'⟩ := published
  obtain ⟨rfl, hlength⟩ : value = .ok () ∧ batch.published.length = 3 := hbatch
  obtain rfl : value' = .ok () := hsingle
  exact ⟨batch, single, rfl, hlength,
    (transition_batch_as_published (sampleTurnOptions 4096) _).1 batch single hcommit hpublish⟩

/-- A batch that throws can crash the runtime; a batch counts wire bytes in its own way, leaves
another phase when a dialog is open, and does not check the wire size of its frames. -/
theorem transition_batch_diverges :
    ((sampleStaged (sampleTurnOptions 4096)
          (List.replicate 4 (.event .turnStart))).state = .idle ∧
        (commitTransitionFrames (sampleTurnOptions 4096)
          (sampleStaged (sampleTurnOptions 4096)
            (List.replicate 4 (.event .turnStart)))).2 =
          .error (rpc "session_snapshot" "session_snapshot_overflow") ∧
        (commitTransitionFrames (sampleTurnOptions 4096)
          (sampleStaged (sampleTurnOptions 4096)
            (List.replicate 4 (.event .turnStart)))).1.state = .crashed) ∧
      ((commitTransitionFrames (sampleBatchOptions 30 4096)
            (sampleStaged (sampleBatchOptions 30 4096)
              (List.replicate 10 (.event .agentStart)))).2 = .ok () ∧
        (publishStagedFrames (sampleBatchOptions 30 4096)
            (List.replicate 10 (.event .agentStart))
            (sampleStaged (sampleBatchOptions 30 4096)
              (List.replicate 10 (.event .agentStart)))).2 = .ok () ∧
        (commitTransitionFrames (sampleBatchOptions 30 4096)
            (sampleStaged (sampleBatchOptions 30 4096)
              (List.replicate 10 (.event .agentStart)))).1.turnBudget.bytes + 1 =
          (publishStagedFrames (sampleBatchOptions 30 4096)
            (List.replicate 10 (.event .agentStart))
            (sampleStaged (sampleBatchOptions 30 4096)
              (List.replicate 10 (.event .agentStart)))).1.turnBudget.bytes) ∧
      ((commitTransitionFrames (sampleBatchOptions 6 4096) (sampleAsked sampleTransition)).2 =
          .ok () ∧
        (publishStagedFrames (sampleBatchOptions 6 4096) sampleTransition
            (sampleAsked sampleTransition)).2 = .ok () ∧
        (commitTransitionFrames (sampleBatchOptions 6 4096)
            (sampleAsked sampleTransition)).1.liveProjection.map (·.live.runtimePhase) =
          some .running ∧
        (publishStagedFrames (sampleBatchOptions 6 4096) sampleTransition
            (sampleAsked sampleTransition)).1.liveProjection.map (·.live.runtimePhase) =
          some .waitingUi) ∧
      (commitTransitionFrames (sampleBatchOptions 6 60)
            (sampleStaged (sampleBatchOptions 6 60) [.event .agentStart])).2 = .ok () ∧
        (publishStagedFrames (sampleBatchOptions 6 60) [.event .agentStart]
            (sampleStaged (sampleBatchOptions 6 60) [.event .agentStart])).2 ≠ .ok () := by
  refine ⟨?_, ?_, ?_, ?_⟩ <;> decide +kernel

end SessionRuntimeCore

end PiAgentWeb
