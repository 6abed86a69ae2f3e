import PiAgentWeb.Server.Runtime

/-!
# Two-phase publication

An event or an Extension request is prepared on copies and committed later, after its payload was
transferred; other operations of the runtime may come in between.
-/

namespace PiAgentWeb

variable {J T : Type}

namespace SessionRuntimeCore

variable (opts : SessionRuntimeOptions J T)

/-- `prepareActiveEventPublication`. -/
def prepareActiveEventPublication (r : SessionRuntimeCore J T) (event : SessionEvent J T) :
    Result J T (PreparedActiveEventPublication J T) :=
  match r.liveProjection with
  | none => (r, .error (rpc "session_snapshot" "session_snapshot_unavailable"))
  | some projection =>
    match r.turnWithEvent projection event with
    | .error error => r.throwProjection error
    | .ok turnBudget =>
      match projection.prepareBatch r.identity [.event event] (some r.state) with
      | .error error => r.throwProjection error
      | .ok (prepared, token) =>
        let r := { r with liveProjection := some prepared }
        match turnLogicalBytes opts r event with
        | .error error => r.throwProjection error
        | .ok logicalBytes =>
          let envelope : SessionReplayFrame J T :=
            ⟨.event event, r.identity, projection.live.asOfSeq + 1⟩
          if envelopeBytes opts.codec envelope > opts.maxReplayFrameWireBytes then
            r.throwProjection (.limitExceeded .liveEvents)
          else
            (r, .ok
              { projection := projection.identity
                token := token
                event := event
                envelope := envelope
                turnBudget := { turnBudget with logicalBytes := logicalBytes }
                replay := (keep opts [envelope] r.replay r.lastTransientSeq).1 })

/-- `commitActiveEventPublication`. -/
def commitActiveEventPublication (r : SessionRuntimeCore J T)
    (prepared : PreparedActiveEventPublication J T) : Result J T Unit :=
  match r.liveProjection.filter (·.identity = prepared.projection) with
  | none => (r, .error (rpc "event" "session_projection_changed_before_commit"))
  | some projection =>
    match projection.commitPreparedBatch prepared.token with
    | (projection, none) =>
      ({ r with liveProjection := some projection },
        .error (rpc "event" "session_projection_commit_invariant_failed"))
    | (projection, some seq) =>
      if seq ≠ prepared.envelope.seq then
        ({ r with liveProjection := some projection },
          .error (rpc "event" "session_projection_commit_invariant_failed"))
      else
        let r : SessionRuntimeCore J T :=
          { r with
            liveProjection := some projection
            turnBudget := prepared.turnBudget
            replay := prepared.replay
            lastSeq := seq
            published := r.published ++ [prepared.envelope] }
        r.applyFrameState (.event prepared.event)

/-- `extensionRequestBytes`. -/
def extensionRequestBytes (request : ExtensionUiRequest J T) : ℕ :=
  (opts.codec.extensionRequestJson request).byteLength

/-- `extensionStateMapsFit`. -/
def extensionStateMapsFit (extension : ExtensionState J T) : Bool :=
  (extension.stickyExtension.entries.map fun entry => extensionRequestBytes opts entry.2).sum +
      (extension.pendingDialogs.entries.map fun entry =>
        extensionRequestBytes opts entry.2.request).sum ≤ opts.extensionStateMaxBytes &&
    extension.pendingDialogs.entries.length + extension.stickyExtension.entries.length ≤
      opts.extensionStateMaxItems

/-- `stickyClearRequest`: a new object with a generated id. -/
def stickyClearRequest (request : ExtensionUiRequest J T) (object : ℕ) :
    Except RuntimeError (BufferedFrame J T) :=
  let body := match request.body with
    | .setStatus statusKey _ => some (.setStatus statusKey none)
    | .setWidget widgetKey _ placement => some (.setWidget widgetKey none placement)
    | .setTitle _ => some (.setTitle [])
    | .setEditorText _ => some (.setEditorText opts.emptyText)
    | _ => none
  match body with
  | none => .error (rpc "extension_ui_request" "invalid_sticky_extension_method")
  | some body =>
    let candidate : ExtensionUiRequest J T := ⟨js "evicted:" ++ jsNat object, body⟩
    if opts.codec.guardExtensionRequest candidate then .ok (.extensionUiRequest candidate object)
    else .error (rpc "extension_ui_request" "invalid_sticky_extension_clear")

/-- The loop that makes room for a sticky request: the oldest ones are cleared until it fits. The
fuel is the number of sticky requests. -/
def evictSticky (key : JsString) (request : ExtensionUiRequest J T) :
    ℕ → ExtensionState J T → ℕ →
      Except RuntimeError (ExtensionState J T × List (BufferedFrame J T) × ℕ)
  | 0, extension, nextObject => .ok (extension, [], nextObject)
  | fuel + 1, extension, nextObject =>
    match extension.stickyExtension.entries with
    | [] => .ok (extension, [], nextObject)
    | (oldestKey, oldest) :: _ =>
      if extensionStateMapsFit opts
          { extension with stickyExtension := extension.stickyExtension.insert key request } then
        .ok (extension, [], nextObject)
      else
        match stickyClearRequest opts oldest nextObject with
        | .error error => .error error
        | .ok cleared =>
          match evictSticky key request fuel
            { extension with stickyExtension := extension.stickyExtension.erase oldestKey }
            (nextObject + 1) with
          | .error error => .error error
          | .ok (extension, frames, nextObject) => .ok (extension, cleared :: frames, nextObject)

/-- `planExtensionRequestSemanticMutation`: the frames and the Extension state of a request, and
the next object. -/
def planExtensionRequestSemanticMutation (request : ExtensionUiRequest J T) (object : ℕ)
    (publishReplacedClose : Bool) (extension : ExtensionState J T) (nextObject : ℕ) :
    Except RuntimeError (ExtensionSemanticPlan J T × ℕ) :=
  let frame : BufferedFrame J T := .extensionUiRequest request object
  if request.body.blocking then
    let replaced := (extension.pendingDialogs.get? request.id).isSome
    let pendingDialogs :=
      (extension.pendingDialogs.erase request.id).insert request.id ⟨request, object⟩
    let extension := { extension with pendingDialogs := pendingDialogs }
    if pendingDialogs.entries.length > opts.pendingDialogLimit ∨
        !extensionStateMapsFit opts extension then
      .error (rpc "extension_ui_request" "pending_dialog_state_limit_exceeded")
    else
      .ok ({ frames :=
               (if replaced && publishReplacedClose then
                 [.extensionUiClosed request.id .replaced] else []) ++ [frame]
             extension := extension }, nextObject)
  else if request.body.sticky then
    let key := stickyRequestKey request
    let extension :=
      { extension with stickyExtension := extension.stickyExtension.erase key }
    if stickyRequestClearsState request then
      .ok ({ frames := [frame], extension := extension }, nextObject)
    else
      match evictSticky opts key request extension.stickyExtension.entries.length extension
        nextObject with
      | .error error => .error error
      | .ok (extension, frames, nextObject) =>
        let kept :=
          { extension with stickyExtension := extension.stickyExtension.insert key request }
        if extensionStateMapsFit opts kept then
          .ok ({ frames := frames ++ [frame], extension := kept }, nextObject)
        else
          match stickyClearRequest opts request nextObject with
          | .error error => .error error
          | .ok cleared =>
            .ok ({ frames := frames ++ [cleared], extension := extension }, nextObject + 1)
  else .ok ({ frames := [frame], extension := extension }, nextObject)

/-- `prepareExtensionSemanticOperation`. -/
def prepareExtensionSemanticOperation (r : SessionRuntimeCore J T) (processToken : ℕ)
    (plan : ExtensionSemanticPlan J T) : Result J T (PreparedExtensionSemanticOperation J T) :=
  match r.liveProjection with
  | none => (r, .error (rpc "session_snapshot" "session_snapshot_unavailable"))
  | some projection =>
    match projection.prepareBatch r.identity (plan.frames.map (·.input)) (some r.state) with
    | .error error => r.throwProjection error
    | .ok (prepared, token) =>
      let r := { r with liveProjection := some prepared }
      if (prepared.preparedBatches.get? token).all fun batch =>
          opts.snapshotFits batch.candidate plan.extension then
        let envelopes := envelopesFrom r.identity (projection.live.asOfSeq + 1) plan.frames
        let kept := keep opts envelopes r.replay r.lastTransientSeq
        (r, .ok
          { projection := projection.identity
            token := token
            semanticRevision := r.extensionSemanticRevision
            envelopes := envelopes
            replay := kept.1
            lastTransientSeq := kept.2
            extension := plan.extension
            processToken := processToken })
      else r.throwProjection (.limitExceeded .snapshot)

/-- `extensionSemanticOperationEligible`. -/
def extensionSemanticOperationEligible (r : SessionRuntimeCore J T)
    (prepared : PreparedExtensionSemanticOperation J T) : Bool :=
  prepared.processToken = r.processToken &&
    (r.liveProjection.filter (·.identity = prepared.projection)).any (fun projection =>
      (projection.preparedBatches.get? prepared.token).any projection.batchEligible) &&
    prepared.semanticRevision = r.extensionSemanticRevision

/-- `commitExtensionSemanticOperation`. -/
def commitExtensionSemanticOperation (r : SessionRuntimeCore J T)
    (prepared : PreparedExtensionSemanticOperation J T) : Result J T Unit :=
  if !r.extensionSemanticOperationEligible prepared then
    (r, .error (rpc "extension_ui_request" "extension_semantic_operation_stale"))
  else
    match r.liveProjection with
    | none =>
      (r, .error (rpc "extension_ui_request" "extension_projection_commit_invariant_failed"))
    | some projection =>
      match projection.commitPreparedBatch prepared.token with
      | (projection, none) =>
        ({ r with liveProjection := some projection },
          .error (rpc "extension_ui_request" "extension_projection_commit_invariant_failed"))
      | (projection, some seq) =>
        ({ r with
           liveProjection := some projection
           extension := prepared.extension
           extensionSemanticRevision := r.extensionSemanticRevision + 1
           replay := prepared.replay
           lastTransientSeq := prepared.lastTransientSeq
           lastSeq := seq
           state :=
             if !prepared.extension.pendingDialogs.entries.isEmpty then .waitingUi else r.state
           published := r.published ++ prepared.envelopes }, .ok ())

/-- The total size of frames, if it stays within the transient buffer. -/
def totalFrameBytes (frames : List (BufferedFrame J T)) : Option ℕ :=
  let bytes := (frames.map (bufferedFrameBytes opts.codec)).sum
  if bytes > opts.transientBufferMaxBytes then none else some bytes

/-- `trackDialog`. -/
def trackDialog (r : SessionRuntimeCore J T) (request : ExtensionUiRequest J T) (object : ℕ)
    (publishState : Bool) : Result J T Unit :=
  (closeDialog opts r request.id .replaced).andThen fun r _ =>
    let bytes :=
      (r.extension.stickyExtension.entries.map fun entry =>
        extensionRequestBytes opts entry.2).sum +
      (r.extension.pendingDialogs.entries.map fun entry =>
        extensionRequestBytes opts entry.2.request).sum
    if r.extension.pendingDialogs.entries.length ≥ opts.pendingDialogLimit ∨
        bytes + extensionRequestBytes opts request > opts.extensionStateMaxBytes ∨
        r.extension.pendingDialogs.entries.length + r.extension.stickyExtension.entries.length +
          1 > opts.extensionStateMaxItems then
      (r, .error (rpc "extension_ui_request" "pending_dialog_state_limit_exceeded"))
    else
      let r : SessionRuntimeCore J T :=
        { r with
          extension :=
            { r.extension with
              pendingDialogs := r.extension.pendingDialogs.insert request.id ⟨request, object⟩ }
          extensionSemanticRevision := r.extensionSemanticRevision + 1 }
      if publishState then r.setState .waitingUi else (r, .ok ())

/-- A commit that throws ends the generation (`terminalizeGenerationContentFailure`). -/
def terminalizeOnError (processToken owner : ℕ) (result : Result J T Unit) : Result J T Unit :=
  match result with
  | (r, .ok value) => (r, .ok value)
  | (r, .error _) =>
    (if r.isCurrentGenerationContentOwner processToken owner then r.terminalizeProjection else r,
      .ok ())

end SessionRuntimeCore

end PiAgentWeb
