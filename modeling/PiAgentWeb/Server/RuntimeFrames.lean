import PiAgentWeb.Server.LiveProjection
import PiAgentWeb.Protocol.Control
import Mathlib.Data.List.Range

/-!
# Frames of a Session runtime

The frames a runtime publishes, the replay ring that keeps the newest of them within a count and a
byte limit, and the Extension state that the frames describe: the dialogs that wait for an answer
and the sticky requests that a new subscriber has to see.
-/

namespace PiAgentWeb

variable {J T : Type}

/-- Why a dialog was closed. -/
inductive ExtensionUiCloseReason where
  | answered | cancelled | expired | replaced | processLost
  deriving DecidableEq

/-- The text of a close reason. -/
def ExtensionUiCloseReason.text : ExtensionUiCloseReason → JsString
  | .answered => js "answered"
  | .cancelled => js "cancelled"
  | .expired => js "expired"
  | .replaced => js "replaced"
  | .processLost => js "process_lost"

/-- `BufferedFrame`. A request is an object of its own: two requests with the same content are told
apart. -/
inductive BufferedFrame (J T : Type) where
  | event (event : SessionEvent J T)
  | extensionUiRequest (request : ExtensionUiRequest J T) (object : ℕ)
  | extensionUiClosed (requestId : JsString) (reason : ExtensionUiCloseReason)

/-- The projection reads a frame as an input. -/
def BufferedFrame.input : BufferedFrame J T → SessionLiveProjectionInput J T
  | .event value => .event value
  | .extensionUiRequest request _ => .extensionUiRequest request
  | .extensionUiClosed requestId _ => .extensionUiClosed requestId

/-- `isReplayableFrame`: everything but a notification. -/
def isReplayableFrame : BufferedFrame J T → Bool
  | .extensionUiRequest ⟨_, .notify _ _⟩ _ => false
  | _ => true

/-- `SessionReplayFrame`: a frame under its identity and sequence number. -/
structure SessionReplayFrame (J T : Type) where
  frame : BufferedFrame J T
  identity : SessionLiveProjectionIdentity
  seq : ℕ

/-- The JSON members of a frame. -/
def BufferedFrame.fields (codec : PayloadCodec J T) : BufferedFrame J T → List (JsString × Json)
  | .event value => [strField "type" (js "event"), (js "event", codec.eventJson value)]
  | .extensionUiRequest request _ =>
    [strField "type" (js "extension_ui_request"),
      (js "request", codec.extensionRequestJson request)]
  | .extensionUiClosed requestId reason =>
    [strField "type" (js "extension_ui_closed"), strField "requestId" requestId,
      strField "reason" reason.text]

/-- `bufferedFrameBytes`. -/
def bufferedFrameBytes (codec : PayloadCodec J T) (frame : BufferedFrame J T) : ℕ :=
  (Json.obj (frame.fields codec)).byteLength

/-- The size of a published frame on the wire. -/
def envelopeBytes (codec : PayloadCodec J T) (envelope : SessionReplayFrame J T) : ℕ :=
  (Json.obj (envelope.frame.fields codec ++ envelope.identity.fields ++
    [natField "seq" envelope.seq])).byteLength

/-- `replay`, `replayFrameBytes` and `replayBytes`: the kept frames, their sizes and the sum. -/
structure ReplayRing (J T : Type) where
  replay : List (SessionReplayFrame J T)
  replayFrameBytes : List ℕ
  replayBytes : ℕ
  lengths : replayFrameBytes.length = replay.length
  total : replayBytes = replayFrameBytes.sum

namespace ReplayRing

/-- The ring without frames. -/
def empty : ReplayRing J T where
  replay := []
  replayFrameBytes := []
  replayBytes := 0
  lengths := rfl
  total := rfl

/-- A frame enters the ring. -/
def push (ring : ReplayRing J T) (envelope : SessionReplayFrame J T) (bytes : ℕ) :
    ReplayRing J T where
  replay := ring.replay ++ [envelope]
  replayFrameBytes := ring.replayFrameBytes ++ [bytes]
  replayBytes := ring.replayBytes + bytes
  lengths := by simp [ring.lengths]
  total := by simp [ring.total]

/-- How many of the oldest frames have to go. A ring over a limit has a frame. -/
def removeCount (replayLimit replayMaxBytes : ℕ) : List ℕ → ℕ → ℕ
  | [], _ => 0
  | frameBytes :: rest, bytes =>
    if rest.length + 1 > replayLimit ∨ bytes > replayMaxBytes then
      removeCount replayLimit replayMaxBytes rest (bytes - frameBytes) + 1
    else 0

/-- The eviction loop: the oldest frames leave until both limits hold. -/
def trim (ring : ReplayRing J T) (replayLimit replayMaxBytes : ℕ) : ReplayRing J T :=
  let count := removeCount replayLimit replayMaxBytes ring.replayFrameBytes ring.replayBytes
  { replay := ring.replay.drop count
    replayFrameBytes := ring.replayFrameBytes.drop count
    replayBytes := ring.replayBytes - (ring.replayFrameBytes.take count).sum
    lengths := by simp [ring.lengths]
    total := by
      have hsum := congrArg List.sum (List.take_append_drop count ring.replayFrameBytes)
      rw [List.sum_append] at hsum
      rw [ring.total]
      omega }

theorem removeCount_spec (replayLimit replayMaxBytes : ℕ) (sizes : List ℕ) :
    (sizes.drop (removeCount replayLimit replayMaxBytes sizes sizes.sum)).length ≤ replayLimit ∧
      (sizes.drop (removeCount replayLimit replayMaxBytes sizes sizes.sum)).sum ≤
        replayMaxBytes := by
  induction sizes with
  | nil => simp [removeCount]
  | cons frameBytes rest ih =>
    rw [removeCount]
    split
    · have hrest : (frameBytes :: rest).sum - frameBytes = rest.sum := by simp
      rw [hrest, List.drop_succ_cons]
      exact ih
    · rename_i hfits
      simp only [not_or, not_lt] at hfits
      simpa using hfits

end ReplayRing

/-- `PendingDialog`: a request and the identity of its object. -/
structure PendingDialog (J T : Type) where
  request : ExtensionUiRequest J T
  object : ℕ

/-- `pendingDialogs` and `stickyExtension`. -/
structure ExtensionState (J T : Type) where
  pendingDialogs : InsertionMap JsString (PendingDialog J T)
  stickyExtension : InsertionMap JsString (ExtensionUiRequest J T)

/-- `STICKY_EXTENSION_METHODS`. -/
def ExtensionUiRequestBody.sticky : ExtensionUiRequestBody J T → Bool
  | .setStatus .. | .setWidget .. | .setTitle .. | .setEditorText .. => true
  | _ => false

/-- `stickyRequestKey`. -/
def stickyRequestKey (request : ExtensionUiRequest J T) : JsString :=
  match request.body with
  | .setStatus statusKey _ => js "setStatus:" ++ statusKey
  | .setWidget widgetKey _ _ => js "setWidget:" ++ widgetKey
  | .select .. => js "select"
  | .confirm .. => js "confirm"
  | .input .. => js "input"
  | .editor .. => js "editor"
  | .notify .. => js "notify"
  | .setTitle .. => js "setTitle"
  | .setEditorText .. => js "set_editor_text"

/-- `stickyRequestClearsState`. -/
def stickyRequestClearsState (request : ExtensionUiRequest J T) : Bool :=
  match request.body with
  | .setStatus _ none => true
  | .setWidget _ none _ => true
  | _ => false

end PiAgentWeb
