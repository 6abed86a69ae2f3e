import PiAgentWeb.Library.Base64
import PiAgentWeb.Library.Utf8Validity
import PiAgentWeb.Server.RasterAdmission

/-!
# Workspace files

Inspection of a file reads a beginning of it, tells images, text and other content apart, and keeps
a shorter beginning as a preview. A capture inspects again and reads the whole file. The file keeps
its identity and with it its content; the regular expressions are parameters.
-/

namespace PiAgentWeb

/-- `WORKSPACE_FILE_METADATA_READ_MAX_BYTES`. -/
def workspaceFileMetadataReadMaxBytes : ℕ := 16 * 1024

/-- `WORKSPACE_FILE_PREVIEW_MAX_BYTES`. -/
def workspaceFilePreviewMaxBytes : ℕ := 2 * 1024

/-- `WORKSPACE_FILE_LARGE_THRESHOLD_BYTES`. -/
def workspaceFileLargeThresholdBytes : ℕ := 64 * 1024

/-- `WORKSPACE_FILE_TEXT_MAX_BYTES`. -/
def workspaceFileTextMaxBytes : ℕ := 256 * 1024

/-- `WORKSPACE_FILE_BINARY_MAX_BYTES`. -/
def workspaceFileBinaryMaxBytes : ℕ := 64 * 1024

/-- `WORKSPACE_FILE_IMAGE_MAX_BYTES`. -/
def workspaceFileImageMaxBytes : ℕ := 1536 * 1024

/-- `WorkspaceFileKindDto`. -/
inductive WorkspaceFileKind where
  | text
  | image
  | binary
  | unknown
  deriving DecidableEq

/-- `WorkspaceFileRiskDto`. -/
inductive WorkspaceFileRisk where
  | hidden
  | generated
  | large
  | image
  | binary
  | credential
  | ignored
  | policyUnknown
  deriving DecidableEq

/-- The availability of a file. -/
inductive WorkspaceFileAvailability where
  | ready
  | confirmationRequired
  | blocked
  | unavailable
  deriving DecidableEq

/-- `WorkspaceFileMetadataDto`, without the estimate of its tokens. -/
structure WorkspaceFileMetadata where
  path : JsString
  canonicalIdentity : Option JsString
  byteSize : Option ℕ
  kind : WorkspaceFileKind
  mimeType : Option JsString
  risks : List WorkspaceFileRisk
  availability : WorkspaceFileAvailability
  reason : Option JsString
  preview : Option JsString
  previewTruncated : Bool
  deriving DecidableEq

/-- `WorkspaceFileReferenceError`. -/
structure WorkspaceFileReferenceError where
  status : ℕ
  code : JsString
  message : JsString
  deriving DecidableEq

/-- A regular file inside the Workspace. -/
structure WorkspaceFile where
  relativePath : JsString
  identity : JsString
  content : List UInt8

/-- `VerifiedFile`: what inspection keeps of a file. -/
structure VerifiedFile where
  relativePath : JsString
  identity : JsString
  size : ℕ
  prefixBytes : List UInt8

/-- The regular expressions for the names of generated files, for the names of files with
credentials and for their content. -/
structure WorkspaceFilePatterns where
  generatedFile : JsString → Bool
  credentialFile : JsString → Bool
  credentialContent : JsString → Bool

/-- What `ignoredPaths` says about one file. -/
structure GitIgnoreResult where
  ignored : Bool
  policyUnknown : Bool

/-- The content of a `WorkspaceFileReferenceDto`. -/
inductive WorkspaceFileContent where
  | image (mimeType data : JsString)
  | binaryBase64 (data : JsString)
  | text (text : JsString)
  deriving DecidableEq

/-- `WorkspaceFileReferenceDto`. -/
structure WorkspaceFileReference where
  metadata : WorkspaceFileMetadata
  content : WorkspaceFileContent
  deriving DecidableEq

/-- `WorkspaceFileCaptureRequestDto`, without the path. -/
structure WorkspaceFileCaptureRequest where
  canonicalIdentity : JsString
  confirmed : Bool

/-- `detectImageMimeType`. -/
def detectImageMimeType (bytes : List UInt8) : Option JsString :=
  let six := asciiText (subarray bytes 0 6)
  if 8 ≤ bytes.length && subarray bytes 0 8 == [137, 80, 78, 71, 13, 10, 26, 10] then
    some (js "image/png")
  else if 3 ≤ bytes.length && bytes[0]? == some 0xff && bytes[1]? == some 0xd8 &&
      bytes[2]? == some 0xff then some (js "image/jpeg")
  else if six == js "GIF87a" || six == js "GIF89a" then some (js "image/gif")
  else if 12 ≤ bytes.length && asciiText (subarray bytes 0 4) == js "RIFF" &&
      asciiText (subarray bytes 8 12) == js "WEBP" then some (js "image/webp")
  else none

/-- `isUtf8Text`. -/
def isUtf8Text (bytes : List UInt8) : Bool :=
  if bytes.contains 0 then false else (StringDecoder.textDecoderFatal bytes).isSome

/-- `previewText`. -/
def previewText (bytes : List UInt8) : JsString :=
  StringDecoder.textDecoder (subarray bytes 0 workspaceFilePreviewMaxBytes)

namespace WorkspaceFileKind

/-- The word for a kind. -/
def word : WorkspaceFileKind → JsString
  | .text => js "text"
  | .image => js "image"
  | .binary => js "binary"
  | .unknown => js "unknown"

/-- `captureLimit`. -/
def captureLimit : WorkspaceFileKind → ℕ
  | .image => workspaceFileImageMaxBytes
  | .binary => workspaceFileBinaryMaxBytes
  | .text => workspaceFileTextMaxBytes
  | .unknown => 0

/-- The reason why a file is blocked. -/
def limitReason (kind : WorkspaceFileKind) : JsString :=
  js "file exceeds the " ++ jsNat kind.captureLimit ++ js " byte " ++ kind.word ++
    js " capture limit"

end WorkspaceFileKind

/-- `safeStatSize`. -/
def safeStatSize (size : ℕ) : ℕ := if isSafeInteger size then size else 2 ^ 53 - 1

/-- `uniqueRisks`. -/
def uniqueRisks (risks : List WorkspaceFileRisk) : List WorkspaceFileRisk := risks.eraseDups

/-- `GENERATED_DIRECTORIES`. -/
def generatedDirectories : List JsString :=
  [js "dist", js "build", js "coverage", js "out", js "target", js "vendor", js ".next",
    js ".nuxt", js ".turbo"]

/-- `openVerifiedPrefix`. -/
def openVerifiedPrefix (file : WorkspaceFile) : VerifiedFile where
  relativePath := file.relativePath
  identity := file.identity
  size := file.content.length
  prefixBytes := file.content.take (min file.content.length workspaceFileMetadataReadMaxBytes)

/-- `finalizeMetadata`. -/
def finalizeMetadata (metadata : WorkspaceFileMetadata) : WorkspaceFileMetadata :=
  if metadata.availability = .unavailable ∨ metadata.canonicalIdentity = none then metadata
  else
    let suppressPreview := metadata.risks.any fun risk =>
      risk = .credential || risk = .ignored || risk = .policyUnknown
    let safeMetadata := if suppressPreview then { metadata with preview := none } else metadata
    let maxBytes := metadata.kind.captureLimit
    if metadata.byteSize.any (maxBytes < ·) then
      { safeMetadata with
        availability := .blocked
        reason := some metadata.kind.limitReason }
    else
      { safeMetadata with
        availability := if metadata.risks.length > 0 then .confirmationRequired else .ready }

/-- The kind of a file. -/
def kindOf (bytes : List UInt8) : WorkspaceFileKind :=
  if (detectImageMimeType bytes).isSome then .image
  else if !isUtf8Text bytes then .binary
  else .text

/-- The file may hold credentials. -/
def mayHoldCredential (patterns : WorkspaceFilePatterns) (fileName : JsString)
    (kind : WorkspaceFileKind) (bytes : List UInt8) : Bool :=
  patterns.credentialFile fileName ||
    (kind = .text && patterns.credentialContent (StringDecoder.decode bytes))

/-- The risks of a file, as inspection finds them. -/
def risksOf (patterns : WorkspaceFilePatterns) (file : VerifiedFile) (kind : WorkspaceFileKind)
    (credential : Bool) : List WorkspaceFileRisk :=
  let segments := file.relativePath.splitOn 0x2F
  (if segments.any fun segment => segment.head? == some 0x2E && segment != js "." then [.hidden]
    else []) ++
  (if segments.any generatedDirectories.contains ||
      patterns.generatedFile (segments.getLast?.getD []) then [.generated] else []) ++
  (if safeStatSize file.size > workspaceFileLargeThresholdBytes then [.large] else []) ++
  (if kind = .image then [.image] else []) ++
  (if kind = .binary then [.binary] else []) ++
  (if credential then [.credential] else [])

/-- `metadataForVerified`. -/
def metadataForVerified (patterns : WorkspaceFilePatterns) (file : VerifiedFile) :
    WorkspaceFileMetadata :=
  let byteSize := safeStatSize file.size
  let kind := kindOf file.prefixBytes
  let fileName := (file.relativePath.splitOn 0x2F).getLast?.getD []
  let credential := mayHoldCredential patterns fileName kind file.prefixBytes
  let risks := risksOf patterns file kind credential
  let blocked := byteSize > kind.captureLimit
  finalizeMetadata
    { path := file.relativePath
      canonicalIdentity := some file.identity
      byteSize := some byteSize
      kind := kind
      mimeType := detectImageMimeType file.prefixBytes
      risks := uniqueRisks risks
      availability := if blocked then .blocked
        else if risks.length > 0 then .confirmationRequired else .ready
      reason := if blocked then some kind.limitReason else none
      preview := if kind = .text ∧ credential = false then some (previewText file.prefixBytes)
        else none
      previewTruncated := kind = .text && byteSize > workspaceFilePreviewMaxBytes }

/-- The metadata with what Git says about the file, as a search lists it and a capture checks
it. -/
def withPolicy (metadata : WorkspaceFileMetadata) (git : GitIgnoreResult) :
    WorkspaceFileMetadata :=
  finalizeMetadata { metadata with
    risks := uniqueRisks (metadata.risks ++
      if git.ignored then [.ignored] else if git.policyUnknown then [.policyUnknown] else []) }

/-- `unavailableMetadata`. -/
def unavailableMetadata (pathValue reason : JsString) : WorkspaceFileMetadata where
  path := pathValue
  canonicalIdentity := none
  byteSize := none
  kind := .unknown
  mimeType := none
  risks := []
  availability := .unavailable
  reason := some reason
  preview := none
  previewTruncated := false

/-- `inspectCandidate`: the file system finds a regular file under the path, or it does not. -/
def inspectCandidate (patterns : WorkspaceFilePatterns) (path : JsString)
    (found : Except JsString WorkspaceFile) : WorkspaceFileMetadata × Option VerifiedFile :=
  match found with
  | .ok file =>
    let verified := openVerifiedPrefix file
    (metadataForVerified patterns verified, some verified)
  | .error reason => (unavailableMetadata path reason, none)

/-! ## Capture -/

/-- The loop of `readVerifiedBytes`: a read at an offset returns some of the bytes up to the next
64 KiB, and none of them is an error. -/
def readFrom (content : List UInt8) (reads : ℕ → ℕ) (bytes : List UInt8) : Option (List UInt8) :=
  if bytes.length < content.length then
    let bytesRead := min (reads bytes.length) (min (64 * 1024) (content.length - bytes.length))
    if bytesRead = 0 then none
    else readFrom content reads (bytes ++ (content.drop bytes.length).take bytesRead)
  else some bytes
termination_by content.length - bytes.length
decreasing_by
  simp only [List.length_append, List.length_take, List.length_drop]
  omega

/-- `readVerifiedBytes`. -/
def readVerifiedBytes (verified : VerifiedFile) (content : List UInt8) (maxBytes : ℕ)
    (reads : ℕ → ℕ) : Except WorkspaceFileReferenceError (List UInt8) :=
  if verified.size > maxBytes then
    .error
      { status := 422
        code := js "workspace_file_too_large"
        message := js "Workspace file exceeds its capture byte budget" }
  else
    match readFrom content reads [] with
    | some bytes => .ok bytes
    | none =>
      .error
        { status := 409
          code := js "workspace_file_identity_changed"
          message := js "Workspace file changed while it was being captured" }

/-- The end of `capture`: the content by the kind of the file. -/
def referenceOf (metadata : WorkspaceFileMetadata) (bytes : List UInt8) :
    Except WorkspaceFileReferenceError WorkspaceFileReference :=
  match metadata.kind, metadata.mimeType with
  | .image, some mimeType =>
    .ok ⟨{ metadata with preview := none }, .image mimeType (base64Encode bytes)⟩
  | kind, _ =>
    if kind = .binary then
      .ok ⟨{ metadata with preview := none }, .binaryBase64 (base64Encode bytes)⟩
    else
      match StringDecoder.textDecoderFatal bytes with
      | some text => .ok ⟨{ metadata with preview := none }, .text text⟩
      | none =>
        .error
          { status := 409
            code := js "workspace_file_classification_changed"
            message := js "Workspace file is no longer valid UTF-8 text" }

/-- `capture`, of a file that the file system finds or does not find under the path of the
request. -/
def capture (patterns : WorkspaceFilePatterns) (path : JsString)
    (found : Except JsString WorkspaceFile) (git : GitIgnoreResult) (reads : ℕ → ℕ)
    (request : WorkspaceFileCaptureRequest) :
    Except WorkspaceFileReferenceError WorkspaceFileReference :=
  if request.canonicalIdentity = [] ∨ request.canonicalIdentity.length > 256 then
    .error
      { status := 422
        code := js "workspace_file_identity_invalid"
        message := js "Workspace file identity is invalid" }
  else
    match found, inspectCandidate patterns path found with
    | .ok file, (candidate, some verified) =>
      if candidate.availability = .unavailable then
        .error
          { status := 409
            code := js "workspace_file_unavailable"
            message := js "Workspace file is unavailable" }
      else if verified.identity ≠ request.canonicalIdentity then
        .error
          { status := 409
            code := js "workspace_file_identity_changed"
            message := js "Workspace file changed after preview" }
      else
        let metadata := withPolicy candidate git
        if metadata.availability = .blocked then
          .error
            { status := 422
              code := js "workspace_file_policy_blocked"
              message :=
                metadata.reason.getD (js "Workspace file is blocked by content policy") }
        else if metadata.availability = .confirmationRequired ∧ request.confirmed = false then
          .error
            { status := 409
              code := js "workspace_file_confirmation_required"
              message := js "Workspace file requires explicit confirmation" }
        else
          match readVerifiedBytes verified file.content metadata.kind.captureLimit reads with
          | .ok bytes => referenceOf metadata bytes
          | .error error => .error error
    | _, _ =>
      .error
        { status := 409
          code := js "workspace_file_unavailable"
          message := js "Workspace file is unavailable" }

/-! ## What one expects of inspection and capture -/

/-- The request names the file and confirms its risks. -/
def Accepts (metadata : WorkspaceFileMetadata) (request : WorkspaceFileCaptureRequest) : Prop :=
  request.canonicalIdentity ≠ [] ∧ request.canonicalIdentity.length ≤ 256 ∧
    metadata.canonicalIdentity = some request.canonicalIdentity ∧
    (metadata.risks = [] ∨ request.confirmed = true)

/-- The file is text, its preview is a beginning of the text, and captures within the limit return
all of it. -/
structure ReadAsText (patterns : WorkspaceFilePatterns) (path : JsString) (file : WorkspaceFile)
    (git : GitIgnoreResult) (text : JsString) : Prop where
  kind : (withPolicy (inspectCandidate patterns path (.ok file)).1 git).kind = .text
  preview : ∀ preview,
    (withPolicy (inspectCandidate patterns path (.ok file)).1 git).preview = some preview →
      preview <+: text
  captured : file.content.length ≤ workspaceFileTextMaxBytes → ∀ request,
    Accepts (withPolicy (inspectCandidate patterns path (.ok file)).1 git) request →
      ∀ reads : ℕ → ℕ, (∀ offset, 0 < reads offset) → ∃ reference,
        capture patterns path (.ok file) git reads request = .ok reference ∧
          reference.content = .text text
  exact : ∀ request reads reference,
    capture patterns path (.ok file) git reads request = .ok reference →
      reference.content = .text text

/-- The preview is kept back: the file may hold credentials, or Git ignores it, or nobody knows. -/
def PreviewKeptBack (patterns : WorkspaceFilePatterns) (file : WorkspaceFile)
    (git : GitIgnoreResult) : Prop :=
  patterns.credentialFile ((file.relativePath.splitOn 0x2F).getLast?.getD []) = true ∨
    patterns.credentialContent (StringDecoder.decode (openVerifiedPrefix file).prefixBytes) = true ∨
    git.ignored = true ∨ git.policyUnknown = true

end PiAgentWeb
