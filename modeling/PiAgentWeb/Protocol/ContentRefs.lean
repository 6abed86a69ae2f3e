import PiAgentWeb.Library.JsValue

/-!
# References to stored content

The reference types of `payload-budget.ts` that the content store, its owners and the transition
ledger exchange, with the guards that admit them and the key under which the owners file them.
-/

namespace PiAgentWeb

/-- `SESSION_ATTACHMENT_BLOB_MAX_BYTES`. -/
def SESSION_ATTACHMENT_BLOB_MAX_BYTES : ℕ := 8 * (1024 * 1024)

/-- `SESSION_CONTENT_BLOB_MAX_BYTES`. -/
def SESSION_CONTENT_BLOB_MAX_BYTES : ℕ := 48 * (1024 * 1024)

/-- `EpochStoredContentRef`: a `SessionAttachmentRefDto` or a `SessionContentRefDto`, whose
encoding is always UTF-8. -/
inductive EpochStoredContentRef where
  | attachmentRef (serverEpoch sha256 mediaType : JsString) (byteLength : ℕ)
  | contentRef (serverEpoch sha256 : JsString) (byteLength : ℕ)
  deriving DecidableEq

/-- `ContentNamespace`. -/
inductive ContentNamespace where
  | attachment
  | utf8
  deriving DecidableEq

namespace EpochStoredContentRef

/-- The epoch of a reference. -/
def serverEpoch : EpochStoredContentRef → JsString
  | attachmentRef serverEpoch _ _ _ => serverEpoch
  | contentRef serverEpoch _ _ => serverEpoch

/-- The digest of a reference. -/
def sha256 : EpochStoredContentRef → JsString
  | attachmentRef _ sha256 _ _ => sha256
  | contentRef _ sha256 _ => sha256

/-- The length of the referenced content. -/
def byteLength : EpochStoredContentRef → ℕ
  | attachmentRef _ _ _ byteLength => byteLength
  | contentRef _ _ byteLength => byteLength

/-- The namespace in which the referenced content is stored. -/
def namespaceOf : EpochStoredContentRef → ContentNamespace
  | attachmentRef .. => .attachment
  | contentRef .. => .utf8

end EpochStoredContentRef

/-- `contentKey`: the namespace and the digest. -/
def contentKey (ref : EpochStoredContentRef) : ContentNamespace × JsString :=
  (ref.namespaceOf, ref.sha256)

/-- `refsEqual`. -/
def refsEqual : EpochStoredContentRef → EpochStoredContentRef → Bool
  | .attachmentRef epoch sha256 mediaType bytes, .attachmentRef epoch' sha256' mediaType' bytes' =>
    epoch == epoch' && sha256 == sha256' && bytes == bytes' && mediaType == mediaType'
  | .contentRef epoch sha256 bytes, .contentRef epoch' sha256' bytes' =>
    epoch == epoch' && sha256 == sha256' && bytes == bytes'
  | _, _ => false

@[simp] theorem refsEqual_iff {left right : EpochStoredContentRef} :
    refsEqual left right = true ↔ left = right := by
  cases left <;> cases right <;> simp [refsEqual] <;> tauto

/-- `SHA256_RE`. -/
def isSha256 (s : JsString) : Bool :=
  s.length == 64 && s.all fun u => (0x30 ≤ u && u ≤ 0x39) || (0x61 ≤ u && u ≤ 0x66)

/-- `[a-z0-9]`. -/
def isMediaStart (u : UInt16) : Bool := (0x61 ≤ u && u ≤ 0x7A) || (0x30 ≤ u && u ≤ 0x39)

/-- `[a-z0-9!#$&^_.+-]`. -/
def isMediaUnit (u : UInt16) : Bool := isMediaStart u || (js "!#$&^_.+-").contains u

/-- One half of `MEDIA_TYPE_RE`. -/
def isMediaName : JsString → Bool
  | [] => false
  | u :: rest => isMediaStart u && rest.length ≤ 126 && rest.all isMediaUnit

/-- `MEDIA_TYPE_RE`: two names around the only slash. -/
def isMediaType (s : JsString) : Bool :=
  match s.span (· != 0x2F) with
  | (_, []) => false
  | (type, _ :: subtype) => isMediaName type && isMediaName subtype

/-- The shared part of both guards. -/
def isContentIdentity (serverEpoch sha256 : JsString) (byteLength maxBytes : ℕ) : Bool :=
  0 < serverEpoch.length && serverEpoch.length ≤ 128 && isSha256 sha256 &&
  0 < byteLength && isSafeInteger byteLength && byteLength ≤ maxBytes

/-- `isStoredContentRef`: `isSessionAttachmentRefDto` or `isSessionContentRefDto`. -/
def isStoredContentRef : EpochStoredContentRef → Bool
  | .attachmentRef serverEpoch sha256 mediaType byteLength =>
    isContentIdentity serverEpoch sha256 byteLength SESSION_ATTACHMENT_BLOB_MAX_BYTES &&
    isMediaType mediaType
  | .contentRef serverEpoch sha256 byteLength =>
    isContentIdentity serverEpoch sha256 byteLength SESSION_CONTENT_BLOB_MAX_BYTES

/-- `EpochContentHold`: an object with a reference, told from others by its identity. -/
structure EpochContentHold where
  identity : ℕ
  ref : EpochStoredContentRef
  deriving DecidableEq

example : isStoredContentRef (.attachmentRef (js "epoch")
    (js "0123456789abcdef0123456789abcdef0123456789abcdef0123456789abcdef") (js "image/svg+xml")
    10) = true := by decide +kernel

end PiAgentWeb
