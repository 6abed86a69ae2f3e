import PiAgentWeb.Library.JsValue
import PiAgentWeb.Library.SlidingTail

/-!
# Raster admission

An attachment is admitted while its bytes stream by: a fixed prefix has to match the media type,
and a container validator looks at the last bytes, or walks the RIFF chunks of a WebP file byte by
byte. Nothing but the prefix, a short tail and a chunk header is kept.
-/

namespace PiAgentWeb

/-- `RasterAdmissionErrorCode`. -/
inductive RasterAdmissionErrorCode where
  | invalidRasterMagic | invalidRasterStructure | truncatedRasterHeader | unsupportedMediaType
  deriving DecidableEq

/-- `RasterAdmissionError`. -/
structure RasterAdmissionError where
  code : RasterAdmissionErrorCode
  message : String
  deriving DecidableEq

/-- The error of an unknown media type. -/
def unsupportedMediaType : RasterAdmissionError :=
  ⟨.unsupportedMediaType, "Attachment media type is not supported"⟩

/-- The error of a body that ends within its header. -/
def truncatedRasterHeader : RasterAdmissionError :=
  ⟨.truncatedRasterHeader, "Attachment raster header is truncated"⟩

/-- The error of a header of another type. -/
def invalidRasterMagic : RasterAdmissionError :=
  ⟨.invalidRasterMagic, "Attachment bytes do not match the media type"⟩

/-- `invalidRasterStructure`. -/
def invalidRasterStructure : RasterAdmissionError :=
  ⟨.invalidRasterStructure, "Attachment raster structure is invalid"⟩

/-! ## Reading a buffer -/

/-- A byte of a buffer, as a number. -/
def byteAt (bytes : List UInt8) (offset : ℕ) : ℕ := (bytes.getD offset 0).toNat

/-- `buffer.readUInt16LE`. -/
def readUInt16LE (bytes : List UInt8) (offset : ℕ) : ℕ :=
  byteAt bytes offset + 256 * byteAt bytes (offset + 1)

/-- `buffer.readUInt32LE`. -/
def readUInt32LE (bytes : List UInt8) (offset : ℕ) : ℕ :=
  readUInt16LE bytes offset + 65536 * readUInt16LE bytes (offset + 2)

/-- `buffer.readUInt32BE`. -/
def readUInt32BE (bytes : List UInt8) (offset : ℕ) : ℕ :=
  byteAt bytes offset * 16777216 + byteAt bytes (offset + 1) * 65536 +
    byteAt bytes (offset + 2) * 256 + byteAt bytes (offset + 3)

/-- `buffer.subarray(start, stop)`. -/
def subarray (bytes : List UInt8) (start stop : ℕ) : List UInt8 := (bytes.take stop).drop start

/-- `buffer.toString("ascii")`: the highest bit of every byte is dropped. -/
def asciiText (bytes : List UInt8) : JsString :=
  bytes.map fun byte => UInt16.ofNat (byte.toNat % 128)

/-! ## The headers -/

/-- The header of a PNG file: its signature and an `IHDR` chunk with a width and a height. -/
def matchesPngPrefix (header : List UInt8) (byteLength : ℕ) : Bool :=
  33 ≤ byteLength &&
    subarray header 0 8 == [0x89, 0x50, 0x4e, 0x47, 0x0d, 0x0a, 0x1a, 0x0a] &&
    readUInt32BE header 8 == 13 &&
    asciiText (subarray header 12 16) == js "IHDR" &&
    0 < readUInt32BE header 16 &&
    0 < readUInt32BE header 20

/-- `matchesJpegPrefix`. -/
def matchesJpegPrefix (header : List UInt8) (byteLength : ℕ) : Bool :=
  6 ≤ byteLength &&
    byteAt header 0 == 0xff &&
    byteAt header 1 == 0xd8 &&
    byteAt header 2 == 0xff &&
    byteAt header 3 != 0x00 &&
    byteAt header 3 != 0xd8 &&
    byteAt header 3 != 0xd9

/-- The header of a WebP file and the type of its first chunk. -/
def matchesWebpPrefix (header : List UInt8) (byteLength : ℕ) : Bool :=
  let chunkType := asciiText (subarray header 12 16)
  20 ≤ byteLength &&
    asciiText (subarray header 0 4) == js "RIFF" &&
    asciiText (subarray header 8 12) == js "WEBP" &&
    (chunkType == js "VP8 " || chunkType == js "VP8L" || chunkType == js "VP8X")

/-- The signature of a GIF file and its size. -/
def matchesGifPrefix (header : List UInt8) (_byteLength : ℕ) : Bool :=
  let signature := asciiText (subarray header 0 6)
  (signature == js "GIF87a" || signature == js "GIF89a") &&
    0 < readUInt16LE header 6 &&
    0 < readUInt16LE header 8

/-! ## The containers -/

/-- `WebpContainerValidator`. The filled part of `#chunkHeader` is kept. -/
structure WebpContainerValidator where
  offset : ℕ
  chunkHeader : List UInt8
  chunkRemaining : ℕ
  chunkNeedsPadding : Bool
  paddingPending : Bool
  byteLength : ℕ
  declaredRiffSize : ℕ
  deriving DecidableEq

namespace WebpContainerValidator

/-- The constructor. -/
def create (header : List UInt8) (byteLength : ℕ) : WebpContainerValidator where
  offset := 0
  chunkHeader := []
  chunkRemaining := 0
  chunkNeedsPadding := false
  paddingPending := false
  byteLength := byteLength
  declaredRiffSize := readUInt32LE header 4

/-- The body of the loop of `push`, for one byte. -/
def pushByte (v : WebpContainerValidator) (byte : UInt8) :
    Except RasterAdmissionError WebpContainerValidator :=
  let position := v.offset
  let v := { v with offset := v.offset + 1 }
  if position < 12 then .ok v
  else if v.paddingPending then .ok { v with paddingPending := false }
  else if 0 < v.chunkRemaining then
    .ok
      { v with
        chunkRemaining := v.chunkRemaining - 1
        paddingPending :=
          if v.chunkRemaining - 1 = 0 then v.chunkNeedsPadding else v.paddingPending }
  else
    let chunkHeader := v.chunkHeader ++ [byte]
    if chunkHeader.length ≠ 8 then .ok { v with chunkHeader := chunkHeader }
    else
      let chunkSize := readUInt32LE chunkHeader 4
      let paddedSize := chunkSize + chunkSize % 2
      if v.byteLength < v.offset + paddedSize then .error invalidRasterStructure
      else
        .ok
          { v with
            chunkHeader := []
            chunkRemaining := chunkSize
            chunkNeedsPadding := chunkSize % 2 != 0 }

/-- `push`. -/
def push (v : WebpContainerValidator) (chunk : List UInt8) :
    Except RasterAdmissionError WebpContainerValidator :=
  chunk.foldlM pushByte v

/-- `finish`. -/
def finish (v : WebpContainerValidator) : Except RasterAdmissionError Unit :=
  if v.declaredRiffSize + 8 ≠ v.byteLength ∨ v.offset ≠ v.byteLength ∨ v.chunkHeader ≠ [] ∨
      v.chunkRemaining ≠ 0 ∨ v.paddingPending then
    .error invalidRasterStructure
  else .ok ()

end WebpContainerValidator

/-- `ContainerValidator`. -/
inductive ContainerValidator where
  | tail (expectedPrefix : List UInt8) (tailBytes : ℕ) (kept : SlidingTail UInt8)
  | webp (v : WebpContainerValidator)

/-- `tailValidator`. -/
def tailValidator (expectedPrefix : List UInt8) (tailBytes : ℕ) : ContainerValidator :=
  .tail expectedPrefix tailBytes ⟨List.replicate tailBytes 0, 0⟩

namespace ContainerValidator

/-- `push`. -/
def push : ContainerValidator → List UInt8 → Except RasterAdmissionError ContainerValidator
  | .tail expectedPrefix tailBytes kept, chunk =>
    .ok (.tail expectedPrefix tailBytes (kept.push tailBytes chunk))
  | .webp v, chunk => (v.push chunk).map .webp

/-- `finish`. -/
def finish : ContainerValidator → Except RasterAdmissionError Unit
  | .tail expectedPrefix tailBytes kept =>
    if kept.seen < tailBytes ∨ kept.buffer.take expectedPrefix.length ≠ expectedPrefix then
      .error invalidRasterStructure
    else .ok ()
  | .webp v => v.finish

end ContainerValidator

/-! ## The rules -/

/-- `RasterRule`. -/
structure RasterRule where
  fileExtension : String
  minimumBytes : ℕ
  prefixBytes : ℕ
  matchesPrefix : List UInt8 → ℕ → Bool
  validator : List UInt8 → ℕ → ContainerValidator

/-- `RASTER_RULES`. -/
def rasterRules : String → Option RasterRule
  | "image/png" => some
    { fileExtension := "png"
      minimumBytes := 24
      prefixBytes := 24
      matchesPrefix := matchesPngPrefix
      validator := fun _ _ =>
        tailValidator [0x00, 0x00, 0x00, 0x00, 0x49, 0x45, 0x4e, 0x44] 12 }
  | "image/jpeg" => some
    { fileExtension := "jpg"
      minimumBytes := 6
      prefixBytes := 4
      matchesPrefix := matchesJpegPrefix
      validator := fun _ _ => tailValidator [0xff, 0xd9] 2 }
  | "image/webp" => some
    { fileExtension := "webp"
      minimumBytes := 20
      prefixBytes := 20
      matchesPrefix := matchesWebpPrefix
      validator := fun header byteLength => .webp (.create header byteLength) }
  | "image/gif" => some
    { fileExtension := "gif"
      minimumBytes := 13
      prefixBytes := 13
      matchesPrefix := matchesGifPrefix
      validator := fun _ _ => tailValidator [0x3b] 1 }
  | _ => none

/-! ## The validator -/

/-- `RasterAdmissionValidator`: the rule and the length it was created with, the part of the
prefix that was seen, and the container once the prefix is complete. -/
structure RasterAdmissionValidator where
  rule : RasterRule
  byteLength : ℕ
  header : List UInt8
  failure : Option RasterAdmissionError
  container : Option ContainerValidator

/-- `createRasterAdmissionValidator`. -/
def createRasterAdmissionValidator (mediaType : String) (byteLength : ℕ) :
    Except RasterAdmissionError RasterAdmissionValidator :=
  match rasterRules mediaType with
  | none => .error unsupportedMediaType
  | some rule =>
    if byteLength < rule.minimumBytes then .error truncatedRasterHeader
    else
      .ok
        { rule := rule, byteLength := byteLength, header := [], failure := none,
          container := none }

namespace RasterAdmissionValidator

/-- The bytes go to the container, and its error is kept. -/
def pushContainer (v : RasterAdmissionValidator) (container : ContainerValidator)
    (bytes : List UInt8) : RasterAdmissionValidator :=
  match container.push bytes with
  | .error error => { v with failure := some error, container := none }
  | .ok container => { v with container := some container }

/-- The part of `push` behind the prefix, if there is a container by now. -/
def pushRemainder (v : RasterAdmissionValidator) (remainder : List UInt8) :
    RasterAdmissionValidator :=
  match v.container with
  | none => v
  | some container => if remainder.isEmpty then v else v.pushContainer container remainder

/-- `push`. -/
def push (v : RasterAdmissionValidator) (chunk : List UInt8) : RasterAdmissionValidator :=
  if v.failure.isSome || chunk.isEmpty then v
  else if v.container.isSome then v.pushRemainder chunk
  else
    let prefixLength := min v.rule.prefixBytes v.byteLength
    let copied := min chunk.length (prefixLength - v.header.length)
    let v := { v with header := v.header ++ chunk.take copied }
    if v.header.length ≠ prefixLength then v
    else if !v.rule.matchesPrefix v.header v.byteLength then
      { v with failure := some invalidRasterMagic }
    else
      (v.pushContainer (v.rule.validator v.header v.byteLength) v.header).pushRemainder
        (chunk.drop copied)

/-- `finish`. -/
def finish (v : RasterAdmissionValidator) : Except RasterAdmissionError Unit :=
  match v.failure, v.container with
  | some error, _ => .error error
  | none, none => .error truncatedRasterHeader
  | none, some container => container.finish

end RasterAdmissionValidator

/-- A body of the declared length is validated chunk by chunk. -/
def admitChunks (mediaType : String) (byteLength : ℕ) (chunks : List (List UInt8)) :
    Except RasterAdmissionError Unit := do
  let validator ← createRasterAdmissionValidator mediaType byteLength
  (chunks.foldl RasterAdmissionValidator.push validator).finish

/-! ## Well-formed bodies -/

/-- The body ends with so many bytes, the first of which are the expected ones. -/
def EndsWith (expectedPrefix : List UInt8) (tailBytes : ℕ) (body : List UInt8) : Prop :=
  tailBytes ≤ body.length ∧ expectedPrefix <+: body.drop (body.length - tailBytes)

/-- A sequence of RIFF chunks: a header with the size of the payload, the payload, and a padding
byte behind a payload of odd size. -/
inductive RiffChunks : List UInt8 → Prop where
  | nil : RiffChunks []
  | chunk {header payload padding rest : List UInt8} (hheader : header.length = 8)
      (hpayload : payload.length = readUInt32LE header 4)
      (hpadding : padding.length = payload.length % 2) (hrest : RiffChunks rest) :
      RiffChunks (header ++ (payload ++ (padding ++ rest)))

/-- What the container of a media type has to be like. -/
def RasterStructure (mediaType : String) (body : List UInt8) : Prop :=
  match mediaType with
  | "image/png" => EndsWith [0x00, 0x00, 0x00, 0x00, 0x49, 0x45, 0x4e, 0x44] 12 body
  | "image/jpeg" => EndsWith [0xff, 0xd9] 2 body
  | "image/gif" => EndsWith [0x3b] 1 body
  | "image/webp" => readUInt32LE body 4 + 8 = body.length ∧ RiffChunks (body.drop 12)
  | _ => False

open Classical in
/-- What becomes of a body as a whole. -/
noncomputable def admitBody (mediaType : String) (body : List UInt8) :
    Except RasterAdmissionError Unit :=
  match rasterRules mediaType with
  | none => .error unsupportedMediaType
  | some rule =>
    if body.length < rule.minimumBytes then .error truncatedRasterHeader
    else if !rule.matchesPrefix (body.take rule.prefixBytes) body.length then
      .error invalidRasterMagic
    else if RasterStructure mediaType body then .ok ()
    else .error invalidRasterStructure

end PiAgentWeb
