import PiAgentWeb.Server.WorkspaceFiles

/-!
# Classes of Workspace files

A text file is found to be text unless the limit of the metadata falls inside a character, and its
preview is a beginning of the text unless the shorter limit does. A file that is found to be text is
captured as all of its text, and one with a NUL byte or an error in the inspected part never is.
-/

namespace PiAgentWeb

variable {patterns : WorkspaceFilePatterns} {file : WorkspaceFile} {git : GitIgnoreResult}

/-! ## Metadata -/

@[simp] theorem finalizeMetadata_kind (metadata : WorkspaceFileMetadata) :
    (finalizeMetadata metadata).kind = metadata.kind := by
  simp only [finalizeMetadata]
  split_ifs <;> rfl

@[simp] theorem finalizeMetadata_mimeType (metadata : WorkspaceFileMetadata) :
    (finalizeMetadata metadata).mimeType = metadata.mimeType := by
  simp only [finalizeMetadata]
  split_ifs <;> rfl

@[simp] theorem finalizeMetadata_canonicalIdentity (metadata : WorkspaceFileMetadata) :
    (finalizeMetadata metadata).canonicalIdentity = metadata.canonicalIdentity := by
  simp only [finalizeMetadata]
  split_ifs <;> rfl

@[simp] theorem finalizeMetadata_byteSize (metadata : WorkspaceFileMetadata) :
    (finalizeMetadata metadata).byteSize = metadata.byteSize := by
  simp only [finalizeMetadata]
  split_ifs <;> rfl

@[simp] theorem finalizeMetadata_risks (metadata : WorkspaceFileMetadata) :
    (finalizeMetadata metadata).risks = metadata.risks := by
  simp only [finalizeMetadata]
  split_ifs <;> rfl

/-- Metadata with an identity and a size that is known. -/
structure Identified (metadata : WorkspaceFileMetadata) (identity : JsString) (byteSize : ℕ) :
    Prop where
  identity : metadata.canonicalIdentity = some identity
  available : metadata.availability ≠ .unavailable
  byteSize : metadata.byteSize = some byteSize

variable {metadata : WorkspaceFileMetadata}

theorem Identified.finalize_availability {identity : JsString}
    {byteSize : ℕ} (h : Identified metadata identity byteSize) :
    (finalizeMetadata metadata).availability =
      if metadata.kind.captureLimit < byteSize then .blocked
      else if metadata.risks = [] then .ready else .confirmationRequired := by
  have hgoes : ¬ (metadata.availability = .unavailable ∨ metadata.canonicalIdentity = none) := by
    rw [h.identity]
    rintro (hunavailable | hnone)
    · exact h.available hunavailable
    · cases hnone
  simp only [finalizeMetadata]
  rw [if_neg hgoes, h.byteSize]
  simp only [Option.any_some, decide_eq_true_eq]
  split
  · rfl
  · cases metadata.risks with
    | nil => rfl
    | cons risk rest => rfl

theorem Identified.finalize {identity : JsString}
    {byteSize : ℕ} (h : Identified metadata identity byteSize) :
    Identified (finalizeMetadata metadata) identity byteSize := by
  refine ⟨?_, ?_, ?_⟩
  · rw [finalizeMetadata_canonicalIdentity, h.identity]
  · rw [h.finalize_availability]
    split_ifs <;> decide
  · rw [finalizeMetadata_byteSize, h.byteSize]

theorem Identified.finalize_preview {identity : JsString}
    {byteSize : ℕ} (h : Identified metadata identity byteSize) :
    (finalizeMetadata metadata).preview =
      if .credential ∈ metadata.risks ∨ .ignored ∈ metadata.risks ∨
          .policyUnknown ∈ metadata.risks then none
      else metadata.preview := by
  have hgoes : ¬ (metadata.availability = .unavailable ∨ metadata.canonicalIdentity = none) := by
    rw [h.identity]
    rintro (hunavailable | hnone)
    · exact h.available hunavailable
    · cases hnone
  have hany : (metadata.risks.any fun risk =>
      risk = .credential || risk = .ignored || risk = .policyUnknown) = true ↔
      .credential ∈ metadata.risks ∨ .ignored ∈ metadata.risks ∨
        .policyUnknown ∈ metadata.risks := by
    simp only [List.any_eq_true, Bool.or_eq_true, decide_eq_true_eq]
    constructor
    · rintro ⟨risk, hmem, (rfl | rfl) | rfl⟩
      · exact .inl hmem
      · exact .inr (.inl hmem)
      · exact .inr (.inr hmem)
    · rintro (hmem | hmem | hmem)
      · exact ⟨_, hmem, .inl (.inl rfl)⟩
      · exact ⟨_, hmem, .inl (.inr rfl)⟩
      · exact ⟨_, hmem, .inr rfl⟩
  simp only [finalizeMetadata]
  rw [if_neg hgoes, ← if_congr hany rfl rfl]
  split_ifs <;> rfl

/-- What inspection reads of a file. -/
def inspectedPart (file : WorkspaceFile) : List UInt8 :=
  file.content.take workspaceFileMetadataReadMaxBytes

theorem openVerifiedPrefix_prefixBytes (file : WorkspaceFile) :
    (openVerifiedPrefix file).prefixBytes = inspectedPart file :=
  List.take_eq_take_iff.mpr (by omega)

/-- The metadata of a file that is found, with what Git says about it. -/
def listed (patterns : WorkspaceFilePatterns) (file : WorkspaceFile) (git : GitIgnoreResult) :
    WorkspaceFileMetadata :=
  withPolicy (metadataForVerified patterns (openVerifiedPrefix file)) git

/-- The risks that Git adds. -/
def gitRisks (git : GitIgnoreResult) : List WorkspaceFileRisk :=
  if git.ignored then [.ignored] else if git.policyUnknown then [.policyUnknown] else []

theorem identified_metadataForVerified (patterns : WorkspaceFilePatterns) (file : VerifiedFile) :
    Identified (metadataForVerified patterns file) file.identity (safeStatSize file.size) := by
  refine Identified.finalize ⟨rfl, ?_, rfl⟩
  simp only
  split_ifs <;> decide

theorem listed_kind : (listed patterns file git).kind = kindOf (inspectedPart file) := by
  simp only [listed, withPolicy, metadataForVerified, finalizeMetadata_kind,
    openVerifiedPrefix_prefixBytes]

theorem listed_mimeType :
    (listed patterns file git).mimeType = detectImageMimeType (inspectedPart file) := by
  simp only [listed, withPolicy, metadataForVerified, finalizeMetadata_mimeType,
    openVerifiedPrefix_prefixBytes]

/-- The risks that inspection finds. -/
def inspectedRisks (patterns : WorkspaceFilePatterns) (file : WorkspaceFile) :
    List WorkspaceFileRisk :=
  let kind := kindOf (inspectedPart file)
  risksOf patterns (openVerifiedPrefix file) kind
    (mayHoldCredential patterns ((file.relativePath.splitOn 0x2F).getLast?.getD []) kind
      (inspectedPart file))

theorem mem_risksOf (patterns : WorkspaceFilePatterns) (file : VerifiedFile)
    (kind : WorkspaceFileKind) (credential : Bool) :
    (.credential ∈ risksOf patterns file kind credential ↔ credential = true) ∧
      .ignored ∉ risksOf patterns file kind credential ∧
      .policyUnknown ∉ risksOf patterns file kind credential := by
  have hmem : ∀ (condition : Prop) [Decidable condition] (risk other : WorkspaceFileRisk),
      risk ≠ other → risk ∉ if condition then [other] else [] := by
    intro condition _ risk other hne
    split
    · exact fun hin => hne (List.mem_singleton.mp hin)
    · exact List.not_mem_nil
  simp only [risksOf, List.mem_append, not_or]
  refine ⟨⟨?_, fun hcredential => .inr ?_⟩, ?_, ?_⟩
  · rintro (((((h | h) | h) | h) | h) | h)
    · exact absurd h (hmem _ _ _ (by decide))
    · exact absurd h (hmem _ _ _ (by decide))
    · exact absurd h (hmem _ _ _ (by decide))
    · exact absurd h (hmem _ _ _ (by decide))
    · exact absurd h (hmem _ _ _ (by decide))
    · by_contra hnot
      rw [if_neg hnot] at h
      cases h
  · rw [if_pos hcredential]
    exact List.mem_singleton_self _
  · refine ⟨⟨⟨⟨⟨?_, ?_⟩, ?_⟩, ?_⟩, ?_⟩, ?_⟩ <;> exact hmem _ _ _ (by decide)
  · refine ⟨⟨⟨⟨⟨?_, ?_⟩, ?_⟩, ?_⟩, ?_⟩, ?_⟩ <;> exact hmem _ _ _ (by decide)

theorem metadataForVerified_risks (patterns : WorkspaceFilePatterns) (file : WorkspaceFile) :
    (metadataForVerified patterns (openVerifiedPrefix file)).risks =
      uniqueRisks (inspectedRisks patterns file) := by
  simp only [metadataForVerified, finalizeMetadata_risks, openVerifiedPrefix_prefixBytes]
  rfl

theorem mem_uniqueRisks {risk : WorkspaceFileRisk} {risks : List WorkspaceFileRisk} :
    risk ∈ uniqueRisks risks ↔ risk ∈ risks := List.mem_eraseDups

/-- All risks of a file. -/
abbrev allRisks (patterns : WorkspaceFilePatterns) (file : WorkspaceFile) (git : GitIgnoreResult) :
    List WorkspaceFileRisk :=
  uniqueRisks (uniqueRisks (inspectedRisks patterns file) ++ gitRisks git)

theorem keptBack_iff (hkind : kindOf (inspectedPart file) = .text) :
    (.credential ∈ allRisks patterns file git ∨ .ignored ∈ allRisks patterns file git ∨
      .policyUnknown ∈ allRisks patterns file git) ↔ PreviewKeptBack patterns file git := by
  obtain ⟨hcredential, hignored, hunknown⟩ := mem_risksOf patterns (openVerifiedPrefix file)
    (kindOf (inspectedPart file)) (mayHoldCredential patterns
      ((file.relativePath.splitOn 0x2F).getLast?.getD []) (kindOf (inspectedPart file))
      (inspectedPart file))
  have hgit : (.ignored ∈ gitRisks git ∨ .policyUnknown ∈ gitRisks git ↔
      git.ignored = true ∨ git.policyUnknown = true) ∧ .credential ∉ gitRisks git := by
    obtain ⟨ignored, policyUnknown⟩ := git
    cases ignored <;> cases policyUnknown <;> decide
  simp only [allRisks, mem_uniqueRisks, List.mem_append, inspectedRisks, hcredential, hignored,
    hunknown, hgit.2, or_false, false_or, hgit.1]
  simp only [mayHoldCredential, hkind, PreviewKeptBack, openVerifiedPrefix_prefixBytes,
    decide_true, Bool.true_and, Bool.or_eq_true, or_assoc]

theorem metadataForVerified_preview (hkind : kindOf (inspectedPart file) = .text)
    (hnot : ¬ PreviewKeptBack patterns file git) :
    (metadataForVerified patterns (openVerifiedPrefix file)).preview =
      some (StringDecoder.textDecoder (file.content.take workspaceFilePreviewMaxBytes)) := by
  have hcredential : mayHoldCredential patterns
      ((file.relativePath.splitOn 0x2F).getLast?.getD []) .text (inspectedPart file) = false := by
    rw [PreviewKeptBack, openVerifiedPrefix_prefixBytes] at hnot
    simp only [mayHoldCredential, decide_true, Bool.true_and]
    simp only [not_or, Bool.not_eq_true] at hnot
    rw [hnot.1, hnot.2.1, Bool.or_false]
  have hrisks : ¬ (.credential ∈ uniqueRisks (inspectedRisks patterns file) ∨
      .ignored ∈ uniqueRisks (inspectedRisks patterns file) ∨
      .policyUnknown ∈ uniqueRisks (inspectedRisks patterns file)) := by
    intro h
    refine hnot ((keptBack_iff hkind).mp ?_)
    have hmore : ∀ risk ∈ uniqueRisks (inspectedRisks patterns file),
        risk ∈ allRisks patterns file git := fun risk hrisk =>
      mem_uniqueRisks.mpr (List.mem_append_left _ hrisk)
    exact h.imp (hmore _) (Or.imp (hmore _) (hmore _))
  simp only [metadataForVerified, openVerifiedPrefix_prefixBytes]
  refine (Identified.finalize_preview ⟨rfl, ?_, rfl⟩).trans ((if_neg hrisks).trans ?_)
  · dsimp only
    split_ifs <;> decide
  · dsimp only
    rw [hkind, if_pos ⟨rfl, hcredential⟩, previewText, subarray, List.drop_zero, inspectedPart,
      List.take_take]
    rfl

theorem listed_preview (hkind : kindOf (inspectedPart file) = .text) :
    (PreviewKeptBack patterns file git → (listed patterns file git).preview = none) ∧
      (¬ PreviewKeptBack patterns file git →
        (listed patterns file git).preview =
          some (StringDecoder.textDecoder (file.content.take workspaceFilePreviewMaxBytes))) := by
  have hidentified := identified_metadataForVerified patterns (openVerifiedPrefix file)
  have hpolicy : Identified { metadataForVerified patterns (openVerifiedPrefix file) with
      risks := uniqueRisks
        ((metadataForVerified patterns (openVerifiedPrefix file)).risks ++ gitRisks git) }
      (openVerifiedPrefix file).identity (safeStatSize (openVerifiedPrefix file).size) :=
    ⟨hidentified.identity, hidentified.available, hidentified.byteSize⟩
  have hpreview : (listed patterns file git).preview = _ := hpolicy.finalize_preview
  simp only [metadataForVerified_risks] at hpreview
  constructor
  · intro hkept
    rw [hpreview, if_pos ((keptBack_iff hkind).mpr hkept)]
  · intro hnot
    rw [hpreview, if_neg fun h => hnot ((keptBack_iff hkind).mp h)]
    exact metadataForVerified_preview hkind hnot

/-! ## Kinds -/

variable {bytes : List UInt8}

theorem subarray_take {limit start stop : ℕ} (h : stop ≤ limit) :
    subarray (bytes.take limit) start stop = subarray bytes start stop := by
  rw [subarray, subarray, List.take_take, Nat.min_eq_left h]

theorem detectImageMimeType_take (bytes : List UInt8) {limit : ℕ} (h : 12 ≤ limit) :
    detectImageMimeType (bytes.take limit) = detectImageMimeType bytes := by
  have hlength : ∀ n ≤ 12, (n ≤ (bytes.take limit).length ↔ n ≤ bytes.length) := by
    intro n hn
    rw [List.length_take]
    omega
  have hget : ∀ n < 12, (bytes.take limit)[n]? = bytes[n]? := by
    intro n hn
    rw [List.getElem?_take, if_pos (Nat.lt_of_lt_of_le hn h)]
  simp only [detectImageMimeType, hlength 8 (by decide), hlength 3 (by decide),
    hlength 12 (by decide), hget 0 (by decide), hget 1 (by decide), hget 2 (by decide),
    subarray_take (Nat.le_trans (by decide : 6 ≤ 12) h),
    subarray_take (Nat.le_trans (by decide : 8 ≤ 12) h),
    subarray_take (Nat.le_trans (by decide : 4 ≤ 12) h), subarray_take h]

theorem isUtf8Text_take_iff {text : JsString}
    (htext : StringDecoder.textDecoderFatal bytes = some text) (hnul : 0 ∉ bytes) (limit : ℕ) :
    isUtf8Text (bytes.take limit) = true ↔ ¬ Straddles bytes limit := by
  obtain ⟨whole, hwhole, -⟩ := Option.map_eq_some_iff.mp htext
  have hcontains : (bytes.take limit).contains 0 = false := by
    rw [← Bool.not_eq_true, List.contains_iff_mem]
    exact fun hmem => hnul (List.mem_of_mem_take hmem)
  rw [isUtf8Text, hcontains, ← StringDecoder.isSome_decodeFatal_take hwhole,
    StringDecoder.textDecoderFatal, Option.isSome_map]
  rfl

/-- A text file is found to be text just when no character is cut at the limit. -/
theorem kindOf_eq_text_iff {text : JsString}
    (htext : StringDecoder.textDecoderFatal file.content = some text) (hnul : 0 ∉ file.content)
    (himage : detectImageMimeType file.content = none) :
    kindOf (inspectedPart file) = .text ↔
      ¬ Straddles file.content workspaceFileMetadataReadMaxBytes := by
  have hnone : detectImageMimeType (inspectedPart file) = none :=
    (detectImageMimeType_take file.content (by decide)).trans himage
  rw [← isUtf8Text_take_iff htext hnul, ← inspectedPart, kindOf, hnone]
  cases isUtf8Text (inspectedPart file) with
  | true => simp
  | false => simp

theorem kindOf_ne_text
    (h : 0 ∈ bytes ∨ StringDecoder.textDecoderFatal bytes = none) : kindOf bytes ≠ .text := by
  have hnot : isUtf8Text bytes = false := by
    rw [isUtf8Text]
    split
    · rfl
    · rename_i hcontains
      rcases h with hmem | hnone
      · exact absurd (List.contains_iff_mem.mpr hmem) hcontains
      · rw [hnone]
        rfl
  rw [kindOf, hnot]
  split
  · decide
  · decide

/-! ## Captures -/

theorem readFrom_take (content : List UInt8) (reads : ℕ → ℕ) (n : ℕ) :
    (∀ bytes, readFrom content reads (content.take n) = some bytes → bytes = content) ∧
      ((∀ offset, 0 < reads offset) →
        readFrom content reads (content.take n) = some content) := by
  induction hk : content.length - n using Nat.strongRecOn generalizing n with
  | ind k ih =>
    rw [readFrom]
    split
    · rename_i hshort
      have hn : n < content.length := by
        rw [List.length_take] at hshort
        omega
      have hlength : (content.take n).length = n := by
        rw [List.length_take]
        omega
      rw [hlength]
      by_cases hzero : min (reads n) (min (64 * 1024) (content.length - n)) = 0
      · rw [if_pos hzero]
        refine ⟨nofun, fun hpositive => ?_⟩
        have := hpositive n
        omega
      · rw [if_neg hzero]
        have hnext : content.take n ++
            (content.drop n).take (min (reads n) (min (64 * 1024) (content.length - n))) =
              content.take (n + min (reads n) (min (64 * 1024) (content.length - n))) :=
          List.take_add.symm
        rw [hnext]
        exact ih _ (by omega) _ rfl
    · rename_i hlong
      have hwhole : content.take n = content := by
        rw [List.length_take] at hlong
        exact List.take_of_length_le (by omega)
      rw [hwhole]
      exact ⟨fun bytes h => (Option.some.inj h).symm, fun _ => rfl⟩

theorem readVerifiedBytes_spec (content : List UInt8) (maxBytes : ℕ) (reads : ℕ → ℕ) :
    (∀ bytes, readVerifiedBytes (openVerifiedPrefix file) content maxBytes reads = .ok bytes →
        bytes = content) ∧
      (file.content.length ≤ maxBytes → (∀ offset, 0 < reads offset) →
        readVerifiedBytes (openVerifiedPrefix file) content maxBytes reads = .ok content) := by
  obtain ⟨hexact, hall⟩ := readFrom_take content reads 0
  rw [List.take_zero] at hexact hall
  constructor
  · intro bytes h
    rw [readVerifiedBytes] at h
    split at h
    · cases h
    · split at h
      · rename_i found hfound
        cases h
        exact hexact _ hfound
      · cases h
  · intro hlimit hpositive
    have hfits : ¬ (openVerifiedPrefix file).size > maxBytes := Nat.not_lt.mpr hlimit
    rw [readVerifiedBytes, if_neg hfits, hall hpositive]

theorem referenceOf_of_capture {path : JsString} {reads : ℕ → ℕ}
    {request : WorkspaceFileCaptureRequest} {reference : WorkspaceFileReference}
    (h : capture patterns path (.ok file) git reads request = .ok reference) :
    referenceOf (listed patterns file git) file.content = .ok reference := by
  simp only [capture, inspectCandidate] at h
  split at h
  · cases h
  split at h
  · cases h
  split at h
  · cases h
  split at h
  · cases h
  split at h
  · cases h
  split at h
  · rename_i bytes hbytes
    rw [← (readVerifiedBytes_spec file.content _ reads).1 bytes hbytes]
    exact h
  · cases h

theorem capture_of_accepts {path : JsString} {reads : ℕ → ℕ} {request : WorkspaceFileCaptureRequest}
    (hlimit : file.content.length ≤ (listed patterns file git).kind.captureLimit)
    (haccepts : Accepts (listed patterns file git) request) (hreads : ∀ offset, 0 < reads offset) :
    capture patterns path (.ok file) git reads request =
      referenceOf (listed patterns file git) file.content := by
  have hidentified := identified_metadataForVerified patterns (openVerifiedPrefix file)
  obtain ⟨hne, hshort, hidentity, hconfirmed⟩ := haccepts
  have hgit : Identified { metadataForVerified patterns (openVerifiedPrefix file) with
      risks := uniqueRisks
        ((metadataForVerified patterns (openVerifiedPrefix file)).risks ++ gitRisks git) }
      file.identity (safeStatSize file.content.length) :=
    ⟨hidentified.identity, hidentified.available, hidentified.byteSize⟩
  have havailability : (listed patterns file git).availability = _ := hgit.finalize_availability
  have hsize : safeStatSize file.content.length ≤ file.content.length := by
    rw [safeStatSize]
    split
    · exact Nat.le_refl _
    · rename_i hunsafe
      simp only [isSafeInteger, decide_eq_true_eq] at hunsafe
      omega
  have hkind := finalizeMetadata_kind { metadataForVerified patterns (openVerifiedPrefix file) with
    risks := uniqueRisks
      ((metadataForVerified patterns (openVerifiedPrefix file)).risks ++ gitRisks git) }
  have hrisks := finalizeMetadata_risks
    { metadataForVerified patterns (openVerifiedPrefix file) with
      risks := uniqueRisks
        ((metadataForVerified patterns (openVerifiedPrefix file)).risks ++ gitRisks git) }
  rw [← hkind, ← hrisks] at havailability
  have hroom : ¬ (listed patterns file git).kind.captureLimit <
      safeStatSize file.content.length := by omega
  rw [if_neg (by exact hroom)] at havailability
  have hblocked : (listed patterns file git).availability ≠ .blocked := by
    rw [havailability]
    split <;> decide
  have hasked : ¬ ((listed patterns file git).availability = .confirmationRequired ∧
      request.confirmed = false) := by
    rintro ⟨hrequired, hunconfirmed⟩
    rcases hconfirmed with hnone | hconfirmed
    · rw [havailability, if_pos (by exact hnone)] at hrequired
      cases hrequired
    · rw [hconfirmed] at hunconfirmed
      cases hunconfirmed
  have hsame : (openVerifiedPrefix file).identity = request.canonicalIdentity := by
    have hfile : (listed patterns file git).canonicalIdentity = some file.identity :=
      hgit.finalize.identity
    rw [hidentity, Option.some.injEq] at hfile
    exact hfile.symm
  have hvalid : ¬ (request.canonicalIdentity = [] ∨ request.canonicalIdentity.length > 256) := by
    rintro (hempty | hlong)
    · exact hne hempty
    · exact absurd hlong (Nat.not_lt.mpr hshort)
  simp only [capture, inspectCandidate]
  rw [if_neg hvalid, if_neg hidentified.available, if_neg (not_not.mpr hsame),
    if_neg (by exact hblocked), if_neg (by exact hasked)]
  have hread : readVerifiedBytes (openVerifiedPrefix file) file.content
      (listed patterns file git).kind.captureLimit reads = .ok file.content :=
    (readVerifiedBytes_spec file.content _ reads).2 hlimit hreads
  rw [listed] at hread ⊢
  rw [hread]

theorem referenceOf_text {text : JsString}
    (hkind : metadata.kind = .text) (htext : StringDecoder.textDecoderFatal bytes = some text) :
    referenceOf metadata bytes = .ok ⟨{ metadata with preview := none }, .text text⟩ := by
  simp only [referenceOf, hkind, htext]
  rfl

theorem kind_of_referenceOf_text {reference : WorkspaceFileReference}
    {text : JsString} (h : referenceOf (listed patterns file git) bytes = .ok reference)
    (hcontent : reference.content = .text text) : kindOf (inspectedPart file) = .text := by
  have hkind : (listed patterns file git).kind = kindOf (inspectedPart file) := listed_kind
  have hmime : (listed patterns file git).mimeType = detectImageMimeType (inspectedPart file) :=
    listed_mimeType
  cases hclass : kindOf (inspectedPart file) with
  | text => rfl
  | image =>
    rw [hclass] at hkind
    cases himage : detectImageMimeType (inspectedPart file) with
    | none =>
      rw [kindOf, himage] at hclass
      split at hclass
      · contradiction
      · split at hclass <;> cases hclass
    | some mimeType =>
      rw [himage] at hmime
      simp only [referenceOf, hkind, hmime, Except.ok.injEq] at h
      rw [← h] at hcontent
      cases hcontent
  | binary =>
    rw [hclass] at hkind
    simp only [referenceOf, hkind, if_true, Except.ok.injEq] at h
    rw [← h] at hcontent
    cases hcontent
  | unknown =>
    rw [kindOf] at hclass
    split at hclass
    · cases hclass
    · split at hclass <;> cases hclass

/-- A file with text, without NUL and without the signature of an image is read as text just when
the limit of the metadata cuts no character and that of the preview cuts none but a replacement
character, if the preview is not kept back. A file with a NUL byte or an error in the inspected part
is never captured as text. -/
theorem workspace_file_classes (patterns : WorkspaceFilePatterns) (path : JsString)
    (file : WorkspaceFile) (git : GitIgnoreResult) :
    (∀ text, StringDecoder.textDecoderFatal file.content = some text → 0 ∉ file.content →
        detectImageMimeType file.content = none →
          (ReadAsText patterns path file git text ↔
            ¬ Straddles file.content workspaceFileMetadataReadMaxBytes ∧
              (PreviewKeptBack patterns file git ∨
                ¬ Straddles file.content workspaceFilePreviewMaxBytes ∨
                StringDecoder.CutsReplacement file.content workspaceFilePreviewMaxBytes))) ∧
      (0 ∈ inspectedPart file ∨ StringDecoder.textDecoderFatal (inspectedPart file) = none →
        ∀ request reads reference text,
          capture patterns path (.ok file) git reads request = .ok reference →
            reference.content ≠ .text text) := by
  constructor
  · intro text htext hnul himage
    have hcut := StringDecoder.textDecoder_take_prefix_iff htext
      (by decide : 4 ≤ workspaceFilePreviewMaxBytes)
    rw [← kindOf_eq_text_iff htext hnul himage]
    constructor
    · intro hread
      have hkind : kindOf (inspectedPart file) = .text := listed_kind.symm.trans hread.kind
      refine ⟨hkind, ?_⟩
      by_cases hkept : PreviewKeptBack patterns file git
      · exact .inl hkept
      · exact .inr (hcut.mp (hread.preview _ ((listed_preview hkind).2 hkept)))
    · rintro ⟨hkind, hpreview⟩
      have hlisted : (listed patterns file git).kind = .text := listed_kind.trans hkind
      refine ⟨hlisted, fun preview hfound => ?_, fun hlimit request haccepts reads hreads => ?_,
        fun request reads reference hcaptured => ?_⟩
      · have hfound : (listed patterns file git).preview = some preview := hfound
        by_cases hkept : PreviewKeptBack patterns file git
        · rw [(listed_preview hkind).1 hkept] at hfound
          cases hfound
        · rw [(listed_preview hkind).2 hkept, Option.some.injEq] at hfound
          rw [← hfound]
          exact hcut.mpr (hpreview.resolve_left hkept)
      · have hroom : file.content.length ≤ (listed patterns file git).kind.captureLimit := by
          rw [hlisted]
          exact hlimit
        exact ⟨_, (capture_of_accepts hroom haccepts hreads).trans
          (referenceOf_text hlisted htext), rfl⟩
      · have hreference := referenceOf_of_capture hcaptured
        rw [referenceOf_text hlisted htext, Except.ok.injEq] at hreference
        rw [← hreference]
  · intro hinvalid request reads reference text hcaptured hcontent
    exact kindOf_ne_text hinvalid
      (kind_of_referenceOf_text (referenceOf_of_capture hcaptured) hcontent)

/-- A letter that is cut by the limit makes a text file binary. -/
theorem workspace_file_class_cut : ¬ ∀ (patterns : WorkspaceFilePatterns) (path : JsString)
    (file : WorkspaceFile) (git : GitIgnoreResult) (text : JsString),
    StringDecoder.textDecoderFatal file.content = some text → 0 ∉ file.content →
      detectImageMimeType file.content = none →
        (withPolicy (inspectCandidate patterns path (.ok file)).1 git).kind = .text := by
  intro h
  have hascii : ∀ byte ∈ List.replicate 16383 (0x61 : UInt8), byte < 0x80 := by
    intro byte hbyte
    rw [List.eq_of_mem_replicate hbyte]
    decide
  obtain ⟨file, hcontent⟩ : ∃ file : WorkspaceFile,
      file.content = List.replicate 16383 0x61 ++ [0xC3, 0xA9] :=
    ⟨{  relativePath := js "notes.txt"
        identity := js "1:2:16385:3"
        content := _ }, rfl⟩
  have hwrite := StringDecoder.writeFatal_append_some (StringDecoder.writeFatal_ascii hascii)
    (by decide : (StringDecoder.idle).writeFatal [0xC3, 0xA9] = some ([0xE9], .idle))
  obtain ⟨text, htext⟩ : ∃ text, StringDecoder.textDecoderFatal file.content = some text :=
    ⟨_, congrArg (Option.map StringDecoder.stripMark)
      (StringDecoder.decodeFatal_eq_some.mpr (hcontent ▸ hwrite))⟩
  have hnul : (0 : UInt8) ∉ file.content := by
    rw [hcontent]
    intro hmem
    rcases List.mem_append.mp hmem with hletter | hlast
    · exact absurd (List.eq_of_mem_replicate hletter) (by decide)
    · revert hlast
      decide
  have himage : detectImageMimeType file.content = none := by
    rw [← detectImageMimeType_take file.content (Nat.le_refl 12)]
    have htake : file.content.take 12 = List.replicate 12 0x61 := by
      rw [hcontent, List.take_append_of_le_length (by rw [List.length_replicate]; decide),
        List.take_replicate]
      rfl
    rw [htake]
    decide +kernel
  have hstraddles : Straddles file.content workspaceFileMetadataReadMaxBytes := by
    have hget : ∀ n : ℕ, (List.replicate n (0x61 : UInt8) ++ [0xC3, 0xA9])[n + 1]? = some 0xA9 :=
      fun n => by simp
    have hlimit : workspaceFileMetadataReadMaxBytes = 16383 + 1 := by
      rw [workspaceFileMetadataReadMaxBytes]
    rw [hlimit, hcontent]
    exact ⟨0xA9, hget 16383, by decide⟩
  have hkind := h
    { generatedFile := fun _ => false
      credentialFile := fun _ => false
      credentialContent := fun _ => false }
    file.relativePath file { ignored := false, policyUnknown := false } text htext hnul himage
  exact (kindOf_eq_text_iff htext hnul himage).mp (listed_kind.symm.trans hkind) hstraddles

end PiAgentWeb
