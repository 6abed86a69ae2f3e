import PiAgentWeb.Server.RasterAdmission

/-!
# What the raster validator decides

After any chunks the validator stands where it would stand after their concatenation: the prefix is
that of the body, the tail holds its last bytes, and the walk over the RIFF chunks is a fold over
its bytes. The walk ends between two chunks exactly when chunks cover the body.
-/

namespace PiAgentWeb

/-! ## RIFF chunks -/

theorem riffChunks_append {header rest : List UInt8} (hheader : header.length = 8) :
    RiffChunks (header ++ rest) ↔
      readUInt32LE header 4 + readUInt32LE header 4 % 2 ≤ rest.length ∧
        RiffChunks (rest.drop (readUInt32LE header 4 + readUInt32LE header 4 % 2)) := by
  constructor
  · intro h
    generalize hbytes : header ++ rest = bytes at h
    cases h with
    | nil =>
      rw [List.append_eq_nil_iff] at hbytes
      rw [hbytes.1] at hheader
      cases hheader
    | @chunk header' payload padding rest' hheader' hpayload hpadding hrest =>
      obtain ⟨rfl, rfl⟩ := List.append_inj hbytes (hheader.trans hheader'.symm)
      have hlength : readUInt32LE header 4 + readUInt32LE header 4 % 2 =
          (payload ++ padding).length := by
        rw [List.length_append, hpadding, hpayload]
      rw [hlength, ← List.append_assoc, List.drop_left]
      exact ⟨(List.prefix_append _ _).length_le, hrest⟩
  · rintro ⟨hlength, hrest⟩
    have hsplit : rest = rest.take (readUInt32LE header 4) ++
        ((rest.drop (readUInt32LE header 4)).take (readUInt32LE header 4 % 2) ++
          rest.drop (readUInt32LE header 4 + readUInt32LE header 4 % 2)) := by
      rw [← List.drop_drop, List.take_append_drop, List.take_append_drop]
    have hpayload : (rest.take (readUInt32LE header 4)).length = readUInt32LE header 4 := by
      rw [List.length_take]
      omega
    rw [hsplit]
    refine .chunk hheader hpayload ?_ hrest
    rw [hpayload, List.length_take, List.length_drop]
    omega

theorem not_riffChunks_of_short {bytes : List UInt8} (hshort : bytes.length < 8)
    (hne : bytes ≠ []) : ¬ RiffChunks bytes := by
  intro h
  cases h with
  | nil => exact hne rfl
  | chunk hheader =>
    rw [List.length_append] at hshort
    omega

namespace WebpContainerValidator

variable {v : WebpContainerValidator} {bytes : List UInt8}

theorem push_append (v : WebpContainerValidator) (first second : List UInt8) :
    v.push (first ++ second) = (v.push first).bind fun v => v.push second :=
  List.foldlM_append

theorem push_cons (v : WebpContainerValidator) (byte : UInt8) (rest : List UInt8) :
    v.push (byte :: rest) = (v.pushByte byte).bind fun v => v.push rest :=
  List.foldlM_cons

theorem push_preamble (h : v.offset + bytes.length ≤ 12) :
    v.push bytes = .ok { v with offset := v.offset + bytes.length } := by
  induction bytes generalizing v with
  | nil => rfl
  | cons byte rest ih =>
    rw [List.length_cons] at h
    have hbyte : v.pushByte byte = .ok { v with offset := v.offset + 1 } := by
      unfold pushByte
      exact if_pos (by omega)
    rw [push_cons, hbyte]
    change push _ rest = _
    rw [ih (by dsimp only; omega), List.length_cons]
    congr 2
    dsimp only
    omega

/-- The walk is behind the preamble and neither in a payload nor before its padding. -/
structure InHeader (v : WebpContainerValidator) : Prop where
  offset : 12 ≤ v.offset
  remaining : v.chunkRemaining = 0
  padding : v.paddingPending = false

theorem InHeader.push_short (hv : v.InHeader) (bytes : List UInt8)
    (h : v.chunkHeader.length + bytes.length < 8) :
    v.push bytes =
      .ok { v with
        offset := v.offset + bytes.length
        chunkHeader := v.chunkHeader ++ bytes } := by
  induction bytes generalizing v with
  | nil =>
    rw [List.append_nil]
    rfl
  | cons byte rest ih =>
    rw [List.length_cons] at h
    have hoffset := hv.offset
    have hbyte : v.pushByte byte =
        .ok { v with offset := v.offset + 1, chunkHeader := v.chunkHeader ++ [byte] } := by
      unfold pushByte
      dsimp only
      rw [if_neg (by omega), if_neg (by rw [hv.padding]; exact Bool.false_ne_true),
        if_neg (by rw [hv.remaining]; exact Nat.lt_irrefl 0), if_pos]
      rw [List.length_append, List.length_singleton]
      omega
    rw [push_cons, hbyte]
    change push _ rest = _
    rw [ih (by exact ⟨by dsimp only; omega, hv.remaining, hv.padding⟩)]
    · rw [List.length_cons, List.append_assoc, List.singleton_append]
      congr 2
      dsimp only
      omega
    · rw [List.length_append, List.length_singleton]
      omega

theorem InHeader.push_header (hv : v.InHeader) (hempty : v.chunkHeader = [])
    (hlength : bytes.length = 8) :
    v.push bytes =
      if v.byteLength < v.offset + 8 + (readUInt32LE bytes 4 + readUInt32LE bytes 4 % 2) then
        .error invalidRasterStructure
      else
        .ok { v with
          offset := v.offset + 8
          chunkHeader := []
          chunkRemaining := readUInt32LE bytes 4
          chunkNeedsPadding := readUInt32LE bytes 4 % 2 != 0 } := by
  have hoffset := hv.offset
  obtain ⟨front, last, rfl⟩ : ∃ front last, bytes = front ++ [last] :=
    ⟨_, _, (List.dropLast_concat_getLast (List.ne_nil_of_length_eq_add_one hlength)).symm⟩
  rw [List.length_append, List.length_singleton] at hlength
  have hfront : front.length = 7 := by omega
  have hcollected := hv.push_short front (by rw [hempty, List.length_nil]; omega)
  rw [push_append, hcollected, hempty, List.nil_append, hfront]
  change push _ [last] = _
  rw [push_cons]
  unfold pushByte
  dsimp only
  rw [if_neg (by omega), if_neg (by rw [hv.padding]; exact Bool.false_ne_true),
    if_neg (by rw [hv.remaining]; exact Nat.lt_irrefl 0), if_neg (by simp [hfront])]
  split <;> rfl

theorem push_payload (hoffset : 12 ≤ v.offset) (hpadding : v.paddingPending = false)
    (h : bytes.length ≤ v.chunkRemaining) :
    v.push bytes =
      .ok { v with
        offset := v.offset + bytes.length
        chunkRemaining := v.chunkRemaining - bytes.length
        paddingPending :=
          if v.chunkRemaining ≠ 0 ∧ bytes.length = v.chunkRemaining then v.chunkNeedsPadding
          else false } := by
  induction bytes generalizing v with
  | nil =>
    have hnot : ¬ (v.chunkRemaining ≠ 0 ∧ 0 = v.chunkRemaining) := fun h => h.1 h.2.symm
    rw [List.length_nil, if_neg hnot, ← hpadding]
    rfl
  | cons byte rest ih =>
    rw [List.length_cons] at h
    have hbyte : v.pushByte byte =
        .ok { v with
          offset := v.offset + 1
          chunkRemaining := v.chunkRemaining - 1
          paddingPending :=
            if v.chunkRemaining - 1 = 0 then v.chunkNeedsPadding else v.paddingPending } := by
      unfold pushByte
      dsimp only
      rw [if_neg (by omega), if_neg (by rw [hpadding]; exact Bool.false_ne_true),
        if_pos (by omega)]
    rw [push_cons, hbyte]
    change push _ rest = _
    cases rest with
    | nil =>
      rw [List.length_singleton, hpadding]
      by_cases hlast : v.chunkRemaining - 1 = 0
      · rw [if_pos hlast, if_pos (by omega)]
        rfl
      · rw [if_neg hlast, if_neg (by omega)]
        rfl
    | cons next rest =>
      rw [List.length_cons] at h
      rw [ih (by dsimp only; omega) (by dsimp only; rw [if_neg (by omega), hpadding])
        (by dsimp only [List.length_cons]; omega)]
      dsimp only [List.length_cons]
      congr 2
      · omega
      · omega
      · by_cases hlast : rest.length + 1 + 1 = v.chunkRemaining
        · rw [if_pos (by omega), if_pos (by omega)]
        · rw [if_neg (by omega), if_neg (by omega)]

theorem push_error {error : RasterAdmissionError} (h : v.push bytes = .error error) :
    error = invalidRasterStructure := by
  induction bytes generalizing v with
  | nil => cases h
  | cons byte rest ih =>
    rw [push_cons] at h
    cases hbyte : v.pushByte byte with
    | ok next =>
      rw [hbyte] at h
      exact ih h
    | error first =>
      rw [hbyte] at h
      cases h
      unfold pushByte at hbyte
      dsimp only at hbyte
      repeat' split at hbyte
      all_goals cases hbyte
      rfl

theorem push_padding (hoffset : 12 ≤ v.offset) (hpadding : v.paddingPending = true)
    (h : bytes.length = 1) :
    v.push bytes = .ok { v with offset := v.offset + 1, paddingPending := false } := by
  obtain ⟨byte, rfl⟩ := List.length_eq_one_iff.mp h
  rw [push_cons]
  unfold pushByte
  dsimp only
  rw [if_neg (by omega), if_pos hpadding]
  rfl

theorem InHeader.push_chunk (hv : v.InHeader) (hempty : v.chunkHeader = [])
    (header payload padding : List UInt8) (hheader : header.length = 8)
    (hpayload : payload.length = readUInt32LE header 4)
    (hpad : padding.length = readUInt32LE header 4 % 2)
    (hfits : v.offset + 8 + payload.length + padding.length ≤ v.byteLength) :
    ∃ next, v.push (header ++ (payload ++ padding)) = .ok next ∧ next.InHeader ∧
      next.chunkHeader = [] ∧ next.offset = v.offset + 8 + payload.length + padding.length ∧
      next.byteLength = v.byteLength ∧ next.declaredRiffSize = v.declaredRiffSize := by
  have hoffset := hv.offset
  rw [push_append, hv.push_header hempty hheader, if_neg (by omega)]
  change ∃ next, push _ (payload ++ padding) = .ok next ∧ _
  rw [push_append, push_payload (by dsimp only; omega) (by exact hv.padding) (by dsimp only; omega)]
  change ∃ next, push _ padding = .ok next ∧ _
  dsimp only
  rw [hpayload, Nat.sub_self]
  by_cases hodd : readUInt32LE header 4 % 2 = 0
  · obtain rfl := List.length_eq_zero_iff.mp (hpad.trans hodd)
    have hnone : (if readUInt32LE header 4 ≠ 0 ∧
        readUInt32LE header 4 = readUInt32LE header 4 then
          readUInt32LE header 4 % 2 != 0 else false) = false := by
      rw [hodd]
      split <;> rfl
    rw [hnone]
    exact ⟨_, rfl, ⟨by dsimp only; omega, rfl, rfl⟩, rfl, rfl, rfl, rfl⟩
  · have hone : readUInt32LE header 4 % 2 = 1 := by omega
    rw [hone, if_pos ⟨by omega, rfl⟩, push_padding (by dsimp only; omega) rfl (hpad.trans hone)]
    refine ⟨_, rfl, ⟨by dsimp only; omega, rfl, rfl⟩, rfl, ?_, rfl, rfl⟩
    rw [hpad, hone]

theorem InHeader.push_rest (hv : v.InHeader) (bytes : List UInt8) (hempty : v.chunkHeader = [])
    (hlength : v.offset + bytes.length = v.byteLength) :
    (∃ next, v.push bytes = .ok next ∧ next.offset = next.byteLength ∧
        next.byteLength = v.byteLength ∧ next.declaredRiffSize = v.declaredRiffSize ∧
        ((next.chunkHeader = [] ∧ next.chunkRemaining = 0 ∧ next.paddingPending = false) ↔
          RiffChunks bytes)) ∨
      v.push bytes = .error invalidRasterStructure ∧ ¬ RiffChunks bytes := by
  induction hn : bytes.length using Nat.strongRecOn generalizing v bytes with
  | _ n ih =>
    by_cases hshort : bytes.length < 8
    · -- the rest is no more than a part of a chunk header
      have hpush := hv.push_short bytes (by rw [hempty, List.length_nil]; omega)
      refine .inl ⟨_, hpush, hlength, rfl, rfl, ?_⟩
      dsimp only
      rw [hempty, List.nil_append]
      constructor
      · rintro ⟨rfl, -⟩
        exact .nil
      · intro hchunks
        have hnil : bytes = [] := by
          by_contra hne
          exact not_riffChunks_of_short hshort hne hchunks
        exact ⟨hnil, hv.remaining, hv.padding⟩
    · have hheader : (bytes.take 8).length = 8 := by
        rw [List.length_take]
        omega
      have hrest : (bytes.drop 8).length = bytes.length - 8 := List.length_drop
      have hsplit : bytes = bytes.take 8 ++ bytes.drop 8 := (List.take_append_drop 8 bytes).symm
      generalize bytes.take 8 = header at hheader hsplit
      generalize bytes.drop 8 = rest at hrest hsplit
      rw [hsplit, riffChunks_append hheader]
      generalize hsize : readUInt32LE header 4 = size
      by_cases hfits : size + size % 2 ≤ rest.length
      · -- the chunk fits, and the walk goes on behind it
        have hparts : rest = (rest.take size ++ (rest.drop size).take (size % 2)) ++
            rest.drop (size + size % 2) := by
          rw [List.append_assoc, ← List.drop_drop, List.take_append_drop, List.take_append_drop]
        have hpayload : (rest.take size).length = size := by
          rw [List.length_take]
          omega
        have hpadding : ((rest.drop size).take (size % 2)).length = size % 2 := by
          rw [List.length_take, List.length_drop]
          omega
        obtain ⟨next, hpush, hnext, hnextEmpty, hoffset, hbyteLength, hdeclared⟩ :=
          hv.push_chunk hempty header (rest.take size) ((rest.drop size).take (size % 2)) hheader
            (by rw [hpayload, hsize]) (by rw [hpadding, hsize]) (by omega)
        have hwalk : v.push (header ++ rest) = next.push (rest.drop (size + size % 2)) := by
          have hwhole : header ++ rest = header ++
              (rest.take size ++ (rest.drop size).take (size % 2)) ++
                rest.drop (size + size % 2) := by
            rw [List.append_assoc, ← hparts]
          rw [hwhole, push_append, hpush]
          rfl
        have hdrop : (rest.drop (size + size % 2)).length = rest.length - (size + size % 2) :=
          List.length_drop
        rw [hwalk]
        rcases ih _ (by rw [← hn, hdrop]; omega) hnext (rest.drop (size + size % 2)) hnextEmpty
          (by omega) rfl with
          ⟨last, hlast, hend, hlastLength, hlastDeclared, hiff⟩ | ⟨herror, hnot⟩
        · refine .inl ⟨last, hlast, hend, hlastLength.trans hbyteLength,
            hlastDeclared.trans hdeclared, ?_⟩
          rw [hiff]
          exact (and_iff_right hfits).symm
        · exact .inr ⟨herror, fun h => hnot h.2⟩
      · -- the header promises more bytes than the body has
        refine .inr ⟨?_, fun h => hfits h.1⟩
        rw [push_append, hv.push_header hempty hheader, hsize, if_pos (by omega)]
        rfl

end WebpContainerValidator

/-! ## The stream so far -/

/-- What the container has made of the stream since it was created. -/
def Fed (created : ContainerValidator) (stream : List UInt8)
    (result : Except RasterAdmissionError ContainerValidator) : Prop :=
  match created with
  | .tail expectedPrefix tailBytes _ =>
    ∃ kept, result = .ok (.tail expectedPrefix tailBytes kept) ∧ kept.Holds tailBytes stream
  | .webp v => result = (v.push stream).map .webp

variable {created : ContainerValidator} {stream : List UInt8}

theorem Fed.push {container : ContainerValidator} (h : Fed created stream (.ok container))
    (chunk : List UInt8) : Fed created (stream ++ chunk) (container.push chunk) := by
  cases created with
  | tail expectedPrefix tailBytes start =>
    obtain ⟨kept, heq, hholds⟩ := h
    cases heq
    exact ⟨_, rfl, hholds.push chunk⟩
  | webp start =>
    simp only [Fed] at h ⊢
    cases hpush : start.push stream with
    | error error =>
      rw [hpush] at h
      cases h
    | ok v =>
      rw [hpush] at h
      cases h
      rw [WebpContainerValidator.push_append, hpush]
      rfl

theorem Fed.error {error : RasterAdmissionError} (h : Fed created stream (.error error))
    (chunk : List UInt8) : Fed created (stream ++ chunk) (.error error) := by
  cases created with
  | tail expectedPrefix tailBytes start =>
    obtain ⟨kept, heq, -⟩ := h
    cases heq
  | webp start =>
    simp only [Fed] at h ⊢
    cases hpush : start.push stream with
    | ok v =>
      rw [hpush] at h
      cases h
    | error first =>
      rw [hpush] at h
      cases h
      rw [WebpContainerValidator.push_append, hpush]
      rfl

variable {mediaType : String}

theorem Fed.start {rule : RasterRule} (h : rasterRules mediaType = some rule)
    (header : List UInt8) (byteLength : ℕ) :
    Fed (rule.validator header byteLength) [] (.ok (rule.validator header byteLength)) := by
  have htail : ∀ expectedPrefix tailBytes,
      Fed (tailValidator expectedPrefix tailBytes) []
        (.ok (tailValidator expectedPrefix tailBytes)) := by
    intro expectedPrefix tailBytes
    refine ⟨_, rfl, ?_⟩
    have hempty := SlidingTail.Holds.empty (List.replicate tailBytes (0 : UInt8))
    rwa [List.length_replicate] at hempty
  unfold rasterRules at h
  split at h
  all_goals cases h
  · exact htail _ _
  · exact htail _ _
  · rfl
  · exact htail _ _

/-- The error of a result. -/
def errorOf {E A : Type} : Except E A → Option E
  | .error error => some error
  | .ok _ => none

/-- A container and its error, as the validator keeps them. -/
structure KeptAs (v : RasterAdmissionValidator)
    (result : Except RasterAdmissionError ContainerValidator) : Prop where
  container : v.container = result.toOption
  failure : v.failure = errorOf result

/-- The state of the validator is that of the stream. -/
structure Represents (rule : RasterRule) (byteLength : ℕ) (v : RasterAdmissionValidator)
    (stream : List UInt8) : Prop where
  ofRule : v.rule = rule
  ofLength : v.byteLength = byteLength
  ofHeader : v.header = stream.take rule.prefixBytes
  collecting : stream.length < rule.prefixBytes → v.failure = none ∧ v.container = none
  mismatched : rule.prefixBytes ≤ stream.length →
    rule.matchesPrefix (stream.take rule.prefixBytes) byteLength = false →
      v.failure = some invalidRasterMagic ∧ v.container = none
  matched : rule.prefixBytes ≤ stream.length →
    rule.matchesPrefix (stream.take rule.prefixBytes) byteLength = true →
      ∃ result, KeptAs v result ∧
        Fed (rule.validator (stream.take rule.prefixBytes) byteLength) stream result

variable {rule : RasterRule} {byteLength : ℕ} {v : RasterAdmissionValidator}

theorem keptAs_pushContainer (v : RasterAdmissionValidator) (hfailure : v.failure = none)
    (container : ContainerValidator) (bytes : List UInt8) :
    KeptAs (v.pushContainer container bytes) (container.push bytes) := by
  unfold RasterAdmissionValidator.pushContainer
  cases container.push bytes with
  | error error => exact ⟨rfl, rfl⟩
  | ok next => exact ⟨rfl, hfailure⟩

variable {result : Except RasterAdmissionError ContainerValidator}

theorem Fed.pushRemainder
    (h : Fed created stream result) (hkept : KeptAs v result) (remainder : List UInt8) :
    ∃ result', KeptAs (v.pushRemainder remainder) result' ∧
      Fed created (stream ++ remainder) result' := by
  unfold RasterAdmissionValidator.pushRemainder
  cases result with
  | error error =>
    rw [hkept.container]
    exact ⟨_, hkept, h.error remainder⟩
  | ok container =>
    rw [hkept.container]
    change ∃ result', KeptAs (if remainder.isEmpty then v else _) result' ∧ _
    split
    · rename_i hempty
      rw [List.isEmpty_iff.mp hempty, List.append_nil]
      exact ⟨_, hkept, h⟩
    · exact ⟨_, keptAs_pushContainer v hkept.failure container remainder, h.push remainder⟩

/-- The rule and the prefix are the same. -/
structure SameHeader (v v' : RasterAdmissionValidator) : Prop where
  rule : v'.rule = v.rule
  byteLength : v'.byteLength = v.byteLength
  header : v'.header = v.header

theorem sameHeader_pushContainer (v : RasterAdmissionValidator) (container : ContainerValidator)
    (bytes : List UInt8) : SameHeader v (v.pushContainer container bytes) := by
  unfold RasterAdmissionValidator.pushContainer
  split <;> exact ⟨rfl, rfl, rfl⟩

theorem sameHeader_pushRemainder (v : RasterAdmissionValidator) (remainder : List UInt8) :
    SameHeader v (v.pushRemainder remainder) := by
  unfold RasterAdmissionValidator.pushRemainder
  split
  · exact ⟨rfl, rfl, rfl⟩
  · split
    · exact ⟨rfl, rfl, rfl⟩
    · exact sameHeader_pushContainer v _ remainder

theorem Represents.push_complete (h : Represents rule byteLength v stream)
    (hcomplete : rule.prefixBytes ≤ stream.length) {chunk : List UInt8} (hchunk : chunk ≠ []) :
    Represents rule byteLength (v.push chunk) (stream ++ chunk) := by
  have htaken : (stream ++ chunk).take rule.prefixBytes = stream.take rule.prefixBytes :=
    List.take_append_of_le_length hcomplete
  have hlength : ¬ (stream ++ chunk).length < rule.prefixBytes := by
    rw [List.length_append]
    omega
  have hisEmpty : chunk.isEmpty = false := by
    rw [← Bool.not_eq_true, List.isEmpty_iff]
    exact hchunk
  cases hmatches : rule.matchesPrefix (stream.take rule.prefixBytes) byteLength with
  | false =>
    obtain ⟨hfailure, hcontainer⟩ := h.mismatched hcomplete hmatches
    have hpush : v.push chunk = v := by
      unfold RasterAdmissionValidator.push
      rw [hfailure]
      rfl
    rw [hpush]
    refine ⟨h.ofRule, h.ofLength, h.ofHeader.trans htaken.symm,
      fun hshort => absurd hshort hlength,
      fun _ _ => ⟨hfailure, hcontainer⟩, fun _ hmatched => ?_⟩
    rw [htaken, hmatches] at hmatched
    cases hmatched
  | true =>
    obtain ⟨result, hkept, hfed⟩ := h.matched hcomplete hmatches
    obtain ⟨result', hkept', hfed'⟩ := hfed.pushRemainder hkept chunk
    have hpush : v.push chunk = v.pushRemainder chunk := by
      unfold RasterAdmissionValidator.push
      cases result with
      | error error =>
        rw [hkept.failure]
        unfold RasterAdmissionValidator.pushRemainder
        rw [hkept.container]
        rfl
      | ok container =>
        rw [hkept.failure, hkept.container, hisEmpty]
        rfl
    obtain ⟨hrule, hbyteLength, hheader⟩ := sameHeader_pushRemainder v chunk
    rw [hpush]
    refine ⟨hrule.trans h.ofRule, hbyteLength.trans h.ofLength,
      (hheader.trans h.ofHeader).trans htaken.symm, fun hshort => absurd hshort hlength,
      fun _ hmismatched => ?_, fun _ _ => ?_⟩
    · rw [htaken, hmatches] at hmismatched
      cases hmismatched
    · rw [htaken]
      exact ⟨result', hkept', hfed'⟩

theorem Represents.push_collecting
    (hrule : rasterRules mediaType = some rule) (h : Represents rule byteLength v stream)
    (hminimum : rule.prefixBytes ≤ byteLength) (hcollecting : stream.length < rule.prefixBytes)
    {chunk : List UInt8} (hchunk : chunk ≠ []) :
    Represents rule byteLength (v.push chunk) (stream ++ chunk) := by
  obtain ⟨hfailure, hcontainer⟩ := h.collecting hcollecting
  have hisEmpty : chunk.isEmpty = false := by
    rw [← Bool.not_eq_true, List.isEmpty_iff]
    exact hchunk
  have hheader : v.header = stream :=
    h.ofHeader.trans (List.take_of_length_le (Nat.le_of_lt hcollecting))
  have hgrown : v.header ++ chunk.take (min chunk.length (rule.prefixBytes - v.header.length)) =
      (stream ++ chunk).take rule.prefixBytes := by
    rw [hheader, List.take_append, List.take_of_length_le (Nat.le_of_lt hcollecting)]
    congr 1
    rw [List.take_eq_take_iff]
    omega
  unfold RasterAdmissionValidator.push
  rw [hfailure, hcontainer, hisEmpty, h.ofRule, h.ofLength]
  dsimp only
  rw [if_neg (by exact Bool.false_ne_true), if_neg (by exact Bool.false_ne_true),
    Nat.min_eq_left hminimum, hgrown]
  generalize hall : stream ++ chunk = all
  have hlength : (all.take rule.prefixBytes).length = min rule.prefixBytes all.length :=
    List.length_take
  by_cases hshort : all.length < rule.prefixBytes
  · -- the prefix is still incomplete
    rw [if_pos (by omega)]
    exact ⟨rfl, rfl, rfl, fun _ => ⟨rfl, rfl⟩, fun hcomplete => absurd hshort (by omega),
      fun hcomplete => absurd hshort (by omega)⟩
  · rw [if_neg (by omega)]
    cases hmatches : rule.matchesPrefix (all.take rule.prefixBytes) byteLength with
    | false =>
      refine ⟨rfl, rfl, rfl, fun hlt => absurd hlt hshort, fun _ _ => ⟨rfl, rfl⟩,
        fun _ hmatched => ?_⟩
      rw [hmatches] at hmatched
      cases hmatched
    | true =>
      have hkept := keptAs_pushContainer ⟨rule, byteLength, all.take rule.prefixBytes, none, none⟩
        rfl (rule.validator (all.take rule.prefixBytes) byteLength) (all.take rule.prefixBytes)
      have hstart := (Fed.start hrule (all.take rule.prefixBytes) byteLength).push
        (all.take rule.prefixBytes)
      rw [List.nil_append] at hstart
      obtain ⟨result, hkept', hfed⟩ := hstart.pushRemainder hkept
        (chunk.drop (min chunk.length (rule.prefixBytes - v.header.length)))
      have hwhole : all.take rule.prefixBytes ++
          chunk.drop (min chunk.length (rule.prefixBytes - v.header.length)) = all := by
        rw [← hall, ← hgrown, List.append_assoc, List.take_append_drop, hheader]
      rw [hwhole] at hfed
      have hsame := sameHeader_pushContainer
        ⟨rule, byteLength, all.take rule.prefixBytes, none, none⟩
        (rule.validator (all.take rule.prefixBytes) byteLength) (all.take rule.prefixBytes)
      have hsame' := sameHeader_pushRemainder
        ((⟨rule, byteLength, all.take rule.prefixBytes, none, none⟩ :
          RasterAdmissionValidator).pushContainer
            (rule.validator (all.take rule.prefixBytes) byteLength) (all.take rule.prefixBytes))
        (chunk.drop (min chunk.length (rule.prefixBytes - v.header.length)))
      refine ⟨hsame'.rule.trans hsame.rule, hsame'.byteLength.trans hsame.byteLength,
        hsame'.header.trans hsame.header, fun hlt => absurd hlt hshort, fun _ hmismatched => ?_,
        fun _ _ => ⟨result, hkept', hfed⟩⟩
      rw [hmatches] at hmismatched
      cases hmismatched

theorem Represents.push (hrule : rasterRules mediaType = some rule)
    (h : Represents rule byteLength v stream) (hminimum : rule.prefixBytes ≤ byteLength)
    (chunk : List UInt8) : Represents rule byteLength (v.push chunk) (stream ++ chunk) := by
  by_cases hempty : chunk = []
  · have hpush : v.push [] = v := by
      unfold RasterAdmissionValidator.push
      rw [List.isEmpty_nil, Bool.or_true, if_pos rfl]
    rw [hempty, hpush, List.append_nil]
    exact h
  · by_cases hcomplete : rule.prefixBytes ≤ stream.length
    · exact h.push_complete hcomplete hempty
    · exact h.push_collecting hrule hminimum (Nat.lt_of_not_le hcomplete) hempty

theorem Represents.foldl (hrule : rasterRules mediaType = some rule)
    (h : Represents rule byteLength v stream) (hminimum : rule.prefixBytes ≤ byteLength)
    (chunks : List (List UInt8)) :
    Represents rule byteLength (chunks.foldl RasterAdmissionValidator.push v)
      (stream ++ chunks.flatten) := by
  induction chunks generalizing v stream with
  | nil =>
    rw [List.flatten_nil, List.append_nil]
    exact h
  | cons chunk rest ih =>
    rw [List.flatten_cons, ← List.append_assoc]
    exact ih (h.push hrule hminimum chunk)

/-! ## The end of the body -/

/-- A result of the container is finished. -/
def finishResult : Except RasterAdmissionError ContainerValidator →
    Except RasterAdmissionError Unit
  | .error error => .error error
  | .ok container => container.finish

theorem finish_tail {expectedPrefix : List UInt8} {tailBytes : ℕ} {kept : SlidingTail UInt8}
    {body : List UInt8} (h : kept.Holds tailBytes body) :
    (ContainerValidator.tail expectedPrefix tailBytes kept).finish = .ok () ↔
      EndsWith expectedPrefix tailBytes body := by
  have hseen := h.seen
  simp only [ContainerValidator.finish, EndsWith]
  by_cases hlength : tailBytes ≤ body.length
  · have hbuffer : kept.buffer = body.drop (body.length - tailBytes) := by
      have hitems := h.items
      rwa [Nat.min_eq_left hlength, ← h.length, List.take_length, h.length] at hitems
    rw [← hbuffer, List.prefix_iff_eq_take]
    split
    · rename_i hfails
      rcases hfails with hshort | hdiffers
      · omega
      · exact ⟨nofun, fun hends => absurd hends.2.symm hdiffers⟩
    · rename_i hends
      rw [not_or, not_not] at hends
      exact ⟨fun _ => ⟨hlength, hends.2.symm⟩, fun _ => rfl⟩
  · rw [if_pos (Or.inl (by omega))]
    exact ⟨nofun, fun hends => absurd hends.1 hlength⟩

theorem finish_webp {body : List UInt8} (hlength : 20 ≤ body.length) :
    finishResult (((WebpContainerValidator.create (body.take 20) body.length).push body).map .webp)
        = .ok () ↔
      readUInt32LE body 4 + 8 = body.length ∧ RiffChunks (body.drop 12) := by
  have hdeclared : readUInt32LE (body.take 20) 4 = readUInt32LE body 4 := by
    simp [readUInt32LE, readUInt16LE, byteAt, List.getD_eq_getElem?_getD]
  have hpreamble : (body.take 12).length = 12 := by
    rw [List.length_take]
    omega
  have hsplit := List.take_append_drop 12 body
  have hwalk : ∀ start : WebpContainerValidator, start.offset = 0 →
      start.push body = WebpContainerValidator.push { start with offset := 12 } (body.drop 12) := by
    intro start hzero
    conv_lhs => rw [← hsplit]
    rw [WebpContainerValidator.push_append, WebpContainerValidator.push_preamble (by
      omega), hpreamble, hzero]
    rfl
  rw [hwalk _ rfl]
  have hrest : (body.drop 12).length = body.length - 12 := List.length_drop
  rcases WebpContainerValidator.InHeader.push_rest
    (v := { WebpContainerValidator.create (body.take 20) body.length with offset := 12 })
    ⟨Nat.le_refl 12, rfl, rfl⟩ (body.drop 12) rfl
    (by simp only [WebpContainerValidator.create]; omega) with
    ⟨last, hlast, hend, hbyteLength, hlastDeclared, hiff⟩ | ⟨herror, hnot⟩
  · have hriff : last.declaredRiffSize = readUInt32LE body 4 := hlastDeclared.trans hdeclared
    have hbody : last.byteLength = body.length := hbyteLength
    rw [hlast, ← hiff]
    change last.finish = .ok () ↔ _
    unfold WebpContainerValidator.finish
    rw [hend, hbody, hriff]
    split
    · rename_i hfails
      refine ⟨nofun, fun ⟨hsize, hempty, hremaining, hpadding⟩ => ?_⟩
      rcases hfails with hdiffers | hdiffers | hdiffers | hdiffers | hpending
      · exact absurd hsize hdiffers
      · exact absurd rfl hdiffers
      · exact absurd hempty hdiffers
      · exact absurd hremaining hdiffers
      · rw [hpadding] at hpending
        cases hpending
    · rename_i hcomplete
      simp only [not_or, not_not, Bool.not_eq_true] at hcomplete
      exact ⟨fun _ => ⟨hcomplete.1, hcomplete.2.2⟩, fun _ => rfl⟩
  · rw [herror]
    exact ⟨nofun, fun h => absurd h.2 hnot⟩

theorem Fed.finish_error {error : RasterAdmissionError} (h : Fed created stream result)
    (herror : finishResult result = .error error) : error = invalidRasterStructure := by
  cases created with
  | tail expectedPrefix tailBytes start =>
    obtain ⟨kept, rfl, -⟩ := h
    simp only [finishResult, ContainerValidator.finish] at herror
    split at herror <;> cases herror
    rfl
  | webp start =>
    simp only [Fed] at h
    cases hpush : start.push stream with
    | error first =>
      rw [hpush] at h
      rw [h] at herror
      cases herror
      exact WebpContainerValidator.push_error hpush
    | ok v =>
      rw [hpush] at h
      rw [h] at herror
      change v.finish = .error error at herror
      unfold WebpContainerValidator.finish at herror
      split at herror <;> cases herror
      rfl

theorem Fed.finish (hrule : rasterRules mediaType = some rule) {body : List UInt8}
    (hminimum : rule.minimumBytes ≤ body.length)
    (h : Fed (rule.validator (body.take rule.prefixBytes) body.length) body result) :
    finishResult result = .ok () ↔ RasterStructure mediaType body := by
  have htail : ∀ {expectedPrefix : List UInt8} {tailBytes : ℕ},
      Fed (tailValidator expectedPrefix tailBytes) body result →
        (finishResult result = .ok () ↔ EndsWith expectedPrefix tailBytes body) := by
    rintro expectedPrefix tailBytes ⟨kept, rfl, hholds⟩
    exact finish_tail hholds
  unfold rasterRules at hrule
  split at hrule
  all_goals cases hrule
  · exact htail h
  · exact htail h
  · have hwalk : result = (((WebpContainerValidator.create (body.take 20) body.length).push
        body).map .webp) := h
    rw [hwalk]
    exact finish_webp hminimum
  · exact htail h

theorem rasterRules_prefix (h : rasterRules mediaType = some rule) :
    0 < rule.prefixBytes ∧ rule.prefixBytes ≤ rule.minimumBytes := by
  unfold rasterRules at h
  split at h
  all_goals cases h
  all_goals decide

/-- Whatever the chunks of a body of the declared length are, the validator decides as the
predicate on the whole body does, with the same error. -/
theorem raster_admission_exact (mediaType : String) (chunks : List (List UInt8)) :
    admitChunks mediaType chunks.flatten.length chunks =
      admitBody mediaType chunks.flatten := by
  unfold admitChunks admitBody createRasterAdmissionValidator
  cases hrule : rasterRules mediaType with
  | none => rfl
  | some rule =>
    obtain ⟨hpositive, htaken⟩ := rasterRules_prefix hrule
    dsimp only
    by_cases hshort : chunks.flatten.length < rule.minimumBytes
    · rw [if_pos hshort, if_pos hshort]
      rfl
    · rw [if_neg hshort, if_neg hshort]
      have hstart : Represents rule chunks.flatten.length
          ⟨rule, chunks.flatten.length, [], none, none⟩ [] :=
        ⟨rfl, rfl, List.take_nil.symm, fun _ => ⟨rfl, rfl⟩,
          fun hcomplete => absurd hpositive (Nat.not_lt.mpr hcomplete),
          fun hcomplete => absurd hpositive (Nat.not_lt.mpr hcomplete)⟩
      have hend := hstart.foldl hrule (by omega) chunks
      rw [List.nil_append] at hend
      change (chunks.foldl RasterAdmissionValidator.push _).finish = _
      generalize chunks.foldl RasterAdmissionValidator.push _ = v at hend ⊢
      generalize chunks.flatten = body at hshort hend ⊢
      cases hmatches : rule.matchesPrefix (body.take rule.prefixBytes) body.length with
      | false =>
        obtain ⟨hfailure, -⟩ := hend.mismatched (by omega) hmatches
        unfold RasterAdmissionValidator.finish
        rw [hfailure]
        rfl
      | true =>
        obtain ⟨result, hkept, hfed⟩ := hend.matched (by omega) hmatches
        have hdecides := hfed.finish hrule (by omega)
        have hfinish : v.finish = finishResult result := by
          unfold RasterAdmissionValidator.finish
          rw [hkept.failure, hkept.container]
          cases result <;> rfl
        rw [hfinish, if_neg (by exact Bool.false_ne_true)]
        by_cases hstructure : RasterStructure mediaType body
        · rw [if_pos hstructure]
          exact hdecides.mpr hstructure
        · rw [if_neg hstructure]
          cases hresult : finishResult result with
          | ok value => exact absurd (hdecides.mp hresult) hstructure
          | error error => rw [hfed.finish_error hresult]

/-- A GIF file of one pixel, in chunks that cut its header and its end. -/
example : admitChunks "image/gif" 19
    [[0x47, 0x49, 0x46], [], [0x38, 0x39, 0x61, 1, 0, 1, 0, 0x80, 0, 0, 0, 0x2c], [0, 0, 0],
      [0x3b]] = .ok () := by
  decide +kernel

end PiAgentWeb
