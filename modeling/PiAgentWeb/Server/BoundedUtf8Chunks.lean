import PiAgentWeb.Server.BoundedUtf8Codec

/-!
# Chunks of the bounded UTF-8 codec

The tokens are encoded one after another and copied into buffers of a fixed size. A token that does
not fit into the rest of a buffer starts the next one, so that a chunk is the encoding of whole
tokens and the chunks together are the encoding of the text. An encoding is measured in a first pass
and streamed in later ones, which read the source again.
-/

namespace PiAgentWeb

/-- `encodedChunks`, from a buffer that is filled up to `chunkBytes` on. Nothing when the limit is
exceeded. -/
def encodedChunks (maxBytes : ℕ) (chunk : List UInt8) (chunkBytes totalBytes : ℕ) :
    List JsString → Option (List (List UInt8))
  | [] => some (if 0 < chunkBytes then [chunk] else [])
  | token :: rest =>
    let encoded := utf8Encode token
    let actual := totalBytes + encoded.length
    if maxBytes < actual then none
    else if 0 < chunkBytes ∧ MAX_CHUNK_BYTES < chunkBytes + encoded.length then
      (encodedChunks maxBytes (encoded.take MAX_CHUNK_BYTES) encoded.length actual rest).map
        (chunk :: ·)
    else
      encodedChunks maxBytes (chunk ++ encoded.take (MAX_CHUNK_BYTES - chunkBytes))
        (chunkBytes + encoded.length) actual rest

/-- The chunks of one pass over a source; nothing when the pass throws. -/
def passChunks (source : BoundedUtf8EncodingInput) (maxBytes : ℕ) : Option (List (List UInt8)) :=
  (inputTokens source).bind (encodedChunks maxBytes [] 0 0)

/-- `PreparedBoundedUtf8Encoding`. -/
structure PreparedBoundedUtf8Encoding where
  byteLength : ℕ
  maxBytes : ℕ
  deriving DecidableEq

/-- `prepareBoundedUtf8Encoding`: the measuring pass. -/
def prepareUtf8Encoding (source : BoundedUtf8EncodingInput)
    (maxBytes : ℕ := CODEC_DEFAULT_MAX_BYTES) : Option PreparedBoundedUtf8Encoding :=
  if maxBytes = 0 ∨ CODEC_DEFAULT_MAX_BYTES < maxBytes then none
  else (passChunks source maxBytes).map fun chunks =>
    { byteLength := (chunks.map List.length).sum, maxBytes := maxBytes }

/-- `createReadable`: a pass over the source as it is then. -/
def PreparedBoundedUtf8Encoding.createReadable (prepared : PreparedBoundedUtf8Encoding)
    (source : BoundedUtf8EncodingInput) : Option (List (List UInt8)) :=
  passChunks source prepared.maxBytes

/-- The text of a source, if it has one. -/
def BoundedUtf8EncodingInput.encodedText : BoundedUtf8EncodingInput → Option JsString
  | .text value => some value
  | .json value => value.stringify

namespace JsData

mutual

/-- The values that are entered. -/
def valueCount : JsData → ℕ
  | .arr items => itemCount items + 1
  | .obj fields => memberCount fields + 1
  | _ => 1

/-- The values below an array. -/
def itemCount : List JsData → ℕ
  | [] => 0
  | item :: rest => valueCount item + itemCount rest

/-- The values below an object. -/
def memberCount : List (JsString × JsData) → ℕ
  | [] => 0
  | (_, value) :: rest => valueCount value + memberCount rest

end

mutual

/-- The depth of the deepest value below a root. -/
def nesting : JsData → ℕ
  | .arr items => itemNesting items
  | .obj fields => memberNesting fields
  | _ => 0

/-- The depth below an array. -/
def itemNesting : List JsData → ℕ
  | [] => 0
  | item :: rest => max (nesting item + 1) (itemNesting rest)

/-- The depth below an object. -/
def memberNesting : List (JsString × JsData) → ℕ
  | [] => 0
  | (_, value) :: rest => max (nesting value + 1) (memberNesting rest)

end

mutual

/-- The bytes of the string values. -/
def stringBytes : JsData → ℕ
  | .str value => utf8ByteLength value
  | .arr items => itemStringBytes items
  | .obj fields => memberStringBytes fields
  | _ => 0

/-- The bytes of the string values of an array. -/
def itemStringBytes : List JsData → ℕ
  | [] => 0
  | item :: rest => stringBytes item + itemStringBytes rest

/-- The bytes of the string values of an object. -/
def memberStringBytes : List (JsString × JsData) → ℕ
  | [] => 0
  | (_, value) :: rest => stringBytes value + memberStringBytes rest

end

mutual

/-- Numbers are finite and safe, arrays and objects are not too long, and nothing is `undefined`. -/
def isPlain : JsData → Bool
  | .undefined => false
  | .num value => value.isFinite && value.isSafe
  | .arr items => items.length ≤ CODEC_MAX_JSON_CONTAINER_ITEMS && arePlainItems items
  | .obj fields => fields.length ≤ CODEC_MAX_JSON_CONTAINER_ITEMS && arePlainMembers fields
  | _ => true

/-- The elements of an array are plain. -/
def arePlainItems : List JsData → Bool
  | [] => true
  | item :: rest => isPlain item && arePlainItems rest

/-- The members of an object are plain. -/
def arePlainMembers : List (JsString × JsData) → Bool
  | [] => true
  | (_, value) :: rest => isPlain value && arePlainMembers rest

end

end JsData

/-- A source within the bounds that the codec sets to JSON values. -/
def BoundedUtf8EncodingInput.WithinCeilings : BoundedUtf8EncodingInput → Prop
  | .text _ => True
  | .json value =>
    value.isPlain = true ∧ value.nesting ≤ CODEC_MAX_JSON_DEPTH ∧
      value.valueCount ≤ CODEC_MAX_JSON_ITEMS

/-- The encodings of tokens one after another. -/
def encodedTokens (tokens : List JsString) : List UInt8 := tokens.flatMap utf8Encode

/-- The tokens fit into a buffer. -/
def TokensFit (tokens : List JsString) : Prop :=
  ∀ token ∈ tokens, utf8ByteLength token ≤ MAX_CHUNK_BYTES

/-- A chunk is the encoding of whole tokens and fits into a buffer. -/
def IsChunk (chunk : List UInt8) : Prop :=
  chunk ≠ [] ∧ chunk.length ≤ MAX_CHUNK_BYTES ∧ ∃ tokens, chunk = encodedTokens tokens

/-! ## Buffers -/

@[simp] theorem encodedTokens_nil : encodedTokens [] = [] := rfl

@[simp] theorem encodedTokens_cons (token : JsString) (tokens : List JsString) :
    encodedTokens (token :: tokens) = utf8Encode token ++ encodedTokens tokens := rfl

@[simp] theorem encodedTokens_append (tokens tokens' : List JsString) :
    encodedTokens (tokens ++ tokens') = encodedTokens tokens ++ encodedTokens tokens' := by
  simp [encodedTokens]

theorem length_encodedTokens (tokens : List JsString) :
    (encodedTokens tokens).length = tokenBytes tokens := by
  induction tokens with
  | nil => rfl
  | cons token rest ih =>
    rw [encodedTokens_cons, List.length_append, ih, length_utf8Encode, tokenBytes_cons]

variable {tokens : List JsString}

theorem encodedChunks_spec {maxBytes totalBytes : ℕ}
    (hfit : TokensFit tokens) {buffered : List JsString}
    (hroom : tokenBytes buffered ≤ MAX_CHUNK_BYTES) (htotal : totalBytes ≤ maxBytes) :
    if maxBytes < totalBytes + tokenBytes tokens then
      encodedChunks maxBytes (encodedTokens buffered) (tokenBytes buffered) totalBytes tokens =
        none
    else ∃ chunks,
      encodedChunks maxBytes (encodedTokens buffered) (tokenBytes buffered) totalBytes tokens =
        some chunks ∧
      chunks.flatten = encodedTokens (buffered ++ tokens) ∧ ∀ chunk ∈ chunks, IsChunk chunk := by
  have hchunk : ∀ {buffered : List JsString}, tokenBytes buffered ≤ MAX_CHUNK_BYTES →
      0 < tokenBytes buffered → IsChunk (encodedTokens buffered) := by
    intro buffered hroom hpositive
    rw [← length_encodedTokens] at hroom hpositive
    exact ⟨List.ne_nil_of_length_pos hpositive, hroom, buffered, rfl⟩
  induction tokens generalizing totalBytes buffered with
  | nil =>
    rw [tokenBytes_nil, Nat.add_zero, if_neg (Nat.not_lt.mpr htotal), List.append_nil,
      encodedChunks]
    by_cases hpositive : 0 < tokenBytes buffered
    · rw [if_pos hpositive]
      refine ⟨[encodedTokens buffered], rfl, by simp, ?_⟩
      intro chunk hmem
      rw [List.mem_singleton.mp hmem]
      exact hchunk hroom hpositive
    · rw [if_neg hpositive]
      refine ⟨[], rfl, ?_, nofun⟩
      rw [← length_encodedTokens, Nat.pos_iff_ne_zero, not_not, List.length_eq_zero_iff]
        at hpositive
      rw [hpositive]
      rfl
  | cons token rest ih =>
    obtain ⟨htoken, hrest⟩ := List.forall_mem_cons.mp hfit
    rw [tokenBytes_cons, encodedChunks, length_utf8Encode]
    by_cases hlimit : maxBytes < totalBytes + utf8ByteLength token
    · rw [if_pos (by omega), if_pos hlimit]
    · rw [if_neg hlimit, ← Nat.add_assoc]
      by_cases hfull : 0 < tokenBytes buffered ∧
          MAX_CHUNK_BYTES < tokenBytes buffered + utf8ByteLength token
      · -- The token starts the next buffer.
        have hroom' : tokenBytes [token] ≤ MAX_CHUNK_BYTES := by simpa using htoken
        have hnext := ih hrest hroom' (Nat.not_lt.mp hlimit)
        rw [if_pos hfull, List.take_of_length_le (by rw [length_utf8Encode]; exact htoken)]
        simp only [encodedTokens_cons, encodedTokens_nil, List.append_nil, tokenBytes_cons,
          tokenBytes_nil, Nat.add_zero] at hnext
        split at hnext
        · rename_i hexceeds
          rw [if_pos hexceeds, hnext]
          rfl
        · rename_i hwithin
          obtain ⟨chunks, hchunks, hflatten, hall⟩ := hnext
          rw [if_neg hwithin, hchunks]
          refine ⟨encodedTokens buffered :: chunks, rfl, ?_, ?_⟩
          · rw [List.flatten_cons, hflatten, ← encodedTokens_append]
            rfl
          · exact List.forall_mem_cons.mpr ⟨hchunk hroom hfull.1, hall⟩
      · -- The token goes into the buffer, which has room for it.
        have hsum : tokenBytes buffered + utf8ByteLength token ≤ MAX_CHUNK_BYTES := by
          rcases Nat.eq_zero_or_pos (tokenBytes buffered) with hzero | hpositive
          · omega
          · exact Nat.not_lt.mp fun hover => hfull ⟨hpositive, hover⟩
        have hroom' : tokenBytes (buffered ++ [token]) ≤ MAX_CHUNK_BYTES := by simpa using hsum
        have hnext := ih hrest hroom' (Nat.not_lt.mp hlimit)
        rw [if_neg hfull, List.take_of_length_le (by rw [length_utf8Encode]; omega)]
        simpa using hnext

/-! ## Tokens of strings -/

theorem codeUnitUtf8Bytes_eq (u : UInt16) : codeUnitUtf8Bytes u = utf8ByteLength [u] := by
  have h7f : (0x7F : UInt16).toNat = 127 := rfl
  have h80 : (0x80 : UInt16).toNat = 128 := rfl
  have h7ff : (0x7FF : UInt16).toNat = 2047 := rfl
  have h800 : (0x800 : UInt16).toNat = 2048 := rfl
  unfold codeUnitUtf8Bytes utf8ByteLength utf8UnitLength
  simp only [UInt16.le_iff_toNat_le, UInt16.lt_iff_toNat_lt]
  split_ifs <;> omega

theorem utf8ByteLength_singleton_le (u : UInt16) : utf8ByteLength [u] ≤ 3 := by
  unfold utf8ByteLength utf8UnitLength
  split_ifs <;> omega

theorem splitsPair_of_last {run rest : JsString}
    (h : run.getLast?.any isHighSurrogate = false) : splitsPair run rest = false := by
  rw [splitsPair, h, Bool.false_and]

theorem splitsPair_of_head {run rest : JsString} (h : rest.head?.any isLowSurrogate = false) :
    splitsPair run rest = false := by
  rw [splitsPair, h, Bool.and_false]

theorem not_high_of_low {u : UInt16} (h : isLowSurrogate u = true) :
    isHighSurrogate u = false := by
  by_contra hhigh
  rw [not_low_of_high (by simpa using hhigh)] at h
  cases h

theorem splitsPair_after_pair {u v : UInt16}
    (hpair : (isHighSurrogate u && isLowSurrogate v) = true) (run rest : JsString) :
    splitsPair (run ++ [u, v]) rest = false := by
  have hv := not_high_of_low (Bool.and_eq_true_iff.mp hpair).2
  exact splitsPair_of_last (by simp [hv])

theorem splitsPair_after_unit {u v : UInt16}
    (hpair : ¬ (isHighSurrogate u && isLowSurrogate v) = true) (run rest : JsString) :
    splitsPair (run ++ [u]) (v :: rest) = false := by
  simpa [splitsPair] using hpair

theorem utf8Encode_pair {u v : UInt16} (hpair : (isHighSurrogate u && isLowSurrogate v) = true)
    (rest : JsString) : utf8Encode (u :: v :: rest) = utf8Encode [u, v] ++ utf8Encode rest :=
  utf8Encode_append (splitsPair_after_pair hpair [] rest)

theorem runBytes_add_le {run : JsString} {runBytes bytes : ℕ}
    (hyields : ¬ yieldsRun run runBytes bytes = true) (hbytes : bytes ≤ 4) :
    runBytes + bytes ≤ MAX_CHUNK_BYTES := by
  have hmax : MAX_CHUNK_BYTES = 65536 := rfl
  simp only [yieldsRun, Bool.and_eq_true, Bool.or_eq_true, decide_eq_true_eq, not_and, not_or]
    at hyields
  rcases Nat.eq_zero_or_pos runBytes with hzero | hpositive
  · omega
  · exact Nat.not_lt.mp (hyields hpositive).1

theorem tokensFit_nil : TokensFit [] := List.forall_mem_nil _

theorem tokensFit_yieldRun {run : JsString} (h : utf8ByteLength run ≤ MAX_CHUNK_BYTES) :
    TokensFit (yieldRun run) := by
  unfold yieldRun
  split
  · exact nofun
  · intro token hmem
    rw [List.mem_singleton.mp hmem]
    exact h

theorem encodedTokens_yieldRun (run : JsString) :
    encodedTokens (yieldRun run) = utf8Encode run := by
  unfold yieldRun
  split
  · rename_i hempty
    rw [List.isEmpty_iff.mp hempty]
    rfl
  · simp

theorem tokensFit_cons {token : JsString}
    (h : utf8ByteLength token ≤ MAX_CHUNK_BYTES) (hrest : TokensFit tokens) :
    TokensFit (token :: tokens) :=
  List.forall_mem_cons.mpr ⟨h, hrest⟩

theorem tokensFit_append {tokens tokens' : List JsString} (h : TokensFit tokens)
    (h' : TokensFit tokens') : TokensFit (tokens ++ tokens') :=
  List.forall_mem_append.mpr ⟨h, h'⟩

theorem utf8ByteLength_pair {u v : UInt16}
    (hpair : (isHighSurrogate u && isLowSurrogate v) = true) : utf8ByteLength [u, v] = 4 := by
  rw [utf8ByteLength, if_pos hpair]
  rfl

theorem rawUtf8Tokens_spec (run : JsString) (runBytes : ℕ) (s : JsString)
    (hseam : splitsPair run s = false) (hrun : runBytes = utf8ByteLength run)
    (hroom : utf8ByteLength run ≤ MAX_CHUNK_BYTES) :
    encodedTokens (rawUtf8Tokens run runBytes s) = utf8Encode (run ++ s) ∧
      TokensFit (rawUtf8Tokens run runBytes s) := by
  have hmax : MAX_CHUNK_BYTES = 65536 := rfl
  fun_induction rawUtf8Tokens run runBytes s with
  | case1 run runBytes =>
    rw [List.append_nil, encodedTokens_yieldRun]
    exact ⟨rfl, tokensFit_yieldRun hroom⟩
  | case2 run runBytes u hyields =>
    have hu := utf8ByteLength_singleton_le u
    refine ⟨by simp [utf8Encode_append hseam],
      tokensFit_cons hroom (tokensFit_cons ?_ tokensFit_nil)⟩
    omega
  | case3 run runBytes u hyields =>
    have hu := utf8ByteLength_singleton_le u
    have hadd := runBytes_add_le hyields (by rw [codeUnitUtf8Bytes_eq]; omega)
    refine ⟨by simp, tokensFit_cons ?_ tokensFit_nil⟩
    rw [utf8ByteLength_append hseam, ← hrun, ← codeUnitUtf8Bytes_eq]
    exact hadd
  | case4 run runBytes u v rest hpair hyields ih =>
    obtain ⟨hencoded, hfit⟩ := ih (splitsPair_after_pair hpair [] rest)
      (utf8ByteLength_pair hpair).symm (by rw [utf8ByteLength_pair hpair, hmax]; omega)
    refine ⟨?_, tokensFit_cons hroom hfit⟩
    rw [encodedTokens_cons, hencoded, utf8Encode_append hseam]
    rfl
  | case5 run runBytes u v rest hpair hyields ih =>
    have hbytes : utf8ByteLength (run ++ [u, v]) = runBytes + 4 := by
      rw [utf8ByteLength_append (by simpa [splitsPair] using hseam), utf8ByteLength_pair hpair,
        hrun]
    obtain ⟨hencoded, hfit⟩ := ih (splitsPair_after_pair hpair run rest) hbytes.symm
      (hbytes ▸ runBytes_add_le hyields (Nat.le_refl 4))
    refine ⟨?_, hfit⟩
    rw [hencoded, List.append_assoc]
    rfl
  | case6 run runBytes u v rest hpair hyields ih =>
    have hu := utf8ByteLength_singleton_le u
    obtain ⟨hencoded, hfit⟩ := ih (splitsPair_after_unit hpair [] rest)
      (codeUnitUtf8Bytes_eq u) (by omega)
    refine ⟨?_, tokensFit_cons hroom hfit⟩
    rw [encodedTokens_cons, hencoded, utf8Encode_append hseam]
    rfl
  | case7 run runBytes u v rest hpair hyields ih =>
    have hu := utf8ByteLength_singleton_le u
    have hbytes : utf8ByteLength (run ++ [u]) = runBytes + codeUnitUtf8Bytes u := by
      rw [utf8ByteLength_append (by simpa [splitsPair] using hseam), codeUnitUtf8Bytes_eq, hrun]
    obtain ⟨hencoded, hfit⟩ := ih (splitsPair_after_unit hpair run rest) hbytes.symm
      (hbytes ▸ runBytes_add_le hyields (by rw [codeUnitUtf8Bytes_eq]; omega))
    refine ⟨?_, hfit⟩
    rw [hencoded, List.append_assoc]
    rfl

theorem escapeUnit_eq (u : UInt16) : Json.escapeUnit u = (escapedToken u).getD [u] := by
  unfold Json.escapeUnit
  by_cases hshort : u = 0x22 ∨ u = 0x5C ∨ u = 0x08 ∨ u = 0x0C ∨ u = 0x0A ∨ u = 0x0D ∨ u = 0x09
  · rcases hshort with rfl | rfl | rfl | rfl | rfl | rfl | rfl <;> decide
  · simp only [not_or] at hshort
    obtain ⟨h22, h5c, h08, h0c, h0a, h0d, h09⟩ := hshort
    have hnone : shortEscape u = none := by simp [shortEscape, h08, h09, h0a, h0c, h0d]
    rw [if_neg h22, if_neg h5c, if_neg h08, if_neg h0c, if_neg h0a, if_neg h0d, if_neg h09]
    unfold escapedToken
    rw [if_neg h22, if_neg h5c, hnone]
    by_cases hlow : u ≤ 0x1F
    · simp [Json.control_iff, hlow]
    · by_cases hsurrogate : (isHighSurrogate u || isLowSurrogate u) = true
      · rw [if_neg hlow, if_pos hsurrogate]
        simp only [Bool.or_eq_true] at hsurrogate
        simp [hsurrogate, or_assoc]
      · rw [if_neg hlow, if_neg hsurrogate]
        simp only [Bool.or_eq_true, not_or, Bool.not_eq_true] at hsurrogate
        simp [Json.control_iff, hlow, hsurrogate]

theorem escapedToken_ascii {u : UInt16} {token : JsString} (h : escapedToken u = some token) :
    token.getLast?.any isHighSurrogate = false ∧ utf8ByteLength token ≤ 6 := by
  have hsix : ∀ u : UInt16, (Json.unicodeEscape u).getLast?.any isHighSurrogate = false := by
    intro u
    have hlast := Json.unicodeEscape_ascii u (Json.hexDigit (u.toNat % 0x10))
      (by simp [Json.unicodeEscape])
    simpa [Json.unicodeEscape] using (not_surrogate_of_ascii hlast).1
  refine ⟨?_, ?_⟩
  · unfold escapedToken at h
    split_ifs at h with h22 h5c hcontrol hsurrogate
    · obtain rfl := Option.some.inj h
      decide
    · obtain rfl := Option.some.inj h
      decide
    · obtain rfl := Option.some.inj h
      cases hshort : shortEscape u with
      | none => exact hsix u
      | some token =>
        change token.getLast?.any isHighSurrogate = false
        unfold shortEscape at hshort
        split_ifs at hshort <;> obtain rfl := Option.some.inj hshort <;> decide
    · obtain rfl := Option.some.inj h
      exact hsix u
  · have hbytes := escapedToken_some h
    have hunit := utf8ByteLength_singleton_le u
    change utf8UnitLength u ≤ 3 at hunit
    rw [hbytes]
    unfold Json.unitBytes
    split_ifs <;> omega

theorem jsonUnitTokens_spec (run : JsString) (runBytes : ℕ) (s : JsString)
    (hlast : run.getLast?.any isHighSurrogate = false) (hrun : runBytes = utf8ByteLength run)
    (hroom : utf8ByteLength run ≤ MAX_CHUNK_BYTES) :
    encodedTokens (jsonUnitTokens run runBytes s) = utf8Encode run ++ utf8Encode (Json.escape s) ∧
      TokensFit (jsonUnitTokens run runBytes s) := by
  have hmax : MAX_CHUNK_BYTES = 65536 := rfl
  have hplain : ∀ {u : UInt16}, escapedToken u = none →
      Json.escapeUnit u = [u] ∧ isHighSurrogate u = false := by
    intro u hnone
    refine ⟨by rw [escapeUnit_eq, hnone]; rfl, ?_⟩
    unfold escapedToken at hnone
    split_ifs at hnone with h22 h5c hcontrol hsurrogate
    rw [Bool.or_eq_true, not_or] at hsurrogate
    simpa using hsurrogate.1
  fun_induction jsonUnitTokens run runBytes s with
  | case1 run runBytes =>
    rw [encodedTokens_yieldRun]
    exact ⟨(List.append_nil _).symm, tokensFit_yieldRun hroom⟩
  | case2 run runBytes u token htoken =>
    obtain ⟨_, hbytes⟩ := escapedToken_ascii htoken
    rw [Json.escape, escapeUnit_eq, htoken, Option.getD_some, encodedTokens_append,
      encodedTokens_yieldRun]
    exact ⟨by simp, tokensFit_append (tokensFit_yieldRun hroom)
      (tokensFit_cons (by omega) tokensFit_nil)⟩
  | case3 run runBytes u htoken hyields =>
    have hu := utf8ByteLength_singleton_le u
    rw [Json.escape, (hplain htoken).1]
    exact ⟨by simp, tokensFit_cons hroom (tokensFit_cons (by omega) tokensFit_nil)⟩
  | case4 run runBytes u htoken hyields =>
    have hu := utf8ByteLength_singleton_le u
    have hadd := runBytes_add_le hyields (by rw [codeUnitUtf8Bytes_eq]; omega)
    have hseam : splitsPair run [u] = false := splitsPair_of_last hlast
    rw [Json.escape, (hplain htoken).1]
    refine ⟨by simp [utf8Encode_append hseam], tokensFit_cons ?_ tokensFit_nil⟩
    rw [utf8ByteLength_append hseam, ← hrun, ← codeUnitUtf8Bytes_eq]
    exact hadd
  | case5 run runBytes u v rest hpair hyields ih =>
    have hv := not_high_of_low (Bool.and_eq_true_iff.mp hpair).2
    obtain ⟨hencoded, hfit⟩ := ih (by simp [hv]) (utf8ByteLength_pair hpair).symm
      (by rw [utf8ByteLength_pair hpair, hmax]; omega)
    refine ⟨?_, tokensFit_cons hroom hfit⟩
    rw [encodedTokens_cons, hencoded, Json.escape, if_pos hpair,
      utf8Encode_pair hpair (Json.escape rest)]
  | case6 run runBytes u v rest hpair hyields ih =>
    have hv := not_high_of_low (Bool.and_eq_true_iff.mp hpair).2
    have hbytes : utf8ByteLength (run ++ [u, v]) = runBytes + 4 := by
      rw [utf8ByteLength_append (splitsPair_of_last hlast), utf8ByteLength_pair hpair, hrun]
    obtain ⟨hencoded, hfit⟩ := ih (by simp [hv]) hbytes.symm
      (hbytes ▸ runBytes_add_le hyields (Nat.le_refl 4))
    refine ⟨?_, hfit⟩
    rw [hencoded, utf8Encode_append (splitsPair_of_last hlast), Json.escape, if_pos hpair,
      List.append_assoc, utf8Encode_pair hpair (Json.escape rest)]
  | case7 run runBytes u v rest hpair token htoken ih =>
    obtain ⟨hascii, hbytes⟩ := escapedToken_ascii htoken
    obtain ⟨hencoded, hfit⟩ := ih rfl rfl (Nat.zero_le _)
    refine ⟨?_, tokensFit_append (tokensFit_yieldRun hroom)
      (tokensFit_cons (by omega) hfit)⟩
    rw [encodedTokens_append, encodedTokens_yieldRun, encodedTokens_cons, hencoded, Json.escape,
      if_neg hpair, escapeUnit_eq, htoken, Option.getD_some,
      utf8Encode_append (splitsPair_of_last hascii)]
    rfl
  | case8 run runBytes u v rest hpair htoken hyields ih =>
    have hu := utf8ByteLength_singleton_le u
    obtain ⟨hescape, hhigh⟩ := hplain htoken
    have hunit : ([u] : JsString).getLast?.any isHighSurrogate = false := by simp [hhigh]
    obtain ⟨hencoded, hfit⟩ := ih hunit (codeUnitUtf8Bytes_eq u) (by omega)
    refine ⟨?_, tokensFit_cons hroom hfit⟩
    rw [encodedTokens_cons, hencoded, Json.escape, if_neg hpair, hescape,
      ← utf8Encode_append (splitsPair_of_last hunit)]
  | case9 run runBytes u v rest hpair htoken hyields ih =>
    have hu := utf8ByteLength_singleton_le u
    obtain ⟨hescape, hhigh⟩ := hplain htoken
    have hunit : ([u] : JsString).getLast?.any isHighSurrogate = false := by simp [hhigh]
    have hbytes : utf8ByteLength (run ++ [u]) = runBytes + codeUnitUtf8Bytes u := by
      rw [utf8ByteLength_append (splitsPair_of_last hlast), codeUnitUtf8Bytes_eq, hrun]
    obtain ⟨hencoded, hfit⟩ := ih (by simp [hhigh]) hbytes.symm
      (hbytes ▸ runBytes_add_le hyields (by rw [codeUnitUtf8Bytes_eq]; omega))
    refine ⟨?_, hfit⟩
    rw [hencoded, utf8Encode_append (splitsPair_of_last hlast), Json.escape, if_neg hpair, hescape,
      List.append_assoc, ← utf8Encode_append (splitsPair_of_last hunit)]

theorem utf8Encode_ascii_seam {u : UInt16} (hu : u < 0x80) (first rest : JsString) :
    utf8Encode (first ++ u :: rest) = utf8Encode first ++ utf8Encode [u] ++ utf8Encode rest := by
  obtain ⟨hhigh, hlow⟩ := not_surrogate_of_ascii hu
  have hunit : ([u] : JsString).getLast?.any isHighSurrogate = false := by simp [hhigh]
  have hrest : utf8Encode (u :: rest) = utf8Encode [u] ++ utf8Encode rest :=
    utf8Encode_append (splitsPair_of_last hunit)
  rw [utf8Encode_append (splitsPair_of_head (by simp [hlow])), hrest, List.append_assoc]

theorem jsonStringTokens_spec (value : JsString) :
    encodedTokens (jsonStringTokens value) = utf8Encode (Json.quote value) ∧
      TokensFit (jsonStringTokens value) := by
  have hmax : MAX_CHUNK_BYTES = 65536 := rfl
  have hquote : utf8ByteLength (js "\"") = 1 := by decide
  obtain ⟨hencoded, hfit⟩ := jsonUnitTokens_spec [] 0 value rfl rfl (Nat.zero_le _)
  refine ⟨?_, ?_⟩
  · have hopen : utf8Encode (0x22 :: (Json.escape value ++ [0x22])) =
        utf8Encode [0x22] ++ utf8Encode (Json.escape value ++ [0x22]) :=
      utf8Encode_ascii_seam (by decide) [] _
    have hclose : utf8Encode (Json.escape value ++ [0x22]) =
        utf8Encode (Json.escape value) ++ utf8Encode [0x22] ++ [] :=
      utf8Encode_ascii_seam (by decide) (Json.escape value) []
    rw [Json.quote, List.cons_append, hopen, hclose, jsonStringTokens, List.cons_append,
      encodedTokens_cons, encodedTokens_append, hencoded, List.append_nil]
    rfl
  · have hone : TokensFit [js "\""] := tokensFit_cons (by omega) tokensFit_nil
    exact tokensFit_cons (by omega) (tokensFit_append hfit hone)

/-! ## Tokens of JSON values -/

/-- A comma before each of the parts. -/
def afterCommas (parts : List JsString) : JsString := parts.flatMap (0x2C :: ·)

theorem joinComma_cons (part : JsString) (rest : List JsString) :
    Json.joinComma (part :: rest) = part ++ afterCommas rest := by
  induction rest generalizing part with
  | nil => simp [Json.joinComma, afterCommas]
  | cons next rest ih =>
    rw [Json.joinComma, ih]
    · rfl
    · exact List.cons_ne_nil _ _

/-- The parts of an array or object from an index on. -/
def partsFrom (index : ℕ) (parts : List JsString) : JsString :=
  if 0 < index then afterCommas parts else Json.joinComma parts

theorem utf8Encode_partsFrom_cons (index : ℕ) (part : JsString) (rest : List JsString) :
    utf8Encode (partsFrom index (part :: rest)) =
      encodedTokens (if 0 < index then [js ","] else []) ++ utf8Encode part ++
        utf8Encode (partsFrom (index + 1) rest) := by
  have hparts : utf8Encode (part ++ afterCommas rest) =
      utf8Encode part ++ utf8Encode (afterCommas rest) := by
    cases rest with
    | nil => simp [afterCommas, utf8Encode, scalars]
    | cons next rest =>
      have hhead : (afterCommas (next :: rest)).head?.any isLowSurrogate = false := by
        rw [afterCommas, List.flatMap_cons]
        exact (by decide : isLowSurrogate 0x2C = false)
      exact utf8Encode_append (splitsPair_of_head hhead)
  unfold partsFrom
  rw [if_pos (Nat.succ_pos index)]
  by_cases hindex : 0 < index
  · have hcomma : utf8Encode (0x2C :: (part ++ afterCommas rest)) =
        utf8Encode [0x2C] ++ utf8Encode (part ++ afterCommas rest) :=
      utf8Encode_ascii_seam (by decide) [] _
    rw [if_pos hindex, if_pos hindex, afterCommas, List.flatMap_cons]
    change utf8Encode (0x2C :: (part ++ afterCommas rest)) = _
    rw [hcomma, hparts, ← List.append_assoc]
    rfl
  · rw [if_neg hindex, if_neg hindex, joinComma_cons, hparts]
    rfl

theorem encodedTokens_brackets {left right : UInt16} (hleft : left < 0x80) (hright : right < 0x80)
    {body : JsString} (h : encodedTokens tokens = utf8Encode body) :
    encodedTokens ([left] :: tokens ++ [[right]]) = utf8Encode (left :: body ++ [right]) := by
  have hopen : utf8Encode (left :: (body ++ [right])) =
      utf8Encode [left] ++ utf8Encode (body ++ [right]) :=
    utf8Encode_ascii_seam hleft [] _
  have hclose : utf8Encode (body ++ [right]) = utf8Encode body ++ utf8Encode [right] ++ [] :=
    utf8Encode_ascii_seam hright body []
  rw [List.cons_append, List.cons_append, hopen, hclose, encodedTokens_cons, encodedTokens_append,
    h, List.append_nil, encodedTokens_cons, encodedTokens_nil, List.append_nil]

theorem tokensFit_short {token : JsString} (hascii : ∀ u ∈ token, u < 0x80)
    (hshort : token.length ≤ 32) : TokensFit [token] := by
  have hmax : MAX_CHUNK_BYTES = 65536 := rfl
  refine tokensFit_cons ?_ tokensFit_nil
  rw [utf8ByteLength_ascii hascii]
  omega

theorem tokensFit_literal {token : JsString}
    (hascii : (token.all fun u => decide (u < 0x80)) = true) (hshort : token.length ≤ 32) :
    TokensFit [token] :=
  tokensFit_short (ascii_of_all hascii) hshort

mutual

theorem jsonValueTokens_spec {depth : ℕ} :
    ∀ (value : JsData) {state : JsonTraversalState} {result : List JsString × JsonTraversalState},
      jsonValueTokens depth value state = some result →
      encodedTokens result.1 = utf8Encode (Json.stringify value.toJson) ∧ TokensFit result.1 ∧
        value.isUndefined = false
  | .undefined, _, _, h => nomatch h
  | .null, _, _, h => by
    simp only [jsonValueTokens, Option.bind_eq_bind, Option.bind_eq_some_iff] at h
    obtain ⟨state, -, h⟩ := h
    obtain rfl := Option.some.inj h
    exact ⟨List.append_nil _, tokensFit_literal (by decide) (by decide), rfl⟩
  | .bool value, _, _, h => by
    simp only [jsonValueTokens, Option.bind_eq_bind, Option.bind_eq_some_iff] at h
    obtain ⟨state, -, h⟩ := h
    obtain rfl := Option.some.inj h
    cases value
    · exact ⟨List.append_nil _, tokensFit_literal (by decide) (by decide), rfl⟩
    · exact ⟨List.append_nil _, tokensFit_literal (by decide) (by decide), rfl⟩
  | .num value, _, _, h => by
    simp only [jsonValueTokens, Option.bind_eq_bind, Option.bind_eq_some_iff] at h
    obtain ⟨state, -, h⟩ := h
    split at h
    · rename_i hsafe
      obtain rfl := Option.some.inj h
      refine ⟨?_, tokensFit_short value.ascii value.short, rfl⟩
      rw [JsData.toJson, if_pos (Bool.and_eq_true_iff.mp hsafe).1]
      exact List.append_nil _
    · cases h
  | .str value, _, _, h => by
    simp only [jsonValueTokens, Option.bind_eq_bind, Option.bind_eq_some_iff] at h
    obtain ⟨state, -, state', -, h⟩ := h
    obtain rfl := Option.some.inj h
    obtain ⟨hencoded, hfit⟩ := jsonStringTokens_spec value
    exact ⟨hencoded, hfit, rfl⟩
  | .arr items, _, _, h => by
    simp only [jsonValueTokens, Option.bind_eq_bind, Option.bind_eq_some_iff] at h
    obtain ⟨state, -, h⟩ := h
    split at h
    · cases h
    · obtain ⟨inner, hitems, h⟩ := Option.bind_eq_some_iff.mp h
      obtain rfl := Option.some.inj h
      obtain ⟨hencoded, hfit⟩ := jsonItemTokens_spec items hitems
      exact ⟨encodedTokens_brackets (by decide) (by decide) hencoded,
        tokensFit_append (tokensFit_append (tokensFit_literal (by decide) (by decide)) hfit)
          (tokensFit_literal (by decide) (by decide)), rfl⟩
  | .obj fields, _, _, h => by
    simp only [jsonValueTokens, Option.bind_eq_bind, Option.bind_eq_some_iff] at h
    obtain ⟨state, -, h⟩ := h
    split at h
    · cases h
    · obtain ⟨inner, hfields, h⟩ := Option.bind_eq_some_iff.mp h
      obtain rfl := Option.some.inj h
      obtain ⟨hencoded, hfit⟩ := jsonMemberTokens_spec fields hfields
      exact ⟨encodedTokens_brackets (by decide) (by decide) hencoded,
        tokensFit_append (tokensFit_append (tokensFit_literal (by decide) (by decide)) hfit)
          (tokensFit_literal (by decide) (by decide)), rfl⟩

theorem jsonItemTokens_spec {depth index : ℕ} :
    ∀ (items : List JsData) {state : JsonTraversalState}
      {result : List JsString × JsonTraversalState},
      jsonItemTokens depth index items state = some result →
      encodedTokens result.1 =
          utf8Encode (partsFrom index (Json.stringifyItems (JsData.toJsonItems items))) ∧
        TokensFit result.1
  | [], _, _, h => by
    obtain rfl := Option.some.inj h
    unfold partsFrom
    split <;> exact ⟨rfl, nofun⟩
  | item :: rest, _, _, h => by
    simp only [jsonItemTokens, Option.bind_eq_bind, Option.bind_eq_some_iff] at h
    obtain ⟨first, hitem, others, hrest, h⟩ := h
    obtain rfl := Option.some.inj h
    obtain ⟨hencoded, hfit, _⟩ := jsonValueTokens_spec item hitem
    obtain ⟨hencoded', hfit'⟩ := jsonItemTokens_spec rest hrest
    rw [JsData.toJsonItems, Json.stringifyItems, utf8Encode_partsFrom_cons, ← hencoded,
      ← hencoded']
    refine ⟨by simp, tokensFit_append (tokensFit_append ?_ hfit) hfit'⟩
    split
    · exact tokensFit_literal (by decide) (by decide)
    · exact nofun

theorem jsonMemberTokens_spec {depth index : ℕ} :
    ∀ (fields : List (JsString × JsData)) {state : JsonTraversalState}
      {result : List JsString × JsonTraversalState},
      jsonMemberTokens depth index fields state = some result →
      encodedTokens result.1 =
          utf8Encode (partsFrom index (Json.stringifyFields (JsData.toJsonFields fields))) ∧
        TokensFit result.1
  | [], _, _, h => by
    obtain rfl := Option.some.inj h
    unfold partsFrom
    split <;> exact ⟨rfl, nofun⟩
  | (key, value) :: rest, _, _, h => by
    simp only [jsonMemberTokens, Option.bind_eq_bind, Option.bind_eq_some_iff] at h
    obtain ⟨first, hvalue, others, hrest, h⟩ := h
    obtain rfl := Option.some.inj h
    obtain ⟨hencoded, hfit, hdefined⟩ := jsonValueTokens_spec value hvalue
    obtain ⟨hencoded', hfit'⟩ := jsonMemberTokens_spec rest hrest
    obtain ⟨hkey, hkeyFit⟩ := jsonStringTokens_spec key
    have hmember : utf8Encode (Json.quote key ++ 0x3A :: Json.stringify value.toJson) =
        encodedTokens (jsonStringTokens key) ++ utf8Encode (js ":") ++ encodedTokens first.1 := by
      rw [utf8Encode_ascii_seam (by decide), hkey, hencoded]
      rfl
    have hfields : Json.stringifyFields (JsData.toJsonFields ((key, value) :: rest)) =
        (Json.quote key ++ 0x3A :: Json.stringify value.toJson) ::
          Json.stringifyFields (JsData.toJsonFields rest) := by
      rw [JsData.toJsonFields, if_neg (by simp [hdefined]), Json.stringifyFields]
    rw [hfields, utf8Encode_partsFrom_cons, hmember, ← hencoded']
    have hcolon : TokensFit [js ":"] := tokensFit_literal (by decide) (by decide)
    refine ⟨by simp, tokensFit_append (tokensFit_append (tokensFit_append ?_ hkeyFit)
      (tokensFit_append hcolon hfit)) hfit'⟩
    split
    · exact tokensFit_literal (by decide) (by decide)
    · exact nofun

end

/-! ## Values within the ceilings -/

theorem enterJsonValue_of_le {state : JsonTraversalState} {depth : ℕ}
    (hdepth : depth ≤ CODEC_MAX_JSON_DEPTH) (hitems : state.items + 1 ≤ CODEC_MAX_JSON_ITEMS) :
    enterJsonValue state depth = some { state with items := state.items + 1 } := by
  unfold enterJsonValue
  rw [if_neg (Nat.not_lt.mpr hdepth), if_neg (Nat.not_lt.mpr hitems)]

mutual

theorem jsonValueTokens_of_plain (depth : ℕ) :
    ∀ (value : JsData) (state : JsonTraversalState), value.isPlain = true →
      depth + value.nesting ≤ CODEC_MAX_JSON_DEPTH →
      state.items + value.valueCount ≤ CODEC_MAX_JSON_ITEMS →
      state.stringBytes + value.stringBytes ≤ CODEC_MAX_JSON_STRING_BYTES →
      ∃ tokens, jsonValueTokens depth value state =
        some (tokens, ⟨state.items + value.valueCount, state.stringBytes + value.stringBytes⟩)
  | .undefined, _, hplain, _, _, _ => nomatch hplain
  | .null, state, _, hdepth, hitems, _ => by
    rw [jsonValueTokens,
      show enterJsonValue state depth = _ from enterJsonValue_of_le hdepth hitems]
    exact ⟨_, rfl⟩
  | .bool value, state, _, hdepth, hitems, _ => by
    rw [jsonValueTokens,
      show enterJsonValue state depth = _ from enterJsonValue_of_le hdepth hitems]
    exact ⟨_, rfl⟩
  | .num value, state, hplain, hdepth, hitems, _ => by
    rw [jsonValueTokens,
      show enterJsonValue state depth = _ from enterJsonValue_of_le hdepth hitems]
    have hsafe : (value.isFinite && value.isSafe) = true := hplain
    simp only [Option.bind_eq_bind, Option.bind_some, hsafe, if_true]
    exact ⟨_, rfl⟩
  | .str value, state, _, hdepth, hitems, hbytes => by
    rw [jsonValueTokens,
      show enterJsonValue state depth = _ from enterJsonValue_of_le hdepth hitems]
    have hbytes' : state.stringBytes + utf8ByteLength value ≤ CODEC_MAX_JSON_STRING_BYTES := hbytes
    simp only [Option.bind_eq_bind, Option.bind_some, JsonTraversalState.addJsonStringBytes]
    rw [if_neg (Nat.not_lt.mpr hbytes')]
    exact ⟨_, rfl⟩
  | .arr items, state, hplain, hdepth, hitems, hbytes => by
    rw [JsData.isPlain, Bool.and_eq_true, decide_eq_true_eq] at hplain
    rw [JsData.nesting] at hdepth
    rw [JsData.valueCount] at hitems
    rw [JsData.stringBytes] at hbytes
    obtain ⟨tokens, htokens⟩ := jsonItemTokens_of_plain depth 0 items
      { state with items := state.items + 1 } hplain.2 hdepth (by dsimp only; omega) hbytes
    rw [jsonValueTokens, enterJsonValue_of_le (by omega) (by omega)]
    simp only [Option.bind_eq_bind, Option.bind_some]
    rw [if_neg (Nat.not_lt.mpr hplain.1), htokens, JsData.valueCount, JsData.stringBytes,
      Nat.add_comm (JsData.itemCount items), ← Nat.add_assoc]
    exact ⟨_, rfl⟩
  | .obj fields, state, hplain, hdepth, hitems, hbytes => by
    rw [JsData.isPlain, Bool.and_eq_true, decide_eq_true_eq] at hplain
    rw [JsData.nesting] at hdepth
    rw [JsData.valueCount] at hitems
    rw [JsData.stringBytes] at hbytes
    obtain ⟨tokens, htokens⟩ := jsonMemberTokens_of_plain depth 0 fields
      { state with items := state.items + 1 } hplain.2 hdepth (by dsimp only; omega) hbytes
    rw [jsonValueTokens, enterJsonValue_of_le (by omega) (by omega)]
    simp only [Option.bind_eq_bind, Option.bind_some]
    rw [if_neg (Nat.not_lt.mpr hplain.1), htokens, JsData.valueCount, JsData.stringBytes,
      Nat.add_comm (JsData.memberCount fields), ← Nat.add_assoc]
    exact ⟨_, rfl⟩

theorem jsonItemTokens_of_plain (depth index : ℕ) :
    ∀ (items : List JsData) (state : JsonTraversalState), JsData.arePlainItems items = true →
      depth + JsData.itemNesting items ≤ CODEC_MAX_JSON_DEPTH →
      state.items + JsData.itemCount items ≤ CODEC_MAX_JSON_ITEMS →
      state.stringBytes + JsData.itemStringBytes items ≤ CODEC_MAX_JSON_STRING_BYTES →
      ∃ tokens, jsonItemTokens depth index items state =
        some (tokens, ⟨state.items + JsData.itemCount items,
          state.stringBytes + JsData.itemStringBytes items⟩)
  | [], _, _, _, _, _ => ⟨[], rfl⟩
  | item :: rest, state, hplain, hdepth, hitems, hbytes => by
    rw [JsData.arePlainItems, Bool.and_eq_true] at hplain
    rw [JsData.itemNesting] at hdepth
    rw [JsData.itemCount] at hitems
    rw [JsData.itemStringBytes] at hbytes
    obtain ⟨tokens, htokens⟩ := jsonValueTokens_of_plain (depth + 1) item state hplain.1
      (by omega) (by omega) (by omega)
    obtain ⟨others, hothers⟩ := jsonItemTokens_of_plain depth (index + 1) rest
      ⟨state.items + item.valueCount, state.stringBytes + item.stringBytes⟩ hplain.2 (by omega)
      (by dsimp only; omega) (by dsimp only; omega)
    rw [jsonItemTokens, htokens]
    simp only [Option.bind_eq_bind, Option.bind_some, hothers]
    rw [JsData.itemCount, JsData.itemStringBytes, ← Nat.add_assoc, ← Nat.add_assoc]
    exact ⟨_, rfl⟩

theorem jsonMemberTokens_of_plain (depth index : ℕ) :
    ∀ (fields : List (JsString × JsData)) (state : JsonTraversalState),
      JsData.arePlainMembers fields = true →
      depth + JsData.memberNesting fields ≤ CODEC_MAX_JSON_DEPTH →
      state.items + JsData.memberCount fields ≤ CODEC_MAX_JSON_ITEMS →
      state.stringBytes + JsData.memberStringBytes fields ≤ CODEC_MAX_JSON_STRING_BYTES →
      ∃ tokens, jsonMemberTokens depth index fields state =
        some (tokens, ⟨state.items + JsData.memberCount fields,
          state.stringBytes + JsData.memberStringBytes fields⟩)
  | [], _, _, _, _, _ => ⟨[], rfl⟩
  | (key, value) :: rest, state, hplain, hdepth, hitems, hbytes => by
    rw [JsData.arePlainMembers, Bool.and_eq_true] at hplain
    rw [JsData.memberNesting] at hdepth
    rw [JsData.memberCount] at hitems
    rw [JsData.memberStringBytes] at hbytes
    obtain ⟨tokens, htokens⟩ := jsonValueTokens_of_plain (depth + 1) value state hplain.1
      (by omega) (by omega) (by omega)
    obtain ⟨others, hothers⟩ := jsonMemberTokens_of_plain depth (index + 1) rest
      ⟨state.items + value.valueCount, state.stringBytes + value.stringBytes⟩ hplain.2 (by omega)
      (by dsimp only; omega) (by dsimp only; omega)
    rw [jsonMemberTokens, htokens]
    simp only [Option.bind_eq_bind, Option.bind_some, hothers]
    rw [JsData.memberCount, JsData.memberStringBytes, ← Nat.add_assoc, ← Nat.add_assoc]
    exact ⟨_, rfl⟩

end

theorem utf8ByteLength_le_bodyBytes (s : JsString) : utf8ByteLength s ≤ Json.bodyBytes s := by
  have hunit : ∀ u, utf8UnitLength u ≤ Json.unitBytes u := by
    intro u
    have hthree := utf8ByteLength_singleton_le u
    change utf8UnitLength u ≤ 3 at hthree
    unfold Json.unitBytes
    split_ifs with hquote hcontrol hshort hsurrogate
    · rcases hquote with rfl | rfl <;> decide
    · rcases hshort with rfl | rfl | rfl | rfl | rfl <;> decide
    · omega
    · omega
    · exact Nat.le_refl _
  induction s using Json.bodyBytes.induct with
  | case1 => exact Nat.le_refl _
  | case2 u => exact hunit u
  | case3 u v rest hpair ih =>
    rw [utf8ByteLength, if_pos hpair, Json.bodyBytes, if_pos hpair]
    omega
  | case4 u v rest hpair ih =>
    have hu := hunit u
    rw [utf8ByteLength, if_neg hpair, Json.bodyBytes, if_neg hpair]
    omega

mutual

theorem stringBytes_le : ∀ value : JsData, value.stringBytes ≤ value.toJson.byteLength
  | .undefined | .null | .bool _ | .num _ => Nat.zero_le _
  | .str value => by
    change utf8ByteLength value ≤ utf8ByteLength (Json.quote value)
    have := utf8ByteLength_le_bodyBytes value
    rw [Json.utf8ByteLength_quote]
    omega
  | .arr items => by
    have := itemStringBytes_le items
    rw [JsData.stringBytes, JsData.toJson, Json.byteLength_arr]
    omega
  | .obj fields => by
    have := memberStringBytes_le fields
    rw [JsData.stringBytes, JsData.toJson, Json.byteLength_obj]
    omega

theorem itemStringBytes_le : ∀ items : List JsData,
    JsData.itemStringBytes items ≤ ((JsData.toJsonItems items).map Json.byteLength).sum
  | [] => Nat.le_refl _
  | item :: rest => by
    have hitem := stringBytes_le item
    have hrest := itemStringBytes_le rest
    rw [JsData.itemStringBytes, JsData.toJsonItems, List.map_cons, List.sum_cons]
    omega

theorem memberStringBytes_le : ∀ fields : List (JsString × JsData),
    JsData.memberStringBytes fields ≤ ((JsData.toJsonFields fields).map fun entry =>
      utf8ByteLength (Json.quote entry.1) + 1 + Json.byteLength entry.2).sum
  | [] => Nat.le_refl _
  | (key, value) :: rest => by
    have hvalue := stringBytes_le value
    have hrest := memberStringBytes_le rest
    rw [JsData.memberStringBytes, JsData.toJsonFields]
    split
    · rename_i hundefined
      have hnone : value.stringBytes = 0 := by
        cases value with
        | undefined => rfl
        | _ => cases hundefined
      omega
    · rw [List.map_cons, List.sum_cons]
      dsimp only
      omega

end

/-! ## Passes -/

theorem inputTokens_spec {source : BoundedUtf8EncodingInput}
    (h : inputTokens source = some tokens) :
    ∃ text, source.encodedText = some text ∧ encodedTokens tokens = utf8Encode text ∧
      TokensFit tokens := by
  cases source with
  | text value =>
    obtain rfl := Option.some.inj h
    obtain ⟨hencoded, hfit⟩ := rawUtf8Tokens_spec [] 0 value rfl rfl (Nat.zero_le _)
    exact ⟨value, rfl, hencoded, hfit⟩
  | json value =>
    obtain ⟨result, hresult, rfl⟩ := Option.map_eq_some_iff.mp h
    obtain ⟨hencoded, hfit, hdefined⟩ := jsonValueTokens_spec value hresult
    refine ⟨Json.stringify value.toJson, ?_, hencoded, hfit⟩
    change value.stringify = _
    rw [JsData.stringify, if_neg (by simp [hdefined])]

theorem inputTokens_of_withinCeilings {source : BoundedUtf8EncodingInput} {text : JsString}
    (hceilings : source.WithinCeilings) (htext : source.encodedText = some text)
    (hbytes : utf8ByteLength text ≤ CODEC_DEFAULT_MAX_BYTES) :
    ∃ tokens, inputTokens source = some tokens := by
  cases source with
  | text value => exact ⟨_, rfl⟩
  | json value =>
    obtain ⟨hplain, hdepth, hcount⟩ := hceilings
    change value.stringify = some text at htext
    unfold JsData.stringify at htext
    split at htext
    · cases htext
    · obtain rfl := Option.some.inj htext
      have hstrings : value.stringBytes ≤ CODEC_MAX_JSON_STRING_BYTES :=
        Nat.le_trans (stringBytes_le value) hbytes
      obtain ⟨tokens, htokens⟩ := jsonValueTokens_of_plain 0 value ⟨0, 0⟩ hplain
        (by rwa [Nat.zero_add]) (by rwa [Nat.zero_add]) (by rwa [Nat.zero_add])
      exact ⟨tokens, by rw [inputTokens, htokens]; rfl⟩

theorem passChunks_spec {source : BoundedUtf8EncodingInput}
    (htokens : inputTokens source = some tokens) (hfit : TokensFit tokens) (maxBytes : ℕ) :
    if maxBytes < tokenBytes tokens then passChunks source maxBytes = none
    else ∃ chunks, passChunks source maxBytes = some chunks ∧
      chunks.flatten = encodedTokens tokens ∧ ∀ chunk ∈ chunks, IsChunk chunk := by
  have hbuffer : tokenBytes [] ≤ MAX_CHUNK_BYTES := Nat.zero_le _
  have hchunks := encodedChunks_spec hfit hbuffer (Nat.zero_le maxBytes)
  unfold passChunks
  rw [htokens, Option.bind_some]
  rw [Nat.zero_add] at hchunks
  exact hchunks

/-- The measuring pass finds the bytes of the tokens: the chunks only regroup them. -/
theorem byteLength_prepareUtf8Encoding (source : BoundedUtf8EncodingInput) (maxBytes : ℕ) :
    (prepareUtf8Encoding source maxBytes).map (·.byteLength) =
      prepareBoundedUtf8Encoding source maxBytes := by
  unfold prepareUtf8Encoding prepareBoundedUtf8Encoding
  split
  · rfl
  · cases htokens : inputTokens source with
    | none =>
      unfold passChunks
      rw [htokens]
      rfl
    | some tokens =>
      obtain ⟨_, _, _, hfit⟩ := inputTokens_spec htokens
      have hpass := passChunks_spec htokens hfit maxBytes
      rw [Option.bind_some]
      split at hpass
      · rename_i hlong
        rw [hpass, if_pos hlong]
        rfl
      · rename_i hwithin
        obtain ⟨chunks, hchunks, hflatten, -⟩ := hpass
        rw [hchunks, if_neg hwithin, Option.map_some, Option.map_some, ← List.length_flatten,
          hflatten, length_encodedTokens]

/-- **The codec is exact.** The chunks of an accepted source, read again as it was measured, are
together the encoding of its text; every chunk is non-empty, fits into a buffer and consists of
whole tokens; and the announced length is theirs. A source is rejected only when its encoding
exceeds the limit or it is a JSON value beyond the ceilings of the codec. -/
theorem utf8_codec_exact (source : BoundedUtf8EncodingInput) (maxBytes : ℕ) :
    (∀ prepared, prepareUtf8Encoding source maxBytes = some prepared →
      ∃ chunks text, prepared.createReadable source = some chunks ∧
        source.encodedText = some text ∧ chunks.flatten = utf8Encode text ∧
        (∀ chunk ∈ chunks, IsChunk chunk) ∧
        prepared.byteLength = (chunks.map List.length).sum ∧
        prepared.byteLength = utf8ByteLength text) ∧
      (0 < maxBytes → maxBytes ≤ CODEC_DEFAULT_MAX_BYTES →
        prepareUtf8Encoding source maxBytes = none →
        ¬ source.WithinCeilings ∨
          ∀ text, source.encodedText = some text → maxBytes < utf8ByteLength text) := by
  refine ⟨?_, ?_⟩
  · intro prepared hprepared
    unfold prepareUtf8Encoding at hprepared
    split at hprepared
    · cases hprepared
    · obtain ⟨chunks, hchunks, rfl⟩ := Option.map_eq_some_iff.mp hprepared
      cases htokens : inputTokens source with
      | none =>
        unfold passChunks at hchunks
        rw [htokens] at hchunks
        cases hchunks
      | some tokens =>
        obtain ⟨text, htext, hencoded, hfit⟩ := inputTokens_spec htokens
        have hpass := passChunks_spec htokens hfit maxBytes
        split at hpass
        · rw [hchunks] at hpass
          cases hpass
        · obtain ⟨others, hothers, hflatten, hall⟩ := hpass
          obtain rfl : chunks = others := Option.some.inj (hchunks.symm.trans hothers)
          refine ⟨chunks, text, hchunks, htext, hflatten.trans hencoded, hall, rfl, ?_⟩
          change (chunks.map List.length).sum = _
          rw [← List.length_flatten, hflatten, hencoded, length_utf8Encode]
  · intro hpositive hlimit hnone
    rw [or_iff_not_imp_left, not_not]
    intro hceilings text htext
    by_contra hwithin
    obtain ⟨tokens, htokens⟩ := inputTokens_of_withinCeilings hceilings htext
      (Nat.le_trans (Nat.not_lt.mp hwithin) hlimit)
    obtain ⟨text', htext', hencoded, hfit⟩ := inputTokens_spec htokens
    obtain rfl : text = text' := Option.some.inj (htext.symm.trans htext')
    have hpass := passChunks_spec htokens hfit maxBytes
    rw [← length_encodedTokens, hencoded, length_utf8Encode, if_neg hwithin] at hpass
    obtain ⟨chunks, hchunks, _⟩ := hpass
    unfold prepareUtf8Encoding at hnone
    rw [if_neg (by omega), hchunks] at hnone
    cases hnone

/-- A text with characters of one, two and four bytes is exact. -/
theorem utf8_codec_exact_text :
    ∃ chunks text,
      (⟨7, 64⟩ : PreparedBoundedUtf8Encoding).createReadable (.text (js "aé😀")) = some chunks ∧
        BoundedUtf8EncodingInput.encodedText (.text (js "aé😀")) = some text ∧
        chunks.flatten = utf8Encode text ∧ (∀ chunk ∈ chunks, IsChunk chunk) ∧
        7 = (chunks.map List.length).sum ∧ 7 = utf8ByteLength text :=
  (utf8_codec_exact (.text (js "aé😀")) 64).1 ⟨7, 64⟩ (by decide +kernel)

/-- The codec rejects a finite number beyond the safe range, which has a short JSON text. -/
theorem rejects_unsafe_number :
    ¬ ∀ (source : BoundedUtf8EncodingInput) (maxBytes : ℕ), 0 < maxBytes →
      maxBytes ≤ CODEC_DEFAULT_MAX_BYTES → prepareUtf8Encoding source maxBytes = none →
      source.encodedText = none ∨
        ∃ text, source.encodedText = some text ∧ maxBytes < utf8ByteLength text := by
  intro h
  let number : JsNumber :=
    { literal := js "9007199254740992", isFinite := true, isSafe := false, safeNat := none
      ascii := ascii_of_all (by decide), short := by decide }
  rcases h (.json (.num number)) 64 (by decide) (by decide) (by decide +kernel) with
    hnone | ⟨text, htext, hlong⟩
  · cases hnone
  · have hshort : utf8ByteLength (js "9007199254740992") ≤ 64 := by decide +kernel
    obtain rfl : js "9007199254740992" = text := Option.some.inj htext
    omega

end PiAgentWeb
