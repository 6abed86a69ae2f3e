import PiAgentWeb.Library.JsData

/-!
# The bounded UTF-8 codec

`bounded-utf8-codec.ts`: a text or a JSON value is cut into bounded tokens that are encoded one
after another. A token never cuts a surrogate pair, so the tokens together have as many bytes as the
whole.
-/

namespace PiAgentWeb

/-- `MAX_CHUNK_BYTES`. -/
def MAX_CHUNK_BYTES : ℕ := 64 * 1024

/-- `RAW_TOKEN_CODE_UNITS`. -/
def RAW_TOKEN_CODE_UNITS : ℕ := MAX_CHUNK_BYTES / 4

/-- `DEFAULT_MAX_BYTES`. -/
def CODEC_DEFAULT_MAX_BYTES : ℕ := 48 * (1024 * 1024)

/-- `MAX_JSON_DEPTH`. -/
def CODEC_MAX_JSON_DEPTH : ℕ := 32

/-- `MAX_JSON_ITEMS`. -/
def CODEC_MAX_JSON_ITEMS : ℕ := 50000

/-- `MAX_JSON_CONTAINER_ITEMS`. -/
def CODEC_MAX_JSON_CONTAINER_ITEMS : ℕ := 10000

/-- `MAX_JSON_STRING_BYTES`. -/
def CODEC_MAX_JSON_STRING_BYTES : ℕ := 48 * (1024 * 1024)

/-- The bytes of the tokens of an encoding. -/
def tokenBytes (tokens : List JsString) : ℕ := (tokens.map utf8ByteLength).sum

/-- `codePointUtf8Bytes` of a code unit outside a surrogate pair. -/
def codeUnitUtf8Bytes (u : UInt16) : ℕ := if u ≤ 0x7F then 1 else if u ≤ 0x7FF then 2 else 3

/-- The running slice is yielded before the next code point. -/
def yieldsRun (run : JsString) (runBytes bytes : ℕ) : Bool :=
  0 < runBytes && (MAX_CHUNK_BYTES < runBytes + bytes || RAW_TOKEN_CODE_UNITS ≤ run.length)

/-- The running slice, when there is one. -/
def yieldRun (run : JsString) : List JsString := if run.isEmpty then [] else [run]

/-- `rawUtf8Tokens`, with the slice that is running. -/
def rawUtf8Tokens (run : JsString) (runBytes : ℕ) : JsString → List JsString
  | [] => yieldRun run
  | [u] => if yieldsRun run runBytes (codeUnitUtf8Bytes u) then [run, [u]] else [run ++ [u]]
  | u :: v :: rest =>
    if isHighSurrogate u && isLowSurrogate v then
      if yieldsRun run runBytes 4 then run :: rawUtf8Tokens [u, v] 4 rest
      else rawUtf8Tokens (run ++ [u, v]) (runBytes + 4) rest
    else if yieldsRun run runBytes (codeUnitUtf8Bytes u) then
      run :: rawUtf8Tokens [u] (codeUnitUtf8Bytes u) (v :: rest)
    else rawUtf8Tokens (run ++ [u]) (runBytes + codeUnitUtf8Bytes u) (v :: rest)

/-- `shortEscape`. -/
def shortEscape (u : UInt16) : Option JsString :=
  if u = 0x08 then some (js "\\b")
  else if u = 0x09 then some (js "\\t")
  else if u = 0x0A then some (js "\\n")
  else if u = 0x0C then some (js "\\f")
  else if u = 0x0D then some (js "\\r")
  else none

/-- The escaped token of a code unit outside a surrogate pair. -/
def escapedToken (u : UInt16) : Option JsString :=
  if u = 0x22 then some (js "\\\"")
  else if u = 0x5C then some (js "\\\\")
  else if u ≤ 0x1F then some ((shortEscape u).getD (Json.unicodeEscape u))
  else if isHighSurrogate u || isLowSurrogate u then some (Json.unicodeEscape u)
  else none

/-- The tokens between the quotes of `jsonStringTokens`, with the slice that is running. -/
def jsonUnitTokens (run : JsString) (runBytes : ℕ) : JsString → List JsString
  | [] => yieldRun run
  | [u] =>
    match escapedToken u with
    | some token => yieldRun run ++ [token]
    | none => if yieldsRun run runBytes (codeUnitUtf8Bytes u) then [run, [u]] else [run ++ [u]]
  | u :: v :: rest =>
    if isHighSurrogate u && isLowSurrogate v then
      if yieldsRun run runBytes 4 then run :: jsonUnitTokens [u, v] 4 rest
      else jsonUnitTokens (run ++ [u, v]) (runBytes + 4) rest
    else
      match escapedToken u with
      | some token => yieldRun run ++ token :: jsonUnitTokens [] 0 (v :: rest)
      | none =>
        if yieldsRun run runBytes (codeUnitUtf8Bytes u) then
          run :: jsonUnitTokens [u] (codeUnitUtf8Bytes u) (v :: rest)
        else jsonUnitTokens (run ++ [u]) (runBytes + codeUnitUtf8Bytes u) (v :: rest)

/-- `jsonStringTokens`. -/
def jsonStringTokens (value : JsString) : List JsString :=
  js "\"" :: jsonUnitTokens [] 0 value ++ [js "\""]

/-- `JsonTraversalState`, less the objects that are being traversed. -/
structure JsonTraversalState where
  items : ℕ
  stringBytes : ℕ

/-- `addJsonStringBytes` of the code points of a string. -/
def JsonTraversalState.addJsonStringBytes (state : JsonTraversalState) (value : JsString) :
    Option JsonTraversalState :=
  if CODEC_MAX_JSON_STRING_BYTES < state.stringBytes + utf8ByteLength value then none
  else some { state with stringBytes := state.stringBytes + utf8ByteLength value }

/-- `enterJsonValue`. -/
def enterJsonValue (state : JsonTraversalState) (depth : ℕ) : Option JsonTraversalState :=
  if CODEC_MAX_JSON_DEPTH < depth then none
  else if CODEC_MAX_JSON_ITEMS < state.items + 1 then none
  else some { state with items := state.items + 1 }

mutual

/-- `jsonValueTokens`: nothing when it throws. -/
def jsonValueTokens (depth : ℕ) :
    JsData → JsonTraversalState → Option (List JsString × JsonTraversalState)
  | .undefined, _ => none
  | .null, state => do
    let state ← enterJsonValue state depth
    some ([js "null"], state)
  | .bool value, state => do
    let state ← enterJsonValue state depth
    some ([if value then js "true" else js "false"], state)
  | .num value, state => do
    let state ← enterJsonValue state depth
    if value.isFinite && value.isSafe then some ([value.literal], state) else none
  | .str value, state => do
    let state ← enterJsonValue state depth
    let state ← state.addJsonStringBytes value
    some (jsonStringTokens value, state)
  | .arr items, state => do
    let state ← enterJsonValue state depth
    if CODEC_MAX_JSON_CONTAINER_ITEMS < items.length then none
    else
      let (tokens, state) ← jsonItemTokens depth 0 items state
      some (js "[" :: tokens ++ [js "]"], state)
  | .obj fields, state => do
    let state ← enterJsonValue state depth
    if CODEC_MAX_JSON_CONTAINER_ITEMS < fields.length then none
    else
      let (tokens, state) ← jsonMemberTokens depth 0 fields state
      some (js "\x7b" :: tokens ++ [js "\x7d"], state)

/-- The loop over the elements of an array, from an index on. -/
def jsonItemTokens (depth index : ℕ) :
    List JsData → JsonTraversalState → Option (List JsString × JsonTraversalState)
  | [], state => some ([], state)
  | item :: rest, state => do
    let (tokens, state) ← jsonValueTokens (depth + 1) item state
    let (others, state) ← jsonItemTokens depth (index + 1) rest state
    some ((if 0 < index then [js ","] else []) ++ tokens ++ others, state)

/-- The loop over the members of an object, from an index on. -/
def jsonMemberTokens (depth index : ℕ) :
    List (JsString × JsData) → JsonTraversalState → Option (List JsString × JsonTraversalState)
  | [], state => some ([], state)
  | (key, value) :: rest, state => do
    let (tokens, state) ← jsonValueTokens (depth + 1) value state
    let (others, state) ← jsonMemberTokens depth (index + 1) rest state
    some ((if 0 < index then [js ","] else []) ++ jsonStringTokens key ++ js ":" :: tokens ++
      others, state)

end

/-- `BoundedUtf8EncodingInput`. -/
inductive BoundedUtf8EncodingInput where
  | text (value : JsString)
  | json (value : JsData)

/-- `inputTokens`: nothing when the traversal throws. -/
def inputTokens : BoundedUtf8EncodingInput → Option (List JsString)
  | .text value => some (rawUtf8Tokens [] 0 value)
  | .json value => (jsonValueTokens 0 value { items := 0, stringBytes := 0 }).map (·.1)

/-- The length that `prepareBoundedUtf8Encoding` finds; nothing when it fails. The chunks only
regroup the bytes of the tokens. -/
def prepareBoundedUtf8Encoding (input : BoundedUtf8EncodingInput)
    (maxBytes : ℕ := CODEC_DEFAULT_MAX_BYTES) : Option ℕ :=
  if maxBytes = 0 ∨ CODEC_DEFAULT_MAX_BYTES < maxBytes then none
  else (inputTokens input).bind fun tokens =>
    if maxBytes < tokenBytes tokens then none else some (tokenBytes tokens)

/-! ## The bytes of the tokens -/

@[simp] theorem tokenBytes_nil : tokenBytes [] = 0 := rfl

@[simp] theorem tokenBytes_cons (token : JsString) (tokens : List JsString) :
    tokenBytes (token :: tokens) = utf8ByteLength token + tokenBytes tokens := by
  simp [tokenBytes]

@[simp] theorem tokenBytes_append (tokens tokens' : List JsString) :
    tokenBytes (tokens ++ tokens') = tokenBytes tokens + tokenBytes tokens' := by
  simp [tokenBytes]

@[simp] theorem tokenBytes_yieldRun (run : JsString) :
    tokenBytes (yieldRun run) = utf8ByteLength run := by
  unfold yieldRun
  split
  · rename_i hempty
    rw [List.isEmpty_iff.mp hempty]
    rfl
  · simp

theorem utf8ByteLength_append_of_head {first rest : JsString}
    (h : rest.head?.any isLowSurrogate = false) :
    utf8ByteLength (first ++ rest) = utf8ByteLength first + utf8ByteLength rest :=
  utf8ByteLength_append (by rw [splitsPair, h, Bool.and_false])

theorem tokenBytes_rawUtf8Tokens (run : JsString) (runBytes : ℕ) (s : JsString)
    (h : splitsPair run s = false) :
    tokenBytes (rawUtf8Tokens run runBytes s) = utf8ByteLength (run ++ s) := by
  fun_induction rawUtf8Tokens run runBytes s with
  | case1 run runBytes => simp
  | case2 run runBytes u hyields => simp [utf8ByteLength_append h]
  | case3 run runBytes u hyields => simp
  | case4 run runBytes u v rest hpair hyields ih =>
    have hrest : splitsPair [u, v] rest = false := by
      have hv := (Bool.and_eq_true_iff.mp hpair).2
      have hhigh : isHighSurrogate v = false := by
        by_contra hv'
        rw [not_low_of_high (by simpa using hv')] at hv
        cases hv
      simp [splitsPair, hhigh]
    rw [tokenBytes_cons, ih hrest, utf8ByteLength_append h]
    rfl
  | case5 run runBytes u v rest hpair hyields ih =>
    have hrest : splitsPair (run ++ [u, v]) rest = false := by
      have hv := (Bool.and_eq_true_iff.mp hpair).2
      have hhigh : isHighSurrogate v = false := by
        by_contra hv'
        rw [not_low_of_high (by simpa using hv')] at hv
        cases hv
      simp [splitsPair, hhigh]
    rw [ih hrest, List.append_assoc]
    rfl
  | case6 run runBytes u v rest hpair hyields ih =>
    have hrest : splitsPair [u] (v :: rest) = false := by
      simpa [splitsPair] using hpair
    rw [tokenBytes_cons, ih hrest, utf8ByteLength_append h]
    rfl
  | case7 run runBytes u v rest hpair hyields ih =>
    have hrest : splitsPair (run ++ [u]) (v :: rest) = false := by
      simpa [splitsPair] using hpair
    rw [ih hrest, List.append_assoc]
    rfl

theorem escapedToken_some {u : UInt16} {token : JsString} (h : escapedToken u = some token) :
    utf8ByteLength token = Json.unitBytes u := by
  have hsix : ∀ u, utf8ByteLength (Json.unicodeEscape u) = 6 := fun u => by
    rw [utf8ByteLength_ascii (Json.unicodeEscape_ascii u)]
    rfl
  unfold escapedToken at h
  unfold Json.unitBytes
  split_ifs at h with h22 h5c hcontrol hsurrogate
  · obtain rfl := Option.some.inj h
    rw [if_pos (.inl h22)]
    decide
  · obtain rfl := Option.some.inj h
    rw [if_pos (.inr h5c)]
    decide
  · obtain rfl := Option.some.inj h
    rw [if_neg (by simp [h22, h5c]), if_pos hcontrol]
    by_cases hshort : u = 0x08 ∨ u = 0x09 ∨ u = 0x0A ∨ u = 0x0C ∨ u = 0x0D
    · rw [if_pos hshort]
      rcases hshort with rfl | rfl | rfl | rfl | rfl <;> decide
    · rw [if_neg hshort]
      have hnone : shortEscape u = none := by
        simp only [not_or] at hshort
        simp [shortEscape, hshort]
      rw [hnone]
      exact hsix u
  · obtain rfl := Option.some.inj h
    rw [if_neg (by simp [h22, h5c]), if_neg hcontrol, if_pos (by simpa using hsurrogate), hsix]

theorem escapedToken_none {u : UInt16} (h : escapedToken u = none) :
    utf8ByteLength [u] = Json.unitBytes u ∧ isLowSurrogate u = false := by
  unfold escapedToken at h
  split_ifs at h with h22 h5c hcontrol hsurrogate
  obtain ⟨hhigh, hlow⟩ : isHighSurrogate u = false ∧ isLowSurrogate u = false := by
    simpa using hsurrogate
  refine ⟨?_, hlow⟩
  unfold Json.unitBytes
  rw [if_neg (by simp [h22, h5c]), if_neg hcontrol, if_neg (by simp [hhigh, hlow])]
  rfl

theorem tokenBytes_jsonUnitTokens (run : JsString) (runBytes : ℕ) (s : JsString) :
    tokenBytes (jsonUnitTokens run runBytes s) = utf8ByteLength run + Json.bodyBytes s := by
  fun_induction jsonUnitTokens run runBytes s with
  | case1 run runBytes => simp [Json.bodyBytes]
  | case2 run runBytes u token htoken =>
    simp [Json.bodyBytes, escapedToken_some htoken]
  | case3 run runBytes u htoken hyields =>
    simp [Json.bodyBytes, (escapedToken_none htoken).1]
  | case4 run runBytes u htoken hyields =>
    obtain ⟨hbytes, hlow⟩ := escapedToken_none htoken
    rw [tokenBytes_cons, utf8ByteLength_append_of_head (by simpa using hlow), hbytes]
    rfl
  | case5 run runBytes u v rest hpair hyields ih =>
    rw [tokenBytes_cons, ih, Json.bodyBytes, if_pos hpair, utf8ByteLength, if_pos hpair]
    simp [utf8ByteLength]
  | case6 run runBytes u v rest hpair hyields ih =>
    have hlow := not_low_of_high (Bool.and_eq_true_iff.mp hpair).1
    rw [ih, utf8ByteLength_append_of_head (by simpa using hlow), Json.bodyBytes, if_pos hpair,
      utf8ByteLength, if_pos hpair]
    simp [utf8ByteLength, Nat.add_assoc]
  | case7 run runBytes u v rest hpair token htoken ih =>
    rw [tokenBytes_append, tokenBytes_yieldRun, tokenBytes_cons, ih, Json.bodyBytes, if_neg hpair,
      escapedToken_some htoken]
    simp [utf8ByteLength]
  | case8 run runBytes u v rest hpair htoken hyields ih =>
    rw [tokenBytes_cons, ih, Json.bodyBytes, if_neg hpair, (escapedToken_none htoken).1]
  | case9 run runBytes u v rest hpair htoken hyields ih =>
    obtain ⟨hbytes, hlow⟩ := escapedToken_none htoken
    rw [ih, utf8ByteLength_append_of_head (by simpa using hlow), hbytes, Json.bodyBytes,
      if_neg hpair, Nat.add_assoc]

theorem tokenBytes_jsonStringTokens (value : JsString) :
    tokenBytes (jsonStringTokens value) = utf8ByteLength (Json.quote value) := by
  have hquote : utf8ByteLength (js "\"") = 1 := by decide
  rw [jsonStringTokens, List.cons_append, tokenBytes_cons, tokenBytes_append,
    tokenBytes_jsonUnitTokens, tokenBytes_cons, Json.utf8ByteLength_quote, hquote]
  simp [utf8ByteLength]
  omega

end PiAgentWeb
