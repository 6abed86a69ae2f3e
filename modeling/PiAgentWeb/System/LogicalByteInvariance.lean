import PiAgentWeb.Library.JsonFields
import PiAgentWeb.Protocol.LogicalBytes
import PiAgentWeb.Server.BoundedUtf8Codec

/-!
# Logical bytes do not see externalization

The counter of the protocol and the codec of the server agree on the size of every text and every
JSON value that the codec encodes. So a payload whose roots are inline and the payload in which some
of them are content references, each naming the length that the codec found, have the same logical
bytes.
-/

namespace PiAgentWeb

open LogicalByteCounter

/-! ## The counter and the codec -/

theorem countTextRoot_of_prepared {limit maxBytes n : ℕ} {value : JsString}
    (h : prepareBoundedUtf8Encoding (.text value) maxBytes = some n) :
    countTextRoot limit (.str value) = add limit n := by
  unfold prepareBoundedUtf8Encoding inputTokens at h
  split at h
  · cases h
  · simp only [Option.bind_some] at h
    split at h
    · cases h
    · obtain rfl := Option.some.inj h
      rw [countTextRoot, countRawUtf8_eq, tokenBytes_rawUtf8Tokens [] 0 value (by rfl)]
      rfl

theorem utf8ByteLength_comma : utf8ByteLength (js ",") = 1 := by decide

theorem utf8ByteLength_colon : utf8ByteLength (js ":") = 1 := by decide

mutual

theorem countCanonical_of_tokens (limit : ℕ) {depth : ℕ} :
    ∀ (value : JsData) {state : JsonTraversalState} {result : List JsString × JsonTraversalState},
      jsonValueTokens depth value state = some result →
      countCanonical limit .ordinary value = add limit (tokenBytes result.1)
  | .undefined, _, _, h => nomatch h
  | .null, _, _, h => by
    simp only [jsonValueTokens, Option.bind_eq_bind, Option.bind_eq_some_iff] at h
    obtain ⟨state, -, h⟩ := h
    obtain rfl := Option.some.inj h
    rfl
  | .bool value, _, _, h => by
    simp only [jsonValueTokens, Option.bind_eq_bind, Option.bind_eq_some_iff] at h
    obtain ⟨state, -, h⟩ := h
    obtain rfl := Option.some.inj h
    cases value <;> rfl
  | .num value, _, _, h => by
    simp only [jsonValueTokens, Option.bind_eq_bind, Option.bind_eq_some_iff] at h
    obtain ⟨state, -, h⟩ := h
    split at h
    · rename_i hsafe
      obtain rfl := Option.some.inj h
      rw [countCanonical, if_neg (by decide), countNumber, if_pos hsafe, tokenBytes_cons,
        utf8ByteLength_ascii value.ascii]
      rfl
    · cases h
  | .str value, _, _, h => by
    simp only [jsonValueTokens, Option.bind_eq_bind, Option.bind_eq_some_iff] at h
    obtain ⟨state, -, state', -, h⟩ := h
    obtain rfl := Option.some.inj h
    rw [countCanonical, if_neg (by decide), if_neg (by decide), countJsonString_eq,
      tokenBytes_jsonStringTokens]
  | .arr items, _, _, h => by
    simp only [jsonValueTokens, Option.bind_eq_bind, Option.bind_eq_some_iff] at h
    obtain ⟨state, -, h⟩ := h
    split at h
    · cases h
    · obtain ⟨inner, hitems, h⟩ := Option.bind_eq_some_iff.mp h
      obtain rfl := Option.some.inj h
      rw [countCanonical, if_neg (by decide),
        show arrayItemSchema .ordinary = .ordinary from rfl,
        countItems_of_tokens limit items hitems, add_add, add_add]
      simp only [List.cons_append, tokenBytes_cons, tokenBytes_append, tokenBytes_nil]
      rfl
  | .obj fields, _, _, h => by
    simp only [jsonValueTokens, Option.bind_eq_bind, Option.bind_eq_some_iff] at h
    obtain ⟨state, -, h⟩ := h
    split at h
    · cases h
    · obtain ⟨inner, hfields, h⟩ := Option.bind_eq_some_iff.mp h
      obtain rfl := Option.some.inj h
      rw [countCanonical, if_neg (by decide), if_neg (by decide),
        countFields_of_tokens limit fields fields hfields, add_add, add_add]
      simp only [List.cons_append, tokenBytes_cons, tokenBytes_append, tokenBytes_nil]
      rfl

theorem countItems_of_tokens (limit : ℕ) {depth index : ℕ} :
    ∀ (items : List JsData) {state : JsonTraversalState}
      {result : List JsString × JsonTraversalState},
      jsonItemTokens depth index items state = some result →
      countItems limit .ordinary index items = add limit (tokenBytes result.1)
  | [], _, _, h => by
    obtain rfl := Option.some.inj h
    rfl
  | item :: rest, _, _, h => by
    simp only [jsonItemTokens, Option.bind_eq_bind, Option.bind_eq_some_iff] at h
    obtain ⟨first, hitem, others, hrest, h⟩ := h
    obtain rfl := Option.some.inj h
    rw [countItems, countCanonical_of_tokens limit item hitem,
      countItems_of_tokens limit rest hrest, add_add, add_add]
    refine congrArg _ ?_
    simp only [tokenBytes_append]
    split
    · rw [tokenBytes_cons, utf8ByteLength_comma, tokenBytes_nil]
      omega
    · rw [tokenBytes_nil]
      omega

theorem countFields_of_tokens (limit : ℕ) {depth index : ℕ} (record : List (JsString × JsData)) :
    ∀ (fields : List (JsString × JsData)) {state : JsonTraversalState}
      {result : List JsString × JsonTraversalState},
      jsonMemberTokens depth index fields state = some result →
      countFields limit .ordinary record index fields = add limit (tokenBytes result.1)
  | [], _, _, h => by
    obtain rfl := Option.some.inj h
    rfl
  | (key, child) :: rest, _, _, h => by
    simp only [jsonMemberTokens, Option.bind_eq_bind, Option.bind_eq_some_iff] at h
    obtain ⟨first, hchild, others, hrest, h⟩ := h
    obtain rfl := Option.some.inj h
    have hdefined : child.isUndefined = false := by
      cases child with
      | undefined => cases hchild
      | _ => rfl
    rw [countFields, hdefined, if_neg (by decide),
      show objectChildSchema .ordinary record key = .ordinary from rfl,
      countCanonical_of_tokens limit child hchild, countFields_of_tokens limit record rest hrest,
      countJsonString_eq, add_add, add_add, add_add, add_add]
    refine congrArg _ ?_
    simp only [tokenBytes_append, tokenBytes_cons, tokenBytes_jsonStringTokens,
      utf8ByteLength_colon]
    split
    · rw [tokenBytes_cons, utf8ByteLength_comma, tokenBytes_nil]
      omega
    · rw [tokenBytes_nil]
      omega

end

theorem countInlineValue_of_prepared {limit maxBytes n : ℕ} {fields : List (JsString × JsData)}
    (h : prepareBoundedUtf8Encoding (.json (JsData.get fields "value")) maxBytes = some n) :
    countInlineValue limit fields = add limit n := by
  have hfound : countInlineValue limit fields =
      countCanonical limit .ordinary (JsData.get fields "value") := by
    clear h
    induction fields with
    | nil => rfl
    | cons entry rest ih =>
      obtain ⟨key, child⟩ := entry
      by_cases hkey : (key == js "value") = true
      · simp [countInlineValue, JsData.get, hkey]
      · have hnext : JsData.get ((key, child) :: rest) "value" = JsData.get rest "value" := by
          simp [JsData.get, hkey]
        rw [countInlineValue, if_neg hkey, ih, hnext]
  rw [hfound]
  unfold prepareBoundedUtf8Encoding inputTokens at h
  split at h
  · cases h
  · dsimp only at h
    cases htokens : jsonValueTokens 0 (JsData.get fields "value")
        { items := 0, stringBytes := 0 } with
    | none =>
      rw [htokens] at h
      cases h
    | some result =>
      rw [htokens] at h
      simp only [Option.map_some, Option.bind_some] at h
      split at h
      · cases h
      · obtain rfl := Option.some.inj h
        exact countCanonical_of_tokens limit _ htokens

/-! ## Externalized payloads -/

mutual

/-- The second payload is the first one, except that some of its text and JSON roots are content
references that name the length the codec found for the root. -/
inductive Externalized : LogicalSchema → JsData → JsData → Prop
  | same (schema : LogicalSchema) (value : JsData) : Externalized schema value value
  | text {value : JsString} {reference : JsData} {maxBytes n : ℕ} :
    prepareBoundedUtf8Encoding (.text value) maxBytes = some n →
    contentReferenceBytes "external_text" reference = some n →
    Externalized .textRoot (.str value) reference
  | json {fields : List (JsString × JsData)} {reference : JsData} {maxBytes n : ℕ} :
    isInlineJson fields = true →
    prepareBoundedUtf8Encoding (.json (JsData.get fields "value")) maxBytes = some n →
    contentReferenceBytes "external_json" reference = some n →
    Externalized .jsonRoot (.obj fields) reference
  | arr {schema : LogicalSchema} {items items' : List JsData} :
    ExternalizedItems (arrayItemSchema schema) items items' →
    Externalized schema (.arr items) (.arr items')
  | obj {schema : LogicalSchema} {fields fields' : List (JsString × JsData)} :
    schema.isRoot = false → ExternalizedFields schema fields fields fields' →
    Externalized schema (.obj fields) (.obj fields')

/-- Element by element. -/
inductive ExternalizedItems : LogicalSchema → List JsData → List JsData → Prop
  | nil {schema : LogicalSchema} : ExternalizedItems schema [] []
  | cons {schema : LogicalSchema} {item item' : JsData} {items items' : List JsData} :
    Externalized schema item item' → ExternalizedItems schema items items' →
    ExternalizedItems schema (item :: items) (item' :: items')

/-- Member by member, under the same names. -/
inductive ExternalizedFields : LogicalSchema → List (JsString × JsData) →
    List (JsString × JsData) → List (JsString × JsData) → Prop
  | nil {schema : LogicalSchema} {record : List (JsString × JsData)} :
    ExternalizedFields schema record [] []
  | cons {schema : LogicalSchema} {record fields fields' : List (JsString × JsData)}
    {key : JsString} {child child' : JsData} :
    Externalized (objectChildSchema schema record key) child child' →
    ExternalizedFields schema record fields fields' →
    ExternalizedFields schema record ((key, child) :: fields) ((key, child') :: fields')

end

mutual

theorem Externalized.eq_of_ordinary {value value' : JsData} :
    Externalized .ordinary value value' → value = value'
  | .same _ _ => rfl
  | .arr hitems => congrArg _ hitems.eq_of_ordinary
  | .obj _ hfields => congrArg _ hfields.eq_of_ordinary

theorem ExternalizedItems.eq_of_ordinary {items items' : List JsData} :
    ExternalizedItems .ordinary items items' → items = items'
  | .nil => rfl
  | .cons hitem hitems => by rw [hitem.eq_of_ordinary, hitems.eq_of_ordinary]

theorem ExternalizedFields.eq_of_ordinary {record fields fields' : List (JsString × JsData)} :
    ExternalizedFields .ordinary record fields fields' → fields = fields'
  | .nil => rfl
  | .cons hchild hfields => by rw [Externalized.eq_of_ordinary hchild, hfields.eq_of_ordinary]

end

theorem contentReference_isObject {kind : String} {reference : JsData} {n : ℕ}
    (h : contentReferenceBytes kind reference = some n) : ∃ fields, reference = .obj fields := by
  cases reference with
  | obj fields => exact ⟨fields, rfl⟩
  | _ => cases h

theorem Externalized.sameKind {schema : LogicalSchema} {value value' : JsData}
    (h : Externalized schema value value') :
    value'.isArray = value.isArray ∧ value'.isUndefined = value.isUndefined := by
  cases h with
  | same => exact ⟨rfl, rfl⟩
  | text _ hreference =>
    obtain ⟨fields, rfl⟩ := contentReference_isObject hreference
    exact ⟨rfl, rfl⟩
  | json _ _ hreference =>
    obtain ⟨fields, rfl⟩ := contentReference_isObject hreference
    exact ⟨rfl, rfl⟩
  | arr => exact ⟨rfl, rfl⟩
  | obj => exact ⟨rfl, rfl⟩

theorem ExternalizedFields.get {schema : LogicalSchema}
    {record fields fields' : List (JsString × JsData)}
    (h : ExternalizedFields schema record fields fields') (name : String) :
    Externalized (objectChildSchema schema record (js name)) (JsData.get fields name)
      (JsData.get fields' name) := by
  induction fields generalizing fields' with
  | nil =>
    cases h
    exact .same _ _
  | cons entry rest ih =>
    cases h with
    | @cons _ _ _ rest' key child child' hchild hrest =>
      by_cases hkey : key = js name
      · subst hkey
        simpa [JsData.get, List.find?_cons] using hchild
      · have hne : (key == js name) = false := by simpa using hkey
        have hbefore : JsData.get ((key, child) :: rest) name = JsData.get rest name := by
          simp [JsData.get, hne]
        have hafter : JsData.get ((key, child') :: rest') name = JsData.get rest' name := by
          simp [JsData.get, hne]
        rw [hbefore, hafter]
        exact ih hrest

theorem objectChildSchema_discriminator (schema : LogicalSchema)
    (record : List (JsString × JsData)) {name : String}
    (hname : name ∈ ["type", "role", "method", "command"]) :
    objectChildSchema schema record (js name) = .ordinary := by
  simp only [List.mem_cons, List.not_mem_nil, or_false] at hname
  rcases hname with rfl | rfl | rfl | rfl <;>
    cases schema <;> simp [objectChildSchema, snapshotChildSchema, isKey, js_inj]

theorem ExternalizedFields.objectChildSchema_eq {schema : LogicalSchema}
    {fields fields' : List (JsString × JsData)}
    (h : ExternalizedFields schema fields fields fields') :
    objectChildSchema schema fields' = objectChildSchema schema fields := by
  have hsame : ∀ name ∈ ["type", "role", "method", "command"],
      JsData.get fields' name = JsData.get fields name := by
    intro name hname
    have hget := h.get name
    rw [objectChildSchema_discriminator schema fields hname] at hget
    exact hget.eq_of_ordinary.symm
  have htype := hsame "type" (by simp)
  have hrole := hsame "role" (by simp)
  have hmethod := hsame "method" (by simp)
  have hcommand := hsame "command" (by simp)
  have hcontent := (h.get "content").sameKind.1
  funext key
  unfold objectChildSchema
  simp only [htype, hrole, hmethod, hcommand, hcontent]

/-! ## The analysis -/

mutual

theorem countCanonical_externalized {limit : ℕ} {schema : LogicalSchema} {value value' : JsData} :
    Externalized schema value value' →
      countCanonical limit schema value' = countCanonical limit schema value
  | .same _ _ => rfl
  | .text hprepared hreference => by
    obtain ⟨fields, rfl⟩ := contentReference_isObject hreference
    rw [countCanonical, if_pos rfl, countCanonical, if_pos rfl,
      countTextRoot_of_prepared hprepared, countTextRoot, countContentReference, hreference]
    · rfl
    · intro value hvalue
      cases hvalue
  | .json hinline hprepared hreference => by
    obtain ⟨fields, rfl⟩ := contentReference_isObject hreference
    have hexternal : isInlineJson fields = false := by
      rw [isInlineJson, Bool.and_eq_false_iff]
      left
      simp only [contentReferenceBytes] at hreference
      split at hreference
      · rename_i htype
        cases hfield : JsData.get fields "type" with
        | str literal =>
          rw [hfield] at htype
          simp only [JsData.isString, beq_iff_eq] at htype ⊢
          rw [htype]
          simp
        | _ =>
          rw [hfield] at htype
          cases htype
      · cases hreference
    rw [countCanonical, if_neg (by decide), if_pos rfl, hexternal, if_neg (by decide),
      countCanonical, if_neg (by decide), if_pos rfl, if_pos hinline,
      countInlineValue_of_prepared hprepared, countContentReference, hreference]
    rfl
  | .arr hitems => by
    rw [countCanonical, countCanonical, countItems_externalized 0 hitems]
  | .obj hroot hfields => by
    obtain ⟨htext, hjson⟩ := LogicalSchema.isRoot_eq_false.mp hroot
    rw [countCanonical, if_neg htext, if_neg hjson, countCanonical, if_neg htext, if_neg hjson,
      countFields_externalized hfields.objectChildSchema_eq 0 hfields]

theorem countItems_externalized {limit : ℕ} {schema : LogicalSchema}
    {items items' : List JsData} (index : ℕ) : ExternalizedItems schema items items' →
      countItems limit schema index items' = countItems limit schema index items
  | .nil => rfl
  | .cons hitem hitems => by
    rw [countItems, countItems, countCanonical_externalized hitem,
      countItems_externalized (index + 1) hitems]

theorem countFields_externalized {limit : ℕ} {schema : LogicalSchema}
    {record record' fields fields' : List (JsString × JsData)}
    (hschema : objectChildSchema schema record' = objectChildSchema schema record)
    (included : ℕ) : ExternalizedFields schema record fields fields' →
      countFields limit schema record' included fields' =
        countFields limit schema record included fields
  | .nil => rfl
  | .cons hchild hfields => by
    rw [countFields, countFields, hchild.sameKind.2, hschema,
      countCanonical_externalized hchild, countFields_externalized hschema included hfields,
      countFields_externalized hschema (included + 1) hfields]

end

/-- **Externalization does not change the logical bytes.** The analysis of a payload in which some
of the roots are content references is that of the payload with its roots inline, when each
reference names the length that the codec found, which is not zero; and a value without roots that
the analysis accepts has the bytes of its JSON text. -/
theorem logical_bytes_invariant (schema : LogicalSchema) (maxBytes : ℕ) :
    (∀ value value', Externalized schema value value' →
      analyzeLogicalBytes value' schema maxBytes = analyzeLogicalBytes value schema maxBytes) ∧
    ∀ value total, rootFree schema value = true →
      analyzeLogicalBytes value schema maxBytes = .ok total →
      ∃ text, value.stringify = some text ∧ total = utf8ByteLength text := by
  constructor
  · intro value value' h
    unfold analyzeLogicalBytes
    rw [countCanonical_externalized h]
  · intro value total hfree hanalyzed
    unfold analyzeLogicalBytes at hanalyzed
    split at hanalyzed
    · cases hanalyzed
    · split at hanalyzed
      · cases hanalyzed
      · rename_i bytes hcount
        split at hanalyzed
        · cases hanalyzed
        · obtain rfl := Except.ok.inj hanalyzed
          have htotal := countCanonical_rootFree value hfree hcount
          have hdefined : value.isUndefined = false := by
            cases value with
            | undefined => cases hcount
            | _ => rfl
          refine ⟨Json.stringify value.toJson, ?_, ?_⟩
          · rw [JsData.stringify, hdefined, if_neg (by decide)]
          · rw [htotal, Nat.zero_add]
            rfl

/-- The message of a tool with a text and details. -/
def toolResultMessage (text details : JsData) : JsData :=
  .obj [(js "role", .str (js "toolResult")),
    (js "content", .arr [.obj [(js "type", .str (js "text")), (js "text", text)]]),
    (js "details", details)]

/-- The reference to a content of four bytes. -/
def fourByteReference (kind : String) : JsData :=
  .obj [(js "type", .str (js kind)),
    (js "ref", .obj [(js "byteLength", .num (.ofDigits "4" 4 (ascii_of_all (by decide))))])]

/-- The details of a message that are inline. -/
def inlineDetails : JsData :=
  .obj [(js "type", .str (js "inline_json")), (js "value", .bool true)]

/-- A message whose text and details are both external is analyzed as the inline one. -/
theorem logical_bytes_invariant_tool_result :
    analyzeLogicalBytes
        (toolResultMessage (fourByteReference "external_text") (fourByteReference "external_json"))
        .message 100 =
      analyzeLogicalBytes (toolResultMessage (.str (js "done")) inlineDetails) .message 100 ∧
    analyzeLogicalBytes (toolResultMessage (.str (js "done")) inlineDetails) .message 100 =
      .ok 76 := by
  refine ⟨(logical_bytes_invariant .message 100).1 _ _ ?_, by decide +kernel⟩
  have htext : Externalized .textRoot (.str (js "done")) (fourByteReference "external_text") :=
    @Externalized.text (js "done") _ 100 4 (by decide +kernel) (by decide +kernel)
  have hdetails : Externalized .jsonRoot inlineDetails (fourByteReference "external_json") :=
    @Externalized.json _ _ 100 4 (by decide +kernel) (by decide +kernel) (by decide +kernel)
  refine .obj rfl (.cons (.same _ _) (.cons (.arr (.cons (.obj (by decide +kernel)
    (.cons (.same _ _) (.cons ?_ .nil))) .nil)) (.cons ?_ .nil)))
  · exact htext
  · exact hdetails
/-- The message of a command that wrote something, or of one whose output is elsewhere. -/
def bashExecutionMessage (output : JsData) : JsData :=
  .obj [(js "role", .str (js "bashExecution")), (js "output", output)]

/-- The reference to an external text of no bytes. -/
def emptyTextReference : JsData :=
  .obj [(js "type", .str (js "external_text")),
    (js "ref", .obj [(js "byteLength", .num (.ofDigits "0" 0 (ascii_of_all (by decide))))])]

/-- The codec gives an empty text the length zero, and a reference of that length is not counted. -/
theorem not_logical_bytes_invariant_empty :
    prepareBoundedUtf8Encoding (.text []) 100 = some 0 ∧
    analyzeLogicalBytes (bashExecutionMessage (.str [])) .message = .ok 34 ∧
    analyzeLogicalBytes (bashExecutionMessage emptyTextReference) .message =
      .error .invalidValue := by
  decide +kernel

end PiAgentWeb
