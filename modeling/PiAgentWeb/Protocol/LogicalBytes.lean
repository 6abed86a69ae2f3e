import PiAgentWeb.Library.JsData

/-!
# Logical bytes

`logical-bytes.ts`: the size of a payload as JSON, where a text root counts its raw text, a JSON
root counts the value inside it, and a content reference counts the length it names. A schema tells
the traversal where the roots are.
-/

namespace PiAgentWeb

/-- `Schema`: what the traversal expects. -/
inductive LogicalSchema where
  | ordinary | textRoot | jsonRoot | message | messages | reviewedBlocks | reviewedBlock
  | assistantBlocks | assistantBlock | toolCall | entry | entries | tree | treeNode | event
  | extensionRequest | extensionRequests | streamEvent | response | responseMessagesData
  | responseEntriesData | responseTreeData | projection | projectionEvents | replay | snapshot
  | responseFrame | ws
  deriving DecidableEq

/-- `SessionLogicalBytesErrorCode`. -/
inductive SessionLogicalBytesErrorCode where
  | invalidLimit
  | invalidValue
  | limitExceeded
  deriving DecidableEq

/-- A step of the counter: from the bytes counted so far to the bytes counted then. -/
abbrev LogicalCount := ℕ → Except SessionLogicalBytesErrorCode ℕ

namespace LogicalByteCounter

/-- `LogicalByteCounter.add`. -/
def add (limit amount : ℕ) : LogicalCount := fun bytes =>
  if limit < bytes + amount then .error .limitExceeded else .ok (bytes + amount)

/-- The value is not counted at all. -/
def invalid : LogicalCount := fun _ => .error .invalidValue

/-- One count after another. -/
def andThen (first second : LogicalCount) : LogicalCount := fun bytes => first bytes >>= second

end LogicalByteCounter

open LogicalByteCounter

/-- `countRawUtf8`. -/
def countRawUtf8 (limit : ℕ) : JsString → LogicalCount
  | [] => add limit 0
  | [u] => add limit (if u ≤ 0x7F then 1 else if u ≤ 0x7FF then 2 else 3)
  | u :: v :: rest =>
    if u ≤ 0x7F then andThen (add limit 1) (countRawUtf8 limit (v :: rest))
    else if u ≤ 0x7FF then andThen (add limit 2) (countRawUtf8 limit (v :: rest))
    else if isHighSurrogate u && isLowSurrogate v then
      andThen (add limit 4) (countRawUtf8 limit rest)
    else andThen (add limit 3) (countRawUtf8 limit (v :: rest))

/-- The loop of `countJsonString`. -/
def countJsonUnits (limit : ℕ) : JsString → LogicalCount
  | [] => add limit 0
  | [u] => add limit (Json.unitBytes u)
  | u :: v :: rest =>
    if isHighSurrogate u && isLowSurrogate v then
      andThen (add limit 4) (countJsonUnits limit rest)
    else andThen (add limit (Json.unitBytes u)) (countJsonUnits limit (v :: rest))

/-- `countJsonString`. -/
def countJsonString (limit : ℕ) (value : JsString) : LogicalCount :=
  andThen (add limit 2) (countJsonUnits limit value)

/-- The length that a content reference of a kind names, when the counter accepts it. -/
def contentReferenceBytes (kind : String) : JsData → Option ℕ
  | .obj fields =>
    if (JsData.get fields "type").isString kind then
      match JsData.get fields "ref" with
      | .obj ref =>
        match JsData.get ref "byteLength" with
        | .num number => number.safeNat.filter (0 < ·)
        | _ => none
      | _ => none
    else none
  | _ => none

/-- What a content reference counts. -/
def countContentReference (limit : ℕ) (kind : String) (value : JsData) : LogicalCount :=
  (contentReferenceBytes kind value).elim invalid (add limit)

/-- `countTextRoot`. -/
def countTextRoot (limit : ℕ) : JsData → LogicalCount
  | .str value => countRawUtf8 limit value
  | value => countContentReference limit "external_text" value

/-- `arrayItemSchema`. -/
def arrayItemSchema : LogicalSchema → LogicalSchema
  | .messages => .message
  | .reviewedBlocks => .reviewedBlock
  | .assistantBlocks => .assistantBlock
  | .entries => .entry
  | .tree => .treeNode
  | .projectionEvents => .projection
  | .extensionRequests => .extensionRequest
  | _ => .ordinary

/-- The name of a member is this one. -/
def isKey (key : JsString) (name : String) : Bool := key == js name

/-- `objectChildSchema` of a snapshot. -/
def snapshotChildSchema (key : JsString) : LogicalSchema :=
  if isKey key "settledMessages" then .messages
  else if isKey key "projectionEvents" then .projectionEvents
  else if isKey key "pendingExtensionRequests" || isKey key "stickyExtensionState" then
    .extensionRequests
  else .ordinary

/-- `objectChildSchema`. -/
def objectChildSchema (schema : LogicalSchema) (value : List (JsString × JsData)) (key : JsString) :
    LogicalSchema :=
  let is (name literal : String) : Bool := (JsData.get value name).isString literal
  let contentIsArray : Bool := (JsData.get value "content").isArray
  match schema with
  | .message =>
    if is "role" "assistant" then
      if isKey key "content" then .assistantBlocks else .ordinary
    else if is "role" "toolResult" then
      if isKey key "content" then .reviewedBlocks
      else if isKey key "details" then .jsonRoot else .ordinary
    else if is "role" "custom" then
      if isKey key "content" && contentIsArray then .reviewedBlocks
      else if isKey key "details" then .jsonRoot else .ordinary
    else if is "role" "bashExecution" then
      if isKey key "output" then .textRoot else .ordinary
    else .ordinary
  | .assistantBlock =>
    if is "type" "toolCall" && isKey key "arguments" then .jsonRoot else .ordinary
  | .toolCall => if isKey key "arguments" then .jsonRoot else .ordinary
  | .entry =>
    if is "type" "message" && isKey key "message" then .message
    else if is "type" "custom_message" then
      if isKey key "content" && contentIsArray then .reviewedBlocks
      else if isKey key "details" then .jsonRoot else .ordinary
    else .ordinary
  | .treeNode =>
    if isKey key "entry" then .entry else if isKey key "children" then .tree else .ordinary
  | .event =>
    if is "type" "agent_end" then
      if isKey key "messages" then .messages else .ordinary
    else if is "type" "turn_end" then
      if isKey key "message" then .message
      else if isKey key "toolResults" then .messages else .ordinary
    else if is "type" "message_start" || is "type" "message_end" then
      if isKey key "message" then .message else .ordinary
    else if is "type" "entry_appended" then
      if isKey key "entry" then .entry else .ordinary
    else if is "type" "message_update" then
      if isKey key "assistantMessageEvent" then .streamEvent else .ordinary
    else if is "type" "tool_execution_start" then
      if isKey key "args" then .jsonRoot else .ordinary
    else if is "type" "tool_execution_update" then
      if isKey key "args" || isKey key "partialResult" then .jsonRoot else .ordinary
    else if is "type" "tool_execution_end" then
      if isKey key "result" then .jsonRoot else .ordinary
    else .ordinary
  | .extensionRequest =>
    if is "method" "editor" then
      if isKey key "prefill" then .textRoot else .ordinary
    else if is "method" "set_editor_text" then
      if isKey key "text" then .textRoot else .ordinary
    else if is "method" "setWidget" then
      if isKey key "widgetLines" then .jsonRoot else .ordinary
    else .ordinary
  | .streamEvent =>
    if is "type" "toolcall_end" && isKey key "toolCall" then .toolCall else .ordinary
  | .response =>
    if !isKey key "data" then .ordinary
    else if is "command" "get_messages" then .responseMessagesData
    else if is "command" "get_entries" then .responseEntriesData
    else if is "command" "get_tree" then .responseTreeData
    else .ordinary
  | .responseMessagesData => if isKey key "messages" then .messages else .ordinary
  | .responseEntriesData => if isKey key "entries" then .entries else .ordinary
  | .responseTreeData => if isKey key "tree" then .tree else .ordinary
  | .projection | .replay =>
    if is "type" "event" && isKey key "event" then .event
    else if is "type" "extension_ui_request" && isKey key "request" then .extensionRequest
    else .ordinary
  | .snapshot => snapshotChildSchema key
  | .responseFrame => if isKey key "response" then .response else .ordinary
  | .ws =>
    if is "type" "event" && isKey key "event" then .event
    else if is "type" "extension_ui_request" && isKey key "request" then .extensionRequest
    else if is "type" "extension_ui_snapshot" && isKey key "requests" then .extensionRequests
    else if is "type" "response" && isKey key "response" then .response
    else if is "type" "session_snapshot" then snapshotChildSchema key
    else .ordinary
  | .reviewedBlock => if is "type" "text" && isKey key "text" then .textRoot else .ordinary
  | _ => .ordinary

/-- The schema of a root: what is counted there is not JSON of its own. -/
def LogicalSchema.isRoot : LogicalSchema → Bool
  | .textRoot | .jsonRoot => true
  | _ => false

/-- An inline JSON root. -/
def isInlineJson (fields : List (JsString × JsData)) : Bool :=
  (JsData.get fields "type").isString "inline_json" && JsData.hasOwn fields "value"

/-- `countCanonical` of a number. -/
def countNumber (limit : ℕ) (value : JsNumber) : LogicalCount :=
  if value.isFinite && value.isSafe then add limit value.literal.length else invalid

mutual

/-- `countCanonical`. The roots are `countTextRoot` and `countJsonRoot`. -/
def countCanonical (limit : ℕ) (schema : LogicalSchema) : JsData → LogicalCount
  | .undefined => invalid
  | .null => if schema.isRoot then invalid else add limit 4
  | .bool value => if schema.isRoot then invalid else add limit (if value then 4 else 5)
  | .num value => if schema.isRoot then invalid else countNumber limit value
  | .str value =>
    if schema = .textRoot then countTextRoot limit (.str value)
    else if schema = .jsonRoot then invalid
    else countJsonString limit value
  | .arr items =>
    if schema.isRoot then invalid
    else
      andThen (add limit 1)
        (andThen (countItems limit (arrayItemSchema schema) 0 items) (add limit 1))
  | .obj fields =>
    if schema = .textRoot then countTextRoot limit (.obj fields)
    else if schema = .jsonRoot then
      if isInlineJson fields then countInlineValue limit fields
      else countContentReference limit "external_json" (.obj fields)
    else
      andThen (add limit 1) (andThen (countFields limit schema fields 0 fields) (add limit 1))

/-- The loop over the elements of an array, from an index on. -/
def countItems (limit : ℕ) (schema : LogicalSchema) (index : ℕ) : List JsData → LogicalCount
  | [] => add limit 0
  | item :: rest =>
    andThen (add limit (if 0 < index then 1 else 0))
      (andThen (countCanonical limit schema item) (countItems limit schema (index + 1) rest))

/-- The loop over the members of an object, after some that were included. -/
def countFields (limit : ℕ) (schema : LogicalSchema) (record : List (JsString × JsData))
    (included : ℕ) : List (JsString × JsData) → LogicalCount
  | [] => add limit 0
  | (key, child) :: rest =>
    if child.isUndefined then countFields limit schema record included rest
    else
      andThen (add limit (if 0 < included then 1 else 0))
        (andThen (countJsonString limit key)
          (andThen (add limit 1)
            (andThen (countCanonical limit (objectChildSchema schema record key) child)
              (countFields limit schema record (included + 1) rest))))

/-- `countCanonical(value.value, "ordinary")`, of the first member of that name. -/
def countInlineValue (limit : ℕ) : List (JsString × JsData) → LogicalCount
  | [] => invalid
  | (key, child) :: rest =>
    if key == js "value" then countCanonical limit .ordinary child else countInlineValue limit rest

end

/-- `MAX_ANALYZED_BYTES`. -/
def MAX_ANALYZED_BYTES : ℕ := 2 ^ 53 - 2

/-- `analyze`. -/
def analyzeLogicalBytes (value : JsData) (schema : LogicalSchema)
    (maxBytes : ℕ := MAX_ANALYZED_BYTES) : Except SessionLogicalBytesErrorCode ℕ :=
  if maxBytes = 0 ∨ MAX_ANALYZED_BYTES < maxBytes then .error .invalidLimit
  else
    match countCanonical maxBytes schema value 0 with
    | .error code => .error code
    | .ok bytes => if bytes = 0 then .error .invalidValue else .ok bytes

/-! ## What the counter adds up to -/

namespace LogicalByteCounter

variable {limit : ℕ}

theorem add_add (a b : ℕ) : andThen (add limit a) (add limit b) = add limit (a + b) := by
  funext bytes
  unfold andThen add
  split
  · rw [if_pos (by omega)]
    rfl
  · change (if limit < bytes + a + b then _ else _) = _
    rw [Nat.add_assoc]

theorem add_eq_ok {a bytes total : ℕ} (h : add limit a bytes = .ok total) : total = bytes + a := by
  unfold add at h
  split at h
  · cases h
  · exact (Except.ok.inj h).symm

theorem andThen_eq_ok {first second : LogicalCount} {bytes total : ℕ}
    (h : andThen first second bytes = .ok total) :
    ∃ middle, first bytes = .ok middle ∧ second middle = .ok total := by
  unfold andThen at h
  cases hfirst : first bytes with
  | error code =>
    rw [hfirst] at h
    cases h
  | ok middle =>
    rw [hfirst] at h
    exact ⟨middle, rfl, h⟩

end LogicalByteCounter

theorem utf8UnitLength_eq (u : UInt16) :
    utf8UnitLength u = if u ≤ 0x7F then 1 else if u ≤ 0x7FF then 2 else 3 := by
  have h80 : (0x80 : UInt16).toNat = 128 := rfl
  have h7f : (0x7F : UInt16).toNat = 127 := rfl
  have h800 : (0x800 : UInt16).toNat = 2048 := rfl
  have h7ff : (0x7FF : UInt16).toNat = 2047 := rfl
  have hone : u < 0x80 ↔ u ≤ 0x7F := by
    rw [UInt16.lt_iff_toNat_lt, UInt16.le_iff_toNat_le]
    omega
  have htwo : u < 0x800 ↔ u ≤ 0x7FF := by
    rw [UInt16.lt_iff_toNat_lt, UInt16.le_iff_toNat_le]
    omega
  simp only [utf8UnitLength, hone, htwo]

theorem not_high_of_le {u : UInt16} (h : u ≤ 0x7FF) : isHighSurrogate u = false := by
  have h7ff : (0x7FF : UInt16).toNat = 2047 := rfl
  have hhigh : (0xD800 : UInt16).toNat = 55296 := rfl
  simp only [isHighSurrogate, Bool.and_eq_false_iff, decide_eq_false_iff_not,
    UInt16.le_iff_toNat_le] at h ⊢
  left
  omega

theorem countRawUtf8_eq (limit : ℕ) (s : JsString) :
    countRawUtf8 limit s = add limit (utf8ByteLength s) := by
  fun_induction countRawUtf8 limit s with
  | case1 => rfl
  | case2 u => rw [utf8ByteLength, utf8UnitLength_eq]
  | case3 u v rest hone ih =>
    have hhigh : isHighSurrogate u = false :=
      not_high_of_le (UInt16.le_trans hone (by decide))
    rw [ih, add_add, utf8ByteLength_cons hhigh, utf8UnitLength_eq, if_pos hone]
  | case4 u v rest hone htwo ih =>
    rw [ih, add_add, utf8ByteLength_cons (not_high_of_le htwo), utf8UnitLength_eq, if_neg hone,
      if_pos htwo]
  | case5 u v rest hone htwo hpair ih => rw [ih, add_add, utf8ByteLength, if_pos hpair]
  | case6 u v rest hone htwo hpair ih =>
    rw [ih, add_add, utf8ByteLength, if_neg hpair, utf8UnitLength_eq, if_neg hone, if_neg htwo]

theorem countJsonUnits_eq (limit : ℕ) (s : JsString) :
    countJsonUnits limit s = add limit (Json.bodyBytes s) := by
  fun_induction countJsonUnits limit s with
  | case1 => rfl
  | case2 u => rfl
  | case3 u v rest hpair ih => rw [ih, add_add, Json.bodyBytes, if_pos hpair]
  | case4 u v rest hpair ih => rw [ih, add_add, Json.bodyBytes, if_neg hpair]

theorem countJsonString_eq (limit : ℕ) (s : JsString) :
    countJsonString limit s = add limit (utf8ByteLength (Json.quote s)) := by
  rw [countJsonString, countJsonUnits_eq, add_add, Json.utf8ByteLength_quote, Nat.add_comm]

/-! ## Values without special roots -/

mutual

/-- The traversal of a value meets no root. -/
def rootFree (schema : LogicalSchema) : JsData → Bool
  | .arr items => !schema.isRoot && rootFreeItems (arrayItemSchema schema) items
  | .obj fields => !schema.isRoot && rootFreeFields schema fields fields
  | _ => !schema.isRoot

/-- No element of an array has a root. -/
def rootFreeItems (schema : LogicalSchema) : List JsData → Bool
  | [] => true
  | item :: rest => rootFree schema item && rootFreeItems schema rest

/-- No member of an object has a root. -/
def rootFreeFields (schema : LogicalSchema) (record : List (JsString × JsData)) :
    List (JsString × JsData) → Bool
  | [] => true
  | (key, child) :: rest =>
    (child.isUndefined || rootFree (objectChildSchema schema record key) child) &&
      rootFreeFields schema record rest

end

theorem LogicalSchema.isRoot_eq_false {schema : LogicalSchema} :
    schema.isRoot = false ↔ schema ≠ .textRoot ∧ schema ≠ .jsonRoot := by
  cases schema <;> simp [LogicalSchema.isRoot]

/-- The size of a list of elements with their commas, from an index on. -/
def itemsBytes (index : ℕ) (items : List Json) : ℕ :=
  (items.map Json.byteLength).sum + (if 0 < index then items.length else items.length - 1)

/-- The size of a list of members with their commas, after some that were included. -/
def membersBytes (included : ℕ) (fields : List (JsString × Json)) : ℕ :=
  (fields.map fun entry => utf8ByteLength (Json.quote entry.1) + 1 + Json.byteLength entry.2).sum +
    (if 0 < included then fields.length else fields.length - 1)

theorem itemsBytes_cons (index : ℕ) (item : Json) (rest : List Json) :
    itemsBytes index (item :: rest) =
      (if 0 < index then 1 else 0) + Json.byteLength item + itemsBytes (index + 1) rest := by
  unfold itemsBytes
  rw [if_pos (Nat.succ_pos index), List.map_cons, List.sum_cons, List.length_cons]
  split <;> omega

theorem membersBytes_cons (included : ℕ) (entry : JsString × Json) (rest : List (JsString × Json)) :
    membersBytes included (entry :: rest) =
      (if 0 < included then 1 else 0) + (utf8ByteLength (Json.quote entry.1) + 1 +
        Json.byteLength entry.2) + membersBytes (included + 1) rest := by
  unfold membersBytes
  rw [if_pos (Nat.succ_pos included), List.map_cons, List.sum_cons, List.length_cons]
  split <;> omega

mutual

theorem countCanonical_rootFree {limit : ℕ} {schema : LogicalSchema} {bytes total : ℕ} :
    ∀ value : JsData, rootFree schema value = true →
      countCanonical limit schema value bytes = .ok total →
      total = bytes + Json.byteLength value.toJson
  | .undefined, _, hcount => nomatch hcount
  | .null, hfree, hcount => by
    simp only [rootFree, Bool.not_eq_true'] at hfree
    rw [countCanonical, hfree] at hcount
    exact add_eq_ok hcount
  | .bool value, hfree, hcount => by
    simp only [rootFree, Bool.not_eq_true'] at hfree
    rw [countCanonical, hfree] at hcount
    rw [add_eq_ok hcount]
    cases value <;> rfl
  | .num value, hfree, hcount => by
    simp only [rootFree, Bool.not_eq_true'] at hfree
    rw [countCanonical, hfree, if_neg (by decide), countNumber] at hcount
    split at hcount
    · rename_i hsafe
      rw [add_eq_ok hcount, JsData.toJson, if_pos (Bool.and_eq_true_iff.mp hsafe).1]
      exact congrArg _ (utf8ByteLength_ascii value.ascii).symm
    · cases hcount
  | .str value, hfree, hcount => by
    simp only [rootFree, Bool.not_eq_true', LogicalSchema.isRoot_eq_false] at hfree
    rw [countCanonical, if_neg hfree.1, if_neg hfree.2, countJsonString_eq] at hcount
    rw [add_eq_ok hcount]
    rfl
  | .arr items, hfree, hcount => by
    rw [rootFree, Bool.and_eq_true, Bool.not_eq_true'] at hfree
    rw [countCanonical, hfree.1, if_neg (by decide)] at hcount
    obtain ⟨opened, hopen, hcount⟩ := andThen_eq_ok hcount
    obtain ⟨counted, hitems, hclose⟩ := andThen_eq_ok hcount
    have hcounted := countItems_rootFree items hfree.2 hitems
    rw [add_eq_ok hclose, hcounted, add_eq_ok hopen, JsData.toJson, Json.byteLength_arr]
    unfold itemsBytes
    rw [if_neg (by decide)]
    omega
  | .obj fields, hfree, hcount => by
    rw [rootFree, Bool.and_eq_true, Bool.not_eq_true', LogicalSchema.isRoot_eq_false] at hfree
    rw [countCanonical, if_neg hfree.1.1, if_neg hfree.1.2] at hcount
    obtain ⟨opened, hopen, hcount⟩ := andThen_eq_ok hcount
    obtain ⟨counted, hfields, hclose⟩ := andThen_eq_ok hcount
    have hcounted := countFields_rootFree fields hfree.2 hfields
    rw [add_eq_ok hclose, hcounted, add_eq_ok hopen, JsData.toJson, Json.byteLength_obj]
    unfold membersBytes
    rw [if_neg (by decide)]
    omega

theorem countItems_rootFree {limit : ℕ} {schema : LogicalSchema} {index bytes total : ℕ} :
    ∀ items : List JsData, rootFreeItems schema items = true →
      countItems limit schema index items bytes = .ok total →
      total = bytes + itemsBytes index (JsData.toJsonItems items)
  | [], _, hcount => by
    rw [add_eq_ok hcount, JsData.toJsonItems, itemsBytes]
    split <;> rfl
  | item :: rest, hfree, hcount => by
    rw [rootFreeItems, Bool.and_eq_true] at hfree
    obtain ⟨separated, hcomma, hcount⟩ := andThen_eq_ok hcount
    obtain ⟨counted, hitem, hrest⟩ := andThen_eq_ok hcount
    have hcounted := countCanonical_rootFree item hfree.1 hitem
    rw [countItems_rootFree rest hfree.2 hrest, hcounted, add_eq_ok hcomma, JsData.toJsonItems,
      itemsBytes_cons]
    omega

theorem countFields_rootFree {limit : ℕ} {schema : LogicalSchema}
    {record : List (JsString × JsData)} {included bytes total : ℕ} :
    ∀ fields : List (JsString × JsData), rootFreeFields schema record fields = true →
      countFields limit schema record included fields bytes = .ok total →
      total = bytes + membersBytes included (JsData.toJsonFields fields)
  | [], _, hcount => by
    rw [add_eq_ok hcount, JsData.toJsonFields, membersBytes]
    split <;> rfl
  | (key, child) :: rest, hfree, hcount => by
    rw [rootFreeFields, Bool.and_eq_true, Bool.or_eq_true] at hfree
    rw [countFields] at hcount
    rw [JsData.toJsonFields]
    split at hcount
    · rename_i hundefined
      rw [if_pos hundefined]
      exact countFields_rootFree rest hfree.2 hcount
    · rename_i hdefined
      rw [if_neg hdefined]
      obtain ⟨separated, hcomma, hcount⟩ := andThen_eq_ok hcount
      obtain ⟨named, hkey, hcount⟩ := andThen_eq_ok hcount
      obtain ⟨coloned, hcolon, hcount⟩ := andThen_eq_ok hcount
      obtain ⟨counted, hchild, hrest⟩ := andThen_eq_ok hcount
      rw [countJsonString_eq] at hkey
      have hcounted := countCanonical_rootFree child (hfree.1.resolve_left hdefined) hchild
      rw [countFields_rootFree rest hfree.2 hrest, hcounted, add_eq_ok hcolon, add_eq_ok hkey,
        add_eq_ok hcomma, membersBytes_cons]
      dsimp only
      omega

end

end PiAgentWeb
