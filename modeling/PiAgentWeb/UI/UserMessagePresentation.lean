import PiAgentWeb.Library.JsValue

/-!
# Presentation of user messages

Pi stores an expanded skill invocation, or a raw slash command, as the text of a user message.
The presentation collapses both to the command and its arguments.
-/

namespace PiAgentWeb

/-- The visible parts of a user message. -/
structure PresentedUserMessage where
  text : JsString
  command : Option JsString
  deriving DecidableEq

/-- JavaScript white space and line terminators: the class `\s` and the units `trim` removes. -/
def isJsSpace (u : UInt16) : Bool :=
  [0x09, 0x0A, 0x0B, 0x0C, 0x0D, 0x20, 0xA0, 0x1680, 0x2000, 0x2001, 0x2002, 0x2003, 0x2004,
    0x2005, 0x2006, 0x2007, 0x2008, 0x2009, 0x200A, 0x2028, 0x2029, 0x202F, 0x205F, 0x3000,
    0xFEFF].contains u

/-- `String.prototype.trim`. -/
def jsTrim (s : JsString) : JsString :=
  ((s.dropWhile isJsSpace).reverse.dropWhile isJsSpace).reverse

/-- The rest of a string after a given prefix. -/
def dropPrefixUnits? (lead s : JsString) : Option JsString :=
  if lead.isPrefixOf s then some (s.drop lead.length) else none

/-- The rest of a string after one line terminator `\r?\n`. -/
def dropLineEnd? : JsString → Option JsString
  | 0x0A :: rest => some rest
  | 0x0D :: 0x0A :: rest => some rest
  | _ => none

/-- A nonempty run of units other than the quote and the line terminators, and the rest. -/
def attributeValue? (s : JsString) : Option (JsString × JsString) :=
  let value := s.takeWhile fun u => u != 0x22 && u != 0x0D && u != 0x0A
  if value.isEmpty then none else some (value, s.drop value.length)

/-- The header `<skill name="…" location="…">` with its line end: the skill name and the rest. -/
def matchSkillHeader (s : JsString) : Option (JsString × JsString) := do
  let afterLead ← dropPrefixUnits? (js "<skill name=\"") s
  let (name, afterName) ← attributeValue? afterLead
  let afterMiddle ← dropPrefixUnits? (js "\" location=\"") afterName
  let (_, afterLocation) ← attributeValue? afterMiddle
  let afterHeader ← dropPrefixUnits? (js "\">") afterLocation
  let rest ← dropLineEnd? afterHeader
  return (name, rest)

/-- The part before and the part after the first occurrence of a nonempty token. -/
def splitAtToken? (token : JsString) : JsString → Option (JsString × JsString)
  | [] => none
  | u :: rest =>
    if token.isPrefixOf (u :: rest) then some ([], (u :: rest).drop token.length)
    else (splitAtToken? token rest).map fun parts => (u :: parts.1, parts.2)

/-- `unambiguousSkillArguments`: the arguments after the only closing token, if that token ends
a line and is followed by a blank line. -/
def unambiguousSkillArguments (bodyAndTail : JsString) : JsString :=
  match splitAtToken? (js "</skill>") bodyAndTail with
  | none => []
  | some (body, tail) =>
    if body.getLast? ≠ some 0x0A then []
    else if (splitAtToken? (js "</skill>") tail).isSome then []
    else match (dropLineEnd? tail).bind dropLineEnd? with
      | none => []
      | some arguments => jsTrim arguments

/-- The slash command of a text with its arguments. -/
def matchSlashCommand : JsString → Option (JsString × Option JsString)
  | 0x2F :: rest =>
    let name := rest.takeWhile fun u => !isJsSpace u
    if name.isEmpty then none
    else
      let tail := rest.drop name.length
      some (name, if tail.isEmpty then none else some (tail.dropWhile isJsSpace))
  | _ => none

/-- `presentUserMessage`. -/
def presentUserMessage (rawText : JsString) : PresentedUserMessage :=
  match matchSkillHeader rawText with
  | some (name, rest) =>
    { command := some (js "/skill:" ++ name), text := unambiguousSkillArguments rest }
  | none =>
    match matchSlashCommand rawText with
    | some (name, arguments) =>
      { command := some (js "/" ++ name), text := (arguments.map jsTrim).getD [] }
    | none => { text := rawText, command := none }

/-- `serializePresentedUserMessage`. -/
def serializePresentedUserMessage (message : PresentedUserMessage) : JsString :=
  match message.command with
  | none | some [] => message.text
  | some command =>
    command ++ (if message.text.isEmpty then [] else js " " ++ message.text)

/-- A slash command keeps its name and its trimmed arguments. -/
example : presentUserMessage (js "/fix  the parser ") =
    { text := js "the parser", command := some (js "/fix") } := by decide +kernel

end PiAgentWeb
