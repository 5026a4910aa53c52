import BetterDecision.Model.ProviderBodies
import BetterDecision.Model.Sse

/-!
# A transcript of tool calls

`_to_anthropic_messages` and `to_openai_messages`: the neutral transcript of a conversation as
each provider is sent it.
-/

namespace BetterDecision

/-! ## The neutral transcript -/

inductive MessageRole
  | system
  | user
  | assistant
  | tool
  deriving DecidableEq

structure ToolCall where
  id : PyText
  name : PyText
  arguments : List (Str × JsonValue)

/-- A part of a content that is a list; none of them is about a tool. -/
inductive NeutralPart
  | text (s : PyText)
  | other (value : PyJson)

inductive NeutralContent
  /-- `None`, or no such key. -/
  | missing
  | text (s : PyText)
  | parts (ps : List NeutralPart)

structure NeutralMessage where
  role : MessageRole
  content : NeutralContent := .missing
  /-- Present on a turn of the assistant that was offered tools, called or not. -/
  toolCalls : Option (List ToolCall) := none
  toolCallId : Option PyText := none

/-- `not text.strip()`. -/
def PyText.blank (s : PyText) : Bool := s.all fun c => c.char?.any isSpace

/-- `bool(content)`. -/
def NeutralContent.truth : NeutralContent → Bool
  | .missing => false
  | .text s => s ≠ []
  | .parts ps => !ps.isEmpty

/-- `content or ""`. -/
def NeutralContent.orEmpty (content : NeutralContent) : NeutralContent :=
  if content.truth then content else .text []

/-- `text.strip() if isinstance(text, str) else text`. -/
def NeutralContent.speaks : NeutralContent → Bool
  | .text s => !s.blank
  | content => content.truth

/-! ## Anthropic -/

inductive AnthropicBlock
  | toolResult (toolUseId : Option PyText) (content : NeutralContent)
  | text (s : PyText)
  | toolUse (call : ToolCall)
  /-- A part of a user's content, as it was given. -/
  | given (part : NeutralPart)

inductive AnthropicMessage
  | asIs (m : NeutralMessage)
  /-- A copy without the key `tool_calls`. -/
  | answer (m : NeutralMessage)
  | built (role : MessageRole) (blocks : List AnthropicBlock)

/-- The messages put out, and the content of the last of them while it is open for results. -/
structure AnthropicFold where
  out : List AnthropicMessage := []
  openResults : Option (List AnthropicBlock) := none

def AnthropicFold.messages (st : AnthropicFold) : List AnthropicMessage :=
  match st.openResults with
  | none => st.out
  | some blocks => st.out ++ [.built .user blocks]

/-- The blocks a user's content adds to the results in front of it. -/
def foldedBlocks : NeutralContent → List AnthropicBlock
  | .missing => []
  | .text s => if s.blank then [] else [.text s]
  | .parts ps => ps.map .given

def callBlocks (content : NeutralContent) (calls : List ToolCall) : List AnthropicBlock :=
  (match content with
    | .text s => if s.blank then [] else [.text s]
    | _ => []) ++ calls.map .toolUse

/-- A message that is no result and goes into no results. -/
def plainMessages (m : NeutralMessage) : List AnthropicMessage :=
  match m.role, m.toolCalls with
  | .assistant, some [] => if m.content.speaks then [.answer { m with toolCalls := none }] else []
  | .assistant, some calls => [.built .assistant (callBlocks m.content calls)]
  | _, _ => [.asIs m]

def anthropicStep (st : AnthropicFold) (m : NeutralMessage) : AnthropicFold :=
  match m.role, st.openResults with
  | .tool, openResults =>
    { st with openResults := some (openResults.getD [] ++ [.toolResult m.toolCallId m.content.orEmpty]) }
  | .user, some blocks => { out := st.out ++ [.built .user (blocks ++ foldedBlocks m.content)] }
  | _, _ => { out := st.messages ++ plainMessages m }

/-- `_to_anthropic_messages`. -/
def toAnthropicMessages (messages : List NeutralMessage) : List AnthropicMessage :=
  (messages.foldl anthropicStep {}).messages

/-! ## OpenAI -/

/-- `json.dumps` with its separators. -/
def spaced : Json.Format JsonNumber where
  number := Subtype.val
  escape := Json.escapeAscii
  itemSep := [',', ' ']
  keySep := [':', ' ']

section Numbers

-- the integer or the float of a number's text
variable (number : JsonNumber → PyJson)

mutual

/-- The value that `json.loads` makes of a JSON value. -/
def PyJson.ofJson : JsonValue → PyJson
  | .null => .none
  | .bool b => .bool b
  | .num n => number n
  | .str s => .str (pyText s)
  | .arr rows => .list (PyJson.ofRows rows)
  | .obj fields => .dict (PyJson.ofFields fields)

def PyJson.ofRows : List JsonValue → List PyJson
  | [] => []
  | row :: rows => PyJson.ofJson row :: PyJson.ofRows rows

def PyJson.ofFields : List (Str × JsonValue) → List (PyText × PyJson)
  | [] => []
  | (key, v) :: fields => (pyText key, PyJson.ofJson v) :: PyJson.ofFields fields

end

/-- `json.loads` of a text. -/
def loadsJson (text : PyText) : Py PyJson :=
  match (PyText.chars text).bind (Json.parse Json.readText) with
  | some v => .ok (PyJson.ofJson number v)
  | none => .error .value

/-- The runtime that reads texts so. -/
def PyRuntime.reading (rt : PyRuntime) : PyRuntime where
  loads := rt.loads
  loads_raises := rt.loads_raises
  loadsText := loadsJson number
  loadsText_raises text e h := by
    rw [loadsJson] at h
    split at h
    · cases h
    · cases h
      exact .inl rfl
  strOf := rt.strOf
  strOf_raises := rt.strOf_raises
  uuidHex := rt.uuidHex
  uuidHex_length := rt.uuidHex_length
  uuidHex_digits := rt.uuidHex_digits

/-- The call with its arguments as Python has them. -/
def ToolCall.neutral (call : ToolCall) : NeutralCall where
  id := call.id
  name := call.name
  arguments := PyJson.ofFields number call.arguments

end Numbers

def MessageRole.json : MessageRole → PyJson
  | .system => .str (pyText ['s', 'y', 's', 't', 'e', 'm'])
  | .user => .str (pyText ['u', 's', 'e', 'r'])
  | .assistant => .str (pyText ['a', 's', 's', 'i', 's', 't', 'a', 'n', 't'])
  | .tool => .str (pyText ['t', 'o', 'o', 'l'])

def NeutralPart.json : NeutralPart → PyJson
  | .text s => .dict [(typeName, .str textName), (textName, .str s)]
  | .other value => value

/-- `content or None`. -/
def NeutralContent.orNone : NeutralContent → PyJson
  | .missing => .none
  | .text s => if s = [] then .none else .str s
  | .parts ps => if ps = [] then .none else .list (ps.map NeutralPart.json)

def openaiCall (call : ToolCall) : PyJson :=
  .dict [(pyText ['i', 'd'], .str call.id),
    (typeName, .str (pyText ['f', 'u', 'n', 'c', 't', 'i', 'o', 'n'])),
    (pyText ['f', 'u', 'n', 'c', 't', 'i', 'o', 'n'],
      .dict [(pyText ['n', 'a', 'm', 'e'], .str call.name),
        (pyText ['a', 'r', 'g', 'u', 'm', 'e', 'n', 't', 's'],
          .str (pyText (Json.dumps spaced (.obj call.arguments))))])]

inductive OpenaiMessage
  | asIs (m : NeutralMessage)
  /-- Without the key `tool_calls`, and with a content. -/
  | answer (m : NeutralMessage)
  | turn (message : PyJson)

def openaiMessage (m : NeutralMessage) : OpenaiMessage :=
  match m.role, m.toolCalls with
  | .assistant, some [] => .answer { m with toolCalls := none, content := m.content.orEmpty }
  | .assistant, some calls =>
    .turn (.dict [(pyText ['r', 'o', 'l', 'e'], m.role.json),
      (pyText ['c', 'o', 'n', 't', 'e', 'n', 't'], m.content.orNone),
      (pyText ['t', 'o', 'o', 'l', '_', 'c', 'a', 'l', 'l', 's'], .list (calls.map openaiCall))])
  | _, _ => .asIs m

/-- `to_openai_messages`. -/
def toOpenaiMessages (messages : List NeutralMessage) : List OpenaiMessage := messages.map openaiMessage

end BetterDecision
