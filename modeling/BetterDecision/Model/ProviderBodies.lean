import BetterDecision.Lib.Runs
import BetterDecision.Model.LoanForecast
import BetterDecision.Model.PyValues

/-!
# What a provider answers

The decoding halves of `services/ai_providers`: from the bytes of a 200 body to a response, or
to the one exception its callers know. A body may be any JSON value, so every index, `get`,
conversion and loop says which exception it raises on the types it does not take.
-/

namespace BetterDecision

/-! ## Exceptions -/

inductive Exn
  | key
  | index
  | type
  | value
  | attribute
  | overflow
  | recursion
  /-- `decimal.InvalidOperation`. -/
  | invalidOperation
  /-- `AIProviderError`, by its code. -/
  | provider (code : String)
  deriving DecidableEq

abbrev Py (α : Type) := Except Exn α

/-- `UNEXPECTED_SHAPE_ERRORS`. -/
def unexpectedShapeErrors : List Exn := [.key, .index, .type, .value, .attribute, .overflow, .recursion]

/-- `try: … except errors: …`. -/
def exceptFor {α : Type} (errors : List Exn) (handler : Py α) (body : Py α) : Py α :=
  match body with
  | .error e => if e ∈ errors then handler else .error e
  | .ok a => .ok a

def unexpectedShape {α : Type} (body : Py α) : Py α :=
  exceptFor unexpectedShapeErrors (.error (.provider "provider_unexpected_shape")) body

/-! ## Access to a value of any type -/

namespace PyJson

/-- `value[name]`. -/
def subscript (name : PyText) : PyJson → Py PyJson
  | .dict fields => found (fields.lookup name) .key
  | _ => .error .type

/-- `value[0]`. -/
def first : PyJson → Py PyJson
  | .list rows => found rows.head? .index
  | .str text => found (text.head?.map fun c => .str [c]) .index
  | .dict _ => .error .key
  | _ => .error .type

/-- `value.get(name)`. -/
def attrGet (name : PyText) : PyJson → Py PyJson
  | .dict fields => .ok (get fields name)
  | _ => .error .attribute

/-- `value or {}`. -/
def orDict (v : PyJson) : PyJson := if v.truth then v else .dict []

/-- `for row in value or []`. -/
def rowsOrRaise (v : PyJson) : Py (List PyJson) :=
  match v.rowsOf with
  | .ok rows => .ok rows
  | .error _ => .error .type

end PyJson

/-! ## What the interpreter does -/

/-- Built-ins that are left open, with the exceptions they raise. -/
structure PyRuntime where
  /-- `json.loads` of bytes; an undecodable body is a `ValueError` too. -/
  loads : List UInt8 → Py PyJson
  loads_raises : ∀ body e, loads body = .error e → e = .value ∨ e = .recursion
  /-- `json.loads` of a text. -/
  loadsText : PyText → Py PyJson
  loadsText_raises : ∀ text e, loadsText text = .error e → e = .value ∨ e = .recursion
  /-- `str` of what is no text: an integer may have too many digits, and lists may be nested deeply. -/
  strOf : PyJson → Py PyText
  strOf_raises : ∀ v e, strOf v = .error e → e = .value ∨ e = .recursion
  /-- `uuid.uuid4().hex`, when these ids have been given. -/
  uuidHex : List PyText → List Char
  uuidHex_length : ∀ seen, (uuidHex seen).length = 32
  uuidHex_digits : ∀ seen, ∀ c ∈ uuidHex seen,
    c ∈ ['0', '1', '2', '3', '4', '5', '6', '7', '8', '9', 'a', 'b', 'c', 'd', 'e', 'f']

variable (rt : PyRuntime)

/-- `str(value)`. -/
def PyRuntime.str : PyJson → Py PyText
  | .str text => .ok text
  | v => rt.strOf v

/-- `str(value or "")`. -/
def PyRuntime.strOrEmpty (v : PyJson) : Py PyText := if v.truth then rt.str v else .ok []

/-- `CappedResponse.json`. -/
def PyRuntime.responseJson (body : List UInt8) : Py PyJson :=
  exceptFor [.recursion] (.error .value) (rt.loads body)

/-! ## Counts and costs -/

def maxTokenCount : Int := 1000000000

def tokenCount : PyJson → Py Int
  | .none => .ok 0
  | .int n => if maxTokenCount < n then .error .value else .ok (max 0 n)
  | .float (.finite x) =>
    if x.den ≠ 1 then .error .value
    else if maxTokenCount < x.num then .error .value
    else .ok (max 0 x.num)
  | .float _ => .error .value
  | _ => .error .type

/-- `usage_of`: the fields of the usage object. -/
def usageOf : PyJson → Py (List (PyText × PyJson))
  | .dict fields =>
    match PyJson.get fields (pyText ['u', 's', 'a', 'g', 'e']) with
    | .none => .ok []
    | .dict usage => .ok usage
    | _ => .error .type
  | _ => .error .type

def costCapUsd : ℚ := 10000

/-- `usd_to_micros`. -/
def usdToMicros (v : PyJson) : Py (Option Int) := do
  let text ← rt.str v
  let amount ← exceptFor [.invalidOperation] (.ok none)
    ((found ((PyText.chars text).bind decimalOf) .invalidOperation).map some)
  match amount.bind Decimal.toRat with
  | none => .ok none
  | some usd =>
    if usd < 0 ∨ costCapUsd < usd then .ok none
    else .ok (some (halfEven (decimalContext (usd * 1000000))))

def openrouterBaseUrl : String := "https://openrouter.ai/api/v1"

/-- `OpenAICompatibleAdapter._cost_micros`. -/
def costMicros (apiRoot : String) (usage : List (PyText × PyJson)) : Py (Option Int) :=
  if apiRoot ≠ openrouterBaseUrl then .ok none
  else if (PyJson.get usage (pyText ['i', 's', '_', 'b', 'y', 'o', 'k'])).truth then .ok none
  else usdToMicros rt (PyJson.get usage (pyText ['c', 'o', 's', 't']))

/-! ## Texts and models -/

def textOrEmpty : PyJson → Py PyText
  | .none => .ok []
  | .str text => .ok text
  | _ => .error .type

def modelNameMaxLength : Nat := 120

/-- `response_model`, whose payload is taken for an object. -/
def responseModel (payload : PyJson) (requested : PyText) : Py PyText := do
  match ← payload.attrGet (pyText ['m', 'o', 'd', 'e', 'l']) with
  | .str echoed => .ok (if 0 < echoed.length ∧ echoed.length ≤ modelNameMaxLength then echoed else requested)
  | _ => .ok requested

def firstMessage (payload : PyJson) : Py PyJson := do
  let choices ← payload.subscript (pyText ['c', 'h', 'o', 'i', 'c', 'e', 's'])
  let choice ← choices.first
  choice.subscript (pyText ['m', 'e', 's', 's', 'a', 'g', 'e'])

def openaiMessageContent (payload : PyJson) : Py PyText := do
  let message ← firstMessage payload
  textOrEmpty (← message.subscript (pyText ['c', 'o', 'n', 't', 'e', 'n', 't']))

/-! ## Embeddings -/

/-- A number of an embedding: `math.isfinite` and `float`. -/
def embeddingNumber : PyJson → Py PyFloat
  | .int n => if doubleLimit ≤ |(n : ℚ)| then .error .overflow else .ok (.finite (roundDouble n))
  | .float (.finite x) => .ok (.finite x)
  | .float _ => .error .value
  | _ => .error .type

/-- `value or []`, which must be a list. -/
def listOrEmpty (v : PyJson) : Py (List PyJson) :=
  if v.truth then
    match v with
    | .list rows => .ok rows
    | _ => .error .type
  else .ok []

def embeddingVector (row : List (PyText × PyJson)) : Py (List PyFloat) := do
  let embedding ← listOrEmpty (PyJson.get row (pyText ['e', 'm', 'b', 'e', 'd', 'd', 'i', 'n', 'g']))
  embedding.mapM embeddingNumber

def PyJson.fields? : PyJson → Option (List (PyText × PyJson))
  | .dict fields => some fields
  | _ => Option.none

def embeddingVectors : PyJson → Py (List (List PyFloat))
  | .dict fields => do
    let data ← listOrEmpty (PyJson.get fields (pyText ['d', 'a', 't', 'a']))
    (data.filterMap PyJson.fields?).mapM embeddingVector
  | _ => .error .type

/-! ## Tool calls -/

structure NeutralCall where
  id : PyText
  name : PyText
  arguments : List (PyText × PyJson)

/-- `[\x21-\x7e]`. -/
def PyChar.printable : PyChar → Bool
  | .char c => 0x21 ≤ c.toNat ∧ c.toNat ≤ 0x7e
  | .lone _ => false

/-- `_SAFE_TOOL_CALL_ID`. -/
def safeToolCallId (id : PyText) : Prop := 1 ≤ id.length ∧ id.length ≤ 64 ∧ ∀ c ∈ id, c.printable = true

instance (id : PyText) : Decidable (safeToolCallId id) := inferInstanceAs (Decidable (_ ∧ _ ∧ _))

def synthesizedId (seen : List PyText) : PyText :=
  pyText (['c', 'a', 'l', 'l', '_'] ++ (rt.uuidHex seen).take 24)

def toolCallId (raw : PyJson) (seen : List PyText) : PyText :=
  match raw with
  | .str id => if safeToolCallId id ∧ id ∉ seen then id else synthesizedId rt seen
  | _ => synthesizedId rt seen

/-- The calls read so far; `seen` are their ids. -/
structure CallsRead where
  seen : List PyText := []
  toolCalls : List NeutralCall := []

def CallsRead.add (calls : CallsRead) (raw : PyJson) (name : PyText) (arguments : List (PyText × PyJson)) : CallsRead :=
  let id := toolCallId rt raw calls.seen
  { seen := calls.seen ++ [id], toolCalls := calls.toolCalls ++ [{ id, name, arguments }] }

/-- `json.loads(args or "{}")` where the arguments are no object. -/
def parsedArguments (args : PyJson) : Py PyJson :=
  if args.truth then
    match args with
    | .str text => rt.loadsText text
    | _ => .error .type
  else rt.loadsText (pyText ['\x7b', '\x7d'])

def callArguments (args : PyJson) : Py (List (PyText × PyJson)) := do
  match args with
  | .dict fields => .ok fields
  | _ =>
    let parsed ← exceptFor [.type, .value, .recursion] (.ok (.dict [])) (parsedArguments rt args)
    .ok (parsed.fields?.getD [])

def parseOpenaiToolCall (calls : CallsRead) (call : PyJson) : Py CallsRead := do
  let fn := (← call.attrGet (pyText ['f', 'u', 'n', 'c', 't', 'i', 'o', 'n'])).orDict
  let args ← fn.attrGet (pyText ['a', 'r', 'g', 'u', 'm', 'e', 'n', 't', 's'])
  let args ← callArguments rt args
  let raw ← call.attrGet (pyText ['i', 'd'])
  let name ← rt.strOrEmpty (← fn.attrGet (pyText ['n', 'a', 'm', 'e']))
  .ok (calls.add rt raw name args)

def parseOpenaiToolCalls (message : PyJson) : Py (List NeutralCall) := do
  let rows ← (← message.attrGet (pyText ['t', 'o', 'o', 'l', '_', 'c', 'a', 'l', 'l', 's'])).rowsOrRaise
  let calls ← rows.foldlM (parseOpenaiToolCall rt) {}
  .ok calls.toolCalls

/-! ## Responses -/

structure LlmResponse where
  content : PyText
  promptTokens : Int
  completionTokens : Int
  model : PyText
  costMicros : Option Int := none

structure FunctionCallResponse where
  toolCalls : List NeutralCall
  content : PyText
  promptTokens : Int
  completionTokens : Int
  model : PyText
  costMicros : Option Int := none

structure EmbedResponse where
  vectors : List (List PyFloat)
  model : PyText
  promptTokens : Int

/-- `resp.json()` of a 200. -/
def payloadOf (body : List UInt8) : Py PyJson :=
  exceptFor [.value] (.error (.provider "provider_invalid_json")) (rt.responseJson body)

def promptName : PyText := pyText ['p', 'r', 'o', 'm', 'p', 't', '_', 't', 'o', 'k', 'e', 'n', 's']

def completionName : PyText :=
  pyText ['c', 'o', 'm', 'p', 'l', 'e', 't', 'i', 'o', 'n', '_', 't', 'o', 'k', 'e', 'n', 's']

def inputName : PyText := pyText ['i', 'n', 'p', 'u', 't', '_', 't', 'o', 'k', 'e', 'n', 's']

def outputName : PyText := pyText ['o', 'u', 't', 'p', 'u', 't', '_', 't', 'o', 'k', 'e', 'n', 's']

/-! ## OpenAI and the servers like it -/

section Openai

-- `cost` is what of the usage is a reported cost
variable (cost : List (PyText × PyJson) → Py (Option Int)) (model : PyText) (body : List UInt8)

/-- `chat` behind its request. -/
def openaiChatWith : Py LlmResponse := do
  let payload ← payloadOf rt body
  let answer ← unexpectedShape do
    let content ← openaiMessageContent payload
    let usage ← usageOf payload
    let promptTokens ← tokenCount (PyJson.get usage promptName)
    let completionTokens ← tokenCount (PyJson.get usage completionName)
    let costMicros ← cost usage
    .ok { content, promptTokens, completionTokens, model, costMicros : LlmResponse }
  .ok { answer with model := ← responseModel payload model }

/-- `function_call` behind its request. -/
def openaiFunctionCallWith : Py FunctionCallResponse := do
  let payload ← payloadOf rt body
  let answer ← unexpectedShape do
    let message ← firstMessage payload
    let toolCalls ← parseOpenaiToolCalls rt message
    let content ← message.attrGet (pyText ['c', 'o', 'n', 't', 'e', 'n', 't'])
    let content := match content with
      | .str text => text
      | _ => []
    let usage ← usageOf payload
    let promptTokens ← tokenCount (PyJson.get usage promptName)
    let completionTokens ← tokenCount (PyJson.get usage completionName)
    let costMicros ← cost usage
    .ok { toolCalls, content, promptTokens, completionTokens, model, costMicros : FunctionCallResponse }
  .ok { answer with model := ← responseModel payload model }

/-- `embed` behind its request. -/
def openaiEmbedding : Py EmbedResponse := do
  let payload ← payloadOf rt body
  let answer ← unexpectedShape do
    let vectors ← embeddingVectors payload
    let usage ← usageOf payload
    let promptTokens ← tokenCount (PyJson.get usage promptName)
    .ok { vectors, model, promptTokens : EmbedResponse }
  .ok { answer with model := ← responseModel payload model }

end Openai

/-- `DEFAULT_EMBED_MODEL`. -/
def defaultEmbedModel : PyText := pyText "text-embedding-3-small".toList

section Adapters

variable (apiRoot : String) (model : PyText) (body : List UInt8)

/-- `OpenAIAdapter.chat`. -/
def openaiChat : Py LlmResponse := openaiChatWith rt (fun _ => .ok none) model body

/-- `OpenAIAdapter.function_call`. -/
def openaiFunctionCall : Py FunctionCallResponse := openaiFunctionCallWith rt (fun _ => .ok none) model body

/-- `OpenAIAdapter.embed`; the model may be left out. -/
def openaiEmbed : Py EmbedResponse :=
  openaiEmbedding rt (if model = [] then defaultEmbedModel else model) body

/-- `OpenAICompatibleAdapter.chat`. -/
def compatibleChat : Py LlmResponse := openaiChatWith rt (costMicros rt apiRoot) model body

/-- `OpenAICompatibleAdapter.function_call`. -/
def compatibleFunctionCall : Py FunctionCallResponse := openaiFunctionCallWith rt (costMicros rt apiRoot) model body

/-- `OpenAICompatibleAdapter.embed`: there is no default model. -/
def compatibleEmbed : Py EmbedResponse :=
  if model = [] then .error (.provider "oai_compatible_embed_model_required") else openaiEmbedding rt model body

/-! ## Anthropic -/

/-- `_content_blocks`. -/
def contentBlocks (payload : PyJson) : Py (List PyJson) := do
  match ← payload.subscript (pyText ['c', 'o', 'n', 't', 'e', 'n', 't']) with
  | .list blocks => .ok blocks
  | _ => .error .type

def PyJson.isText (v : PyJson) (text : PyText) : Bool :=
  match v with
  | .str s => s = text
  | _ => false

def typeName : PyText := pyText ['t', 'y', 'p', 'e']

def textName : PyText := pyText ['t', 'e', 'x', 't']

/-- The text blocks, where they are objects. -/
def textBlocks (blocks : List PyJson) : List (List (PyText × PyJson)) :=
  (blocks.filterMap PyJson.fields?).filter fun b => (PyJson.get b typeName).isText textName

def anthropicChat : Py LlmResponse := do
  let payload ← payloadOf rt body
  let answer ← unexpectedShape do
    let texts ← (textBlocks (← contentBlocks payload)).mapM fun b => textOrEmpty (PyJson.get b textName)
    let usage ← usageOf payload
    let promptTokens ← tokenCount (PyJson.get usage inputName)
    let completionTokens ← tokenCount (PyJson.get usage outputName)
    .ok { content := texts.flatten, promptTokens, completionTokens, model : LlmResponse }
  .ok { answer with model := ← responseModel payload model }

/-- One block: the calls and the texts so far. -/
def anthropicBlock (read : CallsRead × List PyText) (block : PyJson) : Py (CallsRead × List PyText) :=
  match block with
  | .dict b =>
    if (PyJson.get b typeName).isText (pyText ['t', 'o', 'o', 'l', '_', 'u', 's', 'e']) then do
      let input := PyJson.get b (pyText ['i', 'n', 'p', 'u', 't'])
      let name ← rt.strOrEmpty (PyJson.get b (pyText ['n', 'a', 'm', 'e']))
      .ok (read.1.add rt (PyJson.get b (pyText ['i', 'd'])) name (input.fields?.getD []), read.2)
    else if (PyJson.get b typeName).isText textName then do
      let text ← rt.strOrEmpty (PyJson.get b textName)
      .ok (read.1, read.2 ++ [text])
    else .ok read
  | _ => .ok read

def anthropicFunctionCall : Py FunctionCallResponse := do
  let payload ← payloadOf rt body
  let answer ← unexpectedShape do
    let blocks ← contentBlocks payload
    let read ← blocks.foldlM (anthropicBlock rt) ({}, [])
    let usage ← usageOf payload
    let promptTokens ← tokenCount (PyJson.get usage inputName)
    let completionTokens ← tokenCount (PyJson.get usage outputName)
    .ok { toolCalls := read.1.toolCalls, content := read.2.flatten, promptTokens, completionTokens,
          model : FunctionCallResponse }
  .ok { answer with model := ← responseModel payload model }

end Adapters

end BetterDecision
