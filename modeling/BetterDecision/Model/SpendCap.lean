import BetterDecision.Model.Db

/-!
# The spend cap

`ai_pricing` and `ai_token_estimate`, which put a price on a call that is yet to be made;
`_projected_cost_micros` and `_enforce_cap` of `ai_dispatch`, which admit it or not; and the
attempts of `call_llm_structured`, with what they bill. Costs are in micro-USD.

A provider is what it answers, one reply an attempt. The scrub, the routing, the ledger row
and the warnings have no part in what is admitted or billed.
-/

namespace BetterDecision

/-! ## Prices -/

/-- USD cents for a million tokens. -/
structure ModelPricing where
  promptPer1mCents : Nat
  completionPer1mCents : Nat

/-- The rows of `MODEL_PRICING` but `_default`: the model, its prompt price, its completion price. -/
def modelPricing : List (String × Nat × Nat) :=
  [("gpt-4o", 250, 1000), ("gpt-4o-mini", 15, 60), ("gpt-6-astra", 2000, 7500), ("gpt-6.1-sol", 400, 1500),
    ("gpt-6-sol", 400, 1500), ("gpt-6-luna", 20, 75), ("gpt-5.6-sol", 800, 3000), ("gpt-5.6-terra", 400, 1800),
    ("gpt-5.6-luna", 40, 180), ("claude-fable-5-1", 1000, 5000), ("claude-fable-5", 1000, 5000),
    ("claude-opus-5-5", 400, 2000), ("claude-opus-5", 500, 2500), ("claude-opus-4-8", 500, 2500),
    ("claude-opus-4-7", 500, 2500), ("claude-opus-4-6", 500, 2500), ("claude-sonnet-5-5", 200, 1000),
    ("claude-sonnet-5", 200, 1000), ("claude-sonnet-4-6", 300, 1500), ("claude-sonnet-4-7", 300, 1500),
    ("claude-haiku-5-5", 50, 250), ("claude-haiku-4-5", 100, 500), ("claude-haiku-4-5-20251001", 100, 500),
    ("gemini-3.8-flash", 150, 750), ("gemini-3.6-flash", 150, 750), ("gemini-3.5-flash", 150, 900),
    ("gemini-3.5-flash-lite", 30, 250), ("gemini-3.1-pro-preview", 400, 1800), ("gemini-3.1-flash-lite", 25, 150),
    ("text-embedding-3-small", 2, 0), ("text-embedding-3-large", 13, 0)]

/-- `OPENROUTER_IDS`. -/
def openrouterIds : List (String × String) :=
  [("anthropic/claude-fable-5.1", "claude-fable-5-1"), ("anthropic/claude-fable-5", "claude-fable-5"),
    ("anthropic/claude-opus-5.5", "claude-opus-5-5"), ("anthropic/claude-opus-5", "claude-opus-5"),
    ("anthropic/claude-opus-4.8", "claude-opus-4-8"), ("anthropic/claude-opus-4.7", "claude-opus-4-7"),
    ("anthropic/claude-opus-4.6", "claude-opus-4-6"), ("anthropic/claude-sonnet-5.5", "claude-sonnet-5-5"),
    ("anthropic/claude-sonnet-5", "claude-sonnet-5"), ("anthropic/claude-sonnet-4.6", "claude-sonnet-4-6"),
    ("anthropic/claude-haiku-5.5", "claude-haiku-5-5"), ("anthropic/claude-haiku-4.5", "claude-haiku-4-5"),
    ("openai/gpt-6-astra", "gpt-6-astra"), ("openai/gpt-6.1-sol", "gpt-6.1-sol"), ("openai/gpt-6-sol", "gpt-6-sol"),
    ("openai/gpt-6-luna", "gpt-6-luna"), ("openai/gpt-5.6-sol", "gpt-5.6-sol"),
    ("openai/gpt-5.6-terra", "gpt-5.6-terra"), ("openai/gpt-5.6-luna", "gpt-5.6-luna"),
    ("google/gemini-3.8-flash", "gemini-3.8-flash"), ("google/gemini-3.6-flash", "gemini-3.6-flash"),
    ("google/gemini-3.5-flash", "gemini-3.5-flash"), ("google/gemini-3.5-flash-lite", "gemini-3.5-flash-lite"),
    ("google/gemini-3.1-pro-preview", "gemini-3.1-pro-preview"),
    ("google/gemini-3.1-flash-lite", "gemini-3.1-flash-lite")]

/-- The row an id is priced under. -/
def pricedAs (model : String) : String := (openrouterIds.lookup model).getD model

/-- `get_pricing`: an unknown model has the `_default` row. -/
def getPricing (model : String) : ModelPricing :=
  let row := (modelPricing.lookup (pricedAs model)).getD (2500, 10000)
  ⟨row.1, row.2⟩

/-- `estimate_cost_micros`, rounded up. -/
def estimateCostMicros (model : String) (promptTokens completionTokens : Int) : Int :=
  if promptTokens ≤ 0 ∧ completionTokens ≤ 0 then 0
  else
    let pricing := getPricing model
    let raw := promptTokens * pricing.promptPer1mCents + completionTokens * pricing.completionPer1mCents
    (-(-raw / 100))

/-! ## Tokens -/

inductive ContentPart
  | text (text : String)
  | other

inductive MessageContent
  | text (text : String)
  | parts (parts : List ContentPart)
  | other

/-- A message that is no dict counts for nothing. -/
inductive ChatMessage
  /-- `toolCallChars` is the length of the dumped `tool_calls`, 0 without any that dump. -/
  | dict (content : MessageContent) (toolCallChars : Nat)
  | other

def ContentPart.chars : ContentPart → Nat
  | .text s => s.length
  | .other => 0

def MessageContent.chars : MessageContent → Nat
  | .text s => s.length
  | .parts ps => (ps.map ContentPart.chars).sum
  | .other => 0

def ChatMessage.chars : ChatMessage → Nat
  | .dict content toolCallChars => content.chars + toolCallChars
  | .other => 0

/-- `math.ceil(total_chars / 3.5)`. -/
def estimatePromptTokens (messages : List ChatMessage) : Nat := (2 * (messages.map ChatMessage.chars).sum + 6) / 7

/-- `_DEFAULT_MAX_OUTPUT_TOKENS_BY_MODEL`. -/
def maxOutputTokens : List (String × Nat) :=
  [("gpt-4o", 4096), ("gpt-4o-mini", 4096), ("gpt-6-astra", 4096), ("gpt-6.1-sol", 4096), ("gpt-6-sol", 4096),
    ("gpt-6-luna", 4096), ("gpt-5.6-sol", 4096), ("gpt-5.6-terra", 4096), ("gpt-5.6-luna", 4096),
    ("claude-fable-5-1", 8192), ("claude-fable-5", 8192), ("claude-opus-5-5", 8192), ("claude-opus-5", 8192),
    ("claude-opus-4-8", 8192), ("claude-opus-4-7", 8192), ("claude-opus-4-6", 8192), ("claude-sonnet-5-5", 8192),
    ("claude-sonnet-5", 8192), ("claude-sonnet-4-6", 8192), ("claude-sonnet-4-7", 8192), ("claude-haiku-5-5", 8192),
    ("claude-haiku-4-5", 8192), ("claude-haiku-4-5-20251001", 8192), ("gemini-3.8-flash", 8192),
    ("gemini-3.6-flash", 8192), ("gemini-3.5-flash", 8192), ("gemini-3.5-flash-lite", 8192),
    ("gemini-3.1-pro-preview", 8192), ("gemini-3.1-flash-lite", 8192), ("text-embedding-3-small", 0),
    ("text-embedding-3-large", 0)]

def defaultMaxOutputTokensFor (model : String) : Nat := (maxOutputTokens.lookup (pricedAs model)).getD 4096

/-- `max_tokens if max_tokens else default_max_output_tokens_for(model)`. -/
def completionCeiling (model : String) (maxTokens : Option Nat) : Nat :=
  match maxTokens with
  | some n => if n = 0 then defaultMaxOutputTokensFor model else n
  | none => defaultMaxOutputTokensFor model

/-! ## The gate -/

/-- `_projected_cost_micros`. -/
def projectedCostMicros (model : String) (messages : List ChatMessage) (maxTokens : Option Nat)
    (retryMultiplier : Nat) : Int :=
  estimateCostMicros model (estimatePromptTokens messages) (completionCeiling model maxTokens) * retryMultiplier

inductive DispatchError
  | capExceeded
  deriving DecidableEq, Repr

/-- `_enforce_cap`. Nothing here makes the projection raise. -/
def enforceCap (hardCapMicros : Option Int) (costSoFar : Int) (model : String) (messages : List ChatMessage)
    (maxTokens : Option Nat) (retryMultiplier : Nat) : Except DispatchError Unit :=
  match hardCapMicros with
  | none => .ok ()
  | some cap =>
    let projected := projectedCostMicros model messages maxTokens retryMultiplier
    if cap ≤ costSoFar ∨ cap < costSoFar + projected then .error .capExceeded else .ok ()

/-! ## The attempts -/

/-- `STRUCTURED_OUTPUT_MAX_RETRIES`. -/
def structuredOutputMaxRetries : Nat := 2

def retryMessage : ChatMessage :=
  .dict (.text ("Previous response was not valid JSON matching the schema. " ++ "Output ONLY the JSON object.")) 0

/-- What an attempt comes back with. -/
inductive AdapterReply
  /-- It raises, and bills nothing. -/
  | failed
  /-- Tokens, the reported cost if there is one, and whether the content is valid. -/
  | answered (promptTokens completionTokens : Int) (costMicros : Option Int) (valid : Bool)

/-- `_call_cost_micros` of an own-key call. -/
def callCostMicros (model : String) (promptTokens completionTokens : Int) (reported : Option Int) : Int :=
  match reported with
  | some cost => max 0 cost
  | none => estimateCostMicros model (max 0 promptTokens) (max 0 completionTokens)

/-- The total cost of the attempts, each sent what the one before it was sent and a retry message. -/
def structuredCost (model : String) : Nat → List ChatMessage → List AdapterReply → Int
  | attempts + 1, messages, .answered promptTokens completionTokens reported valid :: replies =>
    callCostMicros model promptTokens completionTokens reported +
      if valid then 0 else structuredCost model attempts (messages ++ [retryMessage]) replies
  | _, _, _ => 0

/-- What a structured call bills. -/
def callLlmStructuredCost (model : String) (messages : List ChatMessage) (replies : List AdapterReply) : Int :=
  structuredCost model (structuredOutputMaxRetries + 1) messages replies

end BetterDecision
