import BetterDecision.Model.ToolTranscript

/-!
# The transcript keeps its meaning

A neutral transcript is a list of turns: a message with calls comes with the results of these
calls behind it, one each, and no other message is a result. The translation reads it message
by message with at most one list of results open. `translated` follows it turn by turn, from a
state with nothing open and from one with open results, which the next message closes and a
user's message joins first.
-/

namespace BetterDecision

/-! ## What a transcript says -/

/-- The calls of a turn of the assistant. -/
def NeutralMessage.calls (m : NeutralMessage) : List ToolCall :=
  match m.role with
  | .assistant => m.toolCalls.getD []
  | _ => []

/-- The result of a call. -/
def ResultOf (call : ToolCall) (m : NeutralMessage) : Prop := m.role = .tool ∧ m.toolCallId = some call.id

/-- What a response with calls says is a text. -/
def NeutralContent.isParts : NeutralContent → Prop
  | .parts _ => True
  | _ => False

inductive NeutralTranscript : List NeutralMessage → Prop
  | nil : NeutralTranscript []
  | other {m : NeutralMessage} {ms : List NeutralMessage} (hrole : m.role ≠ .tool) (hcalls : m.calls = [])
      (hrest : NeutralTranscript ms) : NeutralTranscript (m :: ms)
  | turn {m : NeutralMessage} {results ms : List NeutralMessage} (hcalls : m.calls ≠ []) (hcontent : ¬ m.content.isParts)
      (hresults : List.Forall₂ ResultOf m.calls results) (hrest : NeutralTranscript ms) :
      NeutralTranscript (m :: (results ++ ms))

/-- The turns with calls, each with the results behind it. -/
def toolTurns : List NeutralMessage → List (NeutralMessage × List NeutralMessage)
  | [] => []
  | m :: ms => if m.calls = [] then toolTurns ms else (m, ms.take m.calls.length) :: toolTurns ms

def NeutralPart.texts : NeutralPart → List PyText
  | .text s => if s.blank then [] else [s]
  | .other _ => []

def NeutralContent.texts : NeutralContent → List PyText
  | .missing => []
  | .text s => if s.blank then [] else [s]
  | .parts ps => ps.flatMap NeutralPart.texts

/-- What a user or the assistant says, blank texts aside. -/
def NeutralMessage.texts (m : NeutralMessage) : List PyText :=
  match m.role with
  | .user => m.content.texts
  | .assistant => m.content.texts
  | _ => []

/-! ## What a translation says -/

namespace AnthropicBlock

def texts : AnthropicBlock → List PyText
  | .text s => if s.blank then [] else [s]
  | .given part => part.texts
  | _ => []

/-- About a call or a result. -/
def isTool : AnthropicBlock → Bool
  | .toolResult _ _ => true
  | .toolUse _ => true
  | _ => false

def isBlank : AnthropicBlock → Bool
  | .text s => s.blank
  | _ => false

/-- The block of a result. -/
def ofResult (m : NeutralMessage) : AnthropicBlock := .toolResult m.toolCallId m.content.orEmpty

end AnthropicBlock

namespace AnthropicMessage

def blocks : AnthropicMessage → List AnthropicBlock
  | .built _ blocks => blocks
  | _ => []

def texts : AnthropicMessage → List PyText
  | .asIs m => m.texts
  | .answer m => m.texts
  | .built _ blocks => blocks.flatMap AnthropicBlock.texts

/-- It is not empty, and none of its texts that the translation put there is blank. -/
def Sendable : AnthropicMessage → Prop
  | .asIs _ => True
  | .answer m => m.content.speaks = true
  | .built _ blocks => blocks ≠ [] ∧ ∀ b ∈ blocks, b.isBlank = false

end AnthropicMessage

/-- **Calls and results are paired.** A message about tools is one of a pair: the calls of a turn, behind
nothing but a text, and then the results of these calls with nothing in front of them. -/
inductive CallsPaired : List AnthropicMessage → List (NeutralMessage × List NeutralMessage) → Prop
  | nil : CallsPaired [] []
  | plain {a : AnthropicMessage} {out : List AnthropicMessage} {turns : List (NeutralMessage × List NeutralMessage)}
      (hplain : ∀ b ∈ a.blocks, b.isTool = false) (hrest : CallsPaired out turns) : CallsPaired (a :: out) turns
  | turn {said more : List AnthropicBlock} {m : NeutralMessage} {results : List NeutralMessage}
      {out : List AnthropicMessage} {turns : List (NeutralMessage × List NeutralMessage)}
      (hsaid : ∀ b ∈ said, b.isTool = false) (hmore : ∀ b ∈ more, b.isTool = false) (hrest : CallsPaired out turns) :
      CallsPaired (.built .assistant (said ++ m.calls.map .toolUse) ::
        .built .user (results.map AnthropicBlock.ofResult ++ more) :: out) ((m, results) :: turns)

/-- The messages `out` translate `ms`. -/
structure Translates (ms : List NeutralMessage) (out : List AnthropicMessage) : Prop where
  paired : CallsPaired out (toolTurns ms)
  sendable : ∀ a ∈ out, a.Sendable
  texts : out.flatMap AnthropicMessage.texts = ms.flatMap NeutralMessage.texts

/-! ## One message -/

theorem texts_foldedBlocks (content : NeutralContent) :
    (foldedBlocks content).flatMap AnthropicBlock.texts = content.texts := by
  cases content with
  | missing => rfl
  | text s =>
    rw [foldedBlocks, NeutralContent.texts]
    split
    · rfl
    · next h => simp [AnthropicBlock.texts, h]
  | parts ps =>
    rw [foldedBlocks, NeutralContent.texts, List.flatMap_map]
    rfl

theorem foldedBlocks_plain (content : NeutralContent) :
    ∀ b ∈ foldedBlocks content, b.isTool = false ∧ b.isBlank = false := by
  intro b hb
  cases content with
  | missing => cases hb
  | text s =>
    rw [foldedBlocks] at hb
    split at hb
    · cases hb
    · next h =>
      rw [List.mem_singleton.mp hb]
      exact ⟨rfl, Bool.eq_false_of_not_eq_true h⟩
  | parts ps =>
    obtain ⟨part, -, rfl⟩ := List.mem_map.mp hb
    exact ⟨rfl, rfl⟩

/-- The blocks of a turn are its text, if it has one, and its calls. -/
theorem callBlocks_eq {content : NeutralContent} (h : ¬ content.isParts) (calls : List ToolCall) :
    callBlocks content calls = foldedBlocks content ++ calls.map .toolUse := by
  cases content with
  | missing => rfl
  | text s => rfl
  | parts ps => exact absurd trivial h

/-- A message without calls that is no result is put out as it is, or dropped where it says nothing. -/
theorem plainMessages_translates {m : NeutralMessage} (hcalls : m.calls = []) :
    (∀ a ∈ plainMessages m, a.Sendable ∧ a.blocks = []) ∧
      (plainMessages m).flatMap AnthropicMessage.texts = m.texts := by
  have hasIs : plainMessages m = [.asIs m] → (∀ a ∈ plainMessages m, a.Sendable ∧ a.blocks = []) ∧
      (plainMessages m).flatMap AnthropicMessage.texts = m.texts := by
    intro heq
    rw [heq]
    exact ⟨fun a ha => List.mem_singleton.mp ha ▸ ⟨trivial, rfl⟩, by simp [AnthropicMessage.texts]⟩
  cases hrole : m.role with
  | assistant =>
    cases htools : m.toolCalls with
    | none => exact hasIs (by rw [plainMessages, hrole, htools])
    | some calls =>
      have hnil : calls = [] := by
        rw [NeutralMessage.calls, hrole, htools] at hcalls
        exact hcalls
      subst hnil
      have hplain : plainMessages m = if m.content.speaks then [.answer { m with toolCalls := none }] else [] := by
        rw [plainMessages, hrole, htools]
      have htexts : m.texts = m.content.texts := by rw [NeutralMessage.texts, hrole]
      rw [hplain]
      split
      · next hspeaks =>
        refine ⟨fun a ha => List.mem_singleton.mp ha ▸ ⟨hspeaks, rfl⟩, ?_⟩
        simp [AnthropicMessage.texts, NeutralMessage.texts, hrole]
      · next hspeaks =>
        refine ⟨nofun, ?_⟩
        rw [htexts, List.flatMap_nil]
        -- a content that says nothing has no texts
        cases hcontent : m.content with
        | missing => rfl
        | text s =>
          rw [hcontent] at hspeaks
          simp only [NeutralContent.speaks, Bool.not_eq_true', Bool.not_eq_false] at hspeaks
          rw [NeutralContent.texts, if_pos hspeaks]
        | parts ps =>
          rw [hcontent] at hspeaks
          simp only [NeutralContent.speaks, NeutralContent.truth, Bool.not_eq_true', Bool.not_eq_false,
            List.isEmpty_iff] at hspeaks
          rw [hspeaks]
          rfl
  | system => exact hasIs (by rw [plainMessages, hrole])
  | user => exact hasIs (by rw [plainMessages, hrole])
  | tool => exact hasIs (by rw [plainMessages, hrole])

/-! ## The fold -/

theorem anthropicStep_result {m : NeutralMessage} (hrole : m.role = .tool) (st : AnthropicFold) :
    anthropicStep st m =
      { st with openResults := some (st.openResults.getD [] ++ [AnthropicBlock.ofResult m]) } := by
  rw [anthropicStep, hrole]
  rfl

/-- With nothing open, a message that is no result is put out. -/
theorem anthropicStep_closed {m : NeutralMessage} (hrole : m.role ≠ .tool) (out : List AnthropicMessage) :
    anthropicStep { out } m = { out := out ++ plainMessages m } := by
  rw [anthropicStep]
  cases h : m.role with
  | tool => exact absurd h hrole
  | _ => rfl

/-- Open results are closed by a user's message, which joins them, or else before the message. -/
theorem anthropicStep_open {m : NeutralMessage} (hrole : m.role ≠ .tool) (out : List AnthropicMessage)
    (blocks : List AnthropicBlock) :
    anthropicStep { out, openResults := some blocks } m =
      if m.role = .user then { out := out ++ [.built .user (blocks ++ foldedBlocks m.content)] }
      else anthropicStep { out := out ++ [.built .user blocks] } m := by
  cases h : m.role with
  | tool => exact absurd h hrole
  | user =>
    rw [anthropicStep, h]
    rfl
  | assistant =>
    rw [anthropicStep, anthropicStep, h]
    rfl
  | system =>
    rw [anthropicStep, anthropicStep, h]
    rfl

/-- A run of results becomes one open list of them. -/
theorem foldl_results {calls : List ToolCall} {results : List NeutralMessage}
    (h : List.Forall₂ ResultOf calls results) (out : List AnthropicMessage) (blocks : List AnthropicBlock) :
    results.foldl anthropicStep { out, openResults := some blocks } =
      { out, openResults := some (blocks ++ results.map AnthropicBlock.ofResult) } := by
  induction h generalizing blocks with
  | nil => simp
  | @cons call m calls results hfirst hrest ih =>
    rw [List.foldl_cons, anthropicStep_result hfirst.1, Option.getD_some, ih, List.map_cons, List.append_assoc]
    rfl

theorem foldl_turn {calls : List ToolCall} {results : List NeutralMessage} (h : List.Forall₂ ResultOf calls results)
    (hne : calls ≠ []) (out : List AnthropicMessage) :
    results.foldl anthropicStep { out } =
      { out, openResults := some (results.map AnthropicBlock.ofResult) } := by
  cases h with
  | nil => exact absurd rfl hne
  | cons hfirst hrest =>
    rw [List.foldl_cons, anthropicStep_result hfirst.1, List.map_cons]
    exact foldl_results hrest out _

theorem plainMessages_turn {m : NeutralMessage} (hcalls : m.calls ≠ []) :
    m.role = .assistant ∧ plainMessages m = [.built .assistant (callBlocks m.content m.calls)] := by
  rw [NeutralMessage.calls] at hcalls ⊢
  cases hrole : m.role with
  | assistant =>
    rw [hrole] at hcalls
    cases htools : m.toolCalls with
    | none =>
      rw [htools] at hcalls
      exact absurd rfl hcalls
    | some calls =>
      rw [htools] at hcalls
      cases calls with
      | nil => exact absurd rfl hcalls
      | cons call calls =>
        rw [plainMessages, hrole, htools]
        exact ⟨rfl, rfl⟩
  | _ =>
    rw [hrole] at hcalls
    exact absurd rfl hcalls

/-! ## Results say nothing and are no turns -/

theorem calls_of_tool {m : NeutralMessage} (hrole : m.role = .tool) : m.calls = [] := by
  rw [NeutralMessage.calls, hrole]

theorem toolTurns_results {calls : List ToolCall} {results : List NeutralMessage}
    (h : List.Forall₂ ResultOf calls results) (ms : List NeutralMessage) :
    toolTurns (results ++ ms) = toolTurns ms := by
  induction h with
  | nil => rfl
  | cons hfirst hrest ih => rw [List.cons_append, toolTurns, if_pos (calls_of_tool hfirst.1), ih]

theorem texts_results {calls : List ToolCall} {results : List NeutralMessage}
    (h : List.Forall₂ ResultOf calls results) : results.flatMap NeutralMessage.texts = [] := by
  induction h with
  | nil => rfl
  | cons hfirst hrest ih => rw [List.flatMap_cons, ih, List.append_nil, NeutralMessage.texts, hfirst.1]

theorem toolTurns_turn {m : NeutralMessage} {results : List NeutralMessage} (hcalls : m.calls ≠ [])
    (hresults : List.Forall₂ ResultOf m.calls results) (ms : List NeutralMessage) :
    toolTurns (m :: (results ++ ms)) = (m, results) :: toolTurns ms := by
  rw [toolTurns, if_neg hcalls, hresults.length_eq, List.take_left, toolTurns_results hresults]

/-! ## The whole transcript -/

theorem CallsPaired.append_plain {plain out : List AnthropicMessage} {turns : List (NeutralMessage × List NeutralMessage)}
    (hplain : ∀ a ∈ plain, a.blocks = []) (h : CallsPaired out turns) : CallsPaired (plain ++ out) turns := by
  induction plain with
  | nil => exact h
  | cons a plain ih =>
    refine .plain (fun b hb => ?_) (ih fun a' ha' => hplain a' (List.mem_cons_of_mem _ ha'))
    rw [hplain a List.mem_cons_self] at hb
    cases hb

/-- What is translated behind open results: blocks that join them, and messages. -/
structure TranslatesOpen (ms : List NeutralMessage) (more : List AnthropicBlock) (out : List AnthropicMessage) :
    Prop where
  joins : ∀ b ∈ more, b.isTool = false ∧ b.isBlank = false
  paired : CallsPaired out (toolTurns ms)
  sendable : ∀ a ∈ out, a.Sendable
  texts : more.flatMap AnthropicBlock.texts ++ out.flatMap AnthropicMessage.texts = ms.flatMap NeutralMessage.texts

/-- The translation from a state with nothing open. -/
def FromClosed (ms : List NeutralMessage) : Prop :=
  ∀ out, ∃ later, (ms.foldl anthropicStep { out }).messages = out ++ later ∧ Translates ms later

/-- The translation from a state with open results. -/
def FromOpen (ms : List NeutralMessage) : Prop :=
  ∀ out blocks, ∃ more later, (ms.foldl anthropicStep { out, openResults := some blocks }).messages =
    out ++ .built .user (blocks ++ more) :: later ∧ TranslatesOpen ms more later

/-- A message that is not a user's closes the results, and is translated as with nothing open. -/
theorem FromClosed.open_cons {m : NeutralMessage} {ms : List NeutralMessage} (h : FromClosed (m :: ms))
    (hrole : m.role ≠ .tool) (huser : m.role ≠ .user) : FromOpen (m :: ms) := by
  intro out blocks
  obtain ⟨later, hlater, htranslates⟩ := h (out ++ [.built .user blocks])
  refine ⟨[], later, ?_, nofun, htranslates.paired, htranslates.sendable, htranslates.texts⟩
  rw [List.foldl_cons, anthropicStep_open hrole, if_neg huser, List.append_nil, ← List.foldl_cons, hlater,
    List.append_assoc, List.singleton_append]

theorem closed_other {m : NeutralMessage} {ms : List NeutralMessage} (hrole : m.role ≠ .tool) (hcalls : m.calls = [])
    (h : FromClosed ms) : FromClosed (m :: ms) := by
  intro out
  obtain ⟨later, hlater, htranslates⟩ := h (out ++ plainMessages m)
  obtain ⟨hplain, htexts⟩ := plainMessages_translates hcalls
  refine ⟨plainMessages m ++ later, ?_, ?_, fun a ha => ?_, ?_⟩
  · rw [List.foldl_cons, anthropicStep_closed hrole, hlater, List.append_assoc]
  · rw [toolTurns, if_pos hcalls]
    exact htranslates.paired.append_plain fun a ha => (hplain a ha).2
  · exact (List.mem_append.mp ha).elim (fun ha => (hplain a ha).1) (htranslates.sendable a)
  · rw [List.flatMap_append, List.flatMap_cons, htexts, htranslates.texts]

/-- A user's message joins the results in front of it. -/
theorem open_user {m : NeutralMessage} {ms : List NeutralMessage} (huser : m.role = .user) (h : FromClosed ms) :
    FromOpen (m :: ms) := by
  intro out blocks
  have hrole : m.role ≠ .tool := by rw [huser]; decide
  have hcalls : m.calls = [] := by rw [NeutralMessage.calls, huser]
  have htexts : m.texts = m.content.texts := by rw [NeutralMessage.texts, huser]
  obtain ⟨later, hlater, htranslates⟩ := h (out ++ [.built .user (blocks ++ foldedBlocks m.content)])
  refine ⟨foldedBlocks m.content, later, ?_, foldedBlocks_plain m.content, ?_, htranslates.sendable, ?_⟩
  · rw [List.foldl_cons, anthropicStep_open hrole, if_pos huser, hlater, List.append_assoc, List.singleton_append]
  · rw [toolTurns, if_pos hcalls]
    exact htranslates.paired
  · rw [texts_foldedBlocks, List.flatMap_cons, htexts, htranslates.texts]

theorem closed_turn {m : NeutralMessage} {results ms : List NeutralMessage} (hcalls : m.calls ≠ [])
    (hcontent : ¬ m.content.isParts) (hresults : List.Forall₂ ResultOf m.calls results) (h : FromOpen ms) :
    FromClosed (m :: (results ++ ms)) := by
  intro out
  obtain ⟨hassistant, hplain⟩ := plainMessages_turn hcalls
  have hrole : m.role ≠ .tool := by rw [hassistant]; decide
  have htexts : m.texts = m.content.texts := by rw [NeutralMessage.texts, hassistant]
  obtain ⟨more, later, hlater, htranslates⟩ := h (out ++ plainMessages m) (results.map AnthropicBlock.ofResult)
  refine ⟨.built .assistant (foldedBlocks m.content ++ m.calls.map .toolUse) ::
    .built .user (results.map AnthropicBlock.ofResult ++ more) :: later, ?_, ?_, fun a ha => ?_, ?_⟩
  · rw [List.foldl_cons, anthropicStep_closed hrole, List.foldl_append, foldl_turn hresults hcalls, hlater, hplain,
      callBlocks_eq hcontent, List.append_assoc, List.singleton_append]
  · rw [toolTurns_turn hcalls hresults]
    exact .turn (fun b hb => (foldedBlocks_plain _ b hb).1) (fun b hb => (htranslates.joins b hb).1) htranslates.paired
  · have hresultsNe : results.map AnthropicBlock.ofResult ≠ [] := by
      intro hnil
      rw [List.map_eq_nil_iff] at hnil
      exact hcalls (List.length_eq_zero_iff.mp (hresults.length_eq.trans (by rw [hnil]; rfl)))
    rcases List.mem_cons.mp ha with rfl | ha
    · refine ⟨fun hnil => hcalls (List.map_eq_nil_iff.mp (List.append_eq_nil_iff.mp hnil).2), fun b hb => ?_⟩
      rcases List.mem_append.mp hb with hb | hb
      · exact (foldedBlocks_plain _ b hb).2
      · obtain ⟨call, -, rfl⟩ := List.mem_map.mp hb
        rfl
    · rcases List.mem_cons.mp ha with rfl | ha
      · refine ⟨fun hnil => hresultsNe (List.append_eq_nil_iff.mp hnil).1, fun b hb => ?_⟩
        rcases List.mem_append.mp hb with hb | hb
        · obtain ⟨r, -, rfl⟩ := List.mem_map.mp hb
          rfl
        · exact (htranslates.joins b hb).2
      · exact htranslates.sendable a ha
  · -- calls and results say nothing
    have hcallTexts : (m.calls.map AnthropicBlock.toolUse).flatMap AnthropicBlock.texts = [] := by
      rw [List.flatMap_map]
      exact List.flatMap_eq_nil_iff.mpr fun _ _ => rfl
    have hresultTexts : (results.map AnthropicBlock.ofResult).flatMap AnthropicBlock.texts = [] := by
      rw [List.flatMap_map]
      exact List.flatMap_eq_nil_iff.mpr fun _ _ => rfl
    simp only [List.flatMap_cons, AnthropicMessage.texts, List.flatMap_append, hcallTexts, hresultTexts,
      texts_foldedBlocks, List.append_nil, List.nil_append, htranslates.texts, texts_results hresults, htexts]

/-- **Turn by turn**, from either state. -/
theorem translated {ms : List NeutralMessage} (h : NeutralTranscript ms) : FromClosed ms ∧ FromOpen ms := by
  induction h with
  | nil =>
    constructor
    · exact fun out => ⟨[], (List.append_nil out).symm, .nil, nofun, rfl⟩
    · exact fun out blocks => ⟨[], [], by rw [List.append_nil]; rfl, nofun, .nil, nofun, rfl⟩
  | @other m ms hrole hcalls hrest ih =>
    have hclosed := closed_other hrole hcalls ih.1
    refine ⟨hclosed, ?_⟩
    by_cases huser : m.role = .user
    · exact open_user huser ih.1
    · exact hclosed.open_cons hrole huser
  | @turn m results ms hcalls hcontent hresults hrest ih =>
    have hclosed := closed_turn hcalls hcontent hresults ih.2
    have hassistant := (plainMessages_turn hcalls).1
    exact ⟨hclosed, hclosed.open_cons (by rw [hassistant]; decide) (by rw [hassistant]; decide)⟩

/-! ## Calls read back from OpenAI's shape -/

section Openai

variable (rt : PyRuntime) (number : JsonNumber → PyJson)

theorem spaced_lawful : Json.Lawful spaced Json.readText where
  items := ⟨[' '], rfl, fun c hc => by rw [List.mem_singleton.mp hc]; rfl⟩
  keys := ⟨[' '], rfl, fun c hc => by rw [List.mem_singleton.mp hc]; rfl⟩
  strings := Json.readsBack_escapeAscii
  numbers n := ⟨Json.isNumber_ne_nil n.property, Json.isNumber_chars n.property, Json.readText_val n⟩

theorem chars_pyText (text : Str) : (pyText text).chars = some text := by
  induction text with
  | nil => rfl
  | cons c text ih =>
    rw [PyText.chars] at ih ⊢
    rw [pyText, List.map_cons, List.mapM_cons, ← pyText, ih]
    rfl

/-- **What `json.dumps` wrote, `json.loads` reads.** -/
theorem loadsJson_dumps (v : JsonValue) :
    loadsJson number (pyText (Json.dumps spaced v)) = .ok (PyJson.ofJson number v) := by
  rw [loadsJson, chars_pyText, Option.bind_some, Json.parse_dumps spaced_lawful v]

theorem callArguments_dumps (fields : List (Str × JsonValue)) :
    callArguments (rt.reading number) (.str (pyText (Json.dumps spaced (.obj fields)))) =
      .ok (PyJson.ofFields number fields) := by
  have htruth : (PyJson.str (pyText (Json.dumps spaced (.obj fields)))).truth = true := by
    obtain ⟨c, cs, hcs, -⟩ := Json.dumps_head spaced_lawful (.obj fields)
    rw [hcs]
    rfl
  have hparsed : parsedArguments (rt.reading number) (.str (pyText (Json.dumps spaced (.obj fields)))) =
      .ok (.dict (PyJson.ofFields number fields)) := by
    rw [parsedArguments, if_pos htruth]
    exact loadsJson_dumps number (.obj fields)
  rw [callArguments]
  · rw [hparsed]
    rfl
  · exact fun fields' h => nomatch h

/-- A call with a safe id that was not given yet is read as it is. -/
theorem parseOpenaiToolCall_openaiCall {call : ToolCall} {calls : CallsRead} (hsafe : safeToolCallId call.id)
    (hnew : call.id ∉ calls.seen) :
    parseOpenaiToolCall (rt.reading number) calls (openaiCall call) =
      .ok { seen := calls.seen ++ [call.id], toolCalls := calls.toolCalls ++ [call.neutral number] } := by
  have hname : (rt.reading number).strOrEmpty (.str call.name) = .ok call.name := by
    rw [PyRuntime.strOrEmpty]
    split
    · rfl
    · next h =>
      simp only [PyJson.truth, ne_eq, decide_not, Bool.not_eq_true', decide_eq_false_iff_not, not_not] at h
      rw [h]
  have hid : toolCallId (rt.reading number) (.str call.id) calls.seen = call.id := if_pos ⟨hsafe, hnew⟩
  have hargs := callArguments_dumps rt number call.arguments
  change (callArguments (rt.reading number) (.str (pyText (Json.dumps spaced (.obj call.arguments)))) >>= fun args =>
    (rt.reading number).strOrEmpty (.str call.name) >>= fun name =>
      .ok (calls.add (rt.reading number) (.str call.id) name args)) = _
  rw [hargs, bind_ok, hname, bind_ok, CallsRead.add, hid]
  rfl

theorem foldlM_openaiCalls {calls : List ToolCall} (hsafe : ∀ call ∈ calls, safeToolCallId call.id)
    (hdistinct : (calls.map ToolCall.id).Nodup) {read : CallsRead} (hnew : ∀ call ∈ calls, call.id ∉ read.seen) :
    (calls.map openaiCall).foldlM (parseOpenaiToolCall (rt.reading number)) read =
      .ok { seen := read.seen ++ calls.map ToolCall.id,
            toolCalls := read.toolCalls ++ calls.map (ToolCall.neutral number) } := by
  induction calls generalizing read with
  | nil => simp [pure, Except.pure]
  | cons call calls ih =>
    rw [List.map_cons, List.nodup_cons] at hdistinct
    rw [List.map_cons, List.foldlM_cons, parseOpenaiToolCall_openaiCall rt number (hsafe call List.mem_cons_self)
      (hnew call List.mem_cons_self), bind_ok]
    rw [ih (fun c hc => hsafe c (List.mem_cons_of_mem _ hc)) hdistinct.2]
    · simp only [List.map_cons, List.append_assoc, List.singleton_append]
    · intro c hc hmem
      rcases List.mem_append.mp hmem with hmem | hmem
      · exact hnew c (List.mem_cons_of_mem _ hc) hmem
      · exact hdistinct.1 (List.mem_map.mpr ⟨c, hc, List.mem_singleton.mp hmem⟩)

/-- What becomes of a message: a turn with calls is read as the same calls, any other is passed on. -/
structure OpenaiKeeps (m : NeutralMessage) (sent : OpenaiMessage) : Prop where
  calls : m.calls ≠ [] → (m.calls.map ToolCall.id).Nodup → (∀ call ∈ m.calls, safeToolCallId call.id) →
    ∃ message, sent = .turn message ∧
      parseOpenaiToolCalls (rt.reading number) message = .ok (m.calls.map (ToolCall.neutral number))
  others : m.calls = [] → sent = .asIs m ∨
    (m.toolCalls = some [] ∧ sent = .answer { m with toolCalls := none, content := m.content.orEmpty })

theorem openaiMessage_keeps (m : NeutralMessage) : OpenaiKeeps rt number m (openaiMessage m) := by
  constructor
  · intro hcalls hdistinct hsafe
    obtain ⟨hrole, -⟩ := plainMessages_turn hcalls
    cases htools : m.toolCalls with
    | none =>
      rw [NeutralMessage.calls, hrole, htools] at hcalls
      exact absurd rfl hcalls
    | some calls =>
      have heq : m.calls = calls := by rw [NeutralMessage.calls, hrole, htools]; rfl
      rw [heq] at hcalls hdistinct hsafe ⊢
      cases calls with
      | nil => exact absurd rfl hcalls
      | cons call calls =>
        refine ⟨_, by rw [openaiMessage, hrole, htools], ?_⟩
        have hread := @foldlM_openaiCalls rt number _ hsafe hdistinct {} fun _ _ => List.not_mem_nil
        change ((((call :: calls).map openaiCall).foldlM (parseOpenaiToolCall (rt.reading number)) {}) >>=
          fun read => .ok read.toolCalls) = _
        rw [hread]
        rfl
  · intro hcalls
    rw [openaiMessage]
    cases hrole : m.role with
    | assistant =>
      cases htools : m.toolCalls with
      | none => exact .inl rfl
      | some calls =>
        rw [NeutralMessage.calls, hrole, htools] at hcalls
        rw [show calls = [] from hcalls]
        exact .inr ⟨rfl, rfl⟩
    | _ => exact .inl rfl

end Openai

/-- A runtime that reads no bytes and numbers its ids all alike. -/
def plainRuntime : PyRuntime where
  loads _ := .error .value
  loads_raises _ _ h := by
    cases h
    exact .inl rfl
  loadsText _ := .error .value
  loadsText_raises _ _ h := by
    cases h
    exact .inl rfl
  strOf _ := .error .value
  strOf_raises _ _ h := by
    cases h
    exact .inl rfl
  uuidHex _ := List.replicate 32 '0'
  uuidHex_length _ := List.length_replicate
  uuidHex_digits _ c hc := by rw [List.eq_of_mem_replicate hc]; exact List.mem_cons_self

def wholeNumber (n : JsonNumber) : PyJson := .int ((intOfText n.val).getD 0)

/-- A question, a call, its result and another question. -/
def oneCall : List NeutralMessage :=
  [{ role := .user, content := .text (pyText ['h', 'i']) },
    { role := .assistant, toolCalls := some [{ id := pyText ['a'], name := pyText ['f'], arguments := [] }] },
    { role := .tool, content := .text (pyText ['o', 'k']), toolCallId := some (pyText ['a']) },
    { role := .user, content := .text (pyText ['s', 'o']) }]

end BetterDecision
