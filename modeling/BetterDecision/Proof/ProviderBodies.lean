import BetterDecision.Model.ProviderBodies
import BetterDecision.Proof.ForecastRefine

/-!
# Every body is answered, or refused in one way

A body is decoded step by step, and each step raises nothing but what the adapters map
(`Shaped`). So a call either raises the one exception that its callers know, or it returns, and
then what it returns is well formed (`provider_bodies_answered`): ids that can be echoed, and no
two alike while a synthesized id is new; counts that are the ones reported, within the ledger's
bounds; a cost within the cap; vectors of numbers. Names and contents are texts and arguments
are objects by their types.
-/

namespace BetterDecision

/-! ## Exceptions that are mapped -/

/-- Raises nothing but a shape error. -/
def Shaped {α : Type} (x : Py α) : Prop := ∀ e, x = .error e → e ∈ unexpectedShapeErrors

section Shaped

variable {α β : Type}

theorem shaped_ok (a : α) : Shaped (.ok a : Py α) := fun _ h => nomatch h

theorem shaped_error {e : Exn} (h : e ∈ unexpectedShapeErrors) : Shaped (.error e : Py α) := by
  intro e' he
  cases he
  exact h

theorem Shaped.bind {x : Py α} {f : α → Py β} (hx : Shaped x) (hf : ∀ a, x = .ok a → Shaped (f a)) :
    Shaped (x >>= f) := by
  cases x with
  | error e => exact fun e' he => hx e' (by cases he; rfl)
  | ok a => exact hf a rfl

theorem shaped_found {o : Option α} {e : Exn} (h : e ∈ unexpectedShapeErrors) : Shaped (found o e) := by
  cases o with
  | none => exact shaped_error h
  | some a => exact shaped_ok a

theorem Shaped.ite {c : Prop} [Decidable c] {x y : Py α} (hx : Shaped x) (hy : Shaped y) :
    Shaped (if c then x else y) := by
  split
  · exact hx
  · exact hy

theorem Shaped.mapM {f : α → Py β} (hf : ∀ a, Shaped (f a)) : ∀ xs : List α, Shaped (xs.mapM f)
  | [] => shaped_ok []
  | x :: xs => by
    rw [List.mapM_cons]
    exact (hf x).bind fun b _ => (Shaped.mapM hf xs).bind fun bs _ => shaped_ok _

theorem Shaped.foldlM {f : β → α → Py β} (hf : ∀ b a, Shaped (f b a)) : ∀ (xs : List α) (b : β), Shaped (xs.foldlM f b)
  | [], b => shaped_ok b
  | x :: xs, b => by
    rw [List.foldlM_cons]
    exact (hf b x).bind fun b' _ => Shaped.foldlM hf xs b'

/-- A step that raises one of the two exceptions of a built-in. -/
theorem shaped_of_raises {x : Py α} (h : ∀ e, x = .error e → e = .value ∨ e = .recursion) : Shaped x := by
  intro e he
  rcases h e he with rfl | rfl <;> decide

end Shaped

theorem shaped_subscript (name : PyText) (v : PyJson) : Shaped (v.subscript name) := by
  cases v with
  | dict fields => exact shaped_found (by decide)
  | _ => exact shaped_error (by decide)

theorem shaped_first (v : PyJson) : Shaped v.first := by
  cases v with
  | list rows => exact shaped_found (by decide)
  | str text => exact shaped_found (by decide)
  | _ => exact shaped_error (by decide)

theorem shaped_attrGet (name : PyText) (v : PyJson) : Shaped (v.attrGet name) := by
  cases v with
  | dict fields => exact shaped_ok _
  | _ => exact shaped_error (by decide)

theorem shaped_rowsOrRaise (v : PyJson) : Shaped v.rowsOrRaise := by
  rw [PyJson.rowsOrRaise]
  cases v.rowsOf with
  | ok rows => exact shaped_ok rows
  | error e => exact shaped_error (by decide)

theorem shaped_tokenCount (v : PyJson) : Shaped (tokenCount v) := by
  cases v with
  | none => exact shaped_ok 0
  | int n => exact Shaped.ite (shaped_error (by decide)) (shaped_ok _)
  | float f =>
    cases f with
    | finite x => exact Shaped.ite (shaped_error (by decide)) (Shaped.ite (shaped_error (by decide)) (shaped_ok _))
    | _ => exact shaped_error (by decide)
  | _ => exact shaped_error (by decide)

theorem shaped_usageOf (v : PyJson) : Shaped (usageOf v) := by
  cases v with
  | dict fields =>
    rw [usageOf]
    split
    · exact shaped_ok _
    · exact shaped_ok _
    · exact shaped_error (by decide)
  | _ => exact shaped_error (by decide)

theorem shaped_textOrEmpty (v : PyJson) : Shaped (textOrEmpty v) := by
  cases v with
  | none => exact shaped_ok _
  | str text => exact shaped_ok _
  | _ => exact shaped_error (by decide)

theorem shaped_firstMessage (payload : PyJson) : Shaped (firstMessage payload) :=
  (shaped_subscript _ _).bind fun choices _ => (shaped_first choices).bind fun choice _ => shaped_subscript _ choice

theorem shaped_openaiMessageContent (payload : PyJson) : Shaped (openaiMessageContent payload) :=
  (shaped_firstMessage payload).bind fun message _ =>
    (shaped_subscript _ message).bind fun content _ => shaped_textOrEmpty content

theorem shaped_embeddingNumber (v : PyJson) : Shaped (embeddingNumber v) := by
  cases v with
  | int n => exact Shaped.ite (shaped_error (by decide)) (shaped_ok _)
  | float f =>
    cases f with
    | finite x => exact shaped_ok _
    | _ => exact shaped_error (by decide)
  | _ => exact shaped_error (by decide)

theorem shaped_listOrEmpty (v : PyJson) : Shaped (listOrEmpty v) := by
  refine Shaped.ite ?_ (shaped_ok [])
  cases v with
  | list rows => exact shaped_ok rows
  | _ => exact shaped_error (by decide)

theorem shaped_embeddingVectors (payload : PyJson) : Shaped (embeddingVectors payload) := by
  cases payload with
  | dict fields =>
    refine (shaped_listOrEmpty _).bind fun data _ => Shaped.mapM (fun row => ?_) _
    exact (shaped_listOrEmpty _).bind fun embedding _ => Shaped.mapM shaped_embeddingNumber embedding
  | _ => exact shaped_error (by decide)

theorem shaped_contentBlocks (payload : PyJson) : Shaped (contentBlocks payload) := by
  refine (shaped_subscript _ payload).bind fun content _ => ?_
  cases content with
  | list blocks => exact shaped_ok blocks
  | _ => exact shaped_error (by decide)

section Runtime

variable (rt : PyRuntime)

theorem shaped_str (v : PyJson) : Shaped (rt.str v) := by
  cases v with
  | str text => exact shaped_ok text
  | _ => exact shaped_of_raises (rt.strOf_raises _)

theorem shaped_strOrEmpty (v : PyJson) : Shaped (rt.strOrEmpty v) := (shaped_str rt v).ite (shaped_ok [])

theorem shaped_usdToMicros (v : PyJson) : Shaped (usdToMicros rt v) := by
  refine (shaped_str rt v).bind fun text _ => Shaped.bind ?_ fun amount _ => ?_
  · cases (PyText.chars text).bind decimalOf with
    | none => exact shaped_ok none
    | some d => exact shaped_ok (some d)
  · split
    · exact shaped_ok none
    · exact (shaped_ok none).ite (shaped_ok _)

theorem shaped_costMicros (apiRoot : String) (usage : List (PyText × PyJson)) : Shaped (costMicros rt apiRoot usage) :=
  (shaped_ok none).ite ((shaped_ok none).ite (shaped_usdToMicros rt _))

theorem shaped_callArguments (args : PyJson) : Shaped (callArguments rt args) := by
  have hparsed : Shaped (parsedArguments rt args) := by
    refine Shaped.ite ?_ (shaped_of_raises (rt.loadsText_raises _))
    cases args with
    | str text => exact shaped_of_raises (rt.loadsText_raises text)
    | _ => exact shaped_error (by decide)
  have hcaught : Shaped (exceptFor [.type, .value, .recursion] (.ok (.dict [])) (parsedArguments rt args)) := by
    intro e he
    cases hp : parsedArguments rt args with
    | ok parsed => rw [hp, exceptFor] at he; cases he
    | error e' =>
      rw [hp, exceptFor] at he
      split at he
      · cases he
      · cases he
        exact hparsed e hp
  cases args with
  | dict fields => exact shaped_ok fields
  | _ => exact hcaught.bind fun parsed _ => shaped_ok _

theorem shaped_parseOpenaiToolCall (calls : CallsRead) (call : PyJson) : Shaped (parseOpenaiToolCall rt calls call) :=
  (shaped_attrGet _ call).bind fun fn _ => (shaped_attrGet _ fn.orDict).bind fun args _ =>
    (shaped_callArguments rt args).bind fun _ _ => (shaped_attrGet _ call).bind fun _ _ =>
      (shaped_attrGet _ fn.orDict).bind fun name _ => (shaped_strOrEmpty rt name).bind fun _ _ => shaped_ok _

theorem shaped_parseOpenaiToolCalls (message : PyJson) : Shaped (parseOpenaiToolCalls rt message) :=
  (shaped_attrGet _ message).bind fun rows _ => (shaped_rowsOrRaise rows).bind fun rows _ =>
    (Shaped.foldlM (shaped_parseOpenaiToolCall rt) rows {}).bind fun _ _ => shaped_ok _

theorem shaped_anthropicBlock (read : CallsRead × List PyText) (block : PyJson) :
    Shaped (anthropicBlock rt read block) := by
  cases block with
  | dict b =>
    refine Shaped.ite ?_ (Shaped.ite ?_ (shaped_ok read))
    · exact (shaped_strOrEmpty rt _).bind fun name _ => shaped_ok _
    · exact (shaped_strOrEmpty rt _).bind fun text _ => shaped_ok _
  | _ => exact shaped_ok read

end Runtime

/-! ## What is returned -/

/-- Raises the one exception that callers know, or returns what satisfies `P`. -/
def AnswersOrRaises {α : Type} (P : α → Prop) (x : Py α) : Prop :=
  (∃ code, x = .error (.provider code)) ∨ ∃ a, x = .ok a ∧ P a

/-- The value of the payload's usage under a name; nothing if there is no usage. -/
def usageValue (payload : PyJson) (name : PyText) : PyJson :=
  match usageOf payload with
  | .ok usage => PyJson.get usage name
  | .error _ => .none

/-- A count is the integer reported, zero for a negative one and where nothing is. -/
def CountOf (v : PyJson) (n : Int) : Prop :=
  (v = .none ∧ n = 0) ∨ ∃ m : Int, (v = .int m ∨ v = .float (.finite m)) ∧ n = max 0 m

/-- A count within the ledger's bounds, read of the body's usage. -/
structure UsageCount (rt : PyRuntime) (body : List UInt8) (name : PyText) (n : Int) : Prop where
  nonneg : 0 ≤ n
  le_max : n ≤ maxTokenCount
  read : ∀ payload, rt.loads body = .ok payload → CountOf (usageValue payload name) n

theorem tokenCount_eq_ok {v : PyJson} {n : Int} (h : tokenCount v = .ok n) :
    (0 ≤ n ∧ n ≤ maxTokenCount) ∧ CountOf v n := by
  -- an integer that is not too large is read as it is
  have hread : ∀ m : Int, ¬ maxTokenCount < m → 0 ≤ max 0 m ∧ max 0 m ≤ maxTokenCount := by
    intro m hm
    exact ⟨le_max_left 0 m, max_le (by decide) (not_lt.mp hm)⟩
  cases v with
  | none =>
    cases h
    exact ⟨⟨le_rfl, by decide⟩, .inl ⟨rfl, rfl⟩⟩
  | int m =>
    rw [tokenCount] at h
    split at h
    · cases h
    · next hm =>
      cases h
      exact ⟨hread m hm, .inr ⟨m, .inl rfl, rfl⟩⟩
  | float f =>
    cases f with
    | finite x =>
      rw [tokenCount] at h
      split at h
      · cases h
      · next hden =>
        split at h
        · cases h
        · next hm =>
          cases h
          have hx : ((x.num : Int) : ℚ) = x := Rat.coe_int_num_of_den_eq_one (not_not.mp hden)
          exact ⟨hread x.num hm, .inr ⟨x.num, .inr (by rw [hx]), rfl⟩⟩
    | infinity negative => cases h
    | nan => cases h
  | bool b => cases h
  | str text => cases h
  | list rows => cases h
  | dict fields => cases h

/-- The payload of an answer is an object, so its model may be asked for. -/
theorem usageOf_eq_ok {payload : PyJson} {usage : List (PyText × PyJson)} (h : usageOf payload = .ok usage) :
    ∃ fields, payload = .dict fields := by
  cases payload with
  | dict fields => exact ⟨fields, rfl⟩
  | _ => cases h

theorem responseModel_dict (fields : List (PyText × PyJson)) (requested : PyText) :
    ∃ model, responseModel (.dict fields) requested = .ok model := by
  rw [responseModel, PyJson.attrGet, bind_ok]
  split
  · exact ⟨_, rfl⟩
  · exact ⟨_, rfl⟩

section Decoding

variable {rt : PyRuntime} {body : List UInt8} {model : PyText}

theorem payloadOf_cases :
    payloadOf rt body = .error (.provider "provider_invalid_json") ∨
      ∃ payload, rt.loads body = .ok payload ∧ payloadOf rt body = .ok payload := by
  rw [payloadOf, PyRuntime.responseJson]
  cases h : rt.loads body with
  | ok payload => exact .inr ⟨payload, rfl, rfl⟩
  | error e =>
    left
    rcases rt.loads_raises body e h with rfl | rfl <;> rfl

/-- **A call answers** if its steps raise shape errors only and what they return is right, on an object. -/
theorem answers_decode {α β : Type} {steps : PyJson → Py α} {finish : α → PyText → β} {P : β → Prop}
    (hshape : ∀ payload, Shaped (steps payload))
    (hP : ∀ payload a, rt.loads body = .ok payload → steps payload = .ok a →
      (∃ usage, usageOf payload = .ok usage) ∧ ∀ named, P (finish a named)) :
    AnswersOrRaises P (do
      let payload ← payloadOf rt body
      let answer ← unexpectedShape (steps payload)
      let named ← responseModel payload model
      .ok (finish answer named)) := by
  rcases @payloadOf_cases rt body with hbody | ⟨payload, hload, hbody⟩
  · rw [hbody]
    exact .inl ⟨_, rfl⟩
  · rw [hbody, bind_ok]
    cases hsteps : steps payload with
    | error e =>
      have hmapped : unexpectedShape (.error e : Py α) = .error (.provider "provider_unexpected_shape") :=
        if_pos (hshape payload e hsteps)
      rw [hmapped]
      exact .inl ⟨_, rfl⟩
    | ok a =>
      obtain ⟨⟨usage, husage⟩, hfinish⟩ := hP payload a hload hsteps
      obtain ⟨fields, rfl⟩ := usageOf_eq_ok husage
      obtain ⟨named, hnamed⟩ := responseModel_dict fields model
      refine .inr ⟨finish a named, ?_, hfinish named⟩
      change (responseModel (.dict fields) model >>= fun named => Except.ok (finish a named)) = _
      rw [hnamed, bind_ok]

theorem counted_of_tokenCount {payload : PyJson} {usage : List (PyText × PyJson)} {name : PyText} {n : Int}
    (hload : rt.loads body = .ok payload) (husage : usageOf payload = .ok usage)
    (h : tokenCount (PyJson.get usage name) = .ok n) : UsageCount rt body name n := by
  obtain ⟨⟨hnonneg, hle⟩, hread⟩ := tokenCount_eq_ok h
  refine ⟨hnonneg, hle, fun payload' hload' => ?_⟩
  cases hload.symm.trans hload'
  rw [usageValue, husage]
  exact hread

end Decoding

/-! ## Costs -/

/-- A reported cost is none, or within the cap. -/
def CostOk (cost : Option Int) : Prop := ∀ micros, cost = some micros → 0 ≤ micros ∧ micros ≤ 10 ^ 10

theorem costOk_none : CostOk none := nofun

theorem usdToMicros_ok {rt : PyRuntime} {v : PyJson} {cost : Option Int} (h : usdToMicros rt v = .ok cost) :
    CostOk cost := by
  obtain ⟨text, -, h⟩ := bind_eq_ok.mp h
  obtain ⟨amount, -, h⟩ := bind_eq_ok.mp h
  split at h
  · cases h
    exact costOk_none
  · next usd _ =>
    split at h
    · cases h
      exact costOk_none
    · next hin =>
      cases h
      rw [not_or, not_lt, not_lt, costCapUsd] at hin
      obtain ⟨hnonneg, hle⟩ := hin
      intro micros hmicros
      cases hmicros
      have habs : |usd * 1000000| < 10 ^ 24 := by
        rw [abs_of_nonneg (by linarith)]
        norm_num
        linarith
      -- the cap has no digits behind the point, so rounding does not pass it
      obtain ⟨hlo, hhi⟩ := decimalContext_bounds habs 0 (10 ^ 14) (by norm_num; linarith) (by norm_num; linarith)
      constructor
      · exact le_halfEven (by simpa using hlo)
      · exact halfEven_le (by push_cast; refine hhi.trans (by norm_num))

theorem costMicros_ok {rt : PyRuntime} {apiRoot : String} {usage : List (PyText × PyJson)} {cost : Option Int}
    (h : costMicros rt apiRoot usage = .ok cost) : CostOk cost := by
  rw [costMicros] at h
  split at h
  · cases h
    exact costOk_none
  · split at h
    · cases h
      exact costOk_none
    · exact usdToMicros_ok h

/-! ## Calls -/

/-- A synthesized id is new where one may be asked for. -/
def FreshOn (rt : PyRuntime) (ids : List PyText) : Prop :=
  ∀ k < ids.length, synthesizedId rt (ids.take k) ∉ ids.take k

/-- Ids that providers take, no two of them alike. -/
structure CallsOk (rt : PyRuntime) (toolCalls : List NeutralCall) : Prop where
  safe : ∀ call ∈ toolCalls, safeToolCallId call.id
  distinct : FreshOn rt (toolCalls.map NeutralCall.id) → (toolCalls.map NeutralCall.id).Nodup

structure CallsRead.Sound (rt : PyRuntime) (calls : CallsRead) : Prop where
  seen_eq : calls.seen = calls.toolCalls.map NeutralCall.id
  ok : CallsOk rt calls.toolCalls

theorem printable_of_mem {cs : List Char} (h : cs.all (fun c => (PyChar.char c).printable) = true) {c : Char}
    (hc : c ∈ cs) : (PyChar.char c).printable = true :=
  List.all_eq_true.mp h c hc

theorem synthesizedId_safe (rt : PyRuntime) (seen : List PyText) : safeToolCallId (synthesizedId rt seen) := by
  have hlen : (synthesizedId rt seen).length = 29 := by
    rw [synthesizedId, pyText, List.length_map, List.length_append, List.length_take, rt.uuidHex_length]
    rfl
  refine ⟨by omega, by omega, fun c hc => ?_⟩
  rw [synthesizedId, pyText] at hc
  obtain ⟨d, hd, rfl⟩ := List.mem_map.mp hc
  rcases List.mem_append.mp hd with hd | hd
  · exact printable_of_mem (by decide) hd
  · exact printable_of_mem (by decide) (rt.uuidHex_digits seen d (List.mem_of_mem_take hd))

theorem toolCallId_cases (rt : PyRuntime) (raw : PyJson) (seen : List PyText) :
    (safeToolCallId (toolCallId rt raw seen) ∧ toolCallId rt raw seen ∉ seen) ∨
      toolCallId rt raw seen = synthesizedId rt seen := by
  cases raw with
  | str id =>
    rw [toolCallId]
    split
    · next h => exact .inl h
    · exact .inr rfl
  | _ => exact .inr rfl

theorem toolCallId_safe (rt : PyRuntime) (raw : PyJson) (seen : List PyText) :
    safeToolCallId (toolCallId rt raw seen) := by
  rcases toolCallId_cases rt raw seen with h | h
  · exact h.1
  · exact h ▸ synthesizedId_safe rt seen

theorem FreshOn.init {rt : PyRuntime} {ids : List PyText} {id : PyText} (h : FreshOn rt (ids ++ [id])) :
    FreshOn rt ids ∧ synthesizedId rt ids ∉ ids := by
  constructor
  · intro k hk
    have := h k (by rw [List.length_append]; omega)
    rwa [List.take_append_of_le_length hk.le] at this
  · have := h ids.length (by rw [List.length_append, List.length_singleton]; omega)
    rwa [List.take_left] at this

/-- **One more call keeps the ids right.** -/
theorem CallsRead.Sound.add {rt : PyRuntime} {calls : CallsRead} (h : calls.Sound rt) (raw : PyJson) (name : PyText)
    (arguments : List (PyText × PyJson)) : (calls.add rt raw name arguments).Sound rt := by
  have hids : (calls.add rt raw name arguments).toolCalls.map NeutralCall.id =
      calls.toolCalls.map NeutralCall.id ++ [toolCallId rt raw calls.seen] := by
    rw [CallsRead.add, List.map_append, List.map_singleton]
  refine ⟨?_, ?_, fun hfresh => ?_⟩
  · rw [hids, ← h.seen_eq]
    rfl
  · intro call hcall
    rcases List.mem_append.mp hcall with hcall | hcall
    · exact h.ok.safe call hcall
    · rw [List.mem_singleton.mp hcall]
      exact toolCallId_safe rt raw calls.seen
  · rw [hids] at hfresh ⊢
    obtain ⟨hbefore, hnew⟩ := hfresh.init
    rw [← h.seen_eq] at hbefore hnew ⊢
    have hnot : toolCallId rt raw calls.seen ∉ calls.seen := by
      rcases toolCallId_cases rt raw calls.seen with hraw | hsynth
      · exact hraw.2
      · exact hsynth ▸ hnew
    have hnodup := h.ok.distinct (h.seen_eq ▸ hbefore)
    rw [← h.seen_eq] at hnodup
    exact List.nodup_append.mpr ⟨hnodup, List.nodup_singleton _, fun a ha b hb heq =>
      hnot (List.mem_singleton.mp hb ▸ heq ▸ ha)⟩

theorem sound_empty (rt : PyRuntime) : ({} : CallsRead).Sound rt := ⟨rfl, nofun, fun _ => List.nodup_nil⟩

theorem parseOpenaiToolCalls_ok {rt : PyRuntime} {message : PyJson} {toolCalls : List NeutralCall}
    (h : parseOpenaiToolCalls rt message = .ok toolCalls) : CallsOk rt toolCalls := by
  obtain ⟨value, -, h⟩ := bind_eq_ok.mp h
  obtain ⟨rows, -, h⟩ := bind_eq_ok.mp h
  obtain ⟨calls, hcalls, h⟩ := bind_eq_ok.mp h
  cases h
  refine (foldlM_invariant (I := CallsRead.Sound rt) ?_ rows hcalls (sound_empty rt)).ok
  intro calls call calls' hstep hsound
  obtain ⟨fn, -, hstep⟩ := bind_eq_ok.mp hstep
  obtain ⟨value, -, hstep⟩ := bind_eq_ok.mp hstep
  obtain ⟨args, -, hstep⟩ := bind_eq_ok.mp hstep
  obtain ⟨raw, -, hstep⟩ := bind_eq_ok.mp hstep
  obtain ⟨value, -, hstep⟩ := bind_eq_ok.mp hstep
  obtain ⟨name, -, hstep⟩ := bind_eq_ok.mp hstep
  cases hstep
  exact hsound.add raw name args

theorem anthropicBlock_sound {rt : PyRuntime} {read read' : CallsRead × List PyText} {block : PyJson}
    (h : anthropicBlock rt read block = .ok read') (hsound : read.1.Sound rt) : read'.1.Sound rt := by
  cases block with
  | dict b =>
    rw [anthropicBlock] at h
    split at h
    · obtain ⟨name, -, h⟩ := bind_eq_ok.mp h
      cases h
      exact hsound.add _ name _
    · split at h
      · obtain ⟨text, -, h⟩ := bind_eq_ok.mp h
        cases h
        exact hsound
      · cases h
        exact hsound
  | _ =>
    cases h
    exact hsound

/-! ## Vectors -/

def FloatIsNumber (f : PyFloat) : Prop := ∃ x, f = .finite x

theorem embeddingNumber_ok {v : PyJson} {f : PyFloat} (h : embeddingNumber v = .ok f) : FloatIsNumber f := by
  cases v with
  | int n =>
    rw [embeddingNumber] at h
    split at h
    · cases h
    · cases h
      exact ⟨_, rfl⟩
  | float g =>
    cases g with
    | finite x =>
      cases h
      exact ⟨x, rfl⟩
    | _ => cases h
  | _ => cases h

theorem embeddingVectors_ok {payload : PyJson} {vectors : List (List PyFloat)}
    (h : embeddingVectors payload = .ok vectors) : ∀ vector ∈ vectors, ∀ f ∈ vector, FloatIsNumber f := by
  cases payload with
  | dict fields =>
    obtain ⟨data, -, h⟩ := bind_eq_ok.mp h
    intro vector hvector
    obtain ⟨row, -, hrow⟩ := (exists_partner (mapM_eq_ok.mp h)).2 vector hvector
    obtain ⟨embedding, -, hnumbers⟩ := bind_eq_ok.mp hrow
    intro f hf
    obtain ⟨v, -, hv⟩ := (exists_partner (mapM_eq_ok.mp hnumbers)).2 f hf
    exact embeddingNumber_ok hv
  | _ => cases h

/-! ## The adapters -/

section Adapters

variable (rt : PyRuntime) (body : List UInt8)

structure ChatOk (promptName completionName : PyText) (r : LlmResponse) : Prop where
  prompt : UsageCount rt body promptName r.promptTokens
  completion : UsageCount rt body completionName r.completionTokens
  cost : CostOk r.costMicros

structure FunctionCallOk (promptName completionName : PyText) (r : FunctionCallResponse) : Prop where
  calls : CallsOk rt r.toolCalls
  prompt : UsageCount rt body promptName r.promptTokens
  completion : UsageCount rt body completionName r.completionTokens
  cost : CostOk r.costMicros

structure EmbedOk (r : EmbedResponse) : Prop where
  vectors : ∀ vector ∈ r.vectors, ∀ f ∈ vector, FloatIsNumber f
  prompt : UsageCount rt body promptName r.promptTokens

variable {cost : List (PyText × PyJson) → Py (Option Int)} (model : PyText)

theorem openaiChatWith_answers (hshape : ∀ usage, Shaped (cost usage))
    (hcost : ∀ usage micros, cost usage = .ok micros → CostOk micros) :
    AnswersOrRaises (ChatOk rt body promptName completionName) (openaiChatWith rt cost model body) := by
  refine answers_decode (fun payload => ?_) fun payload r hload h => ?_
  · exact (shaped_openaiMessageContent payload).bind fun _ _ => (shaped_usageOf payload).bind fun usage _ =>
      (shaped_tokenCount _).bind fun _ _ => (shaped_tokenCount _).bind fun _ _ => (hshape usage).bind fun _ _ =>
        shaped_ok _
  · obtain ⟨content, -, h⟩ := bind_eq_ok.mp h
    obtain ⟨usage, husage, h⟩ := bind_eq_ok.mp h
    obtain ⟨prompt, hprompt, h⟩ := bind_eq_ok.mp h
    obtain ⟨completion, hcompletion, h⟩ := bind_eq_ok.mp h
    obtain ⟨micros, hmicros, h⟩ := bind_eq_ok.mp h
    cases h
    exact ⟨⟨usage, husage⟩, fun named => ⟨counted_of_tokenCount hload husage hprompt,
      counted_of_tokenCount hload husage hcompletion, hcost usage micros hmicros⟩⟩

theorem openaiFunctionCallWith_answers (hshape : ∀ usage, Shaped (cost usage))
    (hcost : ∀ usage micros, cost usage = .ok micros → CostOk micros) :
    AnswersOrRaises (FunctionCallOk rt body promptName completionName) (openaiFunctionCallWith rt cost model body) := by
  refine answers_decode (fun payload => ?_) fun payload r hload h => ?_
  · exact (shaped_firstMessage payload).bind fun message _ => (shaped_parseOpenaiToolCalls rt message).bind fun _ _ =>
      (shaped_attrGet _ message).bind fun _ _ => (shaped_usageOf payload).bind fun usage _ =>
        (shaped_tokenCount _).bind fun _ _ => (shaped_tokenCount _).bind fun _ _ => (hshape usage).bind fun _ _ =>
          shaped_ok _
  · obtain ⟨message, -, h⟩ := bind_eq_ok.mp h
    obtain ⟨toolCalls, hcalls, h⟩ := bind_eq_ok.mp h
    obtain ⟨content, -, h⟩ := bind_eq_ok.mp h
    obtain ⟨usage, husage, h⟩ := bind_eq_ok.mp h
    obtain ⟨prompt, hprompt, h⟩ := bind_eq_ok.mp h
    obtain ⟨completion, hcompletion, h⟩ := bind_eq_ok.mp h
    obtain ⟨micros, hmicros, h⟩ := bind_eq_ok.mp h
    cases h
    exact ⟨⟨usage, husage⟩, fun named => ⟨parseOpenaiToolCalls_ok hcalls, counted_of_tokenCount hload husage hprompt,
      counted_of_tokenCount hload husage hcompletion, hcost usage micros hmicros⟩⟩

theorem openaiEmbedding_answers : AnswersOrRaises (EmbedOk rt body) (openaiEmbedding rt model body) := by
  refine answers_decode (fun payload => ?_) fun payload r hload h => ?_
  · exact (shaped_embeddingVectors payload).bind fun _ _ => (shaped_usageOf payload).bind fun _ _ =>
      (shaped_tokenCount _).bind fun _ _ => shaped_ok _
  · obtain ⟨vectors, hvectors, h⟩ := bind_eq_ok.mp h
    obtain ⟨usage, husage, h⟩ := bind_eq_ok.mp h
    obtain ⟨prompt, hprompt, h⟩ := bind_eq_ok.mp h
    cases h
    exact ⟨⟨usage, husage⟩, fun named => ⟨embeddingVectors_ok hvectors, counted_of_tokenCount hload husage hprompt⟩⟩

theorem anthropicChat_answers : AnswersOrRaises (ChatOk rt body inputName outputName) (anthropicChat rt model body) := by
  refine answers_decode (fun payload => ?_) fun payload r hload h => ?_
  · exact (shaped_contentBlocks payload).bind fun blocks _ =>
      (Shaped.mapM (fun b => shaped_textOrEmpty _) (textBlocks blocks)).bind fun _ _ =>
        (shaped_usageOf payload).bind fun _ _ => (shaped_tokenCount _).bind fun _ _ =>
          (shaped_tokenCount _).bind fun _ _ => shaped_ok _
  · obtain ⟨blocks, -, h⟩ := bind_eq_ok.mp h
    obtain ⟨texts, -, h⟩ := bind_eq_ok.mp h
    obtain ⟨usage, husage, h⟩ := bind_eq_ok.mp h
    obtain ⟨prompt, hprompt, h⟩ := bind_eq_ok.mp h
    obtain ⟨completion, hcompletion, h⟩ := bind_eq_ok.mp h
    cases h
    exact ⟨⟨usage, husage⟩, fun named => ⟨counted_of_tokenCount hload husage hprompt,
      counted_of_tokenCount hload husage hcompletion, costOk_none⟩⟩

theorem anthropicFunctionCall_answers :
    AnswersOrRaises (FunctionCallOk rt body inputName outputName) (anthropicFunctionCall rt model body) := by
  refine answers_decode (fun payload => ?_) fun payload r hload h => ?_
  · exact (shaped_contentBlocks payload).bind fun blocks _ =>
      (Shaped.foldlM (shaped_anthropicBlock rt) blocks ({}, [])).bind fun _ _ =>
        (shaped_usageOf payload).bind fun _ _ => (shaped_tokenCount _).bind fun _ _ =>
          (shaped_tokenCount _).bind fun _ _ => shaped_ok _
  · obtain ⟨blocks, -, h⟩ := bind_eq_ok.mp h
    obtain ⟨read, hread, h⟩ := bind_eq_ok.mp h
    obtain ⟨usage, husage, h⟩ := bind_eq_ok.mp h
    obtain ⟨prompt, hprompt, h⟩ := bind_eq_ok.mp h
    obtain ⟨completion, hcompletion, h⟩ := bind_eq_ok.mp h
    cases h
    have hsound : read.1.Sound rt :=
      foldlM_invariant (I := fun read => CallsRead.Sound rt read.1)
        (fun _ _ _ hstep hbefore => anthropicBlock_sound hstep hbefore) blocks hread (sound_empty rt)
    exact ⟨⟨usage, husage⟩, fun named => ⟨hsound.ok, counted_of_tokenCount hload husage hprompt,
      counted_of_tokenCount hload husage hcompletion, costOk_none⟩⟩

/-- **Whatever a provider sends, each adapter returns a well-formed answer or raises its one exception.** -/
theorem provider_bodies_answered (apiRoot : String) :
    AnswersOrRaises (ChatOk rt body inputName outputName) (anthropicChat rt model body) ∧
    AnswersOrRaises (FunctionCallOk rt body inputName outputName) (anthropicFunctionCall rt model body) ∧
    AnswersOrRaises (ChatOk rt body promptName completionName) (openaiChat rt model body) ∧
    AnswersOrRaises (FunctionCallOk rt body promptName completionName) (openaiFunctionCall rt model body) ∧
    AnswersOrRaises (EmbedOk rt body) (openaiEmbed rt model body) ∧
    AnswersOrRaises (ChatOk rt body promptName completionName) (compatibleChat rt apiRoot model body) ∧
    AnswersOrRaises (FunctionCallOk rt body promptName completionName) (compatibleFunctionCall rt apiRoot model body) ∧
    AnswersOrRaises (EmbedOk rt body) (compatibleEmbed rt model body) := by
  have hnoCost : ∀ (usage : List (PyText × PyJson)) micros, (.ok none : Py (Option Int)) = .ok micros → CostOk micros := by
    intro usage micros h
    cases h
    exact costOk_none
  refine ⟨anthropicChat_answers rt body model, anthropicFunctionCall_answers rt body model,
    openaiChatWith_answers rt body model (fun _ => shaped_ok none) hnoCost,
    openaiFunctionCallWith_answers rt body model (fun _ => shaped_ok none) hnoCost,
    openaiEmbedding_answers rt body _,
    openaiChatWith_answers rt body model (shaped_costMicros rt apiRoot) fun _ _ => costMicros_ok,
    openaiFunctionCallWith_answers rt body model (shaped_costMicros rt apiRoot) fun _ _ => costMicros_ok, ?_⟩
  rw [compatibleEmbed]
  split
  · exact .inl ⟨_, rfl⟩
  · exact openaiEmbedding_answers rt body model

end Adapters

end BetterDecision
