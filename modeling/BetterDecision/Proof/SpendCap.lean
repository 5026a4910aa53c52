import BetterDecision.Model.SpendCap
import BetterDecision.Lib.Runs

/-!
# The projection of a structured call

A call is projected at its first attempt, three times over. Every attempt after a failed one sends
a message more, so it may bill more than the first, and the three together more than was
projected. They do not where the two extra messages are lost in the rounding up to a micro.
-/

namespace BetterDecision

variable {model : String} {messages : List ChatMessage} {maxTokens : Option Nat} {replies : List AdapterReply}

/-! ## What an attempt may bill -/

/-- The worst an attempt that sends these messages is assumed to bill. -/
def attemptCost (model : String) (maxTokens : Option Nat) (messages : List ChatMessage) : Int :=
  estimateCostMicros model (estimatePromptTokens messages) (completionCeiling model maxTokens)

/-- No attempt bills more than the messages it was sent and the output ceiling come to. -/
def BillsWithin (model : String) (maxTokens : Option Nat) : Nat → List ChatMessage → List AdapterReply → Prop
  | attempts + 1, messages, .answered promptTokens completionTokens reported valid :: replies =>
    callCostMicros model promptTokens completionTokens reported ≤ attemptCost model maxTokens messages ∧
      (valid = false → BillsWithin model maxTokens attempts (messages ++ [retryMessage]) replies)
  | _, _, _ => True

/-- A structured call bills within its projection, so an org that is admitted stays within its cap. -/
structure ConservativeGate (model : String) (messages : List ChatMessage) (maxTokens : Option Nat) : Prop where
  within : ∀ replies, BillsWithin model maxTokens (structuredOutputMaxRetries + 1) messages replies →
    callLlmStructuredCost model messages replies ≤
      projectedCostMicros model messages maxTokens (structuredOutputMaxRetries + 1)
  underCap : ∀ cap costSoFar replies,
    enforceCap (some cap) costSoFar model messages maxTokens (structuredOutputMaxRetries + 1) = .ok () →
    BillsWithin model maxTokens (structuredOutputMaxRetries + 1) messages replies →
    costSoFar + callLlmStructuredCost model messages replies ≤ cap

/-! ## More messages cost no less -/

variable (messages) in
theorem estimatePromptTokens_append (more : List ChatMessage) :
    estimatePromptTokens messages ≤ estimatePromptTokens (messages ++ more) := by
  unfold estimatePromptTokens
  rw [List.map_append, List.sum_append]
  omega

/-- The price of natural numbers of tokens, rounded up. -/
theorem estimateCostMicros_natCast (prompt completion : Nat) :
    estimateCostMicros model prompt completion =
      -(-((prompt * (getPricing model).promptPer1mCents + completion * (getPricing model).completionPer1mCents : Nat) :
        Int) / 100) := by
  unfold estimateCostMicros
  dsimp only
  split
  · rename_i hzero
    obtain ⟨rfl, rfl⟩ : prompt = 0 ∧ completion = 0 := by omega
    simp
  · push_cast
    rfl

theorem attemptCost_mono (more : List ChatMessage) :
    attemptCost model maxTokens messages ≤ attemptCost model maxTokens (messages ++ more) := by
  unfold attemptCost
  rw [estimateCostMicros_natCast, estimateCostMicros_natCast]
  have htokens := Nat.mul_le_mul_right (getPricing model).promptPer1mCents
    (estimatePromptTokens_append messages more)
  omega

theorem attemptCost_nonneg : 0 ≤ attemptCost model maxTokens messages := by
  unfold attemptCost
  rw [estimateCostMicros_natCast]
  omega

theorem projectedCost_eq :
    projectedCostMicros model messages maxTokens (structuredOutputMaxRetries + 1) =
      3 * attemptCost model maxTokens messages := by
  unfold projectedCostMicros attemptCost structuredOutputMaxRetries
  push_cast
  ring

/-! ## The attempts -/

/-- The attempts together bill no more than each at its worst. -/
theorem structuredCost_le (attempts : Nat) (messages : List ChatMessage) (replies : List AdapterReply)
    (h : BillsWithin model maxTokens attempts messages replies) :
    structuredCost model attempts messages replies ≤
      ((List.range attempts).map fun i => attemptCost model maxTokens (messages ++ List.replicate i retryMessage)).sum := by
  induction attempts generalizing messages replies with
  | zero => exact le_of_eq (by cases replies <;> rfl)
  | succ attempts ih =>
    have hshift : ∀ i, (messages ++ [retryMessage]) ++ List.replicate i retryMessage =
        messages ++ List.replicate (i + 1) retryMessage := by
      intro i
      rw [List.append_assoc, List.replicate_succ]
      rfl
    have hnonneg : 0 ≤ ((List.range attempts).map
        fun i => attemptCost model maxTokens (messages ++ List.replicate (i + 1) retryMessage)).sum := by
      refine List.sum_nonneg fun x hx => ?_
      obtain ⟨i, -, rfl⟩ := List.mem_map.mp hx
      exact attemptCost_nonneg
    rw [List.range_succ_eq_map, List.map_cons, List.map_map, List.sum_cons, List.replicate_zero, List.append_nil]
    have hfirst : 0 ≤ attemptCost model maxTokens messages := attemptCost_nonneg
    cases replies with
    | nil => exact add_nonneg hfirst hnonneg
    | cons reply replies =>
      cases reply with
      | failed => exact add_nonneg hfirst hnonneg
      | answered prompt completion reported valid =>
        obtain ⟨hbill, hrest⟩ := h
        cases valid with
        | true =>
          show callCostMicros model prompt completion reported + 0 ≤ _
          exact add_le_add hbill hnonneg
        | false =>
          have hlater := ih (messages ++ [retryMessage]) replies (hrest rfl)
          simp only [hshift] at hlater
          exact add_le_add hbill hlater

/-- The provider that always bills the worst and never answers in the schema. -/
def worstReplies (model : String) (maxTokens : Option Nat) (messages : List ChatMessage) : List AdapterReply :=
  (List.range 3).map fun i =>
    .answered 0 0 (some (attemptCost model maxTokens (messages ++ List.replicate i retryMessage))) false

variable (model messages maxTokens) in
theorem worstReplies_within : BillsWithin model maxTokens 3 messages (worstReplies model maxTokens messages) ∧
    structuredCost model 3 messages (worstReplies model maxTokens messages) =
      attemptCost model maxTokens messages + (attemptCost model maxTokens (messages ++ [retryMessage]) +
        attemptCost model maxTokens (messages ++ [retryMessage, retryMessage])) := by
  have hcost : ∀ sent, callCostMicros model 0 0 (some (attemptCost model maxTokens sent)) =
      attemptCost model maxTokens sent := fun sent => max_eq_right attemptCost_nonneg
  have hreplies : worstReplies model maxTokens messages =
      [.answered 0 0 (some (attemptCost model maxTokens messages)) false,
        .answered 0 0 (some (attemptCost model maxTokens (messages ++ [retryMessage]))) false,
        .answered 0 0 (some (attemptCost model maxTokens (messages ++ [retryMessage, retryMessage]))) false] := by
    unfold worstReplies
    simp [List.range_succ, List.replicate_succ]
  have htwice : (messages ++ [retryMessage]) ++ [retryMessage] = messages ++ [retryMessage, retryMessage] := by simp
  rw [hreplies]
  simp only [BillsWithin, structuredCost, hcost, htwice]
  refine ⟨⟨le_rfl, fun _ => ⟨le_rfl, fun _ => ⟨le_rfl, fun _ => trivial⟩⟩⟩, ?_⟩
  simp

theorem chars_retryMessage : retryMessage.chars = 86 := by decide +kernel

variable (messages) in
/-- Two retry messages are 49 tokens at least. -/
theorem estimatePromptTokens_retries :
    estimatePromptTokens messages + 49 ≤ estimatePromptTokens (messages ++ [retryMessage, retryMessage]) := by
  have hchars : (([retryMessage, retryMessage]).map ChatMessage.chars).sum = 172 := by
    simp [chars_retryMessage]
  unfold estimatePromptTokens
  rw [List.map_append, List.sum_append, hchars]
  omega

/-- **A structured call stays within its projection iff the two retry messages cost nothing once
rounded**, which takes a model whose prompt costs less than three cents a million tokens. -/
theorem structured_gate_conservative_iff (model : String) (messages : List ChatMessage) (maxTokens : Option Nat) :
    (ConservativeGate model messages maxTokens ↔
      attemptCost model maxTokens (messages ++ [retryMessage, retryMessage]) = attemptCost model maxTokens messages) ∧
    (3 ≤ (getPricing model).promptPer1mCents → ¬ ConservativeGate model messages maxTokens) := by
  have hfirst : attemptCost model maxTokens messages ≤ attemptCost model maxTokens (messages ++ [retryMessage]) :=
    attemptCost_mono _
  have htwice : (messages ++ [retryMessage]) ++ [retryMessage] = messages ++ [retryMessage, retryMessage] := by simp
  have hsecond : attemptCost model maxTokens (messages ++ [retryMessage]) ≤
      attemptCost model maxTokens (messages ++ [retryMessage, retryMessage]) := htwice ▸ attemptCost_mono _
  have hiff : ConservativeGate model messages maxTokens ↔
      attemptCost model maxTokens (messages ++ [retryMessage, retryMessage]) = attemptCost model maxTokens messages := by
    constructor
    · intro h
      obtain ⟨hwithin, hcost⟩ := worstReplies_within model messages maxTokens
      have hle := h.within _ hwithin
      rw [projectedCost_eq] at hle
      have hle : structuredCost model 3 messages (worstReplies model maxTokens messages) ≤
        3 * attemptCost model maxTokens messages := hle
      omega
    · intro heq
      have hwithin : ∀ replies, BillsWithin model maxTokens (structuredOutputMaxRetries + 1) messages replies →
          callLlmStructuredCost model messages replies ≤
            projectedCostMicros model messages maxTokens (structuredOutputMaxRetries + 1) := by
        intro replies hbills
        have hsum := structuredCost_le _ messages replies hbills
        have hthree : ((List.range (structuredOutputMaxRetries + 1)).map
            fun i => attemptCost model maxTokens (messages ++ List.replicate i retryMessage)).sum =
              attemptCost model maxTokens messages + (attemptCost model maxTokens (messages ++ [retryMessage]) +
                attemptCost model maxTokens (messages ++ [retryMessage, retryMessage])) := by
          simp [structuredOutputMaxRetries, List.range_succ, List.replicate_succ]
        rw [hthree] at hsum
        rw [projectedCost_eq]
        unfold callLlmStructuredCost
        omega
      refine ⟨hwithin, fun cap costSoFar replies hadmitted hbills => ?_⟩
      have hbilled := hwithin replies hbills
      simp only [enforceCap] at hadmitted
      split at hadmitted
      · cases hadmitted
      · omega
  refine ⟨hiff, fun hprice h => ?_⟩
  have heq := hiff.mp h
  unfold attemptCost at heq
  rw [estimateCostMicros_natCast, estimateCostMicros_natCast] at heq
  have htokens := estimatePromptTokens_retries messages
  have hmore := Nat.mul_le_mul_right (getPricing model).promptPer1mCents htokens
  rw [Nat.add_mul] at hmore
  have hdear : 147 ≤ 49 * (getPricing model).promptPer1mCents := by omega
  omega

/-- A call admitted under a cap of exactly its projection bills more. -/
theorem structured_call_over_cap :
    enforceCap (some 339) 0 "gpt-4o" [.dict (.text "Sum up my month") 0] (some 10) 3 = .ok () ∧
      BillsWithin "gpt-4o" (some 10) 3 [.dict (.text "Sum up my month") 0]
        (worstReplies "gpt-4o" (some 10) [.dict (.text "Sum up my month") 0]) ∧
      callLlmStructuredCost "gpt-4o" [.dict (.text "Sum up my month") 0]
        (worstReplies "gpt-4o" (some 10) [.dict (.text "Sum up my month") 0]) = 521 := by
  refine ⟨by decide +kernel, (worstReplies_within _ _ _).1, by decide +kernel⟩

end BetterDecision
