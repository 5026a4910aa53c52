import BetterDecision.Model.LoanForecast
import BetterDecision.Model.PyValues

/-!
# Refining a forecast

What `refine_forecast` does with the model's answer: `_coerce_adjustments` makes whatever
JSON came back fit `AIForecastAdjustments`, and `_apply_adjustments` multiplies the
baseline. An amount is its cents; a multiplier is the number its float stands for.
-/

namespace BetterDecision

/-! ## The baseline -/

structure BaselineCategory where
  categoryId : Int
  categoryName : PyText
  forecast : Int

/-- The part of `compute_forecast` that is refined. -/
structure RefineBaseline where
  categories : List BaselineCategory
  forecastExpense : Int
  forecastIncome : Int
  distinct : (categories.map (·.categoryId)).Nodup
  /-- They sum up fewer than `2 ^ 40` rows of at most twelve digits, so no sum is rounded. -/
  bounded : (categories.map (fun c => |c.forecast|)).sum < 10 ^ 25

/-! ## Adjustments -/

/-- What a constrained `StrictStr` takes: a text that is Unicode, of a bounded length. -/
def StrictText (maxLength : Nat) (text : PyText) : Prop := (∀ c ∈ text, c.char?.isSome) ∧ text.length ≤ maxLength

instance (maxLength : Nat) (text : PyText) : Decidable (StrictText maxLength text) :=
  inferInstanceAs (Decidable (_ ∧ _))

structure SeasonalAdjustment where
  categoryId : Int
  categoryName : PyText
  multiplier : ℚ
  rationale : PyText

def SeasonalAdjustment.Valid (a : SeasonalAdjustment) : Prop :=
  (1 / 2 ≤ a.multiplier ∧ a.multiplier ≤ 3 / 2) ∧ StrictText 240 a.rationale

instance (a : SeasonalAdjustment) : Decidable a.Valid := inferInstanceAs (Decidable (_ ∧ _))

inductive AnomalySeverity
  | info
  | warning
  | alert
  deriving DecidableEq

structure AnomalyFlag where
  categoryId : Option Int
  categoryName : PyText
  description : PyText
  severity : AnomalySeverity

def AnomalyFlag.Valid (a : AnomalyFlag) : Prop := StrictText 240 a.description

instance (a : AnomalyFlag) : Decidable a.Valid := inferInstanceAs (Decidable (StrictText _ _))

/-- What `_coerce_adjustments` returns. -/
structure CoercedAdjustments where
  seasonal : List SeasonalAdjustment
  anomalies : List AnomalyFlag
  confidence : ℚ
  summary : PyText

/-- `AIForecastAdjustments`. -/
structure AIForecastAdjustments extends CoercedAdjustments where
  seasonal_valid : ∀ a ∈ seasonal, a.Valid
  seasonal_length : seasonal.length ≤ 200
  anomalies_valid : ∀ a ∈ anomalies, a.Valid
  anomalies_length : anomalies.length ≤ 60
  confidence_band : 0 ≤ confidence ∧ confidence ≤ 1
  summary_ok : StrictText 480 summary

/-- `AIForecastAdjustments.model_validate`, or `ValidationError`. -/
def modelValidate (c : CoercedAdjustments) : Option AIForecastAdjustments :=
  if h : (∀ a ∈ c.seasonal, a.Valid) ∧ c.seasonal.length ≤ 200 ∧ (∀ a ∈ c.anomalies, a.Valid) ∧
      c.anomalies.length ≤ 60 ∧ (0 ≤ c.confidence ∧ c.confidence ≤ 1) ∧ StrictText 480 c.summary then
    some { c with seasonal_valid := h.1, seasonal_length := h.2.1, anomalies_valid := h.2.2.1
                  anomalies_length := h.2.2.2.1, confidence_band := h.2.2.2.2.1, summary_ok := h.2.2.2.2.2 }
  else none

/-! ## Coercion -/

section Keys

def seasonalKey : PyText := pyText ['s', 'e', 'a', 's', 'o', 'n', 'a', 'l']

def anomaliesKey : PyText := pyText ['a', 'n', 'o', 'm', 'a', 'l', 'i', 'e', 's']

def confidenceKey : PyText := pyText ['c', 'o', 'n', 'f', 'i', 'd', 'e', 'n', 'c', 'e']

def summaryKey : PyText := pyText ['s', 'u', 'm', 'm', 'a', 'r', 'y']

def categoryIdKey : PyText := pyText ['c', 'a', 't', 'e', 'g', 'o', 'r', 'y', '_', 'i', 'd']

def categoryNameKey : PyText := pyText ['c', 'a', 't', 'e', 'g', 'o', 'r', 'y', '_', 'n', 'a', 'm', 'e']

def multiplierKey : PyText := pyText ['m', 'u', 'l', 't', 'i', 'p', 'l', 'i', 'e', 'r']

def rationaleKey : PyText := pyText ['r', 'a', 't', 'i', 'o', 'n', 'a', 'l', 'e']

def descriptionKey : PyText := pyText ['d', 'e', 's', 'c', 'r', 'i', 'p', 't', 'i', 'o', 'n']

def severityKey : PyText := pyText ['s', 'e', 'v', 'e', 'r', 'i', 't', 'y']

end Keys

/-- `RESPONSE_JSON_SCHEMA["required"]`, the keys of an answer `_validate_json_against_schema` lets
through. -/
def requiredKeys : List PyText := [seasonalKey, anomaliesKey, confidenceKey, summaryKey]

/-- `_validate_json_against_schema` finds nothing. -/
def PassesSchema : PyJson → Prop
  | .dict fields => ∀ key ∈ requiredKeys, key ∈ fields.map Prod.fst
  | _ => False

/-- `_as_float`: what is no float, or none that is a number, is the default. -/
def asFloat (v : PyJson) (default : ℚ) : Except PyError ℚ :=
  match v.toFloat with
  | .ok (.finite x) => .ok x
  | .ok _ => .ok default
  | .error .overflow => .error .overflow
  | .error _ => .ok default

/-- `_clamp`. -/
def clampTo (x lo hi : ℚ) : ℚ := max lo (min hi x)

/-- `name if isinstance(name, str) else ""`. -/
def nameOf (fields : List (PyText × PyJson)) : PyText :=
  match PyJson.get fields categoryNameKey with
  | .str name => name
  | _ => []

variable (repr : PyJson → PyText)

/-- A row of the seasonal list; none if it is skipped. -/
def coerceSeasonal : PyJson → Except PyError (Option SeasonalAdjustment)
  | .dict fields =>
    match (PyJson.get fields categoryIdKey).toInt with
    | .error .overflow => .error .overflow
    -- no id, or none that `int` reads
    | .error _ => .ok none
    | .ok categoryId =>
      let categoryName := nameOf fields
      if categoryName = [] then .ok none
      else do
        let multiplier ← asFloat (PyJson.get fields multiplierKey) 1
        .ok (some { categoryId, categoryName, multiplier := clampTo multiplier (1 / 2) (3 / 2)
                    rationale := (PyJson.get fields rationaleKey).shown repr 240 })
  | _ => .ok none

/-- Anything else is an `info`. -/
def severityOf : PyJson → AnomalySeverity
  | .str text =>
    if text = pyText ['w', 'a', 'r', 'n', 'i', 'n', 'g'] then .warning
    else if text = pyText ['a', 'l', 'e', 'r', 't'] then .alert
    else .info
  | _ => .info

/-- The id of an anomaly, which may have none. -/
def anomalyId (v : PyJson) : Except PyError (Option Int) :=
  match v.toInt with
  | .ok n => .ok (some n)
  | .error .overflow => .error .overflow
  | .error _ => .ok none

/-- A row of the anomalies; none if it is skipped. -/
def coerceAnomaly : PyJson → Except PyError (Option AnomalyFlag)
  | .dict fields =>
    let categoryName := nameOf fields
    if categoryName = [] then .ok none
    else do
      let categoryId ← anomalyId (PyJson.get fields categoryIdKey)
      .ok (some { categoryId, categoryName, description := (PyJson.get fields descriptionKey).shown repr 240
                  severity := severityOf (PyJson.get fields severityKey) })
  | _ => .ok none

/-- The fields of the answer. -/
def answerFields : PyJson → List (PyText × PyJson)
  | .dict fields => fields
  | _ => []

/-- `_coerce_adjustments`. -/
def coerceAdjustments (parsed : PyJson) : Except PyError CoercedAdjustments := do
  let fields := answerFields parsed
  let seasonal ← (← (PyJson.get fields seasonalKey).rowsOf).mapM (coerceSeasonal repr)
  let anomalies ← (← (PyJson.get fields anomaliesKey).rowsOf).mapM (coerceAnomaly repr)
  let confidence ← asFloat (PyJson.get fields confidenceKey) (1 / 2)
  .ok { seasonal := seasonal.reduceOption.take 200
        anomalies := anomalies.reduceOption.take 60
        confidence := clampTo confidence 0 1
        summary := (PyJson.get fields summaryKey).shown repr 480 }

/-! ## Application -/

/-- `Decimal(str(multiplier))` of a multiplier in the band: the fewest digits behind the point
that are read as the same float. -/
def decimalOfFloat (x : ℚ) : ℚ :=
  let digits (n : Nat) : ℚ := halfEven (x * 10 ^ n) / 10 ^ n
  match (List.range' 1 16).find? (fun n => roundDouble (digits n) = x) with
  | some n => digits n
  | none => digits 17

structure RefinedCategoryRow where
  categoryId : Int
  categoryName : PyText
  baselineForecast : Int
  multiplier : ℚ
  refinedForecast : Int

/-- `(baseline_amount * Decimal(str(multiplier))).quantize(Decimal("0.01"), ROUND_HALF_UP)`. -/
def refineAmount (baselineAmount : Int) (multiplier : ℚ) : Int :=
  quantizeCents (decimalContext ((baselineAmount : ℚ) / 100 * decimalOfFloat multiplier))

/-- The sum of two amounts, as the `Decimal` context keeps it. -/
def addAmounts (a b : Int) : Int := ⌊decimalContext (((a : ℚ) + b) / 100) * 100⌋

/-- The adjustment a category gets: the last one under its id. -/
def adjustmentFor (seasonal : List SeasonalAdjustment) (categoryId : Int) : Option SeasonalAdjustment :=
  seasonal.reverse.find? (fun a => a.categoryId = categoryId)

def refineRow (seasonal : List SeasonalAdjustment) (cat : BaselineCategory) : RefinedCategoryRow :=
  match adjustmentFor seasonal cat.categoryId with
  | none =>
    { categoryId := cat.categoryId, categoryName := cat.categoryName, baselineForecast := cat.forecast
      multiplier := 1, refinedForecast := cat.forecast }
  | some a =>
    { categoryId := cat.categoryId, categoryName := cat.categoryName, baselineForecast := cat.forecast
      multiplier := a.multiplier, refinedForecast := refineAmount cat.forecast a.multiplier }

structure RefinedForecastResponse where
  baselineForecastExpense : Int
  refinedForecastExpense : Int
  baselineForecastIncome : Int
  refinedForecastIncome : Int
  categories : List RefinedCategoryRow
  anomalies : List AnomalyFlag
  fallbackReason : Option String
  confidence : Option ℚ
  summary : Option PyText
  /-- The adjustments for categories the baseline does not have. -/
  ignored : List SeasonalAdjustment

/-- `_baseline_response`. -/
def baselineResponse (baseline : RefineBaseline) (fallbackReason : String) : RefinedForecastResponse where
  baselineForecastExpense := baseline.forecastExpense
  refinedForecastExpense := baseline.forecastExpense
  baselineForecastIncome := baseline.forecastIncome
  refinedForecastIncome := baseline.forecastIncome
  categories := baseline.categories.map (refineRow [])
  anomalies := []
  fallbackReason := some fallbackReason
  confidence := none
  summary := none
  ignored := []

/-- `_apply_adjustments`, and the response around it. -/
def refinedResponse (baseline : RefineBaseline) (adjustments : AIForecastAdjustments) : RefinedForecastResponse :=
  let rows := baseline.categories.map (refineRow adjustments.seasonal)
  { baselineForecastExpense := baseline.forecastExpense
    refinedForecastExpense := rows.foldl (fun total row => addAmounts total row.refinedForecast) 0
    baselineForecastIncome := baseline.forecastIncome
    refinedForecastIncome := baseline.forecastIncome
    categories := rows
    anomalies := adjustments.anomalies
    fallbackReason := none
    confidence := some adjustments.confidence
    summary := some adjustments.summary
    ignored := adjustments.seasonal.filter
      (fun a => a.categoryId ∉ baseline.categories.map (·.categoryId)) }

/-- `refine_forecast`, from the answer on. Only the validation error is caught. -/
def refineForecast (baseline : RefineBaseline) (parsed : PyJson) : Except PyError RefinedForecastResponse := do
  let coerced ← coerceAdjustments repr parsed
  match modelValidate coerced with
  | none => .ok (baselineResponse baseline "ai_response_invalid_schema")
  | some adjustments => .ok (refinedResponse baseline adjustments)

end BetterDecision
