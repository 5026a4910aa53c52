import BetterDecision.Model.ScenarioEngine

/-!
# The retirement branch of the scenario engine

`AnalyticEngine.simulate` of a retirement scenario, without the regression overlay;
`_retirement_verdict`; and what `_compute_suggestions` does for such a scenario. The loop passes over
the overlay events of a retirement, so they are left out, and no filter silences a template.
-/

namespace BetterDecision

open Calendar

/-- `none` is a date that does not parse. -/
structure RetirementParams where
  targetRetirementDate : Option Int
  monthlyContribution : ℚ := 0
  contributionAccountId : Option Nat
  targetBalance : ℚ := 0
  annualReturnPct : ℚ := 0
  inflationPct : ℚ := 0
  contributionCurve : List (Option Int × ℚ) := []

def RetirementParams.monthlyReturn (params : RetirementParams) : ℚ := params.annualReturnPct / 100 / 12

def RetirementParams.monthlyInflation (params : RetirementParams) : ℚ := params.inflationPct / 100 / 12

/-! ## The month loop -/

/-- The steps of the curve up to the first that is still to come: the last of them. -/
def curveStep (monthDate : Int) : List (Option Int × ℚ) → ℚ → ℚ
  | [], chosen => chosen
  | (none, _) :: steps, chosen => curveStep monthDate steps chosen
  | (some start, monthly) :: steps, chosen =>
    if start ≤ monthDate then curveStep monthDate steps monthly else chosen

/-- `_contribution_for_month` -/
def contributionForMonth (params : RetirementParams) (monthDate : Int) : ℚ :=
  curveStep monthDate params.contributionCurve params.monthlyContribution

/-- The contribution first, then interest on what is there with it. -/
def contribute (params : RetirementParams) (monthDate : Int) (balance : ℚ) : ℚ :=
  let balance := balance + contributionForMonth params monthDate
  if 0 < params.monthlyReturn then balance + balance * params.monthlyReturn else balance

/-- The balance in the money of month 0. -/
def realTerms (params : RetirementParams) (monthIndex : Nat) (nominal : ℚ) : ℚ :=
  let inflFactor := (1 + params.monthlyInflation) ^ (monthIndex + 1)
  if inflFactor = 0 then nominal else nominal / inflFactor

structure RetirementProjection where
  balances : Balances
  queue : List QueueEntry
  retirementRealTerms : List SeriesPoint

/-- One month: the recurring rows, the contribution with its interest, and a point in real terms. -/
def retirementMonth (today : Int) (params : RetirementParams) (p : RetirementProjection) (monthIndex : Nat) :
    Result RetirementProjection := do
  let monthDate ← plusMonths (startOfHorizon today) monthIndex
  let nextMonth ← plusMonths monthDate 1
  let (queue, balances) ← walkQueue (.custom []) monthIndex monthDate (nextMonth - 1) p.queue p.balances
  match params.contributionAccountId with
  | none => .ok { p with balances, queue }
  | some account =>
    match balances account with
    | none => .ok { p with balances, queue }
    | some balance =>
      let nominal := contribute params monthDate balance
      .ok
        { queue, balances := fun a => if a = account then some nominal else balances a
          retirementRealTerms :=
            p.retirementRealTerms ++ [⟨monthOf monthDate, quantize (realTerms params monthIndex nominal)⟩] }

def initialRetirement (state : WorldState) : RetirementProjection where
  balances := (initialProjection state).balances
  queue := (initialProjection state).queue
  retirementRealTerms := []

/-! ## Verdict and suggestion -/

inductive VerdictColor
  | green
  | yellow
  | red
  deriving DecidableEq, Repr

structure PlanVerdict where
  color : VerdictColor
  headline : String
  reason : String
  deriving DecidableEq, Repr

/-- The point of the target's month, or the last one. -/
def realAtTarget (params : RetirementParams) (points : List SeriesPoint) (last : SeriesPoint) : ℚ :=
  match params.targetRetirementDate.bind fun target => points.find? fun p => p.month = monthOf target with
  | some point => point.projectedBalance
  | none => last.projectedBalance

/-- `_retirement_verdict` -/
def retirementVerdict (params : RetirementParams) (points : List SeriesPoint) : PlanVerdict :=
  let unset : PlanVerdict :=
    { color := .green, headline := "Retirement target not set or no data."
      reason := "Add a target balance and contribution amount to get a verdict on this plan." }
  match points.getLast? with
  | none => unset
  | some last =>
    if params.targetBalance ≤ 0 then unset
    else
      let finalReal := realAtTarget params points last
      if params.targetBalance ≤ finalReal then
        { color := .green, headline := "On track to hit the retirement target."
          reason :=
            "The real-terms projected balance meets or exceeds the target at the retirement date." }
      else if (params.targetBalance - finalReal) / params.targetBalance ≤ 15 / 100 then
        { color := .yellow, headline := "Close to the target but not quite."
          reason := "The real-terms projected balance is within 15% of the target at the retirement date. " ++
          "Consider raising the monthly contribution." }
      else
        { color := .red, headline := "Retirement target out of reach at current pace."
          reason := "The real-terms projected balance falls more than 15% below the target at the retirement " ++
          "date. A larger monthly contribution, a later retirement date, or a lower target would close the gap." }

/-- `_required_monthly_to_close_gap` -/
def requiredMonthlyToCloseGap (starting targetReal annualReturnPct annualInflationPct : ℚ) (months : Nat) : ℚ :=
  if months = 0 then 0
  else
    let r := annualReturnPct / 100 / 12
    let i := annualInflationPct / 100 / 12
    let targetNominal := targetReal * (1 + i) ^ months
    let startingFv := starting * (1 + r) ^ months
    let neededFv := targetNominal - startingFv
    if neededFv ≤ 0 then 0
    else if r = 0 then quantize (neededFv / months)
    else
      let factor := ((1 + r) ^ months - 1) / r
      if factor = 0 then 0 else quantize (neededFv / factor)

/-- `raise_monthly_contribution`, by an amount. -/
structure Suggestion where
  byAmount : ℚ
  deriving DecidableEq

/-- `_compute_suggestions` of a retirement scenario. -/
def retirementSuggestions (params : RetirementParams) (verdict : PlanVerdict) (points : List SeriesPoint) :
    List Suggestion :=
  if verdict.color = .red then
    let months := if points.length = 0 then 1 else points.length
    let required :=
      requiredMonthlyToCloseGap 0 params.targetBalance params.annualReturnPct params.inflationPct months
    let delta := required - params.monthlyContribution
    if delta ≤ 0 then [] else [⟨quantize delta⟩]
  else []

structure RetirementResult where
  realTermsSeries : List SeriesPoint
  verdict : PlanVerdict
  suggestions : List Suggestion

/-- `simulate` of a retirement scenario. -/
def simulateRetirement (today : Int) (state : WorldState) (params : RetirementParams) (horizon : Nat) :
    Result RetirementResult := do
  let p ← (List.range horizon).foldlM (retirementMonth today params) (initialRetirement state)
  let verdict := retirementVerdict params p.retirementRealTerms
  .ok
    { realTermsSeries := p.retirementRealTerms, verdict
      suggestions := retirementSuggestions params verdict p.retirementRealTerms }

end BetterDecision
