import BetterDecision.Lib.Blocks
import BetterDecision.Lib.Calendar
import BetterDecision.Model.AccountTypes
import BetterDecision.Model.PyValues

/-!
# Days below zero

`_risk_runs` of `account_balance_forecast_service`: the stretches of an account's forecast
in which its balance is below zero, read off the series in one pass. A stretch that has
begun by today is no warning, for the account's balance shows it already.
-/

namespace BetterDecision

open Calendar

/-- `LIABILITY_SLUGS`. -/
def liabilitySlugs : List (Option String) := [some "credit_card", some "loan"]

/-- `LOW_BALANCE_THRESHOLD`, in cents. -/
def lowBalanceThreshold : Int := 0

/-- The digits of the context of `decimal`. -/
def decimalDigits : Nat := 28

/-- `raw.quantize(_TWOPLACES)`, in cents. What is no number raises here or in the comparison
after, and so does a number with too many digits. -/
def quantizeTwoPlaces (raw : Decimal) : Result Int :=
  match raw.toRat with
  | none => .error (.runtime "InvalidOperation")
  | some x =>
    if 10 ^ decimalDigits ≤ (halfEven (x * 100)).natAbs then .error (.runtime "InvalidOperation")
    else .ok (halfEven (x * 100))

structure RiskRun where
  runFrom : Int
  through : Int
  lowestBalance : Int
  lowestOn : Int
  deriving DecidableEq, Repr

def openRun (point : Int × Int) : RiskRun where
  runFrom := point.1
  through := point.1
  lowestBalance := point.2
  lowestOn := point.1

def extendRun (run : RiskRun) (point : Int × Int) : RiskRun :=
  if point.2 < run.lowestBalance then
    { run with through := point.1, lowestBalance := point.2, lowestOn := point.1 }
  else { run with through := point.1 }

/-- One day of the series: the runs so far, and the one that is open. -/
def riskStep (w : Blocks.Walk RiskRun) (point : Int × Decimal) : Result (Blocks.Walk RiskRun) := do
  let balance ← quantizeTwoPlaces point.2
  .ok (if balance < lowBalanceThreshold then
      match w.current with
      | none => { w with current := some (openRun (point.1, balance)) }
      | some run => { w with current := some (extendRun run (point.1, balance)) }
    else
      match w.current with
      | none => w
      | some run => { closed := w.closed ++ [run], current := none })

/-- An entry of `risk_days`. -/
structure RiskEntry where
  runFrom : String
  through : String
  lowestBalance : String
  lowestOn : String
  deriving DecidableEq, Repr

def RiskRun.entry (run : RiskRun) : RiskEntry where
  runFrom := isoformat run.runFrom
  through := isoformat run.through
  lowestBalance := centsText run.lowestBalance
  lowestOn := isoformat run.lowestOn

private theorem slugs_lawful : LawfulBEq (Option String) := inferInstance

attribute [local instance] slugs_lawful in
def riskRuns (series : List (Int × Decimal)) (typeSlug : Option String) (today : Int) : Result (List RiskEntry) :=
  if typeSlug ∈ liabilitySlugs then .ok []
  else do
    let w ← series.foldlM riskStep {}
    .ok ((w.finish.filter (today < ·.runFrom)).map RiskRun.entry)

end BetterDecision
