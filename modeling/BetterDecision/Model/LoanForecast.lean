import Mathlib.Data.Int.Log
import Mathlib.Data.Rat.Floor
import BetterDecision.Model.CardForecast

/-!
# Loan payments to come

`loan_forecast_service` and `loan_service.compute_pmt`. A loan pays once a period, on its
first due date there, and never more than what is owed.

The payment and the interest are the two amounts that are not exact: a `Decimal` operation
keeps 28 significant digits, and the result is rounded to cents.
-/

namespace BetterDecision

open Calendar

/-! ## Decimals -/

/-- A number as the `Decimal` context keeps it: 28 significant digits, a tie going to the
even digit. -/
def decimalContext (x : ℚ) : ℚ :=
  if x = 0 then 0
  else
    let shift : ℤ := 27 - Int.log 10 |x|
    let scaled := x * 10 ^ shift
    let below := ⌊scaled⌋
    let kept :=
      if scaled - below < 1 / 2 then below
      else if 1 / 2 < scaled - below then below + 1
      else if below % 2 = 0 then below else below + 1
    kept / 10 ^ shift

/-- `quantize(_CENTS, rounding=ROUND_HALF_UP)`, in cents. -/
def quantizeCents (x : ℚ) : Int := if 0 ≤ x then ⌊x * 100 + 1 / 2⌋ else -⌊-x * 100 + 1 / 2⌋

/-- APR percent / 100 / 12. The column is in hundredths of a percent. -/
def monthlyRate (interestRateApr : Int) : ℚ :=
  decimalContext (decimalContext (interestRateApr / 100 / 100) / 12)

/-- The contractual monthly payment. -/
def computePmt (principalAmount interestRateApr : Int) (termMonths : Nat) : Int :=
  let principal : ℚ := principalAmount / 100
  let r := monthlyRate interestRateApr
  if r = 0 then quantizeCents (decimalContext (principal / termMonths))
  else
    let factor := decimalContext (decimalContext (1 + r) ^ termMonths)
    quantizeCents (decimalContext (decimalContext (decimalContext (principal * r) * factor) /
      decimalContext (factor - 1)))

/-- A month of interest on what is owed. Owed is negative. -/
def monthInterest (balance : Int) (rate : ℚ) : Int :=
  quantizeCents (decimalContext (-(balance : ℚ) / 100 * rate))

/-! ## Payments -/

/-- The due dates in the period from the `k`-th on, `n` of them at most. -/
def dueLoanPaymentDatesFrom (firstPaymentDate pStart pEnd : Int) : Nat → Int → Result (List Int)
  | 0, _ => .ok []
  | n + 1, k => do
    let d ← plusMonths firstPaymentDate k
    if pEnd < d then .ok []
    else do
      let later ← dueLoanPaymentDatesFrom firstPaymentDate pStart pEnd n (k + 1)
      .ok (if pStart ≤ d then d :: later else later)

/-- Every due date is counted from the first, so no month's length wears off on the next. -/
def dueLoanPaymentDates (firstPaymentDate : Int) (termMonths : Nat) (pStart pEnd : Int) : Result (List Int) :=
  dueLoanPaymentDatesFrom firstPaymentDate pStart pEnd termMonths 0

/-- The payment of one loan in one period: none or one. -/
def synthesizeAccountLoanPayment (firstPaymentDate : Int) (termMonths : Nat) (balance pmt pStart pEnd : Int)
    (alreadyPaid : Bool) : Result (List Point) :=
  if alreadyPaid then .ok []
  else do
    let dates ← dueLoanPaymentDates firstPaymentDate termMonths pStart pEnd
    match dates with
    | [] => .ok []
    | payDate :: _ =>
      let applied := min pmt (max 0 (-balance))
      .ok (if applied ≤ 0 then [] else [(payDate, applied)])

/-- The periods after the first: whole months counted from its end, clipped at the
horizon. Each ends later than the one before, so the days left are rounds enough. -/
def loanPeriodsAfter (firstEnd horizonEnd : Int) : Nat → Int → Int → Result (List (Int × Int))
  | 0, _, _ => .ok []
  | n + 1, k, last =>
    if last < horizonEnd then do
      let stop ← plusMonths firstEnd k
      let later ← loanPeriodsAfter firstEnd horizonEnd n (k + 1) (min stop horizonEnd)
      .ok ((last + 1, min stop horizonEnd) :: later)
    else .ok []

/-- The first period, then whole months after it. -/
def loanPeriods (windowStart firstEnd horizonEnd : Int) : Result (List (Int × Int)) := do
  let later ← loanPeriodsAfter firstEnd horizonEnd (horizonEnd - firstEnd).toNat 1 (min firstEnd horizonEnd)
  .ok ((windowStart, min firstEnd horizonEnd) :: later)

end BetterDecision
