import BetterDecision.Lib.Dated
import BetterDecision.Model.ForecastWindow

/-!
# Card payments to come

`cc_cycle_service`, which says when a cycle of a card closes and when it is paid, and
`cc_forecast_service`, which says how much. What is owed at a close is the ledger's
answer and knows nothing of the payments projected before it, so those are threaded
through; and a real payment counts toward one cycle, the first it falls into.
-/

namespace BetterDecision

open Calendar

/-- A day with an amount. -/
abbrev Point := Int × Int

/-- `d + timedelta(days=1)`. -/
def dayAfter (d : Int) : Result Int := if dateMax ≤ d then .error .overflow else .ok (d + 1)

/-! ## Cycles -/

structure CreditCardCycle where
  periodStart : Int
  periodEndInclusive : Int
  paymentDate : Int
  deriving DecidableEq

/-- Day `d` of the month, or its last day. A month outside the calendar has no days. -/
def clampDay (month : Int) (d : Nat) : Result Int :=
  if d = 0 ∨ onMonth month d < 1 ∨ dateMax < onMonth month d then .error .overflow
  else .ok (onMonth month d)

def resolvePaymentDate (close : Int) (paymentDay paymentDayRelativeMonth : Nat) : Result Int :=
  clampDay (monthOf close + paymentDayRelativeMonth) paymentDay

/-- The cycle a day lies in. The close day is the last of its cycle. -/
def resolveCycle (closeDay : Nat) (paymentDay paymentDayRelativeMonth : Option Nat) (target : Int) :
    Result CreditCardCycle := do
  let thisMonthClose ← clampDay (monthOf target) closeDay
  let (previous, close) ←
    if target ≤ thisMonthClose then do
      let prevClose ← clampDay (monthOf target - 1) closeDay
      .ok (prevClose, thisMonthClose)
    else do
      let nextClose ← clampDay (monthOf target + 1) closeDay
      .ok (thisMonthClose, nextClose)
  let periodStart ← dayAfter previous
  let paymentDate ← resolvePaymentDate close (paymentDay.getD 1) (paymentDayRelativeMonth.getD 1)
  .ok { periodStart, periodEndInclusive := close, paymentDate }

/-- `_WALK_MARGIN`. -/
def walkMargin : Int := 12

/-- The walk over close dates: it stops at the first cycle due after `pEnd`. -/
def walkCycles (account : Account) (closeDay : Nat) (pStart pEnd : Int) :
    Nat → Int → List Int → List CreditCardCycle → Result (List CreditCardCycle)
  | 0, _, _, cycles => .ok cycles
  | steps + 1, cursor, seen, cycles => do
    let cycle ← resolveCycle closeDay account.paymentDay account.paymentDayRelativeMonth cursor
    let close := cycle.periodEndInclusive
    if seen.contains close then do
      let next ← dayAfter close
      walkCycles account closeDay pStart pEnd steps next seen cycles
    else if pEnd < cycle.paymentDate then .ok cycles
    else do
      let next ← dayAfter close
      walkCycles account closeDay pStart pEnd steps next (close :: seen)
        (if pStart ≤ cycle.paymentDate then cycles ++ [cycle] else cycles)

/-- Every cycle whose payment date falls in the horizon, by payment date. The walk looks
back far enough for a cycle that closed before the horizon and is due in it. -/
def dueCyclesInHorizon (account : Account) (closeDay : Nat) (pStart pEnd : Int) :
    Result (List CreditCardCycle) := do
  -- `or 1`: no offset and an offset of 0 both look back two months
  let lookbackMonths : Nat := max (account.paymentDayRelativeMonth.getD 1) 1 + 1
  let cursor ← plusMonths pStart (-lookbackMonths)
  let months := monthOf pEnd - monthOf cursor + 1
  let cycles ← walkCycles account closeDay pStart pEnd (2 * months + walkMargin).toNat cursor [] []
  .ok (cycles.insertionSort (fun c d => c.paymentDate ≤ d.paymentDate))

/-- The `else` of the walk: whether it runs to its cap, which the source logs as an error. -/
def walkHitsCap (account : Account) (closeDay : Nat) (pEnd : Int) : Nat → Int → List Int → Result Bool
  | 0, _, _ => .ok true
  | steps + 1, cursor, seen => do
    let cycle ← resolveCycle closeDay account.paymentDay account.paymentDayRelativeMonth cursor
    let close := cycle.periodEndInclusive
    if seen.contains close then do
      let next ← dayAfter close
      walkHitsCap account closeDay pEnd steps next seen
    else if pEnd < cycle.paymentDate then .ok false
    else do
      let next ← dayAfter close
      walkHitsCap account closeDay pEnd steps next (close :: seen)

/-- `cc_forecast.cycle_walk_cap_hit`, for the walk of `dueCyclesInHorizon`. -/
def cycleWalkCapHit (account : Account) (closeDay : Nat) (pStart pEnd : Int) : Result Bool := do
  let lookbackMonths : Nat := max (account.paymentDayRelativeMonth.getD 1) 1 + 1
  let cursor ← plusMonths pStart (-lookbackMonths)
  let months := monthOf pEnd - monthOf cursor + 1
  walkHitsCap account closeDay pEnd (2 * months + walkMargin).toNat cursor []

/-! ## Amounts -/

/-- What a credit is known by: a row, or an occurrence that is no row yet. -/
inductive CreditKey
  | row (id : Nat)
  | recurring (id : Nat) (on : Int)
  deriving DecidableEq

structure Credit where
  key : CreditKey
  on : Int
  amount : Int

def balanceAtClose (openingBalance : Int) (ledger : List Point) (closeDate : Int) : Int :=
  openingBalance + Dated.upTo ledger closeDate

/-- Owed is stored negative. -/
def outstandingAtClose (bK : Int) : Int := max 0 (-bK)

/-- The target of a cycle. An amount stored for it wins over the strategy. -/
def ccTargetPayment (account : Account) (cycle : CreditCardCycle) (outstanding : Int)
    (perCycleAmount : Int → Option Int) : Int :=
  match perCycleAmount (monthOf cycle.periodEndInclusive) with
  | some amount => amount
  | none =>
    if account.paymentStrategy = some .fixedAmount then account.fixedPaymentAmount.getD 0 else outstanding

/-- The credits a cycle owns, of those no cycle owns yet: their sum, and all that are owned
by now. -/
def ownCredits (cycle : CreditCardCycle) (credits : List Credit) (consumed : List CreditKey) :
    Int × List CreditKey :=
  credits.foldl (fun acc credit =>
    if acc.2.contains credit.key then acc
    else if cycle.periodEndInclusive < credit.on ∧ credit.on ≤ cycle.paymentDate then
      (acc.1 + credit.amount, credit.key :: acc.2)
    else acc) (0, consumed)

/-- What the synthesis of a card's payments reads. -/
structure CardBooks where
  ledger : List Point
  credits : List Credit
  /-- By month of close. -/
  perCycleAmount : Int → Option Int
  /-- Charges that are no rows yet. -/
  projected : List Point
  projectedAfter : Int

structure CardRun where
  sPrev : Int := 0
  consumed : List CreditKey := []
  payments : List Point := []

/-- One cycle. A payment on or before its close is degenerate, and skipped. -/
def payCycle (account : Account) (books : CardBooks) (run : CardRun) (cycle : CreditCardCycle) : CardRun :=
  if cycle.paymentDate ≤ cycle.periodEndInclusive then run
  else
    let ledger := if books.projectedAfter < cycle.paymentDate then books.ledger ++ books.projected
      else books.ledger
    let bK := balanceAtClose account.openingBalance ledger cycle.periodEndInclusive
    let outstanding := outstandingAtClose bK
    let target := ccTargetPayment account cycle outstanding books.perCycleAmount
    let capped := min target (outstanding - run.sPrev)
    let (pKOwned, consumed) := ownCredits cycle books.credits run.consumed
    let outflow := max 0 (capped - pKOwned)
    { sPrev := run.sPrev + outflow
      consumed
      payments := if 0 < outflow then run.payments ++ [(cycle.paymentDate, outflow)] else run.payments }

/-- The payments of one card in the horizon, by date. -/
def synthesizeAccountCcPayments (account : Account) (closeDay : Nat) (pStart pEnd : Int) (books : CardBooks) :
    Result (List Point) := do
  let cycles ← dueCyclesInHorizon account closeDay pStart pEnd
  .ok (cycles.foldl (payCycle account books) {}).payments

end BetterDecision
