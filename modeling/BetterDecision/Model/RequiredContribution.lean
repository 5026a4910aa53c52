import BetterDecision.Lib.Compound
import BetterDecision.Model.LoanForecast

/-!
# What a goal takes a month

`plan_projection_service`: `_grow`, which compounds a bucket of the lifetime tier, and
`required_contribution`, which says how much more has to be saved each month for a balance
to reach its floors. Amounts are rationals, a `Decimal` in exact arithmetic.
-/

namespace BetterDecision

/-- `_grow`. -/
def grow (start : ℚ) (flows : List ℚ) (r : ℚ) : List ℚ := Compound.balances (1 + r) start flows

/-- `_q`. -/
def toCents (value : ℚ) : ℚ := quantizeCents value / 100

inductive SequenceError
  | indexError
  deriving DecidableEq, Repr

/-- What a unit saved in each month up to `contributeUntil` has become in month `m`. -/
def savingSlope (r : ℚ) (contributeUntil : Int) (m : Nat) : ℚ :=
  ((List.range (min (m + 1 : Int) contributeUntil).toNat).map (fun k => (1 + r) ^ (m - k))).sum

/-- The loop over the checks: the need so far, or `none` once a check is short with no month left to
pay in. -/
def requiredNeed (trajectory : List ℚ) (contributeUntil : Int) (r : ℚ) :
    List (Nat × ℚ) → ℚ → Except SequenceError (Option ℚ)
  | [], need => .ok (some need)
  | (m, floor) :: checks, need =>
    match trajectory[m]? with
    | none => .error .indexError
    | some balance =>
      let short := floor - balance
      if short ≤ 0 then requiredNeed trajectory contributeUntil r checks need
      else
        let slope := savingSlope r contributeUntil m
        if slope = 0 then .ok none
        else requiredNeed trajectory contributeUntil r checks (max need (short / slope))

/-- The least extra monthly saving that meets the checks, in cents. -/
def requiredContribution (trajectory : List ℚ) (checks : List (Nat × ℚ)) (contributeUntil : Int) (r : ℚ) :
    Except SequenceError (Option ℚ) := do
  let need ← requiredNeed trajectory contributeUntil r checks 0
  .ok (need.map toCents)

end BetterDecision
