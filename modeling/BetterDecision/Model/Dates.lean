import BetterDecision.Lib.Calendar
import BetterDecision.Model.Db

/-!
# Recurring dates

`date_utils`: one step along a series, and the occurrences of a series that fall
in a window. The walk is iterated, never closed-form: a month-end series drifts
(Jan 31, Feb 28, Mar 28), and generation drifts with it.
-/

namespace BetterDecision

open Calendar

/-- `datetime.date.max`, 9999-12-31. -/
def dateMax : Int := 3652059

/-- `d + relativedelta(months=n)`, which raises outside the calendar. -/
def plusMonths (d n : Int) : Result Int :=
  if addMonths d n < 1 ∨ dateMax < addMonths d n then .error .overflow else .ok (addMonths d n)

/-- Where the next date lies, were there no last day. -/
def stepDate (current : Int) : Frequency → Int
  | .weekly => current + 7
  | .biweekly => current + 14
  | .monthly => addMonths current 1
  | .quarterly => addMonths current 3
  | .yearly => addMonths current 12

/-- Advance a date by the given recurring frequency. Past the last day there is no
date to advance to, and the call raises. -/
def advanceDate (current : Int) (freq : Frequency) : Result Int :=
  if dateMax < stepDate current freq then .error .overflow else .ok (stepDate current freq)

/-- The next occurrence, or `none` where the grid ends: no next date, or no progress. -/
def nextOccurrence (d : Int) (freq : Frequency) : Option Int :=
  match advanceDate d freq with
  | .ok next => if d < next then some next else none
  | .error _ => none

/-- One instalment spent; an open-ended series has none to spend. -/
def spendOne (remaining : Option Int) : Option Int := remaining.map (· - 1)

/-- The budget is not used up. -/
def hasBudget (remaining : Option Int) : Bool :=
  match remaining with
  | none => true
  | some n => decide (0 < n)

/-- The first loop: discard the occurrences before `start`, each one spent. -/
def fastForward (freq : Frequency) (start : Int) : Nat → Int → Option Int → Option (Int × Option Int)
  | 0, d, remaining => some (d, remaining)
  | fuel + 1, d, remaining =>
    if d < start then
      if hasBudget remaining then
        match nextOccurrence d freq with
        | some next => fastForward freq start fuel next (spendOne remaining)
        | none => none
      else none
    else some (d, remaining)

/-- The second loop: collect up to `stop`. -/
def collect (freq : Frequency) (stop : Int) : Nat → Int → Option Int → List Int
  | 0, _, _ => []
  | fuel + 1, d, remaining =>
    if d ≤ stop ∧ hasBudget remaining then
      d :: match nextOccurrence d freq with
        | some next => collect freq stop fuel next (spendOne remaining)
        | none => []
    else []

/-- Occurrence dates in `[start, stop]`, walked from `nextDue`. Neither loop has a
cap: each pass moves strictly forward, so the distance left is passes enough. -/
def occurrencesInWindow (nextDue : Int) (freq : Frequency) (start stop : Int) (budget : Option Int) :
    List Int :=
  match fastForward freq start (start - nextDue).toNat nextDue budget with
  | some (d, remaining) => collect freq stop (stop + 1 - d).toNat d remaining
  | none => []

end BetterDecision
