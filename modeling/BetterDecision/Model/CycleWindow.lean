import BetterDecision.Model.Billing

/-!
# Cycle windows on the calendar a date can hold

`current_cycle_window` and `next_cycle_window` on `datetime.date`, whose days run from
0001-01-01 to 9999-12-31: adding months raises where it would leave them. Elsewhere a day
is any ordinal; here it carries its bounds.
-/

namespace BetterDecision

open Calendar

/-- January of year 1 and December of 9999. -/
def firstMonthOfDates : Int := 12
def lastMonthOfDates : Int := 119999

/-- A `datetime.date`. -/
abbrev CalendarDate := { day : Int // monthStart firstMonthOfDates < day ∧ day ≤ monthStart (lastMonthOfDates + 1) }

/-- `d + relativedelta(months=n)`. -/
def datePlusMonths (d : CalendarDate) (n : Int) : Option CalendarDate :=
  if h : monthStart firstMonthOfDates < addMonths d n ∧ addMonths d n ≤ monthStart (lastMonthOfDates + 1) then
    some ⟨addMonths d n, h⟩
  else none

/-- `_snap_to_cycle` stays in its month, and so on the calendar. -/
def snapDate (d : CalendarDate) (cycleDay : CycleDay) : CalendarDate :=
  ⟨snapToCycle d cycleDay, by
    have hc : (1 : Int) ≤ (cycleDay.val : Int) := by
      have := cycleDay.property.1
      omega
    have hmonth : monthOf (snapToCycle d cycleDay) = monthOf d.val := monthOf_onMonth hc
    obtain ⟨hlo, hhi⟩ := monthOf_spec d.val
    obtain ⟨hlo', hhi'⟩ := monthOf_spec (snapToCycle d cycleDay)
    rw [hmonth] at hlo' hhi'
    have hfirst : firstMonthOfDates < monthOf d.val + 1 :=
      monthStart_strictMono.lt_iff_lt.mp (lt_of_lt_of_le d.property.1 hhi)
    have hlast : monthOf d.val < lastMonthOfDates + 1 :=
      monthStart_strictMono.lt_iff_lt.mp (lt_of_lt_of_le hlo d.property.2)
    have hge := monthStart_strictMono.monotone (show firstMonthOfDates ≤ monthOf d.val by omega)
    have hle := monthStart_strictMono.monotone (show monthOf d.val + 1 ≤ lastMonthOfDates + 1 by omega)
    omega⟩

/-- The cycle day that was the last to come. -/
def windowStart (cycleDay : CycleDay) (today : CalendarDate) : Option CalendarDate :=
  let here := snapDate today cycleDay
  if today.val < here.val then (datePlusMonths today (-1)).map (snapDate · cycleDay) else some here

/-- `current_cycle_window`: first day and last day, where no step leaves the calendar. -/
def cycleWindow (cycleDay : CycleDay) (today : CalendarDate) : Option (CalendarDate × Int) := do
  let start ← windowStart cycleDay today
  let next ← datePlusMonths start 1
  some (start, (snapDate next cycleDay).val - 1)

/-- `next_cycle_window`. -/
def nextCycleWindow (cycleDay : CycleDay) (today : CalendarDate) : Option (CalendarDate × Int) := do
  let (currentStart, _) ← cycleWindow cycleDay today
  let nextStart := snapDate (← datePlusMonths currentStart 1) cycleDay
  let following ← datePlusMonths nextStart 1
  some (nextStart, (snapDate following cycleDay).val - 1)

end BetterDecision
