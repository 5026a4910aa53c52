import BetterDecision.Lib.Calendar
import BetterDecision.Lib.Runs
import BetterDecision.Model.Db

/-!
# Billing periods

`billing_service` and the job that closes periods on a schedule.

A close is split where its transaction can be overtaken. `resolveCloseDate` reads
the roster and picks the date; `periodAt` looks for a row to revive; and
`commitClose` writes. `applyCloseStep` runs the three in a row, which is what a
close does when nobody else is writing.
-/

namespace BetterDecision

open Calendar

/-- Pin `d` to the cycle day within its month. -/
def snapToCycle (d : Int) (cycleDay : CycleDay) : Int := onMonth (monthOf d) cycleDay.val

/-- The cycle window `[start, end]` that contains `today`. -/
def currentCycleWindow (cycleDay : CycleDay) (today : Int) : Int × Int :=
  let here := snapToCycle today cycleDay
  let start := if today < here then snapToCycle (addMonths today (-1)) cycleDay else here
  (start, snapToCycle (addMonths start 1) cycleDay - 1)

/-- The org's rows, in id order. -/
def periodsOf (db : Db) (orgId : Nat) : List (Nat × BillingPeriod) :=
  db.billingPeriods.select (fun _ p => p.orgId == orgId)

/-- The org's open rows, newest start first. -/
def openPeriods (db : Db) (orgId : Nat) : List (Nat × BillingPeriod) :=
  ((periodsOf db orgId).filter (fun p => p.2.endDate.isNone)).insertionSort
    (fun p q => q.2.startDate ≤ p.2.startDate)

/-- The org's row at exactly `start`. -/
def periodAt (db : Db) (orgId : Nat) (start : Int) : Option (Nat × BillingPeriod) :=
  (periodsOf db orgId).find? (fun p => p.2.startDate == start)

def cycleDayOf (db : Db) (orgId : Nat) : CycleDay :=
  match db.organizations.get? orgId with
  | some org => org.billingCycleDay
  | none => firstOfMonth

def addPeriod (db : Db) (p : BillingPeriod) : Db :=
  { db with billingPeriods := db.billingPeriods.insert p }

/-- INSERT, under the unique constraint on `(org_id, start_date)`. -/
def insertPeriod (db : Db) (p : BillingPeriod) : Result (Db × Nat) :=
  match periodAt db p.orgId p.startDate with
  | some _ => .error .integrity
  | none => .ok (addPeriod db p, db.billingPeriods.next)

/-- The open row, or a new one at the start of today's cycle. Where a closed row
already holds that start the insert collides and the closed row comes back. -/
def getCurrentPeriod (db : Db) (orgId : Nat) (today : Int) : Db × Nat × BillingPeriod :=
  match openPeriods db orgId with
  | p :: _ => (db, p)
  | [] =>
    let start := (currentCycleWindow (cycleDayOf db orgId) today).1
    match periodAt db orgId start with
    | some p => (db, p)
    | none =>
      let period : BillingPeriod := { orgId, startDate := start }
      (addPeriod db period, db.billingPeriods.next, period)

/-- The earliest start after `after`. -/
def nextPeriodStart (db : Db) (orgId : Nat) (after : Int) : Option Int :=
  (((periodsOf db orgId).map (fun p => p.2.startDate)).filter (fun s => after < s)).min?

/-- The period's end, derived from the roster where the row itself has none: the day
before the next row starts, and nothing at the tail. -/
def periodEffectiveEnd (db : Db) (orgId : Nat) (period : BillingPeriod) : Option Int :=
  match period.endDate with
  | some e => some e
  | none => (nextPeriodStart db orgId period.startDate).map (· - 1)

/-! ## Closing -/

def BudgetAt (orgId : Nat) (start : Int) (b : Budget) : Prop := b.orgId = orgId ∧ b.periodStart = start

instance (orgId : Nat) (start : Int) (b : Budget) : Decidable (BudgetAt orgId start b) :=
  inferInstanceAs (Decidable (_ ∧ _))

/-- Names of the categories budgeted both at `oldStart` and at `newStart`. -/
def clashingCategories (db : Db) (orgId : Nat) (oldStart newStart : Int) : List String :=
  let moving := (db.budgets.select (fun _ b => decide (BudgetAt orgId oldStart b))).map (·.2.categoryId)
  let clashing := db.budgets.select (fun _ b =>
    decide (BudgetAt orgId newStart b) && b.periodStart != oldStart && moving.contains b.categoryId)
  (clashing.filterMap (fun b => (db.categories.get? b.2.categoryId).map (·.name))).insertionSort (· ≤ ·)

/-- Move the budgets at `oldStart` to `newStart` and `newEnd`; how many moved.
Where the start stays, only a budget whose end differs is written, and nothing
is checked when there is none. -/
def reanchorPeriodDependents (db : Db) (orgId : Nat) (oldStart newStart : Int) (newEnd : Option Int) :
    Result (Db × Nat) :=
  let stale (b : Budget) : Bool := decide (BudgetAt orgId oldStart b) && b.periodEnd != newEnd
  let moves (b : Budget) : Bool :=
    if oldStart = newStart then stale b else decide (BudgetAt orgId oldStart b)
  if oldStart = newStart ∧ (db.budgets.select (fun _ b => stale b)).isEmpty then
    .ok (db, 0)
  else do
    let clashing := clashingCategories db orgId oldStart newStart
    refuse (clashing ≠ [])
      (.conflict ("A budget already exists at the new period start for: " ++ ", ".intercalate clashing))
    .ok ({ db with budgets := db.budgets.mapRows (fun _ b =>
        if moves b then { b with periodStart := newStart, periodEnd := newEnd } else b) },
      (db.budgets.select (fun _ b => moves b)).length)

def setPeriodEnd (db : Db) (id : Nat) (endDate : Option Int) : Db :=
  { db with billingPeriods := db.billingPeriods.modify id (fun p => { p with endDate }) }

/-- The date a close asked for `requested` closes on: the day before the next
row starts, if the window asked for would swallow that row. -/
def resolveCloseDate (db : Db) (orgId : Nat) (current : BillingPeriod) (requested : Int) : Int :=
  match nextPeriodStart db orgId current.startDate with
  | some s0 => if s0 ≤ requested then s0 - 1 else requested
  | none => requested

/-- Refresh the closing row's budgets, close it, and revive `existing` or insert a
row the day after. The new open row's id. -/
def commitClose (db : Db) (orgId currentId : Nat) (current : BillingPeriod) (resolved : Int)
    (existing : Option Nat) : Result (Db × Nat) := do
  let newStart := resolved + 1
  let (db, _) ← reanchorPeriodDependents db orgId current.startDate current.startDate (some resolved)
  let db := setPeriodEnd db currentId (some resolved)
  match existing with
  | some id =>
    let (db, _) ← reanchorPeriodDependents (setPeriodEnd db id none) orgId newStart newStart none
    .ok (db, id)
  | none => insertPeriod db { orgId, startDate := newStart }

/-- One close: clamp, re-anchor, close, revive or insert, commit. -/
def applyCloseStep (db : Db) (orgId currentId : Nat) (current : BillingPeriod) (requested : Int) :
    Result (Db × Nat) :=
  let resolved := resolveCloseDate db orgId current requested
  commitClose db orgId currentId current resolved
    ((periodAt db orgId (resolved + 1)).map Prod.fst)

/-- The open row a racing closer left behind. -/
def periodAfterRacerClose (db : Db) (orgId closedId : Nat) (closedEnd : Int) : Result Nat :=
  let missing := ServiceError.runtime ("Billing period at " ++ isoformat (closedEnd + 1) ++
    " is missing or not open after a concurrent close of period " ++ toString closedId)
  match periodAt db orgId (closedEnd + 1) with
  | some (id, p) => if p.endDate.isNone then .ok id else .error missing
  | none => .error missing

/-- What a close asks for: yesterday, unless told otherwise. -/
def requestedCloseDate (closeDate : Option Int) (today : Int) : Int := closeDate.getD (today - 1)

/-- Close the current period and open a new one. The new open row, and the row
this call closed unless somebody else had already closed it. (A row auto-created
before a refusal is dropped with it here; the source has committed it by then.) -/
def closePeriod (db : Db) (orgId : Nat) (closeDate : Option Int) (today : Int) :
    Result (Db × Nat × Option Nat) := do
  let (db, currentId, _) := getCurrentPeriod db orgId today
  let requested := requestedCloseDate closeDate today
  refuse (today < requested) (.validation "Close date cannot be in the future")
  let current ← found (db.billingPeriods.get? currentId)
    (.runtime ("Billing period " ++ toString currentId ++ " vanished before close"))
  match current.endDate with
  | some closedEnd =>
    let opened ← periodAfterRacerClose db orgId currentId closedEnd
    .ok (db, opened, none)
  | none =>
    refuse (requested < current.startDate)
      (.validation "Close date cannot be before the period start date")
    match applyCloseStep db orgId currentId current requested with
    -- a collision is rolled back and the step runs once more
    | .error .integrity =>
      let (db, opened) ← applyCloseStep db orgId currentId current requested
      .ok (db, opened, some currentId)
    | .error e => .error e
    | .ok (db, opened) => .ok (db, opened, some currentId)

/-! ## `BillingCloseJob` -/

def maxConvergenceSteps : Nat := 24

/-- Start of the cycle `today` lies in. -/
def boundaryOf (db : Db) (orgId : Nat) (today : Int) : Int :=
  (currentCycleWindow (cycleDayOf db orgId) today).1

def isDue (db : Db) (orgId : Nat) (today : Int) : Bool :=
  let (db, _, current) := getCurrentPeriod db orgId today
  current.startDate < boundaryOf db orgId today

def startOf (db : Db) (id : Nat) : Int :=
  match db.billingPeriods.get? id with
  | some p => p.startDate
  | none => 0

/-- The convergence loop, every round asking for the same close date. Stops when no
progress was made, when the job is no longer due, or after `rounds` rounds. -/
def converge (orgId : Nat) (closeDate today : Int) : Nat → Db → List Nat → Result (Db × List Nat)
  | 0, db, closed => .ok (db, closed)
  | rounds + 1, db, closed => do
    let (db, _, closing) := getCurrentPeriod db orgId today
    let (db, opened, closedId) ← closePeriod db orgId (some closeDate) today
    let closed := closed ++ closedId.toList
    if startOf db opened ≤ closing.startDate then .ok (db, closed)
    else if isDue db orgId today then converge orgId closeDate today rounds db closed
    else .ok (db, closed)

/-- `BillingCloseJob.run`: the roster after it, and the ids of the rows it closed. -/
def runBillingClose (db : Db) (orgId : Nat) (today : Int) : Result (Db × List Nat) :=
  converge orgId (boundaryOf db orgId today - 1) today maxConvergenceSteps db []

/-- One scheduler tick: the job runs if it is due. -/
def tickBillingClose (orgId : Nat) (db : Db) (today : Int) : Result Db :=
  let db := (getCurrentPeriod db orgId today).1
  if isDue db orgId today then (runBillingClose db orgId today).map Prod.fst else .ok db

/-! ## Future stubs -/

/-- Two `BillingPeriod` windows meet, or start on the same day. A row with no end
only collides by its start. -/
def Collides (start endDate : Int) (p : BillingPeriod) : Prop :=
  p.startDate = start ∨ ∃ e, p.endDate = some e ∧ p.startDate ≤ endDate ∧ start ≤ e

instance (start endDate : Int) (p : BillingPeriod) : Decidable (Collides start endDate p) :=
  decidable_of_iff (p.startDate = start ∨
      (p.endDate.any (fun e => decide (p.startDate ≤ endDate ∧ start ≤ e))) = true) <| by
    simp [Collides, Option.any_eq_true]

/-- The window of the `i`-th cycle after the one that starts in `base`'s month. -/
def stubWindow (cycleDay : CycleDay) (base : Int) (i : Nat) : Int × Int :=
  let nextStart := snapToCycle (addMonths base i) cycleDay
  (nextStart, snapToCycle (addMonths nextStart 1) cycleDay - 1)

/-- The stubs to insert after the open period starting at `base`: the next `count`
cycles, less those that collide with a row already there. -/
def planFuturePeriods (db : Db) (orgId : Nat) (base : Int) (count : Nat) : List (Int × Int) :=
  ((List.range count).map (fun i => stubWindow (cycleDayOf db orgId) base (i + 1))).filter
    (fun w => (periodsOf db orgId).all (fun p => !decide (Collides w.1 w.2 p.2)))

/-- Insert all the stubs, or refuse them all on a duplicate start. -/
def insertStubs (db : Db) (orgId : Nat) (stubs : List (Int × Int)) : Result Db :=
  stubs.foldlM (fun db w =>
    (insertPeriod db { orgId, startDate := w.1, endDate := some w.2 }).map Prod.fst) db

/-- Create stub periods for the `count` cycles after the open period. A collision
loses every stub and nothing else. -/
def ensureFuturePeriods (db : Db) (orgId : Nat) (today : Int) (count : Nat) : Db :=
  let (db, _, current) := getCurrentPeriod db orgId today
  match insertStubs db orgId (planFuturePeriods db orgId current.startDate count) with
  | .ok db' => db'
  | .error _ => db

end BetterDecision
