import BetterDecision.Lib.Locks
import BetterDecision.Lib.Runs
import BetterDecision.Lib.Totals
import BetterDecision.Model.ForecastPlan

/-!
# Budgets from a forecast

`forecast_budget_amounts` rolls the expense items of a plan up to one amount a master,
and `create_budgets_from_forecast` inserts a budget for each, in a savepoint of its own.
Any number of calls run for one period at once: each is cut between its read and its
inserts, between two inserts, and before its commit. The unique key
`uq_budget_org_cat_period` makes an insert wait for another call's uncommitted row of the
same category, and refuses it once that row is committed.
-/

namespace BetterDecision

/-! ## The amounts -/

section Amounts

variable (db : Db) (orgId : Nat)

/-- `_get_existing_budget_cat_ids`. -/
def existingBudgetCatIds (budgets : List Budget) (periodStart : Int) : List Nat :=
  (budgets.filter (fun b => b.orgId = orgId ∧ b.periodStart = periodStart)).map (·.categoryId)

/-- `forecast_budget_amounts`, in the order the dictionary is filled. -/
def forecastBudgetAmounts (plan : Option ForecastPlan) (budgets : List Budget) (periodStart : Int) :
    Result (List (Nat × Int)) :=
  match plan with
  | none => .error (.validation ("No forecast plan exists for this period. " ++
      "Create one on the Forecasts page first."))
  | some plan =>
    let budgetedMasters := (existingBudgetCatIds orgId budgets periodStart).map (masterOf db orgId)
    let expenseItems := plan.items.filter (fun i => i.type = .expense)
    let unbudgeted := expenseItems.filter (fun i => masterOf db orgId i.categoryId ∉ budgetedMasters)
    .ok (totalsByKey (fun i => masterOf db orgId i.categoryId) (·.plannedAmount) unbudgeted)

end Amounts

/-! ## The calls -/

/-- `Numeric(12, 2)`, in cents. -/
def FitsColumn (amount : Int) : Prop := amount.natAbs ≤ 999999999999

instance (amount : Int) : Decidable (FitsColumn amount) :=
  inferInstanceAs (Decidable (amount.natAbs ≤ 999999999999))

/-- How far a call is. -/
inductive RollupPhase
  /-- The amounts still to be inserted, and the rows it has flushed. -/
  | inserting (todo : List (Nat × Int)) (flushed : List Budget)
  | returned
  /-- The error went through to the caller, and the session was rolled back. -/
  | raised (error : ServiceError)
  /-- Cut off from outside: a lost connection, a dead process, a deadlock. -/
  | crashed

/-- The categories whose key a call holds. -/
def RollupPhase.held : RollupPhase → List Nat
  | .inserting _ flushed => flushed.map (·.categoryId)
  | _ => []

/-- The call has run to its own end. -/
def RollupPhase.Ended : RollupPhase → Prop
  | .returned => True
  | .raised _ => True
  | _ => False

structure RollupWorld where
  budgets : List Budget
  calls : Table RollupPhase := .empty

inductive RollupEvent
  | begin
  | insert (call : Nat)
  | commit (call : Nat)
  | crash (call : Nat)

def RollupWorld.goto (w : RollupWorld) (id : Nat) (phase : RollupPhase) : RollupWorld :=
  { w with calls := w.calls.modify id (fun _ => phase) }

section Steps

variable (db : Db) (orgId : Nat) (plan : Option ForecastPlan) (period : BillingPeriod)

/-- The row the key of a category refuses. -/
def HasBudget (budgets : List Budget) (categoryId : Nat) : Prop :=
  ∃ b ∈ budgets, b.orgId = orgId ∧ b.categoryId = categoryId ∧ b.periodStart = period.startDate

instance (budgets : List Budget) (categoryId : Nat) : Decidable (HasBudget orgId period budgets categoryId) :=
  inferInstanceAs (Decidable (∃ b ∈ budgets,
    b.orgId = orgId ∧ b.categoryId = categoryId ∧ b.periodStart = period.startDate))

def newBudget (categoryId : Nat) (amount : Int) : Budget :=
  { orgId, categoryId, amount, periodStart := period.startDate, periodEnd := period.endDate }

/-- The phase of a call that has read the amounts. -/
def beginRollup (budgets : List Budget) : RollupPhase :=
  match forecastBudgetAmounts db orgId plan budgets period.startDate with
  | .error error => .raised error
  | .ok todo => .inserting todo []

/-- One row in its savepoint: a duplicate is rolled back and passed over. -/
def insertRow (w : RollupWorld) (id masterId : Nat) (amount : Int) (todo : List (Nat × Int)) (flushed : List Budget) :
    Result RollupWorld :=
  -- the value is converted before the key is looked up
  if ¬ FitsColumn amount then .ok (w.goto id (.raised (.runtime "Out of range value for column 'amount'")))
  else do
    refuse (w.calls.HeldBy RollupPhase.held id (· = masterId)) (.runtime "lock wait")
    if HasBudget orgId period (w.budgets ++ flushed) masterId then .ok (w.goto id (.inserting todo flushed))
    else .ok (w.goto id (.inserting todo (flushed ++ [newBudget orgId period masterId amount])))

/-- One step. An event whose call is elsewhere, or has to wait, is refused. -/
def rollupStep (w : RollupWorld) : RollupEvent → Result RollupWorld
  | .begin => .ok { w with calls := w.calls.insert (beginRollup db orgId plan period w.budgets) }
  | .insert id => do
    match ← found (w.calls.get? id) (.runtime "no call") with
    | .inserting ((masterId, amount) :: todo) flushed => insertRow orgId period w id masterId amount todo flushed
    | _ => .error (.runtime "nothing to insert")
  | .commit id => do
    match ← found (w.calls.get? id) (.runtime "no call") with
    | .inserting [] flushed => .ok { (w.goto id .returned) with budgets := w.budgets ++ flushed }
    | _ => .error (.runtime "not done")
  | .crash id => do
    match ← found (w.calls.get? id) (.runtime "no call") with
    | .inserting _ _ => .ok (w.goto id .crashed)
    | _ => .error (.runtime "over")

end Steps

end BetterDecision
