import BetterDecision.Model.ForecastWindow

/-!
# The monthly forecast

`forecast_service.compute_forecast`: what a period has settled, what is pending in it, and
what its recurring series will still bring. Three queries, three date columns: the settled
date, the effective date, and the dates a series walks over.
-/

namespace BetterDecision

section Forecast

variable (db : Db) (orgId : Nat) (pStart windowEnd : Int)

/-- The rows an income or expense aggregate of the org is over. -/
def aggregated (row : Row) : Bool :=
  row.2.orgId == orgId && reportableTransactionFilter row &&
    orgCurrencyFilter db orgId (resolveCurrencyScope db orgId) row.2.accountId

/-- Executed: settled, in the window by the date it settled on. -/
def isExecuted (row : Row) : Bool :=
  aggregated db orgId row && row.2.status == .settled &&
    row.2.settledDate.any (fun s => decide (pStart ≤ s ∧ s ≤ windowEnd))

/-- Pending: in the window by the effective date. -/
def isPendingIn (row : Row) : Bool :=
  aggregated db orgId row && row.2.status == .pending &&
    decide (pStart ≤ effectivePeriodDate row.2 ∧ effectivePeriodDate row.2 ≤ windowEnd)

/-- `sum(amount)` over the rows of a type that pass a test. -/
def amountOf (type : TransactionType) (test : Row → Bool) : Int :=
  db.transactions.total (fun id t => if test (id, t) && t.type == type then (t.amount : Int) else 0)

/-- The expense rows that pass a test, grouped by their own category. -/
def expenseByCategory (test : Row → Bool) : List (Nat × Int) :=
  (db.transactions.select (fun id t => test (id, t) && t.type == .expense)).map
    (fun row => (row.2.categoryId, (row.2.amount : Int)))

/-- The series with an occurrence in the window, perhaps. -/
def recurringItems : List (Nat × RecurringTransaction) :=
  db.recurring.select (fun _ r => r.orgId == orgId && activeSeriesFilter r &&
    decide (r.nextDueDate ≤ windowEnd) && r.type != .transfer &&
    orgCurrencyFilter db orgId (resolveCurrencyScope db orgId) r.accountId)

/-- The one walk behind the recurring figures: every occurrence with no row, under its
type, its category and its amount. -/
def upcoming : List (TransactionType × Nat × Int) :=
  (recurringItems db orgId windowEnd).flatMap (fun p =>
    (unmaterialised db orgId pStart windowEnd p).map (fun _ =>
      (p.2.type, p.2.categoryId, (p.2.amount : Int))))

def recurringIncome : Int :=
  (((upcoming db orgId pStart windowEnd).filter (fun o => o.1 == .income)).map (·.2.2)).sum

def recurringExpense : Int :=
  (((upcoming db orgId pStart windowEnd).filter (fun o => o.1 != .income)).map (·.2.2)).sum

def recurringByCategory : List (Nat × Int) :=
  ((upcoming db orgId pStart windowEnd).filter (fun o => o.1 != .income)).map Prod.snd

end Forecast

/-- `dict.get(cid, 0)` of a dictionary of totals. -/
def totalIn (amounts : List (Nat × Int)) (categoryId : Nat) : Int :=
  ((amounts.filter (fun e => e.1 == categoryId)).map Prod.snd).sum

structure ForecastCategory where
  categoryId : Nat
  categoryName : String
  parentId : Option Nat
  executed : Int
  pending : Int
  recurring : Int
  forecast : Int

structure Forecast where
  periodStart : Int
  periodEnd : Int
  executedIncome : Int
  executedExpense : Int
  executedNet : Int
  pendingIncome : Int
  pendingExpense : Int
  recurringIncome : Int
  recurringExpense : Int
  forecastIncome : Int
  forecastExpense : Int
  forecastNet : Int
  currencyScope : CurrencyScope
  categories : List ForecastCategory

/-- One category of the breakdown. A category of another org has no name here. -/
def forecastCategory (db : Db) (orgId : Nat) (executed pending recurring : List (Nat × Int)) (id : Nat) :
    ForecastCategory :=
  let cat := findCategory db orgId id
  { categoryId := id
    categoryName := (cat.map (·.name)).getD "Unknown"
    parentId := cat.bind (·.parentId)
    executed := totalIn executed id
    pending := totalIn pending id
    recurring := totalIn recurring id
    forecast := totalIn executed id + totalIn pending id + totalIn recurring id }

/-- The forecast over a window. -/
def forecastOver (db : Db) (orgId : Nat) (pStart windowEnd : Int) : Forecast :=
  let executed := isExecuted db orgId pStart windowEnd
  let pending := isPendingIn db orgId pStart windowEnd
  let executedIncome := amountOf db .income executed
  let executedExpense := amountOf db .expense executed
  let pendingIncome := amountOf db .income pending
  let pendingExpense := amountOf db .expense pending
  let recurringIncome := recurringIncome db orgId pStart windowEnd
  let recurringExpense := recurringExpense db orgId pStart windowEnd
  let forecastIncome := executedIncome + pendingIncome + recurringIncome
  let forecastExpense := executedExpense + pendingExpense + recurringExpense
  let catExecuted := expenseByCategory db executed
  let catPending := expenseByCategory db pending
  let catRecurring := recurringByCategory db orgId pStart windowEnd
  let ids := (((catExecuted ++ catPending ++ catRecurring).map Prod.fst).dedup).insertionSort (· ≤ ·)
  { periodStart := pStart
    periodEnd := windowEnd
    executedIncome, executedExpense
    executedNet := executedIncome - executedExpense
    pendingIncome, pendingExpense, recurringIncome, recurringExpense, forecastIncome, forecastExpense
    forecastNet := forecastIncome - forecastExpense
    currencyScope := resolveCurrencyScope db orgId
    categories := ids.map (forecastCategory db orgId catExecuted catPending catRecurring) }

/-- Compute the full forecast for a billing period. -/
def computeForecast (db : Db) (orgId : Nat) (periodStart : Option Int) (today : Int) :
    Result (Db × Forecast) := do
  let (db, pStart, windowEnd) ← resolveSpendWindow db orgId periodStart today
  .ok (db, forecastOver db orgId pStart windowEnd)

end BetterDecision
