import BetterDecision.Model.ForecastPlan

/-!
# What a plan's items have seen

`_compute_actuals_batch`: the settled rows of a plan's window, summed once by category and
type. A sum whose own category and type have an item stays there; any other goes to the
parent's.
-/

namespace BetterDecision

section Actuals

variable (db : Db) (orgId : Nat) (items : List ForecastPlanItem)

/-- The children of the items' categories, under their parents. -/
def parentOfItems : List (Nat × Nat) :=
  (db.categories.select (fun _ c => c.orgId == orgId &&
    c.parentId.any (fun p => (items.map (·.categoryId)).contains p))).filterMap
    (fun c => c.2.parentId.map (fun p => (c.1, p)))

/-- The categories whose rows are read. -/
def actualCategories : List Nat :=
  items.map (·.categoryId) ++ (parentOfItems db orgId items).map Prod.fst

/-- A settled row that income and expense aggregates of the window are over. -/
def isActual (pStart : Int) (pEnd : Option Int) (currencyScope : Option CurrencyScope) (row : Row) : Bool :=
  row.2.orgId == orgId && row.2.status == .settled && row.2.settledDate.any (fun s => decide (pStart ≤ s)) &&
    row.2.type != .transfer && reportableTransactionFilter row &&
    currencyScope.all (fun scope => orgCurrencyFilter db orgId scope row.2.accountId) &&
    pEnd.all (fun e => row.2.settledDate.any (fun s => decide (s ≤ e)))

/-- The sums by category and type. -/
def actualGroups (pStart : Int) (pEnd : Option Int) (currencyScope : Option CurrencyScope) :
    List ((Nat × TransactionType) × Int) :=
  groupSum (fun row : Row => (row.2.categoryId, row.2.type)) (fun row => (row.2.amount : Int))
    (db.transactions.select (fun id t => isActual db orgId pStart pEnd currencyScope (id, t) &&
      (actualCategories db orgId items).contains t.categoryId))

/-- Where a sum is counted: the item's key, or the parent's. -/
def actualKey (group : Nat × TransactionType) : Nat × Option ForecastItemType :=
  let type := itemType group.2
  if (items.map (fun i => (i.categoryId, some i.type))).contains (group.1, type) then (group.1, type)
  else (((parentOfItems db orgId items).lookup group.1).getD group.1, type)

/-- `_compute_actuals_batch`, the entries of its dictionary as they are added up. -/
def computeActualsBatch (pStart : Int) (pEnd : Option Int) (currencyScope : Option CurrencyScope) :
    List ((Nat × Option ForecastItemType) × Int) :=
  if items = [] then []
  else (actualGroups db orgId items pStart pEnd currencyScope).map (fun g => (actualKey db orgId items g.1, g.2))

/-- `actuals.get((item.category_id, item.type.value), 0)`. -/
def actualOf (pStart : Int) (pEnd : Option Int) (currencyScope : Option CurrencyScope) (item : ForecastPlanItem) :
    Int :=
  (((computeActualsBatch db orgId items pStart pEnd currencyScope).filter
    (fun e => e.1 == (item.categoryId, some item.type))).map Prod.snd).sum

end Actuals

end BetterDecision
