import BetterDecision.Model.ScenarioEngine

/-!
# The history of a world state

`scenario_engine.build_world_state`, its last part: the net cash flow of every account in
each of the twelve months before the current one, which the regression and the retirement
verdict read. A month is its index, as in the engine.
-/

namespace BetterDecision

open Calendar

/-- One observed monthly net of an account. -/
structure MonthlyCashflowPoint where
  accountId : Nat
  month : Int
  net : ℚ
  deriving DecidableEq

/-- Income counts up, anything else down. -/
def cashflowSign (t : Transaction) : Int := if t.type = .income then t.amount else -t.amount

/-- The key of the `monthly` dict: the account, and the month the row settled in. -/
def cashflowKey (row : Row) : Nat × Int := (row.2.accountId, monthOf (effectivePeriodDate row.2))

/-- `sorted(monthly.items())`. -/
def monthlyNet (rows : List Row) : List MonthlyCashflowPoint :=
  ((groupSum cashflowKey (fun row => cashflowSign row.2) rows).insertionSort
    (fun p q => toLex p.1 ≤ toLex q.1)).map (fun p => ⟨p.1.1, p.1.2, decimal p.2⟩)

/-- The rows that are read: those of the window, transfers excluded by their type. -/
def windowRows (db : Db) (orgId : Nat) (historyStart first : Int) : List Row :=
  db.transactions.select (fun _ t =>
    t.orgId == orgId && decide (historyStart ≤ effectivePeriodDate t) && decide (effectivePeriodDate t < first) &&
      t.type != .transfer)

/-- `WorldState.history`. -/
def buildHistory (db : Db) (today : Int) (orgId : Nat) : Result (List MonthlyCashflowPoint) := do
  let first := startOfHorizon today
  let historyStart ← plusMonths first (-12)
  .ok (monthlyNet (windowRows db orgId historyStart first))

end BetterDecision
