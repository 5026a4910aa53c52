import BetterDecision.Model.Recurring

/-!
# What the forecasts share

The window of a billing period, the currency an aggregate is in, and the occurrences of
a series that a window still has to come. A frontier is no occurrence date: it may lie
before the window, so the walk starts there and the bound is on what it lands on.
-/

namespace BetterDecision

open Calendar

/-! ## Currency scope -/

/-- Uppercase and strip. -/
def normaliseCurrency (raw : String) : String :=
  let stripped := ((raw.toList.dropWhile Char.isWhitespace).reverse.dropWhile Char.isWhitespace).reverse
  String.ofList (stripped.map Char.toUpper)

structure CurrencyScope where
  currency : Option String
  excludedAccountCount : Nat

/-- The currency of the org, and how many of its accounts hold another. -/
def resolveCurrencyScope (db : Db) (orgId : Nat) : CurrencyScope :=
  let orgCurrency := ((db.organizations.get? orgId).bind (·.primaryCurrency)).filter (· ≠ "")
  match orgCurrency.map normaliseCurrency with
  | none => { currency := none, excludedAccountCount := 0 }
  | some currency =>
    { currency := some currency
      excludedAccountCount := (db.accounts.select (fun _ a =>
        a.orgId == orgId && normaliseCurrency a.currency != currency)).length }

/-- Rows on accounts in the org's currency; where nothing is excluded, every row. -/
def orgCurrencyFilter (db : Db) (orgId : Nat) (scope : CurrencyScope) (accountId : Nat) : Bool :=
  scope.excludedAccountCount == 0 ||
    (findAccount db orgId accountId).any (fun a => some a.currency == scope.currency)

/-! ## The window of a period -/

/-- The derived end, held at today while the period is open. A closed row keeps its own
end, and the roster's tail has none. -/
def periodSpendWindowEnd (db : Db) (orgId : Nat) (id : Option Nat) (period : BillingPeriod)
    (today : Int) : Result (Option Int) :=
  match period.endDate, periodEffectiveEnd db orgId period with
  | some endDate, _ => .ok (some endDate)
  | none, none => .ok none
  | none, some derived => do
    let windowEnd := max derived today
    refuse (windowEnd < period.startDate)
      (.runtime ("Spend window inverted for billing period " ++ (id.map toString).getD "None" ++
        ": end " ++ isoformat windowEnd ++ " precedes start " ++ isoformat period.startDate))
    .ok (some windowEnd)

/-- The period's one window end: where nothing bounds it, a month from its start. -/
def periodWindowEnd (db : Db) (orgId : Nat) (id : Option Nat) (period : BillingPeriod) (today : Int) :
    Result Int := do
  match ← periodSpendWindowEnd db orgId id period today with
  | some windowEnd => .ok windowEnd
  | none => do
    let next ← plusMonths period.startDate 1
    .ok (next - 1)

/-- The window of the period asked for, or of the current one, made if missing. -/
def resolveSpendWindow (db : Db) (orgId : Nat) (periodStart : Option Int) (today : Int) :
    Result (Db × Int × Int) := do
  let (db, id, period) :=
    match periodStart.bind (periodAt db orgId) with
    | some p => (db, p)
    | none => getCurrentPeriod db orgId today
  let windowEnd ← periodWindowEnd db orgId (some id) period today
  .ok (db, period.startDate, windowEnd)

/-! ## Occurrences still to come -/

/-- The dates in the window that a row of the series already stands for. There is no
status term: the probe asks what generation asks. -/
def materialisedDates (db : Db) (orgId recurringId : Nat) (start stop : Int) : List Int :=
  (seriesDates db orgId recurringId).filter (fun d => decide (start ≤ d ∧ d ≤ stop))

/-- The occurrences of the series in the window that have no row. -/
def unmaterialised (db : Db) (orgId : Nat) (start stop : Int) (p : Nat × RecurringTransaction) :
    List Int :=
  (occurrencesInWindow p.2.nextDueDate p.2.frequency start stop (remainingOccurrences p.2)).filter
    (fun d => !(materialisedDates db orgId p.1 start stop).contains d)

/-- `active_series_filter`. -/
def activeSeriesFilter (r : RecurringTransaction) : Bool := r.isActive && hasRemainingOccurrences r

end BetterDecision
