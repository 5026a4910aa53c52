import Mathlib.Data.Rat.Floor
import BetterDecision.Lib.Keyed
import BetterDecision.Model.Update

/-!
# The scenario engine

`scenario_engine.AnalyticEngine`: the month-by-month projection of a trip, a purchase
or a custom scenario, without the regression overlay. A retirement scenario and that
overlay are left out, and so are the result's currency, its verdict and its
suggestions, which are read off the projection afterwards.

A what-if amount keeps up to twenty places, so money is a rational here, a `Decimal`
in exact arithmetic, and is rounded where the source quantizes it. The engine keys
months by `(year, month)`; here a month is its index.
-/

namespace BetterDecision

open Calendar

/-! ## Decimals -/

/-- The nearest integer, a tie going to the even one. -/
def roundHalfEven (value : ℚ) : Int :=
  let below := ⌊value⌋
  if value - below < 1 / 2 then below
  else if 1 / 2 < value - below then below + 1
  else if below % 2 = 0 then below else below + 1

/-- `value.quantize(_TWOPLACES)`. -/
def quantize (value : ℚ) : ℚ := roundHalfEven (value * 100) / 100

/-- `Decimal(str(column))` of a money column. -/
def decimal (cents : Int) : ℚ := cents / 100

/-! ## The world state -/

/-- View of one account at month 0. -/
structure AccountSnapshot where
  accountId : Nat
  accountName : String
  currency : String
  startingBalance : ℚ

/-- View of one active recurring template. -/
structure RecurringSnapshot where
  id : Nat
  accountId : Nat
  amount : ℚ
  type : TransactionType
  frequency : Frequency
  nextDueDate : Int
  categoryId : Option Nat := none
  remaining : Option Int := none
  toAccountId : Option Nat := none

/-- The accounts are rows of one table, so no two have the same id. -/
structure WorldState where
  accounts : List AccountSnapshot
  recurring : List RecurringSnapshot
  keyed : Keyed AccountSnapshot.accountId accounts

def AccountSnapshot.ofRow (p : Nat × Account) : AccountSnapshot :=
  { accountId := p.1, accountName := p.2.name, currency := p.2.currency
    startingBalance := decimal p.2.balance }

def RecurringSnapshot.ofRow (p : Nat × RecurringTransaction) : RecurringSnapshot :=
  { id := p.1, accountId := p.2.accountId, amount := decimal p.2.amount, type := p.2.type
    frequency := p.2.frequency, nextDueDate := p.2.nextDueDate, categoryId := some p.2.categoryId
    remaining := remainingOccurrences p.2, toAccountId := p.2.toAccountId }

/-- The accounts of an org and its series that may still deliver. -/
def buildWorldState (db : Db) (orgId : Nat) : WorldState where
  accounts := (db.accounts.select (fun _ a => a.orgId == orgId && a.isActive)).map .ofRow
  recurring := (db.recurring.select (fun _ r =>
    r.orgId == orgId && r.isActive && hasRemainingOccurrences r)).map .ofRow
  keyed := by
    have h := db.accounts.sorted.sublist
      ((List.filter_sublist (p := fun p => p.2.orgId == orgId && p.2.isActive)).map Prod.fst)
    rw [Keyed, List.map_map]
    exact h.imp Nat.ne_of_lt

/-! ## Scenarios -/

/-- `none` is a key the blob does not have, or one whose date does not parse. -/
structure TripParams where
  startDate : Option Int
  durationDays : Int := 0
  transportCost : ℚ := 0
  accommodationPerNight : ℚ := 0
  dailyBudget : ℚ := 0
  oneOffExtras : List ℚ := []
  sourceAccountId : Option Nat := none

structure Financing where
  principal : ℚ := 0
  annualRatePct : ℚ := 0
  termMonths : Nat := 0
  firstPaymentDate : Option Int := none
  paymentAccountId : Option Nat := none

structure PurchaseParams where
  targetDate : Option Int
  downPayment : ℚ := 0
  totalPrice : ℚ := 0
  downPaymentAccountId : Option Nat := none
  financing : Option Financing := none

/-- Months count from the month of the call. -/
inductive CustomEvent
  | incomeOff (fromMonth : Int) (toMonth : Option Int)
  | expenseOff (fromMonth : Int) (toMonth : Option Int) (categoryIds : List Nat)
  | recurringOn
  | oneOffIncome (month : Int) (amount : ℚ) (accountId : Option Nat)
  | oneOffExpense (month : Int) (amount : ℚ) (accountId : Option Nat)

inductive Scenario
  | trip (params : TripParams)
  | purchase (params : PurchaseParams)
  | custom (events : List CustomEvent)

/-! ## Overlay events -/

inductive OverlayKind
  | expense
  | income
  deriving DecidableEq

structure OverlayEvent where
  kind : OverlayKind
  amount : ℚ
  accountId : Nat
  trigger : String

/-- What an overlay adds to its account. -/
def OverlayEvent.delta (ev : OverlayEvent) : ℚ :=
  match ev.kind with
  | .expense => -ev.amount
  | .income => ev.amount

/-- The event map: events under their months, in the order they were added. -/
abbrev Overlays := List (Int × OverlayEvent)

/-- The first day of the month `today` lies in. -/
def startOfHorizon (today : Int) : Int := onMonth (monthOf today) 1

/-- Standard fixed-rate formula, `P * r / (1 - (1+r)^-n)`. -/
def amortizedMonthlyPayment (principal annualRatePct : ℚ) (termMonths : Nat) : ℚ :=
  if principal = 0 ∨ termMonths = 0 then 0
  else if annualRatePct = 0 then quantize (principal / termMonths)
  else
    let r := annualRatePct / 100 / 12
    let factor := (1 + r) ^ termMonths
    if factor = 0 then 0 else quantize (principal * r * factor / (factor - 1))

def tripOverlays (params : TripParams) : Overlays :=
  match params.startDate, params.sourceAccountId with
  | some start, some source =>
    let lump := params.transportCost + params.accommodationPerNight * params.durationDays +
      params.dailyBudget * params.durationDays + params.oneOffExtras.sum
    if 0 < lump then [(monthOf start, ⟨.expense, lump, source, "trip_lump_sum"⟩)] else []
  | _, _ => []

/-- One payment a month from `first` on. -/
def financingOverlays (first : Int) (monthly : ℚ) (account term : Nat) : Result Overlays :=
  (List.range term).mapM (fun i : Nat => do
    let paid ← plusMonths first i
    .ok (monthOf paid, ⟨.expense, monthly, account, "purchase_amortized"⟩))

def purchaseOverlays (params : PurchaseParams) : Result Overlays :=
  match params.targetDate with
  | none => .ok []
  | some target =>
    let lump (amount : ℚ) (trigger : String) : Overlays :=
      match params.downPaymentAccountId with
      | some account => if 0 < amount then [(monthOf target, ⟨.expense, amount, account, trigger⟩)] else []
      | none => []
    match params.financing with
    | none => .ok (lump params.totalPrice "purchase_cash")
    | some financing =>
      match financing.firstPaymentDate, financing.paymentAccountId with
      | some first, some account =>
        if 0 < financing.principal ∧ 0 < financing.termMonths then do
          let monthly := amortizedMonthlyPayment financing.principal financing.annualRatePct
            financing.termMonths
          let payments ← financingOverlays first monthly account financing.termMonths
          .ok (lump params.downPayment "purchase_down_payment" ++ payments)
        else .ok (lump params.downPayment "purchase_down_payment")
      | _, _ => .ok (lump params.downPayment "purchase_down_payment")

/-- A one-off of a custom scenario. -/
def oneOffOverlay (start month : Int) (kind : OverlayKind) (amount : ℚ) (accountId : Option Nat)
    (trigger : String) : Result Overlays := do
  let day ← plusMonths start month
  match accountId with
  | some account => if 0 < amount then .ok [(monthOf day, ⟨kind, amount, account, trigger⟩)] else .ok []
  | none => .ok []

def customOverlay (start : Int) : CustomEvent → Result Overlays
  | .oneOffIncome month amount accountId =>
    oneOffOverlay start month .income amount accountId "custom_one_off_income"
  | .oneOffExpense month amount accountId =>
    oneOffOverlay start month .expense amount accountId "custom_one_off_expense"
  -- the others are filters on the recurring queue
  | .incomeOff _ _ | .expenseOff _ _ _ | .recurringOn => .ok []

/-- Compile the scenario's params into the event map. -/
def buildOverlayEvents (today : Int) : Scenario → Result Overlays
  | .trip params => .ok (tripOverlays params)
  | .purchase params => purchaseOverlays params
  | .custom events => do
    let overlays ← events.mapM (customOverlay (startOfHorizon today))
    .ok overlays.flatten

/-! ## Silencing -/

/-- The month range of a silencing event; without an end it is open. -/
def inMonthRange (fromMonth : Int) (toMonth : Option Int) (monthIndex : Nat) : Bool :=
  decide (fromMonth ≤ monthIndex) && toMonth.all (fun last => decide ((monthIndex : Int) ≤ last))

/-- The event silences the row this month. -/
def CustomEvent.silences (snap : RecurringSnapshot) (monthIndex : Nat) : CustomEvent → Bool
  | .incomeOff fromMonth toMonth => inMonthRange fromMonth toMonth monthIndex && snap.type == .income
  | .expenseOff fromMonth toMonth categoryIds =>
    inMonthRange fromMonth toMonth monthIndex && snap.type == .expense &&
      (categoryIds.isEmpty || snap.categoryId.any (categoryIds.contains ·))
  | .recurringOn | .oneOffIncome _ _ _ | .oneOffExpense _ _ _ => false

/-- The row fires this month. Only a custom scenario silences anything. -/
def shouldApply (scenario : Scenario) (snap : RecurringSnapshot) (monthIndex : Nat) : Bool :=
  match scenario with
  | .trip _ | .purchase _ => true
  | .custom events => !events.any (·.silences snap monthIndex)

/-! ## The month loop -/

/-- A template with its frontier and the instalments left. The budget rides here and
not on the snapshot, which every scenario shares. -/
structure QueueEntry where
  snap : RecurringSnapshot
  nextDue : Int
  remaining : Option Int

structure SeriesPoint where
  month : Int
  projectedBalance : ℚ

structure Alert where
  accountId : Nat
  month : Int
  projectedBalance : ℚ
  trigger : String

/-- The `balances` dict: its keys are the accounts of the world state. -/
abbrev Balances := Nat → Option ℚ

/-- `balances[account] += delta` if the account is there. -/
def Balances.post (balances : Balances) (account : Nat) (delta : ℚ) : Balances :=
  fun a => if a = account then (balances a).map (· + delta) else balances a

/-- What one occurrence posts. -/
def RecurringSnapshot.legs (snap : RecurringSnapshot) : List (Option Nat × ℚ) :=
  match snap.type with
  | .transfer => [(some snap.accountId, -snap.amount), (snap.toAccountId, snap.amount)]
  | .expense => [(some snap.accountId, -snap.amount)]
  | .income => [(some snap.accountId, snap.amount)]

def postLegs (balances : Balances) (legs : List (Option Nat × ℚ)) : Balances :=
  legs.foldl (fun balances leg =>
    match leg.1 with
    | some account => balances.post account leg.2
    | none => balances) balances

/-- Walk one template to the end of the month, posting what falls in the month. An
occurrence spends an instalment whether it posts or not. -/
def walkMonth (applyThisMonth : Bool) (monthDate monthEnd : Int) :
    Nat → QueueEntry → Balances → Result (QueueEntry × Balances)
  | 0, entry, balances => .ok (entry, balances)
  | fuel + 1, entry, balances =>
    if entry.nextDue ≤ monthEnd ∧ hasBudget entry.remaining then do
      let balances :=
        if applyThisMonth ∧ monthDate ≤ entry.nextDue then postLegs balances entry.snap.legs else balances
      let next ← advanceDate entry.nextDue entry.snap.frequency
      walkMonth applyThisMonth monthDate monthEnd fuel
        { entry with nextDue := next, remaining := spendOne entry.remaining } balances
    else .ok (entry, balances)

/-- Walk every template of the queue; each pass moves at least a day on. -/
def walkQueue (scenario : Scenario) (monthIndex : Nat) (monthDate monthEnd : Int) :
    List QueueEntry → Balances → Result (List QueueEntry × Balances)
  | [], balances => .ok ([], balances)
  | entry :: queue, balances => do
    let (entry, balances) ← walkMonth (shouldApply scenario entry.snap monthIndex) monthDate monthEnd
      (monthEnd + 1 - entry.nextDue).toNat entry balances
    let (queue, balances) ← walkQueue scenario monthIndex monthDate monthEnd queue balances
    .ok (entry :: queue, balances)

/-- Post one overlay event, and warn if it takes its account below zero. -/
def applyOverlay (month : Int) (acc : Balances × List Alert) (ev : OverlayEvent) : Balances × List Alert :=
  match acc.1 ev.accountId with
  | none => acc
  | some balance =>
    let balances := acc.1.post ev.accountId ev.delta
    if balance + ev.delta < 0 then
      (balances, acc.2 ++ [⟨ev.accountId, month, quantize (balance + ev.delta), ev.trigger⟩])
    else (balances, acc.2)

/-- What the month loop carries. -/
structure Projection where
  balances : Balances
  queue : List QueueEntry
  seriesByAccount : Nat → List SeriesPoint
  alerts : List Alert

/-- One month: the recurring rows, the overlays, and a point for every account. -/
def simulateMonth (today : Int) (scenario : Scenario) (overlays : Overlays) (p : Projection)
    (monthIndex : Nat) : Result Projection := do
  let monthDate ← plusMonths (startOfHorizon today) monthIndex
  let nextMonth ← plusMonths monthDate 1
  let month := monthOf monthDate
  let (queue, balances) ← walkQueue scenario monthIndex monthDate (nextMonth - 1) p.queue p.balances
  let events := (overlays.filter (fun e => e.1 == month)).map Prod.snd
  let (balances, alerts) := events.foldl (applyOverlay month) (balances, p.alerts)
  .ok
    { balances, queue, alerts
      seriesByAccount := fun a =>
        match balances a with
        | some balance => p.seriesByAccount a ++ [⟨month, quantize balance⟩]
        | none => p.seriesByAccount a }

/-- Month 0, before anything is posted. -/
def initialProjection (state : WorldState) : Projection where
  balances := fun a => (rowAt AccountSnapshot.accountId state.accounts a).map (·.startingBalance)
  queue := state.recurring.map (fun r => ⟨r, r.nextDueDate, r.remaining⟩)
  seriesByAccount := fun _ => []
  alerts := []

structure AccountSeries where
  accountId : Nat
  accountName : String
  currency : String
  points : List SeriesPoint

structure ProjectionResult where
  horizonMonths : Nat
  perAccountSeries : List AccountSeries
  alerts : List Alert

/-- Run the month-by-month projection. -/
def simulate (today : Int) (state : WorldState) (scenario : Scenario) (horizon : Nat) :
    Result ProjectionResult := do
  let overlays ← buildOverlayEvents today scenario
  let p ← (List.range horizon).foldlM (simulateMonth today scenario overlays) (initialProjection state)
  .ok
    { horizonMonths := horizon, alerts := p.alerts
      perAccountSeries := state.accounts.map (fun a =>
        ⟨a.accountId, a.accountName, a.currency, p.seriesByAccount a.accountId⟩) }

/-- `compare_scenarios`: one world state, the scenarios one after the other. -/
def compareScenarios (today : Int) (state : WorldState) (scenarios : List Scenario) (horizon : Nat) :
    Result (List ProjectionResult) :=
  scenarios.mapM (fun scenario => simulate today state scenario horizon)

end BetterDecision
