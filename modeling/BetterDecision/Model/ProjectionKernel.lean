import BetterDecision.Model.LoanForecast

/-!
# The projection kernel

`projection_kernel.baseline`: what every active account of an org will hold, day by day.
The books already say it: the rows still pending, the occurrences no row stands for yet,
the card and loan payments these bring about, and the settled rows dated ahead, which the
balance already holds and the walk gives back on their days.

Everything becomes a `Booking`, and one walk an account lays them all. What is dated
before the walk lands on its first day.
-/

namespace BetterDecision

open Calendar

/-- A delta on an account. -/
structure Booking where
  accountId : Nat
  on : Int
  delta : Int

/-- The bounds of a projection, and the series it leaves out. -/
structure Frame where
  windowStart : Int
  firstPeriodEnd : Int
  walkStart : Int
  horizonEnd : Int
  excluded : List Nat

/-- `_add_day_delta`: the floor. -/
def Booking.floored (walkStart : Int) (b : Booking) : Booking :=
  if b.on < walkStart then { b with on := walkStart } else b

/-- The bookings of one account. -/
def bookingsOn (bookings : List Booking) (accountId : Nat) : List Point :=
  (bookings.filter (fun b => b.accountId == accountId)).map (fun b => (b.on, b.delta))

/-! ## Accounts -/

def activeAccounts (db : Db) (orgId : Nat) : List (Nat × Account) :=
  db.accounts.select (fun _ a => a.orgId == orgId && a.isActive)

/-- `accounts_by_id.get`. -/
def activeAccount (db : Db) (orgId id : Nat) : Option Account :=
  (findAccount db orgId id).filter (·.isActive)

/-- Where a liability is paid from, if that is an active account of its currency. -/
def fundingAccount (db : Db) (orgId sourceId : Nat) (liability : Account) : Option Nat :=
  ((activeAccount db orgId sourceId).filter (fun source => source.currency == liability.currency)).map
    (fun _ => sourceId)

/-! ## Pending rows -/

/-- `not_pending_of_series_filter`. -/
def notPendingOfSeriesFilter (recurringIds : List Nat) (t : Transaction) : Bool :=
  t.status != .pending || t.recurringId.all (fun i => !recurringIds.contains i)

/-- Income and what is neither come in, an expense goes out. -/
def signedDelta (t : Transaction) : Int := if t.type = .expense then -t.amount else t.amount

/-- What a row does to its account, on the day it counts. -/
def rowBooking (row : Row) : Booking :=
  { accountId := row.2.accountId, on := effectivePeriodDate row.2, delta := signedDelta row.2 }

/-- The rows that have not landed yet. Reverted ones never will. -/
def pendingRows (db : Db) (orgId : Nat) (frame : Frame) : List Row :=
  db.transactions.select (fun id t =>
    t.orgId == orgId && t.status == .pending && !t.isManualAdjustment &&
      balanceContributionFilter db.transactions (id, t) &&
      decide (frame.windowStart ≤ effectivePeriodDate t ∧ effectivePeriodDate t ≤ frame.horizonEnd) &&
      notPendingOfSeriesFilter frame.excluded t)

def pendingBookings (db : Db) (orgId : Nat) (frame : Frame) : List Booking :=
  (pendingRows db orgId frame).map rowBooking

/-! ## Recurring series -/

/-- The accounts one occurrence moves, and by how much. -/
def recurringLegs (r : RecurringTransaction) : List (Nat × Int) :=
  if r.type = .transfer then
    (r.accountId, -r.amount) :: r.toAccountId.toList.map (fun toAccountId => (toAccountId, r.amount))
  else [(r.accountId, if r.type = .income then r.amount else -r.amount)]

/-- A series on the walk: the legs on active accounts, and the dates no row stands for. -/
structure SeriesWalk where
  id : Nat
  series : RecurringTransaction
  legs : List (Nat × Int)
  dates : List Int

/-- A series none of whose accounts is active moves nothing. -/
def seriesWalks (db : Db) (orgId : Nat) (frame : Frame) : List SeriesWalk :=
  (db.recurring.select (fun id r => r.orgId == orgId && activeSeriesFilter r &&
    decide (r.nextDueDate ≤ frame.horizonEnd) && !frame.excluded.contains id)).filterMap (fun p =>
      let legs := (recurringLegs p.2).filter (fun leg => (activeAccount db orgId leg.1).isSome)
      if legs.isEmpty then none
      else some
        { id := p.1, series := p.2, legs
          dates := unmaterialised db orgId frame.windowStart frame.horizonEnd p })

/-- The deltas of a series, occurrence by occurrence. -/
def SeriesWalk.bookings (w : SeriesWalk) : List Booking :=
  w.dates.flatMap (fun on => w.legs.map (fun leg => { accountId := leg.1, on, delta := leg.2 }))

/-- The leg is the destination of a transfer. -/
def SeriesWalk.isTransferIn (w : SeriesWalk) (accountId : Nat) : Bool :=
  w.series.type == .transfer && w.series.toAccountId == some accountId

def recurringBookings (walks : List SeriesWalk) : List Booking := walks.flatMap (·.bookings)

/-- The recurring lines of an account. -/
def recurringLines (walks : List SeriesWalk) (accountId : Nat) : List Point :=
  bookingsOn (recurringBookings walks) accountId

/-- The transfers into an account that are no rows yet, keyed as rows would be. -/
def transferIn (walks : List SeriesWalk) (accountId : Nat) : List Credit :=
  (walks.filter (·.isTransferIn accountId)).flatMap (fun w =>
    w.dates.flatMap (fun on => (w.legs.filter (fun leg => leg.1 == accountId)).map (fun leg =>
      { key := .recurring w.id on, on, amount := leg.2 })))

/-- Everything else a series does to an account. -/
def charges (walks : List SeriesWalk) (accountId : Nat) : List Point :=
  bookingsOn (recurringBookings (walks.filter (fun w => !w.isTransferIn accountId))) accountId

/-! ## Cards -/

/-- A liability and what it is projected to be paid, from where. -/
structure Paydown where
  liabilityId : Nat
  sourceId : Nat
  payments : List Point
  interest : List Point := []

/-- The source drops by what the liability gains. Interest is the liability's alone. -/
def Paydown.bookings (p : Paydown) : List Booking :=
  p.interest.map (fun i => { accountId := p.liabilityId, on := i.1, delta := -i.2 }) ++
    p.payments.flatMap (fun x =>
      [{ accountId := p.sourceId, on := x.1, delta := -x.2 },
        { accountId := p.liabilityId, on := x.1, delta := x.2 }])

/-- The card accounts with a close day and a source: the two, beside the account. -/
def cardAccounts (db : Db) (orgId : Nat) : List (Nat × Account × Nat × Nat) :=
  (activeAccounts db orgId).filterMap (fun p =>
    match p.2.closeDay, p.2.paymentSourceAccountId with
    | some closeDay, some sourceId =>
      if p.2.slug = .creditCard then some (p.1, p.2, closeDay, sourceId) else none
    | _, _ => none)

/-- `load_cc_ledgers`, for one card and unbounded. -/
def cardLedger (db : Db) (orgId accountId : Nat) (excluded : List Nat) : List Point :=
  (db.transactions.select (fun id t => t.orgId == orgId && t.accountId == accountId &&
    balanceContributionFilter db.transactions (id, t) && notPendingOfSeriesFilter excluded t)).map
      (fun row => (effectivePeriodDate row.2,
        if row.2.type = .income then (row.2.amount : Int) else -row.2.amount))

/-- The linked rows that come into an account. -/
def linkedIncome (db : Db) (orgId accountId : Nat) (excluded : List Nat) : List Row :=
  db.transactions.select (fun id t => t.orgId == orgId && t.accountId == accountId &&
    t.linkedTransactionId.isSome && t.type == .income &&
    balanceContributionFilter db.transactions (id, t) && notPendingOfSeriesFilter excluded t)

def cardCredits (db : Db) (orgId accountId : Nat) (excluded : List Nat) : List Credit :=
  (linkedIncome db orgId accountId excluded).map (fun row =>
    { key := .row row.1, on := effectivePeriodDate row.2, amount := row.2.amount })

/-- The amount the user set for the cycle that closes in a month. -/
def perCycleAmount (db : Db) (accountId : Nat) (month : Int) : Option Int :=
  ((db.ccCyclePayments.select (fun _ c => c.accountId == accountId &&
    c.periodAnchorYear == month / 12 && c.periodAnchorMonth == month % 12 + 1)).getLast?).map (·.2.amount)

/-- What a card reads: an un-generated transfer into it is read as the generated one. -/
def cardBooks (db : Db) (orgId : Nat) (frame : Frame) (walks : List SeriesWalk) (cardId : Nat) : CardBooks :=
  let transferIn := transferIn walks cardId
  { ledger := cardLedger db orgId cardId frame.excluded ++ transferIn.map (fun c => (c.on, c.amount))
    credits := cardCredits db orgId cardId frame.excluded ++ transferIn
    perCycleAmount := perCycleAmount db cardId
    projected := charges walks cardId
    projectedAfter := frame.firstPeriodEnd }

def cardPaydowns (db : Db) (orgId : Nat) (frame : Frame) (walks : List SeriesWalk) :
    Result (List Paydown) :=
  ((cardAccounts db orgId).filter (fun card => (fundingAccount db orgId card.2.2.2 card.2.1).isSome)).mapM
    (fun (cardId, card, closeDay, sourceId) => do
      let payments ← synthesizeAccountCcPayments card closeDay frame.windowStart frame.horizonEnd
        (cardBooks db orgId frame walks cardId)
      .ok { liabilityId := cardId, sourceId, payments })

/-! ## Loans -/

/-- The columns a loan needs before it is projected. -/
structure LoanTerms where
  sourceId : Nat
  principalAmount : Int
  interestRateApr : Int
  termMonths : Nat
  firstPaymentDate : Int

def loanTerms (a : Account) : Option LoanTerms := do
  let sourceId ← a.paymentSourceAccountId
  let principalAmount ← a.principalAmount
  let interestRateApr ← a.interestRateApr
  let termMonths ← a.termMonths
  let _ ← a.originationDate
  let firstPaymentDate ← a.firstPaymentDate
  some { sourceId, principalAmount, interestRateApr, termMonths, firstPaymentDate }

def loanAccounts (db : Db) (orgId : Nat) : List (Nat × Account × LoanTerms) :=
  (activeAccounts db orgId).filterMap (fun p =>
    if p.2.slug = .loan then (loanTerms p.2).map (fun terms => (p.1, p.2, terms)) else none)

/-- What the synthesis of a loan's payments reads. -/
structure LoanBooks where
  /-- Payments made by hand, each of them the payment of its period. -/
  manualOn : List Int
  /-- Recurring legs, generated or not: the payment once they sum to it. -/
  recurringOn : List Point
  /-- Everything pending or projected on the loan. -/
  legsOn : List Point

def loanBooks (db : Db) (orgId : Nat) (frame : Frame) (walks : List SeriesWalk) (loanId : Nat) : LoanBooks :=
  let paid := (linkedIncome db orgId loanId frame.excluded).filter (fun row =>
    decide (frame.windowStart ≤ effectivePeriodDate row.2 ∧ effectivePeriodDate row.2 ≤ frame.horizonEnd))
  let isManual (row : Row) : Bool := (row.2.recurringOriginId.or row.2.recurringId).isNone
  { manualOn := (paid.filter isManual).map (fun row => effectivePeriodDate row.2)
    recurringOn := (paid.filter (fun row => !isManual row)).map
        (fun row => (effectivePeriodDate row.2, (row.2.amount : Int))) ++
      (transferIn walks loanId).map (fun c => (c.on, c.amount))
    legsOn := bookingsOn (pendingBookings db orgId frame) loanId ++ recurringLines walks loanId }

/-- The amounts from `start` on and before `stop`. -/
def amountIn (points : List Point) (start stop : Int) : Int :=
  ((points.filter (fun p => decide (start ≤ p.1 ∧ p.1 < stop))).map Prod.snd).sum

def LoanBooks.paidIn (books : LoanBooks) (pmt start stop : Int) : Bool :=
  books.manualOn.any (fun d => decide (start ≤ d ∧ d ≤ stop)) ||
    decide (pmt ≤ amountIn books.recurringOn start (stop + 1))

structure LoanRun where
  balance : Int
  payments : List Point := []
  interest : List Point := []

/-- A later period opens with the legs of the one before, and a month of interest. -/
def accrueInterest (terms : LoanTerms) (books : LoanBooks) (rate : ℚ) (previous : Int × Int)
    (period : Int × Int) (run : LoanRun) : Result LoanRun := do
  let balance := run.balance + amountIn books.legsOn previous.1 period.1
  let due ← dueLoanPaymentDates terms.firstPaymentDate terms.termMonths period.1 period.2
  match due with
  | [] => .ok { run with balance }
  | on :: _ =>
    let interest := if balance < 0 then monthInterest balance rate else 0
    .ok (if 0 < interest then
      { run with balance := balance - interest, interest := run.interest ++ [(on, interest)] }
    else { run with balance })

/-- One period, after the one before it if there is one. -/
def payLoanPeriod (terms : LoanTerms) (books : LoanBooks) (pmt : Int) (rate : ℚ) (run : LoanRun)
    (periods : Option (Int × Int) × (Int × Int)) : Result LoanRun := do
  let (previous, period) := periods
  let run ← match previous with
    | none => .ok run
    | some previous => accrueInterest terms books rate previous period run
  let past ← dayAfter period.2
  -- capped at what is owed once the period's own legs are in
  let payments ← synthesizeAccountLoanPayment terms.firstPaymentDate terms.termMonths
    (run.balance + amountIn books.legsOn period.1 past) pmt period.1 period.2
    (books.paidIn pmt period.1 period.2)
  .ok { run with
    balance := run.balance + (payments.map Prod.snd).sum
    payments := run.payments ++ payments }

def loanPaydowns (db : Db) (orgId : Nat) (frame : Frame) (walks : List SeriesWalk) :
    Result (List Paydown) :=
  let loans := loanAccounts db orgId
  if loans.isEmpty then .ok []
  else do
    let periods ← loanPeriods frame.windowStart frame.firstPeriodEnd frame.horizonEnd
    (loans.filter (fun loan => (fundingAccount db orgId loan.2.2.sourceId loan.2.1).isSome)).mapM
      (fun (loanId, loan, terms) => do
        let pmt := computePmt terms.principalAmount terms.interestRateApr terms.termMonths
        let run ← ((none :: periods.map some).zip periods).foldlM
          (payLoanPeriod terms (loanBooks db orgId frame walks loanId) pmt (monthlyRate terms.interestRateApr))
          { balance := loan.balance }
        .ok { liabilityId := loanId, sourceId := terms.sourceId, payments := run.payments
              interest := run.interest })

/-! ## The opening seed -/

/-- The settled rows the walk gives back: dated after its first day, in the first period. -/
def futureSettledRows (db : Db) (orgId : Nat) (frame : Frame) : List Row :=
  db.transactions.select (fun id t =>
    t.orgId == orgId && t.status == .settled && balanceContributionFilter db.transactions (id, t) &&
      decide (frame.walkStart < effectivePeriodDate t ∧
        effectivePeriodDate t ≤ min frame.firstPeriodEnd frame.horizonEnd))

def futureSettledBookings (db : Db) (orgId : Nat) (frame : Frame) : List Booking :=
  (futureSettledRows db orgId frame).map rowBooking

/-! ## The walk -/

/-- End-of-day balances: every day to `dailyEnd`, then month-ends, then `horizonEnd`. The
walk looks one day past its last, so the calendar's last day cannot be walked. -/
def walk (seed : Int) (perDay : List Point) (walkStart dailyEnd horizonEnd : Int) : Result (List Point) := do
  refuse (dateMax ≤ horizonEnd) .overflow
  .ok (Dated.walk (Dated.onDay perDay)
    (fun day => decide (day ≤ dailyEnd ∨ dayOf (day + 1) = 1 ∨ day = horizonEnd))
    (horizonEnd + 1 - walkStart).toNat walkStart seed)

structure AccountBaseline where
  accountId : Nat
  account : Account
  balance : Int
  /-- The balance less the settled rows laid back on their days. -/
  seed : Int
  pendingDelta : Int
  ccPayments : List Point
  loanPayments : List Point
  loanInterest : List Point
  recurringLines : List Point
  points : List Point

/-- `points[-1][1]`. -/
def AccountBaseline.endBalance (a : AccountBaseline) : Int := (a.points.getLast?.map Prod.snd).getD 0

structure Baseline where
  windowStart : Int
  firstPeriodEnd : Int
  walkStart : Int
  horizonEnd : Int
  accounts : List AccountBaseline
  /-- The dates of each series the walk booked. -/
  seriesDates : List (Nat × List Int)

/-- `series_dates.get(id, [])`. -/
def Baseline.datesOf (b : Baseline) (id : Nat) : List Int :=
  ((b.seriesDates.find? (fun p => p.1 == id)).map Prod.snd).getD []

/-- The current period's window, read only: without an open row, of the row that would be
made. -/
def currentWindow (db : Db) (orgId : Nat) (today : Int) : Result (Int × Int) := do
  let (id, period) : Option Nat × BillingPeriod :=
    match openPeriods db orgId with
    | p :: _ => (some p.1, p.2)
    | [] =>
      let start := (currentCycleWindow (cycleDayOf db orgId) today).1
      match periodAt db orgId start with
      | some p => (some p.1, p.2)
      | none => (none, { orgId, startDate := start })
  let windowEnd ← periodWindowEnd db orgId id period today
  .ok (period.startDate, windowEnd)

/-- `currencies.get`: the points of a currency's accounts, summed index by index. -/
def currencySeries (accounts : List AccountBaseline) (currency : String) : List Point :=
  ((accounts.filter (fun a => a.account.currency == currency)).map (·.points)).foldl (fun total points =>
    if total.isEmpty then points else List.zipWith (fun p q => (p.1, p.2 + q.2)) total points) []

/-- The first period: as given, else the current window, else a month. -/
def firstPeriod (db : Db) (orgId : Nat) (today : Int) (windowStart firstPeriodEnd : Option Int) :
    Result (Int × Int) :=
  match windowStart, firstPeriodEnd with
  | some start, some stop => .ok (start, stop)
  | some start, none => do
    let next ← plusMonths start 1
    .ok (start, next - 1)
  | none, firstPeriodEnd => do
    let (start, defaultEnd) ← currentWindow db orgId today
    .ok (start, firstPeriodEnd.getD defaultEnd)

/-- `DAILY_MONTHS`. -/
def dailyMonths : Int := 24

/-- The last day with a point of its own. -/
def dailyEnd (frame : Frame) : Result Int := do
  let next ← plusMonths (onMonth (monthOf frame.walkStart) 1) dailyMonths
  .ok (min frame.horizonEnd (max frame.firstPeriodEnd (next - 1)))

/-- The payments of one liability. -/
def paidOn (paydowns : List Paydown) (accountId : Nat) (of : Paydown → List Point) : List Point :=
  (paydowns.filter (fun p => p.liabilityId == accountId)).flatMap of

/-- One account, under everything booked. -/
def accountBaseline (db : Db) (orgId : Nat) (frame : Frame) (walks : List SeriesWalk)
    (cards loans : List Paydown) (dailyEnd : Int) (p : Nat × Account) : Result AccountBaseline := do
  let bookings := pendingBookings db orgId frame ++ recurringBookings walks ++
    cards.flatMap (·.bookings) ++ loans.flatMap (·.bookings) ++ futureSettledBookings db orgId frame
  let dayDeltas := bookings.map (Booking.floored frame.walkStart)
  let seed := p.2.balance - Dated.total (bookingsOn (futureSettledBookings db orgId frame) p.1)
  let points ← walk seed (bookingsOn dayDeltas p.1) frame.walkStart dailyEnd frame.horizonEnd
  .ok
    { accountId := p.1, account := p.2, balance := p.2.balance, seed
      pendingDelta := Dated.total (bookingsOn (pendingBookings db orgId frame) p.1)
      ccPayments := paidOn cards p.1 (·.payments)
      loanPayments := paidOn loans p.1 (·.payments)
      loanInterest := paidOn loans p.1 (·.interest)
      recurringLines := recurringLines walks p.1
      points }

/-- Project every active account of the org up to `horizonEnd`. -/
def baseline (db : Db) (orgId : Nat) (today horizonEnd : Int) (excluded : List Nat)
    (windowStart firstPeriodEnd : Option Int) : Result Baseline := do
  let (windowStart, firstPeriodEnd) ← firstPeriod db orgId today windowStart firstPeriodEnd
  -- clamped: a past window is walked over its one last day
  let frame : Frame :=
    { windowStart, firstPeriodEnd, walkStart := min (max windowStart today) horizonEnd, horizonEnd, excluded }
  let walks := seriesWalks db orgId frame
  let cards ← cardPaydowns db orgId frame walks
  let loans ← loanPaydowns db orgId frame walks
  let dailyEnd ← dailyEnd frame
  let accounts ← (activeAccounts db orgId).mapM (accountBaseline db orgId frame walks cards loans dailyEnd)
  .ok
    { windowStart, firstPeriodEnd, walkStart := frame.walkStart, horizonEnd, accounts
      seriesDates := walks.map (fun w => (w.id, w.dates)) }

/-! ## The month-end forecast -/

/-- One account of the dashboard's forecast. -/
structure AccountForecast where
  accountId : Nat
  balance : Int
  pendingDelta : Int
  expectedMonthEndBalance : Int
  dailyBalances : List Point

/-- `compute_account_balance_forecast` over a window, account by account. -/
def accountForecasts (db : Db) (orgId : Nat) (pStart windowEnd today : Int) : Result (List AccountForecast) := do
  let projection ← baseline db orgId today windowEnd [] (some pStart) (some windowEnd)
  .ok (projection.accounts.map (fun row =>
    { accountId := row.accountId, balance := row.balance, pendingDelta := row.pendingDelta
      expectedMonthEndBalance := row.endBalance, dailyBalances := row.points }))

/-- The period asked for, or the current one, made if missing. -/
def resolvePeriod (db : Db) (orgId : Nat) (periodStart : Option Int) (today : Int) :
    Result (Db × Nat × BillingPeriod) :=
  match periodStart with
  | some start => do
    let p ← found (periodAt db orgId start) (.validation "Billing period not found")
    .ok (db, p)
  | none => .ok (getCurrentPeriod db orgId today)

/-- Expected month-end balance per account for a billing period. -/
def computeAccountBalanceForecast (db : Db) (orgId : Nat) (periodStart : Option Int) (today : Int) :
    Result (Db × List AccountForecast) := do
  let (db, id, period) ← resolvePeriod db orgId periodStart today
  let windowEnd ← periodWindowEnd db orgId (some id) period today
  let accounts ← accountForecasts db orgId period.startDate windowEnd today
  .ok (db, accounts)

end BetterDecision
