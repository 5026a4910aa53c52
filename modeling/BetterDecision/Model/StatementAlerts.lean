import BetterDecision.Lib.Lookback
import BetterDecision.Model.CardForecast

/-!
# Alerts on card statements

The two jobs of the scheduler that tell an organization of its card statements: one a few
days before a statement closes, one once it has closed. Neither keeps a list of what is
still to be told. Each works the closes out anew from the day of the tick, and leaves out
those its audit events of the last days have already.

The two jobs share their loop, and differ in the close they look for. The texts and the
amount of a notice are left out, for nothing that decides on a notice reads them.
-/

namespace BetterDecision

open Calendar

/-- `d - timedelta(days=n)`. -/
def daysBefore (d n : Int) : Result Int := if d - n < 1 then .error .overflow else .ok (d - n)

/-! ## The last close -/

structure CardAccount where
  id : Nat
  account : Account
  /-- `created_at.date()`. -/
  createdOn : Int

/-- The cards of an organization that have a cycle. -/
def activeCcAccounts (accounts : List CardAccount) (orgId : Nat) : List CardAccount :=
  accounts.filter fun a =>
    a.account.orgId = orgId ∧ a.account.slug = .creditCard ∧ a.account.isActive ∧ a.account.closeDay ≠ none

def resolveCycleForAccount (account : Account) (target : Int) : Result CreditCardCycle := do
  let closeDay ← found account.closeDay (.runtime "resolve_cycle requires a non-null close_day.")
  resolveCycle closeDay account.paymentDay account.paymentDayRelativeMonth target

/-- The cycle that closed last, unless the card was created after it had. -/
def mostRecentClosedCycle (card : CardAccount) (today : Int) : Result (Option CreditCardCycle) := do
  let cyc ← resolveCycleForAccount card.account today
  let closed ←
    if today < cyc.periodEndInclusive then do
      -- the cycle is still open, and the one before it ends on the day before it starts
      let dayBefore ← daysBefore cyc.periodStart 1
      resolveCycleForAccount card.account dayBefore
    else .ok cyc
  .ok (if closed.periodEndInclusive ≤ card.createdOn then none else some closed)

/-! ## The jobs -/

inductive AlertType
  /-- `scheduler.cc_statement.reminder`. -/
  | reminder
  /-- `scheduler.cc_statement.closed`. -/
  | closed
  deriving DecidableEq

/-- An audit event of a job. The account and the close are its detail. -/
structure AlertMarker where
  type : AlertType
  accountId : Nat
  closeDate : Int
  createdOn : Int

/-- A notification to the members of the organization. -/
structure AlertNotice where
  type : AlertType
  accountId : Nat
  accountName : String
  closeDate : Int
  sentOn : Int

structure AlertState where
  markers : List AlertMarker := []
  notices : List AlertNotice := []

structure DueCard where
  accountId : Nat
  accountName : String
  closeDate : Int

def DueCard.key (card : DueCard) : Nat × Int := (card.accountId, card.closeDate)

/-- `_DEDUP_LOOKBACK_DAYS`, of either job. -/
def dedupLookbackDays : Int := 40

def ccAlertsSentSince (markers : List AlertMarker) (type : AlertType) (since : Int) : List (Nat × Int) :=
  (markers.filter fun m => m.type = type ∧ since ≤ m.createdOn).map fun m => (m.accountId, m.closeDate)

/-- The lead, from the setting. There is no number in a setting that does not read as one. -/
def ccStatementLeadDays (setting : Option Int) : Int :=
  match setting with
  | none => 2
  | some value => max 0 (min 31 value)

/-- What stays as it is from tick to tick. The validators of an account keep its days from
1 to 31. -/
structure AlertConfig where
  orgId : Nat
  accounts : List CardAccount
  leadSetting : Option Int := none
  ids : (accounts.map (·.id)).Nodup
  closeDays : ∀ a ∈ accounts, 1 ≤ a.account.closeDay.getD 1
  paymentDays : ∀ a ∈ accounts, 1 ≤ a.account.paymentDay.getD 1

def AlertConfig.cards (config : AlertConfig) : List CardAccount := activeCcAccounts config.accounts config.orgId

section Jobs

variable (config : AlertConfig)

/-- The cards a job has something to tell of, whether or not it has told it. -/
def foundCards (find : CardAccount → Int → Result (Option DueCard)) (today : Int) : Result (List DueCard) := do
  let cards ← config.cards.mapM fun a => find a today
  .ok cards.reduceOption

/-- The loop of `_due_cards` and `_closed_cycles`. The organization's events are read once. -/
def dueCards (type : AlertType) (find : CardAccount → Int → Result (Option DueCard)) (s : AlertState)
    (today : Int) : Result (List DueCard) :=
  if config.cards.isEmpty then .ok []
  else do
    let since ← daysBefore today dedupLookbackDays
    let sent := ccAlertsSentSince s.markers type since
    let cards ← foundCards config find today
    .ok (cards.filter (·.key ∉ sent))

/-- The marker is on record before the notice goes out. -/
def sendAlert (type : AlertType) (today : Int) (s : AlertState) (card : DueCard) : AlertState where
  markers := s.markers ++
    [{ type, accountId := card.accountId, closeDate := card.closeDate, createdOn := today }]
  notices := s.notices ++
    [{ type, accountId := card.accountId, accountName := card.accountName, closeDate := card.closeDate,
       sentOn := today }]

/-- `run` of a job that is due. One that is not due has nobody to tell. -/
def runAlerts (type : AlertType) (find : CardAccount → Int → Result (Option DueCard)) (s : AlertState)
    (today : Int) : Result AlertState := do
  let due ← dueCards config type find s today
  .ok (due.foldl (sendAlert type today) s)

/-- The close a reminder is of: the next, when it is ahead and within the lead. -/
def reminderOf (a : CardAccount) (today : Int) : Result (Option DueCard) := do
  let cycle ← resolveCycleForAccount a.account today
  let daysUntil := cycle.periodEndInclusive - today
  .ok (if 0 < daysUntil ∧ daysUntil ≤ ccStatementLeadDays config.leadSetting then
      some { accountId := a.id, accountName := a.account.name, closeDate := cycle.periodEndInclusive }
    else none)

/-- The close an alert is of: the last. -/
def closedOf (a : CardAccount) (today : Int) : Result (Option DueCard) := do
  let cycle ← mostRecentClosedCycle a today
  .ok (cycle.map fun c => { accountId := a.id, accountName := a.account.name, closeDate := c.periodEndInclusive })

/-- `CcStatementReminderJob.run`. -/
def runReminders (s : AlertState) (today : Int) : Result AlertState :=
  runAlerts config .reminder (reminderOf config) s today

/-- `CcStatementCloseJob.run`. -/
def runClosed (s : AlertState) (today : Int) : Result AlertState := runAlerts config .closed closedOf s today

/-- A tick runs the jobs in the order of the registry. One that raises does so before it has
written anything, and the next goes on. -/
def alertTick (s : AlertState) (today : Int) : AlertState :=
  serve (runClosed config) (serve (runReminders config) s today) today

def alertTicks (ticks : List Int) : AlertState := ticks.foldl (alertTick config) {}

end Jobs

end BetterDecision
