import Mathlib
import BetterDecision.Lib.Table

/-!
# The database

One row type per ORM model, and the tables holding them. Columns that no
modelled function reads are left out. A foreign key is an id. Money is an `Int` of
cents, and a date is an `Int` too: its ordinal, with 0001-01-01 as day 1.

The last two fields of `Db` are history, not columns: they record what the two
writers that later claims are about have done, and no operation reads them.
-/

namespace BetterDecision

/-- A stored magnitude. `Transaction.amount` is unsigned and never zero. -/
abbrev Amount := { n : Int // 0 < n }

inductive TransactionType
  | income
  | expense
  | transfer
  deriving DecidableEq, Repr

inductive TransactionStatus
  | settled
  | pending
  deriving DecidableEq, Repr

inductive ReconciliationState
  | pendingReview
  | matched
  | unmatched
  | skipped
  | edited
  | accepted
  | rejected
  deriving DecidableEq, Repr

inductive Frequency
  | weekly
  | biweekly
  | monthly
  | quarterly
  | yearly
  deriving DecidableEq, Repr

inductive ImportBatchStatus
  | open
  | closed
  deriving DecidableEq, Repr

inductive CategoryType
  | income
  | expense
  | both
  deriving DecidableEq, Repr

/-- `AccountType.slug`. A user's own account type has none of the system slugs. -/
inductive AccountSlug
  | checking
  | savings
  | creditCard
  | investment
  | cash
  | loan
  | custom
  deriving DecidableEq, Repr

inductive PaymentStrategy
  | fullBalance
  | fixedAmount
  deriving DecidableEq, Repr

/-- A day of the month a billing cycle can start on. -/
abbrev CycleDay := { d : Nat // 1 ≤ d ∧ d ≤ 31 }

def firstOfMonth : CycleDay := ⟨1, by decide⟩

structure Organization where
  billingCycleDay : CycleDay := firstOfMonth
  allowManualBalanceAdjustment : Bool := false
  primaryCurrency : Option String := none
  forecastInputGranularity : Option String := none

structure Account where
  orgId : Nat
  name : String
  slug : AccountSlug := .checking
  balance : Int := 0
  currency : String := "EUR"
  isActive : Bool := true
  closeDay : Option Nat := none
  paymentDay : Option Nat := none
  paymentDayRelativeMonth : Option Nat := none
  paymentSourceAccountId : Option Nat := none
  fixedPaymentAmount : Option Int := none
  paymentStrategy : Option PaymentStrategy := none
  principalAmount : Option Int := none
  /-- In hundredths of a percent. -/
  interestRateApr : Option Int := none
  termMonths : Option Nat := none
  originationDate : Option Int := none
  firstPaymentDate : Option Int := none
  openingBalance : Int := 0
  openingBalanceDate : Int := 1

structure Category where
  orgId : Nat
  name : String
  slug : Option String := none
  type : CategoryType := .both
  parentId : Option Nat := none
  isSystem : Bool := false

structure Transaction where
  orgId : Nat
  accountId : Nat
  categoryId : Nat
  description : String
  amount : Amount
  type : TransactionType
  status : TransactionStatus := .settled
  linkedTransactionId : Option Nat := none
  recurringId : Option Nat := none
  recurringOriginId : Option Nat := none
  date : Int
  settledDate : Option Int := none
  isImported : Bool := false
  importBatchId : Option Nat := none
  reconciliationState : ReconciliationState := .accepted
  isManualAdjustment : Bool := false

structure RecurringTransaction where
  orgId : Nat
  accountId : Nat
  toAccountId : Option Nat := none
  categoryId : Nat
  description : String
  amount : Amount
  type : TransactionType
  frequency : Frequency
  nextDueDate : Int
  autoSettle : Bool := false
  isActive : Bool := true
  occurrenceCount : Option Int := none
  occurrencesElapsed : Int := 0
  lastSpentDate : Option Int := none

structure ImportBatch where
  orgId : Nat
  accountId : Nat
  status : ImportBatchStatus := .open
  rowCount : Int := 0
  acceptedCount : Int := 0
  pendingCount : Int := 0

structure BillingPeriod where
  orgId : Nat
  startDate : Int
  endDate : Option Int := none

structure Budget where
  orgId : Nat
  categoryId : Nat
  amount : Int
  periodStart : Int
  periodEnd : Option Int := none

/-- What the user plans to pay for the card cycle that closes in that month. -/
structure CcCyclePayment where
  accountId : Nat
  periodAnchorYear : Int
  periodAnchorMonth : Int
  amount : Int

/-- One occurrence consumed by `_advance_frontier`. -/
structure Spend where
  recurringId : Nat
  date : Int
  /-- The instalments the series had left just before. -/
  remaining : Option Int

structure Db where
  organizations : Table Organization := .empty
  accounts : Table Account := .empty
  categories : Table Category := .empty
  transactions : Table Transaction := .empty
  recurring : Table RecurringTransaction := .empty
  importBatches : Table ImportBatch := .empty
  billingPeriods : Table BillingPeriod := .empty
  budgets : Table Budget := .empty
  ccCyclePayments : Table CcCyclePayment := .empty
  /-- History: every occurrence consumed, oldest first. -/
  spends : List Spend := []
  /-- History: the pairs `_link_pair` has linked, expense leg first, less those
  unpaired since. -/
  pairings : List (Nat × Nat) := []

/-- What a service raises. The text is the one the source gives it. -/
inductive ServiceError
  | notFound (resource : String)
  | validation (detail : String)
  | conflict (detail : String)
  /-- `RuntimeError`. -/
  | runtime (detail : String)
  /-- `IntegrityError`: a unique constraint at commit. -/
  | integrity
  /-- Int arithmetic past `date.max`, which Python refuses. -/
  | overflow
  deriving DecidableEq, Repr

abbrev Result (α : Type) := Except ServiceError α

end BetterDecision
