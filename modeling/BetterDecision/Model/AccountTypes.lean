import BetterDecision.Model.Currency
import BetterDecision.Model.Db
import BetterDecision.Model.LoanForecast

/-!
# Accounts and their types

`create_account`, `update_account` and `delete_account`, with the services they ask:
`account_type_change_service`, `credit_card_service`, `loan_service` and
`payment_source_service`. An account row carries the columns of every type; the request
handlers decide which of them its type may fill.

A body distinguishes a field that was left out (`none`) from one sent as null
(`some none`). The ranges the schema checks are left to it: nothing here depends on them.
What a request stages is its own until it commits, so a refused one returns no database.
-/

namespace BetterDecision

structure AccountType where
  orgId : Nat
  slug : AccountSlug := .custom
  isSystem : Bool := false
  deriving DecidableEq, Repr

/-- A row of `accounts`, with the columns of all types. -/
structure AccountRow where
  orgId : Nat
  accountTypeId : Nat
  name : String
  balance : Int := 0
  currency : String := "EUR"
  isActive : Bool := true
  closeDay : Option Nat := none
  paymentDay : Option Nat := none
  paymentDayRelativeMonth : Option Nat := none
  paymentSourceAccountId : Option Nat := none
  creditLimit : Option Int := none
  /-- In hundredths of a percent, as `interestRateApr`. -/
  apr : Option Int := none
  fixedPaymentAmount : Option Int := none
  paymentStrategy : Option PaymentStrategy := none
  principalAmount : Option Int := none
  interestRateApr : Option Int := none
  termMonths : Option Nat := none
  originationDate : Option Int := none
  firstPaymentDate : Option Int := none
  isDefault : Bool := false
  openingBalance : Int := 0
  openingBalanceDate : Int := 1
  deriving DecidableEq, Repr

structure AccountsDb where
  organizations : Table Organization := .empty
  accountTypes : Table AccountType := .empty
  accounts : Table AccountRow := .empty
  recurring : Table RecurringTransaction := .empty
  transactions : Table Transaction := .empty
  ccCyclePayments : Table CcCyclePayment := .empty

/-- An amount of cents, as `Decimal` prints it. -/
def centsText (n : Int) : String :=
  let cents := n.natAbs % 100
  (if n < 0 then "-" else "") ++ toString (n.natAbs / 100) ++ "." ++ (if cents < 10 then "0" else "") ++
    toString cents

/-! ## Types -/

/-- `_LIABILITY`. -/
def AccountSlug.isLiability (slug : AccountSlug) : Bool := slug == .creditCard || slug == .loan

/-- `PAYMENT_SOURCE_ALLOWED_SLUGS`. -/
def AccountSlug.isPaymentSource (slug : AccountSlug) : Bool :=
  slug == .checking || slug == .savings || slug == .cash

def AccountsDb.slugOf (db : AccountsDb) (account : AccountRow) : Option AccountSlug :=
  (db.accountTypes.get? account.accountTypeId).map AccountType.slug

def AccountsDb.ownType (db : AccountsDb) (orgId typeId : Nat) : Option AccountType :=
  (db.accountTypes.get? typeId).filter (fun t => t.orgId == orgId)

def AccountsDb.ownAccount (db : AccountsDb) (orgId accountId : Nat) : Option AccountRow :=
  (db.accounts.get? accountId).filter (fun a => a.orgId == orgId)

/-! ## What a type allows -/

/-- What a source slug and a target slug ask of `close_day`. -/
def validateCloseDayCascade (source : Option AccountSlug) (target : AccountSlug) (closeDay : Option (Option Nat)) :
    Except HttpError Unit :=
  if target = .creditCard then
    if source = some .creditCard then
      refuse (closeDay = some none) ⟨400, "close_day is required for credit_card accounts"⟩
    else
      refuse (closeDay.getD none = none) ⟨400, "close_day is required when changing to credit_card"⟩
  else
    refuse (closeDay.getD none ≠ none) ⟨400, "close_day is only allowed on credit_card accounts"⟩

def validateCreateCloseDay (target : AccountSlug) (closeDay : Option Nat) : Except HttpError Unit := do
  refuse (target = .creditCard ∧ closeDay = none)
    ⟨400, "close_day is required when creating a credit_card account"⟩
  refuse (target ≠ .creditCard ∧ closeDay ≠ none) ⟨400, "close_day is only allowed on credit_card accounts"⟩

/-- A statement cannot be paid in the month it closes on or before the day it closes. A
missing payment day means day 1, a missing month the next one. -/
def rejectSameMonthPaymentBeforeClose (closeDay paymentDay paymentDayRelativeMonth : Option Nat) :
    Except HttpError Unit :=
  if paymentDayRelativeMonth.getD 1 ≠ 0 then .ok ()
  else
    match closeDay with
    | none => .ok ()
    | some closeDay =>
      refuse (paymentDay.getD 1 ≤ closeDay)
        ⟨400, "payment_day must be after close_day when the payment is in " ++
          "the same month as the close (payment_day_relative_month = 0)"⟩

def validatePaymentDayCascade (target : AccountSlug) (paymentDay paymentDayRelativeMonth : Option (Option Nat)) :
    Except HttpError Unit :=
  if target = .creditCard then .ok ()
  else do
    refuse (paymentDay.getD none ≠ none) ⟨400, "payment_day is only allowed on credit_card accounts"⟩
    refuse (paymentDayRelativeMonth.getD none ≠ none)
      ⟨400, "payment_day_relative_month is only allowed on credit_card accounts"⟩

def validateCreatePaymentDay (target : AccountSlug) (paymentDay paymentDayRelativeMonth closeDay : Option Nat) :
    Except HttpError Unit :=
  if target ≠ .creditCard then do
    refuse (paymentDay ≠ none) ⟨400, "payment_day is only allowed on credit_card accounts"⟩
    refuse (paymentDayRelativeMonth ≠ none)
      ⟨400, "payment_day_relative_month is only allowed on credit_card accounts"⟩
  else rejectSameMonthPaymentBeforeClose closeDay paymentDay paymentDayRelativeMonth

/-- A column that only one type fills. -/
def onlyAllowedOn {α : Type} [DecidableEq α] (type field : String) (value : Option α) : Except HttpError Unit :=
  refuse (value ≠ none) ⟨422, s!"{field} is only allowed on {type} accounts"⟩

def validateCreditCardFields (target : AccountSlug) (creditLimit apr : Option Int)
    (paymentStrategy : Option PaymentStrategy) (fixedPaymentAmount : Option Int) : Except HttpError Unit :=
  if target ≠ .creditCard then do
    onlyAllowedOn "credit_card" "credit_limit" creditLimit
    onlyAllowedOn "credit_card" "apr" apr
    onlyAllowedOn "credit_card" "payment_strategy" paymentStrategy
    onlyAllowedOn "credit_card" "fixed_payment_amount" fixedPaymentAmount
  else do
    refuse (∃ limit ∈ creditLimit, limit ≤ 0) ⟨422, "credit_limit must be greater than 0"⟩
    refuse (∃ rate ∈ apr, ¬ (0 ≤ rate ∧ rate ≤ 10000)) ⟨422, "apr must be between 0 and 100"⟩
    if paymentStrategy = some .fixedAmount then
      refuse (fixedPaymentAmount = none ∨ ∃ amount ∈ fixedPaymentAmount, amount ≤ 0)
        ⟨422, "fixed_payment_amount is required and must be greater " ++
          "than 0 for the fixed_amount payment strategy"⟩
    else
      refuse (fixedPaymentAmount ≠ none)
        ⟨422, "fixed_payment_amount is only allowed with the fixed_amount payment strategy"⟩

/-- 1900-01-01. -/
def loanDateMin : Int := 693596

/-- 2200-12-31. -/
def loanDateMax : Int := 803533

/-- A loan column, which a loan must fill. -/
def requiredForLoan {α : Type} (field : String) (value : Option α) : Except HttpError α :=
  found value ⟨422, s!"{field} is required for loan accounts"⟩

def validateLoanFields (target : AccountSlug) (principalAmount interestRateApr : Option Int)
    (termMonths : Option Nat) (originationDate firstPaymentDate : Option Int) : Except HttpError Unit :=
  if target ≠ .loan then do
    onlyAllowedOn "loan" "principal_amount" principalAmount
    onlyAllowedOn "loan" "interest_rate_apr" interestRateApr
    onlyAllowedOn "loan" "term_months" termMonths
    onlyAllowedOn "loan" "origination_date" originationDate
    onlyAllowedOn "loan" "first_payment_date" firstPaymentDate
  else do
    let principal ← requiredForLoan "principal_amount" principalAmount
    let rate ← requiredForLoan "interest_rate_apr" interestRateApr
    let term ← requiredForLoan "term_months" termMonths
    let origination ← requiredForLoan "origination_date" originationDate
    let firstPayment ← requiredForLoan "first_payment_date" firstPaymentDate
    refuse (principal ≤ 0) ⟨422, "principal_amount must be greater than 0"⟩
    refuse (¬ (0 ≤ rate ∧ rate ≤ 99999)) ⟨422, "interest_rate_apr must be between 0 and 999.99"⟩
    refuse (¬ (1 ≤ term ∧ term ≤ 480)) ⟨422, "term_months must be between 1 and 480"⟩
    refuse (¬ (loanDateMin ≤ origination ∧ origination ≤ loanDateMax))
      ⟨422, "origination_date must be between 1900-01-01 and 2200-12-31"⟩
    refuse (¬ (loanDateMin ≤ firstPayment ∧ firstPayment ≤ loanDateMax))
      ⟨422, "first_payment_date must be between 1900-01-01 and 2200-12-31"⟩
    refuse (firstPayment < origination) ⟨422, "first_payment_date must be on or after origination_date"⟩
    refuse (computePmt principal rate term ≤ 0)
      ⟨422, "loan terms give a monthly payment of 0.00; raise principal_amount or shorten term_months"⟩

/-- The account a bill is to be paid from. On create the target has no id yet. What the
target is, is not asked. -/
def validatePaymentSourceAccount (db : AccountsDb) (orgId : Nat) (source target : Option Nat) :
    Except HttpError Unit :=
  match source with
  | none => .ok ()
  | some sourceId => do
    refuse (target = some sourceId) ⟨422, "An account cannot be its own payment source"⟩
    let account ← found (db.ownAccount orgId sourceId) ⟨422, "Payment source account not found"⟩
    refuse (¬ ∃ slug ∈ db.slugOf account, slug.isPaymentSource)
      ⟨422, "Payment source must be a checking, savings, or cash account"⟩
    refuse (¬ account.isActive) ⟨422, "Payment source account is inactive"⟩

/-! ## Creating -/

structure AccountCreate where
  name : String
  accountTypeId : Nat
  currency : String := "EUR"
  closeDay : Option Nat := none
  paymentDay : Option Nat := none
  paymentDayRelativeMonth : Option Nat := none
  openingBalance : Int := 0
  openingBalanceDate : Option Int := none
  paymentSourceAccountId : Option Nat := none
  creditLimit : Option Int := none
  apr : Option Int := none
  paymentStrategy : Option PaymentStrategy := none
  fixedPaymentAmount : Option Int := none
  principalAmount : Option Int := none
  interestRateApr : Option Int := none
  termMonths : Option Nat := none
  originationDate : Option Int := none
  firstPaymentDate : Option Int := none

/-- The row `create_account` adds. A missing opening date takes the column's default,
the current date. -/
def AccountCreate.row (body : AccountCreate) (today : Int) (orgId : Nat) (currency : String) : AccountRow where
  orgId := orgId
  accountTypeId := body.accountTypeId
  name := body.name
  balance := body.openingBalance
  currency := currency
  closeDay := body.closeDay
  paymentDay := body.paymentDay
  paymentDayRelativeMonth := body.paymentDayRelativeMonth
  openingBalance := body.openingBalance
  openingBalanceDate := body.openingBalanceDate.getD today
  paymentSourceAccountId := body.paymentSourceAccountId
  creditLimit := body.creditLimit
  apr := body.apr
  paymentStrategy := body.paymentStrategy
  fixedPaymentAmount := body.fixedPaymentAmount
  principalAmount := body.principalAmount
  interestRateApr := body.interestRateApr
  termMonths := body.termMonths
  originationDate := body.originationDate
  firstPaymentDate := body.firstPaymentDate

/-- `assert_org_currency_allows`: `LIMIT 1` takes the first account of the org. -/
def assertOrgCurrencyAllows (str : StrMethods) (db : AccountsDb) (orgId : Nat) (currency : String) :
    Except HttpError AccountsDb := do
  let existing := (db.accounts.select (fun _ a => a.orgId == orgId)).head?.map (fun p => p.2.currency)
  let primary ← orgCurrencyVerdict str existing currency
  match primary with
  | none => .ok db
  | some code =>
    .ok { db with
      organizations := db.organizations.modify orgId (fun o => { o with primaryCurrency := some code }) }

def createAccount (str : StrMethods) (db : AccountsDb) (today : Int) (orgId : Nat) (body : AccountCreate) :
    Except HttpError AccountsDb := do
  let currency ← currencyMustBeIso4217 str body.currency
  let targetType ← found (db.ownType orgId body.accountTypeId) ⟨400, "Invalid account type"⟩
  let db ← assertOrgCurrencyAllows str db orgId currency
  validateCreateCloseDay targetType.slug body.closeDay
  validateCreatePaymentDay targetType.slug body.paymentDay body.paymentDayRelativeMonth body.closeDay
  validateCreditCardFields targetType.slug body.creditLimit body.apr body.paymentStrategy body.fixedPaymentAmount
  validateLoanFields targetType.slug body.principalAmount body.interestRateApr body.termMonths
    body.originationDate body.firstPaymentDate
  validatePaymentSourceAccount db orgId body.paymentSourceAccountId none
  .ok { db with accounts := db.accounts.insert (body.row today orgId currency) }

/-! ## Updating -/

structure AccountUpdate where
  name : Option String := none
  accountTypeId : Option Nat := none
  isActive : Option Bool := none
  closeDay : Option (Option Nat) := none
  paymentDay : Option (Option Nat) := none
  paymentDayRelativeMonth : Option (Option Nat) := none
  isDefault : Option Bool := none
  paymentSourceAccountId : Option (Option Nat) := none
  openingBalance : Option Int := none
  openingBalanceDate : Option Int := none
  creditLimit : Option (Option Int) := none
  apr : Option (Option Int) := none
  paymentStrategy : Option (Option PaymentStrategy) := none
  fixedPaymentAmount : Option (Option Int) := none
  principalAmount : Option (Option Int) := none
  interestRateApr : Option (Option Int) := none
  termMonths : Option (Option Nat) := none
  originationDate : Option (Option Int) := none
  firstPaymentDate : Option (Option Int) := none

/-- The body sends the type or a column that belongs to one, so the request runs in one
locked transaction. -/
def AccountUpdate.touchesTypeOrLiabilityColumns (body : AccountUpdate) : Bool :=
  body.accountTypeId.isSome || body.closeDay.isSome || body.paymentDay.isSome ||
    body.paymentDayRelativeMonth.isSome || body.creditLimit.isSome || body.apr.isSome ||
    body.paymentStrategy.isSome || body.fixedPaymentAmount.isSome || body.principalAmount.isSome ||
    body.interestRateApr.isSome || body.termMonths.isSome || body.originationDate.isSome ||
    body.firstPaymentDate.isSome

/-! ### Clearing the columns of the type that is left -/

def AccountRow.clearCardDays (account : AccountRow) : AccountRow :=
  { account with closeDay := none, paymentDay := none, paymentDayRelativeMonth := none }

def AccountRow.clearPaymentSource (account : AccountRow) : AccountRow :=
  { account with paymentSourceAccountId := none }

def AccountRow.clearCardMetadata (account : AccountRow) : AccountRow :=
  { account with creditLimit := none, apr := none, paymentStrategy := none, fixedPaymentAmount := none }

def AccountRow.clearLoan (account : AccountRow) : AccountRow :=
  { account with
    principalAmount := none, interestRateApr := none, termMonths := none, originationDate := none,
    firstPaymentDate := none }

/-- Some transfer template, paused ones too, takes its money from this account. -/
def AccountsDb.isTransferSource (db : AccountsDb) (orgId accountId : Nat) : Bool :=
  !(db.recurring.select (fun _ r => r.orgId == orgId && r.type == .transfer && r.accountId == accountId)).isEmpty

structure TypeChangeResult where
  newTypeSlug : AccountSlug
  /-- The ids of the cycle payments that go with the card. -/
  deletedCyclePayments : List Nat

/-- The row as the type change stages it. A card's days are written only if they were
sent. -/
def AccountRow.changeType (account : AccountRow) (targetTypeId : Nat) (targetSlug : AccountSlug)
    (closeDay paymentDay paymentDayRelativeMonth : Option (Option Nat)) : AccountRow :=
  let account := { account with accountTypeId := targetTypeId }
  let account :=
    if targetSlug = .creditCard then
      { account with
        closeDay := closeDay.getD account.closeDay
        paymentDay := paymentDay.getD account.paymentDay
        paymentDayRelativeMonth := paymentDayRelativeMonth.getD account.paymentDayRelativeMonth }
    else account.clearCardDays
  let account := if targetSlug.isLiability then account else account.clearPaymentSource
  let account := if targetSlug = .creditCard then account else account.clearCardMetadata
  if targetSlug = .loan then account else account.clearLoan

def applyTypeChangeInSession (db : AccountsDb) (accountId orgId targetTypeId : Nat)
    (closeDay paymentDay paymentDayRelativeMonth : Option (Option Nat)) :
    Except HttpError (AccountRow × TypeChangeResult) := do
  let account ← found (db.ownAccount orgId accountId) ⟨404, "Account not found"⟩
  let targetType ← found (db.ownType orgId targetTypeId) ⟨422, "Invalid account type"⟩
  let targetSlug := targetType.slug
  refuse (targetTypeId ≠ account.accountTypeId ∧ targetSlug.isLiability ∧ db.isTransferSource orgId accountId)
    ⟨400, "This account is the source of a recurring transfer, which cannot " ++
      "come from a credit card or loan account. Delete that recurring " ++
      "transfer or change its accounts first."⟩
  validateCloseDayCascade (db.slugOf account) targetSlug closeDay
  validatePaymentDayCascade targetSlug paymentDay paymentDayRelativeMonth
  -- judged on what the row will hold: a body may send only one of the three
  checkIf (targetSlug = .creditCard)
    (rejectSameMonthPaymentBeforeClose (closeDay.getD account.closeDay) (paymentDay.getD account.paymentDay)
      (paymentDayRelativeMonth.getD account.paymentDayRelativeMonth))
  let deletedCyclePayments :=
    if targetSlug = .creditCard then []
    else (db.ccCyclePayments.select (fun _ p => p.accountId == accountId)).map Prod.fst
  .ok (account.changeType targetTypeId targetSlug closeDay paymentDay paymentDayRelativeMonth,
    ⟨targetSlug, deletedCyclePayments⟩)

/-! ### The other fields -/

/-- The row with the type-specific fields that were sent. -/
def AccountRow.overlay (account : AccountRow) (body : AccountUpdate) : AccountRow :=
  { account with
    creditLimit := body.creditLimit.getD account.creditLimit
    apr := body.apr.getD account.apr
    paymentStrategy := body.paymentStrategy.getD account.paymentStrategy
    fixedPaymentAmount := body.fixedPaymentAmount.getD account.fixedPaymentAmount
    principalAmount := body.principalAmount.getD account.principalAmount
    interestRateApr := body.interestRateApr.getD account.interestRateApr
    termMonths := body.termMonths.getD account.termMonths
    originationDate := body.originationDate.getD account.originationDate
    firstPaymentDate := body.firstPaymentDate.getD account.firstPaymentDate }

/-- The opening balance moves the live balance with it. -/
def AccountRow.reopen (account : AccountRow) (body : AccountUpdate) : AccountRow :=
  let opening := body.openingBalance.getD account.openingBalance
  { account with
    balance := account.balance + (opening - account.openingBalance)
    openingBalance := opening
    openingBalanceDate := body.openingBalanceDate.getD account.openingBalanceDate }

def AccountsDb.hasSettledTransactions (db : AccountsDb) (accountId orgId : Nat) : Bool :=
  !(db.transactions.select
    (fun _ t => t.accountId == accountId && t.orgId == orgId && t.status == .settled)).isEmpty

/-- `_apply_non_type_fields` on a row as staged so far. A payment source is stored on an
account of any type. -/
def applyNonTypeFields (db : AccountsDb) (accountId : Nat) (account : AccountRow) (body : AccountUpdate)
    (orgId : Nat) (resolvedSlug : AccountSlug) (actorIsAdmin : Bool) : Except HttpError AccountRow := do
  let account := { account with name := body.name.getD account.name }
  validatePaymentSourceAccount db orgId (body.paymentSourceAccountId.getD none) (some accountId)
  let account :=
    { account with paymentSourceAccountId := body.paymentSourceAccountId.getD account.paymentSourceAccountId }
  let account := account.overlay body
  validateCreditCardFields resolvedSlug account.creditLimit account.apr account.paymentStrategy
    account.fixedPaymentAmount
  validateLoanFields resolvedSlug account.principalAmount account.interestRateApr account.termMonths
    account.originationDate account.firstPaymentDate
  refuse (body.openingBalance.getD account.openingBalance ≠ account.openingBalance ∧ ¬ actorIsAdmin ∧
      db.hasSettledTransactions accountId orgId)
    ⟨403, "Only an owner or admin can change the opening balance of an account with settled transactions"⟩
  let account := account.reopen body
  refuse (body.isActive = some false ∧ account.balance ≠ 0)
    ⟨409, s!"Cannot deactivate account with balance {centsText account.balance}. Transfer the balance first."⟩
  .ok { account with
    isActive := body.isActive.getD account.isActive
    isDefault := body.isDefault.getD account.isDefault }

/-- The row is written, and a new default takes the flag from its siblings. -/
def AccountsDb.writeAccount (db : AccountsDb) (orgId accountId : Nat) (account : AccountRow)
    (becomesDefault : Bool) : AccountsDb :=
  let written := db.accounts.modify accountId (fun _ => account)
  { db with
    accounts :=
      if becomesDefault then
        written.mapRows (fun i a => if a.orgId = orgId ∧ i ≠ accountId then { a with isDefault := false } else a)
      else written }

/-- The type the request asks for, or the one the account has. -/
def targetType (db : AccountsDb) (accountId : Nat) (body : AccountUpdate) (orgId : Nat) : Except HttpError Nat :=
  match body.accountTypeId with
  | some id => .ok id
  | none => (found (db.ownAccount orgId accountId) ⟨404, "Account not found"⟩).map AccountRow.accountTypeId

def updateAccountAtomic (db : AccountsDb) (accountId : Nat) (body : AccountUpdate) (orgId : Nat)
    (actorIsAdmin : Bool) : Except HttpError AccountsDb := do
  let targetTypeId ← targetType db accountId body orgId
  let (account, result) ←
    applyTypeChangeInSession db accountId orgId targetTypeId body.closeDay body.paymentDay
      body.paymentDayRelativeMonth
  refuse (result.deletedCyclePayments ≠ [] ∧ ¬ actorIsAdmin)
    ⟨403, "Only an owner or admin can change the type of a credit card account with recorded cycle payments"⟩
  let account ← applyNonTypeFields db accountId account body orgId result.newTypeSlug actorIsAdmin
  let db := db.writeAccount orgId accountId account (body.isDefault == some true)
  .ok { db with ccCyclePayments := db.ccCyclePayments.remove (· ∈ result.deletedCyclePayments) }

def updateAccount (db : AccountsDb) (orgId : Nat) (actorIsAdmin : Bool) (accountId : Nat) (body : AccountUpdate) :
    Except HttpError AccountsDb :=
  if body.touchesTypeOrLiabilityColumns then updateAccountAtomic db accountId body orgId actorIsAdmin
  else do
    let account ← found (db.ownAccount orgId accountId) ⟨404, "Account not found"⟩
    let account ← applyNonTypeFields db accountId account body orgId ((db.slugOf account).getD .custom) actorIsAdmin
    .ok (db.writeAccount orgId accountId account (body.isDefault == some true))

/-! ## Deleting -/

/-- `assert_no_dependents`. -/
def assertNoDependents (count : Nat) (noun resource : String) : Except HttpError Unit :=
  refuse (count ≠ 0) ⟨409, s!"Cannot delete: {count} {noun}(s) use this {resource}"⟩

/-- The row goes, with `ON DELETE SET NULL` on the pointers to it and `ON DELETE CASCADE`
on its cycle payments. -/
def deleteAccount (db : AccountsDb) (orgId accountId : Nat) : Except HttpError AccountsDb := do
  let account ← found (db.ownAccount orgId accountId) ⟨404, "Account not found"⟩
  refuse (account.balance ≠ 0)
    ⟨409, s!"Cannot delete account with balance {centsText account.balance}. Transfer the balance first."⟩
  assertNoDependents
    (db.transactions.select (fun _ t => t.accountId == accountId && t.orgId == orgId)).length "transaction" "account"
  assertNoDependents
    (db.recurring.select
      (fun _ r => r.orgId == orgId && (r.accountId == accountId || r.toAccountId == some accountId))).length
    "recurring transaction" "account"
  .ok { db with
    accounts :=
      (db.accounts.remove (· == accountId)).mapRows
        (fun _ a => if a.paymentSourceAccountId = some accountId then a.clearPaymentSource else a)
    ccCyclePayments :=
      db.ccCyclePayments.remove
        (fun i => (db.ccCyclePayments.get? i).any (fun p => p.accountId == accountId)) }

/-- A user's own type. Its name is all it has. -/
def createAccountType (db : AccountsDb) (orgId : Nat) : Except HttpError AccountsDb :=
  .ok { db with accountTypes := db.accountTypes.insert { orgId := orgId } }

def deleteAccountType (db : AccountsDb) (orgId typeId : Nat) : Except HttpError AccountsDb := do
  let type ← found (db.ownType orgId typeId) ⟨404, "Account type not found"⟩
  refuse (type.isSystem) ⟨409, "Cannot delete system account type"⟩
  assertNoDependents
    (db.accounts.select (fun _ a => a.accountTypeId == typeId && a.orgId == orgId)).length "account" "type"
  .ok { db with accountTypes := db.accountTypes.remove (· == typeId) }

/-! ## The calls -/

inductive AccountCall
  | create (today : Int) (orgId : Nat) (body : AccountCreate)
  | update (orgId : Nat) (actorIsAdmin : Bool) (accountId : Nat) (body : AccountUpdate)
  | delete (orgId accountId : Nat)
  | createType (orgId : Nat)
  | deleteType (orgId typeId : Nat)
  /-- What other requests do to the tables read here, and to the live balances. -/
  | books (recurring : Table RecurringTransaction) (transactions : Table Transaction)
      (ccCyclePayments : Table CcCyclePayment) (balance : Nat → Int)

/-- Serve one call. -/
def handleAccount (str : StrMethods) (db : AccountsDb) : AccountCall → Except HttpError AccountsDb
  | .create today orgId body => createAccount str db today orgId body
  | .update orgId actorIsAdmin accountId body => updateAccount db orgId actorIsAdmin accountId body
  | .delete orgId accountId => deleteAccount db orgId accountId
  | .createType orgId => createAccountType db orgId
  | .deleteType orgId typeId => deleteAccountType db orgId typeId
  | .books recurring transactions ccCyclePayments balance =>
    .ok { db with
      recurring := recurring
      transactions := transactions
      ccCyclePayments := ccCyclePayments
      accounts := db.accounts.mapRows (fun i a => { a with balance := balance i }) }

end BetterDecision
