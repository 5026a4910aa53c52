import BetterDecision.Lib.Runs
import BetterDecision.Model.Db

/-!
# Rows, links and balances

`transaction_filters`, and the parts of `transaction_service` every write goes
through: the reference checks, the balance primitives, the two ways a row is
created and the two ways a pair is made or broken.

One column, `linkedTransactionId`, says two things. `linkPair` writes it both ways
and that is a transfer; a reconcile match writes it one way and that is a
duplicate. Whatever asks "is this a transfer leg" therefore asks whether the
partner links back, never whether the column is set.
-/

namespace BetterDecision

/-- A transaction with its id. -/
abbrev Row := Nat × Transaction

/-! ## Filters -/

/-- `REVERTED_RECONCILIATION_STATES`: the row's amount was taken back out. -/
def ReconciliationState.isReverted : ReconciliationState → Bool
  | .skipped => true
  | .rejected => true
  | _ => false

def ReconciliationState.value : ReconciliationState → String
  | .pendingReview => "pending_review"
  | .matched => "matched"
  | .unmatched => "unmatched"
  | .skipped => "skipped"
  | .edited => "edited"
  | .accepted => "accepted"
  | .rejected => "rejected"

def TransactionType.value : TransactionType → String
  | .income => "income"
  | .expense => "expense"
  | .transfer => "transfer"

def CategoryType.value : CategoryType → String
  | .income => "income"
  | .expense => "expense"
  | .both => "both"

/-- The link column of the row under `i`. -/
def linkOf (rows : Table Transaction) (i : Nat) : Option Nat :=
  (rows.get? i).bind (·.linkedTransactionId)

/-- `balance_contribution_filter`: the row is inside `accounts.balance`, once
settled. A linked row is kept only if its partner links back. -/
def balanceContributionFilter (rows : Table Transaction) (row : Row) : Bool :=
  !row.2.reconciliationState.isReverted &&
    match row.2.linkedTransactionId with
    | none => true
    | some partner => linkOf rows partner == some row.1

/-- `reportable_transaction_filter`: the row counts toward income and expense. -/
def reportableTransactionFilter (row : Row) : Bool :=
  row.2.linkedTransactionId.isNone && !row.2.isManualAdjustment &&
    !row.2.reconciliationState.isReverted

/-- The two rows are the two legs of one transfer. Fails closed. -/
def isReciprocalPair (row : Row) (partner : Option Row) : Bool :=
  match partner with
  | none => false
  | some p =>
    row.2.linkedTransactionId == some p.1 && p.1 != row.1 && p.2.orgId == row.2.orgId &&
      p.2.linkedTransactionId == some row.1

/-- Is this row's amount inside `accounts.balance`, its status aside. Fails open
where the partner is not at hand. -/
def contributesToCachedBalance (row : Row) (partner : Option Row) : Bool :=
  if row.2.reconciliationState.isReverted then false
  else
    match row.2.linkedTransactionId, partner with
    | none, _ => true
    | some _, none => true
    | some l, some p => p.1 != l || p.2.linkedTransactionId == some row.1

/-- `coalesce(settled_date, date)`. -/
def effectivePeriodDate (tx : Transaction) : Int := tx.settledDate.getD tx.date

/-! ## Reading -/

/-- The org's row under an id. -/
def findTransaction (db : Db) (orgId id : Nat) : Option Transaction :=
  (db.transactions.get? id).filter (fun tx => tx.orgId == orgId)

/-- What the row's link points at, in the org. -/
def linkedRow (db : Db) (orgId : Nat) (tx : Transaction) : Option Row :=
  tx.linkedTransactionId.bind (fun l => (findTransaction db orgId l).map (fun p => (l, p)))

def findAccount (db : Db) (orgId id : Nat) : Option Account :=
  (db.accounts.get? id).filter (fun a => a.orgId == orgId)

def findCategory (db : Db) (orgId id : Nat) : Option Category :=
  (db.categories.get? id).filter (fun c => c.orgId == orgId)

def findRecurring (db : Db) (orgId id : Nat) : Option RecurringTransaction :=
  (db.recurring.get? id).filter (fun r => r.orgId == orgId)

/-! ## Validation -/

def validateAccount (db : Db) (accountId orgId : Nat) : Result Unit :=
  refuse (findAccount db orgId accountId = none) (.validation "Invalid account")

def validateCategory (db : Db) (categoryId orgId : Nat) : Result Unit :=
  refuse (findCategory db orgId categoryId = none) (.validation "Invalid category")

/-- `both` always matches, and a transfer matches nothing else. -/
def categoryTypeMatches : CategoryType → TransactionType → Bool
  | .both, _ => true
  | .income, .income => true
  | .expense, .expense => true
  | _, _ => false

/-- The category belongs to the org and takes the type, and so does its master's. -/
def validateCategoryForType (db : Db) (categoryId orgId : Nat) (txType : TransactionType) :
    Result Unit := do
  let cat ← found (findCategory db orgId categoryId) (.validation "Invalid category")
  refuse (¬ categoryTypeMatches cat.type txType)
    (.validation s!"Category type ({cat.type.value}) does not match transaction type ({txType.value})")
  match cat.parentId.bind (findCategory db orgId) with
  | none => .ok ()
  | some parent =>
    refuse (¬ categoryTypeMatches parent.type txType)
      (.validation s!"Subcategory's master type ({parent.type.value}) does not match transaction type ({txType.value})")

/-- The legs of a transfer share one category, so it has to take both types. -/
def validateTransferCategory (db : Db) (categoryId orgId : Nat) : Result Unit := do
  let cat ← found (findCategory db orgId categoryId) (.validation "Invalid category")
  refuse (cat.type ≠ .both)
    (.validation s!"Transfer category must accept both income and expense (got type={cat.type.value})")

def getAccountForUpdate (db : Db) (accountId orgId : Nat) : Result Account :=
  found (findAccount db orgId accountId) (.validation "Invalid account")

/-! ## Balances -/

/-- What a row of that type and amount adds to its account. No row has the type
`transfer`; the legs of one are an expense and an income. -/
def signedAmount (txType : TransactionType) (amount : Amount) : Int :=
  match txType with
  | .income => amount.val
  | .expense => -amount.val
  | .transfer => 0

def addToBalance (db : Db) (accountId : Nat) (x : Int) : Db :=
  { db with accounts := db.accounts.modify accountId (fun a => { a with balance := a.balance + x }) }

/-- Lock the account and put the amount into its balance. -/
def applyBalance (db : Db) (orgId accountId : Nat) (amount : Amount) (txType : TransactionType) :
    Result Db := do
  let _ ← getAccountForUpdate db accountId orgId
  refuse (txType = .transfer) (.validation "Cannot apply balance for TRANSFER type directly")
  .ok (addToBalance db accountId (signedAmount txType amount))

/-- Lock the account and take the amount back out. -/
def revertBalance (db : Db) (orgId accountId : Nat) (amount : Amount) (txType : TransactionType) :
    Result Db := do
  let _ ← getAccountForUpdate db accountId orgId
  refuse (txType = .transfer) (.validation "Cannot revert balance for TRANSFER type directly")
  .ok (addToBalance db accountId (-signedAmount txType amount))

/-- A row of the org's, were it settled and counted. -/
def applyRow (db : Db) (orgId : Nat) (tx : Transaction) : Result Db :=
  applyBalance db orgId tx.accountId tx.amount tx.type

def revertRow (db : Db) (orgId : Nat) (tx : Transaction) : Result Db :=
  revertBalance db orgId tx.accountId tx.amount tx.type

/-- Run a write under a condition. -/
def doIf (c : Bool) (write : Db → Result Db) (db : Db) : Result Db := if c then write db else .ok db

/-- `reconcile_account`: the balance the settled rows of the account add up to. -/
def computedBalance (db : Db) (orgId accountId : Nat) (account : Account) : Int :=
  account.openingBalance + db.transactions.total (fun id tx =>
    if tx.accountId = accountId ∧ tx.orgId = orgId ∧ tx.status = .settled ∧
        balanceContributionFilter db.transactions (id, tx) then signedAmount tx.type tx.amount
    else 0)

/-- `reconcile_account`'s verdict. -/
def isConsistent (db : Db) (orgId accountId : Nat) (account : Account) : Prop :=
  account.balance = computedBalance db orgId accountId account

/-! ## Creating -/

def editTransaction (db : Db) (id : Nat) (f : Transaction → Transaction) : Db :=
  { db with transactions := db.transactions.modify id f }

def insertTransaction (db : Db) (tx : Transaction) : Db :=
  { db with transactions := db.transactions.insert tx }

/-- The two types a user can give a row. -/
inductive EntryType
  | income
  | expense
  deriving DecidableEq, Repr

def EntryType.toType : EntryType → TransactionType
  | .income => .income
  | .expense => .expense

structure TransactionCreate where
  accountId : Nat
  categoryId : Nat
  description : String
  amount : Amount
  type : EntryType
  status : TransactionStatus := .settled
  date : Int
  settledDate : Option Int := none
  /-- `_settled_date_not_before_date`. -/
  settledOnOrAfter : ∀ s ∈ settledDate, date ≤ s := by simp

/-- The create primitive: it does not commit, so its callers can build on it. -/
def createTransactionNoCommit (db : Db) (orgId : Nat) (body : TransactionCreate)
    (isImported isManualAdjustment : Bool) : Result (Db × Row) := do
  validateAccount db body.accountId orgId
  let txType := body.type.toType
  validateCategoryForType db body.categoryId orgId txType
  let db ← doIf (body.status = .settled)
    (fun db => applyBalance db orgId body.accountId body.amount txType) db
  let settledDate :=
    if body.status = .settled then some (body.settledDate.getD body.date) else body.settledDate
  let tx : Transaction :=
    { orgId, accountId := body.accountId, categoryId := body.categoryId
      description := body.description, amount := body.amount, type := txType
      status := body.status, date := body.date, settledDate, isImported, isManualAdjustment }
  .ok (insertTransaction db tx, (db.transactions.next, tx))

def createTransaction (db : Db) (orgId : Nat) (body : TransactionCreate) : Result Db := do
  let (db, _) ← createTransactionNoCommit db orgId body false false
  .ok db

/-! ## Pairing -/

def transferSlug : String := "transfer"

/-- The org's category under a slug, made if missing. -/
def getOrCreateCategory (db : Db) (new : Category) (test : Category → Bool) : Db × Nat :=
  match db.categories.select (fun _ c => c.orgId == new.orgId && test c) with
  | (id, _) :: _ => (db, id)
  | [] => ({ db with categories := db.categories.insert new }, db.categories.next)

def getOrCreateTransferCategory (db : Db) (orgId : Nat) : Db × Nat :=
  getOrCreateCategory db { orgId, name := "Transfer", slug := some transferSlug, isSystem := true }
    (fun c => c.slug == some transferSlug)

/-- The category a pair is moved to: the one asked for, or the system one. -/
def pairCategory (db : Db) (orgId : Nat) (transferCategoryId : Option Nat) : Result (Db × Nat) :=
  match transferCategoryId with
  | none => .ok (getOrCreateTransferCategory db orgId)
  | some id => do
    validateTransferCategory db id orgId
    .ok (db, id)

def currencyOf (db : Db) (accountId : Nat) : Option String :=
  (db.accounts.get? accountId).map (·.currency)

def setCategory (id categoryId : Nat) (db : Db) : Db :=
  editTransaction db id (fun tx => { tx with categoryId })

def setLink (id : Nat) (link : Option Nat) (db : Db) : Db :=
  editTransaction db id (fun tx => { tx with linkedTransactionId := link })

/-- Check the two rows are the two sides of one transfer and link them both ways. -/
def linkPair (db : Db) (expense income : Row) (recategorize : Bool) (transferCategoryId : Option Nat) :
    Result Db := do
  refuse (expense.2.isManualAdjustment ∨ income.2.isManualAdjustment)
    (.validation "Manual balance adjustments cannot be paired as transfer legs")
  refuse (expense.2.orgId ≠ income.2.orgId) (.validation "Transfer legs must belong to the same org")
  refuse (expense.2.type ≠ .expense) (.validation "Expense leg must have type=EXPENSE")
  refuse (income.2.type ≠ .income) (.validation "Income leg must have type=INCOME")
  refuse (expense.2.accountId = income.2.accountId)
    (.validation "Transfer legs must be on different accounts")
  refuse (expense.2.amount ≠ income.2.amount)
    (.validation "Transfer legs must have equal absolute amounts")
  refuse (expense.2.linkedTransactionId.isSome) (.validation "Expense leg is already linked")
  refuse (income.2.linkedTransactionId.isSome) (.validation "Income leg is already linked")
  refuse (currencyOf db expense.2.accountId ≠ currencyOf db income.2.accountId)
    (.validation "Transfer legs must have the same currency")
  let db ←
    if recategorize then do
      let (db, categoryId) ← pairCategory db expense.2.orgId transferCategoryId
      .ok (setCategory income.1 categoryId (setCategory expense.1 categoryId db))
    else .ok db
  let db := setLink income.1 (some expense.1) (setLink expense.1 (some income.1) db)
  .ok { db with pairings := db.pairings ++ [(expense.1, income.1)] }

/-- `str.isspace`. -/
def isSpace (c : Char) : Bool :=
  let n := c.toNat
  (9 ≤ n && n ≤ 13) || (28 ≤ n && n ≤ 32) || n == 133 || n == 160 || n == 5760 ||
    (8192 ≤ n && n ≤ 8202) || n == 8232 || n == 8233 || n == 8239 || n == 8287 || n == 12288

/-- `str.strip`. -/
def strip (s : String) : String :=
  String.ofList ((s.toList.dropWhile isSpace).reverse.dropWhile isSpace).reverse

structure TransferCreate where
  fromAccountId : Nat
  toAccountId : Nat
  categoryId : Option Nat := none
  description : String := ""
  amount : Amount
  status : TransactionStatus := .settled
  date : Int

def createTransfer (db : Db) (orgId : Nat) (body : TransferCreate) : Result Db := do
  refuse (body.fromAccountId = body.toAccountId)
    (.validation "Source and destination accounts must be different")
  let source ← getAccountForUpdate db body.fromAccountId orgId
  let destination ← getAccountForUpdate db body.toAccountId orgId
  let description :=
    if strip body.description = "" then s!"Transfer from {source.name} to {destination.name}"
    else strip body.description
  let (db, categoryId) ← pairCategory db orgId body.categoryId
  let expense : Transaction :=
    { orgId, accountId := body.fromAccountId, categoryId, description, amount := body.amount
      type := .expense, status := body.status, date := body.date
      settledDate := if body.status = .settled then some body.date else none }
  let income : Transaction := { expense with accountId := body.toAccountId, type := .income }
  let expenseId := db.transactions.next
  let db := insertTransaction db expense
  let incomeId := db.transactions.next
  let db := insertTransaction db income
  let db ← linkPair db (expenseId, expense) (incomeId, income) false (some categoryId)
  let db ← doIf (body.status = .settled) (fun db => applyRow db orgId expense) db
  doIf (body.status = .settled) (fun db => applyRow db orgId income) db

/-- Link two existing rows. No balance moves: each row keeps what it already adds. -/
def pairExistingTransactions (db : Db) (orgId expenseId incomeId : Nat) (recategorize : Bool)
    (transferCategoryId : Option Nat) : Result Db := do
  refuse (expenseId = incomeId) (.validation "Expense and income IDs must differ")
  let expense ← found (findTransaction db orgId expenseId) (.notFound "Transaction")
  let income ← found (findTransaction db orgId incomeId) (.notFound "Transaction")
  linkPair db (expenseId, expense) (incomeId, income) recategorize transferCategoryId

/-- Make the missing leg on the destination account and link it to the source row. -/
def convertAndCreateLeg (db : Db) (orgId sourceId destinationAccountId : Nat) (recategorize : Bool)
    (transferCategoryId : Option Nat) : Result Db := do
  let source ← found (findTransaction db orgId sourceId) (.notFound "Transaction")
  refuse (source.linkedTransactionId.isSome) (.validation "Source row is already a transfer leg")
  refuse (source.recurringId.isSome)
    (.validation "Recurring rows cannot be converted to transfer legs")
  refuse (source.isManualAdjustment)
    (.validation "Cannot convert a manual balance adjustment to a transfer leg")
  refuse (source.reconciliationState.isReverted)
    (.validation "This row was skipped or rejected in import review, so it is not part of the account balance. Pair it with the matching existing transaction on the other account instead of creating a new one.")
  refuse (source.accountId = destinationAccountId)
    (.validation "Source and destination accounts must differ")
  let destination ← found (findAccount db orgId destinationAccountId) (.notFound "Account")
  refuse (currencyOf db source.accountId ≠ some destination.currency)
    (.validation "Source and destination accounts must have the same currency")
  let _ ← getAccountForUpdate db source.accountId orgId
  let partnerType := if source.type = .expense then TransactionType.income else .expense
  let partner : Transaction :=
    { orgId, accountId := destinationAccountId, categoryId := source.categoryId
      description := source.description, amount := source.amount, type := partnerType
      status := source.status, date := source.date, settledDate := source.settledDate }
  let partnerId := db.transactions.next
  let db := insertTransaction db partner
  let db ← doIf (partner.status = .settled) (fun db => applyRow db orgId partner) db
  if source.type = .expense then
    linkPair db (sourceId, source) (partnerId, partner) recategorize transferCategoryId
  else
    linkPair db (partnerId, partner) (sourceId, source) recategorize transferCategoryId

/-- Break a pair, both sides at once; each leg goes to the fallback of its type. -/
def unpairTransactions (db : Db) (orgId id expenseFallbackCategoryId incomeFallbackCategoryId : Nat) :
    Result Db := do
  let tx ← found (findTransaction db orgId id) (.notFound "Transaction")
  let notPaired := ServiceError.validation "Transaction is not part of a transfer pair"
  let partner ← found (linkedRow db orgId tx) notPaired
  refuse (¬ isReciprocalPair (id, tx) (some partner)) notPaired
  let expCat ← found (findCategory db orgId expenseFallbackCategoryId) (.validation "Invalid category")
  let incCat ← found (findCategory db orgId incomeFallbackCategoryId) (.validation "Invalid category")
  refuse (expCat.type = .income) (.validation "expense_fallback_category_id must be EXPENSE or BOTH")
  refuse (incCat.type = .expense) (.validation "income_fallback_category_id must be INCOME or BOTH")
  let (expenseId, incomeId) ←
    match tx.type, partner.2.type with
    | .expense, .income => .ok (id, partner.1)
    | .income, .expense => .ok (partner.1, id)
    | _, _ => .error (.conflict "Pair has invalid type composition")
  let db := setLink incomeId none (setLink expenseId none db)
  let db := setCategory incomeId incomeFallbackCategoryId (setCategory expenseId expenseFallbackCategoryId db)
  .ok { db with pairings := db.pairings.filter (fun p => p ≠ (expenseId, incomeId)) }

/-! ## Adjusting a balance -/

def balanceAdjustmentSlug : String := "balance-adjustment"

def getOrCreateBalanceAdjustmentCategory (db : Db) (orgId : Nat) : Db × Nat :=
  getOrCreateCategory db
    { orgId, name := "Balance Adjustment", slug := some balanceAdjustmentSlug, isSystem := true }
    (fun c => c.slug == some balanceAdjustmentSlug && c.isSystem)

/-- A sum of money as `Decimal` prints it. -/
def moneyText (cents : Int) : String :=
  let digits := toString (cents.natAbs % 100)
  (if cents < 0 then "-" else "") ++ toString (cents.natAbs / 100) ++ "." ++
    "".pushn '0' (2 - digits.length) ++ digits

def descriptionMaxLength : Nat := 255

/-- Set the balance to a target by writing the difference as one settled row. -/
def adjustAccountBalance (db : Db) (today : Int) (orgId accountId : Nat) (targetBalance : Int)
    (reason : Option String) : Result Db := do
  let acct ← getAccountForUpdate db accountId orgId
  let delta := targetBalance - acct.balance
  if h : delta = 0 then .error (.conflict "No change to apply")
  else
    let amount : Amount := ⟨delta.natAbs, by omega⟩
    let description := s!"Balance adjustment: {moneyText acct.balance} -> {moneyText targetBalance}"
    let description :=
      match reason with
      | some text => if text = "" then description else s!"{description} ({text})"
      | none => description
    let (db, categoryId) := getOrCreateBalanceAdjustmentCategory db orgId
    let (db, _) ← createTransactionNoCommit db orgId
      { accountId, categoryId, description := (description.take descriptionMaxLength).toString, amount
        type := if 0 < delta then .income else .expense, date := today } false true
    .ok db

end BetterDecision
