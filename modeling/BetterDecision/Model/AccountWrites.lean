import BetterDecision.Lib.Calendar
import BetterDecision.Lib.Locks
import BetterDecision.Model.AccountTypes

/-!
# Account writes, statement by statement

`create_account`, `delete_account` and the demo seed, each one transaction, one event a
statement. A plain read sees the snapshot fixed at `begin`; a locking read or a write sees
the committed row, and waits while another transaction has it locked. What a transaction
has written is kept with it until it commits.

Foreign keys lock the parent rows, too. Those waits are left out, which allows more orders
of the statements and no fewer.
-/

namespace BetterDecision

open Calendar

/-- How a request ends that is not served. -/
inductive AccountWriteError
  | http (e : HttpError)
  /-- `DemoSeedAlreadyApplied`. -/
  | alreadyApplied (reason : String)
  /-- Any other exception, a deadlock or a lost connection. -/
  | crashed
  deriving DecidableEq, Repr

/-- A row of `audit_events`, as the seed writes it. -/
structure SeedAudit where
  eventType : String
  targetOrgId : Nat
  succeeded : Bool
  reason : Option String := none
  deriving DecidableEq, Repr

/-- The tables the account writes read and write. -/
structure AccountBooks extends AccountsDb where
  categories : Table Category := .empty
  auditEvents : List SeedAudit := []

/-! ## The scope of an aggregate -/

/-- What `resolve_currency_scope` answers, with the currencies that are left out. -/
structure AccountScope where
  currency : Option String
  excludedCurrencies : List String
  excludedAccountCount : Nat
  deriving DecidableEq, Repr

def AccountsDb.currencies (db : AccountsDb) (orgId : Nat) : List String :=
  (db.accounts.select (fun _ a => a.orgId == orgId)).map (fun p => p.2.currency)

/-- The accounts are grouped by the currency they are in. An empty `primary_currency` is
none. -/
def AccountsDb.resolveCurrencyScope (str : StrMethods) (db : AccountsDb) (orgId : Nat) : AccountScope :=
  let primary := (db.organizations.get? orgId).bind (·.primaryCurrency)
  let orgCurrency := (primary.filter (· ≠ "")).map str.normaliseCurrency
  let excluded := (db.currencies orgId).eraseDups.filter
    (fun code => orgCurrency.any (fun c => str.normaliseCurrency code != c))
  { currency := orgCurrency
    excludedCurrencies := excluded.insertionSort (· ≤ ·)
    excludedAccountCount := (excluded.map (fun code => (db.currencies orgId).count code)).sum }

/-! ## The seed -/

def demoSentinelSlug : String := "demo_seed_sentinel"

def hasRealData (db : AccountBooks) (orgId : Nat) : Bool :=
  !(db.transactions.select (fun _ t => t.orgId == orgId && !t.isManualAdjustment)).isEmpty

def hasSentinel (db : AccountBooks) (orgId : Nat) : Bool :=
  !(db.categories.select (fun _ c => c.orgId == orgId && c.slug == some demoSentinelSlug)).isEmpty

def sentinelCategory (orgId : Nat) : Category :=
  { orgId, name := "(demo)", slug := some demoSentinelSlug, type := .both }

/-- The org's checking type, else its savings type, else whatever it has. -/
def checkingAccountType (db : AccountBooks) (orgId : Nat) : Option Nat :=
  let rows := db.accountTypes.select (fun _ t => t.orgId == orgId)
  ((rows.find? (fun p => p.2.slug == .checking)).or
    ((rows.find? (fun p => p.2.slug == .savings)).or rows.head?)).map Prod.fst

/-- The category of a slug, else the first one that takes the type. `none` is the sentinel,
which takes both and is the last one. -/
def pickCategory (db : AccountBooks) (orgId : Nat) (slug : String) (fallback : CategoryType) :
    Except AccountWriteError (Option Nat) :=
  match db.categories.select (fun _ c => c.orgId == orgId && c.slug == some slug) with
  | [] => .ok ((db.categories.select (fun _ c =>
      c.orgId == orgId && (c.type == fallback || c.type == .both))).head?.map Prod.fst)
  | [p] => .ok (some p.1)
  -- `MultipleResultsFound`
  | _ => .error .crashed

structure SeedCategories where
  salary : Option Nat
  groceries : Option Nat
  rent : Option Nat
  coffee : Option Nat
  deriving DecidableEq, Repr

def pickCategories (db : AccountBooks) (orgId : Nat) : Except AccountWriteError SeedCategories := do
  let salary ← pickCategory db orgId "paycheck" .income
  let groceries ← pickCategory db orgId "groceries" .expense
  let rent ← pickCategory db orgId "rent_mortgage" .expense
  let coffee ← pickCategory db orgId "coffee_shops" .expense
  .ok { salary, groceries, rent, coffee }

/-- The two accounts of the seed. -/
def sampleAccounts (today : Int) (orgId typeId : Nat) (currency : String) : List AccountRow :=
  [("Sample Checking", 320000), ("Sample Savings", 850000)].map (fun spec =>
    { orgId, accountTypeId := typeId, name := spec.1, balance := spec.2, currency
      isDefault := spec.1 == "Sample Checking", openingBalanceDate := today })

/-- The sample rows of the month that starts on `start`. -/
def sampleMonth (orgId checkingId sentinelId : Nat) (picked : SeedCategories) (start : Int) : List Transaction :=
  let row (category : Option Nat) (description : String) (amount : Amount) (type : TransactionType) (date : Int) :
      Transaction :=
    { orgId, accountId := checkingId, categoryId := category.getD sentinelId, description, amount, type
      status := .settled, date, settledDate := some date }
  [row picked.salary "Sample salary" ⟨350000, by decide⟩ .income (start + 24),
   row picked.rent "Sample rent" ⟨110000, by decide⟩ .expense start,
   row picked.groceries "Sample groceries" ⟨6240, by decide⟩ .expense (start + 4),
   row picked.groceries "Sample groceries" ⟨4810, by decide⟩ .expense (start + 11),
   row picked.groceries "Sample groceries" ⟨5495, by decide⟩ .expense (start + 18),
   row picked.coffee "Sample coffee" ⟨480, by decide⟩ .expense (start + 6),
   row picked.coffee "Sample coffee" ⟨520, by decide⟩ .expense (start + 13)]

/-- Last month and this one, up to today. -/
def sampleTransactions (today : Int) (orgId checkingId sentinelId : Nat) (picked : SeedCategories) : List Transaction :=
  ([1, 0].flatMap (fun offset =>
    sampleMonth orgId checkingId sentinelId picked (monthStart (monthOf today - offset) + 1))).filter
      (fun t => t.date ≤ today)

/-! ## Transactions -/

inductive AccountWriteCall
  | create (today : Int) (orgId : Nat) (body : AccountCreate)
  | seed (today : Int) (orgId : Nat)
  | delete (orgId accountId : Nat)

def AccountWriteCall.orgId : AccountWriteCall → Nat
  | .create _ orgId _ => orgId
  | .seed _ orgId => orgId
  | .delete orgId _ => orgId

/-- The rows written and not committed. -/
structure AccountWrites where
  primaryCurrency : Option String := none
  sentinel : Bool := false
  accounts : List AccountRow := []
  /-- The sample transactions, filed under these categories. -/
  samples : Option (Int × SeedCategories) := none
  deleted : Option Nat := none

/-- The row goes, as in `deleteAccount`. -/
def AccountsDb.dropAccount (db : AccountsDb) (accountId : Nat) : AccountsDb :=
  { db with
    accounts :=
      (db.accounts.remove (· == accountId)).mapRows
        (fun _ a => if a.paymentSourceAccountId = some accountId then a.clearPaymentSource else a)
    ccCyclePayments :=
      db.ccCyclePayments.remove
        (fun i => (db.ccCyclePayments.get? i).any (fun p => p.accountId == accountId)) }

/-- What a commit makes of the tables. The ids are those the inserts are given. -/
def AccountWrites.apply (ws : AccountWrites) (orgId : Nat) (db : AccountBooks) : AccountBooks :=
  let accountsDb := { db.toAccountsDb with
    organizations := match ws.primaryCurrency with
      | some code => db.organizations.modify orgId (fun o => { o with primaryCurrency := some code })
      | none => db.organizations
    accounts := ws.accounts.foldl Table.insert db.accounts
    transactions := match ws.samples with
      | some (today, picked) =>
        (sampleTransactions today orgId db.accounts.next db.categories.next picked).foldl Table.insert db.transactions
      | none => db.transactions }
  { db with
    toAccountsDb := match ws.deleted with
      | some accountId => accountsDb.dropAccount accountId
      | none => accountsDb
    categories := if ws.sentinel then db.categories.insert (sentinelCategory orgId) else db.categories }

/-- The statement a transaction comes to next. The type and the currency of the accounts to
come go along. -/
inductive AccountPhase
  | begun
  /-- The seed: the insert of the sentinel, then the plain read of a currency. -/
  | marking
  | adopting (typeId : Nat)
  /-- `assert_org_currency_allows`: the lock on the org, the locking read of one account, and
  the update of the org. -/
  | lockingOrg (typeId : Nat) (currency : String)
  | readingAccount (typeId : Nat) (currency : String)
  | settingPrimary (typeId : Nat) (currency code : String)
  /-- The checks after it, and the inserts. -/
  | inserting (typeId : Nat) (currency : String)
  | deleting
  | ready
  /-- A refused seed, rolled back, and one that is committed: the audit event is to come. -/
  | refusing (reason : String)
  | applied
  | done (outcome : Except AccountWriteError Unit)

inductive AccountLock
  | org (orgId : Nat)
  | account (accountId : Nat)
  deriving DecidableEq, Repr

structure AccountTx where
  call : AccountWriteCall
  snapshot : AccountBooks
  locks : List AccountLock := []
  writes : AccountWrites := {}
  phase : AccountPhase := .begun

structure AccountWorld where
  /-- The committed rows. -/
  db : AccountBooks
  txs : Table AccountTx := .empty

inductive AccountEvent
  | begin (call : AccountWriteCall)
  /-- The next statement of a transaction. `row` is the account a `LIMIT 1` comes upon. -/
  | next (tx : Nat) (row : Option Nat)
  | commit (tx : Nat)
  /-- The transaction is rolled back, or its audit event is lost. -/
  | fail (tx : Nat)
  /-- The audit event, in a transaction of its own. -/
  | audit (tx : Nat)
  /-- What other requests commit: no account comes or goes, or changes its currency. -/
  | elsewhere (other : AccountBooks)

/-! ## Statements -/

def AccountTx.goto (tx : AccountTx) (phase : AccountPhase) : AccountTx := { tx with phase }

def AccountTx.write (tx : AccountTx) (writes : AccountWrites) : AccountTx := { tx with writes }

def AccountTx.lock (tx : AccountTx) (lock : AccountLock) : AccountTx := { tx with locks := lock :: tx.locks }

/-- The transaction is over: nothing is locked, nothing is pending. -/
def AccountTx.close (tx : AccountTx) (phase : AccountPhase) : AccountTx :=
  { tx with locks := [], writes := {}, phase }

/-- Another transaction has the row locked. -/
def AccountWorld.Waits (w : AccountWorld) (id : Nat) (lock : AccountLock) : Prop :=
  w.txs.HeldBy AccountTx.locks id (· = lock)

instance AccountWorld.decidableWaits (w : AccountWorld) (id : Nat) (lock : AccountLock) : Decidable (w.Waits id lock) :=
  inferInstanceAs (Decidable (w.txs.HeldBy AccountTx.locks id (· = lock)))

/-- `LIMIT 1` without an order: any account of the org, and none only if it has none. -/
def anyAccount (db : AccountBooks) (orgId : Nat) : Option Nat → Except AccountWriteError (Option AccountRow)
  | some accountId => (found (db.ownAccount orgId accountId) .crashed).map some
  | none => do
    refuse (db.accounts.select (fun _ a => a.orgId == orgId) ≠ []) .crashed
    .ok none

/-- The checks and plain reads a call begins with. -/
def beginAccountWrite (str : StrMethods) (db : AccountBooks) : AccountWriteCall → AccountPhase
  | .create _ orgId body =>
    match currencyMustBeIso4217 str body.currency with
    | .error e => .done (.error (.http e))
    | .ok currency =>
      if (db.ownType orgId body.accountTypeId).isSome then .lockingOrg body.accountTypeId currency
      else .done (.error (.http ⟨400, "Invalid account type"⟩))
  | .seed _ orgId =>
    if hasRealData db orgId then .refusing "org already has user data"
    else if hasSentinel db orgId then .refusing "org already seeded with demo data"
    else .marking
  | .delete orgId accountId =>
    match deleteAccount db.toAccountsDb orgId accountId with
    | .error e => .done (.error (.http e))
    | .ok _ => .deleting

/-- The currency of an account in the snapshot, or EUR. -/
def adoptCurrency (str : StrMethods) (tx : AccountTx) (typeId : Nat) (row : Option Nat) :
    Except AccountWriteError AccountTx := do
  let existing ← anyAccount tx.snapshot tx.call.orgId row
  let currency := match existing with
    | some account => if account.currency = "" then "EUR" else str.normaliseCurrency account.currency
    | none => "EUR"
  .ok (tx.goto (.lockingOrg typeId currency))

/-- The lock on the org. -/
def lockOrg (w : AccountWorld) (id : Nat) (tx : AccountTx) (typeId : Nat) (currency : String) :
    Except AccountWriteError AccountTx := do
  refuse (w.Waits id (.org tx.call.orgId)) .crashed
  .ok ((tx.lock (.org tx.call.orgId)).goto (.readingAccount typeId currency))

/-- What the account that is there says about the currency. -/
def judgeCurrency (str : StrMethods) (tx : AccountTx) (typeId : Nat) (currency : String)
    (existing : Option AccountRow) : AccountTx :=
  match orgCurrencyVerdict str (existing.map (·.currency)) currency with
  | .error e => tx.close (.done (.error (.http e)))
  | .ok (some code) => tx.goto (.settingPrimary typeId currency code)
  | .ok none => tx.goto (.inserting typeId currency)

/-- The locking read of one account. -/
def readAccount (str : StrMethods) (w : AccountWorld) (id : Nat) (tx : AccountTx) (typeId : Nat) (currency : String)
    (row : Option Nat) : Except AccountWriteError AccountTx := do
  refuse (∃ i ∈ row, w.Waits id (.account i)) .crashed
  let existing ← anyAccount w.db tx.call.orgId row
  let tx := match row with
    | some i => tx.lock (.account i)
    | none => tx
  .ok (judgeCurrency str tx typeId currency existing)

/-- The checks a new account has to pass once its currency is allowed. -/
def checkNewAccount (db : AccountsDb) (orgId : Nat) (body : AccountCreate) : Except HttpError Unit := do
  let targetType ← found (db.ownType orgId body.accountTypeId) ⟨400, "Invalid account type"⟩
  validateCreateCloseDay targetType.slug body.closeDay
  validateCreatePaymentDay targetType.slug body.paymentDay body.paymentDayRelativeMonth body.closeDay
  validateCreditCardFields targetType.slug body.creditLimit body.apr body.paymentStrategy body.fixedPaymentAmount
  validateLoanFields targetType.slug body.principalAmount body.interestRateApr body.termMonths
    body.originationDate body.firstPaymentDate
  validatePaymentSourceAccount db orgId body.paymentSourceAccountId none

/-- The inserts of a call. -/
def insertAccounts (tx : AccountTx) (typeId : Nat) (currency : String) : AccountTx :=
  match tx.call with
  | .create today orgId body =>
    match checkNewAccount tx.snapshot.toAccountsDb orgId body with
    | .error e => tx.close (.done (.error (.http e)))
    | .ok _ => (tx.write { tx.writes with accounts := [body.row today orgId currency] }).goto .ready
  | .seed today orgId =>
    match pickCategories tx.snapshot orgId with
    | .error e => tx.close (.done (.error e))
    | .ok picked =>
      (tx.write { tx.writes with
        accounts := sampleAccounts today orgId typeId currency, samples := some (today, picked) }).goto .ready
  | .delete _ _ => tx.goto .ready

/-- The delete of the row, which may be gone. -/
def flushDelete (w : AccountWorld) (id : Nat) (tx : AccountTx) : Except AccountWriteError AccountTx :=
  match tx.call with
  | .delete _ accountId => do
    refuse (w.Waits id (.account accountId)) .crashed
    .ok (((tx.lock (.account accountId)).write { tx.writes with deleted := some accountId }).goto .ready)
  | _ => .error .crashed

/-- The next statement of a transaction. -/
def nextAccountStatement (str : StrMethods) (w : AccountWorld) (id : Nat) (tx : AccountTx) (row : Option Nat) :
    Except AccountWriteError AccountTx :=
  match tx.phase with
  | .begun => .ok (tx.goto (beginAccountWrite str tx.snapshot tx.call))
  | .marking =>
    match checkingAccountType tx.snapshot tx.call.orgId with
    | some typeId => .ok ((tx.write { tx.writes with sentinel := true }).goto (.adopting typeId))
    | none => .ok (tx.close (.refusing "org has no account types — cannot seed"))
  | .adopting typeId => adoptCurrency str tx typeId row
  | .lockingOrg typeId currency => lockOrg w id tx typeId currency
  | .readingAccount typeId currency => readAccount str w id tx typeId currency row
  | .settingPrimary typeId currency code =>
    .ok ((tx.write { tx.writes with primaryCurrency := some code }).goto (.inserting typeId currency))
  | .inserting typeId currency => .ok (insertAccounts tx typeId currency)
  | .deleting => flushDelete w id tx
  | .ready | .refusing _ | .applied | .done _ => .error .crashed

def AccountWorld.put (w : AccountWorld) (id : Nat) (tx : AccountTx) : AccountWorld :=
  { w with txs := w.txs.modify id (fun _ => tx) }

/-- A committed seed has its audit event to come. -/
def AccountTx.committed (tx : AccountTx) : AccountPhase :=
  match tx.call with
  | .seed _ _ => .applied
  | _ => .done (.ok ())

def refusedAudit (orgId : Nat) (reason : String) : SeedAudit :=
  { eventType := "onboarding.seed_demo.refused", targetOrgId := orgId, succeeded := false, reason := some reason }

def appliedAudit (orgId : Nat) : SeedAudit :=
  { eventType := "onboarding.seed_demo.applied", targetOrgId := orgId, succeeded := true }

def AccountBooks.record (db : AccountBooks) (audit : SeedAudit) : AccountBooks :=
  { db with auditEvents := db.auditEvents ++ [audit] }

/-- What other requests leave of the tables. -/
def AccountBooks.editedBy (db other : AccountBooks) : AccountBooks :=
  { other with
    organizations := db.organizations.mapRows (fun i o =>
      { (other.organizations.get? i).getD o with primaryCurrency := o.primaryCurrency })
    accounts := db.accounts.mapRows (fun i a =>
      { (other.accounts.get? i).getD a with orgId := a.orgId, currency := a.currency }) }

/-- One step. An event whose transaction is elsewhere, or has to wait, is refused. -/
def accountStep (str : StrMethods) (w : AccountWorld) : AccountEvent → Except AccountWriteError AccountWorld
  | .begin call => .ok { w with txs := w.txs.insert { call, snapshot := w.db } }
  | .next id row => do
    let tx ← found (w.txs.get? id) .crashed
    let tx ← nextAccountStatement str w id tx row
    .ok (w.put id tx)
  | .commit id => do
    let tx ← found (w.txs.get? id) .crashed
    match tx.phase with
    | .ready => .ok { (w.put id (tx.close tx.committed)) with db := tx.writes.apply tx.call.orgId w.db }
    | _ => .error .crashed
  | .fail id => do
    let tx ← found (w.txs.get? id) .crashed
    match tx.phase with
    | .done _ => .error .crashed
    | .refusing reason => .ok (w.put id (tx.goto (.done (.error (.alreadyApplied reason)))))
    | .applied => .ok (w.put id (tx.goto (.done (.ok ()))))
    | _ => .ok (w.put id (tx.close (.done (.error .crashed))))
  | .audit id => do
    let tx ← found (w.txs.get? id) .crashed
    match tx.phase with
    | .refusing reason =>
      .ok { (w.put id (tx.goto (.done (.error (.alreadyApplied reason))))) with
        db := w.db.record (refusedAudit tx.call.orgId reason) }
    | .applied =>
      .ok { (w.put id (tx.goto (.done (.ok ())))) with db := w.db.record (appliedAudit tx.call.orgId) }
    | _ => .error .crashed
  | .elsewhere other => .ok { w with db := w.db.editedBy other }

end BetterDecision
