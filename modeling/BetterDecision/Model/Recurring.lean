import BetterDecision.Model.Reconciliation

/-!
# Recurring templates

`recurring_service`: the templates, the rows generated from them, and the frontier
`next_due_date`, which says where the next occurrence lands. `advanceFrontier` is the
one place an occurrence is consumed.
-/

namespace BetterDecision

open Calendar

/-- `occurrence_count` as a request may give it. -/
abbrev OccurrenceCount := { n : Int // 0 < n ∧ n ≤ 1200 }

/-- Refuse a frontier earlier than the current billing cycle. -/
def validateFrontier (db : Db) (today : Int) (orgId : Nat) (nextDueDate : Int) : Result Unit :=
  let pStart := frontierLowerBound db orgId today
  refuse (nextDueDate < pStart)
    (.validation s!"Next due date cannot be earlier than {isoformat pStart}, the start of the current billing cycle. Send a next_due_date on or after that date; a frequency change on a template whose schedule is already behind must carry one.")

/-- A card or a loan may be paid, but never the source. -/
def refuseCardOrLoanSource (slug : Option AccountSlug) : Result Unit :=
  refuse (slug = some .creditCard ∨ slug = some .loan)
    (.validation "A recurring transfer cannot come from a credit card or loan account.")

/-- A destination goes with a transfer and nothing else, and is another active account
of the same currency. -/
def validateTransferAccounts (db : Db) (orgId : Nat) (rType : TransactionType) (accountId : Nat)
    (toAccountId : Option Nat) : Result Unit :=
  if rType ≠ .transfer then
    refuse (toAccountId.isSome) (.validation "Only a transfer has a destination account")
  else do
    let toId ← found toAccountId (.validation "A transfer needs a destination account")
    refuse (toId = accountId) (.validation "Source and destination accounts must be different")
    let source ← found (findAccount db orgId accountId) (.validation "Invalid account")
    let destination ← found (findAccount db orgId toId) (.validation "Invalid account")
    refuse (¬ (source.isActive ∧ destination.isActive))
      (.validation "A recurring transfer needs two active accounts")
    refuseCardOrLoanSource (some source.slug)
    refuse (source.currency ≠ destination.currency)
      (.validation "Transfer accounts must have the same currency")

def insertRecurring (db : Db) (r : RecurringTransaction) : Db :=
  { db with recurring := db.recurring.insert r }

def editRecurring (db : Db) (id : Nat) (f : RecurringTransaction → RecurringTransaction) : Db :=
  { db with recurring := db.recurring.modify id f }

structure RecurringCreate where
  accountId : Nat
  categoryId : Nat
  description : String
  amount : Amount
  type : TransactionType
  toAccountId : Option Nat := none
  frequency : Frequency
  nextDueDate : Int
  autoSettle : Bool := false
  occurrenceCount : Option OccurrenceCount := none

def createRecurring (db : Db) (today : Int) (orgId : Nat) (body : RecurringCreate) : Result Db := do
  validateAccount db body.accountId orgId
  validateCategoryForType db body.categoryId orgId body.type
  validateTransferAccounts db orgId body.type body.accountId body.toAccountId
  validateFrontier db today orgId body.nextDueDate
  .ok (insertRecurring db
    { orgId, accountId := body.accountId, toAccountId := body.toAccountId
      categoryId := body.categoryId, description := body.description, amount := body.amount
      type := body.type, frequency := body.frequency, nextDueDate := body.nextDueDate
      autoSettle := body.autoSettle, occurrenceCount := body.occurrenceCount.map (·.val) })

structure PromoteToRecurringRequest where
  frequency : Frequency
  nextDueDate : Int
  autoSettle : Bool := false
  occurrenceCount : Option OccurrenceCount := none

/-- Make a row the first of a series. It counts as an instalment already spent, unless
the frontier lies on or before it and generation will count it. -/
def promoteToRecurring (db : Db) (today : Int) (orgId id : Nat) (body : PromoteToRecurringRequest) :
    Result Db := do
  validateFrontier db today orgId body.nextDueDate
  let tx ← found (findTransaction db orgId id) (.notFound "Transaction")
  refuse (tx.linkedTransactionId.isSome)
    (.validation "Cannot make a linked transaction recurring: this row is tied to another transaction. Unlink it first.")
  refuse (tx.reconciliationState.isReverted)
    (.validation "Cannot make a skipped or rejected transaction recurring.")
  refuse (tx.isManualAdjustment)
    (.validation "Cannot promote a manual balance adjustment to recurring")
  refuse (tx.recurringId.isSome)
    (.validation "Transaction is already linked to a recurring template")
  let ahead : Bool := tx.date < body.nextDueDate
  let template : RecurringTransaction :=
    { orgId, accountId := tx.accountId, categoryId := tx.categoryId, description := tx.description
      amount := tx.amount, type := tx.type, frequency := body.frequency
      nextDueDate := body.nextDueDate, autoSettle := body.autoSettle
      occurrenceCount := body.occurrenceCount.map (·.val)
      occurrencesElapsed := if ahead then 1 else 0
      lastSpentDate := if ahead then some tx.date else none }
  let recurringId := db.recurring.next
  .ok (editTransaction (insertRecurring db template) id (fun t => { t with recurringId := some recurringId }))

/-! ## Editing a template -/

/-- `occurrenceCount` tells an omitted key from an explicit null, which is `some none`. -/
structure RecurringUpdate where
  accountId : Option Nat := none
  toAccountId : Option Nat := none
  categoryId : Option Nat := none
  description : Option String := none
  amount : Option Amount := none
  type : Option EntryType := none
  frequency : Option Frequency := none
  nextDueDate : Option Int := none
  autoSettle : Option Bool := none
  isActive : Option Bool := none
  occurrenceCount : Option (Option OccurrenceCount) := none

/-- The template with the fields of the request, its type and category aside. -/
def withFields (r : RecurringTransaction) (body : RecurringUpdate) : RecurringTransaction :=
  { r with
    accountId := body.accountId.getD r.accountId
    toAccountId := body.toAccountId.or r.toAccountId
    description := body.description.getD r.description
    amount := body.amount.getD r.amount
    frequency := body.frequency.getD r.frequency
    nextDueDate := body.nextDueDate.getD r.nextDueDate
    autoSettle := body.autoSettle.getD r.autoSettle
    isActive := body.isActive.getD r.isActive
    occurrenceCount := (body.occurrenceCount.map (fun n => n.map (·.val))).getD r.occurrenceCount }

/-- The template with the type and category of the request. -/
def withCategory (r : RecurringTransaction) (body : RecurringUpdate) : RecurringTransaction :=
  { r with
    type := (body.type.map EntryType.toType).getD r.type
    categoryId := body.categoryId.getD r.categoryId }

/-- `_MAX_FRONTIER_ADVANCE_STEPS`. -/
def maxFrontierAdvanceSteps : Nat := 1200

/-- Walk a frozen frontier along its own grid up to `pStart`. -/
def walkFrontier (freq : Frequency) (pStart : Int) : Nat → Int → Result Int
  | 0, d => .ok d
  | steps + 1, d =>
    if d < pStart then do
      let next ← advanceDate d freq
      walkFrontier freq pStart steps next
    else .ok d

/-- Advance a resumed template's frontier onto the current billing cycle. What it has
delivered does not move. -/
def reanchorFrontierOnResume (db : Db) (today : Int) (orgId : Nat) (r : RecurringTransaction) :
    Result RecurringTransaction := do
  let nextDueDate ←
    walkFrontier r.frequency (frontierLowerBound db orgId today) maxFrontierAdvanceSteps r.nextDueDate
  .ok { r with nextDueDate }

/-- The dates of the series' rows. -/
def seriesDates (db : Db) (orgId recurringId : Nat) : List Int :=
  (db.transactions.select (fun _ t => t.orgId == orgId && t.recurringId == some recurringId)).map (·.2.date)

/-- The last date the series has spent; for a template that spent before the column
existed, the day before the frontier it had. -/
def spentBound (r : RecurringTransaction) (oldNextDue : Int) : Option Int :=
  match r.lastSpentDate with
  | some d => some d
  | none => if r.occurrencesElapsed ≠ 0 then some (oldNextDue - 1) else none

/-- Refuse a moved frontier that lands where the series already has an occurrence. -/
def checkFrontierClearsSeries (db : Db) (orgId recurringId : Nat) (r : RecurringTransaction)
    (oldNextDue : Int) : Result Unit :=
  let latest := (seriesDates db orgId recurringId).max?
  match (latest.toList ++ (spentBound r oldNextDue).toList).max? with
  | none => .ok ()
  | some bound => do
    let new := r.nextDueDate
    let floor ← advanceDate bound r.frequency
    let earliest := max (bound + 1) (min floor oldNextDue)
    refuse (¬ (bound < new ∧ (floor ≤ new ∨ oldNextDue ≤ new)))
      (.conflict (if some bound = latest then
        s!"The series has a transaction on {isoformat bound}, so its next due date cannot be {isoformat new}. Choose {isoformat earliest} or later, or move or delete that transaction first."
      else
        s!"The series has already generated its occurrences through {isoformat bound}, so its next due date cannot be {isoformat new}. Choose {isoformat earliest} or later."))

/-- The pending pairs of a transfer series a sync may rewrite: both legs live, and
nothing matched against either. -/
def pendingTransferPairs (db : Db) (orgId recurringId : Nat) : List (Row × Row) :=
  let legs := db.transactions.select (fun id t =>
    t.orgId == orgId && t.recurringId == some recurringId && t.status == .pending &&
      t.linkedTransactionId.isSome && !t.reconciliationState.isReverted &&
      (db.transactions.select (fun i s => s.orgId == orgId && s.linkedTransactionId == some id &&
        t.linkedTransactionId != some i)).isEmpty)
  legs.filterMap (fun exp =>
    match lockedPartner legs exp.2 with
    | some inc =>
      if exp.2.type = .expense ∧ isReciprocalPair exp (some inc) then some (exp, inc) else none
    | none => none)

/-- Both legs of a pair after a template edit from `was` to `r`. Each field follows only
while it still holds the old value, and neither leg lands on the other's account. -/
def syncedLegs (was r : RecurringTransaction) (exp inc : Transaction) : Transaction × Transaction :=
  let amounts : Bool := exp.amount = inc.amount ∧ inc.amount = was.amount
  let categories : Bool := exp.categoryId = inc.categoryId ∧ inc.categoryId = was.categoryId
  let name (t : Transaction) := if t.description = was.description then r.description else t.description
  let source :=
    if exp.accountId = was.accountId ∧ r.accountId ≠ inc.accountId then r.accountId else exp.accountId
  let destination :=
    if some inc.accountId = was.toAccountId ∧ r.toAccountId ≠ some source
    then r.toAccountId.getD inc.accountId else inc.accountId
  ({ exp with
      amount := if amounts then r.amount else exp.amount
      categoryId := if categories then r.categoryId else exp.categoryId
      description := name exp, accountId := source },
    { inc with
      amount := if amounts then r.amount else inc.amount
      categoryId := if categories then r.categoryId else inc.categoryId
      description := name inc, accountId := destination })

/-- Move a transfer template's edit onto its pending pairs. -/
def syncPendingTransferPairs (db : Db) (orgId recurringId : Nat) (was r : RecurringTransaction) :
    Result Db := do
  refuseCardOrLoanSource ((findAccount db orgId r.accountId).map (·.slug))
  .ok ((pendingTransferPairs db orgId recurringId).foldl (fun db p =>
    let legs := syncedLegs was r p.1.2 p.2.2
    editTransaction (editTransaction db p.1.1 (fun _ => legs.1)) p.2.1 (fun _ => legs.2)) db)

/-- What an edited template hands on to its pending rows: the fields that changed, each
guarded by its old value. -/
def syncOfTemplate (was r : RecurringTransaction) : SeriesSync where
  txType := was.type
  description := if r.description ≠ was.description then some r.description else none
  descriptionWas := some was.description
  categoryId := if r.categoryId ≠ was.categoryId ∧ r.type = was.type then some r.categoryId else none
  categoryWas := some was.categoryId
  accountId := if r.accountId ≠ was.accountId then some r.accountId else none
  accountWas := some was.accountId
  amount := if r.amount ≠ was.amount then some r.amount else none
  amountWas := some was.amount

/-- A template resumed, or given instalments again, starts from the current cycle. -/
def resumeTemplate (db : Db) (today : Int) (orgId : Nat) (was r : RecurringTransaction)
    (body : RecurringUpdate) : Result RecurringTransaction :=
  let resumed := body.isActive = some true ∧ ¬ was.isActive
  let unexhausted := hasRemainingOccurrences r ∧ ¬ hasRemainingOccurrences was
  if resumed ∨ unexhausted then reanchorFrontierOnResume db today orgId r else .ok r

/-- The template an update makes of `was`, before anything is written. -/
def updatedTemplate (db : Db) (today : Int) (orgId recurringId : Nat) (was : RecurringTransaction)
    (body : RecurringUpdate) : Result RecurringTransaction := do
  checkIf (body.accountId.isSome) (validateAccount db (body.accountId.getD was.accountId) orgId)
  let r := withFields was body
  checkIf (body.accountId.isSome ∨ body.toAccountId.isSome)
    (validateTransferAccounts db orgId r.type r.accountId r.toAccountId)
  refuse (body.type.isSome ∧ r.type = .transfer)
    (.validation "A recurring transfer cannot change type. Stop it and create a new series.")
  let r := withCategory r body
  checkIf (body.type.isSome ∨ body.categoryId.isSome) (validateCategoryForType db r.categoryId orgId r.type)
  let r ← resumeTemplate db today orgId was r body
  checkIf (body.nextDueDate.isSome ∨ body.frequency.isSome) (validateFrontier db today orgId r.nextDueDate)
  checkIf (body.nextDueDate.isSome ∧ r.nextDueDate ≠ was.nextDueDate)
    (checkFrontierClearsSeries db orgId recurringId r was.nextDueDate)
  .ok r

def updateRecurring (db : Db) (today : Int) (orgId recurringId : Nat) (body : RecurringUpdate) :
    Result Db := do
  let was ← found (findRecurring db orgId recurringId) (.notFound "Recurring transaction")
  let r ← updatedTemplate db today orgId recurringId was body
  let db := editRecurring db recurringId (fun _ => r)
  let sync := syncOfTemplate was r
  let db := if sync.isEmpty then db else propagateFieldsToSeries db orgId recurringId sync
  if r.type = .transfer ∧ (¬ sync.isEmpty ∨ r.categoryId ≠ was.categoryId ∨
      r.toAccountId ≠ was.toAccountId) then
    syncPendingTransferPairs db orgId recurringId was r
  else .ok db

/-! ## Stopping -/

structure PendingRemovalPlan where
  rows : List Row
  doomed : List Nat

/-- Decide which pending rows of a series go. A leg whose partner stays is kept. -/
def planPendingRemoval (db : Db) (today : Int) (orgId recurringId : Nat) : PendingRemovalPlan :=
  let candidates := (db.transactions.select (fun _ t =>
    t.recurringId == some recurringId && t.orgId == orgId && t.status == .pending &&
      decide (today ≤ t.date))).map Prod.fst
  let locked := db.transactions.select (fun id t =>
    t.orgId == orgId && (candidates.contains id || t.linkedTransactionId.any (candidates.contains ·)))
  let splits (r : Row) : Bool :=
    match lockedPartner locked r.2 with
    | some p => isReciprocalPair r (some p) && !candidates.contains p.1
    | none => false
  { rows := locked
    doomed := (locked.filter (fun r => candidates.contains r.1 && !splits r)).map Prod.fst }

structure PendingRemovalResult where
  removed : Nat
  demotedIds : List Nat

/-- Delete the pending future rows of a series. None of them is in a balance. -/
def removePendingTransactions (db : Db) (today : Int) (orgId recurringId : Nat) :
    Db × PendingRemovalResult :=
  let plan := planPendingRemoval db today orgId recurringId
  if plan.doomed = [] then (db, { removed := 0, demotedIds := [] })
  else
    let settlement := planBatchSettlement plan.rows plan.doomed
    (deleteTransactions (applyBatchSettlement db orgId settlement) plan.doomed,
      { removed := plan.doomed.length, demotedIds := settlement.demoted.map Prod.fst })

/-- Deactivate a template, remove its pending rows and unlink those that stay. -/
def stopRecurring (db : Db) (today : Int) (orgId recurringId : Nat) :
    Result (Db × PendingRemovalResult) := do
  let _ ← found (findRecurring db orgId recurringId) (.notFound "Recurring transaction")
  let db := editRecurring db recurringId (fun r => { r with isActive := false })
  let (db, outcome) := removePendingTransactions db today orgId recurringId
  .ok (updateRows db orgId (fun _ t => t.recurringId == some recurringId)
    (fun t => { t with recurringId := none }), outcome)

/-- Delete a template. The foreign key unlinks its rows. -/
def deleteRecurring (db : Db) (today : Int) (orgId recurringId : Nat) :
    Result (Db × PendingRemovalResult) := do
  let _ ← found (findRecurring db orgId recurringId) (.notFound "Recurring transaction")
  let (db, outcome) := removePendingTransactions db today orgId recurringId
  .ok ({ db with
      recurring := db.recurring.remove (· == recurringId)
      transactions := db.transactions.mapRows (fun _ t =>
        if t.recurringId = some recurringId then { t with recurringId := none } else t) }, outcome)

/-! ## Generation -/

/-- Consume the occurrence at `due`: move the frontier, spend one instalment. -/
def advanceFrontier (db : Db) (recurringId : Nat) (r : RecurringTransaction) (due : Int) : Result Db := do
  let nextDueDate ← advanceDate due r.frequency
  let db := editRecurring db recurringId (fun r =>
    { r with nextDueDate, occurrencesElapsed := r.occurrencesElapsed + 1, lastSpentDate := some due })
  .ok { db with spends := db.spends ++ [{ recurringId, date := due, remaining := remainingOccurrences r }] }

/-- Write the occurrence of a template at `due`: one row, or a linked pair for a
transfer. The row that comes back is the expense leg of a pair. -/
def createOccurrence (db : Db) (today : Int) (orgId recurringId : Nat) (r : RecurringTransaction)
    (due : Int) (settle skipped : Bool) : Result (Db × Transaction) := do
  let status : TransactionStatus :=
    if settle ∧ r.autoSettle ∧ due ≤ today then .settled else .pending
  let base : Transaction :=
    { orgId, accountId := r.accountId, categoryId := r.categoryId, description := r.description
      amount := r.amount, type := r.type, status, date := due
      settledDate := if status = .settled then some due else none
      recurringId := some recurringId
      recurringOriginId := if r.type = .transfer then some recurringId else none
      reconciliationState := if skipped then .skipped else .accepted }
  if r.type = .transfer then
    let toAccountId ← found r.toAccountId .integrity
    let expense := { base with type := .expense }
    let income := { base with type := .income, accountId := toAccountId }
    let expenseId := db.transactions.next
    let db := insertTransaction db expense
    let incomeId := db.transactions.next
    let db := insertTransaction db income
    let db ← linkPair db (expenseId, expense) (incomeId, income) false none
    let db ← doIf (status = .settled) (fun db => applyRow db orgId expense) db
    let db ← doIf (status = .settled) (fun db => applyRow db orgId income) db
    .ok (db, expense)
  else
    let db ← doIf (status = .settled) (fun db => applyRow db orgId base) (insertTransaction db base)
    .ok (db, base)

/-- The series already has a row at `due`, in whatever state. -/
def occurrenceExists (db : Db) (orgId recurringId : Nat) (due : Int) : Bool :=
  (seriesDates db orgId recurringId).contains due

/-- Write the template's next occurrence now, and spend it. -/
def materialiseNext (db : Db) (today : Int) (orgId recurringId : Nat) (occurrenceDate : Int)
    (skipped : Bool) : Result Db := do
  let r ← found (findRecurring db orgId recurringId) (.notFound "Recurring transaction")
  refuse (r.nextDueDate ≠ occurrenceDate)
    (.conflict s!"The next occurrence is {isoformat r.nextDueDate}, not {isoformat occurrenceDate}. Refresh and try again.")
  refuse (¬ r.isActive) (.conflict "This recurring transaction is stopped.")
  refuse (¬ hasRemainingOccurrences r)
    (.conflict "This recurring transaction has no occurrences left.")
  let pStart := frontierLowerBound db orgId today
  refuse (r.nextDueDate < pStart)
    (.conflict s!"The next occurrence ({isoformat r.nextDueDate}) is before the current billing cycle ({isoformat pStart}). Generate transactions first.")
  refuse (occurrenceExists db orgId recurringId r.nextDueDate)
    (.conflict s!"The occurrence on {isoformat r.nextDueDate} already exists; edit or skip that transaction instead.")
  let (db, _) ← createOccurrence db today orgId recurringId r r.nextDueDate false skipped
  advanceFrontier db recurringId r r.nextDueDate

/-- Skip an occurrence already generated. Neither the frontier nor a balance moves. -/
def skipOccurrence (db : Db) (orgId id : Nat) : Result Db := do
  let tx ← found (findTransaction db orgId id) (.notFound "Transaction")
  refuse (tx.recurringId = none) (.conflict "Only a recurring occurrence can be skipped.")
  refuse (tx.status ≠ .pending) (.conflict "Only a pending occurrence can be skipped.")
  refuse (tx.reconciliationState ≠ .accepted)
    (.conflict s!"This transaction is already {tx.reconciliationState.value}.")
  refuse (tx.importBatchId.isSome) (.conflict "An imported transaction cannot be skipped.")
  refuse (tx.linkedTransactionId.isSome)
    (.conflict "A linked transaction cannot be skipped; unlink it first.")
  match db.transactions.select (fun _ t => t.orgId == orgId && t.linkedTransactionId == some id) with
  | (referrer, _) :: _ =>
    .error (.conflict s!"Transaction {referrer} is linked to this one; unlink it before skipping.")
  | [] => .ok (editTransaction db id (fun t => { t with reconciliationState := .skipped }))

/-- The pending rows of auto-settle templates that are due, reverted ones aside. -/
def dueAutoSettleRows (db : Db) (today : Int) (orgId : Nat) : List Row :=
  db.transactions.select (fun id t =>
    t.orgId == orgId && t.status == .pending &&
      (t.recurringId.bind db.recurring.get?).any (·.autoSettle) &&
      decide (effectivePeriodDate t ≤ today) && balanceContributionFilter db.transactions (id, t))

/-- The due rows in units that settle together: one row, or both legs of a pair once
both are due. -/
def dueAutoSettleUnits (db : Db) (today : Int) (orgId : Nat) : List (List Row) :=
  let rows := dueAutoSettleRows db today orgId
  rows.filterMap (fun row =>
    let partner := lockedPartner rows row.2
    if isReciprocalPair row partner then
      if row.2.type = .expense then some (row :: partner.toList) else none
    else
      let other := row.2.linkedTransactionId.bind
        (fun l => (db.transactions.get? l).map (fun t => (l, t)))
      if isReciprocalPair row other ∧ other.any (fun p =>
          p.2.status == .pending && !p.2.reconciliationState.isReverted) then none
      else some [row])

/-- Settle one due row. -/
def settleRow (orgId : Nat) (db : Db) (row : Row) : Result Db :=
  applyRow (editTransaction db row.1 (fun t =>
    { t with status := .settled, settledDate := some (t.settledDate.getD t.date) })) orgId row.2

/-- Settle what is due, and how many occurrences that was. -/
def settleDueAuto (db : Db) (today : Int) (orgId : Nat) : Result (Db × Nat) := do
  let units := dueAutoSettleUnits db today orgId
  lockAccounts db orgId (units.flatten.map (·.2.accountId))
  let db ← units.flatten.foldlM (settleRow orgId) db
  .ok (db, units.length)

/-- `MAX_CATCHUP_ITERATIONS`. -/
def maxCatchupIterations : Nat := 500

/-- What a generation run has written. -/
structure GenerateTally where
  created : Nat := 0
  createdSettled : Nat := 0
  backfilled : List Int := []

/-- Count a row written at `due`. -/
def GenerateTally.add (tally : GenerateTally) (pStart due : Int) (tx : Transaction) : GenerateTally where
  created := tally.created + 1
  createdSettled := if tx.status = .settled then tally.createdSettled + 1 else tally.createdSettled
  backfilled := if due < pStart then tally.backfilled ++ [due] else tally.backfilled

/-- The catch-up loop of one template: consume its occurrences up to `periodEnd`, writing
those the series has no row for. -/
def generateFor (today : Int) (orgId recurringId : Nat) (pStart periodEnd : Int) :
    Nat → Db × GenerateTally → Result (Db × GenerateTally)
  | 0, acc => .ok acc
  | fuel + 1, (db, tally) =>
    match findRecurring db orgId recurringId with
    | none => .ok (db, tally)
    | some r =>
      if r.nextDueDate ≤ periodEnd ∧ hasRemainingOccurrences r then
        let due := r.nextDueDate
        if occurrenceExists db orgId recurringId due then do
          let db ← advanceFrontier db recurringId r due
          generateFor today orgId recurringId pStart periodEnd fuel (db, tally)
        else do
          let (db, tx) ← createOccurrence db today orgId recurringId r due true false
          let db ← advanceFrontier db recurringId r due
          generateFor today orgId recurringId pStart periodEnd fuel (db, tally.add pStart due tx)
      else .ok (db, tally)

structure GenerateResult where
  generated : Nat
  settled : Nat
  pending : Nat
  backfilled : Nat
  periodEnd : Int

/-- The templates with something to generate, `active_series_filter` included. -/
def dueTemplates (db : Db) (orgId : Nat) (periodEnd : Int) : List Nat :=
  (db.recurring.select (fun _ r => r.orgId == orgId && r.isActive && hasRemainingOccurrences r &&
    decide (r.nextDueDate ≤ periodEnd))).map Prod.fst

/-- Settle what is due, then generate what falls in the current billing cycle. -/
def generateDueTransactions (db : Db) (today : Int) (orgId : Nat) : Result (Db × GenerateResult) := do
  let (pStart, periodEnd) := currentCycleWindow (cycleDayOf db orgId) today
  let (db, settledNow) ← settleDueAuto db today orgId
  let (db, tally) ← (dueTemplates db orgId periodEnd).foldlM (fun acc recurringId =>
    generateFor today orgId recurringId pStart periodEnd maxCatchupIterations acc) (db, {})
  .ok (db,
    { generated := tally.created, settled := tally.createdSettled + settledNow
      pending := tally.created - tally.createdSettled, backfilled := tally.backfilled.length
      periodEnd })

end BetterDecision
