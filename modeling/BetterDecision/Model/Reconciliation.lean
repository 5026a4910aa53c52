import BetterDecision.Model.Deletes

/-!
# Reconciling an import

`reconciliation_service`: the rows of an import batch move through a small state
machine, and the cached balance follows. A transition reverts or re-applies the
row's amount exactly if it takes the row out of the balance or puts it back, which
`contributesToCachedBalance` says before and after.

The import confirm that creates a batch is here too, as one chunk.
-/

namespace BetterDecision

/-- Where a row still to be reviewed can go. -/
def ReconciliationState.isReviewTarget : ReconciliationState → Bool
  | .matched => true
  | .edited => true
  | .skipped => true
  | .accepted => true
  | .rejected => true
  | _ => false

/-- `ALLOWED_TRANSITIONS`. -/
def ReconciliationState.allowed : ReconciliationState → ReconciliationState → Bool
  | .pendingReview, target => target.isReviewTarget
  | .unmatched, target => target.isReviewTarget
  | .matched, .accepted => true
  | .edited, .accepted => true
  | .accepted, .pendingReview => true
  | _, _ => false

structure ReconciliationEdits where
  description : Option String := none
  amount : Option Amount := none
  date : Option Int := none
  categoryId : Option Nat := none

structure ReconciliationTransition where
  transactionId : Nat
  toState : ReconciliationState
  edits : Option ReconciliationEdits := none
  matchWithTransactionId : Option Nat := none

/-- Edits come with `edited`, a match target with `matched`, and nothing else with
anything else. -/
def validatePayloadShape (t : ReconciliationTransition) : Result Unit :=
  match t.toState with
  | .edited => do
    refuse (t.edits.isNone) (.validation "EDITED transition requires 'edits'")
    refuse (t.matchWithTransactionId.isSome)
      (.validation "EDITED transition does not accept 'match_with_transaction_id'")
  | .matched => do
    refuse (t.matchWithTransactionId.isNone)
      (.validation "MATCHED transition requires 'match_with_transaction_id'")
    refuse (t.edits.isSome) (.validation "MATCHED transition does not accept 'edits'")
  | target => do
    refuse (t.edits.isSome) (.validation s!"{target.value.toUpper} transition does not accept 'edits'")
    refuse (t.matchWithTransactionId.isSome)
      (.validation s!"{target.value.toUpper} transition does not accept 'match_with_transaction_id'")

def validateTransition (source target : ReconciliationState) : Result Unit :=
  refuse (¬ source.allowed target)
    (.conflict s!"reconciliation transition not allowed: {source.value} -> {target.value}")

/-- The row after the edits. A settled row's settlement follows its date. -/
def reconciledRow (tx : Transaction) (edits : ReconciliationEdits) : Transaction :=
  { tx with
    description := edits.description.getD tx.description
    categoryId := edits.categoryId.getD tx.categoryId
    amount := edits.amount.getD tx.amount
    date := edits.date.getD tx.date
    settledDate :=
      match edits.date with
      | some d => if tx.status = .settled then some d else tx.settledDate
      | none => tx.settledDate }

/-- An edited category has to take the row's type. -/
def validateEditedCategory (db : Db) (orgId : Nat) (tx : Transaction) (edits : ReconciliationEdits) :
    Result Unit :=
  match edits.categoryId with
  | some categoryId => validateCategoryForType db categoryId orgId tx.type
  | none => .ok ()

/-- An edited date of a series row stays before the frontier. -/
def refuseEditedDate (db : Db) (today : Int) (orgId : Nat) (tx : Transaction)
    (edits : ReconciliationEdits) : Result Unit :=
  match edits.date, tx.recurringId with
  | some d, some recurringId =>
    if d ≠ tx.date then refuseRowDateAtFrontier db today orgId recurringId d else .ok ()
  | _, _ => .ok ()

/-- Apply the edits of a transition to a row. `linkTarget` is what the link points at,
`counted` whether the row is inside the balance; both as they were before. -/
def applyEdits (db : Db) (today : Int) (orgId : Nat) (row : Row) (edits : ReconciliationEdits)
    (linkTarget : Option Row) (counted : Bool) : Result (Db × Transaction) := do
  let (id, tx) := row
  refuse (isReciprocalPair row linkTarget)
    (.validation "Cannot edit a transfer leg from the reconciliation inbox; edit it on the transactions page so both legs stay in sync.")
  validateEditedCategory db orgId tx edits
  let new := reconciledRow tx edits
  let moves := tx.status = .settled && counted && new.amount != tx.amount
  let db ← doIf moves (fun db => revertRow db orgId tx) db
  let db ← doIf moves (fun db => applyBalance db orgId tx.accountId new.amount tx.type) db
  refuseEditedDate db today orgId tx edits
  refuse (edits.date.isSome ∧ ∃ s ∈ new.settledDate, s < new.date)
    (.validation "settled_date must be on or after date")
  .ok (editTransaction db id (fun _ => new), new)

/-- Link a row to the row it duplicates, one way. Neither refusal on a link is about
links as such: only a mutual one would be forged or lost. -/
def applyMatch (db : Db) (orgId : Nat) (row : Row) (matchId : Nat) : Result (Db × Row) := do
  let (id, tx) := row
  refuse (matchId = id) (.validation "MATCHED target must differ from the transaction itself")
  let target ← found (findTransaction db orgId matchId) (.notFound "Match target transaction")
  refuse (target.reconciliationState.isReverted)
    (.validation s!"Transaction {matchId} is {target.reconciliationState.value}; match against a live transaction instead.")
  refuse (target.linkedTransactionId = some id)
    (.validation s!"Transaction {matchId} is already matched to transaction {id}; matching in the opposite direction would make them look like a transfer pair. Accept or reject one of the two rows instead.")
  refuse (isReciprocalPair row (linkedRow db orgId tx))
    (.validation s!"Transaction {id} is a transfer leg; unlink the transfer before matching it to another transaction.")
  .ok (setLink id (some matchId) db, (matchId, target))

/-- Move the balance if the transition moved the row across its edge. -/
def applyBalanceForTransition (db : Db) (orgId : Nat) (tx : Transaction) (source target : Bool) :
    Result Db :=
  if tx.status ≠ .settled then .ok db
  else if source = target then .ok db
  else if source then revertRow db orgId tx
  else applyRow db orgId tx

/-- A counter less one, never below zero. -/
def decrement (count : Int) : Int := max 0 (count - 1)

/-- What a transition does to a counter of the rows in one kind of state. -/
def movedCount (wasIn isIn : Bool) (count : Int) : Int :=
  if wasIn && !isIn then decrement count else if !wasIn && isIn then count + 1 else count

def countTransition (source target : ReconciliationState) (batch : ImportBatch) : ImportBatch :=
  { batch with
    pendingCount := movedCount source.isPending target.isPending batch.pendingCount
    acceptedCount := movedCount (source == .accepted) (target == .accepted) batch.acceptedCount }

/-- Apply what comes with a transition. The row comes back as it is then, and what its
link points at. -/
def applyPayload (db : Db) (today : Int) (orgId : Nat) (row : Row) (t : ReconciliationTransition)
    (sourcePartner : Option Row) (counted : Bool) : Result (Db × Transaction × Option Row) :=
  match t.toState, t.edits, t.matchWithTransactionId with
  | .edited, some edits, _ => do
    let (db, tx) ← applyEdits db today orgId row edits sourcePartner counted
    .ok (db, tx, sourcePartner)
  | .matched, _, some matchId => do
    let (db, matched) ← applyMatch db orgId row matchId
    .ok (db, { row.2 with linkedTransactionId := some matchId }, some matched)
  | _, _, _ => .ok (db, row.2, sourcePartner)

/-- Apply one transition. -/
def reconcileOne (db : Db) (today : Int) (orgId batchId : Nat) (t : ReconciliationTransition) :
    Result Db := do
  validatePayloadShape t
  let id := t.transactionId
  let tx ← found (findTransaction db orgId id) (.notFound "Transaction")
  refuse (tx.importBatchId ≠ some batchId)
    (.validation s!"transaction {id} does not belong to batch {batchId}")
  let source := tx.reconciliationState
  let target := t.toState
  if source = target then .ok db
  else
    validateTransition source target
    let sourcePartner := linkedRow db orgId tx
    let counted := contributesToCachedBalance (id, tx) sourcePartner
    refuse (target.isReverted ∧ isReciprocalPair (id, tx) sourcePartner)
      (.validation "Cannot skip or reject a transfer leg from the reconciliation inbox; unlink the transfer on the transactions page so both legs stay in sync.")
    let (db, tx, targetPartner) ← applyPayload db today orgId (id, tx) t sourcePartner counted
    let tx := { tx with reconciliationState := target }
    let db := editTransaction db id (fun t => { t with reconciliationState := target })
    let db ← applyBalanceForTransition db orgId tx counted
      (contributesToCachedBalance (id, tx) targetPartner)
    .ok (editBatch db batchId (countTransition source target))

def findBatch (db : Db) (orgId id : Nat) : Option ImportBatch :=
  (db.importBatches.get? id).filter (fun b => b.orgId == orgId)

/-- All transitions of a request or none, and then the batch is closed if nothing is
left to review. -/
def reconcileRequest (db : Db) (today : Int) (orgId batchId : Nat)
    (transitions : List ReconciliationTransition) : Result Db := do
  let _ ← found (findBatch db orgId batchId) (.notFound "ImportBatch")
  let db ← transitions.foldlM (fun db t => reconcileOne db today orgId batchId t) db
  .ok (closeBatchIfComplete db batchId [])

/-! ## Importing -/

/-- What a confirmed row asks for. Dropping a duplicate writes nothing and is left out. -/
inductive ConfirmAction
  | create
  | pairWithExisting (transactionId : Nat)
  | createTransferPair (partnerAccountId : Nat)
  deriving DecidableEq, Repr

structure ImportConfirmRow where
  categoryId : Nat
  description : String
  amount : Amount
  type : EntryType
  date : Int
  action : ConfirmAction := .create
  recategorize : Bool := true
  transferCategoryId : Option Nat := none

def EntryType.opposite : EntryType → EntryType
  | .income => .expense
  | .expense => .income

/-- Link a new row and its partner, whichever of the two is the expense. -/
def linkByType (db : Db) (row : ImportConfirmRow) (new partner : Row) : Result Db :=
  match row.type with
  | .expense => linkPair db new partner row.recategorize row.transferCategoryId
  | .income => linkPair db partner new row.recategorize row.transferCategoryId

/-- The account of the leg a confirm is to make. -/
def validatePartnerAccount (db : Db) (orgId accountId : Nat) (account : Account) (action : ConfirmAction) :
    Result Unit :=
  match action with
  | .createTransferPair partnerAccountId => do
    let partnerAccount ← found (findAccount db orgId partnerAccountId) (.notFound "Partner account")
    refuse (partnerAccountId = accountId)
      (.validation "Partner account must differ from import account")
    refuse (partnerAccount.currency ≠ account.currency)
      (.validation "Partner account currency must match import account currency")
  | _ => .ok ()

/-- One row of a confirm, and the id of the bank's leg. A row that refuses leaves
nothing behind. -/
def confirmRow (db : Db) (orgId accountId : Nat) (row : ImportConfirmRow) : Result (Db × Nat) := do
  let account ← getAccountForUpdate db accountId orgId
  validatePartnerAccount db orgId accountId account row.action
  let (db, new) ← createTransactionNoCommit db orgId
    { accountId, categoryId := row.categoryId, description := row.description
      amount := row.amount, type := row.type, date := row.date } true false
  match row.action with
  | .create => .ok (db, new.1)
  | .pairWithExisting partnerId => do
    let partner ← found (findTransaction db orgId partnerId)
      (.conflict "Partner row no longer exists; re-preview")
    refuse (partner.linkedTransactionId.isSome)
      (.conflict "Partner row is already linked; re-preview")
    refuse (partner.recurringId.isSome) (.conflict "Partner row is recurring; re-preview")
    refuse (partner.status ≠ .settled) (.conflict "Partner row no longer settled; re-preview")
    refuse (currencyOf db partner.accountId ≠ some account.currency)
      (.conflict "Currency mismatch detected at confirm; re-preview")
    let db ← linkByType db row new (partnerId, partner)
    .ok (db, new.1)
  | .createTransferPair partnerAccountId => do
    let (db, partner) ← createTransactionNoCommit db orgId
      { accountId := partnerAccountId, categoryId := row.categoryId, description := row.description
        amount := row.amount, type := row.type.opposite, date := row.date } false false
    let db ← linkByType db row new partner
    .ok (db, new.1)

/-- The rows of a chunk in turn, skipping those that refuse, and the ids created. -/
def applyConfirmRows (db : Db) (orgId accountId : Nat) (rows : List ImportConfirmRow) : Db × List Nat :=
  rows.foldl (fun acc row =>
    match confirmRow acc.1 orgId accountId row with
    | .ok (db, id) => (db, acc.2 ++ [id])
    | .error _ => acc) (db, [])

/-- The header of an import, with nothing in it yet. -/
def claimConfirm (db : Db) (orgId accountId : Nat) : Result Db := do
  validateAccount db accountId orgId
  .ok { db with importBatches := db.importBatches.insert { orgId, accountId } }

/-- Enrol the rows of a chunk, all of them accepted. -/
def enrolRows (db : Db) (orgId batchId : Nat) (ids : List Nat) : Db :=
  let db := updateRows db orgId (fun id _ => ids.contains id)
    (fun t => { t with importBatchId := some batchId })
  editBatch db batchId (fun b => { b with
    rowCount := b.rowCount + ids.length, acceptedCount := b.acceptedCount + ids.length })

/-- DELETE of a batch, and the foreign key's SET NULL. -/
def deleteBatch (db : Db) (batchId : Nat) : Db :=
  { db with
    importBatches := db.importBatches.remove (· == batchId)
    transactions := db.transactions.mapRows (fun _ t =>
      if t.importBatchId = some batchId then { t with importBatchId := none } else t) }

/-- One chunk of a confirm. The last one takes an empty header away again. -/
def confirmChunk (db : Db) (orgId batchId : Nat) (rows : List ImportConfirmRow) (completed : Bool) : Db :=
  match findBatch db orgId batchId with
  | none => db
  | some batch =>
    let (db, ids) := applyConfirmRows db orgId batch.accountId rows
    let db := enrolRows db orgId batchId ids
    if completed ∧ batch.rowCount + ids.length = 0 then deleteBatch db batchId else db

end BetterDecision
