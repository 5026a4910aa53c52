import BetterDecision.Model.Update

/-!
# Deleting rows

`linked_transaction_id` is `ON DELETE SET NULL`. A reconcile-matched duplicate is
kept out of the balance by that column alone, so before a row goes, every
duplicate matched against it is marked rejected, and the import batches are
told about the rows they lose. Every delete path goes through
`planBatchSettlement` and `applyBatchSettlement` for that.
-/

namespace BetterDecision

/-- `PENDING_STATES`: still to be reviewed. -/
def ReconciliationState.isPending : ReconciliationState → Bool
  | .pendingReview => true
  | .unmatched => true
  | _ => false

/-- DELETE, and the foreign key's SET NULL on what linked to the rows. -/
def deleteTransactions (db : Db) (ids : List Nat) : Db :=
  { db with transactions := (db.transactions.remove (fun id => ids.contains id)).mapRows (fun _ t =>
      if t.linkedTransactionId.any (ids.contains ·) then { t with linkedTransactionId := none } else t) }

/-! ## Settling the batches -/

/-- A locked row by id. -/
def lockedRow (locked : List Row) (id : Nat) : Option Row := locked.find? (fun r => r.1 == id)

/-- What a locked row's link points at, among the locked rows. -/
def lockedPartner (locked : List Row) (tx : Transaction) : Option Row :=
  tx.linkedTransactionId.bind (lockedRow locked)

/-- What `applyBatchSettlement` will write. The deltas are per batch. -/
structure BatchSettlementPlan where
  deletedIds : List Nat
  demoted : List Row
  acceptedDelta : Nat → Nat
  pendingDelta : Nat → Nat
  rowDelta : Nat → Nat

/-- The rows of a list that are enrolled in a batch and pass a test. -/
def countEnrolled (rows : List Row) (test : ReconciliationState → Bool) (batchId : Nat) : Nat :=
  rows.countP (fun r => r.2.importBatchId == some batchId && test r.2.reconciliationState)

/-- Decide the demotions and the counter deltas, on the locked rows alone. -/
def planBatchSettlement (locked : List Row) (deletedIds : List Nat) : BatchSettlementPlan :=
  let deleted := locked.filter (fun r => deletedIds.contains r.1)
  let demoted := locked.filter (fun r =>
    !deletedIds.contains r.1 && r.2.linkedTransactionId.any (deletedIds.contains ·) &&
      !r.2.reconciliationState.isReverted && !contributesToCachedBalance r (lockedPartner locked r.2))
  { deletedIds, demoted
    acceptedDelta := countEnrolled (deleted ++ demoted) (· == .accepted)
    pendingDelta := countEnrolled (deleted ++ demoted) (·.isPending)
    rowDelta := countEnrolled deleted (fun _ => true) }

/-- A counter less `n`, never below zero. -/
def floored (count : Int) (n : Nat) : Int :=
  if n = 0 then count else if count - n < 0 then 0 else count - n

def editBatch (db : Db) (id : Nat) (f : ImportBatch → ImportBatch) : Db :=
  { db with importBatches := db.importBatches.modify id f }

/-- Rows of a batch still to be reviewed, outside `exclude`. -/
def pendingRowsOf (db : Db) (batchId : Nat) (exclude : List Nat) : Nat :=
  (db.transactions.select (fun id t =>
    t.importBatchId == some batchId && t.reconciliationState.isPending && !exclude.contains id)).length

/-- Close a batch with nothing left to review. A counter at zero is checked against
the rows, and set right if they disagree. -/
def closeBatchIfComplete (db : Db) (batchId : Nat) (exclude : List Nat) : Db :=
  match db.importBatches.get? batchId with
  | none => db
  | some batch =>
    if batch.status = .closed then db
    else if 0 < batch.pendingCount then db
    else
      let pending := pendingRowsOf db batchId exclude
      if 0 < pending then editBatch db batchId (fun b => { b with pendingCount := pending })
      else editBatch db batchId (fun b => { b with status := .closed })

/-- Mark the rows of a list rejected. -/
def demoteRows (db : Db) (rows : List Row) : Db :=
  { db with transactions := db.transactions.mapRows (fun id t =>
      if (lockedRow rows id).isSome then { t with reconciliationState := .rejected } else t) }

/-- Take the deltas off the org's batches, each counter floored at zero. -/
def settleCounters (db : Db) (orgId : Nat) (plan : BatchSettlementPlan) : Db :=
  { db with importBatches := db.importBatches.mapRows (fun id b =>
      if b.orgId = orgId then
        { b with
          acceptedCount := floored b.acceptedCount (plan.acceptedDelta id)
          pendingCount := floored b.pendingCount (plan.pendingDelta id)
          rowCount := floored b.rowCount (plan.rowDelta id) }
      else b) }

/-- The org's batches whose pending count the plan moves, ascending. -/
def batchesToRecheck (db : Db) (orgId : Nat) (plan : BatchSettlementPlan) : List Nat :=
  (db.importBatches.select (fun id b => b.orgId == orgId && decide (0 < plan.pendingDelta id))).map Prod.fst

def applyBatchSettlement (db : Db) (orgId : Nat) (plan : BatchSettlementPlan) : Db :=
  let db := settleCounters (demoteRows db plan.demoted) orgId plan
  (batchesToRecheck db orgId plan).foldl (fun db id => closeBatchIfComplete db id plan.deletedIds) db

/-! ## The two user paths -/

/-- The rows a delete locks: those asked for, what they link to, and what links to
any of these. -/
def lockForDelete (db : Db) (orgId : Nat) (ids : List Nat) : List Row :=
  let asked := db.transactions.select (fun id t => t.orgId == orgId && ids.contains id)
  let reached := asked.map Prod.fst ++ asked.filterMap (fun r => r.2.linkedTransactionId)
  db.transactions.select (fun id t =>
    t.orgId == orgId && (reached.contains id || t.linkedTransactionId.any (reached.contains ·)))

/-- A row and, if it is a leg of a transfer, the other leg. -/
def withPartner (locked : List Row) (row : Row) : List Nat :=
  row.1 :: ((lockedPartner locked row.2).filter (fun p => isReciprocalPair row (some p))).toList.map Prod.fst

/-- The settled rows among those to delete whose amount is inside the balance. -/
def rowsToRevert (locked : List Row) (deletedIds : List Nat) : List Row :=
  locked.filter (fun r => deletedIds.contains r.1 && r.2.status == .settled &&
    contributesToCachedBalance r (lockedPartner locked r.2))

/-- Revert, demote, settle, delete. -/
def deleteLocked (db : Db) (orgId : Nat) (locked : List Row) (deletedIds : List Nat) : Result Db := do
  let reverts := rowsToRevert locked deletedIds
  lockAccounts db orgId (reverts.map (·.2.accountId))
  let db ← reverts.foldlM (fun db r => revertRow db orgId r.2) db
  let db := applyBatchSettlement db orgId (planBatchSettlement locked deletedIds)
  .ok (deleteTransactions db deletedIds)

/-- Delete one row, and its partner if the two are a transfer. The ids demoted come
back. -/
def deleteTransaction (db : Db) (orgId id : Nat) : Result (Db × List Nat) := do
  let tx ← found (findTransaction db orgId id) (.notFound "Transaction")
  refuse (tx.isManualAdjustment) (.validation "Manual balance adjustments cannot be deleted")
  let locked := lockForDelete db orgId [id]
  let deletedIds := withPartner locked (id, tx)
  let db ← deleteLocked db orgId locked deletedIds
  .ok (db, (planBatchSettlement locked deletedIds).demoted.map Prod.fst)

structure BulkDeleteResult where
  deletedCount : Nat
  skippedIds : List Nat
  demotedIds : List Nat

/-- Delete many rows at once. Rows of other orgs and manual adjustments are skipped. -/
def bulkDeleteTransactions (db : Db) (orgId : Nat) (ids : List Nat) : Result (Db × BulkDeleteResult) := do
  let requested := ids.eraseDups
  let locked := lockForDelete db orgId requested
  let wanted := requested.filterMap (lockedRow locked)
  let deletedIds := (wanted.filter (fun r => !r.2.isManualAdjustment)).flatMap (withPartner locked)
  let after ← deleteLocked db orgId locked deletedIds
  .ok (after,
    { deletedCount := (locked.filter (fun r => deletedIds.contains r.1)).length
      skippedIds := requested.filter (fun id => (lockedRow locked id).isNone) ++
        (wanted.filter (fun r => r.2.isManualAdjustment)).map Prod.fst
      demotedIds := (planBatchSettlement locked deletedIds).demoted.map Prod.fst })

end BetterDecision
