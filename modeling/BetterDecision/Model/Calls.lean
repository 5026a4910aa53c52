import BetterDecision.Model.Recurring

/-!
# The ledger's calls

Every operation that writes transactions, templates or import batches, as one type.
A call carries its own clock where the source reads one, so a run may be served at
any clocks at all.
-/

namespace BetterDecision

inductive Call
  | createTransaction (orgId : Nat) (body : TransactionCreate)
  | createTransfer (orgId : Nat) (body : TransferCreate)
  | updateTransaction (today : Int) (orgId id : Nat) (body : TransactionUpdate)
  | bulkUpdateTransactions (today : Int) (orgId : Nat) (req : BulkUpdateRequest)
  | deleteTransaction (orgId id : Nat)
  | bulkDeleteTransactions (orgId : Nat) (ids : List Nat)
  | pairExistingTransactions (orgId expenseId incomeId : Nat) (recategorize : Bool)
      (transferCategoryId : Option Nat)
  | convertAndCreateLeg (orgId sourceId destinationAccountId : Nat) (recategorize : Bool)
      (transferCategoryId : Option Nat)
  | unpairTransactions (orgId id expenseFallbackCategoryId incomeFallbackCategoryId : Nat)
  | adjustAccountBalance (today : Int) (orgId accountId : Nat) (targetBalance : Int)
      (reason : Option String)
  | claimConfirm (orgId accountId : Nat)
  | confirmChunk (orgId batchId : Nat) (rows : List ImportConfirmRow) (completed : Bool)
  | reconcileRequest (today : Int) (orgId batchId : Nat) (transitions : List ReconciliationTransition)
  | createRecurring (today : Int) (orgId : Nat) (body : RecurringCreate)
  | promoteToRecurring (today : Int) (orgId id : Nat) (body : PromoteToRecurringRequest)
  | updateRecurring (today : Int) (orgId recurringId : Nat) (body : RecurringUpdate)
  | stopRecurring (today : Int) (orgId recurringId : Nat)
  | deleteRecurring (today : Int) (orgId recurringId : Nat)
  | skipOccurrence (orgId id : Nat)
  | materialiseNext (today : Int) (orgId recurringId : Nat) (occurrenceDate : Int) (skipped : Bool)
  | generateDueTransactions (today : Int) (orgId : Nat)

/-- Serve one call. -/
def handle (db : Db) : Call → Result Db
  | .createTransaction orgId body => createTransaction db orgId body
  | .createTransfer orgId body => createTransfer db orgId body
  | .updateTransaction today orgId id body => updateTransaction db today orgId id body
  | .bulkUpdateTransactions today orgId req => .ok (bulkUpdateTransactions db today orgId req).1
  | .deleteTransaction orgId id => (deleteTransaction db orgId id).map Prod.fst
  | .bulkDeleteTransactions orgId ids => (bulkDeleteTransactions db orgId ids).map Prod.fst
  | .pairExistingTransactions orgId expenseId incomeId recategorize transferCategoryId =>
    pairExistingTransactions db orgId expenseId incomeId recategorize transferCategoryId
  | .convertAndCreateLeg orgId sourceId destinationAccountId recategorize transferCategoryId =>
    convertAndCreateLeg db orgId sourceId destinationAccountId recategorize transferCategoryId
  | .unpairTransactions orgId id expenseFallbackCategoryId incomeFallbackCategoryId =>
    unpairTransactions db orgId id expenseFallbackCategoryId incomeFallbackCategoryId
  | .adjustAccountBalance today orgId accountId targetBalance reason =>
    adjustAccountBalance db today orgId accountId targetBalance reason
  | .claimConfirm orgId accountId => claimConfirm db orgId accountId
  | .confirmChunk orgId batchId rows completed => .ok (confirmChunk db orgId batchId rows completed)
  | .reconcileRequest today orgId batchId transitions =>
    reconcileRequest db today orgId batchId transitions
  | .createRecurring today orgId body => createRecurring db today orgId body
  | .promoteToRecurring today orgId id body => promoteToRecurring db today orgId id body
  | .updateRecurring today orgId recurringId body => updateRecurring db today orgId recurringId body
  | .stopRecurring today orgId recurringId => (stopRecurring db today orgId recurringId).map Prod.fst
  | .deleteRecurring today orgId recurringId => (deleteRecurring db today orgId recurringId).map Prod.fst
  | .skipOccurrence orgId id => skipOccurrence db orgId id
  | .materialiseNext today orgId recurringId occurrenceDate skipped =>
    materialiseNext db today orgId recurringId occurrenceDate skipped
  | .generateDueTransactions today orgId => (generateDueTransactions db today orgId).map Prod.fst

/-- The database after a run of calls. A refused call writes nothing. -/
abbrev after (db : Db) (calls : List Call) : Db := run handle db calls

end BetterDecision
