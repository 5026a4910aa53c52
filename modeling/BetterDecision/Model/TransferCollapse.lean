import BetterDecision.Lib.Kleene
import BetterDecision.Model.Ledger

/-!
# Transfers in the transaction list

`_transfer_collapse_clause` and `list_transactions` with it: of a transfer whose two legs
both pass the filters one row is listed. The filters themselves are `passes`, and the
states out of the books a roster.
-/

namespace BetterDecision

open Kleene

section Collapse

variable (rows : Table Transaction) (reverted : List ReconciliationState)

/-- `EXISTS` over the partner that links back. -/
def partnerExists (row : Row) (test : Transaction → Bool) : Bool :=
  rows.rows.any (fun p => decide (Holds (compare row.2.linkedTransactionId (fun l => p.1 == l))) &&
    p.2.orgId == row.2.orgId && decide (Holds (compare p.2.linkedTransactionId (fun l => l == row.1))) && test p.2)

/-- The row's own state is not on the roster. -/
def rowLive (t : Transaction) : Bool := !reverted.contains t.reconciliationState

/-- `_transfer_collapse_clause`. -/
def transferCollapseClause (filteredIds : List Nat) (row : Row) : Truth :=
  let selfLive : Truth := some (rowLive reverted row.2)
  let partnerLive : Truth := some (partnerExists rows row (rowLive reverted))
  let tiebreak := compare row.2.linkedTransactionId (fun l => decide (row.1 < l))
  or (some row.2.linkedTransactionId.isNone) <|
  or (compare row.2.linkedTransactionId (fun l => l == row.1)) <|
  or (not (some (partnerExists rows row (fun _ => true)))) <|
  or (and selfLive (or (not partnerLive) tiebreak)) <|
  or (and (not selfLive) (and (not partnerLive) tiebreak)) <|
  notIn row.2.linkedTransactionId filteredIds

variable (orgId : Nat) (passes : Row → Bool)

/-- The org's rows that pass the filters. -/
def filteredRows : List Row := rows.select (fun id t => t.orgId == orgId && passes (id, t))

/-- The rows that are listed. -/
def collapsedRows : List Row :=
  (filteredRows rows orgId passes).filter (fun row =>
    decide (Holds (transferCollapseClause rows reverted ((filteredRows rows orgId passes).map Prod.fst) row)))

/-- The page's order: a column up or down, then the newest id. -/
def listedBefore {κ : Type} [LinearOrder κ] (column : Row → κ) (descending : Bool) (r q : Row) : Prop :=
  (if descending then column q < column r else column r < column q) ∨ (column r = column q ∧ q.1 ≤ r.1)

instance {κ : Type} [LinearOrder κ] (column : Row → κ) (descending : Bool) :
    DecidableRel (listedBefore column descending) := fun _ _ => inferInstanceAs (Decidable (_ ∨ _))

/-- `list_transactions` with `collapse_transfers`: the page and the total. -/
def listTransactions {κ : Type} [LinearOrder κ] (column : Row → κ) (descending : Bool) (limit offset : Nat) :
    List Row × Nat :=
  let kept := collapsedRows rows reverted orgId passes
  (((kept.insertionSort (listedBefore column descending)).drop offset).take limit, kept.length)

end Collapse

end BetterDecision
