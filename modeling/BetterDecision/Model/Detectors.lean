import BetterDecision.Model.Ledger

/-!
# The detectors of an import preview

The rows an imported row may be the other leg of (`find_match_candidates`), and those it
may be a second copy of (`find_duplicate_of_linked_leg`), each for one row and for a whole
file. A query without an `ORDER BY` returns its rows in any order; `RowOrder` is that
order.
-/

namespace BetterDecision

/-- The order a query returns its rows in. -/
structure RowOrder where
  arrange : List Row → List Row
  perm : ∀ rows, (arrange rows).Perm rows

/-- `DetectorKey`: the type, the amount and the date of an imported row. -/
structure DetectorKey where
  type : TransactionType
  amount : Int
  date : Int
  deriving DecidableEq, Repr

/-- The other direction. -/
def opposite (type : TransactionType) : TransactionType := if type = .expense then .income else .expense

/-- `JOIN accounts`: the row's account is there and holds the currency. -/
def onCurrency (db : Db) (currency : String) (t : Transaction) : Bool :=
  (db.accounts.get? t.accountId).any (fun a => a.currency == currency)

/-- By the days from `date`, then by id. -/
def CloserRow (date : Int) (r q : Row) : Prop :=
  |r.2.date - date| < |q.2.date - date| ∨ (|r.2.date - date| = |q.2.date - date| ∧ r.1 ≤ q.1)

instance (date : Int) : DecidableRel (CloserRow date) := fun _ _ => inferInstanceAs (Decidable (_ ∨ _))

/-- The first `cap` of the rows, once sorted. -/
def closestRows (date : Int) (cap : Nat) (rows : List Row) : List Row :=
  (rows.insertionSort (CloserRow date)).take cap

section Detectors

variable (db : Db) (order : RowOrder) (orgId : Nat)

/-- `find_match_candidates`. -/
def findMatchCandidates (accountIdExcluded : Nat) (currency : String) (sourceType : TransactionType) (amount date : Int) :
    List Row :=
  closestRows date 25 (order.arrange (db.transactions.select (fun _ t =>
    t.orgId == orgId && t.accountId != accountIdExcluded && t.type == opposite sourceType &&
      (t.amount : Int) == amount && t.status == .settled && t.linkedTransactionId.isNone && t.recurringId.isNone &&
      !t.isManualAdjustment && decide (date - 3 ≤ t.date) && decide (t.date ≤ date + 3) && onCurrency db currency t)))

/-- `find_duplicate_of_linked_leg`. -/
def findDuplicateOfLinkedLeg (accountId : Nat) (currency : String) (type : TransactionType) (amount date : Int) :
    List Row :=
  closestRows date 10 (order.arrange (db.transactions.select (fun _ t =>
    t.orgId == orgId && t.accountId == accountId && t.type == type && (t.amount : Int) == amount &&
      t.linkedTransactionId.isSome && !t.isManualAdjustment && decide (date - 3 ≤ t.date) &&
      decide (t.date ≤ date + 3) && onCurrency db currency t)))

/-! ## For a whole file -/

/-- `_per_row_slice`: the answer for each key, out of one result set. -/
def perRowSlice (fetched : List Row) (keys : List DetectorKey) (typeFor : TransactionType → TransactionType) (cap : Nat) :
    List (DetectorKey × List Row) :=
  keys.map (fun key =>
    let byTypeAmount := fetched.filter (fun r => r.2.type == typeFor key.type && (r.2.amount : Int) == key.amount)
    let rows := byTypeAmount.filter (fun r => decide (key.date - 3 ≤ r.2.date ∧ r.2.date ≤ key.date + 3))
    (key, closestRows key.date cap rows))

/-- The date lies in the span of the keys, padded by the window. -/
def inSpan (keys : List DetectorKey) (date : Int) : Bool :=
  (keys.map (·.date)).min?.any (fun first => decide (first - 3 ≤ date)) &&
    (keys.map (·.date)).max?.any (fun last => decide (date ≤ last + 3))

/-- `find_match_candidates_batch`. -/
def findMatchCandidatesBatch (accountIdExcluded : Nat) (currency : String) (keys : List DetectorKey) :
    List (DetectorKey × List Row) :=
  if keys = [] then []
  else
    let fetched := order.arrange (db.transactions.select (fun _ t =>
      t.orgId == orgId && t.accountId != accountIdExcluded && (keys.map (fun k => opposite k.type)).contains t.type &&
        (keys.map (·.amount)).contains (t.amount : Int) && t.status == .settled && t.linkedTransactionId.isNone &&
        t.recurringId.isNone && !t.isManualAdjustment && inSpan keys t.date && onCurrency db currency t))
    perRowSlice fetched keys opposite 25

/-- `find_duplicate_of_linked_leg_batch`. -/
def findDuplicateOfLinkedLegBatch (accountId : Nat) (currency : String) (keys : List DetectorKey) :
    List (DetectorKey × List Row) :=
  if keys = [] then []
  else
    let fetched := order.arrange (db.transactions.select (fun _ t =>
      t.orgId == orgId && t.accountId == accountId && (keys.map (·.type)).contains t.type &&
        (keys.map (·.amount)).contains (t.amount : Int) && t.linkedTransactionId.isSome && !t.isManualAdjustment &&
        inSpan keys t.date && onCurrency db currency t))
    perRowSlice fetched keys (fun type => type) 10

end Detectors

end BetterDecision
