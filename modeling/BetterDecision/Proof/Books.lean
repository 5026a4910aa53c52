import BetterDecision.Lib.Trail
import BetterDecision.Model.Update

/-!
# The books, abstractly

What the ledger's operations do to transactions and templates comes down to a dozen
moves: post a row, rewrite rows, make or break a pair, mark a duplicate, erase rows,
and what can happen to a template. Every operation is a trail of these moves, and
every invariant is proved once per move and not once per operation.

A move is labelled with what it adds to two running totals: how much of each
account's balance the settled rows make up, and how many rows of each import batch
are in which states. A label is what an operation owes the stored copies of the two,
`accounts.balance` and the counters of the batch.
-/

namespace BetterDecision

/-! ## The two totals -/

/-- What a row adds to the balance of its account. -/
def posting (tx : Transaction) : Nat × Nat → Int :=
  Pi.single (tx.orgId, tx.accountId) (signedAmount tx.type tx.amount)

/-- The part of it that is inside the balance. -/
def booked (rows : Table Transaction) (row : Row) : Nat × Nat → Int :=
  if row.2.status = .settled ∧ balanceContributionFilter rows row then posting row.2 else 0

/-- The row, counted in its batch under every test its state passes. -/
def enrolled (tx : Transaction) : Nat × Nat → (ReconciliationState → Bool) → Int := fun key test =>
  if tx.orgId = key.1 ∧ tx.importBatchId = some key.2 ∧ test tx.reconciliationState then 1 else 0

/-- Amounts per account of an org, and rows per batch of an org and kind of state. -/
abbrev Effect := (Nat × Nat → Int) × (Nat × Nat → (ReconciliationState → Bool) → Int)

def weigh (rows : Table Transaction) (row : Row) : Effect := (booked rows row, enrolled row.2)

/-- Both totals over all rows. -/
def weight (rows : Table Transaction) : Effect := rows.total (fun id tx => weigh rows (id, tx))

/-! ## Links -/

/-- Two rows that point at each other. -/
structure Mutual (rows : Table Transaction) (i : Nat) (a : Transaction) (j : Nat) (c : Transaction) :
    Prop where
  left : rows.get? i = some a
  right : rows.get? j = some c
  there : a.linkedTransactionId = some j
  back : c.linkedTransactionId = some i

theorem Mutual.symm {rows : Table Transaction} {i j : Nat} {a c : Transaction}
    (h : Mutual rows i a j c) : Mutual rows j c i a := ⟨h.right, h.left, h.back, h.there⟩

/-- Every link leads to another row of the same org. -/
def WellLinked (rows : Table Transaction) : Prop :=
  ∀ i a l, rows.get? i = some a → a.linkedTransactionId = some l →
    l ≠ i ∧ ∃ c, rows.get? l = some c ∧ c.orgId = a.orgId

/-! ## Moves -/

/-- What the operations move. -/
structure Books where
  rows : Table Transaction
  pairings : List (Nat × Nat)
  templates : Table RecurringTransaction
  spends : List Spend

def Db.books (db : Db) : Books := ⟨db.transactions, db.pairings, db.recurring, db.spends⟩

/-- What a run is held to. -/
structure Rules where
  /-- The currency of each account, which no operation changes. -/
  currency : Nat → Option String
  /-- The legs of a pair are held to one currency. -/
  sameCurrency : Prop
  /-- A series may be re-dated as a whole. -/
  redates : Prop

/-- What the two legs of a pair owe each other, expense first. -/
structure Legs (rules : Rules) (exp inc : Transaction) : Prop where
  org : exp.orgId = inc.orgId
  expense : exp.type = .expense
  income : inc.type = .income
  amount : exp.amount = inc.amount
  accounts : exp.accountId ≠ inc.accountId
  currency : rules.sameCurrency → rules.currency exp.accountId = rules.currency inc.accountId

/-- A link column set. -/
def withLink (link : Option Nat) (tx : Transaction) : Transaction :=
  { tx with linkedTransactionId := link }

/-- SET NULL for the rows under `ids`. -/
def withoutLinkTo (ids : List Nat) (tx : Transaction) : Transaction :=
  if tx.linkedTransactionId.any (ids.contains ·) then withLink none tx else tx

/-- What rewriting the rows adds. -/
def shift (rows : Table Transaction) (g : Nat → Transaction → Transaction) : Effect :=
  rows.total (fun i a => weigh rows (i, g i a) - weigh rows (i, a))

/-- The template after its occurrence at `nextDueDate` is consumed. -/
def spent (r : RecurringTransaction) (next : Int) : RecurringTransaction :=
  { r with nextDueDate := next, occurrencesElapsed := r.occurrencesElapsed + 1, lastSpentDate := some r.nextDueDate }

inductive Move (rules : Rules) : Books → Effect → Books → Prop
  /-- A new row, linked to nothing. -/
  | post {b : Books} (tx : Transaction) (unlinked : tx.linkedTransactionId = none) :
      Move rules b (weigh b.rows (b.rows.next, tx)) { b with rows := b.rows.insert tx }
  /-- Rows rewritten under their links. A pair stays one. -/
  | rewrite {b : Books} (g : Nat → Transaction → Transaction)
      (keeps : ∀ i a, b.rows.get? i = some a →
        (g i a).linkedTransactionId = a.linkedTransactionId ∧ (g i a).orgId = a.orgId)
      (fits : ∀ i a j c, Mutual b.rows i a j c → Legs rules a c → Legs rules (g i a) (g j c)) :
      Move rules b (shift b.rows g) { b with rows := b.rows.mapRows g }
  /-- Two unlinked rows that are the legs of a transfer, linked both ways. -/
  | pair {b : Books} {e i : Nat} {exp inc : Transaction}
      (hexp : b.rows.get? e = some exp) (hinc : b.rows.get? i = some inc) (ne : e ≠ i)
      (uexp : exp.linkedTransactionId = none) (uinc : inc.linkedTransactionId = none)
      (legs : Legs rules exp inc) :
      Move rules b 0 { b with
        rows := (b.rows.modify e (withLink (some i))).modify i (withLink (some e))
        pairings := b.pairings ++ [(e, i)] }
  /-- A pair broken up. -/
  | unpair {b : Books} {e i : Nat} {exp inc : Transaction} (legs : Mutual b.rows e exp i inc) :
      Move rules b 0 { b with
        rows := (b.rows.modify e (withLink none)).modify i (withLink none)
        pairings := b.pairings.filter (fun p => p ≠ (e, i)) }
  /-- A row linked one way, to the row it duplicates; it leaves the balance. -/
  | mark {b : Books} {i k : Nat} {tx target : Transaction}
      (htx : b.rows.get? i = some tx) (htarget : b.rows.get? k = some target) (ne : k ≠ i)
      (org : target.orgId = tx.orgId) (away : target.linkedTransactionId ≠ some i)
      (single : ∀ j c, ¬ Mutual b.rows i tx j c) :
      Move rules b (-(booked b.rows (i, tx)), 0)
        { b with rows := b.rows.modify i (withLink (some k)) }
  /-- Rows deleted. What linked to them is out of the balance already. -/
  | erase {b : Books} (ids : List Nat)
      (orphans : ∀ i a l, b.rows.get? i = some a → i ∉ ids → a.linkedTransactionId = some l → l ∈ ids →
        a.reconciliationState.isReverted) :
      Move rules b (b.rows.total (fun i a => if ids.contains i then -(weigh b.rows (i, a)) else 0))
        { b with rows := (b.rows.remove (ids.contains ·)).mapRows (fun _ t => withoutLinkTo ids t) }
  /-- A new template, its frontier past what it counts as spent. -/
  | hire {b : Books} (r : RecurringTransaction) (fresh : ∀ s ∈ r.lastSpentDate, s < r.nextDueDate) :
      Move rules b 0 { b with templates := b.templates.insert r }
  /-- A template edited, its progress untouched and its frontier past what it spent. -/
  | amend {b : Books} (id : Nat) (f : RecurringTransaction → RecurringTransaction)
      (keeps : ∀ r, b.templates.get? id = some r → (f r).occurrencesElapsed = r.occurrencesElapsed ∧
        (f r).lastSpentDate = r.lastSpentDate)
      (ahead : ∀ r, b.templates.get? id = some r → (∀ s ∈ r.lastSpentDate, s < r.nextDueDate) →
        ∀ s ∈ r.lastSpentDate, s < (f r).nextDueDate) :
      Move rules b 0 { b with templates := b.templates.modify id f }
  /-- An occurrence consumed. -/
  | spend {b : Books} {id : Nat} {r : RecurringTransaction} {next : Int}
      (hr : b.templates.get? id = some r) (left : hasRemainingOccurrences r) (forward : r.nextDueDate < next) :
      Move rules b 0 { b with
        templates := b.templates.modify id (fun r => spent r next)
        spends := b.spends ++ [{ recurringId := id, date := r.nextDueDate, remaining := remainingOccurrences r }] }
  /-- A template deleted. -/
  | retire {b : Books} (doomed : Nat → Bool) :
      Move rules b 0 { b with templates := b.templates.remove doomed }
  /-- A series re-dated as a whole. -/
  | redate {b : Books} (allowed : rules.redates) (id : Nat) (f : RecurringTransaction → RecurringTransaction) :
      Move rules b 0 { b with templates := b.templates.modify id f }

/-- Every pair is one `linkPair` made, and its rows are the legs of a transfer. -/
def Paired (rules : Rules) (b : Books) : Prop :=
  ∀ i a j c, Mutual b.rows i a j c →
    (Legs rules a c ∧ (i, j) ∈ b.pairings) ∨ (Legs rules c a ∧ (j, i) ∈ b.pairings)

/-- The links of the books are in order. -/
structure Orderly (rules : Rules) (b : Books) : Prop where
  linked : WellLinked b.rows
  paired : Paired rules b

/-! ## Reading links -/

theorem linkOf_of_get {rows : Table Transaction} {i : Nat} {a : Transaction} (h : rows.get? i = some a) :
    linkOf rows i = a.linkedTransactionId := by rw [linkOf, h, Option.bind_some]

theorem linkOf_eq_some {rows : Table Transaction} {i l : Nat} :
    linkOf rows i = some l ↔ ∃ a, rows.get? i = some a ∧ a.linkedTransactionId = some l := by
  rw [linkOf, Option.bind_eq_some_iff]

theorem linkOf_mapRows {rows : Table Transaction} {g : Nat → Transaction → Transaction}
    (hg : ∀ i a, rows.get? i = some a → (g i a).linkedTransactionId = a.linkedTransactionId) (i : Nat) :
    linkOf (rows.mapRows g) i = linkOf rows i := by
  rw [linkOf, linkOf, Table.get?_mapRows]
  rcases h : rows.get? i with _ | a
  · rfl
  · exact hg i a h

/-- The filter asks the table one thing: whether the partner links back. -/
theorem balanceContributionFilter_congr {rows rows' : Table Transaction} {i : Nat} {a c : Transaction}
    (hstate : a.reconciliationState = c.reconciliationState)
    (hlink : a.linkedTransactionId = c.linkedTransactionId)
    (h : ∀ l, a.linkedTransactionId = some l → (linkOf rows l = some i ↔ linkOf rows' l = some i)) :
    balanceContributionFilter rows (i, a) = balanceContributionFilter rows' (i, c) := by
  unfold balanceContributionFilter
  dsimp only
  rw [← hstate, ← hlink]
  rcases hl : a.linkedTransactionId with _ | l
  · rfl
  · have hback : (linkOf rows l == some i) = (linkOf rows' l == some i) := by
      rw [Bool.eq_iff_iff, beq_iff_eq, beq_iff_eq]
      exact h l hl
    dsimp only
    rw [hback]

theorem booked_congr {rows rows' : Table Transaction} {i : Nat} {a c : Transaction}
    (hpost : posting a = posting c) (hstatus : a.status = c.status)
    (hstate : a.reconciliationState = c.reconciliationState)
    (hlink : a.linkedTransactionId = c.linkedTransactionId)
    (h : ∀ l, a.linkedTransactionId = some l → (linkOf rows l = some i ↔ linkOf rows' l = some i)) :
    booked rows (i, a) = booked rows' (i, c) := by
  unfold booked
  rw [balanceContributionFilter_congr hstate hlink h]
  dsimp only
  rw [hpost, hstatus]

theorem weigh_congr {rows rows' : Table Transaction} {i : Nat} {a : Transaction}
    (h : ∀ l, a.linkedTransactionId = some l → (linkOf rows l = some i ↔ linkOf rows' l = some i)) :
    weigh rows (i, a) = weigh rows' (i, a) := by
  unfold weigh
  rw [booked_congr rfl rfl rfl rfl h]

/-- A reverted row is in no balance. -/
theorem booked_of_reverted {rows : Table Transaction} {i : Nat} {a : Transaction}
    (h : a.reconciliationState.isReverted) : booked rows (i, a) = 0 := by
  unfold booked balanceContributionFilter
  simp [h]

theorem booked_of_pending {rows : Table Transaction} {i : Nat} {a : Transaction}
    (h : a.status = .pending) : booked rows (i, a) = 0 := by
  unfold booked
  simp [h]

/-- A row linked to one that does not link back is in no balance. -/
theorem booked_of_one_way {rows : Table Transaction} {i l : Nat} {a : Transaction}
    (h : a.linkedTransactionId = some l) (hl : linkOf rows l ≠ some i) : booked rows (i, a) = 0 := by
  unfold booked balanceContributionFilter
  simp [h, hl]

/-- A live row that is unlinked, or linked back to, is in the balance once settled. -/
theorem booked_of_counted {rows : Table Transaction} {i : Nat} {a : Transaction}
    (hstate : a.reconciliationState.isReverted = false)
    (h : ∀ l, a.linkedTransactionId = some l → linkOf rows l = some i) :
    booked rows (i, a) = if a.status = .settled then posting a else 0 := by
  have : balanceContributionFilter rows (i, a) = true := by
    unfold balanceContributionFilter
    rcases hl : a.linkedTransactionId with _ | l
    · simp [hstate]
    · simp [hstate, h l hl]
  simp [booked, this]

end BetterDecision
