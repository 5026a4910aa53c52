import BetterDecision.Model.Calls
import BetterDecision.Proof.CategoryEdits
import BetterDecision.Proof.Occurrences

/-!
# The ledger over whole runs

Every call of the ledger moves the balances by what it moves the books and leaves the
counters of the import batches right (`handle_kept`). So whatever holds of the two is an
induction over the calls: the links stay in order, every cached balance is what the rows
add up to, and every counter counts its rows.

What a caller may not do is said once. A run held to one currency a pair may not name the
accounts of a template, since a sync moves one leg at a time; a run that must not re-date a
series may not edit the date of "this and future"; and a closed batch stays empty of work
only while no review opens a row of it again.
-/

namespace BetterDecision

variable {rules : Rules} {db db' : Db}

/-! ## One call -/

/-- What the rules ask of a call. -/
def Admits (rules : Rules) : Call → Prop
  | .updateTransaction _ _ _ body => body.seriesScope = some .future → body.date.isSome → rules.redates
  | .updateRecurring _ _ _ body => rules.sameCurrency → body.accountId = none ∧ body.toAccountId = none
  | _ => True

/-- A review that opens no row of a closed batch again. -/
def OpensNone (db : Db) : Call → Prop
  | .reconcileRequest _ _ batchId transitions => NotReopened db batchId transitions
  | _ => True

/-- Where a pair may span two currencies and a series be re-dated, every call is admitted. -/
theorem admits_any {currency : Nat → Option String} (call : Call) : Admits ⟨currency, False, True⟩ call := by
  cases call with
  | updateTransaction today orgId id body => exact fun _ _ => trivial
  | updateRecurring today orgId recurringId body => exact fun h => h.elim
  | _ => trivial

/-- What a call keeps: the balances moved by what the books moved, and the counters right. -/
structure Kept (rules : Rules) (db : Db) (call : Call) (db' : Db) : Prop where
  moved : Moved rules db db'
  counted : Counted (weight db.transactions).2 db.importBatches → Counted (weight db'.transactions).2 db'.importBatches
  shut : OpensNone db call → Counted (weight db.transactions).2 db.importBatches →
    Shut (weight db.transactions).2 db.importBatches → Shut (weight db'.transactions).2 db'.importBatches

theorem Recounted.kept {call : Call} (h : Recounted db db') (hm : Moved rules db db') : Kept rules db call db' :=
  ⟨hm, h.counted, fun _ => h.shut⟩

theorem Posted.kept {call : Call} (h : Posted rules db db') (ho : Orderly rules db.books) : Kept rules db call db' :=
  (h.recounted ho).kept h.moved

theorem Deleted.kept {call : Call} {ids : List Nat} (h : Deleted rules db ids db') : Kept rules db call db' :=
  h.recounted.kept h.moved

/-- **Every call keeps the ledger.** -/
theorem handle_kept {call : Call} (ho : Orderly rules db.books) (hcur : currencyOf db = rules.currency)
    (hadmits : Admits rules call) (h : handle db call = .ok db') : Kept rules db call db' := by
  cases call with
  | createTransaction orgId body => exact (createTransaction_posted h).kept ho
  | createTransfer orgId body => exact (createTransfer_posted hcur h).kept ho
  | updateTransaction today orgId id body => exact (updateTransaction_posted ho hcur hadmits h).kept ho
  | bulkUpdateTransactions today orgId req =>
    rw [← Except.ok.inj h]
    exact (bulkUpdateTransactions_posted ho hcur).kept ho
  | deleteTransaction orgId id =>
    obtain ⟨_, h⟩ := map_fst_ok h
    obtain ⟨_, _, -, hdeleted⟩ := deleteTransaction_deleted ho h
    exact hdeleted.kept
  | bulkDeleteTransactions orgId ids =>
    obtain ⟨_, h⟩ := map_fst_ok h
    obtain ⟨_, _, -, hdeleted⟩ := bulkDeleteTransactions_deleted ho h
    exact hdeleted.kept
  | pairExistingTransactions orgId expenseId incomeId recategorize transferCategoryId =>
    exact (pairExistingTransactions_posted hcur h).kept ho
  | convertAndCreateLeg orgId sourceId destinationAccountId recategorize transferCategoryId =>
    exact (convertAndCreateLeg_posted hcur h).kept ho
  | unpairTransactions orgId id expenseFallbackCategoryId incomeFallbackCategoryId =>
    exact (unpairTransactions_posted ho h).kept ho
  | adjustAccountBalance today orgId accountId targetBalance reason => exact (adjustAccountBalance_posted h).kept ho
  | claimConfirm orgId accountId =>
    obtain ⟨hmoved, hrecounted⟩ := claimConfirm_keeps h
    exact hrecounted.kept hmoved
  | confirmChunk orgId batchId rows completed =>
    rw [← Except.ok.inj h]
    obtain ⟨hmoved, hrecounted⟩ := confirmChunk_keeps ho hcur
    exact hrecounted.kept hmoved
  | reconcileRequest today orgId batchId transitions =>
    obtain ⟨hmoved, hcounters⟩ := reconcileRequest_keeps ho h
    exact ⟨hmoved, fun hc => (hcounters hc).1, fun hopens hc => (hcounters hc).2 hopens⟩
  | createRecurring today orgId body => exact (createRecurring_posted h).kept ho
  | promoteToRecurring today orgId id body => exact (promoteToRecurring_posted h).kept ho
  | updateRecurring today orgId recurringId body => exact (updateRecurring_posted ho hadmits h).kept ho
  | stopRecurring today orgId recurringId =>
    obtain ⟨_, h⟩ := map_fst_ok h
    obtain ⟨hmoved, hrecounted⟩ := stopRecurring_keeps ho h
    exact hrecounted.kept hmoved
  | deleteRecurring today orgId recurringId =>
    obtain ⟨_, h⟩ := map_fst_ok h
    obtain ⟨hmoved, hrecounted⟩ := deleteRecurring_keeps ho h
    exact hrecounted.kept hmoved
  | skipOccurrence orgId id => exact (skipOccurrence_posted h).kept ho
  | materialiseNext today orgId recurringId occurrenceDate skipped => exact (materialiseNext_posted hcur h).kept ho
  | generateDueTransactions today orgId =>
    obtain ⟨_, h⟩ := map_fst_ok h
    exact (generateDueTransactions_posted ho hcur h).kept ho

/-! ## Runs -/

/-- The books of a run: their links in order, and the currencies they were opened in. -/
structure InOrder (rules : Rules) (db : Db) : Prop where
  orderly : Orderly rules db.books
  currency : currencyOf db = rules.currency

theorem Kept.inOrder {call : Call} (h : Kept rules db call db') (hi : InOrder rules db) : InOrder rules db' :=
  ⟨h.moved.orderly hi.orderly, h.moved.currency.trans hi.currency⟩

/-- **What every call keeps of books in order holds after every run the rules admit.** -/
theorem after_invariant {I : Db → Prop} {calls : List Call} (hadmits : ∀ call ∈ calls, Admits rules call)
    (hstep : ∀ db call db', InOrder rules db → call ∈ calls → handle db call = .ok db' → Kept rules db call db' →
      I db → I db') {db : Db} (hi : InOrder rules db) (hI : I db) :
    InOrder rules (after db calls) ∧ I (after db calls) := by
  refine run_invariant_of_mem (I := fun db => InOrder rules db ∧ I db) calls ?_ ⟨hi, hI⟩
  intro db call db' hcall hboth h
  have hkept := handle_kept hboth.1.orderly hboth.1.currency (hadmits call hcall) h
  exact ⟨hkept.inOrder hboth.1, hstep db call db' hboth.1 hcall h hkept hboth.2⟩

/-- A ledger with no rows is in order. -/
theorem inOrder_of_no_rows (sameCurrency redates : Prop) (h : db.transactions.rows = []) :
    InOrder ⟨currencyOf db, sameCurrency, redates⟩ db := by
  have hnone : ∀ i, db.transactions.get? i = none := by
    intro i
    rcases hi : db.transactions.get? i with _ | a
    · rfl
    · have hmem := Table.mem_rows.mpr hi
      rw [h] at hmem
      cases hmem
  refine ⟨⟨?_, ?_⟩, rfl⟩
  · intro i a l ha
    rw [show db.books.rows.get? i = none from hnone i] at ha
    cases ha
  · intro i a j c hm
    have hleft := hm.left
    rw [show db.books.rows.get? i = none from hnone i] at hleft
    cases hleft

/-! ## Balances -/

/-- What `reconcile_account` computes, said with the total of the books. -/
theorem computedBalance_eq (db : Db) (orgId accountId : Nat) (account : Account) :
    computedBalance db orgId accountId account =
      account.openingBalance + (weight db.transactions).1 (orgId, accountId) := by
  unfold computedBalance
  rw [weight, Table.total_fst, Table.total_apply]
  congr 1
  refine Table.total_congr fun i tx _ => ?_
  unfold weigh booked posting
  dsimp only
  by_cases hcounted : tx.status = .settled ∧ balanceContributionFilter db.transactions (i, tx) = true
  · rw [if_pos hcounted]
    by_cases hkey : (tx.orgId, tx.accountId) = (orgId, accountId)
    · obtain ⟨horg, haccount⟩ := Prod.mk.inj hkey
      rw [hkey, Pi.single_eq_same, if_pos ⟨haccount, horg, hcounted⟩]
    · rw [Pi.single_eq_of_ne (Ne.symm hkey), if_neg]
      intro h
      exact hkey (Prod.ext h.2.1 h.1)
  · rw [if_neg hcounted, if_neg fun h => hcounted h.2.2, Pi.zero_apply]

/-- `reconcile_account` finds every account consistent. -/
def Consistent (db : Db) : Prop := ∀ i a, db.accounts.get? i = some a → isConsistent db a.orgId i a

/-- **Balances moved by what the books moved stay what the rows add up to.** -/
theorem Moved.consistent (h : Moved rules db db') (ho : Orderly rules db.books) (hc : Consistent db) :
    Consistent db' := by
  obtain ⟨ε, htrail, hmoney⟩ := h
  have hweight : weight db'.transactions = weight db.transactions + ε := (trail_orderly htrail ho).2
  intro i a ha
  rw [hmoney, get?_credit, Option.map_eq_some_iff] at ha
  obtain ⟨was, hwas, rfl⟩ := ha
  have hbefore := hc i was hwas
  unfold isConsistent at hbefore ⊢
  rw [computedBalance_eq] at hbefore ⊢
  rw [hweight, Prod.fst_add, Pi.add_apply]
  dsimp only
  omega

/-- **Every cached balance is what the rows add up to, after every run of calls.** -/
theorem balances_consistent (calls : List Call) (hi : InOrder ⟨currencyOf db, False, True⟩ db)
    (hc : Consistent db) : Consistent (after db calls) := by
  refine (after_invariant (I := Consistent) (fun call _ => admits_any call) ?_ hi hc).2
  intro db call db' hi _ _ hkept hc
  exact hkept.moved.consistent hi.orderly hc

theorem moved_amount_pos : (0 : Int) < 2500 := by decide

/-- Two accounts of an org with nothing on them yet. -/
def openedLedger : Db where
  accounts := (Table.empty.insert { orgId := 1, name := "Checking" }).insert { orgId := 1, name := "Savings" }
  categories := Table.empty.insert { orgId := 1, name := "Transfer", slug := some "transfer", isSystem := true }

/-- Twenty-five from the one to the other. -/
def firstTransfer : Call :=
  .createTransfer 1 { fromAccountId := 1, toAccountId := 2, amount := ⟨2500, moved_amount_pos⟩, date := 738000 }

theorem openedLedger_consistent : Consistent openedLedger := by
  intro i a ha
  have hcases : a = { orgId := 1, name := "Savings" } ∨ a = { orgId := 1, name := "Checking" } := by
    have hmem := Table.mem_rows.mpr ha
    simp only [openedLedger, Table.insert, Table.empty, List.nil_append, List.cons_append, List.mem_cons,
      Prod.mk.injEq, List.not_mem_nil, or_false] at hmem
    rcases hmem with ⟨-, h⟩ | ⟨-, h⟩
    · exact .inr h
    · exact .inl h
  rcases hcases with rfl | rfl <;> rfl

theorem balances_consistent_first : Consistent (after openedLedger [firstTransfer, .deleteTransaction 1 1]) :=
  balances_consistent _ (inOrder_of_no_rows False True rfl) openedLedger_consistent

/-! ## Pairs -/

/-- The call names an account for a template. -/
def NamesAccount : Call → Prop
  | .updateRecurring _ _ _ body => body.accountId ≠ none ∨ body.toAccountId ≠ none
  | _ => False

/-- The two legs of a transfer that `linkPair` made, expense first. -/
structure TransferOf (db : Db) (sameCurrency : Prop) (e : Nat) (exp : Transaction) (i : Nat) (inc : Transaction) :
    Prop where
  made : (e, i) ∈ db.pairings
  distinct : e ≠ i
  org : exp.orgId = inc.orgId
  expense : exp.type = .expense
  income : inc.type = .income
  amount : exp.amount = inc.amount
  accounts : exp.accountId ≠ inc.accountId
  currency : sameCurrency → currencyOf db exp.accountId = currencyOf db inc.accountId

/-- Books held to one currency a pair may be held to it under any condition. -/
theorem InOrder.under {currency : Nat → Option String} {redates : Prop} (sameCurrency : Prop)
    (h : InOrder ⟨currency, True, redates⟩ db) : InOrder ⟨currency, sameCurrency, redates⟩ db := by
  have hlegs : ∀ {exp inc : Transaction}, Legs ⟨currency, True, redates⟩ exp inc →
      Legs ⟨currency, sameCurrency, redates⟩ exp inc := by
    intro exp inc hlegs
    exact ⟨hlegs.org, hlegs.expense, hlegs.income, hlegs.amount, hlegs.accounts, fun _ => hlegs.currency trivial⟩
  refine ⟨⟨h.orderly.linked, ?_⟩, h.currency⟩
  intro i a j c hm
  rcases h.orderly.paired i a j c hm with ⟨hl, hmade⟩ | ⟨hl, hmade⟩
  · exact .inl ⟨hlegs hl, hmade⟩
  · exact .inr ⟨hlegs hl, hmade⟩

/-- **Two rows that point at each other are a transfer, after every run of calls**, and one
within a currency as long as no call gives a template another account. -/
theorem pairs_are_transfers (calls : List Call) (hi : InOrder ⟨currencyOf db, True, True⟩ db) {i j : Nat}
    {a c : Transaction} (hm : Mutual (after db calls).transactions i a j c) :
    TransferOf (after db calls) (∀ call ∈ calls, ¬ NamesAccount call) i a j c ∨
      TransferOf (after db calls) (∀ call ∈ calls, ¬ NamesAccount call) j c i a := by
  have hadmits : ∀ call ∈ calls, Admits ⟨currencyOf db, ∀ call ∈ calls, ¬ NamesAccount call, True⟩ call := by
    intro call hcall
    cases call with
    | updateTransaction today orgId id body => exact fun _ _ => trivial
    | updateRecurring today orgId recurringId body =>
      intro hnames
      have hnot := hnames _ hcall
      unfold NamesAccount at hnot
      exact ⟨not_not.mp fun h => hnot (.inl h), not_not.mp fun h => hnot (.inr h)⟩
    | _ => trivial
  obtain ⟨hafter, -⟩ := after_invariant (I := fun _ => True) hadmits (fun _ _ _ _ _ _ _ => id) (hi.under _) trivial
  have hne : j ≠ i := (hafter.orderly.linked i a j hm.left hm.there).1
  have hcurrency : currencyOf (after db calls) = currencyOf db := hafter.currency
  rcases hafter.orderly.paired i a j c hm with ⟨hlegs, hmade⟩ | ⟨hlegs, hmade⟩
  · exact .inl ⟨hmade, hne.symm, hlegs.org, hlegs.expense, hlegs.income, hlegs.amount, hlegs.accounts,
      hcurrency ▸ hlegs.currency⟩
  · exact .inr ⟨hmade, hne, hlegs.org, hlegs.expense, hlegs.income, hlegs.amount, hlegs.accounts,
      hcurrency ▸ hlegs.currency⟩

theorem pairs_are_transfers_first :
    ∃ a c, TransferOf (after openedLedger [firstTransfer]) (∀ call ∈ [firstTransfer], ¬ NamesAccount call) 1 a 2 c ∨
      TransferOf (after openedLedger [firstTransfer]) (∀ call ∈ [firstTransfer], ¬ NamesAccount call) 2 c 1 a :=
  ⟨_, _, pairs_are_transfers [firstTransfer] (inOrder_of_no_rows True True rfl) ⟨rfl, rfl, rfl, rfl⟩⟩

/-! ## Counters -/

/-- Every counter of every batch counts its rows. -/
def CountersRight (db : Db) : Prop := Counted (weight db.transactions).2 db.importBatches

/-- A closed batch has no row left to review. -/
def ClosedDone (db : Db) : Prop := Shut (weight db.transactions).2 db.importBatches

/-- The calls that delete rows. -/
def Deletes : Call → Prop
  | .deleteTransaction _ _ => True
  | .bulkDeleteTransactions _ _ => True
  | .stopRecurring _ _ _ => True
  | .deleteRecurring _ _ _ => True
  | _ => False

/-- What a delete leaves of the rows it does not take: each is inside the balance iff it was
and reported iff it was, no pair is split, and a row that pointed at one that is gone is
out of the balance for good. -/
structure Undisturbed (rows rows' : Table Transaction) : Prop where
  old : ∀ i t', rows'.get? i = some t' → ∃ t, rows.get? i = some t
  counted : ∀ i t t', rows.get? i = some t → rows'.get? i = some t' →
    balanceContributionFilter rows' (i, t') = balanceContributionFilter rows (i, t)
  reported : ∀ i t t', rows.get? i = some t → rows'.get? i = some t' →
    reportableTransactionFilter (i, t') = reportableTransactionFilter (i, t)
  whole : ∀ i a j c, Mutual rows i a j c → rows'.get? i = none → rows'.get? j = none
  orphaned : ∀ i t l t', rows.get? i = some t → t.linkedTransactionId = some l → rows'.get? l = none →
    rows'.get? i = some t' → t'.reconciliationState.isReverted = true ∧ t'.linkedTransactionId = none

theorem get?_remaining_none {rows : Table Transaction} {ids : List Nat} {i : Nat} {t : Transaction}
    (ht : rows.get? i = some t) : (remaining rows ids).get? i = none ↔ i ∈ ids := by
  constructor
  · intro hnone
    by_contra hi
    have hthere : (remaining rows ids).get? i = some (withoutLinkTo ids (demote ids i t)) :=
      get?_remaining.mpr ⟨hi, t, ht, rfl⟩
    rw [hnone] at hthere
    cases hthere
  · intro hi
    rcases hrow : (remaining rows ids).get? i with _ | t'
    · rfl
    · exact absurd hi (get?_remaining.mp hrow).1

theorem Removal.undisturbed {orgId : Nat} {locked : List Row} {ids : List Nat} (hr : Removal db orgId locked ids)
    (hl : WellLinked db.transactions) : Undisturbed db.transactions (remaining db.transactions ids) where
  old := by
    intro i t' ht'
    obtain ⟨-, t, ht, -⟩ := get?_remaining.mp ht'
    exact ⟨t, ht⟩
  counted := by
    intro i t t' ht ht'
    exact (hr.filters ht ht').1
  reported := by
    intro i t t' ht ht'
    exact (hr.filters ht ht').2
  whole := by
    intro i a j c hm hgone
    exact (get?_remaining_none hm.right).mpr (hr.pairs i a j c hm ((get?_remaining_none hm.left).mp hgone))
  orphaned := by
    intro i t l t' ht hlink hgone ht'
    obtain ⟨-, c, hc, -⟩ := hl i t l ht hlink
    have hmem := (get?_remaining_none hc).mp hgone
    obtain ⟨hi, a, ha, rfl⟩ := get?_remaining.mp ht'
    obtain rfl : t = a := by rw [ht] at ha; exact Option.some.inj ha
    have hany : (demote ids i t).linkedTransactionId.any (ids.contains ·) = true := by
      rw [(demote_keeps ids i t).1, hlink]
      exact List.contains_iff_mem.mpr hmem
    rw [withoutLinkTo, if_pos hany]
    exact ⟨demote_reverted hi hlink hmem, rfl⟩

/-- The rows that pass a test, of no series any more. -/
def withoutSeries (test : Transaction → Prop) [DecidablePred test] (_ : Nat) (t : Transaction) : Transaction :=
  if test t then { t with recurringId := none } else t

/-- No filter reads what series a row is of. -/
theorem Undisturbed.withoutSeries {rows rows' : Table Transaction} (h : Undisturbed rows rows')
    (test : Transaction → Prop) [DecidablePred test] : Undisturbed rows (rows'.mapRows (withoutSeries test)) := by
  have hg : ∀ i a, (BetterDecision.withoutSeries test i a).linkedTransactionId = a.linkedTransactionId ∧
      (BetterDecision.withoutSeries test i a).reconciliationState = a.reconciliationState ∧
        (BetterDecision.withoutSeries test i a).isManualAdjustment = a.isManualAdjustment := by
    intro i a
    unfold BetterDecision.withoutSeries
    split <;> exact ⟨rfl, rfl, rfl⟩
  generalize BetterDecision.withoutSeries test = g at hg ⊢
  have hget : ∀ i t', (rows'.mapRows g).get? i = some t' ↔ ∃ t, rows'.get? i = some t ∧ g i t = t' := by
    intro i t'
    rw [Table.get?_mapRows, Option.map_eq_some_iff]
  have hnone : ∀ i, (rows'.mapRows g).get? i = none ↔ rows'.get? i = none := by
    intro i
    rw [Table.get?_mapRows, Option.map_eq_none_iff]
  constructor
  · intro i t' ht'
    obtain ⟨t, ht, -⟩ := (hget i t').mp ht'
    exact h.old i t ht
  · intro i t t' ht ht'
    obtain ⟨a, ha, rfl⟩ := (hget i t').mp ht'
    rw [← h.counted i t a ht ha]
    refine balanceContributionFilter_congr (hg i a).2.1 (hg i a).1 fun l _ => ?_
    rw [linkOf_mapRows fun i a _ => (hg i a).1]
  · intro i t t' ht ht'
    obtain ⟨a, ha, rfl⟩ := (hget i t').mp ht'
    rw [← h.reported i t a ht ha]
    unfold reportableTransactionFilter
    rw [(hg i a).1, (hg i a).2.1, (hg i a).2.2]
  · intro i a j c hm hgone
    exact (hnone j).mpr (h.whole i a j c hm ((hnone i).mp hgone))
  · intro i t l t' ht hlink hgone ht'
    obtain ⟨a, ha, rfl⟩ := (hget i t').mp ht'
    rw [(hg i a).1, (hg i a).2.1]
    exact h.orphaned i t l a ht hlink ((hnone l).mp hgone) ha

/-- **Every delete leaves the rows it does not take as they were to the balance and to the
reports**, from every state a run reaches. -/
theorem deletes_undisturbed (calls : List Call) (hi : InOrder ⟨currencyOf db, False, True⟩ db) {call : Call}
    (hdeletes : Deletes call) (h : handle (after db calls) call = .ok db') :
    Undisturbed (after db calls).transactions db'.transactions := by
  obtain ⟨hafter, -⟩ := after_invariant (I := fun _ => True) (fun call _ => admits_any call)
    (fun _ _ _ _ _ _ _ => id) hi trivial
  have ho := hafter.orderly
  generalize after db calls = db₀ at h ho ⊢
  cases call with
  | deleteTransaction orgId id =>
    obtain ⟨_, h⟩ := map_fst_ok h
    obtain ⟨locked, ids, hr, hdeleted⟩ := deleteTransaction_deleted ho h
    rw [hdeleted.rows]
    exact hr.undisturbed ho.linked
  | bulkDeleteTransactions orgId ids =>
    obtain ⟨_, h⟩ := map_fst_ok h
    obtain ⟨locked, ids, hr, hdeleted⟩ := bulkDeleteTransactions_deleted ho h
    rw [hdeleted.rows]
    exact hr.undisturbed ho.linked
  | stopRecurring today orgId recurringId =>
    obtain ⟨_, h⟩ := map_fst_ok h
    obtain ⟨was, -, h⟩ := bind_eq_ok.mp h
    have hlinked : WellLinked (editRecurring db₀ recurringId (fun r => { r with isActive := false })).transactions :=
      ho.linked
    obtain ⟨locked, ids, -, hr, -, hdeleted⟩ :
        ∃ locked ids importBatches, Removal _ orgId locked ids ∧ _ = Db.mk .. ∧
          Deleted ⟨currencyOf db, False, True⟩ _ ids _ := removePendingTransactions_deleted hlinked today recurringId
    have hrows := hdeleted.rows
    dsimp only at h
    obtain rfl := (Prod.mk.inj (Except.ok.inj h)).1
    have hleft := hr.undisturbed hlinked
    rw [← hrows] at hleft
    exact hleft.withoutSeries fun t => t.orgId = orgId ∧ (t.recurringId == some recurringId) = true
  | deleteRecurring today orgId recurringId =>
    obtain ⟨_, h⟩ := map_fst_ok h
    obtain ⟨was, -, h⟩ := bind_eq_ok.mp h
    obtain ⟨locked, ids, -, hr, -, hdeleted⟩ :
        ∃ locked ids importBatches, Removal _ orgId locked ids ∧ _ = Db.mk .. ∧
          Deleted ⟨currencyOf db, False, True⟩ _ ids _ := removePendingTransactions_deleted ho.linked today recurringId
    have hrows := hdeleted.rows
    dsimp only at h
    obtain rfl := (Prod.mk.inj (Except.ok.inj h)).1
    have hleft := hr.undisturbed ho.linked
    rw [← hrows] at hleft
    exact hleft.withoutSeries fun t => t.recurringId = some recurringId
  | _ => exact hdeletes.elim

theorem deletes_undisturbed_first :
    ∃ db', handle (after openedLedger [firstTransfer]) (.deleteTransaction 1 1) = .ok db' ∧
      Undisturbed (after openedLedger [firstTransfer]).transactions db'.transactions :=
  ⟨_, rfl, deletes_undisturbed [firstTransfer] (inOrder_of_no_rows False True rfl)
    (show Deletes (.deleteTransaction 1 1) from trivial) rfl⟩

end BetterDecision
