import BetterDecision.Proof.CategoryEdits

/-!
# Settlement dates

A settled row has a settlement date, and no row settles before its date. No constraint of
the database says so: each writer sees to it in its own way.

Most writes leave the two dates and the status of every row alone (`KeepsDates`). The rest
is one lemma a writer: a new row settles on its date or on the later day it was given, an
edit is checked on the row it leaves, and a series that moves takes each expected
settlement along by as many days as the row.
-/

namespace BetterDecision

variable {db db' db'' : Db} {orgId o : Nat}

/-! ## Coherent rows -/

/-- A settled row has a settlement date, and no row settles before its date. -/
structure Coherent (t : Transaction) : Prop where
  settled : t.status = .settled → t.settledDate.isSome
  ordered : ∀ s ∈ t.settledDate, t.date ≤ s

/-- The org's rows are coherent. -/
def OrgCoherent (orgId : Nat) (db : Db) : Prop :=
  ∀ i t, db.transactions.get? i = some t → t.orgId = orgId → Coherent t

/-- The row is of the org it was, and its status and dates are. -/
structure SameDates (t t' : Transaction) : Prop where
  org : t'.orgId = t.orgId
  status : t'.status = t.status
  date : t'.date = t.date
  settledDate : t'.settledDate = t.settledDate

theorem SameDates.refl (t : Transaction) : SameDates t t := ⟨rfl, rfl, rfl, rfl⟩

theorem SameDates.trans {t t' t'' : Transaction} (h : SameDates t t') (k : SameDates t' t'') : SameDates t t'' where
  org := k.org.trans h.org
  status := k.status.trans h.status
  date := k.date.trans h.date
  settledDate := k.settledDate.trans h.settledDate

theorem SameDates.coherent {t t' : Transaction} (h : SameDates t t') (ht : Coherent t) : Coherent t' where
  settled hs := h.settledDate ▸ ht.settled (h.status ▸ hs)
  ordered s hs := h.date ▸ ht.ordered s (h.settledDate ▸ hs)

theorem sameDates_if {c : Prop} [Decidable c] {t t' : Transaction} (h : SameDates t t') :
    SameDates t (if c then t' else t) := by
  split
  · exact h
  · exact .refl t

/-- What is settled on its date, or not at all, is coherent. -/
theorem coherent_onDate {t : Transaction}
    (h : t.settledDate = if t.status = .settled then some t.date else none) : Coherent t := by
  constructor
  · intro hs
    rw [h, if_pos hs]
    rfl
  · intro s hs
    rw [h] at hs
    split at hs
    · exact (Option.mem_some_iff.mp hs).le
    · cases hs

/-! ## Writes that leave the dates alone -/

/-- The rows there are were there, with the dates they have. -/
structure KeepsDates (db db' : Db) : Prop where
  rows : ∀ i t', db'.transactions.get? i = some t' → ∃ t, db.transactions.get? i = some t ∧ SameDates t t'

theorem KeepsDates.refl (db : Db) : KeepsDates db db := ⟨fun _ t ht => ⟨t, ht, .refl t⟩⟩

theorem KeepsDates.trans (h : KeepsDates db db') (k : KeepsDates db' db'') : KeepsDates db db'' := by
  refine ⟨fun i t'' ht'' => ?_⟩
  obtain ⟨t', ht', hk⟩ := k.rows i t'' ht''
  obtain ⟨t, ht, hh⟩ := h.rows i t' ht'
  exact ⟨t, ht, hh.trans hk⟩

theorem KeepsDates.coherent (h : KeepsDates db db') (hdb : OrgCoherent o db) : OrgCoherent o db' := by
  intro i t' ht' horg
  obtain ⟨t, ht, hsame⟩ := h.rows i t' ht'
  exact hsame.coherent (hdb i t ht (hsame.org ▸ horg))

theorem keepsDates_of_eq (h : db'.transactions = db.transactions) : KeepsDates db db' :=
  ⟨fun _ t ht => ⟨t, h ▸ ht, .refl t⟩⟩

theorem keepsDates_mapRows {g : Nat → Transaction → Transaction} (hg : ∀ i t, SameDates t (g i t)) :
    KeepsDates db { db with transactions := db.transactions.mapRows g } := by
  refine ⟨fun i t' ht' => ?_⟩
  obtain ⟨t, ht, rfl⟩ := Option.map_eq_some_iff.mp ((Table.get?_mapRows _ _ _).symm.trans ht')
  exact ⟨t, ht, hg i t⟩

theorem keepsDates_edit {id : Nat} {f : Transaction → Transaction} (hf : ∀ t, SameDates t (f t)) :
    KeepsDates db (editTransaction db id f) := keepsDates_mapRows fun _ t => sameDates_if (hf t)

theorem keepsDates_setLink (db : Db) (id : Nat) (link : Option Nat) : KeepsDates db (setLink id link db) :=
  keepsDates_edit fun _ => ⟨rfl, rfl, rfl, rfl⟩

theorem keepsDates_setCategory (db : Db) (id categoryId : Nat) : KeepsDates db (setCategory id categoryId db) :=
  keepsDates_edit fun _ => ⟨rfl, rfl, rfl, rfl⟩

theorem keepsDates_updateRows {test : Nat → Transaction → Bool} {f : Transaction → Transaction}
    (hf : ∀ t, SameDates t (f t)) : KeepsDates db (updateRows db orgId test f) :=
  keepsDates_mapRows fun _ t => sameDates_if (hf t)

theorem keepsDates_foldlM {ι : Type} {f : Db → ι → Result Db} {xs : List ι}
    (hstep : ∀ s x s', f s x = .ok s' → KeepsDates s s') (h : xs.foldlM f db = .ok db') : KeepsDates db db' :=
  foldlM_invariant (fun s x s' hs hI => hI.trans (hstep s x s' hs)) xs h (.refl db)

theorem keepsDates_foldl {ι : Type} {f : Db → ι → Db} {xs : List ι} (hstep : ∀ s x, KeepsDates s (f s x)) :
    KeepsDates db (xs.foldl f db) := by
  induction xs generalizing db with
  | nil => exact .refl db
  | cons x xs ih => exact (hstep db x).trans ih

/-! ### Balances -/

theorem applyBalance_rows {accountId : Nat} {amount : Amount} {type : TransactionType}
    (h : applyBalance db orgId accountId amount type = .ok db') : db'.transactions = db.transactions := by
  rw [applyBalance_ok h]
  rfl

theorem revertBalance_rows {accountId : Nat} {amount : Amount} {type : TransactionType}
    (h : revertBalance db orgId accountId amount type = .ok db') : db'.transactions = db.transactions := by
  rw [revertBalance_ok h]
  rfl

theorem doIf_rows {c : Bool} {write : Db → Result Db}
    (hw : ∀ db', write db = .ok db' → db'.transactions = db.transactions) (h : doIf c write db = .ok db') :
    db'.transactions = db.transactions := by
  unfold doIf at h
  split at h
  · exact hw db' h
  · rw [Except.ok.inj h]

theorem doIf_apply_rows {c : Bool} {tx : Transaction} (h : doIf c (fun db => applyRow db orgId tx) db = .ok db') :
    db'.transactions = db.transactions := doIf_rows (fun _ hw => applyBalance_rows hw) h

theorem doIf_revert_rows {c : Bool} {tx : Transaction} (h : doIf c (fun db => revertRow db orgId tx) db = .ok db') :
    db'.transactions = db.transactions := doIf_rows (fun _ hw => revertBalance_rows hw) h

/-! ### Links -/

theorem pairCategory_rows {transferCategoryId : Option Nat} {categoryId : Nat}
    (h : pairCategory db orgId transferCategoryId = .ok (db', categoryId)) : db'.transactions = db.transactions :=
  (pairCategory_keepsFit (G := True) h).2.1

theorem linkPair_keepsDates {exp inc : Row} {recategorize : Bool} {transferCategoryId : Option Nat}
    (h : linkPair db exp inc recategorize transferCategoryId = .ok db') : KeepsDates db db' := by
  obtain ⟨-, -, -, mid, hmid, rfl⟩ := linkPair_spec h
  have hrecategorized : KeepsDates db mid := by
    rcases hmid with ⟨-, catDb, categoryId, hpair, rfl⟩ | ⟨-, rfl⟩
    · have hcat : KeepsDates db catDb := keepsDates_of_eq (pairCategory_rows hpair)
      exact (hcat.trans (keepsDates_setCategory ..)).trans (keepsDates_setCategory ..)
    · exact .refl _
  have hlinked : KeepsDates db (setLink inc.1 (some exp.1) (setLink exp.1 (some inc.1) mid)) :=
    (hrecategorized.trans (keepsDates_setLink ..)).trans (keepsDates_setLink ..)
  exact hlinked.trans (keepsDates_of_eq rfl)

theorem pairExistingTransactions_keepsDates {expenseId incomeId : Nat} {recategorize : Bool}
    {transferCategoryId : Option Nat}
    (h : pairExistingTransactions db orgId expenseId incomeId recategorize transferCategoryId = .ok db') :
    KeepsDates db db' := by
  iterate 3 obtain ⟨_, _, h⟩ := bind_eq_ok.mp h
  exact linkPair_keepsDates h

theorem unpairTransactions_keepsDates {id expenseFallbackCategoryId incomeFallbackCategoryId : Nat}
    (h : unpairTransactions db orgId id expenseFallbackCategoryId incomeFallbackCategoryId = .ok db') :
    KeepsDates db db' := by
  iterate 7 obtain ⟨_, _, h⟩ := bind_eq_ok.mp h
  have hunpair : ∀ (e i : Nat) (pairings : List (Nat × Nat)),
      KeepsDates db { setCategory i incomeFallbackCategoryId (setCategory e expenseFallbackCategoryId
        (setLink i none (setLink e none db))) with pairings } := by
    intro e i pairings
    have hlinks : KeepsDates db (setLink i none (setLink e none db)) :=
      (keepsDates_setLink ..).trans (keepsDates_setLink ..)
    have hcategories : KeepsDates db (setCategory i incomeFallbackCategoryId
        (setCategory e expenseFallbackCategoryId (setLink i none (setLink e none db)))) :=
      (hlinks.trans (keepsDates_setCategory ..)).trans (keepsDates_setCategory ..)
    exact hcategories.trans (keepsDates_of_eq rfl)
  dsimp only at h
  split at h
  · exact Except.ok.inj h ▸ hunpair ..
  · exact Except.ok.inj h ▸ hunpair ..
  · cases h

/-! ### Deletes, templates and batches -/

theorem deleteTransactions_keepsDates (db : Db) (ids : List Nat) : KeepsDates db (deleteTransactions db ids) := by
  refine ⟨fun i t' ht' => ?_⟩
  obtain ⟨t, ht, rfl⟩ := Option.map_eq_some_iff.mp ((Table.get?_mapRows _ _ _).symm.trans ht')
  rw [Table.get?_remove] at ht
  split at ht
  · cases ht
  · exact ⟨t, ht, sameDates_if ⟨rfl, rfl, rfl, rfl⟩⟩

theorem keepsDates_closeBatchIfComplete (db : Db) (batchId : Nat) (exclude : List Nat) :
    KeepsDates db (closeBatchIfComplete db batchId exclude) := by
  unfold closeBatchIfComplete
  split
  · exact .refl db
  · split
    · exact .refl db
    · split
      · exact .refl db
      · dsimp only
        split
        · exact keepsDates_of_eq rfl
        · exact keepsDates_of_eq rfl

theorem applyBatchSettlement_keepsDates (db : Db) (plan : BatchSettlementPlan) :
    KeepsDates db (applyBatchSettlement db orgId plan) := by
  have hdemoted : KeepsDates db (demoteRows db plan.demoted) :=
    keepsDates_mapRows fun _ _ => sameDates_if ⟨rfl, rfl, rfl, rfl⟩
  have hsettled : KeepsDates db (settleCounters (demoteRows db plan.demoted) orgId plan) :=
    hdemoted.trans (keepsDates_of_eq rfl)
  exact hsettled.trans (keepsDates_foldl fun s id => keepsDates_closeBatchIfComplete s id plan.deletedIds)

theorem deleteLocked_keepsDates {locked : List Row} {ids : List Nat} (h : deleteLocked db orgId locked ids = .ok db') :
    KeepsDates db db' := by
  obtain ⟨_, _, h⟩ := bind_eq_ok.mp h
  obtain ⟨db₁, hdb₁, h⟩ := bind_eq_ok.mp h
  obtain rfl := Except.ok.inj h
  have hreverted : KeepsDates db db₁ := keepsDates_foldlM (fun _ _ _ hs => keepsDates_of_eq (revertBalance_rows hs)) hdb₁
  exact (hreverted.trans (applyBatchSettlement_keepsDates db₁ _)).trans (deleteTransactions_keepsDates _ ids)

theorem deleteTransaction_keepsDates {id : Nat} {demoted : List Nat}
    (h : deleteTransaction db orgId id = .ok (db', demoted)) : KeepsDates db db' := by
  obtain ⟨_, _, h⟩ := bind_eq_ok.mp h
  obtain ⟨_, _, h⟩ := bind_eq_ok.mp h
  obtain ⟨mid, hmid, h⟩ := bind_eq_ok.mp h
  obtain rfl : mid = db' := (Prod.mk.inj (Except.ok.inj h)).1
  exact deleteLocked_keepsDates hmid

theorem bulkDeleteTransactions_keepsDates {ids : List Nat} {result : BulkDeleteResult}
    (h : bulkDeleteTransactions db orgId ids = .ok (db', result)) : KeepsDates db db' := by
  obtain ⟨mid, hmid, h⟩ := bind_eq_ok.mp h
  obtain rfl : mid = db' := (Prod.mk.inj (Except.ok.inj h)).1
  exact deleteLocked_keepsDates hmid

theorem removePendingTransactions_keepsDates (db : Db) (today : Int) (orgId recurringId : Nat) :
    KeepsDates db (removePendingTransactions db today orgId recurringId).1 := by
  unfold removePendingTransactions
  dsimp only
  split
  · exact .refl db
  · exact (applyBatchSettlement_keepsDates db _).trans (deleteTransactions_keepsDates _ _)

theorem stopRecurring_keepsDates {today : Int} {recurringId : Nat} {outcome : PendingRemovalResult}
    (h : stopRecurring db today orgId recurringId = .ok (db', outcome)) : KeepsDates db db' := by
  obtain ⟨_, _, h⟩ := bind_eq_ok.mp h
  obtain ⟨rfl, -⟩ := Prod.mk.inj (Except.ok.inj h)
  have hstopped : KeepsDates db (editRecurring db recurringId (fun r => { r with isActive := false })) :=
    keepsDates_of_eq rfl
  exact (hstopped.trans (removePendingTransactions_keepsDates _ today orgId recurringId)).trans
    (keepsDates_updateRows fun _ => ⟨rfl, rfl, rfl, rfl⟩)

theorem deleteRecurring_keepsDates {today : Int} {recurringId : Nat} {outcome : PendingRemovalResult}
    (h : deleteRecurring db today orgId recurringId = .ok (db', outcome)) : KeepsDates db db' := by
  obtain ⟨_, _, h⟩ := bind_eq_ok.mp h
  obtain ⟨rfl, -⟩ := Prod.mk.inj (Except.ok.inj h)
  have hgone : ∀ mid : Db, KeepsDates mid { mid with
      recurring := mid.recurring.remove (· == recurringId)
      transactions := mid.transactions.mapRows (fun _ t =>
        if t.recurringId = some recurringId then { t with recurringId := none } else t) } := by
    refine fun mid => ⟨fun i t' ht' => ?_⟩
    obtain ⟨t, ht, rfl⟩ := Option.map_eq_some_iff.mp ((Table.get?_mapRows _ _ _).symm.trans ht')
    exact ⟨t, ht, sameDates_if ⟨rfl, rfl, rfl, rfl⟩⟩
  exact (removePendingTransactions_keepsDates db today orgId recurringId).trans (hgone _)

theorem keepsDates_insertRecurring (db : Db) (r : RecurringTransaction) : KeepsDates db (insertRecurring db r) :=
  keepsDates_of_eq rfl

theorem createRecurring_keepsDates {today : Int} {body : RecurringCreate}
    (h : createRecurring db today orgId body = .ok db') : KeepsDates db db' := by
  iterate 4 obtain ⟨_, _, h⟩ := bind_eq_ok.mp h
  obtain rfl := Except.ok.inj h
  exact keepsDates_insertRecurring ..

theorem promoteToRecurring_keepsDates {today : Int} {id : Nat} {body : PromoteToRecurringRequest}
    (h : promoteToRecurring db today orgId id body = .ok db') : KeepsDates db db' := by
  iterate 6 obtain ⟨_, _, h⟩ := bind_eq_ok.mp h
  obtain rfl := Except.ok.inj h
  exact KeepsDates.trans (keepsDates_insertRecurring ..) (keepsDates_edit fun _ => ⟨rfl, rfl, rfl, rfl⟩)

theorem advanceFrontier_keepsDates {recurringId : Nat} {r : RecurringTransaction} {due : Int}
    (h : advanceFrontier db recurringId r due = .ok db') : KeepsDates db db' := by
  obtain ⟨next, _, h⟩ := bind_eq_ok.mp h
  obtain rfl := Except.ok.inj h
  exact keepsDates_of_eq rfl

theorem skipOccurrence_keepsDates {id : Nat} (h : skipOccurrence db orgId id = .ok db') : KeepsDates db db' := by
  iterate 6 obtain ⟨_, _, h⟩ := bind_eq_ok.mp h
  split at h
  · cases h
  · obtain rfl := Except.ok.inj h
    exact keepsDates_edit fun _ => ⟨rfl, rfl, rfl, rfl⟩

theorem claimConfirm_keepsDates {accountId : Nat} (h : claimConfirm db orgId accountId = .ok db') :
    KeepsDates db db' := by
  obtain ⟨_, _, h⟩ := bind_eq_ok.mp h
  obtain rfl := Except.ok.inj h
  exact keepsDates_of_eq rfl

/-! ## New rows -/

theorem OrgCoherent.insert {t : Transaction} (h : OrgCoherent o db) (ht : t.orgId = o → Coherent t) :
    OrgCoherent o (insertTransaction db t) := by
  intro i a ha horg
  have ha : (db.transactions.insert t).get? i = some a := ha
  rw [Table.get?_insert] at ha
  split at ha
  · obtain rfl := Option.some.inj ha
    exact ht horg
  · exact h i a ha horg

/-- What goes in settles on its date, or on the later day it came with. -/
theorem createTransactionNoCommit_coherent {body : TransactionCreate} {imported manual : Bool} {row : Row}
    (h : createTransactionNoCommit db orgId body imported manual = .ok (db', row)) (hdb : OrgCoherent o db) :
    OrgCoherent o db' := by
  obtain ⟨_, _, h⟩ := bind_eq_ok.mp h
  obtain ⟨_, _, h⟩ := bind_eq_ok.mp h
  obtain ⟨paid, hpaid, h⟩ := bind_eq_ok.mp h
  obtain ⟨rfl, -⟩ := Prod.mk.inj (Except.ok.inj h)
  have hpaid : KeepsDates db paid := keepsDates_of_eq (doIf_rows (fun _ hw => applyBalance_rows hw) hpaid)
  refine (hpaid.coherent hdb).insert fun _ => ⟨fun hs => ?_, fun s hs => ?_⟩
  · show (if body.status = .settled then some (body.settledDate.getD body.date) else body.settledDate).isSome
    rw [if_pos hs]
    rfl
  · have hs : s ∈ (if body.status = .settled then some (body.settledDate.getD body.date) else body.settledDate) := hs
    show body.date ≤ s
    rcases hasked : body.settledDate with _ | d
    · rw [hasked] at hs
      split at hs
      · exact (Option.mem_some_iff.mp hs).le
      · cases hs
    · have hd : body.date ≤ d := body.settledOnOrAfter d hasked
      rw [hasked, Option.getD_some, ite_self] at hs
      exact Option.mem_some_iff.mp hs ▸ hd

theorem createTransaction_coherent {body : TransactionCreate} (h : createTransaction db orgId body = .ok db')
    (hdb : OrgCoherent o db) : OrgCoherent o db' := by
  obtain ⟨⟨mid, row⟩, hcreate, h⟩ := bind_eq_ok.mp h
  obtain rfl := Except.ok.inj h
  exact createTransactionNoCommit_coherent hcreate hdb

theorem getOrCreateCategory_rows (db : Db) (new : Category) (test : Category → Bool) :
    (getOrCreateCategory db new test).1.transactions = db.transactions := by
  unfold getOrCreateCategory
  split <;> rfl

theorem adjustAccountBalance_coherent {today : Int} {accountId : Nat} {targetBalance : Int} {reason : Option String}
    (h : adjustAccountBalance db today orgId accountId targetBalance reason = .ok db') (hdb : OrgCoherent o db) :
    OrgCoherent o db' := by
  obtain ⟨_, _, h⟩ := bind_eq_ok.mp h
  dsimp only at h
  split at h
  · cases h
  · obtain ⟨⟨mid, row⟩, hcreate, h⟩ := bind_eq_ok.mp h
    obtain rfl := Except.ok.inj h
    exact createTransactionNoCommit_coherent hcreate
      ((keepsDates_of_eq (getOrCreateCategory_rows ..)).coherent hdb)

/-- A pair written: both legs new, and coherent. -/
theorem newPair_coherent {exp inc : Transaction} {transferCategoryId : Option Nat} {db₁ db₂ : Db} {c : Bool}
    (hexp : Coherent exp) (hinc : Coherent inc)
    (hlink : linkPair (insertTransaction (insertTransaction db exp) inc) (db.transactions.next, exp)
      ((insertTransaction db exp).transactions.next, inc) false transferCategoryId = .ok db₁)
    (hdb₂ : doIf c (fun db => applyRow db orgId exp) db₁ = .ok db₂)
    (hdb' : doIf c (fun db => applyRow db orgId inc) db₂ = .ok db') (hdb : OrgCoherent o db) : OrgCoherent o db' := by
  have hboth : OrgCoherent o (insertTransaction (insertTransaction db exp) inc) :=
    (hdb.insert fun _ => hexp).insert fun _ => hinc
  have hlinked : OrgCoherent o db₁ := (linkPair_keepsDates hlink).coherent hboth
  have hpaid : OrgCoherent o db₂ := (keepsDates_of_eq (doIf_apply_rows hdb₂)).coherent hlinked
  exact (keepsDates_of_eq (doIf_apply_rows hdb')).coherent hpaid

theorem createTransfer_coherent {body : TransferCreate} (h : createTransfer db orgId body = .ok db')
    (hdb : OrgCoherent o db) : OrgCoherent o db' := by
  iterate 3 obtain ⟨_, _, h⟩ := bind_eq_ok.mp h
  obtain ⟨⟨catDb, categoryId⟩, hpair, h⟩ := bind_eq_ok.mp h
  obtain ⟨linked, hlink, h⟩ := bind_eq_ok.mp h
  obtain ⟨paid, hpaid, h⟩ := bind_eq_ok.mp h
  have hcat : OrgCoherent o catDb := (keepsDates_of_eq (pairCategory_rows hpair)).coherent hdb
  exact newPair_coherent (coherent_onDate rfl) (coherent_onDate rfl) hlink hpaid h hcat

/-- The missing leg is dated as the row it is made for. -/
theorem convertAndCreateLeg_coherent {sourceId destinationAccountId : Nat} {recategorize : Bool}
    {transferCategoryId : Option Nat}
    (h : convertAndCreateLeg db orgId sourceId destinationAccountId recategorize transferCategoryId = .ok db')
    (hdb : OrgCoherent o db) : OrgCoherent o db' := by
  obtain ⟨source, hsource, h⟩ := bind_eq_ok.mp h
  iterate 8 obtain ⟨_, _, h⟩ := bind_eq_ok.mp h
  obtain ⟨db₁, hdb₁, h⟩ := bind_eq_ok.mp h
  obtain ⟨hget, horg⟩ := findTransaction_eq_some.mp (found_eq_ok.mp hsource)
  have hinserted : OrgCoherent o db₁ := by
    refine (keepsDates_of_eq (doIf_apply_rows hdb₁)).coherent (hdb.insert fun ho => ?_)
    have hsame : SameDates source (Transaction.mk orgId destinationAccountId source.categoryId source.description
        source.amount (if source.type = .expense then .income else .expense) source.status none none none source.date
        source.settledDate false none .accepted false) := ⟨horg.symm, rfl, rfl, rfl⟩
    exact hsame.coherent (hdb sourceId source hget (horg.trans ho))
  split at h
  · exact (linkPair_keepsDates h).coherent hinserted
  · exact (linkPair_keepsDates h).coherent hinserted

/-- An occurrence settles on the day it is due, or not yet. -/
theorem createOccurrence_coherent {today : Int} {recurringId : Nat} {r : RecurringTransaction} {due : Int}
    {settle skipped : Bool} {tx : Transaction}
    (h : createOccurrence db today orgId recurringId r due settle skipped = .ok (db', tx)) (hdb : OrgCoherent o db) :
    OrgCoherent o db' := by
  unfold createOccurrence at h
  dsimp only at h
  split at h
  · obtain ⟨toAccountId, _, h⟩ := bind_eq_ok.mp h
    obtain ⟨linked, hlink, h⟩ := bind_eq_ok.mp h
    obtain ⟨paid, hpaid, h⟩ := bind_eq_ok.mp h
    obtain ⟨done, hdone, h⟩ := bind_eq_ok.mp h
    obtain rfl : done = db' := (Prod.mk.inj (Except.ok.inj h)).1
    exact newPair_coherent (coherent_onDate rfl) (coherent_onDate rfl) hlink hpaid hdone hdb
  · obtain ⟨done, hdone, h⟩ := bind_eq_ok.mp h
    obtain rfl : done = db' := (Prod.mk.inj (Except.ok.inj h)).1
    exact (keepsDates_of_eq (doIf_apply_rows hdone)).coherent (hdb.insert fun _ => coherent_onDate rfl)

/-! ## Imported rows -/

theorem confirmRow_coherent {accountId id : Nat} {row : ImportConfirmRow}
    (h : confirmRow db orgId accountId row = .ok (db', id)) (hdb : OrgCoherent o db) : OrgCoherent o db' := by
  obtain ⟨account, _, h⟩ := bind_eq_ok.mp h
  obtain ⟨_, _, h⟩ := bind_eq_ok.mp h
  obtain ⟨⟨db₁, new⟩, hnew, h⟩ := bind_eq_ok.mp h
  have hcreated : OrgCoherent o db₁ := createTransactionNoCommit_coherent hnew hdb
  have hlinked : ∀ {mid db₂ : Db} {new partner : Row}, OrgCoherent o mid →
      linkByType mid row new partner = .ok db₂ → OrgCoherent o db₂ := by
    intro mid db₂ new partner hmid hlink
    unfold linkByType at hlink
    split at hlink
    · exact (linkPair_keepsDates hlink).coherent hmid
    · exact (linkPair_keepsDates hlink).coherent hmid
  dsimp only at h
  split at h
  · obtain rfl := (Prod.mk.inj (Except.ok.inj h)).1
    exact hcreated
  · iterate 5 obtain ⟨_, _, h⟩ := bind_eq_ok.mp h
    obtain ⟨db₂, hlink, h⟩ := bind_eq_ok.mp h
    obtain rfl := (Prod.mk.inj (Except.ok.inj h)).1
    exact hlinked hcreated hlink
  · obtain ⟨⟨db₂, partner⟩, hpartner, h⟩ := bind_eq_ok.mp h
    obtain ⟨db₃, hlink, h⟩ := bind_eq_ok.mp h
    obtain rfl := (Prod.mk.inj (Except.ok.inj h)).1
    exact hlinked (createTransactionNoCommit_coherent hpartner hcreated) hlink

theorem applyConfirmRows_coherent {accountId : Nat} {rows : List ImportConfirmRow} (hdb : OrgCoherent o db) :
    OrgCoherent o (applyConfirmRows db orgId accountId rows).1 := by
  unfold applyConfirmRows
  refine List.foldlRecOn (motive := fun acc : Db × List Nat => OrgCoherent o acc.1) rows _ hdb ?_
  intro acc h row _
  split
  · exact confirmRow_coherent ‹confirmRow _ _ _ _ = .ok _› h
  · exact h

theorem confirmChunk_coherent {batchId : Nat} {rows : List ImportConfirmRow} {completed : Bool}
    (hdb : OrgCoherent o db) : OrgCoherent o (confirmChunk db orgId batchId rows completed) := by
  unfold confirmChunk
  split
  · exact hdb
  · rename_i batch _
    have happlied : OrgCoherent o (applyConfirmRows db orgId batch.accountId rows).1 := applyConfirmRows_coherent hdb
    dsimp only
    generalize applyConfirmRows db orgId batch.accountId rows = applied at happlied ⊢
    obtain ⟨db₁, ids⟩ := applied
    have henrolled : OrgCoherent o (enrolRows db₁ orgId batchId ids) := by
      have hrows : KeepsDates db₁ (updateRows db₁ orgId (fun id _ => ids.contains id)
          (fun t => { t with importBatchId := some batchId })) := keepsDates_updateRows fun _ => ⟨rfl, rfl, rfl, rfl⟩
      exact (hrows.trans (keepsDates_of_eq rfl)).coherent happlied
    dsimp only
    split
    · have hcleared : KeepsDates (enrolRows db₁ orgId batchId ids)
          { enrolRows db₁ orgId batchId ids with
            transactions := (enrolRows db₁ orgId batchId ids).transactions.mapRows (fun _ t =>
              if t.importBatchId = some batchId then { t with importBatchId := none } else t) } :=
        keepsDates_mapRows fun _ _ => sameDates_if ⟨rfl, rfl, rfl, rfl⟩
      exact (hcleared.trans (keepsDates_of_eq rfl)).coherent henrolled
    · exact henrolled

/-! ## Handing an edit on -/

section Sync

variable {recurringId : Nat} {sync : SeriesSync}

theorem keepsDates_updateTemplate {test : RecurringTransaction → Bool} {f : RecurringTransaction → RecurringTransaction} :
    KeepsDates db (updateTemplate db orgId recurringId test f) := keepsDates_of_eq rfl

theorem syncDescription_keepsDates : KeepsDates db (syncDescription orgId recurringId sync db) := by
  unfold syncDescription
  split
  · exact .refl db
  · dsimp only
    split
    · exact keepsDates_updateTemplate.trans (keepsDates_updateRows fun _ => ⟨rfl, rfl, rfl, rfl⟩)
    · exact keepsDates_updateTemplate

theorem syncCategory_keepsDates : KeepsDates db (syncCategory orgId recurringId sync db) := by
  unfold syncCategory
  split
  · exact .refl db
  · dsimp only
    split
    · exact keepsDates_updateTemplate.trans (keepsDates_updateRows fun _ => ⟨rfl, rfl, rfl, rfl⟩)
    · exact keepsDates_updateTemplate

theorem syncAccount_keepsDates : KeepsDates db (syncAccount orgId recurringId sync db) := by
  unfold syncAccount
  split
  · exact .refl db
  · dsimp only
    split
    · exact keepsDates_updateTemplate.trans (keepsDates_updateRows fun _ => ⟨rfl, rfl, rfl, rfl⟩)
    · exact keepsDates_updateTemplate

theorem syncAmount_keepsDates : KeepsDates db (syncAmount orgId recurringId sync db) := by
  unfold syncAmount
  split
  · exact .refl db
  · exact keepsDates_updateRows fun _ => ⟨rfl, rfl, rfl, rfl⟩

theorem syncGuarded_keepsDates : KeepsDates db (syncGuarded orgId recurringId sync db) := by
  unfold syncGuarded
  extract_lets targets idsOf db₁ db₂
  have h₁ : KeepsDates db db₁ := by
    unfold db₁
    split
    · exact keepsDates_updateRows fun _ => ⟨rfl, rfl, rfl, rfl⟩
    · exact .refl db
  have h₂ : KeepsDates db₁ db₂ := by
    unfold db₂
    split
    · exact keepsDates_updateRows fun _ => ⟨rfl, rfl, rfl, rfl⟩
    · exact .refl db₁
  split
  · exact (h₁.trans h₂).trans (keepsDates_updateRows fun _ => ⟨rfl, rfl, rfl, rfl⟩)
  · exact h₁.trans h₂

/-- Every row a move reaches is coherent where it lands. -/
def LandsCoherent (o : Nat) (sync : SeriesSync) (db : Db) : Prop :=
  ∀ move, sync.dateMove = some move → ∀ m ∈ move.moves, ∀ t, db.transactions.get? m.1 = some t → t.orgId = o →
    Coherent { t with date := m.2.1, settledDate := m.2.2 }

theorem LandsCoherent.kept (h : LandsCoherent o sync db) (hkeeps : KeepsDates db db') : LandsCoherent o sync db' := by
  intro move hmove m hm t' ht' horg
  obtain ⟨t, ht, hsame⟩ := hkeeps.rows m.1 t' ht'
  have hmoved : SameDates { t with date := m.2.1, settledDate := m.2.2 }
      { t' with date := m.2.1, settledDate := m.2.2 } := ⟨hsame.org, hsame.status, rfl, rfl⟩
  exact hmoved.coherent (h move hmove m hm t ht (hsame.org ▸ horg))

theorem syncDates_coherent (h : LandsCoherent o sync db) (hdb : OrgCoherent o db) :
    OrgCoherent o (syncDates orgId sync db) := by
  unfold syncDates
  split
  · exact hdb
  · rename_i move hmove
    intro i t' ht' horg
    obtain ⟨t, ht, rfl⟩ := Option.map_eq_some_iff.mp ((Table.get?_mapRows _ _ _).symm.trans ht')
    rcases hfind : move.moves.find? (fun m => m.1 == i) with _ | m
    · rw [hfind] at horg ⊢
      exact hdb i t ht horg
    · rw [hfind] at horg ⊢
      dsimp only at horg ⊢
      have hi : m.1 = i := by simpa using List.find?_some hfind
      split at horg
      · rw [if_pos ‹_›]
        exact h move hmove m (List.mem_of_find?_eq_some hfind) t (hi ▸ ht) horg
      · rw [if_neg ‹_›]
        exact hdb i t ht horg

theorem propagateFieldsToSeries_coherent (h : LandsCoherent o sync db) (hdb : OrgCoherent o db) :
    OrgCoherent o (propagateFieldsToSeries db orgId recurringId sync) := by
  unfold propagateFieldsToSeries
  extract_lets d₁ d₂ d₃ d₄ d₅ d₆
  have h₁ : KeepsDates db d₁ := syncDescription_keepsDates
  have h₂ : KeepsDates d₁ d₂ := syncCategory_keepsDates
  have h₃ : KeepsDates d₂ d₃ := syncAccount_keepsDates
  have h₄ : KeepsDates d₃ d₄ := keepsDates_updateTemplate
  have h₅ : KeepsDates d₄ d₅ := syncAmount_keepsDates
  have h₆ : KeepsDates d₅ d₆ := syncGuarded_keepsDates
  have hkeeps : KeepsDates db d₆ := ((((h₁.trans h₂).trans h₃).trans h₄).trans h₅).trans h₆
  exact syncDates_coherent (h.kept hkeeps) (hkeeps.coherent hdb)

/-- A planned move is of the series' pending rows but the edited one, and each takes its
expected settlement along. -/
theorem planSeriesDateMove_moves {today : Int} {template : RecurringTransaction} {rowId : Nat} {oldDate newDate : Int}
    {txType : TransactionType} {move : SeriesDateMove}
    (h : planSeriesDateMove db today orgId recurringId template rowId oldDate newDate txType = .ok move) :
    ∀ m ∈ move.moves, m.1 ≠ rowId ∧ ∃ t, db.transactions.get? m.1 = some t ∧ t.status = .pending ∧
      m.2.2 = t.settledDate.map (fun s => s + (m.2.1 - t.date)) := by
  obtain ⟨_, _, h⟩ := bind_eq_ok.mp h
  obtain ⟨_, _, h⟩ := bind_eq_ok.mp h
  obtain ⟨_, _, h⟩ := bind_eq_ok.mp h
  obtain ⟨_, _, h⟩ := bind_eq_ok.mp h
  obtain ⟨_, _, h⟩ := bind_eq_ok.mp h
  obtain ⟨⟨oldGrid, reached⟩, _, h⟩ := bind_eq_ok.mp h
  obtain ⟨_, _, h⟩ := bind_eq_ok.mp h
  obtain ⟨⟨newGrid, lastSpentDate⟩, _, h⟩ := bind_eq_ok.mp h
  obtain ⟨newFrontier, _, h⟩ := bind_eq_ok.mp h
  dsimp only at h
  split at h
  · cases h
  · obtain ⟨_, _, h⟩ := bind_eq_ok.mp h
    obtain rfl := Except.ok.inj h
    intro m hm
    obtain ⟨⟨j, t⟩, hmem, hmoved⟩ := List.mem_filterMap.mp hm
    obtain ⟨new, _, rfl⟩ := Option.map_eq_some_iff.mp hmoved
    obtain ⟨hget, hpending, -⟩ := pending_of_target hmem
    have htest := (Table.mem_select.mp hmem).2
    simp only [Bool.and_eq_true, Option.all_some, bne_iff_ne] at htest
    exact ⟨htest.1.2.symm, t, hget, hpending, rfl⟩

/-- A pending row taken along is coherent where it lands: its settlement moves as far as it. -/
theorem Coherent.moved {t : Transaction} {date : Int} (h : Coherent t) (hpending : t.status = .pending) :
    Coherent { t with date, settledDate := t.settledDate.map (fun s => s + (date - t.date)) } where
  settled hs := by
    have hs : t.status = .settled := hs
    rw [hpending] at hs
    cases hs
  ordered s hs := by
    obtain ⟨s₀, hs₀, rfl⟩ := Option.map_eq_some_iff.mp hs
    have hle : t.date ≤ s₀ := h.ordered s₀ hs₀
    show date ≤ s₀ + (date - t.date)
    omega

end Sync

/-! ## One row -/

theorem OrgCoherent.edit {id : Nat} {new : Transaction} (hdb : OrgCoherent o db) (hnew : new.orgId = o → Coherent new) :
    OrgCoherent o (editTransaction db id (fun _ => new)) := by
  intro i t ht horg
  obtain ⟨a, ha, rfl⟩ := Table.get?_modify_eq_some.mp ht
  split at horg
  · rw [if_pos ‹_›]
    exact hnew horg
  · rw [if_neg ‹_›]
    exact hdb i a ha horg

/-- What an edit leaves settled has a settlement date. -/
theorem editedSettledDate_isSome {today : Int} {tx : Transaction} {body : TransactionUpdate}
    (htx : tx.status = .settled → tx.settledDate.isSome) (hs : body.status.getD tx.status = .settled) :
    (editedSettledDate today tx body).isSome := by
  unfold editedSettledDate
  rw [hs]
  dsimp only
  split
  · rfl
  · split
    · exact htx ‹_›
    · rfl

theorem editedRow_settled {today : Int} {tx : Transaction} {body : TransactionUpdate} {moves : Bool}
    (htx : tx.status = .settled → tx.settledDate.isSome)
    (hs : (editedRow today tx body moves).status = .settled) : (editedRow today tx body moves).settledDate.isSome := by
  unfold editedRow at hs ⊢
  dsimp only at hs ⊢
  split at hs
  · exact editedSettledDate_isSome htx hs
  · split at hs
    · rw [if_pos ‹_›]
      rfl
    · rw [if_neg ‹_›]
      exact editedSettledDate_isSome htx hs

/-- An edited row is coherent once its settlement has been checked against its date. -/
theorem editedRow_coherent {today : Int} {tx : Transaction} {body : TransactionUpdate} {moves : Bool}
    (htx : Coherent tx)
    (hchecked : ¬ ∃ s ∈ (editedRow today tx body moves).settledDate, s < (editedRow today tx body moves).date) :
    Coherent (editedRow today tx body moves) where
  settled hs := editedRow_settled htx.settled hs
  ordered s hs := by
    by_contra hlt
    exact hchecked ⟨s, hs, not_le.mp hlt⟩

/-- The other leg keeps its dates, or takes a settlement checked against its own. -/
theorem mirroredLeg_coherent {tx new leg : Transaction} {body : TransactionUpdate} (hleg : Coherent leg)
    (hchecked : ¬ (movesLegSettlement tx new leg body ∧ ∃ s ∈ new.settledDate, s < leg.date)) :
    Coherent (mirroredLeg tx new leg body) := by
  by_cases hmoves : movesLegSettlement tx new leg body = true
  · have hpending : leg.status = .pending := by
      simp only [movesLegSettlement, Bool.and_eq_true, beq_iff_eq] at hmoves
      exact hmoves.1.2
    constructor
    · intro hs
      have hs : leg.status = .settled := hs
      rw [hpending] at hs
      cases hs
    · intro s hs
      have hs : s ∈ (if movesLegSettlement tx new leg body then new.settledDate else leg.settledDate) := hs
      rw [if_pos hmoves] at hs
      show leg.date ≤ s
      by_contra hlt
      exact hchecked ⟨hmoves, s, hs, not_le.mp hlt⟩
  · have hsame : SameDates leg (mirroredLeg tx new leg body) := ⟨rfl, rfl, rfl, if_neg hmoves⟩
    exact hsame.coherent hleg

/-- An edit of one row writes that row. -/
theorem writeEdit_row {id : Nat} {tx new : Transaction} {counted partnerCounted : Bool}
    (h : writeEdit db orgId id tx new counted none partnerCounted = .ok db') :
    db'.transactions = db.transactions.modify id (fun _ => new) := by
  obtain ⟨db₁, hdb₁, h⟩ := bind_eq_ok.mp h
  rw [doIf_apply_rows h]
  show db₁.transactions.modify id (fun _ => new) = _
  rw [doIf_revert_rows hdb₁]

/-- An edit of a leg writes both. -/
theorem writeEdit_legs {id l : Nat} {tx new leg newLeg : Transaction} {counted partnerCounted : Bool}
    (h : writeEdit db orgId id tx new counted (some (l, leg, newLeg)) partnerCounted = .ok db') :
    db'.transactions = (editTransaction (editTransaction db id (fun _ => new)) l (fun _ => newLeg)).transactions := by
  obtain ⟨db₁, hdb₁, h⟩ := bind_eq_ok.mp h
  obtain ⟨db₂, hdb₂, h⟩ := bind_eq_ok.mp h
  obtain ⟨db₃, hdb₃, h⟩ := bind_eq_ok.mp h
  rw [doIf_apply_rows h, doIf_apply_rows hdb₃]
  show (db₂.transactions.modify id (fun _ => new)).modify l (fun _ => newLeg) =
    (db.transactions.modify id (fun _ => new)).modify l (fun _ => newLeg)
  rw [doIf_revert_rows hdb₂, doIf_revert_rows hdb₁]

/-- What a "this and future" edit plans, it plans for a row that is no leg. -/
theorem planSeriesEdit_move {today : Int} {id : Nat} {tx : Transaction} {body : TransactionUpdate}
    {series : Option (RecurringTransaction × Option SeriesDateMove)} {move : SeriesDateMove}
    (h : planSeriesEdit db today orgId id tx body = .ok series) (hmove : series.bind (·.2) = some move) :
    tx.linkedTransactionId = none ∧ ∀ m ∈ move.moves, m.1 ≠ id ∧ ∃ t, db.transactions.get? m.1 = some t ∧
      t.status = .pending ∧ m.2.2 = t.settledDate.map (fun s => s + (m.2.1 - t.date)) := by
  unfold planSeriesEdit at h
  split at h
  · obtain rfl := Except.ok.inj h
    cases hmove
  · obtain ⟨recurringId, _, h⟩ := bind_eq_ok.mp h
    obtain ⟨_, _, h⟩ := bind_eq_ok.mp h
    obtain ⟨_, _, h⟩ := bind_eq_ok.mp h
    obtain ⟨_, hunlinked, h⟩ := bind_eq_ok.mp h
    obtain ⟨_, _, h⟩ := bind_eq_ok.mp h
    obtain ⟨template, _, h⟩ := bind_eq_ok.mp h
    obtain ⟨_, _, h⟩ := bind_eq_ok.mp h
    refine ⟨by simpa using refuse_eq_ok.mp hunlinked, ?_⟩
    split at h
    · split at h
      · obtain ⟨planned, hplan, h⟩ := bind_eq_ok.mp h
        obtain rfl := Except.ok.inj h
        obtain rfl : planned = move := Option.some.inj hmove
        exact planSeriesDateMove_moves hplan
      · obtain rfl := Except.ok.inj h
        cases hmove
    · obtain rfl := Except.ok.inj h
      cases hmove

/-- Once the edited row is written, the rows its move reaches are as it was planned on. -/
theorem writeEdit_landsCoherent {today : Int} {id : Nat} {tx new : Transaction} {body : TransactionUpdate}
    {series : Option (RecurringTransaction × Option SeriesDateMove)} {written : Db}
    (hplan : planSeriesEdit db today orgId id tx body = .ok series)
    (hwritten : written.transactions = db.transactions.modify id (fun _ => new)) (hdb : OrgCoherent o db) :
    LandsCoherent o (syncOfEdit id tx new body series) written := by
  intro move hmove m hm t' ht' horg
  obtain ⟨hid, t, ht, hpending, hsettles⟩ := (planSeriesEdit_move hplan hmove).2 m hm
  rw [hwritten, Table.get?_modify_of_ne hid, ht] at ht'
  obtain rfl := Option.some.inj ht'
  rw [hsettles]
  exact (hdb m.1 t ht horg).moved hpending

theorem updateTransaction_coherent {today : Int} {id : Nat} {body : TransactionUpdate}
    (h : updateTransaction db today orgId id body = .ok db') (hdb : OrgCoherent o db) : OrgCoherent o db' := by
  obtain ⟨tx, htx, h⟩ := bind_eq_ok.mp h
  obtain ⟨_, _, h⟩ := bind_eq_ok.mp h
  obtain ⟨_, _, h⟩ := bind_eq_ok.mp h
  obtain ⟨hget, horg⟩ := findTransaction_eq_some.mp (found_eq_ok.mp htx)
  -- what is written, the sync aside
  have hsync : ∀ {written : Db} {new : Transaction} {series : Option (RecurringTransaction × Option SeriesDateMove)},
      OrgCoherent o written → LandsCoherent o (syncOfEdit id tx new body series) written →
      handOn written orgId tx.recurringId (syncOfEdit id tx new body series) = .ok db' → OrgCoherent o db' := by
    intro written new series hcoherent hlands hwritten
    unfold handOn at hwritten
    split at hwritten
    · exact Except.ok.inj hwritten ▸ hcoherent
    · split at hwritten
      · exact Except.ok.inj hwritten ▸ hcoherent
      · exact Except.ok.inj hwritten ▸ propagateFieldsToSeries_coherent hlands hcoherent
  dsimp only at h
  rcases hpartner : (linkedRow db orgId tx).filter (fun p => isReciprocalPair (id, tx) (some p)) with _ | ⟨l, leg⟩
  · rw [hpartner] at h
    obtain ⟨_, _, h⟩ := bind_eq_ok.mp h
    obtain ⟨series, hplan, h⟩ := bind_eq_ok.mp h
    obtain ⟨_, _, h⟩ := bind_eq_ok.mp h
    obtain ⟨_, _, h⟩ := bind_eq_ok.mp h
    obtain ⟨_, hordered, h⟩ := bind_eq_ok.mp h
    obtain ⟨written, hwrite, h⟩ := bind_eq_ok.mp h
    have hrows := writeEdit_row hwrite
    have hedited : OrgCoherent o
        (editTransaction db id (fun _ => editedRow today tx body (series.bind (·.2)).isSome)) := by
      refine hdb.edit fun hneworg => ?_
      refine editedRow_coherent (hdb id tx hget ?_) (refuse_eq_ok.mp hordered)
      exact (editedRow_keeps today tx body _).2.1.symm.trans hneworg
    exact hsync ((keepsDates_of_eq hrows).coherent hedited) (writeEdit_landsCoherent hplan hrows hdb) h
  · rw [hpartner] at h
    obtain ⟨_, _, h⟩ := bind_eq_ok.mp h
    obtain ⟨series, hplan, h⟩ := bind_eq_ok.mp h
    obtain ⟨_, _, h⟩ := bind_eq_ok.mp h
    obtain ⟨_, _, h⟩ := bind_eq_ok.mp h
    obtain ⟨_, hmirrored, h⟩ := bind_eq_ok.mp h
    obtain ⟨_, hordered, h⟩ := bind_eq_ok.mp h
    obtain ⟨written, hwrite, h⟩ := bind_eq_ok.mp h
    obtain ⟨_, _, h⟩ := bind_eq_ok.mp h
    obtain ⟨hlink, hlget, -⟩ := linkedRow_eq_some.mp (Option.filter_eq_some_iff.mp hpartner).1
    refine hsync ?_ ?_ h
    · refine (keepsDates_of_eq (writeEdit_legs hwrite)).coherent ((hdb.edit fun hneworg => ?_).edit fun hlegorg => ?_)
      · refine editedRow_coherent (hdb id tx hget ?_) (refuse_eq_ok.mp hordered)
        exact (editedRow_keeps today tx body _).2.1.symm.trans hneworg
      · exact mirroredLeg_coherent (hdb l leg hlget hlegorg) (refuse_eq_ok.mp hmirrored)
    · -- a leg plans no move
      intro move hmove
      rw [(planSeriesEdit_move hplan hmove).1] at hlink
      cases hlink

/-! ## Many rows -/

theorem bulkUpdateOne_coherent {today : Int} {req : BulkUpdateRequest} {acc : Db × BulkUpdateResult} {id : Nat}
    (h : OrgCoherent o acc.1) : OrgCoherent o (bulkUpdateOne today orgId req acc id).1 := by
  obtain ⟨db, result⟩ := acc
  unfold bulkUpdateOne
  dsimp only
  split
  · exact h
  · split
    · exact h
    · split
      · exact h
      · split
        · exact h
        · split
          · exact h
          · exact updateTransaction_coherent ‹updateTransaction _ _ _ _ _ = .ok _› h

theorem bulkUpdateTransactions_coherent {today : Int} {req : BulkUpdateRequest} (hdb : OrgCoherent o db) :
    OrgCoherent o (bulkUpdateTransactions db today orgId req).1 := by
  have hfold : ∀ (ids : List Nat) (acc : Db × BulkUpdateResult), OrgCoherent o acc.1 →
      OrgCoherent o (ids.foldl (bulkUpdateOne today orgId req) acc).1 := by
    intro ids
    induction ids with
    | nil => exact fun acc h => h
    | cons id ids ih => exact fun acc h => ih _ (bulkUpdateOne_coherent h)
  exact hfold _ _ hdb

/-! ## Reviews -/

/-- A reviewed date takes a settled row's settlement along, and is checked against a pending one's. -/
theorem reconciledRow_coherent {tx : Transaction} {edits : ReconciliationEdits} (htx : Coherent tx)
    (hchecked : ¬ (edits.date.isSome ∧ ∃ s ∈ (reconciledRow tx edits).settledDate, s < (reconciledRow tx edits).date)) :
    Coherent (reconciledRow tx edits) := by
  rcases hdate : edits.date with _ | d
  · have hsame : SameDates tx (reconciledRow tx edits) := by
      refine ⟨rfl, rfl, ?_, ?_⟩
      · show edits.date.getD tx.date = tx.date
        rw [hdate, Option.getD_none]
      · unfold reconciledRow
        rw [hdate]
    exact hsame.coherent htx
  · constructor
    · intro hs
      have hs : tx.status = .settled := hs
      unfold reconciledRow
      rw [hdate]
      dsimp only
      rw [if_pos hs]
      rfl
    · intro s hs
      by_contra hlt
      exact hchecked ⟨by rw [hdate]; rfl, s, hs, not_le.mp hlt⟩

theorem applyEdits_coherent {today : Int} {id : Nat} {tx new : Transaction} {edits : ReconciliationEdits}
    {linkTarget : Option Row} {counted : Bool} (hget : db.transactions.get? id = some tx)
    (h : applyEdits db today orgId (id, tx) edits linkTarget counted = .ok (db', new)) (hdb : OrgCoherent o db) :
    OrgCoherent o db' := by
  obtain ⟨_, _, h⟩ := bind_eq_ok.mp h
  obtain ⟨_, _, h⟩ := bind_eq_ok.mp h
  obtain ⟨db₁, hdb₁, h⟩ := bind_eq_ok.mp h
  obtain ⟨db₂, hdb₂, h⟩ := bind_eq_ok.mp h
  obtain ⟨_, _, h⟩ := bind_eq_ok.mp h
  obtain ⟨_, hordered, h⟩ := bind_eq_ok.mp h
  obtain ⟨rfl, -⟩ := Prod.mk.inj (Except.ok.inj h)
  have hreverted : KeepsDates db db₁ := keepsDates_of_eq (doIf_revert_rows hdb₁)
  have happlied : KeepsDates db₁ db₂ := keepsDates_of_eq (doIf_rows (fun _ hw => applyBalance_rows hw) hdb₂)
  refine ((hreverted.trans happlied).coherent hdb).edit fun horg => ?_
  exact reconciledRow_coherent (hdb id tx hget horg) (refuse_eq_ok.mp hordered)

theorem applyPayload_coherent {today : Int} {id : Nat} {tx : Transaction} {t : ReconciliationTransition}
    {sourcePartner : Option Row} {counted : Bool} {outcome : Transaction × Option Row}
    (hget : db.transactions.get? id = some tx)
    (h : applyPayload db today orgId (id, tx) t sourcePartner counted = .ok (db', outcome)) (hdb : OrgCoherent o db) :
    OrgCoherent o db' := by
  unfold applyPayload at h
  split at h
  · obtain ⟨⟨mid, new⟩, hmid, h⟩ := bind_eq_ok.mp h
    obtain rfl : mid = db' := (Prod.mk.inj (Except.ok.inj h)).1
    exact applyEdits_coherent hget hmid hdb
  · obtain ⟨⟨mid, matched⟩, hmid, h⟩ := bind_eq_ok.mp h
    obtain rfl : mid = db' := (Prod.mk.inj (Except.ok.inj h)).1
    iterate 5 obtain ⟨_, _, hmid⟩ := bind_eq_ok.mp hmid
    obtain rfl := (Prod.mk.inj (Except.ok.inj hmid)).1
    exact (keepsDates_setLink ..).coherent hdb
  · obtain rfl : db = db' := (Prod.mk.inj (Except.ok.inj h)).1
    exact hdb

theorem applyBalanceForTransition_rows {tx : Transaction} {source target : Bool}
    (h : applyBalanceForTransition db orgId tx source target = .ok db') : db'.transactions = db.transactions := by
  unfold applyBalanceForTransition at h
  split at h
  · rw [Except.ok.inj h]
  · split at h
    · rw [Except.ok.inj h]
    · split at h
      · exact revertBalance_rows h
      · exact applyBalance_rows h

theorem reconcileOne_coherent {today : Int} {batchId : Nat} {t : ReconciliationTransition}
    (h : reconcileOne db today orgId batchId t = .ok db') (hdb : OrgCoherent o db) : OrgCoherent o db' := by
  obtain ⟨_, _, h⟩ := bind_eq_ok.mp h
  obtain ⟨tx, htx, h⟩ := bind_eq_ok.mp h
  obtain ⟨_, _, h⟩ := bind_eq_ok.mp h
  obtain ⟨hget, -⟩ := findTransaction_eq_some.mp (found_eq_ok.mp htx)
  dsimp only at h
  split at h
  · exact Except.ok.inj h ▸ hdb
  · obtain ⟨_, _, h⟩ := bind_eq_ok.mp h
    obtain ⟨_, _, h⟩ := bind_eq_ok.mp h
    obtain ⟨⟨db₁, outcome⟩, hpayload, h⟩ := bind_eq_ok.mp h
    obtain ⟨db₂, hbalance, h⟩ := bind_eq_ok.mp h
    obtain rfl := Except.ok.inj h
    have hstate : KeepsDates db₁ (editTransaction db₁ t.transactionId (fun r => { r with reconciliationState := t.toState })) :=
      keepsDates_edit fun _ => ⟨rfl, rfl, rfl, rfl⟩
    have hkeeps : KeepsDates db₁ db₂ := hstate.trans (keepsDates_of_eq (applyBalanceForTransition_rows hbalance))
    have hcounted : KeepsDates db₂ (editBatch db₂ batchId (countTransition tx.reconciliationState t.toState)) :=
      keepsDates_of_eq rfl
    exact (hkeeps.trans hcounted).coherent (applyPayload_coherent hget hpayload hdb)

theorem reconcileRequest_coherent {today : Int} {batchId : Nat} {transitions : List ReconciliationTransition}
    (h : reconcileRequest db today orgId batchId transitions = .ok db') (hdb : OrgCoherent o db) : OrgCoherent o db' := by
  obtain ⟨_, _, h⟩ := bind_eq_ok.mp h
  obtain ⟨mid, hmid, h⟩ := bind_eq_ok.mp h
  obtain rfl := Except.ok.inj h
  have hdone : OrgCoherent o mid := foldlM_invariant (fun _ _ _ hs hI => reconcileOne_coherent hs hI) _ hmid hdb
  exact (keepsDates_closeBatchIfComplete mid batchId []).coherent hdone

/-! ## Series -/

/-- The legs a template's edit rewrites are written from the rows as they are. -/
theorem syncPendingTransferPairs_coherent {recurringId : Nat} {was r : RecurringTransaction}
    (h : syncPendingTransferPairs db orgId recurringId was r = .ok db') (hdb : OrgCoherent o db) : OrgCoherent o db' := by
  obtain ⟨_, _, h⟩ := bind_eq_ok.mp h
  obtain rfl := Except.ok.inj h
  have hfold : ∀ (pairs : List (Row × Row)) (s : Db),
      (∀ p ∈ pairs, (p.1.2.orgId = o → Coherent p.1.2) ∧ (p.2.2.orgId = o → Coherent p.2.2)) → OrgCoherent o s →
      OrgCoherent o (pairs.foldl (fun db p =>
        let legs := syncedLegs was r p.1.2 p.2.2
        editTransaction (editTransaction db p.1.1 (fun _ => legs.1)) p.2.1 (fun _ => legs.2)) s) := by
    intro pairs
    induction pairs with
    | nil => exact fun _ _ hs => hs
    | cons p pairs ih =>
      intro s hlegs hs
      obtain ⟨hexp, hinc⟩ := hlegs p List.mem_cons_self
      have hsameExp : SameDates p.1.2 (syncedLegs was r p.1.2 p.2.2).1 := ⟨rfl, rfl, rfl, rfl⟩
      have hsameInc : SameDates p.2.2 (syncedLegs was r p.1.2 p.2.2).2 := ⟨rfl, rfl, rfl, rfl⟩
      refine ih _ (fun q hq => hlegs q (List.mem_cons_of_mem _ hq)) ((hs.edit fun horg => ?_).edit fun horg => ?_)
      · exact hsameExp.coherent (hexp horg)
      · exact hsameInc.coherent (hinc horg)
  refine hfold _ db (fun p hp => ?_) hdb
  obtain ⟨⟨hexp, -⟩, hinc, -⟩ := mem_pendingTransferPairs hp
  exact ⟨hdb _ _ hexp, hdb _ _ hinc⟩

theorem updateRecurring_coherent {today : Int} {recurringId : Nat} {body : RecurringUpdate}
    (h : updateRecurring db today orgId recurringId body = .ok db') (hdb : OrgCoherent o db) : OrgCoherent o db' := by
  obtain ⟨was, _, h⟩ := bind_eq_ok.mp h
  obtain ⟨r, _, h⟩ := bind_eq_ok.mp h
  extract_lets db₁ sync db₂ at h
  have hedited : OrgCoherent o db₁ := hdb
  have hsynced : OrgCoherent o db₂ := by
    unfold db₂
    split
    · exact hedited
    · refine propagateFieldsToSeries_coherent (fun move hmove => ?_) hedited
      -- a template's edit moves no row
      have hnone : sync.dateMove = none := rfl
      rw [hnone] at hmove
      cases hmove
  split at h
  · exact syncPendingTransferPairs_coherent h hsynced
  · exact Except.ok.inj h ▸ hsynced

theorem materialiseNext_coherent {today : Int} {recurringId : Nat} {occurrenceDate : Int} {skipped : Bool}
    (h : materialiseNext db today orgId recurringId occurrenceDate skipped = .ok db') (hdb : OrgCoherent o db) :
    OrgCoherent o db' := by
  iterate 6 obtain ⟨_, _, h⟩ := bind_eq_ok.mp h
  obtain ⟨⟨mid, tx⟩, hmid, h⟩ := bind_eq_ok.mp h
  exact (advanceFrontier_keepsDates h).coherent (createOccurrence_coherent hmid hdb)

/-- A row that falls due settles on the day it was expected to, or on its date. -/
theorem settleRow_coherent {row : Row} (h : settleRow orgId db row = .ok db') (hdb : OrgCoherent o db) :
    OrgCoherent o db' := by
  refine (keepsDates_of_eq (applyBalance_rows h)).coherent ?_
  intro i t ht horg
  obtain ⟨a, ha, rfl⟩ := Table.get?_modify_eq_some.mp ht
  split at horg
  · rw [if_pos ‹_›]
    refine ⟨fun _ => rfl, fun s hs => ?_⟩
    have hle : a.date ≤ a.settledDate.getD a.date := by
      rcases hwas : a.settledDate with _ | d
      · exact le_rfl
      · exact (hdb i a ha horg).ordered d hwas
    exact Option.mem_some_iff.mp hs ▸ hle
  · rw [if_neg ‹_›]
    exact hdb i a ha horg

theorem settleDueAuto_coherent {today : Int} {n : Nat} (h : settleDueAuto db today orgId = .ok (db', n))
    (hdb : OrgCoherent o db) : OrgCoherent o db' := by
  obtain ⟨_, _, h⟩ := bind_eq_ok.mp h
  obtain ⟨mid, hmid, h⟩ := bind_eq_ok.mp h
  obtain rfl : mid = db' := (Prod.mk.inj (Except.ok.inj h)).1
  exact foldlM_invariant (fun _ _ _ hs hI => settleRow_coherent hs hI) _ hmid hdb

theorem generateFor_coherent {today : Int} {recurringId : Nat} {pStart periodEnd : Int} :
    ∀ (fuel : Nat) {db db' : Db} {tally tally' : GenerateTally},
      generateFor today orgId recurringId pStart periodEnd fuel (db, tally) = .ok (db', tally') →
      OrgCoherent o db → OrgCoherent o db'
  | 0, db, db', tally, tally', h, hdb => by
    obtain rfl : db = db' := (Prod.mk.inj (Except.ok.inj h)).1
    exact hdb
  | fuel + 1, db, db', tally, tally', h, hdb => by
    unfold generateFor at h
    split at h
    · obtain rfl : db = db' := (Prod.mk.inj (Except.ok.inj h)).1
      exact hdb
    · split at h
      · dsimp only at h
        split at h
        · obtain ⟨mid, hmid, h⟩ := bind_eq_ok.mp h
          exact generateFor_coherent fuel h ((advanceFrontier_keepsDates hmid).coherent hdb)
        · obtain ⟨⟨mid, tx⟩, hmid, h⟩ := bind_eq_ok.mp h
          obtain ⟨moved, hmoved, h⟩ := bind_eq_ok.mp h
          exact generateFor_coherent fuel h
            ((advanceFrontier_keepsDates hmoved).coherent (createOccurrence_coherent hmid hdb))
      · obtain rfl : db = db' := (Prod.mk.inj (Except.ok.inj h)).1
        exact hdb

theorem generateDueTransactions_coherent {today : Int} {result : GenerateResult}
    (h : generateDueTransactions db today orgId = .ok (db', result)) (hdb : OrgCoherent o db) : OrgCoherent o db' := by
  unfold generateDueTransactions at h
  dsimp only at h
  obtain ⟨⟨settled, n⟩, hsettled, h⟩ := bind_eq_ok.mp h
  obtain ⟨⟨done, tally⟩, hloop, h⟩ := bind_eq_ok.mp h
  obtain rfl : done = db' := (Prod.mk.inj (Except.ok.inj h)).1
  exact foldlM_invariant (I := fun acc : Db × GenerateTally => OrgCoherent o acc.1)
    (fun acc recurringId acc' hstep hI => generateFor_coherent maxCatchupIterations (by exact hstep) hI) _ hloop
    (settleDueAuto_coherent hsettled hdb)

/-! ## Every call -/

/-- **A call keeps every org's rows coherent**, whichever org it is made for. -/
theorem handle_coherent {call : Call} (h : handle db call = .ok db') (hdb : OrgCoherent o db) : OrgCoherent o db' := by
  cases call with
  | createTransaction orgId body => exact createTransaction_coherent h hdb
  | createTransfer orgId body => exact createTransfer_coherent h hdb
  | updateTransaction today orgId id body => exact updateTransaction_coherent h hdb
  | bulkUpdateTransactions today orgId req => exact Except.ok.inj h ▸ bulkUpdateTransactions_coherent hdb
  | deleteTransaction orgId id =>
    obtain ⟨_, h⟩ := map_fst_ok h
    exact (deleteTransaction_keepsDates h).coherent hdb
  | bulkDeleteTransactions orgId ids =>
    obtain ⟨_, h⟩ := map_fst_ok h
    exact (bulkDeleteTransactions_keepsDates h).coherent hdb
  | pairExistingTransactions orgId expenseId incomeId recategorize transferCategoryId =>
    exact (pairExistingTransactions_keepsDates h).coherent hdb
  | convertAndCreateLeg orgId sourceId destinationAccountId recategorize transferCategoryId =>
    exact convertAndCreateLeg_coherent h hdb
  | unpairTransactions orgId id expenseFallbackCategoryId incomeFallbackCategoryId =>
    exact (unpairTransactions_keepsDates h).coherent hdb
  | adjustAccountBalance today orgId accountId targetBalance reason => exact adjustAccountBalance_coherent h hdb
  | claimConfirm orgId accountId => exact (claimConfirm_keepsDates h).coherent hdb
  | confirmChunk orgId batchId rows completed => exact Except.ok.inj h ▸ confirmChunk_coherent hdb
  | reconcileRequest today orgId batchId transitions => exact reconcileRequest_coherent h hdb
  | createRecurring today orgId body => exact (createRecurring_keepsDates h).coherent hdb
  | promoteToRecurring today orgId id body => exact (promoteToRecurring_keepsDates h).coherent hdb
  | updateRecurring today orgId recurringId body => exact updateRecurring_coherent h hdb
  | stopRecurring today orgId recurringId =>
    obtain ⟨_, h⟩ := map_fst_ok h
    exact (stopRecurring_keepsDates h).coherent hdb
  | deleteRecurring today orgId recurringId =>
    obtain ⟨_, h⟩ := map_fst_ok h
    exact (deleteRecurring_keepsDates h).coherent hdb
  | skipOccurrence orgId id => exact (skipOccurrence_keepsDates h).coherent hdb
  | materialiseNext today orgId recurringId occurrenceDate skipped => exact materialiseNext_coherent h hdb
  | generateDueTransactions today orgId =>
    obtain ⟨_, h⟩ := map_fst_ok h
    exact generateDueTransactions_coherent h hdb

theorem after_coherent (calls : List Call) (hdb : OrgCoherent o db) : OrgCoherent o (after db calls) :=
  run_invariant (fun _ _ _ hI h => handle_coherent h hI) calls hdb

/-- **Settlement dates stay coherent.** Whatever calls the ledger has served, for the org or
any other and at any clocks, the org's settled rows have a settlement date and none of its
rows settles before its date; and an edit that is refused changes nothing. -/
theorem settlement_dates_coherent (hnone : ∀ i t, db.transactions.get? i = some t → t.orgId ≠ o) (calls : List Call) :
    OrgCoherent o (after db calls) ∧
      ∀ today orgId id body e, updateTransaction (after db calls) today orgId id body = .error e →
        after db (calls ++ [.updateTransaction today orgId id body]) = after db calls := by
  constructor
  · exact after_coherent calls fun i t ht horg => absurd horg (hnone i t ht)
  · intro today orgId id body e hrefused
    have hhandled : handle (after db calls) (.updateTransaction today orgId id body) = .error e := hrefused
    rw [after, run_concat, serve, hhandled]

/-- An org with a card for its rent. -/
def rentBooks : Db :=
  { organizations := Table.empty.insert {}
    accounts := Table.empty.insert { orgId := 1, name := "Current" }
    categories := Table.empty.insert { orgId := 1, name := "Rent", type := .expense } }

/-- A series that is moved as a whole, two days on, and one row of it moved past its settlement. -/
def rentCalls : List Call :=
  [.createTransaction 1
      { accountId := 1, categoryId := 1, description := "Rent", amount := ⟨90000, by decide⟩, type := .expense
        status := .pending, date := 739433, settledDate := some 739435 },
    .promoteToRecurring 739433 1 1 { frequency := .monthly, nextDueDate := 739464, autoSettle := false },
    .materialiseNext 739433 1 1 739464 false,
    .updateTransaction 739433 1 2 { settledDate := some (some 739469) },
    .updateTransaction 739433 1 1 { date := some 739435, seriesScope := some .future },
    .updateTransaction 739433 1 1 { date := some 739439 }]

theorem rentBooks_empty : ∀ i t, rentBooks.transactions.get? i = some t → t.orgId ≠ 1 := by
  intro i t ht
  rw [show rentBooks.transactions = Table.empty from rfl, Table.get?_empty] at ht
  cases ht

/-- Both rows and both settlements move by two days, and the last edit is refused. -/
theorem settlement_dates_coherent_rent :
    (after rentBooks rentCalls).transactions.rows.map (fun p => (p.2.date, p.2.settledDate)) =
        [(739435, some 739437), (739466, some 739471)] ∧
      OrgCoherent 1 (after rentBooks rentCalls) :=
  ⟨by decide +kernel, (settlement_dates_coherent rentBooks_empty rentCalls).1⟩

end BetterDecision
