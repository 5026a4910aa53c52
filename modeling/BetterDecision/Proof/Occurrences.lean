import BetterDecision.Proof.Generation
import BetterDecision.Proof.Imports
import BetterDecision.Proof.TransferSync

/-!
# What a series writes

The rest of `recurring_service`: a template edited, with its pending rows and pairs after it,
a template stopped or deleted, and its occurrences written, skipped and settled. Each posts
what it moves, or moves rows and counters together where rows are deleted.

A consumed occurrence is the one step that spends an instalment (`advanceFrontier_posted`);
nothing else here touches what a template has spent.
-/

namespace BetterDecision

variable {rules : Rules} {db db' : Db} {today : Int} {orgId recurringId : Nat}

/-! ## A template edited -/

/-- What a template edit leaves of the template's progress. -/
theorem updatedTemplate_keeps {was r : RecurringTransaction} {body : RecurringUpdate}
    (h : updatedTemplate db today orgId recurringId was body = .ok r) :
    (r.occurrencesElapsed = was.occurrencesElapsed ∧ r.lastSpentDate = was.lastSpentDate) ∧
      ((∀ s ∈ was.lastSpentDate, s < was.nextDueDate) → ∀ s ∈ was.lastSpentDate, s < r.nextDueDate) := by
  obtain ⟨-, -, h⟩ := bind_eq_ok.mp h
  obtain ⟨-, -, h⟩ := bind_eq_ok.mp h
  obtain ⟨-, -, h⟩ := bind_eq_ok.mp h
  obtain ⟨-, -, h⟩ := bind_eq_ok.mp h
  obtain ⟨resumed, hresume, h⟩ := bind_eq_ok.mp h
  obtain ⟨_, -, h⟩ := bind_eq_ok.mp h
  obtain ⟨_, hclear, h⟩ := bind_eq_ok.mp h
  obtain rfl := Except.ok.inj h
  obtain ⟨next, hnext, rfl⟩ := resumeTemplate_ok hresume
  refine ⟨⟨rfl, rfl⟩, fun hahead s hs => ?_⟩
  have hclears := checkIf_eq_ok.mp hclear
  dsimp only at hclears ⊢
  have hwith : (withCategory (withFields was body) body).nextDueDate = body.nextDueDate.getD was.nextDueDate := rfl
  rw [hwith] at hnext
  rcases hdate : body.nextDueDate with _ | d
  · -- the user names no frontier: a resume walks it on, never back
    rw [hdate, Option.getD_none] at hnext
    exact lt_of_lt_of_le (hahead s hs) hnext
  · by_cases hsame : next = was.nextDueDate
    · rw [hsame]
      exact hahead s hs
    · exact lt_of_checkFrontier (hclears ⟨by rw [hdate]; rfl, hsame⟩) hs

theorem updatedTemplate_accounts {was r : RecurringTransaction} {body : RecurringUpdate}
    (h : updatedTemplate db today orgId recurringId was body = .ok r) :
    r.accountId = body.accountId.getD was.accountId ∧ r.toAccountId = body.toAccountId.or was.toAccountId := by
  obtain ⟨-, -, h⟩ := bind_eq_ok.mp h
  obtain ⟨-, -, h⟩ := bind_eq_ok.mp h
  obtain ⟨-, -, h⟩ := bind_eq_ok.mp h
  obtain ⟨-, -, h⟩ := bind_eq_ok.mp h
  obtain ⟨resumed, hresume, h⟩ := bind_eq_ok.mp h
  obtain ⟨-, -, h⟩ := bind_eq_ok.mp h
  obtain ⟨-, -, h⟩ := bind_eq_ok.mp h
  obtain rfl := Except.ok.inj h
  obtain ⟨next, -, rfl⟩ := resumeTemplate_ok hresume
  exact ⟨rfl, rfl⟩

/-! ## Its pending pairs -/

/-- Where the expense leg ends. -/
def syncedSource (was r : RecurringTransaction) (exp inc : Transaction) : Nat :=
  if exp.accountId = was.accountId ∧ r.accountId ≠ inc.accountId then r.accountId else exp.accountId

/-- Where the income leg ends. -/
def syncedDestination (was r : RecurringTransaction) (exp inc : Transaction) : Nat :=
  if some inc.accountId = was.toAccountId ∧ r.toAccountId ≠ some (syncedSource was r exp inc)
  then r.toAccountId.getD inc.accountId else inc.accountId

theorem syncedSource_ne {was r : RecurringTransaction} {exp inc : Transaction} (h : exp.accountId ≠ inc.accountId) :
    syncedSource was r exp inc ≠ inc.accountId := by
  unfold syncedSource
  split
  · exact (‹_ ∧ _›).2
  · exact h

/-- **The two legs of a synced pair never meet on one account.** -/
theorem syncedSource_ne_destination {was r : RecurringTransaction} {exp inc : Transaction}
    (h : exp.accountId ≠ inc.accountId) : syncedSource was r exp inc ≠ syncedDestination was r exp inc := by
  have hsource : syncedSource was r exp inc ≠ inc.accountId := syncedSource_ne h
  unfold syncedDestination
  split
  · rename_i hmoves
    rcases hto : r.toAccountId with _ | t
    · exact hsource
    · intro heq
      exact hmoves.2 (by rw [hto, heq]; rfl)
  · exact hsource

/-- A template that keeps its accounts moves no leg. -/
theorem synced_of_kept {was r : RecurringTransaction} (exp inc : Transaction) (hsource : r.accountId = was.accountId)
    (hdestination : r.toAccountId = was.toAccountId) :
    syncedSource was r exp inc = exp.accountId ∧ syncedDestination was r exp inc = inc.accountId := by
  constructor
  · unfold syncedSource
    split
    · rename_i hmoves
      rw [hsource, hmoves.1]
    · rfl
  · unfold syncedDestination
    split
    · rename_i hmoves
      rw [hdestination, ← hmoves.1, Option.getD_some]
    · rfl

/-- The legs a sync writes are legs, on accounts of one currency if it moves none. -/
theorem Legs.synced {was r : RecurringTransaction} {exp inc : Transaction} (h : Legs rules exp inc)
    (hstay : rules.sameCurrency → r.accountId = was.accountId ∧ r.toAccountId = was.toAccountId) :
    Legs rules (syncedLegs was r exp inc).1 (syncedLegs was r exp inc).2 where
  org := h.org
  expense := h.expense
  income := h.income
  amount := by
    show (if _ then r.amount else exp.amount) = (if _ then r.amount else inc.amount)
    split
    · rfl
    · exact h.amount
  accounts := syncedSource_ne_destination h.accounts
  currency := by
    intro hsame
    obtain ⟨hsource, hdestination⟩ := hstay hsame
    obtain ⟨hexp, hinc⟩ := synced_of_kept exp inc hsource hdestination
    show rules.currency (syncedSource was r exp inc) = rules.currency (syncedDestination was r exp inc)
    rw [hexp, hinc]
    exact h.currency hsame

/-- A pending row weighs what its batch counts, whatever else is written to it. -/
theorem weigh_of_pending {rows : Table Transaction} {i : Nat} {a a' : Transaction} (ha : a.status = .pending)
    (hstatus : a'.status = a.status) (horg : a'.orgId = a.orgId) (hbatch : a'.importBatchId = a.importBatchId)
    (hstate : a'.reconciliationState = a.reconciliationState) : weigh rows (i, a') = weigh rows (i, a) := by
  unfold weigh
  refine Prod.ext ?_ (enrolled_congr horg hbatch hstate)
  show booked rows (i, a') = booked rows (i, a)
  rw [booked_of_pending (hstatus.trans ha), booked_of_pending ha]

/-- A pending pair of the series, as a sync finds it. -/
structure OpenPair (db : Db) (p : Row × Row) : Prop where
  linked : Mutual db.transactions p.1.1 p.1.2 p.2.1 p.2.2
  apart : p.1.1 ≠ p.2.1
  spends : p.1.2.type = .expense
  expPending : p.1.2.status = .pending
  incPending : p.2.2.status = .pending

theorem PendingPair.openPair {exp inc : Row} (h : PendingPair db orgId recurringId exp inc) : OpenPair db (exp, inc) where
  linked := ⟨h.expLeg.get, h.incLeg.get, h.there, h.back⟩
  apart := h.apart.symm
  spends := h.spends
  expPending := h.expLeg.pending
  incPending := h.incLeg.pending

/-- The legs of one pending pair rewritten. -/
theorem wrote_syncPair {was r : RecurringTransaction} {p : Row × Row} (h : OpenPair db p)
    (hstay : rules.sameCurrency → r.accountId = was.accountId ∧ r.toAccountId = was.toAccountId) :
    Wrote rules db 0 0 (editTransaction (editTransaction db p.1.1 (fun _ => (syncedLegs was r p.1.2 p.2.2).1)) p.2.1
      (fun _ => (syncedLegs was r p.1.2 p.2.2).2)) := by
  have hwrote : Wrote rules db
      ((weigh db.transactions (p.1.1, (syncedLegs was r p.1.2 p.2.2).1) - weigh db.transactions (p.1.1, p.1.2)) +
        (weigh db.transactions (p.2.1, (syncedLegs was r p.1.2 p.2.2).2) - weigh db.transactions (p.2.1, p.2.2))) 0
      (editTransaction (editTransaction db p.1.1 (fun _ => (syncedLegs was r p.1.2 p.2.2).1)) p.2.1
        (fun _ => (syncedLegs was r p.1.2 p.2.2).2)) := by
    refine wrote_editLegs h.linked h.apart ⟨rfl, rfl⟩ ⟨rfl, rfl⟩ (fun hlegs => hlegs.synced hstay) fun hlegs => ?_
    -- the leg that spends is the expense leg, so the other order is none
    have hincome := hlegs.income
    rw [h.spends] at hincome
    cases hincome
  have hexp : weigh db.transactions (p.1.1, (syncedLegs was r p.1.2 p.2.2).1) = weigh db.transactions (p.1.1, p.1.2) :=
    weigh_of_pending h.expPending rfl rfl rfl rfl
  have hinc : weigh db.transactions (p.2.1, (syncedLegs was r p.1.2 p.2.2).2) = weigh db.transactions (p.2.1, p.2.2) :=
    weigh_of_pending h.incPending rfl rfl rfl rfl
  rwa [hexp, hinc, sub_self, sub_self, add_zero] at hwrote

/-- No row of one pair is a row of the other. -/
def Apart (p q : Row × Row) : Prop :=
  (q.1.1 ≠ p.1.1 ∧ q.1.1 ≠ p.2.1) ∧ q.2.1 ≠ p.1.1 ∧ q.2.1 ≠ p.2.1

theorem OpenPair.edit {p q : Row × Row} {exp inc : Transaction} (h : OpenPair db q) (hd : Apart p q) :
    OpenPair (editTransaction (editTransaction db p.1.1 (fun _ => exp)) p.2.1 (fun _ => inc)) q := by
  have hget : ∀ {i : Nat} {t : Transaction}, i ≠ p.1.1 → i ≠ p.2.1 → db.transactions.get? i = some t →
      (editTransaction (editTransaction db p.1.1 (fun _ => exp)) p.2.1 (fun _ => inc)).transactions.get? i = some t := by
    intro i t he hi ht
    show ((db.transactions.modify p.1.1 (fun _ => exp)).modify p.2.1 (fun _ => inc)).get? i = some t
    rw [Table.get?_modify_of_ne hi, Table.get?_modify_of_ne he, ht]
  exact ⟨⟨hget hd.1.1 hd.1.2 h.linked.left, hget hd.2.1 hd.2.2 h.linked.right, h.linked.there, h.linked.back⟩,
    h.apart, h.spends, h.expPending, h.incPending⟩

/-- **The pairs of a series rewritten, one after the other: nothing to account for.** -/
theorem wrote_syncPairs {was r : RecurringTransaction}
    (hstay : rules.sameCurrency → r.accountId = was.accountId ∧ r.toAccountId = was.toAccountId)
    {pairs : List (Row × Row)} (hdisjoint : pairs.Pairwise Apart) :
    ∀ {db : Db}, (∀ p ∈ pairs, OpenPair db p) →
      Wrote rules db 0 0 (pairs.foldl (fun db p =>
        let legs := syncedLegs was r p.1.2 p.2.2
        editTransaction (editTransaction db p.1.1 (fun _ => legs.1)) p.2.1 (fun _ => legs.2)) db) := by
  induction hdisjoint with
  | nil => exact fun _ => .refl _
  | @cons p pairs hp _ ih =>
    intro db hopen
    refine (ih fun q hq => ?_).after (wrote_syncPair (hopen p List.mem_cons_self) hstay)
    exact (hopen q (List.mem_cons_of_mem _ hq)).edit (hp q hq)

/-- Two pending pairs of a series share no row. -/
theorem pendingTransferPairs_disjoint (ho : Orderly rules db.books) :
    (pendingTransferPairs db orgId recurringId).Pairwise Apart := by
  -- each pair is listed under its expense row, and each row once
  have hlisted : (pendingTransferPairs db orgId recurringId).Pairwise (fun p q => p.1.1 < q.1.1) := by
    unfold pendingTransferPairs
    extract_lets legs
    have hsorted : (legs.map Prod.fst).Pairwise (· < ·) := db.transactions.sorted.sublist (List.filter_sublist.map Prod.fst)
    rw [List.pairwise_filterMap]
    refine (List.pairwise_map.mp hsorted).imp ?_
    intro row row' hlt p hp q hq
    split at hp
    · split at hp
      · split at hq
        · split at hq
          · rw [← Option.some.inj hp, ← Option.some.inj hq]
            exact hlt
          · cases hq
        · cases hq
      · cases hp
    · cases hp
  refine hlisted.imp_of_mem ?_
  rintro ⟨exp, inc⟩ ⟨exp', inc'⟩ hp hq hlt
  have hpair := mem_pendingTransferPairs_iff.mp hp
  have hpair' := mem_pendingTransferPairs_iff.mp hq
  have hearns : inc.2.type = .income := by
    rcases ho.paired _ _ _ _ hpair.openPair.linked with ⟨hlegs, -⟩ | ⟨hlegs, -⟩
    · exact hlegs.income
    · have hincome := hlegs.income
      rw [hpair.spends] at hincome
      cases hincome
  obtain ⟨-, hinc, hcross, hcross'⟩ := hpair.eq_of_shared hearns hpair'
  refine ⟨⟨fun heq => absurd heq (by omega), hcross⟩, hcross', fun heq => ?_⟩
  obtain ⟨hsame, -⟩ := hinc heq
  rw [hsame] at hlt
  exact lt_irrefl _ hlt

theorem syncPendingTransferPairs_posted {was r : RecurringTransaction} (ho : Orderly rules db.books)
    (hstay : rules.sameCurrency → r.accountId = was.accountId ∧ r.toAccountId = was.toAccountId)
    (h : syncPendingTransferPairs db orgId recurringId was r = .ok db') : Posted rules db db' := by
  obtain ⟨-, -, h⟩ := bind_eq_ok.mp h
  rw [← Except.ok.inj h]
  refine (wrote_syncPairs hstay (pendingTransferPairs_disjoint ho) fun p hp => ?_).quiet
  exact (mem_pendingTransferPairs_iff.mp hp).openPair

/-- **An edited template posts what it moves.** -/
theorem updateRecurring_posted {body : RecurringUpdate} (ho : Orderly rules db.books)
    (hstay : rules.sameCurrency → body.accountId = none ∧ body.toAccountId = none)
    (h : updateRecurring db today orgId recurringId body = .ok db') : Posted rules db db' := by
  obtain ⟨was, hwas, h⟩ := bind_eq_ok.mp h
  obtain ⟨r, hr, h⟩ := bind_eq_ok.mp h
  obtain ⟨hget, -⟩ := Option.filter_eq_some_iff.mp (found_eq_ok.mp hwas)
  obtain ⟨hkeeps, hahead⟩ := updatedTemplate_keeps hr
  have hamended : Posted rules db (editRecurring db recurringId (fun _ => r)) := by
    refine (wrote_amend ?_ ?_).quiet
    · intro r' hr'
      obtain rfl : was = r' := by rw [hget] at hr'; exact Option.some.inj hr'
      exact hkeeps
    · intro r' hr'
      obtain rfl : was = r' := by rw [hget] at hr'; exact Option.some.inj hr'
      exact hahead
  have hsynced : Posted rules db (if (syncOfTemplate was r).isEmpty then editRecurring db recurringId (fun _ => r)
      else propagateFieldsToSeries (editRecurring db recurringId (fun _ => r)) orgId recurringId (syncOfTemplate was r)) := by
    split
    · exact hamended
    · exact hamended.trans (wrote_propagateFieldsToSeries fun hmove => by cases hmove).quiet
  dsimp only at h
  split at h
  · refine hsynced.trans (syncPendingTransferPairs_posted (hsynced.orderly ho) (fun hsame => ?_) h)
    obtain ⟨haccount, hto⟩ := updatedTemplate_accounts hr
    obtain ⟨hnone, hnoneTo⟩ := hstay hsame
    rw [haccount, hto, hnone, hnoneTo]
    exact ⟨rfl, rfl⟩
  · rw [← Except.ok.inj h]
    exact hsynced

/-! ## A template stopped or deleted -/

theorem stopRecurring_keeps {outcome : PendingRemovalResult} (ho : Orderly rules db.books)
    (h : stopRecurring db today orgId recurringId = .ok (db', outcome)) :
    Moved rules db db' ∧ Recounted db db' := by
  obtain ⟨was, -, h⟩ := bind_eq_ok.mp h
  have hstopped : Posted rules db (editRecurring db recurringId (fun r => { r with isActive := false })) :=
    (wrote_amend (f := fun r => { r with isActive := false }) (fun _ _ => ⟨rfl, rfl⟩) fun _ _ hahead => hahead).quiet
  have hlinked := (hstopped.orderly ho).linked
  obtain ⟨locked, ids, importBatches, hr, -, hdeleted⟩ :
      ∃ locked ids importBatches, Removal _ orgId locked ids ∧ _ ∧ Deleted rules _ ids _ :=
    removePendingTransactions_deleted hlinked today recurringId
  dsimp only at h
  generalize removePendingTransactions _ today orgId recurringId = removed at hdeleted h
  obtain ⟨db₁, outcome₁⟩ := removed
  have hcleared : Posted rules db₁ (updateRows db₁ orgId (fun _ t => t.recurringId == some recurringId)
      (fun t => { t with recurringId := none })) := (wrote_updateRows fun _ a _ _ => aside_unlinkSeries a).quiet
  obtain rfl := (Prod.mk.inj (Except.ok.inj h)).1
  have hmoved := hstopped.moved.trans hdeleted.moved
  refine ⟨hmoved.trans hcleared.moved, ?_⟩
  exact ((hstopped.recounted ho).trans hdeleted.recounted).trans (hcleared.recounted (hmoved.orderly ho))

theorem deleteRecurring_keeps {outcome : PendingRemovalResult} (ho : Orderly rules db.books)
    (h : deleteRecurring db today orgId recurringId = .ok (db', outcome)) :
    Moved rules db db' ∧ Recounted db db' := by
  obtain ⟨was, -, h⟩ := bind_eq_ok.mp h
  obtain ⟨locked, ids, importBatches, hr, -, hdeleted⟩ :
      ∃ locked ids importBatches, Removal db orgId locked ids ∧ _ ∧ Deleted rules db ids _ :=
    removePendingTransactions_deleted ho.linked today recurringId
  generalize removePendingTransactions db today orgId recurringId = removed at hdeleted h
  obtain ⟨db₁, outcome₁⟩ := removed
  have hretired : Wrote rules db₁ 0 0 { db₁ with recurring := db₁.recurring.remove (· == recurringId) } :=
    wrote_move (.retire (b := db₁.books) (· == recurringId)) rfl rfl
  have hcleared : Wrote rules { db₁ with recurring := db₁.recurring.remove (· == recurringId) } 0 0
      { db₁ with
        recurring := db₁.recurring.remove (· == recurringId)
        transactions := db₁.transactions.mapRows (fun _ t =>
          if t.recurringId = some recurringId then { t with recurringId := none } else t) } :=
    wrote_aside fun _ a _ => aside_if fun _ => aside_unlinkSeries a
  obtain rfl := (Prod.mk.inj (Except.ok.inj h)).1
  have hquiet := (hcleared.after hretired).quiet
  exact ⟨hdeleted.moved.trans hquiet.moved, hdeleted.recounted.trans (hquiet.recounted (hdeleted.moved.orderly ho))⟩

/-! ## Occurrences -/

variable {r : RecurringTransaction} {due : Int}

/-- An occurrence is settled on its account in the same breath, and a skipped one never. -/
theorem createOccurrence_posted {settle skipped : Bool} {tx : Transaction} (hcur : currencyOf db = rules.currency)
    (hskipped : skipped = true → settle = false)
    (h : createOccurrence db today orgId recurringId r due settle skipped = .ok (db', tx)) :
    Posted rules db db' := by
  unfold createOccurrence at h
  extract_lets status base at h
  have hpending : skipped = true → status = .pending := fun hs => by simp [status, hskipped hs]
  have hnew : ∀ (type : TransactionType) (accountId : Nat), NewRow orgId { base with type, accountId } := by
    intro type accountId
    refine ⟨rfl, rfl, rfl, ?_⟩
    cases hs : skipped with
    | true => exact .inr (hpending hs)
    | false => exact .inl (by simp [base, hs, ReconciliationState.isReverted])
  split at h
  · obtain ⟨toAccountId, -, h⟩ := bind_eq_ok.mp h
    obtain ⟨db₁, hlink, h⟩ := bind_eq_ok.mp h
    obtain ⟨db₂, hdb₂, h⟩ := bind_eq_ok.mp h
    obtain ⟨db₃, hdb₃, h⟩ := bind_eq_ok.mp h
    obtain rfl := (Prod.mk.inj (Except.ok.inj h)).1
    exact wrote_transfer db hcur (hnew .expense r.accountId) (hnew .income toAccountId) rfl rfl hlink hdb₂ hdb₃
  · obtain ⟨db₁, hdb₁, h⟩ := bind_eq_ok.mp h
    obtain rfl := (Prod.mk.inj (Except.ok.inj h)).1
    have hrow : NewRow orgId base := hnew r.type r.accountId
    obtain rfl := doIf_applyRow_ok hrow.org hdb₁
    exact ((wrote_insertNew db hrow).credited _).posted (by rw [zero_add])

/-- **Consuming an occurrence spends one instalment of those left.** -/
theorem advanceFrontier_posted (hr : db.recurring.get? recurringId = some r) (hleft : hasRemainingOccurrences r)
    (h : advanceFrontier db recurringId r r.nextDueDate = .ok db') : Posted rules db db' := by
  obtain ⟨next, hnext, h⟩ := bind_eq_ok.mp h
  rw [← Except.ok.inj h]
  have hspend : Move rules db.books 0 { db.books with
      templates := db.recurring.modify recurringId (fun r => spent r next)
      spends := db.spends ++ [{ recurringId, date := r.nextDueDate, remaining := remainingOccurrences r }] } :=
    .spend (b := db.books) hr hleft (lt_of_advanceDate hnext)
  have hsame : db.recurring.modify recurringId (fun r => spent r next) =
      db.recurring.modify recurringId (fun _ => spent r next) := by
    refine Table.mapRows_congr fun i a ha => ?_
    split
    · rename_i hi
      rw [hi, hr] at ha
      rw [Option.some.inj ha]
    · rfl
  rw [hsame, ← modify_spent hr next] at hspend
  have hwrote : Wrote rules db 0 0 { db with
      recurring := db.recurring.modify recurringId (fun r' =>
        { r' with nextDueDate := next, occurrencesElapsed := r'.occurrencesElapsed + 1, lastSpentDate := some r.nextDueDate })
      spends := db.spends ++ [{ recurringId, date := r.nextDueDate, remaining := remainingOccurrences r }] } :=
    wrote_move hspend rfl rfl
  exact hwrote.quiet

theorem linkPair_recurring {expense income : Row} {recategorize : Bool} {transferCategoryId : Option Nat}
    (h : linkPair db expense income recategorize transferCategoryId = .ok db') : db'.recurring = db.recurring := by
  obtain ⟨-, db₁, hdb₁, rfl⟩ := linkPair_ok h
  rcases hdb₁ with rfl | ⟨categories, c, rfl⟩ <;> rfl

theorem doIf_applyRow_recurring {c : Bool} {tx : Transaction}
    (h : doIf c (fun db => applyRow db orgId tx) db = .ok db') : db'.recurring = db.recurring := by
  unfold doIf at h
  split at h
  · rw [applyBalance_ok h]
    rfl
  · rw [← Except.ok.inj h]

/-- Writing an occurrence leaves the templates as they are. -/
theorem createOccurrence_recurring {settle skipped : Bool} {tx : Transaction}
    (h : createOccurrence db today orgId recurringId r due settle skipped = .ok (db', tx)) :
    db'.recurring = db.recurring := by
  unfold createOccurrence at h
  extract_lets status base at h
  split at h
  · obtain ⟨toAccountId, -, h⟩ := bind_eq_ok.mp h
    obtain ⟨db₁, hlink, h⟩ := bind_eq_ok.mp h
    obtain ⟨db₂, hdb₂, h⟩ := bind_eq_ok.mp h
    obtain ⟨db₃, hdb₃, h⟩ := bind_eq_ok.mp h
    obtain rfl := (Prod.mk.inj (Except.ok.inj h)).1
    have hlinked := linkPair_recurring hlink
    exact ((doIf_applyRow_recurring hdb₃).trans (doIf_applyRow_recurring hdb₂)).trans hlinked
  · obtain ⟨db₁, hdb₁, h⟩ := bind_eq_ok.mp h
    obtain rfl := (Prod.mk.inj (Except.ok.inj h)).1
    have hpaid := doIf_applyRow_recurring hdb₁
    exact hpaid

theorem materialiseNext_posted {occurrenceDate : Int} {skipped : Bool} (hcur : currencyOf db = rules.currency)
    (h : materialiseNext db today orgId recurringId occurrenceDate skipped = .ok db') : Posted rules db db' := by
  obtain ⟨r, hr, h⟩ := bind_eq_ok.mp h
  obtain ⟨_, -, h⟩ := bind_eq_ok.mp h
  obtain ⟨_, -, h⟩ := bind_eq_ok.mp h
  obtain ⟨_, hleft, h⟩ := bind_eq_ok.mp h
  obtain ⟨_, -, h⟩ := bind_eq_ok.mp h
  obtain ⟨_, -, h⟩ := bind_eq_ok.mp h
  obtain ⟨⟨db₁, tx⟩, hcreated, h⟩ := bind_eq_ok.mp h
  obtain ⟨hget, -⟩ := Option.filter_eq_some_iff.mp (found_eq_ok.mp hr)
  refine (createOccurrence_posted hcur (fun _ => rfl) hcreated).trans (advanceFrontier_posted ?_ ?_ h)
  · rw [createOccurrence_recurring hcreated]
    exact hget
  · exact not_not.mp (refuse_eq_ok.mp hleft)

/-- A skipped row was pending, in no batch, and is in no balance before or after. -/
theorem skipOccurrence_posted {id : Nat} (h : skipOccurrence db orgId id = .ok db') : Posted rules db db' := by
  obtain ⟨tx, htx, h⟩ := bind_eq_ok.mp h
  obtain ⟨_, -, h⟩ := bind_eq_ok.mp h
  obtain ⟨_, hpending, h⟩ := bind_eq_ok.mp h
  obtain ⟨_, -, h⟩ := bind_eq_ok.mp h
  obtain ⟨_, hbatch, h⟩ := bind_eq_ok.mp h
  obtain ⟨_, hlink, h⟩ := bind_eq_ok.mp h
  obtain ⟨hget, -⟩ := findTransaction_eq_some.mp (found_eq_ok.mp htx)
  have hstatus : tx.status = .pending := not_not.mp (refuse_eq_ok.mp hpending)
  have hunenrolled : tx.importBatchId = none := by simpa using refuse_eq_ok.mp hbatch
  have hunlinked : tx.linkedTransactionId = none := by simpa using refuse_eq_ok.mp hlink
  split at h
  · cases h
  · rw [← Except.ok.inj h]
    have hwrote : Wrote rules db (weigh db.transactions (id, { tx with reconciliationState := .skipped }) -
        weigh db.transactions (id, tx)) 0
        (editTransaction db id (fun t => { t with reconciliationState := .skipped })) := by
      refine wrote_edit hget rfl rfl rfl fun j c hm => ?_
      have hthere := hm.there
      rw [hunlinked] at hthere
      cases hthere
    have hsame : weigh db.transactions (id, { tx with reconciliationState := .skipped }) =
        weigh db.transactions (id, tx) := by
      have henrolled : enrolled { tx with reconciliationState := .skipped } = 0 := enrolled_of_unenrolled hunenrolled
      have hbooked : booked db.transactions (id, { tx with reconciliationState := .skipped }) = 0 :=
        booked_of_pending hstatus
      unfold weigh
      rw [henrolled, hbooked, enrolled_of_unenrolled hunenrolled, booked_of_pending hstatus]
    rw [hsame, sub_self] at hwrote
    exact hwrote.quiet

/-! ## The generation run -/

/-- A pending row that a balance would count. -/
structure DueRow (db : Db) (orgId : Nat) (row : Row) : Prop where
  get : db.transactions.get? row.1 = some row.2
  org : row.2.orgId = orgId
  pending : row.2.status = .pending
  counted : balanceContributionFilter db.transactions row = true

/-- Settling a row changes no link. -/
theorem linkOf_settle (rows : Table Transaction) (id i : Nat) : linkOf (rows.modify id settledRow) i = linkOf rows i := by
  refine linkOf_mapRows (fun j a _ => ?_) i
  split <;> rfl

theorem settleRow_posted {row : Row} (hrow : DueRow db orgId row) (h : settleRow orgId db row = .ok db') :
    Posted rules db db' := by
  have hedit : Wrote rules db (weigh db.transactions (row.1, settledRow row.2) - weigh db.transactions (row.1, row.2)) 0
      (editTransaction db row.1 settledRow) := wrote_edit hrow.get rfl rfl rfl fun j c _ => ⟨rfl, rfl, .inl rfl⟩
  have hcounted : balanceContributionFilter db.transactions (row.1, settledRow row.2) = true :=
    (balanceContributionFilter_congr rfl rfl fun _ _ => Iff.rfl).trans hrow.counted
  have hweigh : weigh db.transactions (row.1, settledRow row.2) - weigh db.transactions (row.1, row.2) =
      (posting row.2, 0) := by
    have hbooked : booked db.transactions (row.1, settledRow row.2) = posting row.2 := by
      unfold booked
      rw [if_pos ⟨rfl, hcounted⟩]
      rfl
    have henrolled : enrolled (settledRow row.2) = enrolled row.2 := enrolled_congr rfl rfl rfl
    unfold weigh
    rw [booked_of_pending hrow.pending, hbooked, henrolled, Prod.mk_sub_mk, sub_zero, sub_self]
  rw [hweigh] at hedit
  obtain rfl := applyRow_ok hrow.org h
  exact (hedit.credited _).posted (by rw [zero_add])

theorem DueRow.settle {row other : Row} (h : DueRow db orgId other) (hne : other.1 ≠ row.1)
    (hsettle : settleRow orgId db row = .ok db') (horg : row.2.orgId = orgId) : DueRow db' orgId other := by
  obtain rfl := applyRow_ok horg hsettle
  refine ⟨?_, h.org, h.pending, ?_⟩
  · show (db.transactions.modify row.1 settledRow).get? other.1 = some other.2
    rw [Table.get?_modify_of_ne hne, h.get]
  · refine (balanceContributionFilter_congr rfl rfl fun l _ => ?_).trans h.counted
    show linkOf (db.transactions.modify row.1 settledRow) l = some other.1 ↔ _
    rw [linkOf_settle]

theorem settleRows_posted (rows : List Row) : ∀ {db db' : Db}, (rows.map Prod.fst).Nodup →
    (∀ row ∈ rows, DueRow db orgId row) → rows.foldlM (settleRow orgId) db = .ok db' → Posted rules db db' := by
  induction rows with
  | nil =>
    intro db db' _ _ h
    obtain rfl : db = db' := Except.ok.inj h
    exact .refl db
  | cons row rows ih =>
    intro db db' hnodup hdue h
    rw [List.map_cons, List.nodup_cons] at hnodup
    rw [List.foldlM_cons] at h
    obtain ⟨mid, hmid, hrest⟩ := bind_eq_ok.mp h
    have hrow := hdue row List.mem_cons_self
    refine (settleRow_posted hrow hmid).trans (ih hnodup.2 (fun other hother => ?_) hrest)
    refine (hdue other (List.mem_cons_of_mem _ hother)).settle (fun heq => ?_) hmid hrow.org
    exact hnodup.1 (heq ▸ List.mem_map_of_mem hother)

/-- The unit a due row leads, if it leads one. -/
def unitOf (db : Db) (rows : List Row) (row : Row) : Option (List Row) :=
  let partner := lockedPartner rows row.2
  if isReciprocalPair row partner then
    if row.2.type = .expense then some (row :: partner.toList) else none
  else
    let other := row.2.linkedTransactionId.bind (fun l => (db.transactions.get? l).map (fun t => (l, t)))
    if isReciprocalPair row other ∧ other.any (fun p =>
        p.2.status == .pending && !p.2.reconciliationState.isReverted) then none
    else some [row]

theorem dueAutoSettleUnits_eq : dueAutoSettleUnits db today orgId =
    (dueAutoSettleRows db today orgId).filterMap (unitOf db (dueAutoSettleRows db today orgId)) := rfl

/-- A unit is its lead, and behind an expense leg the income leg. -/
theorem mem_unitOf {lead row : Row} {unit : List Row} (hlead : lead ∈ dueAutoSettleRows db today orgId)
    (h : unitOf db (dueAutoSettleRows db today orgId) lead = some unit) (hrow : row ∈ unit) :
    row = lead ∨ (Mutual db.transactions lead.1 lead.2 row.1 row.2 ∧ lead.2.type = .expense) := by
  unfold unitOf at h
  dsimp only at h
  split at h
  · rename_i hpair
    split at h
    · rename_i hexpense
      rw [← Option.some.inj h] at hrow
      rcases List.mem_cons.mp hrow with rfl | hpartner
      · exact .inl rfl
      · rw [Option.mem_toList] at hpartner
        rw [hpartner] at hpair
        obtain ⟨l, -, hfind⟩ := Option.bind_eq_some_iff.mp hpartner
        obtain ⟨hmem, -⟩ := mem_of_lockedRow hfind
        simp only [isReciprocalPair, Bool.and_eq_true, beq_iff_eq, bne_iff_ne] at hpair
        exact .inr ⟨⟨(dueAutoSettleRows_spec hlead).1, (dueAutoSettleRows_spec hmem).1, hpair.1.1.1, hpair.2⟩, hexpense⟩
    · cases h
  · split at h
    · cases h
    · rw [← Option.some.inj h, List.mem_singleton] at hrow
      exact .inl hrow

theorem unitOf_nodup {rows : List Row} {lead : Row} {unit : List Row} (h : unitOf db rows lead = some unit) :
    (unit.map Prod.fst).Nodup := by
  unfold unitOf at h
  dsimp only at h
  split at h
  · rename_i hpair
    split at h
    · rw [← Option.some.inj h]
      rcases hpartner : lockedPartner rows lead.2 with _ | p
      · exact List.nodup_singleton _
      · rw [hpartner] at hpair
        simp only [isReciprocalPair, Bool.and_eq_true, bne_iff_ne] at hpair
        exact List.nodup_cons.mpr ⟨by simpa using Ne.symm hpair.1.1.2, List.nodup_singleton _⟩
    · cases h
  · split at h
    · cases h
    · rw [← Option.some.inj h]
      exact List.nodup_singleton _

/-- Of two due legs the expense leg leads. -/
theorem unitOf_of_mutual (hl : WellLinked db.transactions) {lead other : Row} {unit : List Row}
    (hlead : lead ∈ dueAutoSettleRows db today orgId) (hother : other ∈ dueAutoSettleRows db today orgId)
    (hm : Mutual db.transactions lead.1 lead.2 other.1 other.2)
    (h : unitOf db (dueAutoSettleRows db today orgId) lead = some unit) : lead.2.type = .expense := by
  have hpartner : lockedPartner (dueAutoSettleRows db today orgId) lead.2 = some other := by
    rw [lockedPartner, hm.there, Option.bind_some]
    exact lockedRow_select hother
  have hpair : isReciprocalPair lead (some other) = true := by
    obtain ⟨-, horg, -⟩ := dueAutoSettleRows_spec hlead
    obtain ⟨-, horg', -⟩ := dueAutoSettleRows_spec hother
    have hne : other.1 ≠ lead.1 := (hl lead.1 lead.2 other.1 hm.left hm.there).1
    simp [isReciprocalPair, hm.there, hm.back, hne, horg, horg']
  unfold unitOf at h
  dsimp only at h
  rw [hpartner, if_pos hpair] at h
  split at h
  · assumption
  · cases h

/-- **A sweep settles no row twice.** -/
theorem dueAutoSettleUnits_nodup (ho : Orderly rules db.books) :
    ((dueAutoSettleUnits db today orgId).flatten.map Prod.fst).Nodup := by
  have hsorted : ((dueAutoSettleRows db today orgId).map Prod.fst).Pairwise (· < ·) :=
    db.transactions.sorted.sublist (List.filter_sublist.map Prod.fst)
  -- of two legs one spends and one earns, so a row that follows leads no unit
  have hincome : ∀ {lead row : Row}, Mutual db.transactions lead.1 lead.2 row.1 row.2 → lead.2.type = .expense →
      row.2.type = .income := by
    intro lead row hm hexpense
    rcases ho.paired _ _ _ _ hm with ⟨hlegs, -⟩ | ⟨hlegs, -⟩
    · exact hlegs.income
    · have hbad := hlegs.income
      rw [hexpense] at hbad
      cases hbad
  have hsame : ∀ {row row' : Row}, db.transactions.get? row.1 = some row.2 → db.transactions.get? row'.1 = some row'.2 →
      row.1 = row'.1 → row.2 = row'.2 := by
    intro row row' hget hget' heq
    rw [heq, hget'] at hget
    exact (Option.some.inj hget).symm
  rw [dueAutoSettleUnits_eq, List.map_flatten, List.nodup_flatten]
  constructor
  · intro ids hids
    obtain ⟨unit, hunit, rfl⟩ := List.mem_map.mp hids
    obtain ⟨lead, -, hmade⟩ := List.mem_filterMap.mp hunit
    exact unitOf_nodup hmade
  · rw [List.pairwise_map, List.pairwise_filterMap]
    refine (List.pairwise_map.mp hsorted).imp_of_mem ?_
    intro lead lead' hlead hlead' hlt unit hmade unit' hmade' i hi hi'
    obtain ⟨row, hrow, rfl⟩ := List.mem_map.mp hi
    obtain ⟨row', hrow', heq⟩ := List.mem_map.mp hi'
    have hget := (dueAutoSettleRows_spec hlead).1
    have hget' := (dueAutoSettleRows_spec hlead').1
    rcases mem_unitOf hlead hmade hrow with rfl | ⟨hm, hexpense⟩
    · rcases mem_unitOf hlead' hmade' hrow' with rfl | ⟨hm', hexpense'⟩
      · omega
      · have hm : Mutual db.transactions row.1 row.2 lead'.1 lead'.2 := by
          rw [← heq, ← hsame hm'.right hget heq]
          exact hm'.symm
        have hleads := unitOf_of_mutual ho.linked hlead hlead' hm hmade
        rw [hincome hm.symm hexpense'] at hleads
        cases hleads
    · rcases mem_unitOf hlead' hmade' hrow' with rfl | ⟨hm', -⟩
      · have hm' : Mutual db.transactions row'.1 row'.2 lead.1 lead.2 := by
          rw [heq, hsame hget' hm.right heq]
          exact hm.symm
        have hleads := unitOf_of_mutual ho.linked hlead' hlead hm' hmade'
        rw [hincome hm'.symm hexpense] at hleads
        cases hleads
      · -- a leg has one partner
        have hback := hm.back
        rw [← hsame hm'.right hm.right heq, hm'.back] at hback
        have := Option.some.inj hback
        omega

/-- **The sweep credits what it settles.** -/
theorem settleDueAuto_posted {n : Nat} (ho : Orderly rules db.books)
    (h : settleDueAuto db today orgId = .ok (db', n)) : Posted rules db db' := by
  obtain ⟨_, -, h⟩ := bind_eq_ok.mp h
  obtain ⟨mid, hrows, h⟩ := bind_eq_ok.mp h
  obtain rfl : mid = db' := (Prod.mk.inj (Except.ok.inj h)).1
  refine settleRows_posted _ (dueAutoSettleUnits_nodup ho) (fun row hrow => ?_) hrows
  obtain ⟨hget, horg, hpending, -, hcounted⟩ := dueAutoSettleRows_spec (mem_dueAutoSettleUnits hrow)
  exact ⟨hget, horg, hpending, hcounted⟩

theorem generateFor_posted {pStart periodEnd : Int} (fuel : Nat) : ∀ {db db' : Db} {tally tally' : GenerateTally},
    currencyOf db = rules.currency →
    generateFor today orgId recurringId pStart periodEnd fuel (db, tally) = .ok (db', tally') → Posted rules db db' := by
  induction fuel with
  | zero =>
    intro db db' tally tally' _ h
    obtain rfl : db = db' := (Prod.mk.inj (Except.ok.inj h)).1
    exact .refl db
  | succ fuel ih =>
    intro db db' tally tally' hcur h
    unfold generateFor at h
    split at h
    · obtain rfl : db = db' := (Prod.mk.inj (Except.ok.inj h)).1
      exact .refl db
    · rename_i r hr
      obtain ⟨hget, -⟩ := Option.filter_eq_some_iff.mp hr
      split at h
      · rename_i hdue
        dsimp only at h
        split at h
        · -- the row is there: the occurrence is consumed and nothing written
          obtain ⟨db₁, hadvanced, h⟩ := bind_eq_ok.mp h
          have hposted : Posted rules db db₁ := advanceFrontier_posted hget hdue.2 hadvanced
          exact hposted.trans (ih (hposted.currency.trans hcur) h)
        · obtain ⟨⟨db₁, tx⟩, hcreated, h⟩ := bind_eq_ok.mp h
          obtain ⟨db₂, hadvanced, h⟩ := bind_eq_ok.mp h
          have hwritten : Posted rules db db₁ := createOccurrence_posted hcur (fun hs => by cases hs) hcreated
          have hposted := hwritten.trans
            (advanceFrontier_posted (by rw [createOccurrence_recurring hcreated]; exact hget) hdue.2 hadvanced)
          exact hposted.trans (ih (hposted.currency.trans hcur) h)
      · obtain rfl : db = db' := (Prod.mk.inj (Except.ok.inj h)).1
        exact .refl db

/-- **A generation run posts what it moves.** -/
theorem generateDueTransactions_posted {result : GenerateResult} (ho : Orderly rules db.books)
    (hcur : currencyOf db = rules.currency) (h : generateDueTransactions db today orgId = .ok (db', result)) :
    Posted rules db db' := by
  obtain ⟨mid, n, tally, hsweep, hwalks⟩ := generateDueTransactions_ok h
  have hswept : Posted rules db mid := settleDueAuto_posted ho hsweep
  have hall : ∀ (ids : List Nat) {mid db' : Db} {tally tally' : GenerateTally} {pStart periodEnd : Int},
      currencyOf mid = rules.currency →
      ids.foldlM (fun acc recurringId => generateFor today orgId recurringId pStart periodEnd maxCatchupIterations acc)
        (mid, tally) = .ok (db', tally') → Posted rules mid db' := by
    intro ids
    induction ids with
    | nil =>
      intro mid db' tally tally' pStart periodEnd _ h
      obtain rfl : mid = db' := (Prod.mk.inj (Except.ok.inj h)).1
      exact .refl mid
    | cons id ids ih =>
      intro mid db' tally tally' pStart periodEnd hcur h
      rw [List.foldlM_cons] at h
      obtain ⟨⟨db₁, tally₁⟩, hwalk, h⟩ := bind_eq_ok.mp h
      have hposted : Posted rules mid db₁ := generateFor_posted _ hcur hwalk
      exact hposted.trans (ih (hposted.currency.trans hcur) h)
  exact hswept.trans (hall _ (hswept.currency.trans hcur) hwalks)

end BetterDecision
