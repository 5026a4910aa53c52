import BetterDecision.Proof.Postings

/-!
# Editing rows

An edit takes the old rows out of the balances and puts the new ones in, each only
if it was inside. The link and the review state of a row do not change under an
edit, so it is inside after the edit iff it was before, and one test serves for
both. What an edit hands on to the series it only hands to pending rows that are
linked to nothing, where no total looks.
-/

namespace BetterDecision

variable {rules : Rules} {db db' : Db} {orgId : Nat}

/-! ## Series -/

/-- A template edited, its progress where it was and its frontier past what is spent. -/
theorem wrote_amend {id : Nat} {f : RecurringTransaction → RecurringTransaction}
    (keeps : ∀ r, db.recurring.get? id = some r → (f r).occurrencesElapsed = r.occurrencesElapsed ∧
      (f r).lastSpentDate = r.lastSpentDate)
    (ahead : ∀ r, db.recurring.get? id = some r → (∀ s ∈ r.lastSpentDate, s < r.nextDueDate) →
      ∀ s ∈ r.lastSpentDate, s < (f r).nextDueDate) :
    Wrote rules db 0 0 { db with recurring := db.recurring.modify id f } :=
  ⟨.single (.amend (b := db.books) id f keeps ahead), (credit_zero _).symm, rfl⟩

theorem wrote_redate (allowed : rules.redates) (id : Nat) (f : RecurringTransaction → RecurringTransaction) :
    Wrote rules db 0 0 { db with recurring := db.recurring.modify id f } :=
  ⟨.single (.redate (b := db.books) allowed id f), (credit_zero _).symm, rfl⟩

/-- An UPDATE of a template that leaves its frontier and its progress where they were. -/
theorem wrote_updateTemplate {recurringId : Nat} {test : RecurringTransaction → Bool}
    {f : RecurringTransaction → RecurringTransaction}
    (hf : ∀ r, (f r).nextDueDate = r.nextDueDate ∧ (f r).occurrencesElapsed = r.occurrencesElapsed ∧
      (f r).lastSpentDate = r.lastSpentDate) :
    Wrote rules db 0 0 (updateTemplate db orgId recurringId test f) := by
  refine wrote_amend (f := fun r => if r.orgId = orgId ∧ test r then f r else r) ?_ ?_
  · intro r _
    split
    · exact (hf r).2
    · exact ⟨rfl, rfl⟩
  · intro r _ hahead s hs
    split
    · rw [(hf r).1]
      exact hahead s hs
    · exact hahead s hs

theorem wrote_updateRows {test : Nat → Transaction → Bool} {f : Transaction → Transaction}
    (hf : ∀ i a, db.transactions.get? i = some a → test i a = true → Aside a (f a)) :
    Wrote rules db 0 0 (updateRows db orgId test f) := by
  refine wrote_aside (g := fun i t => if t.orgId = orgId ∧ test i t then f t else t) fun i a ha => ?_
  exact aside_if fun h => hf i a ha h.2

theorem pending_of_isPlainPendingOf {recurringId : Nat} {t : Transaction}
    (h : isPlainPendingOf recurringId t = true) : t.status = .pending ∧ t.linkedTransactionId = none := by
  simp only [isPlainPendingOf, isPendingOf, Bool.and_eq_true, beq_iff_eq, Option.isNone_iff_eq_none] at h
  exact ⟨h.1.2, h.2⟩

/-- The rows a sync targets are pending and linked to nothing. -/
theorem pending_of_target {recurringId id : Nat} {txType : Option TransactionType}
    {excludeId : Option Nat} {after : Option Int} {t : Transaction}
    (h : (id, t) ∈ seriesSyncTargets db orgId recurringId txType excludeId after) :
    db.transactions.get? id = some t ∧ t.status = .pending ∧ t.linkedTransactionId = none := by
  rw [seriesSyncTargets, Table.mem_select] at h
  simp only [Bool.and_eq_true, beq_iff_eq, Option.isNone_iff_eq_none] at h
  exact ⟨h.1, h.2.1.1.1.1.1.1.2, h.2.1.1.1.1.1.2⟩

theorem wrote_syncDescription {recurringId : Nat} (sync : SeriesSync) :
    Wrote rules db 0 0 (syncDescription orgId recurringId sync db) := by
  unfold syncDescription
  rcases sync.description with _ | description
  · exact .refl db
  · have ht : Wrote rules db 0 0 (updateTemplate db orgId recurringId (fun _ => true)
        (fun r => { r with description })) := wrote_updateTemplate fun r => ⟨rfl, rfl, rfl⟩
    dsimp only
    split
    · refine (wrote_updateRows ?_).after ht
      intro i a _ _
      exact ⟨rfl, rfl, rfl, rfl, rfl, .inl ⟨rfl, rfl, rfl⟩⟩
    · exact ht

theorem wrote_syncCategory {recurringId : Nat} (sync : SeriesSync) :
    Wrote rules db 0 0 (syncCategory orgId recurringId sync db) := by
  unfold syncCategory
  rcases sync.categoryId with _ | categoryId
  · exact .refl db
  · have ht : Wrote rules db 0 0 (updateTemplate db orgId recurringId (fun r => r.type == sync.txType)
        (fun r => { r with categoryId })) := wrote_updateTemplate fun r => ⟨rfl, rfl, rfl⟩
    dsimp only
    split
    · exact (wrote_updateRows fun i a _ _ => aside_setCategory a _).after ht
    · exact ht

theorem wrote_syncAccount {recurringId : Nat} (sync : SeriesSync) :
    Wrote rules db 0 0 (syncAccount orgId recurringId sync db) := by
  unfold syncAccount
  rcases sync.accountId with _ | accountId
  · exact .refl db
  · have ht : Wrote rules db 0 0 (updateTemplate db orgId recurringId (fun r => r.type != .transfer)
        (fun r => { r with accountId })) := wrote_updateTemplate fun r => ⟨rfl, rfl, rfl⟩
    dsimp only
    split
    · refine (wrote_updateRows fun i a _ h => ?_).after ht
      exact ⟨rfl, rfl, rfl, rfl, rfl, .inr (pending_of_isPlainPendingOf h)⟩
    · exact ht

/-- The frontier of the template moves only with a series re-dated as a whole. -/
theorem wrote_syncTemplateValues {recurringId : Nat} {sync : SeriesSync}
    (hmove : sync.dateMove.isSome → rules.redates) :
    Wrote rules db 0 0 (syncTemplateValues orgId recurringId sync db) := by
  unfold syncTemplateValues
  rcases hdate : sync.dateMove with _ | move
  · exact wrote_updateTemplate fun r => ⟨rfl, rfl, rfl⟩
  · exact wrote_redate (hmove (by rw [hdate]; rfl)) recurringId _

theorem wrote_syncAmount {recurringId : Nat} (sync : SeriesSync) :
    Wrote rules db 0 0 (syncAmount orgId recurringId sync db) := by
  unfold syncAmount
  split
  · exact .refl db
  · refine wrote_updateRows fun i a ha h => ?_
    rw [List.contains_iff_mem, List.mem_map] at h
    obtain ⟨⟨j, t⟩, ht, rfl⟩ := h
    obtain ⟨hget, hplain⟩ := pending_of_target (List.mem_of_mem_filter ht)
    obtain rfl : t = a := by rw [hget] at ha; exact Option.some.inj ha
    exact ⟨rfl, rfl, rfl, rfl, rfl, .inr hplain⟩

/-- Rows that are pending and linked to nothing. -/
def PlainPending (rows : Table Transaction) (ids : List Nat) : Prop :=
  ∀ i ∈ ids, ∀ t, rows.get? i = some t → t.status = .pending ∧ t.linkedTransactionId = none

theorem plainPending_updateRows {ids : List Nat} {test : Nat → Transaction → Bool}
    {f : Transaction → Transaction} (h : PlainPending db.transactions ids)
    (hf : ∀ a, (f a).status = a.status ∧ (f a).linkedTransactionId = a.linkedTransactionId) :
    PlainPending (updateRows db orgId test f).transactions ids := by
  intro i hi t ht
  obtain ⟨a, ha, rfl⟩ := Option.map_eq_some_iff.mp ((Table.get?_mapRows _ _ _).symm.trans ht)
  obtain ⟨hstatus, hlink⟩ := h i hi a ha
  split
  · rw [(hf a).1, (hf a).2]
    exact ⟨hstatus, hlink⟩
  · exact ⟨hstatus, hlink⟩

theorem wrote_syncGuarded {recurringId : Nat} (sync : SeriesSync) :
    Wrote rules db 0 0 (syncGuarded orgId recurringId sync db) := by
  unfold syncGuarded
  extract_lets targets idsOf db₁ db₂
  have hplain : ∀ test, PlainPending db.transactions (idsOf test) := by
    intro test i hi t ht
    obtain ⟨⟨j, a⟩, ha, rfl⟩ := List.mem_map.mp hi
    obtain ⟨hget, hplain⟩ := pending_of_target (List.mem_of_mem_filter ha)
    obtain rfl : a = t := by rw [hget] at ht; exact Option.some.inj ht
    exact hplain
  have hdb₁ : Wrote rules db 0 0 db₁ ∧ ∀ test, PlainPending db₁.transactions (idsOf test) := by
    unfold db₁
    split
    · refine ⟨wrote_updateRows ?_, fun test => plainPending_updateRows (hplain test) fun a => ⟨rfl, rfl⟩⟩
      intro i a _ _
      exact ⟨rfl, rfl, rfl, rfl, rfl, .inl ⟨rfl, rfl, rfl⟩⟩
    · exact ⟨.refl db, hplain⟩
  have hdb₂ : Wrote rules db 0 0 db₂ ∧ ∀ test, PlainPending db₂.transactions (idsOf test) := by
    unfold db₂
    split
    · refine ⟨(wrote_updateRows fun i a _ _ => aside_setCategory a _).after hdb₁.1, fun test => ?_⟩
      exact plainPending_updateRows (hdb₁.2 test) fun a => ⟨rfl, rfl⟩
    · exact hdb₁
  split
  · refine (wrote_updateRows fun i a ha h => ?_).after hdb₂.1
    have hplain₂ := hdb₂.2 (fun t => t.accountId == _) i (List.contains_iff_mem.mp h) a ha
    exact ⟨rfl, rfl, rfl, rfl, rfl, .inr hplain₂⟩
  · exact hdb₂.1

theorem wrote_syncDates (sync : SeriesSync) : Wrote rules db 0 0 (syncDates orgId sync db) := by
  unfold syncDates
  split
  · exact .refl db
  · refine wrote_aside fun i a _ => ?_
    split
    · exact aside_if fun _ => ⟨rfl, rfl, rfl, rfl, rfl, .inl ⟨rfl, rfl, rfl⟩⟩
    · exact .refl a

/-- **A sync moves no total.** -/
theorem wrote_propagateFieldsToSeries {recurringId : Nat} {sync : SeriesSync}
    (hmove : sync.dateMove.isSome → rules.redates) :
    Wrote rules db 0 0 (propagateFieldsToSeries db orgId recurringId sync) :=
  (wrote_syncDates sync).after ((wrote_syncGuarded sync).after ((wrote_syncAmount sync).after
    ((wrote_syncTemplateValues hmove).after ((wrote_syncAccount sync).after
      ((wrote_syncCategory sync).after (wrote_syncDescription sync))))))

/-! ## One row -/

/-- An edit leaves a row's place in links, batches and review alone. -/
theorem editedRow_keeps (today : Int) (tx : Transaction) (body : TransactionUpdate) (moves : Bool) :
    let new := editedRow today tx body moves
    new.linkedTransactionId = tx.linkedTransactionId ∧ new.orgId = tx.orgId ∧
      new.importBatchId = tx.importBatchId ∧ new.reconciliationState = tx.reconciliationState ∧
      new.type = (body.type.map EntryType.toType).getD tx.type ∧
      new.amount = body.amount.getD tx.amount ∧ new.accountId = body.accountId.getD tx.accountId := by
  dsimp only
  unfold editedRow
  dsimp only
  split
  · exact ⟨rfl, rfl, rfl, rfl, rfl, rfl, rfl⟩
  · split
    · exact ⟨rfl, rfl, rfl, rfl, rfl, rfl, rfl⟩
    · exact ⟨rfl, rfl, rfl, rfl, rfl, rfl, rfl⟩

/-- What a row rewritten under its link, batch and review state moves the totals by. -/
theorem weigh_edit {rows : Table Transaction} {id : Nat} {tx new : Transaction}
    (hlink : new.linkedTransactionId = tx.linkedTransactionId) (horg : new.orgId = tx.orgId)
    (hbatch : new.importBatchId = tx.importBatchId)
    (hstate : new.reconciliationState = tx.reconciliationState) :
    weigh rows (id, new) - weigh rows (id, tx) =
      (postingIf (new.status = .settled && balanceContributionFilter rows (id, tx)) new -
        postingIf (tx.status = .settled && balanceContributionFilter rows (id, tx)) tx, 0) := by
  have hcounted : balanceContributionFilter rows (id, new) = balanceContributionFilter rows (id, tx) :=
    balanceContributionFilter_congr hstate hlink fun _ _ => Iff.rfl
  unfold weigh
  rw [booked_eq_postingIf, booked_eq_postingIf, hcounted, enrolled_congr horg hbatch hstate]
  exact Prod.ext rfl (sub_self _)

section Write

variable {id : Nat} {tx new : Transaction}

/-- A row that is no leg of a transfer, edited. -/
theorem writeEdit_alone_posted (htx : db.transactions.get? id = some tx) (horg : tx.orgId = orgId)
    (hkeeps : new.linkedTransactionId = tx.linkedTransactionId ∧ new.orgId = tx.orgId ∧
      new.importBatchId = tx.importBatchId ∧ new.reconciliationState = tx.reconciliationState)
    (halone : ∀ j c, ¬ Mutual db.transactions id tx j c)
    (h : writeEdit db orgId id tx new (balanceContributionFilter db.transactions (id, tx)) none false =
      .ok db') : Posted rules db db' := by
  obtain ⟨hlink, hneworg, hbatch, hstate⟩ := hkeeps
  obtain ⟨db₁, hdb₁, h⟩ := bind_eq_ok.mp h
  obtain rfl := doIf_revertRow_ok horg hdb₁
  obtain rfl := doIf_applyRow_ok (hneworg.trans horg) h
  have hedit : Wrote rules (db.credited
      (-postingIf (tx.status = .settled && balanceContributionFilter db.transactions (id, tx)) tx)) _ _ _ :=
    wrote_edit (f := fun _ => new) htx rfl hlink hneworg (fun j c hm => absurd hm (halone j c))
  refine (((wrote_credited db _).trans hedit).credited _).posted ?_
  rw [Db.transactions_credited, weigh_edit hlink hneworg hbatch hstate, zero_add, add_zero,
    neg_add_eq_sub]

/-- What an edit may make of one leg, and what of the other. -/
structure LegEdit (rules : Rules) (tx new leg newLeg : Transaction) : Prop where
  link : new.linkedTransactionId = tx.linkedTransactionId
  org : new.orgId = tx.orgId
  batch : new.importBatchId = tx.importBatchId
  state : new.reconciliationState = tx.reconciliationState
  legLink : newLeg.linkedTransactionId = leg.linkedTransactionId
  legOrg : newLeg.orgId = leg.orgId
  legBatch : newLeg.importBatchId = leg.importBatchId
  legState : newLeg.reconciliationState = leg.reconciliationState
  legStatus : newLeg.status = leg.status
  type : new.type = tx.type
  legType : newLeg.type = leg.type
  legAccount : newLeg.accountId = leg.accountId
  amounts : tx.amount = leg.amount → new.amount = newLeg.amount
  account : new.accountId = tx.accountId ∨
    (new.accountId ≠ leg.accountId ∧ rules.currency new.accountId = rules.currency leg.accountId)

theorem LegEdit.legs {leg newLeg : Transaction} (h : LegEdit rules tx new leg newLeg)
    (hlegs : Legs rules tx leg) : Legs rules new newLeg := by
  refine ⟨?_, ?_, ?_, h.amounts hlegs.amount, ?_, ?_⟩
  · rw [h.org, h.legOrg, hlegs.org]
  · rw [h.type, hlegs.expense]
  · rw [h.legType, hlegs.income]
  · rw [h.legAccount]
    rcases h.account with hsame | ⟨hne, -⟩
    · rw [hsame]
      exact hlegs.accounts
    · exact hne
  · rw [h.legAccount]
    rcases h.account with hsame | ⟨-, hcur⟩
    · rw [hsame]
      exact hlegs.currency
    · exact fun _ => hcur

theorem LegEdit.legs' {leg newLeg : Transaction} (h : LegEdit rules tx new leg newLeg)
    (hlegs : Legs rules leg tx) : Legs rules newLeg new := by
  refine ⟨?_, ?_, ?_, (h.amounts hlegs.amount.symm).symm, ?_, ?_⟩
  · rw [h.org, h.legOrg, hlegs.org]
  · rw [h.legType, hlegs.expense]
  · rw [h.type, hlegs.income]
  · rw [h.legAccount]
    rcases h.account with hsame | ⟨hne, -⟩
    · rw [hsame]
      exact hlegs.accounts
    · exact hne.symm
  · rw [h.legAccount]
    rcases h.account with hsame | ⟨-, hcur⟩
    · rw [hsame]
      exact hlegs.currency
    · exact fun _ => hcur.symm

/-- A leg of a transfer edited, and the other leg with it. The other leg's balance moves
only if its amount does. -/
theorem writeEdit_legs_posted {l : Nat} {leg newLeg : Transaction} {c : Bool} (hl : l ≠ id)
    (horg : tx.orgId = orgId) (hm : Mutual db.transactions id tx l leg)
    (hedit : LegEdit rules tx new leg newLeg) (hlegOrg : leg.orgId = orgId)
    (hc : c = true ∨ newLeg.amount = leg.amount)
    (h : writeEdit db orgId id tx new (balanceContributionFilter db.transactions (id, tx))
      (some (l, leg, newLeg)) (c && decide (leg.status = .settled) &&
        contributesToCachedBalance (l, leg) (some (id, tx))) = .ok db') : Posted rules db db' := by
  have hcounted : contributesToCachedBalance (l, leg) (some (id, tx)) =
      balanceContributionFilter db.transactions (l, leg) := by
    refine contributes_of_partner fun k hk => ?_
    rw [hm.back] at hk
    obtain rfl := Option.some.inj hk
    exact ⟨tx, rfl, hm.left⟩
  rw [hcounted] at h
  obtain ⟨db₁, hdb₁, h⟩ := bind_eq_ok.mp h
  obtain ⟨db₂, hdb₂, h⟩ := bind_eq_ok.mp h
  obtain ⟨db₃, hdb₃, h⟩ := bind_eq_ok.mp h
  obtain rfl := doIf_revertRow_ok horg hdb₁
  obtain rfl := doIf_revertRow_ok hlegOrg hdb₂
  obtain rfl := doIf_applyRow_ok (hedit.org.trans horg) hdb₃
  obtain rfl := doIf_applyRow_ok (hedit.legOrg.trans hlegOrg) h
  have hrows : Wrote rules ((db.credited
      (-postingIf (tx.status = .settled && balanceContributionFilter db.transactions (id, tx)) tx)).credited
      (-postingIf (c && decide (leg.status = .settled) && balanceContributionFilter db.transactions (l, leg)) leg))
      _ _ _ := wrote_editLegs
    hm hl.symm ⟨hedit.link, hedit.org⟩ ⟨hedit.legLink, hedit.legOrg⟩ hedit.legs hedit.legs'
  refine (((((wrote_credited db _).credited _).trans hrows).credited _).credited _).posted ?_
  rw [Db.transactions_credited, Db.transactions_credited,
    weigh_edit hedit.link hedit.org hedit.batch hedit.state,
    weigh_edit hedit.legLink hedit.legOrg hedit.legBatch hedit.legState]
  -- a leg whose amount stays has the posting it had
  have hleg : postingIf (newLeg.status = .settled && balanceContributionFilter db.transactions (l, leg)) newLeg -
      postingIf (leg.status = .settled && balanceContributionFilter db.transactions (l, leg)) leg =
      postingIf (c && decide (leg.status = .settled) && balanceContributionFilter db.transactions (l, leg)) newLeg -
      postingIf (c && decide (leg.status = .settled) && balanceContributionFilter db.transactions (l, leg)) leg := by
    rw [hedit.legStatus]
    rcases hc with rfl | hamount
    · rw [Bool.true_and]
    · have hsame : posting newLeg = posting leg := by
        rw [posting, posting, hedit.legOrg, hedit.legAccount, hedit.legType, hamount]
      unfold postingIf
      rw [hsame, sub_self, sub_self]
  rw [hleg, zero_add, add_zero, Prod.mk_add_mk, add_zero]
  refine Prod.ext ?_ rfl
  dsimp only
  abel

end Write

/-- Only a "this and future" edit of the date re-dates a series. -/
theorem planSeriesEdit_scope {today : Int} {id : Nat} {tx : Transaction} {body : TransactionUpdate}
    {series : Option (RecurringTransaction × Option SeriesDateMove)}
    (h : planSeriesEdit db today orgId id tx body = .ok series) (hmove : (series.bind (·.2)).isSome) :
    body.seriesScope = some .future ∧ body.date.isSome := by
  have hscope : body.seriesScope = some .future := by
    by_contra hscope
    rw [planSeriesEdit, if_pos hscope] at h
    rw [← Except.ok.inj h] at hmove
    cases hmove
  refine ⟨hscope, ?_⟩
  rcases hdate : body.date with _ | d
  · rw [planSeriesEdit, if_neg (not_not.mpr hscope), hdate] at h
    obtain ⟨_, -, h⟩ := bind_eq_ok.mp h
    obtain ⟨-, -, h⟩ := bind_eq_ok.mp h
    obtain ⟨-, -, h⟩ := bind_eq_ok.mp h
    obtain ⟨-, -, h⟩ := bind_eq_ok.mp h
    obtain ⟨-, -, h⟩ := bind_eq_ok.mp h
    obtain ⟨_, -, h⟩ := bind_eq_ok.mp h
    obtain ⟨-, -, h⟩ := bind_eq_ok.mp h
    rw [← Except.ok.inj h] at hmove
    cases hmove
  · rfl

/-- A leg's request has been checked against the other leg. -/
theorem refuseLegEdit_ok {today : Int} {leg tx : Transaction} {body : TransactionUpdate} {moves : Bool}
    (hcur : currencyOf db = rules.currency) (h : refuseLegEdit db orgId leg body = .ok ()) :
    LegEdit rules tx (editedRow today tx body moves) leg
      (mirroredLeg tx (editedRow today tx body moves) leg body) := by
  obtain ⟨hlink, horg, hbatch, hstate, htype, hamount, haccount⟩ := editedRow_keeps today tx body moves
  obtain ⟨_, hnotype, h⟩ := bind_eq_ok.mp h
  rw [refuse_eq_ok, Option.not_isSome_iff_eq_none] at hnotype
  refine ⟨hlink, horg, hbatch, hstate, rfl, rfl, rfl, rfl, rfl, ?_, rfl, rfl, ?_, ?_⟩
  · rw [htype, hnotype]
    rfl
  · intro heq
    rw [hamount, heq]
    rfl
  · rw [haccount]
    split at h
    · rw [‹body.accountId = none›]
      exact .inl rfl
    · rw [‹body.accountId = some _›, Option.getD_some]
      obtain ⟨acct, hacct, h⟩ := bind_eq_ok.mp h
      obtain ⟨_, hne, h⟩ := bind_eq_ok.mp h
      rw [refuse_eq_ok, not_not] at h
      rw [refuse_eq_ok] at hne
      obtain ⟨hget, -⟩ := findAccount_eq_some.mp (found_eq_ok.mp hacct)
      refine .inr ⟨hne, ?_⟩
      rw [← hcur, ← h, currencyOf, hget, Option.map_some]

/-- The end of an edit: what changed is handed on to the series the row is of. -/
def handOn (written : Db) (orgId : Nat) (series : Option Nat) (sync : SeriesSync) : Result Db :=
  match series with
  | none => .ok written
  | some recurringId => if sync.isEmpty then .ok written else .ok (propagateFieldsToSeries written orgId recurringId sync)

theorem updateTransaction_posted {today : Int} {id : Nat} {body : TransactionUpdate}
    (ho : Orderly rules db.books) (hcur : currencyOf db = rules.currency)
    (hredates : body.seriesScope = some .future → body.date.isSome → rules.redates)
    (h : updateTransaction db today orgId id body = .ok db') : Posted rules db db' := by
  obtain ⟨tx, htx, h⟩ := bind_eq_ok.mp h
  obtain ⟨-, -, h⟩ := bind_eq_ok.mp h
  obtain ⟨-, -, h⟩ := bind_eq_ok.mp h
  rw [found_eq_ok, findTransaction_eq_some] at htx
  obtain ⟨hget, horg⟩ := htx
  rw [contributes_eq ho.linked hget horg] at h
  -- what is written, the sync aside
  have hsync : ∀ {written : Db} {series : Option (RecurringTransaction × Option SeriesDateMove)} {new : Transaction},
      planSeriesEdit db today orgId id tx body = .ok series → Posted rules db written →
      handOn written orgId tx.recurringId (syncOfEdit id tx new body series) = .ok db' → Posted rules db db' := by
    intro written series new hseries hposted hwritten
    unfold handOn at hwritten
    split at hwritten
    · exact Except.ok.inj hwritten ▸ hposted
    · split at hwritten
      · exact Except.ok.inj hwritten ▸ hposted
      · rw [← Except.ok.inj hwritten]
        refine hposted.trans (wrote_propagateFieldsToSeries fun hmove => ?_).quiet
        obtain ⟨hscope, hdate⟩ := planSeriesEdit_scope hseries hmove
        exact hredates hscope hdate
  dsimp only at h
  rcases hpartner : (linkedRow db orgId tx).filter (fun p => isReciprocalPair (id, tx) (some p)) with _ | ⟨l, leg⟩
  · rw [hpartner] at h
    obtain ⟨-, -, h⟩ := bind_eq_ok.mp h
    obtain ⟨series, hseries, h⟩ := bind_eq_ok.mp h
    obtain ⟨-, -, h⟩ := bind_eq_ok.mp h
    obtain ⟨-, -, h⟩ := bind_eq_ok.mp h
    obtain ⟨-, -, h⟩ := bind_eq_ok.mp h
    obtain ⟨written, hwrite, h⟩ := bind_eq_ok.mp h
    obtain ⟨hlink, hneworg, hbatch, hstate, -⟩ :=
      editedRow_keeps today tx body (series.bind (·.2)).isSome
    refine hsync hseries (writeEdit_alone_posted hget horg ⟨hlink, hneworg, hbatch, hstate⟩ ?_ hwrite) h
    refine not_mutual_of_not_reciprocal ho.linked hget horg ?_
    intro hpair
    rcases hlinked : linkedRow db orgId tx with _ | p
    · rw [hlinked] at hpair
      cases hpair
    · rw [hlinked] at hpair hpartner
      rw [Option.filter_some, if_pos hpair] at hpartner
      cases hpartner
  · rw [hpartner] at h
    obtain ⟨_, hleg, h⟩ := bind_eq_ok.mp h
    obtain ⟨series, hseries, h⟩ := bind_eq_ok.mp h
    obtain ⟨-, -, h⟩ := bind_eq_ok.mp h
    obtain ⟨-, -, h⟩ := bind_eq_ok.mp h
    obtain ⟨-, -, h⟩ := bind_eq_ok.mp h
    obtain ⟨-, -, h⟩ := bind_eq_ok.mp h
    obtain ⟨written, hwrite, h⟩ := bind_eq_ok.mp h
    obtain ⟨-, -, h⟩ := bind_eq_ok.mp h
    obtain ⟨hlinked, hpair⟩ := Option.filter_eq_some_iff.mp hpartner
    have hm := (reciprocal_iff ho.linked hget horg hlinked).mp hpair
    have hlegOrg := (linkedRow_eq_some.mp hlinked).2.2
    refine hsync hseries (writeEdit_legs_posted (ho.linked id tx l hget hm.there).1 horg hm
      (refuseLegEdit_ok hcur hleg) hlegOrg ?_ hwrite) h
    rcases hamount : body.amount with _ | amount
    · refine .inr ?_
      unfold mirroredLeg
      rw [hamount]
      rfl
    · exact .inl rfl

/-! ## Many rows -/

theorem bulkEditOf_scope (req : BulkUpdateRequest) (id : Nat) (row : Transaction) (partner : Option Row)
    (moved : List Nat) : (bulkEditOf req id row partner moved).update.seriesScope = none := rfl

theorem bulkUpdateOne_posted {today : Int} {req : BulkUpdateRequest} {acc : Db × BulkUpdateResult} {id : Nat}
    (ho : Orderly rules acc.1.books) (hcur : currencyOf acc.1 = rules.currency) :
    Posted rules acc.1 (bulkUpdateOne today orgId req acc id).1 := by
  obtain ⟨db, result⟩ := acc
  unfold bulkUpdateOne
  dsimp only
  split
  · exact .refl db
  · split
    · exact .refl db
    · split
      · exact .refl db
      · split
        · exact .refl db
        · split
          · exact .refl db
          · refine updateTransaction_posted ho hcur ?_ ‹updateTransaction _ _ _ _ _ = .ok _›
            intro hscope
            rw [bulkEditOf_scope] at hscope
            cases hscope

theorem bulkUpdateTransactions_posted {today : Int} {req : BulkUpdateRequest}
    (ho : Orderly rules db.books) (hcur : currencyOf db = rules.currency) :
    Posted rules db (bulkUpdateTransactions db today orgId req).1 := by
  have hfold : ∀ (ids : List Nat) (acc : Db × BulkUpdateResult), Posted rules db acc.1 →
      Posted rules db (ids.foldl (bulkUpdateOne today orgId req) acc).1 := by
    intro ids
    induction ids with
    | nil => exact fun acc h => h
    | cons id ids ih =>
      intro acc h
      exact ih _ (h.trans (bulkUpdateOne_posted (h.orderly ho) (h.currency.trans hcur)))
  exact hfold _ _ (.refl db)

end BetterDecision
