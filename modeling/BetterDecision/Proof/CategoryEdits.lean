import BetterDecision.Proof.CategoryLedger
import BetterDecision.Proof.Series

/-!
# Edits, reviews and series on their categories

The rest of the ledger's calls. An edit that names a category, or changes a row's type, has
asked for the two together, and what it hands on to its series goes to rows of the type it
asked for. Nothing else here writes a category.
-/

namespace BetterDecision

variable {db db' : Db} {orgId : Nat} {G : Prop}

/-! ## Writes that name no category -/

/-- The row is of the org, category and type it was. -/
structure SameFit (t t' : Transaction) : Prop where
  org : t'.orgId = t.orgId
  category : t'.categoryId = t.categoryId
  type : t'.type = t.type

theorem SameFit.row {cats : Table Category} {t t' : Transaction} (h : SameFit t t') (hfit : RowFits cats t) :
    RowFits cats t' := by
  unfold RowFits
  rw [h.org, h.category, h.type]
  exact hfit

theorem keepsFit_rewrite {g : Nat → Transaction → Transaction} (hg : ∀ i t, SameFit t (g i t)) :
    KeepsFit G db { db with transactions := db.transactions.mapRows g } :=
  keepsFit_mapRows fun i t _ _ _ hfit => (hg i t).row hfit

theorem sameFit_if {c : Prop} [Decidable c] {t t' : Transaction} (h : SameFit t t') :
    SameFit t (if c then t' else t) := by
  split
  · exact h
  · exact ⟨rfl, rfl, rfl⟩

theorem keepsFit_rewriteRows {test : Nat → Transaction → Bool} {f : Transaction → Transaction}
    (hf : ∀ t, SameFit t (f t)) : KeepsFit G db (updateRows db orgId test f) :=
  keepsFit_updateRows fun _ t _ _ _ _ _ hfit => (hf t).row hfit

theorem keepsFit_updateTemplate {recurringId : Nat} {test : RecurringTransaction → Bool}
    {f : RecurringTransaction → RecurringTransaction}
    (h : ∀ r, db.recurring.get? recurringId = some r → r.orgId = orgId → test r = true → G → BooksFit db →
      TemplateFits db.categories r → TemplateFits db.categories (f r)) :
    KeepsFit G db (updateTemplate db orgId recurringId test f) := by
  refine keepsFit_editRecurring fun r hr hg hb hfit => ?_
  split
  · rename_i hc
    exact h r hr hc.1 hc.2 hg hb hfit
  · exact hfit

/-! ## Handing an edit on -/

section Sync

variable {recurringId : Nat} {sync : SeriesSync}

/-- A category handed on takes the type it is handed on for. -/
def SyncFits (db : Db) (orgId : Nat) (sync : SeriesSync) : Prop :=
  ∀ categoryId, sync.categoryId = some categoryId → Takes db.categories orgId categoryId sync.txType

theorem syncDescription_keepsFit : KeepsFit G db (syncDescription orgId recurringId sync db) := by
  unfold syncDescription
  split
  · exact .refl db
  · rename_i description _
    have htemplate : KeepsFit G db (updateTemplate db orgId recurringId (fun _ => true) (fun r => { r with description })) :=
      keepsFit_updateTemplate fun r _ _ _ _ _ hfit => hfit
    dsimp only
    split
    · exact htemplate.trans (keepsFit_rewriteRows fun t => ⟨rfl, rfl, rfl⟩)
    · exact htemplate

theorem syncCategory_keepsFit (h : G → SyncFits db orgId sync) : KeepsFit G db (syncCategory orgId recurringId sync db) := by
  unfold syncCategory
  split
  · exact .refl db
  · rename_i categoryId hcat
    have htemplate : KeepsFit G db (updateTemplate db orgId recurringId (fun r => r.type == sync.txType)
        (fun r => { r with categoryId })) := by
      refine keepsFit_updateTemplate fun r _ horg htype hg _ _ => ?_
      show Takes db.categories r.orgId categoryId r.type
      rw [horg, beq_iff_eq.mp htype]
      exact h hg categoryId hcat
    dsimp only
    split
    · refine htemplate.trans (keepsFit_updateRows fun i t _ horg htest hg _ hfit => ⟨hfit.1, ?_⟩)
      have htype : t.type = sync.txType := beq_iff_eq.mp (Bool.and_eq_true _ _ ▸ htest).2
      show Takes db.categories t.orgId categoryId t.type
      rw [horg, htype]
      exact h hg categoryId hcat
    · exact htemplate

theorem syncAccount_keepsFit : KeepsFit G db (syncAccount orgId recurringId sync db) := by
  unfold syncAccount
  split
  · exact .refl db
  · rename_i accountId _
    have htemplate : KeepsFit G db (updateTemplate db orgId recurringId (fun r => r.type != .transfer)
        (fun r => { r with accountId })) := keepsFit_updateTemplate fun r _ _ _ _ _ hfit => hfit
    dsimp only
    split
    · exact htemplate.trans (keepsFit_rewriteRows fun t => ⟨rfl, rfl, rfl⟩)
    · exact htemplate

theorem syncTemplateValues_keepsFit : KeepsFit G db (syncTemplateValues orgId recurringId sync db) :=
  keepsFit_updateTemplate fun _ _ _ _ _ _ hfit => hfit

theorem syncAmount_keepsFit : KeepsFit G db (syncAmount orgId recurringId sync db) := by
  unfold syncAmount
  split
  · exact .refl db
  · exact keepsFit_rewriteRows fun t => ⟨rfl, rfl, rfl⟩

/-- The rows under the ids are of the type. -/
def OfType (rows : Table Transaction) (ids : List Nat) (type : TransactionType) : Prop :=
  ∀ i ∈ ids, ∀ t, rows.get? i = some t → t.type = type

theorem ofType_updateRows {ids : List Nat} {type : TransactionType} {test : Nat → Transaction → Bool}
    {f : Transaction → Transaction} (h : OfType db.transactions ids type) (hf : ∀ t, (f t).type = t.type) :
    OfType (updateRows db orgId test f).transactions ids type := by
  intro i hi t ht
  obtain ⟨a, ha, rfl⟩ := Option.map_eq_some_iff.mp ((Table.get?_mapRows _ _ _).symm.trans ht)
  split
  · rw [hf]
    exact h i hi a ha
  · exact h i hi a ha

theorem syncGuarded_keepsFit (h : G → SyncFits db orgId sync) : KeepsFit G db (syncGuarded orgId recurringId sync db) := by
  unfold syncGuarded
  extract_lets targets idsOf db₁ db₂
  have htyped : ∀ was, OfType db.transactions (idsOf (fun t => t.categoryId == was && t.type == sync.txType)) sync.txType := by
    intro was i hi t ht
    obtain ⟨⟨j, a⟩, ha, rfl⟩ := List.mem_map.mp hi
    obtain ⟨hmem, htest⟩ := List.mem_filter.mp ha
    obtain ⟨hget, -⟩ := pending_of_target hmem
    obtain rfl : a = t := Option.some.inj (hget.symm.trans ht)
    exact beq_iff_eq.mp (Bool.and_eq_true _ _ ▸ htest).2
  have hdb₁ : KeepsFit G db db₁ ∧ db₁.categories = db.categories ∧
      ∀ was, OfType db₁.transactions (idsOf (fun t => t.categoryId == was && t.type == sync.txType)) sync.txType := by
    unfold db₁
    split
    · exact ⟨keepsFit_rewriteRows fun t => ⟨rfl, rfl, rfl⟩, rfl, fun was => ofType_updateRows (htyped was) fun _ => rfl⟩
    · exact ⟨.refl db, rfl, htyped⟩
  have hdb₂ : KeepsFit G db db₂ := by
    refine hdb₁.1.trans ?_
    unfold db₂
    split
    · rename_i categoryId was hcat _
      refine keepsFit_updateRows fun i t ht horg htest hg _ hfit => ⟨hfit.1, ?_⟩
      show Takes db₁.categories t.orgId categoryId t.type
      rw [hdb₁.2.1, horg, hdb₁.2.2 was i (List.contains_iff_mem.mp htest) t ht]
      exact h hg categoryId hcat
    · exact .refl db₁
  split
  · exact hdb₂.trans (keepsFit_rewriteRows fun t => ⟨rfl, rfl, rfl⟩)
  · exact hdb₂

theorem syncDates_keepsFit : KeepsFit G db (syncDates orgId sync db) := by
  unfold syncDates
  split
  · exact .refl db
  · refine keepsFit_rewrite fun i t => ?_
    split
    · exact sameFit_if ⟨rfl, rfl, rfl⟩
    · exact ⟨rfl, rfl, rfl⟩

theorem SyncFits.grown (h : SyncFits db orgId sync) (hg : Grown db.categories db'.categories) : SyncFits db' orgId sync :=
  fun categoryId hcat => hg.takes (h categoryId hcat)

theorem propagateFieldsToSeries_keepsFit (h : G → SyncFits db orgId sync) :
    KeepsFit G db (propagateFieldsToSeries db orgId recurringId sync) := by
  unfold propagateFieldsToSeries
  extract_lets d₁ d₂ d₃ d₄ d₅ d₆
  have h₁ : KeepsFit G db d₁ := syncDescription_keepsFit
  have h₂ : KeepsFit G db d₂ := h₁.trans (syncCategory_keepsFit fun hg => (h hg).grown h₁.grown)
  have h₃ : KeepsFit G db d₃ := h₂.trans syncAccount_keepsFit
  have h₄ : KeepsFit G db d₄ := h₃.trans syncTemplateValues_keepsFit
  have h₅ : KeepsFit G db d₅ := h₄.trans syncAmount_keepsFit
  have h₆ : KeepsFit G db d₆ := h₅.trans (syncGuarded_keepsFit fun hg => (h hg).grown h₅.grown)
  exact h₆.trans syncDates_keepsFit

end Sync

/-! ## One row -/

theorem BooksFit.credited (h : BooksFit db) (δ : Nat × Nat → Int) : BooksFit (db.credited δ) := ⟨h.rows, h.templates⟩

theorem writeEdit_keepsFit {id : Nat} {tx new : Transaction} {counted partnerCounted : Bool}
    {partner : Option (Nat × Transaction × Transaction)} (hnew : G → BooksFit db → RowFits db.categories new)
    (hleg : ∀ p, partner = some p → G → BooksFit db → RowFits db.categories p.2.2)
    (h : writeEdit db orgId id tx new counted partner partnerCounted = .ok db') : KeepsFit G db db' := by
  obtain ⟨db₁, hdb₁, h⟩ := bind_eq_ok.mp h
  have hreverted : KeepsFit G db db₁ := keepsFit_doIf_revert hdb₁
  have hcats : db₁.categories = db.categories := by
    unfold doIf at hdb₁
    split at hdb₁
    · rw [revertBalance_ok hdb₁]
      rfl
    · rw [Except.ok.inj hdb₁]
  rcases partner with _ | ⟨partnerId, leg, newLeg⟩
  · have hedited : KeepsFit G db (editTransaction db₁ id (fun _ => new)) := by
      refine ⟨hreverted.grown, fun hg hb => ?_⟩
      have hkeeps : KeepsFit G db₁ (editTransaction db₁ id (fun _ => new)) := keepsFit_edit fun _ _ _ _ _ => hcats ▸ hnew hg hb
      exact hkeeps.fit hg (hreverted.fit hg hb)
    exact hedited.trans (keepsFit_doIf_apply h)
  · obtain ⟨db₂, hdb₂, h⟩ := bind_eq_ok.mp h
    obtain ⟨db₃, hdb₃, h⟩ := bind_eq_ok.mp h
    have hreverted₂ : KeepsFit G db db₂ := hreverted.trans (keepsFit_doIf_revert hdb₂)
    have hcats₂ : db₂.categories = db.categories := by
      rw [← hcats]
      unfold doIf at hdb₂
      split at hdb₂
      · rw [revertBalance_ok hdb₂]
        rfl
      · rw [Except.ok.inj hdb₂]
    have hedited : KeepsFit G db (editTransaction (editTransaction db₂ id (fun _ => new)) partnerId (fun _ => newLeg)) := by
      refine ⟨hreverted₂.grown, fun hg hb => ?_⟩
      have hfirst : KeepsFit G db₂ (editTransaction db₂ id (fun _ => new)) := keepsFit_edit fun _ _ _ _ _ => hcats₂ ▸ hnew hg hb
      have hsecond : KeepsFit G (editTransaction db₂ id (fun _ => new))
          (editTransaction (editTransaction db₂ id (fun _ => new)) partnerId (fun _ => newLeg)) :=
        keepsFit_edit fun _ _ _ _ _ => hcats₂ ▸ hleg _ rfl hg hb
      exact hsecond.fit hg (hfirst.fit hg (hreverted₂.fit hg hb))
    exact (hedited.trans (keepsFit_doIf_apply hdb₃)).trans (keepsFit_doIf_apply h)

theorem editedRow_category (today : Int) (tx : Transaction) (body : TransactionUpdate) (moves : Bool) :
    (editedRow today tx body moves).categoryId = body.categoryId.getD tx.categoryId := by
  unfold editedRow
  dsimp only
  split
  · rfl
  · split <;> rfl

/-- What an edit was checked for: the category and the type it leaves the row with, if it
touches either, and both types if it moves a leg. -/
theorem validateCategoryEdit_ok {tx : Transaction} {isLeg : Bool} {body : TransactionUpdate}
    (h : validateCategoryEdit db orgId tx isLeg body = .ok ()) :
    (body.categoryId.isSome ∨ body.type.isSome → Takes db.categories orgId (body.categoryId.getD tx.categoryId)
      ((body.type.map EntryType.toType).getD tx.type)) ∧
    (isLeg = true → body.categoryId.isSome →
      Takes db.categories orgId (body.categoryId.getD tx.categoryId) .transfer) := by
  unfold validateCategoryEdit at h
  dsimp only at h
  refine ⟨fun htouches => ?_, fun hleg hcat => ?_⟩
  · rw [if_pos htouches] at h
    obtain ⟨_, hvalid, -⟩ := bind_eq_ok.mp h
    exact validateCategoryForType_ok hvalid
  · rw [if_pos (.inl hcat), if_pos ⟨hleg, hcat⟩] at h
    obtain ⟨_, _, h⟩ := bind_eq_ok.mp h
    exact validateTransferCategory_ok h

theorem editedRow_fits {today : Int} {tx : Transaction} {isLeg moves : Bool} {body : TransactionUpdate}
    (h : validateCategoryEdit db orgId tx isLeg body = .ok ()) (horg : tx.orgId = orgId)
    (hfit : RowFits db.categories tx) : RowFits db.categories (editedRow today tx body moves) := by
  obtain ⟨-, hneworg, -, -, htype, -, -⟩ := editedRow_keeps today tx body moves
  have hcat := editedRow_category today tx body moves
  unfold RowFits
  rw [hneworg, htype, hcat]
  refine ⟨?_, ?_⟩
  · rcases body.type with _ | type
    · exact hfit.1
    · cases type <;> exact nofun
  · by_cases htouches : body.categoryId.isSome ∨ body.type.isSome
    · exact horg ▸ (validateCategoryEdit_ok h).1 htouches
    · obtain ⟨hnocat, hnotype⟩ := not_or.mp htouches
      rw [Option.not_isSome_iff_eq_none.mp hnocat, Option.not_isSome_iff_eq_none.mp hnotype]
      exact hfit.2

theorem mirroredLeg_fits {tx new leg : Transaction} {body : TransactionUpdate}
    (h : validateCategoryEdit db orgId tx true body = .ok ()) (horg : leg.orgId = orgId)
    (hfit : RowFits db.categories leg) : RowFits db.categories (mirroredLeg tx new leg body) := by
  refine ⟨hfit.1, ?_⟩
  show Takes db.categories leg.orgId (body.categoryId.getD leg.categoryId) leg.type
  rcases hcat : body.categoryId with _ | categoryId
  · exact hfit.2
  · have hboth := (validateCategoryEdit_ok h).2 rfl (by rw [hcat]; rfl)
    rw [hcat] at hboth
    exact horg ▸ hboth.any _

theorem syncOfEdit_fits {id : Nat} {today : Int} {tx : Transaction} {isLeg moves : Bool} {body : TransactionUpdate}
    {series : Option (RecurringTransaction × Option SeriesDateMove)}
    (h : validateCategoryEdit db orgId tx isLeg body = .ok ()) :
    SyncFits db orgId (syncOfEdit id tx (editedRow today tx body moves) body series) := by
  obtain ⟨-, -, -, -, htype, -, -⟩ := editedRow_keeps today tx body moves
  intro categoryId hcat
  have hcat : (if body.categoryId.isSome ∧ (editedRow today tx body moves).categoryId ≠ tx.categoryId
      then some (editedRow today tx body moves).categoryId else none) = some categoryId := hcat
  split at hcat
  · rename_i hsome
    obtain rfl := Option.some.inj hcat
    show Takes db.categories orgId _ (editedRow today tx body moves).type
    rw [htype, editedRow_category]
    exact (validateCategoryEdit_ok h).1 (.inl hsome.1)
  · cases hcat

theorem updateTransaction_keepsFit {today : Int} {id : Nat} {body : TransactionUpdate}
    (h : updateTransaction db today orgId id body = .ok db') : KeepsFit G db db' := by
  obtain ⟨tx, htx, h⟩ := bind_eq_ok.mp h
  obtain ⟨_, _, h⟩ := bind_eq_ok.mp h
  obtain ⟨_, _, h⟩ := bind_eq_ok.mp h
  obtain ⟨hget, horg⟩ := findTransaction_eq_some.mp (found_eq_ok.mp htx)
  -- what is written, the sync aside
  have hsync : ∀ {written : Db} {series : Option (RecurringTransaction × Option SeriesDateMove)} {isLeg moves : Bool},
      validateCategoryEdit db orgId tx isLeg body = .ok () → KeepsFit G db written →
      handOn written orgId tx.recurringId (syncOfEdit id tx (editedRow today tx body moves) body series) = .ok db' →
      KeepsFit G db db' := by
    intro written series isLeg moves hvalid hkeeps hwritten
    unfold handOn at hwritten
    split at hwritten
    · exact Except.ok.inj hwritten ▸ hkeeps
    · split at hwritten
      · exact Except.ok.inj hwritten ▸ hkeeps
      · rw [← Except.ok.inj hwritten]
        exact hkeeps.trans (propagateFieldsToSeries_keepsFit fun _ => (syncOfEdit_fits hvalid).grown hkeeps.grown)
  dsimp only at h
  rcases hpartner : (linkedRow db orgId tx).filter (fun p => isReciprocalPair (id, tx) (some p)) with _ | ⟨l, leg⟩
  · rw [hpartner] at h
    obtain ⟨_, _, h⟩ := bind_eq_ok.mp h
    obtain ⟨series, _, h⟩ := bind_eq_ok.mp h
    obtain ⟨_, hvalid, h⟩ := bind_eq_ok.mp h
    obtain ⟨_, _, h⟩ := bind_eq_ok.mp h
    obtain ⟨_, _, h⟩ := bind_eq_ok.mp h
    obtain ⟨written, hwrite, h⟩ := bind_eq_ok.mp h
    refine hsync hvalid (writeEdit_keepsFit (fun _ hb => ?_) (fun p hp => by cases hp) hwrite) h
    exact editedRow_fits hvalid horg (hb.rows id tx hget)
  · rw [hpartner] at h
    obtain ⟨_, _, h⟩ := bind_eq_ok.mp h
    obtain ⟨series, _, h⟩ := bind_eq_ok.mp h
    obtain ⟨_, hvalid, h⟩ := bind_eq_ok.mp h
    obtain ⟨_, _, h⟩ := bind_eq_ok.mp h
    obtain ⟨_, _, h⟩ := bind_eq_ok.mp h
    obtain ⟨_, _, h⟩ := bind_eq_ok.mp h
    obtain ⟨written, hwrite, h⟩ := bind_eq_ok.mp h
    obtain ⟨_, _, h⟩ := bind_eq_ok.mp h
    obtain ⟨-, hlget, hlorg⟩ := linkedRow_eq_some.mp (Option.filter_eq_some_iff.mp hpartner).1
    refine hsync hvalid (writeEdit_keepsFit (fun _ hb => ?_) (fun p hp _ hb => ?_) hwrite) h
    · exact editedRow_fits hvalid horg (hb.rows id tx hget)
    · obtain rfl := Option.some.inj hp
      exact mirroredLeg_fits hvalid hlorg (hb.rows l leg hlget)

theorem bulkUpdateOne_keepsFit {today : Int} {req : BulkUpdateRequest} {acc : Db × BulkUpdateResult} {id : Nat} :
    KeepsFit G acc.1 (bulkUpdateOne today orgId req acc id).1 := by
  obtain ⟨db, result⟩ := acc
  unfold bulkUpdateOne
  dsimp only
  split
  · exact .refl db
  · split
    · exact .refl db
    · split
      · exact .refl db
      · split
        · exact .refl db
        · split
          · exact .refl db
          · exact updateTransaction_keepsFit ‹updateTransaction _ _ _ _ _ = .ok _›

theorem bulkUpdateTransactions_keepsFit {today : Int} {req : BulkUpdateRequest} :
    KeepsFit G db (bulkUpdateTransactions db today orgId req).1 := by
  have hfold : ∀ (ids : List Nat) (acc : Db × BulkUpdateResult), KeepsFit G db acc.1 →
      KeepsFit G db (ids.foldl (bulkUpdateOne today orgId req) acc).1 := by
    intro ids
    induction ids with
    | nil => exact fun acc h => h
    | cons id ids ih => exact fun acc h => ih _ (h.trans bulkUpdateOne_keepsFit)
  exact hfold _ _ (.refl db)

/-! ## Deletes -/

theorem deleteTransactions_keepsFit (db : Db) (ids : List Nat) : KeepsFit G db (deleteTransactions db ids) := by
  refine keepsFit_write rfl (fun _ hb i t ht => ?_) (fun _ hb => hb.templates)
  have ht : ((db.transactions.remove (fun id => ids.contains id)).mapRows (fun _ t =>
      if t.linkedTransactionId.any (ids.contains ·) then { t with linkedTransactionId := none } else t)).get? i = some t := ht
  rw [Table.get?_mapRows, Option.map_eq_some_iff] at ht
  obtain ⟨a, ha, rfl⟩ := ht
  rw [Table.get?_remove] at ha
  split at ha
  · cases ha
  · have hsame : SameFit a (if a.linkedTransactionId.any (ids.contains ·) then { a with linkedTransactionId := none }
        else a) := sameFit_if ⟨rfl, rfl, rfl⟩
    exact hsame.row (hb.rows i a ha)

theorem keepsFit_closeBatchIfComplete (db : Db) (batchId : Nat) (exclude : List Nat) :
    KeepsFit G db (closeBatchIfComplete db batchId exclude) := by
  unfold closeBatchIfComplete
  split
  · exact .refl db
  · split
    · exact .refl db
    · split
      · exact .refl db
      · dsimp only
        split
        · exact keepsFit_elsewhere rfl rfl rfl
        · exact keepsFit_elsewhere rfl rfl rfl

theorem applyBatchSettlement_keepsFit (db : Db) (plan : BatchSettlementPlan) :
    KeepsFit G db (applyBatchSettlement db orgId plan) := by
  have hdemoted : KeepsFit G db (demoteRows db plan.demoted) := keepsFit_rewrite fun _ _ => sameFit_if ⟨rfl, rfl, rfl⟩
  have hsettled : KeepsFit G db (settleCounters (demoteRows db plan.demoted) orgId plan) :=
    hdemoted.trans (keepsFit_elsewhere rfl rfl rfl)
  exact hsettled.trans (keepsFit_foldl fun s id => keepsFit_closeBatchIfComplete s id plan.deletedIds)

theorem deleteLocked_keepsFit {locked : List Row} {ids : List Nat} (h : deleteLocked db orgId locked ids = .ok db') :
    KeepsFit G db db' := by
  obtain ⟨_, _, h⟩ := bind_eq_ok.mp h
  obtain ⟨db₁, hdb₁, h⟩ := bind_eq_ok.mp h
  obtain rfl := Except.ok.inj h
  have hreverted : KeepsFit G db db₁ := keepsFit_foldlM (fun s r s' _ hs => keepsFit_revertBalance hs) hdb₁
  exact (hreverted.trans (applyBatchSettlement_keepsFit db₁ _)).trans (deleteTransactions_keepsFit _ ids)

theorem deleteTransaction_keepsFit {id : Nat} {demoted : List Nat} (h : deleteTransaction db orgId id = .ok (db', demoted)) :
    KeepsFit G db db' := by
  obtain ⟨tx, _, h⟩ := bind_eq_ok.mp h
  obtain ⟨_, _, h⟩ := bind_eq_ok.mp h
  obtain ⟨mid, hmid, h⟩ := bind_eq_ok.mp h
  obtain rfl : mid = db' := (Prod.mk.inj (Except.ok.inj h)).1
  exact deleteLocked_keepsFit hmid

theorem bulkDeleteTransactions_keepsFit {ids : List Nat} {result : BulkDeleteResult}
    (h : bulkDeleteTransactions db orgId ids = .ok (db', result)) : KeepsFit G db db' := by
  obtain ⟨mid, hmid, h⟩ := bind_eq_ok.mp h
  obtain rfl : mid = db' := (Prod.mk.inj (Except.ok.inj h)).1
  exact deleteLocked_keepsFit hmid

/-! ## Reviews -/

theorem validateEditedCategory_ok {tx : Transaction} {edits : ReconciliationEdits} {u : Unit}
    (h : validateEditedCategory db orgId tx edits = .ok u) (horg : tx.orgId = orgId)
    (hfit : RowFits db.categories tx) : RowFits db.categories (reconciledRow tx edits) := by
  refine ⟨hfit.1, ?_⟩
  show Takes db.categories tx.orgId (edits.categoryId.getD tx.categoryId) tx.type
  unfold validateEditedCategory at h
  rcases hcat : edits.categoryId with _ | categoryId
  · exact hfit.2
  · rw [hcat] at h
    exact horg ▸ validateCategoryForType_ok h

theorem applyEdits_keepsFit {today : Int} {id : Nat} {tx new : Transaction} {edits : ReconciliationEdits}
    {linkTarget : Option Row} {counted : Bool} (hget : db.transactions.get? id = some tx) (horg : tx.orgId = orgId)
    (h : applyEdits db today orgId (id, tx) edits linkTarget counted = .ok (db', new)) : KeepsFit G db db' := by
  obtain ⟨_, _, h⟩ := bind_eq_ok.mp h
  obtain ⟨_, hvalid, h⟩ := bind_eq_ok.mp h
  obtain ⟨db₁, hdb₁, h⟩ := bind_eq_ok.mp h
  obtain ⟨db₂, hdb₂, h⟩ := bind_eq_ok.mp h
  obtain ⟨_, _, h⟩ := bind_eq_ok.mp h
  obtain ⟨_, _, h⟩ := bind_eq_ok.mp h
  obtain ⟨rfl, rfl⟩ := Prod.mk.inj (Except.ok.inj h)
  have hmoved : KeepsFit G db db₂ := (keepsFit_doIf_revert hdb₁).trans (keepsFit_doIf (fun _ hw => keepsFit_applyBalance hw) hdb₂)
  refine ⟨hmoved.grown, fun hg hb => ?_⟩
  have hedit : KeepsFit G db₂ (editTransaction db₂ id (fun _ => reconciledRow tx edits)) :=
    keepsFit_edit fun _ _ _ _ _ => hmoved.grown.row (validateEditedCategory_ok hvalid horg (hb.rows id tx hget))
  exact hedit.fit hg (hmoved.fit hg hb)

theorem applyPayload_keepsFit {today : Int} {id : Nat} {tx : Transaction} {t : ReconciliationTransition}
    {sourcePartner : Option Row} {counted : Bool} {outcome : Transaction × Option Row}
    (hget : db.transactions.get? id = some tx) (horg : tx.orgId = orgId)
    (h : applyPayload db today orgId (id, tx) t sourcePartner counted = .ok (db', outcome)) : KeepsFit G db db' := by
  unfold applyPayload at h
  split at h
  · obtain ⟨⟨mid, new⟩, hmid, h⟩ := bind_eq_ok.mp h
    obtain rfl : mid = db' := (Prod.mk.inj (Except.ok.inj h)).1
    exact applyEdits_keepsFit hget horg hmid
  · obtain ⟨⟨mid, matched⟩, hmid, h⟩ := bind_eq_ok.mp h
    obtain rfl : mid = db' := (Prod.mk.inj (Except.ok.inj h)).1
    obtain ⟨_, _, hmid⟩ := bind_eq_ok.mp hmid
    obtain ⟨target, _, hmid⟩ := bind_eq_ok.mp hmid
    iterate 3 obtain ⟨_, _, hmid⟩ := bind_eq_ok.mp hmid
    obtain rfl := (Prod.mk.inj (Except.ok.inj hmid)).1
    exact keepsFit_setLink db id _
  · obtain rfl : db = db' := (Prod.mk.inj (Except.ok.inj h)).1
    exact .refl db

theorem applyBalanceForTransition_keepsFit {tx : Transaction} {source target : Bool}
    (h : applyBalanceForTransition db orgId tx source target = .ok db') : KeepsFit G db db' := by
  unfold applyBalanceForTransition at h
  split at h
  · exact Except.ok.inj h ▸ .refl db
  · split at h
    · exact Except.ok.inj h ▸ .refl db
    · split at h
      · exact keepsFit_revertBalance h
      · exact keepsFit_applyBalance h

theorem reconcileOne_keepsFit {today : Int} {batchId : Nat} {t : ReconciliationTransition}
    (h : reconcileOne db today orgId batchId t = .ok db') : KeepsFit G db db' := by
  obtain ⟨_, _, h⟩ := bind_eq_ok.mp h
  obtain ⟨tx, htx, h⟩ := bind_eq_ok.mp h
  obtain ⟨_, _, h⟩ := bind_eq_ok.mp h
  obtain ⟨hget, horg⟩ := findTransaction_eq_some.mp (found_eq_ok.mp htx)
  dsimp only at h
  split at h
  · exact Except.ok.inj h ▸ .refl db
  · obtain ⟨_, _, h⟩ := bind_eq_ok.mp h
    obtain ⟨_, _, h⟩ := bind_eq_ok.mp h
    obtain ⟨⟨db₁, outcome⟩, hpayload, h⟩ := bind_eq_ok.mp h
    obtain ⟨db₂, hbalance, h⟩ := bind_eq_ok.mp h
    obtain rfl := Except.ok.inj h
    have hstate : KeepsFit G db₁ (editTransaction db₁ t.transactionId (fun r => { r with reconciliationState := t.toState })) :=
      keepsFit_edit fun _ _ _ _ hfit => hfit
    exact (((applyPayload_keepsFit hget horg hpayload).trans hstate).trans
      (applyBalanceForTransition_keepsFit hbalance)).trans (keepsFit_elsewhere rfl rfl rfl)

theorem reconcileRequest_keepsFit {today : Int} {batchId : Nat} {transitions : List ReconciliationTransition}
    (h : reconcileRequest db today orgId batchId transitions = .ok db') : KeepsFit G db db' := by
  obtain ⟨_, _, h⟩ := bind_eq_ok.mp h
  obtain ⟨mid, hmid, h⟩ := bind_eq_ok.mp h
  obtain rfl := Except.ok.inj h
  exact (keepsFit_foldlM (fun s t s' _ hs => reconcileOne_keepsFit hs) hmid).trans (keepsFit_closeBatchIfComplete mid batchId [])

/-! ## Imports -/

theorem claimConfirm_keepsFit {accountId : Nat} (h : claimConfirm db orgId accountId = .ok db') : KeepsFit G db db' := by
  obtain ⟨_, _, h⟩ := bind_eq_ok.mp h
  obtain rfl := Except.ok.inj h
  exact keepsFit_elsewhere rfl rfl rfl

/-- What a confirmed row needs of the transfer category: nothing, unless it makes a pair and
names no category for it. -/
def RowPairsIntoBoth (cats : Table Category) (orgId : Nat) (row : ImportConfirmRow) : Prop :=
  row.action ≠ .create → row.recategorize = true → row.transferCategoryId = none → TransferBoth cats orgId

theorem linkByType_keepsFit {row : ImportConfirmRow} {n m : Nat} {new partner : Transaction}
    (hnew : db.transactions.get? n = some new) (hpartner : db.transactions.get? m = some partner)
    (hneworg : new.orgId = orgId) (hpartnerorg : partner.orgId = orgId)
    (hG : G → row.recategorize = true → row.transferCategoryId = none → TransferBoth db.categories orgId)
    (h : linkByType db row (n, new) (m, partner) = .ok db') : KeepsFit G db db' := by
  unfold linkByType at h
  split at h
  · exact linkPair_keepsFit h hnew hpartner (hneworg ▸ hG)
  · exact linkPair_keepsFit h hpartner hnew (hpartnerorg ▸ hG)

theorem confirmRow_keepsFit {accountId id : Nat} {row : ImportConfirmRow}
    (hG : G → RowPairsIntoBoth db.categories orgId row)
    (h : confirmRow db orgId accountId row = .ok (db', id)) : KeepsFit G db db' := by
  obtain ⟨account, _, h⟩ := bind_eq_ok.mp h
  obtain ⟨_, _, h⟩ := bind_eq_ok.mp h
  obtain ⟨⟨db₁, new⟩, hnew, h⟩ := bind_eq_ok.mp h
  obtain ⟨hkeeps, hcats, hget, hneworg, -⟩ := createTransactionNoCommit_keepsFit (G := G) hnew
  dsimp only at h
  split at h
  · obtain rfl := (Prod.mk.inj (Except.ok.inj h)).1
    exact hkeeps
  · rename_i partnerId haction
    obtain ⟨partner, hpartner, h⟩ := bind_eq_ok.mp h
    iterate 4 obtain ⟨_, _, h⟩ := bind_eq_ok.mp h
    obtain ⟨db₂, hlink, h⟩ := bind_eq_ok.mp h
    obtain rfl := (Prod.mk.inj (Except.ok.inj h)).1
    obtain ⟨hpget, hporg⟩ := findTransaction_eq_some.mp (found_eq_ok.mp hpartner)
    refine hkeeps.trans (linkByType_keepsFit hget hpget hneworg hporg (fun hg => ?_) hlink)
    rw [hcats]
    exact hG hg (by rw [haction]; exact nofun)
  · rename_i partnerAccountId haction
    obtain ⟨⟨db₂, partner⟩, hpartner, h⟩ := bind_eq_ok.mp h
    obtain ⟨db₃, hlink, h⟩ := bind_eq_ok.mp h
    obtain rfl := (Prod.mk.inj (Except.ok.inj h)).1
    obtain ⟨hkeeps₂, hcats₂, hget₂, hporg, -⟩ := createTransactionNoCommit_keepsFit (G := G) hpartner
    have hnewThere : db₂.transactions.get? new.1 = some new.2 := by
      obtain ⟨-, -, hnext, hdb₂⟩ := createTransactionNoCommit_ok hpartner
      rw [hdb₂]
      exact Table.get?_insert_of_some hget
    refine (hkeeps.trans hkeeps₂).trans (linkByType_keepsFit hnewThere hget₂ hneworg hporg (fun hg => ?_) hlink)
    rw [hcats₂, hcats]
    exact hG hg (by rw [haction]; exact nofun)

theorem applyConfirmRows_keepsFit {accountId : Nat} {rows : List ImportConfirmRow}
    (hG : G → ∀ row ∈ rows, RowPairsIntoBoth db.categories orgId row) :
    KeepsFit G db (applyConfirmRows db orgId accountId rows).1 := by
  unfold applyConfirmRows
  refine List.foldlRecOn (motive := fun acc : Db × List Nat => KeepsFit G db acc.1) rows _ (.refl db) ?_
  intro acc h row hrow
  split
  · rename_i mid id hmid
    refine h.trans (confirmRow_keepsFit (fun hg => ?_) hmid)
    intro haction hre hnone
    exact h.grown.transferBoth (hG hg row hrow haction hre hnone)
  · exact h

theorem confirmChunk_keepsFit {batchId : Nat} {rows : List ImportConfirmRow} {completed : Bool}
    (hG : G → ∀ row ∈ rows, RowPairsIntoBoth db.categories orgId row) :
    KeepsFit G db (confirmChunk db orgId batchId rows completed) := by
  unfold confirmChunk
  split
  · exact .refl db
  · rename_i batch _
    have happlied : KeepsFit G db (applyConfirmRows db orgId batch.accountId rows).1 := applyConfirmRows_keepsFit hG
    dsimp only
    generalize applyConfirmRows db orgId batch.accountId rows = applied at happlied ⊢
    obtain ⟨db₁, ids⟩ := applied
    have henrolled : KeepsFit G db (enrolRows db₁ orgId batchId ids) := by
      have hrows : KeepsFit G db₁ (updateRows db₁ orgId (fun id _ => ids.contains id)
          (fun t => { t with importBatchId := some batchId })) := keepsFit_rewriteRows fun t => ⟨rfl, rfl, rfl⟩
      exact (happlied.trans hrows).trans (keepsFit_elsewhere rfl rfl rfl)
    dsimp only
    split
    · have hcleared : KeepsFit G (enrolRows db₁ orgId batchId ids)
          { enrolRows db₁ orgId batchId ids with
            transactions := (enrolRows db₁ orgId batchId ids).transactions.mapRows (fun _ t =>
              if t.importBatchId = some batchId then { t with importBatchId := none } else t) } :=
        keepsFit_rewrite fun _ _ => sameFit_if ⟨rfl, rfl, rfl⟩
      exact (henrolled.trans hcleared).trans (keepsFit_elsewhere rfl rfl rfl)
    · exact henrolled

/-! ## Templates -/

theorem createRecurring_keepsFit {today : Int} {body : RecurringCreate}
    (h : createRecurring db today orgId body = .ok db') : KeepsFit G db db' := by
  obtain ⟨_, _, h⟩ := bind_eq_ok.mp h
  obtain ⟨_, hvalid, h⟩ := bind_eq_ok.mp h
  obtain ⟨_, _, h⟩ := bind_eq_ok.mp h
  obtain ⟨_, _, h⟩ := bind_eq_ok.mp h
  obtain rfl := Except.ok.inj h
  exact keepsFit_insertRecurring fun _ _ => validateCategoryForType_ok hvalid

theorem promoteToRecurring_keepsFit {today : Int} {id : Nat} {body : PromoteToRecurringRequest}
    (h : promoteToRecurring db today orgId id body = .ok db') : KeepsFit G db db' := by
  obtain ⟨_, _, h⟩ := bind_eq_ok.mp h
  obtain ⟨tx, htx, h⟩ := bind_eq_ok.mp h
  iterate 4 obtain ⟨_, _, h⟩ := bind_eq_ok.mp h
  obtain rfl := Except.ok.inj h
  obtain ⟨hget, horg⟩ := findTransaction_eq_some.mp (found_eq_ok.mp htx)
  refine KeepsFit.trans (keepsFit_insertRecurring fun _ hb => ?_) (keepsFit_edit fun _ _ _ _ hfit => hfit)
  have hfit := (hb.rows id tx hget).2
  rw [horg] at hfit
  exact hfit

/-- What an update leaves a template with, and what it was checked for. -/
theorem updatedTemplate_ok {today : Int} {recurringId : Nat} {was r : RecurringTransaction} {body : RecurringUpdate}
    (h : updatedTemplate db today orgId recurringId was body = .ok r) :
    r.orgId = was.orgId ∧ r.type = (body.type.map EntryType.toType).getD was.type ∧
      r.categoryId = body.categoryId.getD was.categoryId ∧
      (body.type.isSome ∨ body.categoryId.isSome → Takes db.categories orgId r.categoryId r.type) := by
  obtain ⟨_, _, h⟩ := bind_eq_ok.mp h
  obtain ⟨_, _, h⟩ := bind_eq_ok.mp h
  obtain ⟨_, _, h⟩ := bind_eq_ok.mp h
  obtain ⟨_, hvalid, h⟩ := bind_eq_ok.mp h
  obtain ⟨resumed, hresumed, h⟩ := bind_eq_ok.mp h
  obtain ⟨_, _, h⟩ := bind_eq_ok.mp h
  obtain ⟨_, _, h⟩ := bind_eq_ok.mp h
  obtain rfl := Except.ok.inj h
  obtain ⟨next, -, rfl⟩ := resumeTemplate_ok hresumed
  exact ⟨rfl, rfl, rfl, fun htouches => validateCategoryForType_ok (checkIf_eq_ok.mp hvalid htouches)⟩

theorem syncedLegs_fit {cats : Table Category} {was r : RecurringTransaction} {exp inc : Transaction}
    (hr : Takes cats orgId r.categoryId .transfer) (hexpOrg : exp.orgId = orgId) (hincOrg : inc.orgId = orgId)
    (hexp : RowFits cats exp) (hinc : RowFits cats inc) :
    RowFits cats (syncedLegs was r exp inc).1 ∧ RowFits cats (syncedLegs was r exp inc).2 := by
  have hcat : ∀ {c : Prop} [Decidable c] {t : Transaction}, t.orgId = orgId → RowFits cats t →
      Takes cats t.orgId (if c then r.categoryId else t.categoryId) t.type := by
    intro c _ t horg hfit
    split
    · exact horg ▸ hr.any t.type
    · exact hfit.2
  exact ⟨⟨hexp.1, hcat hexpOrg hexp⟩, ⟨hinc.1, hcat hincOrg hinc⟩⟩

/-- The legs of the pairs a sync rewrites are rows of the org's. -/
theorem mem_pendingTransferPairs {recurringId : Nat} {p : Row × Row} (h : p ∈ pendingTransferPairs db orgId recurringId) :
    (db.transactions.get? p.1.1 = some p.1.2 ∧ p.1.2.orgId = orgId) ∧
      (db.transactions.get? p.2.1 = some p.2.2 ∧ p.2.2.orgId = orgId) := by
  unfold pendingTransferPairs at h
  extract_lets legs at h
  have hleg : ∀ row ∈ legs, db.transactions.get? row.1 = some row.2 ∧ row.2.orgId = orgId := by
    intro row hrow
    obtain ⟨hget, htest⟩ := Table.mem_select.mp (show (row.1, row.2) ∈ _ from hrow)
    simp only [Bool.and_eq_true, beq_iff_eq] at htest
    exact ⟨hget, htest.1.1.1.1.1⟩
  obtain ⟨exp, hexp, hmade⟩ := List.mem_filterMap.mp h
  split at hmade
  · rename_i inc hinc
    split at hmade
    · obtain rfl := Option.some.inj hmade
      obtain ⟨l, -, hfind⟩ := Option.bind_eq_some_iff.mp hinc
      exact ⟨hleg exp hexp, hleg inc (List.mem_of_find?_eq_some hfind)⟩
    · cases hmade
  · cases hmade

theorem syncPendingTransferPairs_keepsFit {recurringId : Nat} {was r : RecurringTransaction}
    (hr : G → BooksFit db → Takes db.categories orgId r.categoryId .transfer)
    (h : syncPendingTransferPairs db orgId recurringId was r = .ok db') : KeepsFit G db db' := by
  obtain ⟨_, _, h⟩ := bind_eq_ok.mp h
  obtain rfl := Except.ok.inj h
  let write (db : Db) (p : Row × Row) : Db :=
    editTransaction (editTransaction db p.1.1 (fun _ => (syncedLegs was r p.1.2 p.2.2).1)) p.2.1
      (fun _ => (syncedLegs was r p.1.2 p.2.2).2)
  have hcats : ∀ (pairs : List (Row × Row)) (s : Db), (pairs.foldl write s).categories = s.categories := by
    intro pairs
    induction pairs with
    | nil => exact fun _ => rfl
    | cons p pairs ih => exact fun s => ih (write s p)
  have hfold : ∀ (pairs : List (Row × Row)) (s : Db),
      (∀ p ∈ pairs, RowFits s.categories (syncedLegs was r p.1.2 p.2.2).1 ∧
        RowFits s.categories (syncedLegs was r p.1.2 p.2.2).2) → BooksFit s → BooksFit (pairs.foldl write s) := by
    intro pairs
    induction pairs with
    | nil => exact fun _ _ hb => hb
    | cons p pairs ih =>
      intro s hfits hb
      obtain ⟨hexp, hinc⟩ := hfits p List.mem_cons_self
      have hfirst : KeepsFit True s (editTransaction s p.1.1 (fun _ => (syncedLegs was r p.1.2 p.2.2).1)) :=
        keepsFit_edit fun _ _ _ _ _ => hexp
      have hsecond : KeepsFit True (editTransaction s p.1.1 (fun _ => (syncedLegs was r p.1.2 p.2.2).1)) (write s p) :=
        keepsFit_edit fun _ _ _ _ _ => hinc
      exact ih (write s p) (fun q hq => hfits q (List.mem_cons_of_mem _ hq))
        ((hfirst.trans hsecond).fit trivial hb)
  refine ⟨.of_eq (hcats _ db), fun hg hb => hfold _ db (fun p hp => ?_) hb⟩
  obtain ⟨⟨hexp, hexpOrg⟩, hinc, hincOrg⟩ := mem_pendingTransferPairs hp
  exact syncedLegs_fit (hr hg hb) hexpOrg hincOrg (hb.rows _ _ hexp) (hb.rows _ _ hinc)

theorem updateRecurring_keepsFit {today : Int} {recurringId : Nat} {body : RecurringUpdate}
    (h : updateRecurring db today orgId recurringId body = .ok db') : KeepsFit G db db' := by
  obtain ⟨was, hwas, h⟩ := bind_eq_ok.mp h
  obtain ⟨r, hr, h⟩ := bind_eq_ok.mp h
  obtain ⟨hget, horg⟩ := Option.filter_eq_some_iff.mp (found_eq_ok.mp hwas)
  have horg : was.orgId = orgId := beq_iff_eq.mp horg
  obtain ⟨hrorg, hrtype, hrcat, hvalid⟩ := updatedTemplate_ok hr
  have hfit : BooksFit db → TemplateFits db.categories r := by
    intro hb
    unfold TemplateFits
    by_cases htouches : body.type.isSome ∨ body.categoryId.isSome
    · rw [hrorg, horg]
      exact hvalid htouches
    · obtain ⟨hnotype, hnocat⟩ := not_or.mp htouches
      rw [hrorg, hrtype, hrcat, Option.not_isSome_iff_eq_none.mp hnotype, Option.not_isSome_iff_eq_none.mp hnocat]
      exact hb.templates recurringId was hget
  have hedit : KeepsFit G db (editRecurring db recurringId (fun _ => r)) := keepsFit_editRecurring fun _ _ _ hb _ => hfit hb
  have hsyncFits : SyncFits db orgId (syncOfTemplate was r) := by
    intro categoryId hcat
    have hcat : (if r.categoryId ≠ was.categoryId ∧ r.type = was.type then some r.categoryId else none) =
        some categoryId := hcat
    split at hcat
    · rename_i hchanged
      obtain rfl := Option.some.inj hcat
      show Takes db.categories orgId r.categoryId was.type
      rw [← hchanged.2]
      refine hvalid (.inr ?_)
      rcases hnone : body.categoryId with _ | c
      · rw [hnone] at hrcat
        exact absurd hrcat hchanged.1
      · rfl
    · cases hcat
  extract_lets db₁ sync db₂ at h
  have hsynced : KeepsFit G db db₂ := by
    unfold db₂
    split
    · exact hedit
    · exact hedit.trans (propagateFieldsToSeries_keepsFit fun _ => hsyncFits.grown hedit.grown)
  split at h
  · rename_i htransfer
    refine ⟨?_, fun hg hb => ?_⟩
    · have hpairs : KeepsFit False db₂ db' := syncPendingTransferPairs_keepsFit (fun hf => hf.elim) h
      exact hsynced.grown.trans hpairs.grown
    · have htakes : Takes db.categories orgId r.categoryId .transfer := by
        have := hfit hb
        unfold TemplateFits at this
        rwa [hrorg, horg, htransfer.1] at this
      have hpairs : KeepsFit G db₂ db' := syncPendingTransferPairs_keepsFit (fun _ _ => hsynced.grown.takes htakes) h
      exact hpairs.fit hg (hsynced.fit hg hb)
  · exact Except.ok.inj h ▸ hsynced

theorem removePendingTransactions_keepsFit (db : Db) (today : Int) (orgId recurringId : Nat) :
    KeepsFit G db (removePendingTransactions db today orgId recurringId).1 := by
  unfold removePendingTransactions
  dsimp only
  split
  · exact .refl db
  · exact (applyBatchSettlement_keepsFit db _).trans (deleteTransactions_keepsFit _ _)

theorem stopRecurring_keepsFit {today : Int} {recurringId : Nat} {outcome : PendingRemovalResult}
    (h : stopRecurring db today orgId recurringId = .ok (db', outcome)) : KeepsFit G db db' := by
  obtain ⟨_, _, h⟩ := bind_eq_ok.mp h
  obtain ⟨rfl, -⟩ := Prod.mk.inj (Except.ok.inj h)
  have hstopped : KeepsFit G db (editRecurring db recurringId (fun r => { r with isActive := false })) :=
    keepsFit_editRecurring fun _ _ _ _ hfit => hfit
  exact (hstopped.trans (removePendingTransactions_keepsFit _ today orgId recurringId)).trans
    (keepsFit_rewriteRows fun t => ⟨rfl, rfl, rfl⟩)

theorem deleteRecurring_keepsFit {today : Int} {recurringId : Nat} {outcome : PendingRemovalResult}
    (h : deleteRecurring db today orgId recurringId = .ok (db', outcome)) : KeepsFit G db db' := by
  obtain ⟨_, _, h⟩ := bind_eq_ok.mp h
  obtain ⟨rfl, -⟩ := Prod.mk.inj (Except.ok.inj h)
  have hgone : ∀ mid : Db, KeepsFit G mid { mid with
      recurring := mid.recurring.remove (· == recurringId)
      transactions := mid.transactions.mapRows (fun _ t =>
        if t.recurringId = some recurringId then { t with recurringId := none } else t) } := by
    refine fun mid => keepsFit_write rfl (fun _ hb i t ht => ?_) (fun _ hb i r hr => ?_)
    · rw [Table.get?_mapRows, Option.map_eq_some_iff] at ht
      obtain ⟨a, ha, rfl⟩ := ht
      have hsame : SameFit a (if a.recurringId = some recurringId then { a with recurringId := none } else a) :=
        sameFit_if ⟨rfl, rfl, rfl⟩
      exact hsame.row (hb.rows i a ha)
    · rw [Table.get?_remove] at hr
      split at hr
      · cases hr
      · exact hb.templates i r hr
  exact (removePendingTransactions_keepsFit db today orgId recurringId).trans (hgone _)

/-! ## Generation -/

theorem advanceFrontier_keepsFit {recurringId : Nat} {r : RecurringTransaction} {due : Int}
    (h : advanceFrontier db recurringId r due = .ok db') : KeepsFit G db db' := by
  obtain ⟨next, _, h⟩ := bind_eq_ok.mp h
  obtain rfl := Except.ok.inj h
  have hmoved : KeepsFit G db (editRecurring db recurringId (fun r =>
      { r with nextDueDate := next, occurrencesElapsed := r.occurrencesElapsed + 1, lastSpentDate := some due })) :=
    keepsFit_editRecurring fun _ _ _ _ hfit => hfit
  exact hmoved.trans (keepsFit_elsewhere rfl rfl rfl)

/-- An occurrence is of the type and category of its template, each leg of a transfer in the
category that takes both. -/
theorem createOccurrence_keepsFit {today : Int} {recurringId : Nat} {r : RecurringTransaction} {due : Int}
    {settle skipped : Bool} {tx : Transaction} (hr : findRecurring db orgId recurringId = some r)
    (h : createOccurrence db today orgId recurringId r due settle skipped = .ok (db', tx)) : KeepsFit G db db' := by
  obtain ⟨hget, horg⟩ := Option.filter_eq_some_iff.mp hr
  have horg : r.orgId = orgId := beq_iff_eq.mp horg
  have htemplate : BooksFit db → Takes db.categories orgId r.categoryId r.type :=
    fun hb => horg ▸ hb.templates recurringId r hget
  unfold createOccurrence at h
  dsimp only at h
  split at h
  · rename_i htransfer
    obtain ⟨toAccountId, _, h⟩ := bind_eq_ok.mp h
    obtain ⟨linked, hlink, h⟩ := bind_eq_ok.mp h
    obtain ⟨paid, hpaid, h⟩ := bind_eq_ok.mp h
    obtain ⟨done, hdone, h⟩ := bind_eq_ok.mp h
    obtain rfl : done = db' := (Prod.mk.inj (Except.ok.inj h)).1
    refine newPair_keepsFit ?_ ?_ hlink hpaid hdone
    · exact fun _ hb => ⟨nofun, (htransfer ▸ htemplate hb).any _⟩
    · exact fun _ hb => ⟨nofun, (htransfer ▸ htemplate hb).any _⟩
  · rename_i hplain
    obtain ⟨done, hdone, h⟩ := bind_eq_ok.mp h
    obtain rfl : done = db' := (Prod.mk.inj (Except.ok.inj h)).1
    exact KeepsFit.trans (keepsFit_insertRow fun _ hb => ⟨hplain, htemplate hb⟩) (keepsFit_doIf_apply hdone)

theorem materialiseNext_keepsFit {today : Int} {recurringId : Nat} {occurrenceDate : Int} {skipped : Bool}
    (h : materialiseNext db today orgId recurringId occurrenceDate skipped = .ok db') : KeepsFit G db db' := by
  obtain ⟨r, hr, h⟩ := bind_eq_ok.mp h
  iterate 5 obtain ⟨_, _, h⟩ := bind_eq_ok.mp h
  obtain ⟨⟨mid, tx⟩, hmid, h⟩ := bind_eq_ok.mp h
  exact (createOccurrence_keepsFit (found_eq_ok.mp hr) hmid).trans (advanceFrontier_keepsFit h)

theorem skipOccurrence_keepsFit {id : Nat} (h : skipOccurrence db orgId id = .ok db') : KeepsFit G db db' := by
  obtain ⟨_, _, h⟩ := bind_eq_ok.mp h
  iterate 5 obtain ⟨_, _, h⟩ := bind_eq_ok.mp h
  split at h
  · cases h
  · obtain rfl := Except.ok.inj h
    exact keepsFit_edit fun _ _ _ _ hfit => hfit

theorem settleRow_keepsFit {row : Row} (h : settleRow orgId db row = .ok db') : KeepsFit G db db' := by
  have hsettled : KeepsFit G db (editTransaction db row.1 (fun t =>
      { t with status := .settled, settledDate := some (t.settledDate.getD t.date) })) :=
    keepsFit_edit fun _ _ _ _ hfit => hfit
  exact hsettled.trans (keepsFit_applyBalance h)

theorem settleDueAuto_keepsFit {today : Int} {n : Nat} (h : settleDueAuto db today orgId = .ok (db', n)) : KeepsFit G db db' := by
  obtain ⟨_, _, h⟩ := bind_eq_ok.mp h
  obtain ⟨mid, hmid, h⟩ := bind_eq_ok.mp h
  obtain rfl : mid = db' := (Prod.mk.inj (Except.ok.inj h)).1
  exact keepsFit_foldlM (fun s row s' _ hs => settleRow_keepsFit hs) hmid

theorem generateFor_keepsFit {today : Int} {recurringId : Nat} {pStart periodEnd : Int} :
    ∀ (fuel : Nat) {db db' : Db} {tally tally' : GenerateTally},
      generateFor today orgId recurringId pStart periodEnd fuel (db, tally) = .ok (db', tally') → KeepsFit G db db'
  | 0, db, db', tally, tally', h => by
    obtain rfl : db = db' := (Prod.mk.inj (Except.ok.inj h)).1
    exact .refl db
  | fuel + 1, db, db', tally, tally', h => by
    unfold generateFor at h
    split at h
    · obtain rfl : db = db' := (Prod.mk.inj (Except.ok.inj h)).1
      exact .refl db
    · rename_i r hr
      split at h
      · dsimp only at h
        split at h
        · obtain ⟨mid, hmid, h⟩ := bind_eq_ok.mp h
          exact (advanceFrontier_keepsFit hmid).trans (generateFor_keepsFit fuel h)
        · obtain ⟨⟨mid, tx⟩, hmid, h⟩ := bind_eq_ok.mp h
          obtain ⟨moved, hmoved, h⟩ := bind_eq_ok.mp h
          exact ((createOccurrence_keepsFit hr hmid).trans (advanceFrontier_keepsFit hmoved)).trans (generateFor_keepsFit fuel h)
      · obtain rfl : db = db' := (Prod.mk.inj (Except.ok.inj h)).1
        exact .refl db

theorem generateDueTransactions_keepsFit {today : Int} {result : GenerateResult}
    (h : generateDueTransactions db today orgId = .ok (db', result)) : KeepsFit G db db' := by
  unfold generateDueTransactions at h
  dsimp only at h
  obtain ⟨⟨settled, n⟩, hsettled, h⟩ := bind_eq_ok.mp h
  obtain ⟨⟨done, tally⟩, hloop, h⟩ := bind_eq_ok.mp h
  obtain rfl : done = db' := (Prod.mk.inj (Except.ok.inj h)).1
  have hinv := foldlM_invariant (I := fun acc : Db × GenerateTally => KeepsFit G settled acc.1)
    (fun acc recurringId acc' hstep hI => hI.trans (generateFor_keepsFit maxCatchupIterations (by exact hstep))) _ hloop
    (.refl settled)
  exact (settleDueAuto_keepsFit hsettled).trans hinv

/-! ## Every call -/

/-- What a call of the ledger is held to: wherever it puts two legs into one category, that
one takes both. -/
def PairsIntoBoth (db : Db) : Call → Prop
  | .createTransfer orgId body => body.categoryId = none → TransferBoth db.categories orgId
  | .pairExistingTransactions orgId _ _ recategorize transferCategoryId =>
    recategorize = true → transferCategoryId = none → TransferBoth db.categories orgId
  | .convertAndCreateLeg orgId sourceId _ recategorize transferCategoryId =>
    ConvertsIntoBoth db orgId sourceId recategorize transferCategoryId
  | .confirmChunk orgId _ rows _ => ∀ row ∈ rows, RowPairsIntoBoth db.categories orgId row
  | _ => True

theorem map_fst_ok {α : Type} {x : Result (Db × α)} (h : x.map Prod.fst = .ok db') : ∃ a, x = .ok (db', a) := by
  cases x with
  | error e => cases h
  | ok p => exact ⟨p.2, by rw [← Except.ok.inj h]⟩

/-- **A call adds categories at most, and keeps the rows fitting if it pairs into ones that
take both.** -/
theorem handle_keepsFit {call : Call} (h : handle db call = .ok db') : KeepsFit (PairsIntoBoth db call) db db' := by
  cases call with
  | createTransaction orgId body => exact createTransaction_keepsFit h
  | createTransfer orgId body => exact createTransfer_keepsFit (fun hG => hG) h
  | updateTransaction today orgId id body => exact updateTransaction_keepsFit h
  | bulkUpdateTransactions today orgId req => exact Except.ok.inj h ▸ bulkUpdateTransactions_keepsFit
  | deleteTransaction orgId id =>
    obtain ⟨_, h⟩ := map_fst_ok h
    exact deleteTransaction_keepsFit h
  | bulkDeleteTransactions orgId ids =>
    obtain ⟨_, h⟩ := map_fst_ok h
    exact bulkDeleteTransactions_keepsFit h
  | pairExistingTransactions orgId expenseId incomeId recategorize transferCategoryId =>
    exact pairExistingTransactions_keepsFit (fun hG => hG) h
  | convertAndCreateLeg orgId sourceId destinationAccountId recategorize transferCategoryId =>
    exact convertAndCreateLeg_keepsFit (fun hG => hG) h
  | unpairTransactions orgId id expenseFallbackCategoryId incomeFallbackCategoryId => exact unpairTransactions_keepsFit h
  | adjustAccountBalance today orgId accountId targetBalance reason => exact adjustAccountBalance_keepsFit h
  | claimConfirm orgId accountId => exact claimConfirm_keepsFit h
  | confirmChunk orgId batchId rows completed => exact Except.ok.inj h ▸ confirmChunk_keepsFit fun hG => hG
  | reconcileRequest today orgId batchId transitions => exact reconcileRequest_keepsFit h
  | createRecurring today orgId body => exact createRecurring_keepsFit h
  | promoteToRecurring today orgId id body => exact promoteToRecurring_keepsFit h
  | updateRecurring today orgId recurringId body => exact updateRecurring_keepsFit h
  | stopRecurring today orgId recurringId =>
    obtain ⟨_, h⟩ := map_fst_ok h
    exact stopRecurring_keepsFit h
  | deleteRecurring today orgId recurringId =>
    obtain ⟨_, h⟩ := map_fst_ok h
    exact deleteRecurring_keepsFit h
  | skipOccurrence orgId id => exact skipOccurrence_keepsFit h
  | materialiseNext today orgId recurringId occurrenceDate skipped => exact materialiseNext_keepsFit h
  | generateDueTransactions today orgId =>
    obtain ⟨_, h⟩ := map_fst_ok h
    exact generateDueTransactions_keepsFit h

end BetterDecision
