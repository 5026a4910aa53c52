import BetterDecision.Proof.Writes

/-!
# Creating, pairing and unpairing

Each operation of `Model/Ledger` moves the balances by what it moves the books. A
new row is settled on its account in the same breath; a pair made or broken moves
nothing, since each row keeps what it already adds.
-/

namespace BetterDecision

variable {rules : Rules} {db db' : Db} {orgId : Nat}

theorem wrote_categories (db : Db) (categories : Table Category) :
    Wrote rules db 0 0 { db with categories } := wrote_elsewhere rfl rfl rfl

/-! ## New rows -/

/-- A row as it is created: linked to nothing, in no batch, and, if settled, live. -/
structure NewRow (orgId : Nat) (tx : Transaction) : Prop where
  org : tx.orgId = orgId
  unlinked : tx.linkedTransactionId = none
  unenrolled : tx.importBatchId = none
  live : tx.reconciliationState.isReverted = false ∨ tx.status = .pending

theorem enrolled_of_unenrolled {tx : Transaction} (h : tx.importBatchId = none) : enrolled tx = 0 := by
  funext key test
  simp [enrolled, h]

theorem booked_of_unlinked {rows : Table Transaction} {i : Nat} {tx : Transaction}
    (hstate : tx.reconciliationState.isReverted = false) (h : tx.linkedTransactionId = none) :
    booked rows (i, tx) = postingIf (tx.status = .settled) tx := by
  rw [booked_of_counted hstate, postingIf]
  · simp only [decide_eq_true_eq]
  · intro l hl
    rw [h] at hl
    cases hl

theorem NewRow.weigh {rows : Table Transaction} {i : Nat} {tx : Transaction} (h : NewRow orgId tx) :
    weigh rows (i, tx) = (postingIf (tx.status = .settled) tx, 0) := by
  refine Prod.ext ?_ (enrolled_of_unenrolled h.unenrolled)
  rcases h.live with hlive | hpending
  · exact booked_of_unlinked hlive h.unlinked
  · refine (booked_of_pending hpending).trans ?_
    rw [hpending]
    rfl

theorem wrote_insertNew {tx : Transaction} (db : Db) (h : NewRow orgId tx) :
    Wrote rules db (postingIf (tx.status = .settled) tx, 0) 0 (insertTransaction db tx) := by
  have hinsert : Wrote rules db _ _ _ := wrote_insert db tx h.unlinked
  rwa [h.weigh] at hinsert

theorem createTransactionNoCommit_ok {body : TransactionCreate} {imported manual : Bool} {row : Row}
    (h : createTransactionNoCommit db orgId body imported manual = .ok (db', row)) :
    NewRow orgId row.2 ∧ row.2.reconciliationState = .accepted ∧ row.1 = db.transactions.next ∧
      db' = insertTransaction (db.credited (postingIf (row.2.status = .settled) row.2)) row.2 := by
  obtain ⟨-, -, h⟩ := bind_eq_ok.mp h
  obtain ⟨-, -, h⟩ := bind_eq_ok.mp h
  obtain ⟨db₁, hdb₁, h⟩ := bind_eq_ok.mp h
  obtain ⟨rfl, rfl⟩ := Prod.mk.inj (Except.ok.inj h)
  have hcredited : ∀ tx : Transaction, tx.orgId = orgId → tx.accountId = body.accountId →
      tx.amount = body.amount → tx.type = body.type.toType → tx.status = body.status →
      db₁ = db.credited (postingIf (tx.status = .settled) tx) := by
    intro tx horg hacct hamount htype hstatus
    have happly : doIf (tx.status = .settled) (fun db => applyRow db orgId tx) db = .ok db₁ := by
      unfold applyRow
      rw [hacct, hamount, htype, hstatus]
      exact hdb₁
    exact doIf_applyRow_ok horg happly
  refine ⟨⟨rfl, rfl, rfl, .inl rfl⟩, rfl, ?_, congrArg (fun db => insertTransaction db _) (hcredited _ ?_ ?_ ?_ ?_ ?_)⟩
  · rw [hcredited ⟨orgId, body.accountId, 0, "", body.amount, body.type.toType, body.status, none, none, none,
      0, none, false, none, .accepted, false⟩ rfl rfl rfl rfl rfl]
    rfl
  all_goals rfl

theorem createTransactionNoCommit_posted {body : TransactionCreate} {imported manual : Bool} {row : Row}
    (h : createTransactionNoCommit db orgId body imported manual = .ok (db', row)) :
    Posted rules db db' := by
  obtain ⟨hnew, -, -, rfl⟩ := createTransactionNoCommit_ok h
  exact ((wrote_credited db _).trans (wrote_insertNew _ hnew)).posted (by simp)

theorem createTransaction_posted {body : TransactionCreate}
    (h : createTransaction db orgId body = .ok db') : Posted rules db db' := by
  obtain ⟨⟨db₁, row⟩, hcreate, h⟩ := bind_eq_ok.mp h
  obtain rfl := Except.ok.inj h
  exact createTransactionNoCommit_posted hcreate

theorem getOrCreateCategory_elsewhere (db : Db) (new : Category) (test : Category → Bool) :
    ∃ categories, (getOrCreateCategory db new test).1 = { db with categories } := by
  unfold getOrCreateCategory
  split
  · exact ⟨db.categories, rfl⟩
  · exact ⟨_, rfl⟩

theorem adjustAccountBalance_posted {today : Int} {accountId : Nat} {targetBalance : Int}
    {reason : Option String}
    (h : adjustAccountBalance db today orgId accountId targetBalance reason = .ok db') :
    Posted rules db db' := by
  obtain ⟨acct, -, h⟩ := bind_eq_ok.mp h
  dsimp only at h
  split at h
  · cases h
  · obtain ⟨⟨db₁, row⟩, hcreate, h⟩ := bind_eq_ok.mp h
    obtain rfl := Except.ok.inj h
    obtain ⟨categories, hdb⟩ := getOrCreateCategory_elsewhere db
      { orgId, name := "Balance Adjustment", slug := some balanceAdjustmentSlug, isSystem := true }
      (fun c => c.slug == some balanceAdjustmentSlug && c.isSystem)
    have hquiet : Posted rules db (getOrCreateBalanceAdjustmentCategory db orgId).1 := by
      unfold getOrCreateBalanceAdjustmentCategory
      rw [hdb]
      exact (wrote_categories db categories).quiet
    exact hquiet.trans (createTransactionNoCommit_posted hcreate)

/-! ## Pairs -/

theorem pairCategory_elsewhere {transferCategoryId : Option Nat} {categoryId : Nat}
    (h : pairCategory db orgId transferCategoryId = .ok (db', categoryId)) :
    ∃ categories, db' = { db with categories } := by
  rcases transferCategoryId with _ | id
  · have hdb := congrArg Prod.fst (Except.ok.inj h)
    obtain ⟨categories, hcat⟩ := getOrCreateCategory_elsewhere db
      { orgId, name := "Transfer", slug := some transferSlug, isSystem := true }
      (fun c => c.slug == some transferSlug)
    exact ⟨categories, hdb.symm.trans hcat⟩
  · obtain ⟨-, -, h⟩ := bind_eq_ok.mp h
    obtain ⟨rfl, -⟩ := Prod.mk.inj (Except.ok.inj h)
    exact ⟨db.categories, rfl⟩

theorem aside_setCategory (a : Transaction) (categoryId : Nat) : Aside a { a with categoryId } :=
  ⟨rfl, rfl, rfl, rfl, rfl, .inl ⟨rfl, rfl, rfl⟩⟩

theorem wrote_setCategory (db : Db) (id categoryId : Nat) :
    Wrote rules db 0 0 (setCategory id categoryId db) :=
  wrote_editAside fun a _ => aside_setCategory a categoryId

theorem get?_setCategory (id categoryId : Nat) {i : Nat} {a : Transaction} (h : db.transactions.get? i = some a) :
    ∃ c, (setCategory id categoryId db).transactions.get? i = some { a with categoryId := c } := by
  refine ⟨if i = id then categoryId else a.categoryId, ?_⟩
  show (db.transactions.modify id _).get? i = _
  rw [Table.get?_modify, h]
  split <;> rfl

/-- What `linkPair` has made sure of. -/
structure Linkable (db : Db) (exp inc : Transaction) : Prop where
  org : exp.orgId = inc.orgId
  expense : exp.type = .expense
  income : inc.type = .income
  amount : exp.amount = inc.amount
  accounts : exp.accountId ≠ inc.accountId
  currency : currencyOf db exp.accountId = currencyOf db inc.accountId
  uexp : exp.linkedTransactionId = none
  uinc : inc.linkedTransactionId = none

/-- `linkPair`, once it has checked everything: categories, then the two links. -/
theorem linkPair_ok {expense income : Row} {recategorize : Bool} {transferCategoryId : Option Nat}
    (h : linkPair db expense income recategorize transferCategoryId = .ok db') :
    Linkable db expense.2 income.2 ∧ ∃ db₁,
      (db₁ = db ∨ ∃ categories c, db₁ =
        setCategory income.1 c (setCategory expense.1 c { db with categories })) ∧
      db' = { setLink income.1 (some expense.1) (setLink expense.1 (some income.1) db₁) with
        pairings := db₁.pairings ++ [(expense.1, income.1)] } := by
  obtain ⟨-, -, h⟩ := bind_eq_ok.mp h
  obtain ⟨_, horg, h⟩ := bind_eq_ok.mp h
  obtain ⟨_, hexp, h⟩ := bind_eq_ok.mp h
  obtain ⟨_, hinc, h⟩ := bind_eq_ok.mp h
  obtain ⟨_, haccounts, h⟩ := bind_eq_ok.mp h
  obtain ⟨_, hamount, h⟩ := bind_eq_ok.mp h
  obtain ⟨_, huexp, h⟩ := bind_eq_ok.mp h
  obtain ⟨_, huinc, h⟩ := bind_eq_ok.mp h
  obtain ⟨_, hcurrency, h⟩ := bind_eq_ok.mp h
  simp only [refuse_eq_ok, not_not] at horg hexp hinc haccounts
  simp only [refuse_eq_ok, not_not, Option.not_isSome_iff_eq_none] at hamount huexp huinc hcurrency
  refine ⟨⟨horg, hexp, hinc, hamount, haccounts, hcurrency, huexp, huinc⟩, ?_⟩
  dsimp only at h
  split at h
  · obtain ⟨⟨db₂, c⟩, hcat, h⟩ := bind_eq_ok.mp h
    obtain ⟨categories, rfl⟩ := pairCategory_elsewhere hcat
    exact ⟨_, .inr ⟨categories, c, rfl⟩, (Except.ok.inj h).symm⟩
  · exact ⟨db, .inl rfl, (Except.ok.inj h).symm⟩

theorem Linkable.legs {exp inc : Transaction} (h : Linkable db exp inc)
    (hcur : currencyOf db = rules.currency) : Legs rules exp inc :=
  ⟨h.org, h.expense, h.income, h.amount, h.accounts, fun _ => hcur ▸ h.currency⟩

theorem Legs.setCategory {exp inc : Transaction} (h : Legs rules exp inc) (c d : Nat) :
    Legs rules { exp with categoryId := c } { inc with categoryId := d } :=
  ⟨h.org, h.expense, h.income, h.amount, h.accounts, h.currency⟩

/-- The two links, on rows that are there. -/
theorem wrote_links {e i : Nat} {exp inc : Transaction} (hexp : db.transactions.get? e = some exp)
    (hinc : db.transactions.get? i = some inc) (ne : e ≠ i) (uexp : exp.linkedTransactionId = none)
    (uinc : inc.linkedTransactionId = none) (legs : Legs rules exp inc) :
    Wrote rules db 0 0 { setLink i (some e) (setLink e (some i) db) with
      pairings := db.pairings ++ [(e, i)] } :=
  wrote_move (.pair (b := db.books) hexp hinc ne uexp uinc legs) rfl rfl

/-- **A pair made moves no balance.** -/
theorem linkPair_wrote {e i : Nat} {exp inc : Transaction} {recategorize : Bool}
    {transferCategoryId : Option Nat} (hcur : currencyOf db = rules.currency)
    (hexp : db.transactions.get? e = some exp) (hinc : db.transactions.get? i = some inc)
    (h : linkPair db (e, exp) (i, inc) recategorize transferCategoryId = .ok db') :
    Wrote rules db 0 0 db' := by
  obtain ⟨hlink, db₁, hdb₁, rfl⟩ := linkPair_ok h
  have ne : e ≠ i := by
    rintro rfl
    obtain rfl : exp = inc := by rw [hexp] at hinc; exact Option.some.inj hinc
    exact hlink.accounts rfl
  have hlegs := hlink.legs hcur
  rcases hdb₁ with rfl | ⟨categories, c, rfl⟩
  · exact wrote_links hexp hinc ne hlink.uexp hlink.uinc hlegs
  · have hcats : Wrote rules db 0 0 { db with categories } := wrote_elsewhere rfl rfl rfl
    have hexp₀ : ({ db with categories } : Db).transactions.get? e = some exp := hexp
    have hinc₀ : ({ db with categories } : Db).transactions.get? i = some inc := hinc
    obtain ⟨c₁, hexp₁⟩ := get?_setCategory e c hexp₀
    obtain ⟨c₂, hexp₂⟩ := get?_setCategory i c hexp₁
    obtain ⟨d₁, hinc₁⟩ := get?_setCategory e c hinc₀
    obtain ⟨d₂, hinc₂⟩ := get?_setCategory i c hinc₁
    refine (wrote_links hexp₂ hinc₂ ne hlink.uexp hlink.uinc ?_).after ?_
    · exact hlegs.setCategory _ _
    · exact ((wrote_setCategory _ i c).after (wrote_setCategory _ e c)).after (wrote_categories db categories)

theorem pairExistingTransactions_posted {expenseId incomeId : Nat} {recategorize : Bool}
    {transferCategoryId : Option Nat} (hcur : currencyOf db = rules.currency)
    (h : pairExistingTransactions db orgId expenseId incomeId recategorize transferCategoryId = .ok db') :
    Posted rules db db' := by
  obtain ⟨-, -, h⟩ := bind_eq_ok.mp h
  obtain ⟨exp, hexp, h⟩ := bind_eq_ok.mp h
  obtain ⟨inc, hinc, h⟩ := bind_eq_ok.mp h
  rw [found_eq_ok, findTransaction_eq_some] at hexp hinc
  exact (linkPair_wrote hcur hexp.1 hinc.1 h).quiet

/-- Two rows inserted one after the other, both there. -/
theorem get?_insert_two (db : Db) (exp inc : Transaction) :
    let db₁ := insertTransaction db exp
    let db₂ := insertTransaction db₁ inc
    db₂.transactions.get? db.transactions.next = some exp ∧
      db₂.transactions.get? db₁.transactions.next = some inc := by
  refine ⟨Table.get?_insert_of_some ?_, ?_⟩
  · exact (Table.get?_insert _ _ _).trans (if_pos rfl)
  · exact (Table.get?_insert _ _ _).trans (if_pos rfl)

/-- A transfer written: both legs new, linked, and settled if they are. -/
theorem wrote_transfer (db : Db) {exp inc : Transaction} {recategorize : Bool} {transferCategoryId : Option Nat}
    {db₁ db₂ : Db} {c : Bool} (hcur : currencyOf db = rules.currency) (hexp : NewRow orgId exp) (hinc : NewRow orgId inc)
    (hstatus : inc.status = exp.status) (hc : c = decide (exp.status = .settled))
    (hlink : linkPair (insertTransaction (insertTransaction db exp) inc) (db.transactions.next, exp)
      ((insertTransaction db exp).transactions.next, inc) recategorize transferCategoryId = .ok db₁)
    (hdb₂ : doIf c (fun db => applyRow db orgId exp) db₁ = .ok db₂)
    (hdb' : doIf c (fun db => applyRow db orgId inc) db₂ = .ok db') : Posted rules db db' := by
  obtain ⟨hgetExp, hgetInc⟩ := get?_insert_two db exp inc
  have hcur₂ : currencyOf (insertTransaction (insertTransaction db exp) inc) = rules.currency := hcur
  have hrows : Wrote rules db _ _ _ := ((wrote_insertNew db hexp).trans
    (wrote_insertNew (insertTransaction db exp) hinc)).before (linkPair_wrote hcur₂ hgetExp hgetInc hlink)
  obtain rfl := doIf_applyRow_ok hexp.org hdb₂
  obtain rfl := doIf_applyRow_ok hinc.org hdb'
  refine ((hrows.credited _).credited _).posted ?_
  rw [hstatus, ← hc]
  simp

theorem createTransfer_posted {body : TransferCreate} (hcur : currencyOf db = rules.currency)
    (h : createTransfer db orgId body = .ok db') : Posted rules db db' := by
  obtain ⟨-, -, h⟩ := bind_eq_ok.mp h
  obtain ⟨source, -, h⟩ := bind_eq_ok.mp h
  obtain ⟨destination, -, h⟩ := bind_eq_ok.mp h
  obtain ⟨⟨db₀, categoryId⟩, hcat, h⟩ := bind_eq_ok.mp h
  obtain ⟨db₁, hlink, h⟩ := bind_eq_ok.mp h
  obtain ⟨db₂, hdb₂, hdb'⟩ := bind_eq_ok.mp h
  obtain ⟨categories, rfl⟩ := pairCategory_elsewhere hcat
  refine (wrote_categories db categories).quiet.trans ?_
  refine wrote_transfer { db with categories } hcur ?_ ?_ ?_ ?_ hlink hdb₂ hdb'
  · exact ⟨rfl, rfl, rfl, .inl rfl⟩
  · exact ⟨rfl, rfl, rfl, .inl rfl⟩
  · rfl
  · rfl

theorem convertAndCreateLeg_posted {sourceId destinationAccountId : Nat} {recategorize : Bool}
    {transferCategoryId : Option Nat} (hcur : currencyOf db = rules.currency)
    (h : convertAndCreateLeg db orgId sourceId destinationAccountId recategorize transferCategoryId = .ok db') :
    Posted rules db db' := by
  obtain ⟨source, hsource, h⟩ := bind_eq_ok.mp h
  obtain ⟨-, -, h⟩ := bind_eq_ok.mp h
  obtain ⟨-, -, h⟩ := bind_eq_ok.mp h
  obtain ⟨-, -, h⟩ := bind_eq_ok.mp h
  obtain ⟨-, -, h⟩ := bind_eq_ok.mp h
  obtain ⟨-, -, h⟩ := bind_eq_ok.mp h
  obtain ⟨destination, -, h⟩ := bind_eq_ok.mp h
  obtain ⟨-, -, h⟩ := bind_eq_ok.mp h
  obtain ⟨-, -, h⟩ := bind_eq_ok.mp h
  obtain ⟨db₁, hdb₁, h⟩ := bind_eq_ok.mp h
  obtain rfl := doIf_applyRow_ok rfl hdb₁
  rw [found_eq_ok, findTransaction_eq_some] at hsource
  -- the new leg is posted, and then the two rows are linked
  generalize hpartner : (Transaction.mk orgId destinationAccountId _ _ _ _ _ _ _ _ _ _ _ _ _ _) = partner at h
  have hnew : NewRow orgId partner := by subst hpartner; exact ⟨rfl, rfl, rfl, .inl rfl⟩
  have hinsert : Wrote rules db _ _ _ :=
    (wrote_insertNew db hnew).credited (postingIf (partner.status = .settled) partner)
  have hposted := hinsert.posted (by simp)
  refine hposted.trans (show Wrote rules _ 0 0 _ from ?_).quiet
  have hgetSource : (insertTransaction db partner).transactions.get? sourceId = some source :=
    Table.get?_insert_of_some hsource.1
  have hgetPartner : (insertTransaction db partner).transactions.get? db.transactions.next = some partner :=
    (Table.get?_insert _ _ _).trans (if_pos rfl)
  have hcur₁ := hposted.currency.trans hcur
  split at h
  · exact linkPair_wrote hcur₁ hgetSource hgetPartner h
  · exact linkPair_wrote hcur₁ hgetPartner hgetSource h

/-- **A pair broken moves no balance.** -/
theorem unpairTransactions_posted {id expenseFallbackCategoryId incomeFallbackCategoryId : Nat}
    (ho : Orderly rules db.books)
    (h : unpairTransactions db orgId id expenseFallbackCategoryId incomeFallbackCategoryId = .ok db') :
    Posted rules db db' := by
  obtain ⟨tx, htx, h⟩ := bind_eq_ok.mp h
  obtain ⟨⟨l, c⟩, hlinked, h⟩ := bind_eq_ok.mp h
  obtain ⟨_, hpair, h⟩ := bind_eq_ok.mp h
  obtain ⟨expCat, -, h⟩ := bind_eq_ok.mp h
  obtain ⟨incCat, -, h⟩ := bind_eq_ok.mp h
  obtain ⟨-, -, h⟩ := bind_eq_ok.mp h
  obtain ⟨-, -, h⟩ := bind_eq_ok.mp h
  rw [found_eq_ok, findTransaction_eq_some] at htx
  rw [found_eq_ok] at hlinked
  rw [refuse_eq_ok, not_not, reciprocal_iff ho.linked htx.1 htx.2 hlinked] at hpair
  have hunpair : ∀ {e i : Nat} {exp inc : Transaction}, Mutual db.transactions e exp i inc →
      Posted rules db { setCategory i incomeFallbackCategoryId (setCategory e expenseFallbackCategoryId
        (setLink i none (setLink e none db))) with pairings := db.pairings.filter (fun p => p ≠ (e, i)) } := by
    intro e i exp inc hlegs
    have hlinks : Wrote rules db 0 0 { setLink i none (setLink e none db) with
        pairings := db.pairings.filter (fun p => p ≠ (e, i)) } :=
      wrote_move (.unpair (b := db.books) hlegs) rfl rfl
    exact ((wrote_setCategory _ i incomeFallbackCategoryId).after
      ((wrote_setCategory _ e expenseFallbackCategoryId).after hlinks)).quiet
  dsimp only at h
  split at h
  · rw [← Except.ok.inj h]
    exact hunpair hpair
  · rw [← Except.ok.inj h]
    exact hunpair hpair.symm
  · cases h

end BetterDecision
