import BetterDecision.Proof.CategoryTree
import BetterDecision.Proof.Edits

/-!
# Rows that fit their categories

What the ledger's calls do to the categories, which is to add some that take both, and to
the rows on them. Under `G` every row and template stays of a type its category takes;
`G` is the condition a call is held to, and most calls need none.

One lemma a call. A call that asks `validateCategoryForType` for a category, or finds it on
a row it already has, keeps the rows fitting; the pairings are the ones with a condition.
-/

namespace BetterDecision

variable {db db' db'' : Db} {cats cats' : Table Category} {orgId : Nat} {G : Prop}

/-! ## Fitting -/

/-- The org's category takes rows of the type. A transfer needs one that takes both. -/
def Takes (cats : Table Category) (orgId categoryId : Nat) (type : TransactionType) : Prop :=
  ∃ c, cats.get? categoryId = some c ∧ c.orgId = orgId ∧ categoryTypeMatches c.type type = true

/-- A row is income or expense, and its category takes it. -/
def RowFits (cats : Table Category) (t : Transaction) : Prop :=
  t.type ≠ .transfer ∧ Takes cats t.orgId t.categoryId t.type

def TemplateFits (cats : Table Category) (r : RecurringTransaction) : Prop := Takes cats r.orgId r.categoryId r.type

structure BooksFit (db : Db) : Prop where
  rows : ∀ i t, db.transactions.get? i = some t → RowFits db.categories t
  templates : ∀ i r, db.recurring.get? i = some r → TemplateFits db.categories r

theorem categoryTypeMatches_transfer {type : CategoryType} (h : categoryTypeMatches type .transfer = true) :
    type = .both := by
  cases type with
  | both => rfl
  | income => cases h
  | expense => cases h

theorem Takes.any {categoryId : Nat} (h : Takes cats orgId categoryId .transfer) (type : TransactionType) :
    Takes cats orgId categoryId type := by
  obtain ⟨c, hc, horg, hm⟩ := h
  refine ⟨c, hc, horg, ?_⟩
  rw [categoryTypeMatches_transfer hm]
  rfl

theorem Grown.takes (h : Grown cats cats') {categoryId : Nat} {type : TransactionType}
    (ht : Takes cats orgId categoryId type) : Takes cats' orgId categoryId type := by
  obtain ⟨c, hc, hrest⟩ := ht
  exact ⟨c, h.kept _ c hc, hrest⟩

theorem Grown.row (h : Grown cats cats') {t : Transaction} (ht : RowFits cats t) : RowFits cats' t :=
  ⟨ht.1, h.takes ht.2⟩

/-- The org's transfer category takes both. -/
def TransferBoth (cats : Table Category) (orgId : Nat) : Prop :=
  ∀ i c, cats.get? i = some c → c.orgId = orgId → c.slug = some transferSlug → c.type = .both

theorem Grown.transferBoth (h : Grown cats cats') (hb : TransferBoth cats orgId) : TransferBoth cats' orgId := by
  intro i c hc horg hslug
  rcases h.fresh i c hc with hold | ⟨hnew, -⟩
  · exact hb i c hold horg hslug
  · exact hnew

theorem validateCategoryForType_ok {categoryId : Nat} {type : TransactionType} {u : Unit}
    (h : validateCategoryForType db categoryId orgId type = .ok u) : Takes db.categories orgId categoryId type := by
  obtain ⟨c, hc, h⟩ := bind_eq_ok.mp h
  obtain ⟨_, hmatch, -⟩ := bind_eq_ok.mp h
  obtain ⟨hget, horg⟩ := findCategory_eq_some.mp (found_eq_ok.mp hc)
  exact ⟨c, hget, horg, not_not.mp (refuse_eq_ok.mp hmatch)⟩

theorem validateTransferCategory_ok {categoryId : Nat} {u : Unit}
    (h : validateTransferCategory db categoryId orgId = .ok u) : Takes db.categories orgId categoryId .transfer := by
  obtain ⟨c, hc, h⟩ := bind_eq_ok.mp h
  obtain ⟨hget, horg⟩ := findCategory_eq_some.mp (found_eq_ok.mp hc)
  refine ⟨c, hget, horg, ?_⟩
  rw [not_not.mp (refuse_eq_ok.mp h)]
  rfl

/-! ## What a call keeps -/

/-- Categories are added at most, and under `G` the rows go on fitting. -/
structure KeepsFit (G : Prop) (db db' : Db) : Prop where
  grown : Grown db.categories db'.categories
  fit : G → BooksFit db → BooksFit db'

theorem KeepsFit.refl (db : Db) : KeepsFit G db db := ⟨.refl _, fun _ h => h⟩

theorem KeepsFit.trans (h : KeepsFit G db db') (k : KeepsFit G db' db'') : KeepsFit G db db'' :=
  ⟨h.grown.trans k.grown, fun hG hb => k.fit hG (h.fit hG hb)⟩

theorem KeepsFit.weaken {G' : Prop} (h : KeepsFit G db db') (hG : G' → G) : KeepsFit G' db db' :=
  ⟨h.grown, fun hG' => h.fit (hG hG')⟩

/-- A write that leaves the categories alone is judged by the rows it leaves. -/
theorem keepsFit_write (hcats : db'.categories = db.categories)
    (hrows : G → BooksFit db → ∀ i t, db'.transactions.get? i = some t → RowFits db.categories t)
    (htemplates : G → BooksFit db → ∀ i r, db'.recurring.get? i = some r → TemplateFits db.categories r) :
    KeepsFit G db db' where
  grown := .of_eq hcats
  fit hG hb := ⟨hcats ▸ hrows hG hb, hcats ▸ htemplates hG hb⟩

theorem keepsFit_elsewhere (hcats : db'.categories = db.categories) (hrows : db'.transactions = db.transactions)
    (htemplates : db'.recurring = db.recurring) : KeepsFit G db db' :=
  keepsFit_write hcats (fun _ hb => hrows ▸ hb.rows) (fun _ hb => htemplates ▸ hb.templates)

theorem keepsFit_credited (db : Db) (δ : Nat × Nat → Int) : KeepsFit G db (db.credited δ) := keepsFit_elsewhere rfl rfl rfl

theorem keepsFit_insertRow {t : Transaction} (h : G → BooksFit db → RowFits db.categories t) :
    KeepsFit G db (insertTransaction db t) := by
  refine keepsFit_write rfl (fun hG hb i a ha => ?_) (fun _ hb => hb.templates)
  have ha : (db.transactions.insert t).get? i = some a := ha
  rw [Table.get?_insert] at ha
  split at ha
  · exact Option.some.inj ha ▸ h hG hb
  · exact hb.rows i a ha

theorem keepsFit_mapRows {g : Nat → Transaction → Transaction}
    (h : ∀ i t, db.transactions.get? i = some t → G → BooksFit db → RowFits db.categories t →
      RowFits db.categories (g i t)) : KeepsFit G db { db with transactions := db.transactions.mapRows g } := by
  refine keepsFit_write rfl (fun hG hb i a ha => ?_) (fun _ hb => hb.templates)
  rw [Table.get?_mapRows, Option.map_eq_some_iff] at ha
  obtain ⟨t, ht, rfl⟩ := ha
  exact h i t ht hG hb (hb.rows i t ht)

theorem keepsFit_edit {id : Nat} {f : Transaction → Transaction}
    (h : ∀ t, db.transactions.get? id = some t → G → BooksFit db → RowFits db.categories t →
      RowFits db.categories (f t)) : KeepsFit G db (editTransaction db id f) := by
  refine keepsFit_mapRows (g := fun i t => if i = id then f t else t) fun i t ht hG hb hfit => ?_
  split
  · rename_i hi
    exact h t (hi ▸ ht) hG hb hfit
  · exact hfit

theorem keepsFit_setLink (db : Db) (id : Nat) (link : Option Nat) : KeepsFit G db (setLink id link db) :=
  keepsFit_edit fun _ _ _ _ ht => ht

theorem keepsFit_updateRows {test : Nat → Transaction → Bool} {f : Transaction → Transaction}
    (h : ∀ i t, db.transactions.get? i = some t → t.orgId = orgId → test i t = true → G → BooksFit db →
      RowFits db.categories t → RowFits db.categories (f t)) : KeepsFit G db (updateRows db orgId test f) := by
  refine keepsFit_mapRows (g := fun i t => if t.orgId = orgId ∧ test i t then f t else t) fun i t ht hG hb hfit => ?_
  split
  · rename_i hc
    exact h i t ht hc.1 hc.2 hG hb hfit
  · exact hfit

theorem keepsFit_insertRecurring {r : RecurringTransaction} (h : G → BooksFit db → TemplateFits db.categories r) :
    KeepsFit G db (insertRecurring db r) := by
  refine keepsFit_write rfl (fun _ hb => hb.rows) (fun hG hb i a ha => ?_)
  have ha : (db.recurring.insert r).get? i = some a := ha
  rw [Table.get?_insert] at ha
  split at ha
  · exact Option.some.inj ha ▸ h hG hb
  · exact hb.templates i a ha

theorem keepsFit_editRecurring {id : Nat} {f : RecurringTransaction → RecurringTransaction}
    (h : ∀ r, db.recurring.get? id = some r → G → BooksFit db → TemplateFits db.categories r →
      TemplateFits db.categories (f r)) : KeepsFit G db { db with recurring := db.recurring.modify id f } := by
  refine keepsFit_write rfl (fun _ hb => hb.rows) (fun hG hb i a ha => ?_)
  obtain ⟨r, hr, rfl⟩ := Table.get?_modify_eq_some.mp ha
  split
  · rename_i hi
    exact h r (hi ▸ hr) hG hb (hb.templates i r hr)
  · exact hb.templates i r hr

theorem keepsFit_applyBalance {accountId : Nat} {amount : Amount} {type : TransactionType}
    (h : applyBalance db orgId accountId amount type = .ok db') : KeepsFit G db db' := by
  obtain rfl := applyBalance_ok h
  exact keepsFit_credited ..

theorem keepsFit_revertBalance {accountId : Nat} {amount : Amount} {type : TransactionType}
    (h : revertBalance db orgId accountId amount type = .ok db') : KeepsFit G db db' := by
  obtain rfl := revertBalance_ok h
  exact keepsFit_credited ..

theorem keepsFit_doIf {c : Bool} {write : Db → Result Db} (hw : ∀ db', write db = .ok db' → KeepsFit G db db')
    (h : doIf c write db = .ok db') : KeepsFit G db db' := by
  unfold doIf at h
  split at h
  · exact hw db' h
  · exact Except.ok.inj h ▸ .refl db

theorem keepsFit_doIf_apply {c : Bool} {tx : Transaction} (h : doIf c (fun db => applyRow db orgId tx) db = .ok db') :
    KeepsFit G db db' := keepsFit_doIf (fun _ hw => keepsFit_applyBalance hw) h

theorem keepsFit_doIf_revert {c : Bool} {tx : Transaction} (h : doIf c (fun db => revertRow db orgId tx) db = .ok db') :
    KeepsFit G db db' := keepsFit_doIf (fun _ hw => keepsFit_revertBalance hw) h

theorem keepsFit_foldlM {ι : Type} {f : Db → ι → Result Db} {xs : List ι}
    (hstep : ∀ s x s', x ∈ xs → f s x = .ok s' → KeepsFit G s s') (h : xs.foldlM f db = .ok db') : KeepsFit G db db' := by
  induction xs generalizing db with
  | nil =>
    rw [List.foldlM_nil, pure_eq_ok] at h
    exact h ▸ .refl db
  | cons x xs ih =>
    rw [List.foldlM_cons, bind_eq_ok] at h
    obtain ⟨mid, hmid, h⟩ := h
    exact (hstep db x mid List.mem_cons_self hmid).trans
      (ih (fun s y s' hy => hstep s y s' (List.mem_cons_of_mem _ hy)) h)

theorem keepsFit_foldl {ι : Type} {f : Db → ι → Db} {xs : List ι} (hstep : ∀ s x, KeepsFit G s (f s x)) :
    KeepsFit G db (xs.foldl f db) := by
  induction xs generalizing db with
  | nil => exact .refl db
  | cons x xs ih => exact (hstep db x).trans ih

/-! ## New rows -/

theorem createTransactionNoCommit_keepsFit {body : TransactionCreate} {imported manual : Bool} {row : Row}
    (h : createTransactionNoCommit db orgId body imported manual = .ok (db', row)) :
    KeepsFit G db db' ∧ db'.categories = db.categories ∧ db'.transactions.get? row.1 = some row.2 ∧
      row.2.orgId = orgId ∧ row.2.type = body.type.toType := by
  obtain ⟨_, _, h⟩ := bind_eq_ok.mp h
  obtain ⟨_, hcat, h⟩ := bind_eq_ok.mp h
  obtain ⟨mid, hmid, h⟩ := bind_eq_ok.mp h
  have hsame : ∃ δ, mid = db.credited δ := by
    unfold doIf at hmid
    split at hmid
    · exact ⟨_, applyBalance_ok hmid⟩
    · exact ⟨0, by rw [Db.credited_zero]; exact (Except.ok.inj hmid).symm⟩
  obtain ⟨δ, rfl⟩ := hsame
  obtain ⟨rfl, rfl⟩ := Prod.mk.inj (Except.ok.inj h)
  have htakes := validateCategoryForType_ok hcat
  refine ⟨(keepsFit_credited db δ).trans (keepsFit_insertRow fun _ _ => ⟨?_, htakes⟩), rfl, ?_, rfl, rfl⟩
  · cases body.type <;> simp [EntryType.toType]
  · show (db.transactions.insert _).get? db.transactions.next = _
    rw [Table.get?_insert, if_pos rfl]

theorem createTransaction_keepsFit {body : TransactionCreate} (h : createTransaction db orgId body = .ok db') :
    KeepsFit G db db' := by
  obtain ⟨⟨mid, row⟩, hcreate, h⟩ := bind_eq_ok.mp h
  obtain rfl := Except.ok.inj h
  exact (createTransactionNoCommit_keepsFit hcreate).1

theorem getOrCreateCategory_keepsFit {new : Category} {test : Category → Bool} (htype : new.type = .both)
    (hroot : new.parentId = none) : KeepsFit G db (getOrCreateCategory db new test).1 := by
  unfold getOrCreateCategory
  split
  · exact .refl db
  · have hgrown : Grown db.categories (db.categories.insert new) := .insert htype hroot
    exact ⟨hgrown, fun _ hb => ⟨fun i t ht => hgrown.row (hb.rows i t ht),
      fun i r hr => hgrown.takes (hb.templates i r hr)⟩⟩

theorem adjustAccountBalance_keepsFit {today : Int} {accountId : Nat} {targetBalance : Int} {reason : Option String}
    (h : adjustAccountBalance db today orgId accountId targetBalance reason = .ok db') : KeepsFit G db db' := by
  obtain ⟨_, _, h⟩ := bind_eq_ok.mp h
  dsimp only at h
  split at h
  · cases h
  · obtain ⟨⟨mid, row⟩, hcreate, h⟩ := bind_eq_ok.mp h
    obtain rfl := Except.ok.inj h
    exact (getOrCreateCategory_keepsFit rfl rfl).trans (createTransactionNoCommit_keepsFit hcreate).1

/-! ## Pairs -/

theorem pairCategory_keepsFit {transferCategoryId : Option Nat} {categoryId : Nat}
    (h : pairCategory db orgId transferCategoryId = .ok (db', categoryId)) :
    KeepsFit G db db' ∧ db'.transactions = db.transactions ∧ db'.recurring = db.recurring ∧
      ((transferCategoryId = none → TransferBoth db.categories orgId) →
        Takes db'.categories orgId categoryId .transfer) := by
  cases transferCategoryId with
  | some id =>
    obtain ⟨_, hvalid, h⟩ := bind_eq_ok.mp h
    obtain ⟨rfl, rfl⟩ := Prod.mk.inj (Except.ok.inj h)
    exact ⟨.refl db, rfl, rfl, fun _ => validateTransferCategory_ok hvalid⟩
  | none =>
    have h : getOrCreateTransferCategory db orgId = (db', categoryId) := Except.ok.inj h
    have hkeeps : KeepsFit G db (getOrCreateTransferCategory db orgId).1 := getOrCreateCategory_keepsFit rfl rfl
    rw [h] at hkeeps
    unfold getOrCreateTransferCategory getOrCreateCategory at h
    split at h
    · rename_i id c rest hsel
      obtain ⟨rfl, rfl⟩ := Prod.mk.inj h
      refine ⟨hkeeps, rfl, rfl, fun hboth => ?_⟩
      have hmem : (id, c) ∈ db.categories.select (fun _ c => c.orgId == orgId && c.slug == some transferSlug) := by
        rw [hsel]
        exact List.mem_cons_self
      obtain ⟨hget, htest⟩ := Table.mem_select.mp hmem
      simp only [Bool.and_eq_true, beq_iff_eq] at htest
      refine ⟨c, hget, htest.1, ?_⟩
      rw [hboth rfl id c hget htest.1 htest.2]
      rfl
    · obtain ⟨rfl, rfl⟩ := Prod.mk.inj h
      have hget : (db.categories.insert
          { orgId, name := "Transfer", slug := some transferSlug, isSystem := true }).get? db.categories.next =
            some { orgId, name := "Transfer", slug := some transferSlug, isSystem := true } := by
        rw [Table.get?_insert, if_pos rfl]
      exact ⟨hkeeps, rfl, rfl, fun _ => ⟨_, hget, rfl, rfl⟩⟩

/-- The rows but the two legs fit, and the legs too if they keep their category. -/
structure FitApart (db : Db) (recategorize : Bool) (e i : Nat) : Prop where
  rows : ∀ j t, db.transactions.get? j = some t → (recategorize = true → j ≠ e ∧ j ≠ i) → RowFits db.categories t
  templates : ∀ j r, db.recurring.get? j = some r → TemplateFits db.categories r

theorem BooksFit.apart (h : BooksFit db) (recategorize : Bool) (e i : Nat) : FitApart db recategorize e i :=
  ⟨fun j t ht _ => h.rows j t ht, h.templates⟩

section LinkPair

variable {e i : Nat} {exp inc : Transaction} {recategorize : Bool} {transferCategoryId : Option Nat}

/-- What linking writes: the legs' category if asked to, their links, and nothing else. -/
theorem linkPair_spec (h : linkPair db (e, exp) (i, inc) recategorize transferCategoryId = .ok db') :
    exp.orgId = inc.orgId ∧ exp.type = .expense ∧ inc.type = .income ∧ ∃ mid,
      (recategorize = true ∧ (∃ catDb categoryId, pairCategory db exp.orgId transferCategoryId = .ok (catDb, categoryId) ∧
        mid = setCategory i categoryId (setCategory e categoryId catDb)) ∨ recategorize = false ∧ mid = db) ∧
      db' = { setLink i (some e) (setLink e (some i) mid) with pairings := mid.pairings ++ [(e, i)] } := by
  obtain ⟨_, _, h⟩ := bind_eq_ok.mp h
  obtain ⟨_, horg, h⟩ := bind_eq_ok.mp h
  obtain ⟨_, hexp, h⟩ := bind_eq_ok.mp h
  obtain ⟨_, hinc, h⟩ := bind_eq_ok.mp h
  iterate 5 obtain ⟨_, _, h⟩ := bind_eq_ok.mp h
  refine ⟨not_not.mp (refuse_eq_ok.mp horg), not_not.mp (refuse_eq_ok.mp hexp), not_not.mp (refuse_eq_ok.mp hinc), ?_⟩
  dsimp only at h
  split at h
  · rename_i hre
    obtain ⟨⟨catDb, categoryId⟩, hpair, h⟩ := bind_eq_ok.mp h
    exact ⟨_, .inl ⟨hre, catDb, categoryId, hpair, rfl⟩, (Except.ok.inj h).symm⟩
  · rename_i hre
    exact ⟨db, .inr ⟨by simpa using hre, rfl⟩, (Except.ok.inj h).symm⟩

/-- Setting links decides nothing about categories. -/
theorem booksFit_setLinks {mid : Db} {pairings : List (Nat × Nat)} {l k : Option Nat} (h : BooksFit mid) :
    BooksFit { setLink i l (setLink e k mid) with pairings } := by
  have hkeeps : KeepsFit True mid (setLink i l (setLink e k mid)) := (keepsFit_setLink mid e k).trans (keepsFit_setLink _ i l)
  have hfit := hkeeps.fit trivial h
  exact ⟨hfit.rows, hfit.templates⟩

theorem linkPair_grown (h : linkPair db (e, exp) (i, inc) recategorize transferCategoryId = .ok db') :
    Grown db.categories db'.categories := by
  obtain ⟨-, -, -, mid, hmid, rfl⟩ := linkPair_spec h
  rcases hmid with ⟨-, catDb, categoryId, hpair, rfl⟩ | ⟨-, rfl⟩
  · exact (pairCategory_keepsFit (G := True) hpair).1.grown
  · exact .refl _

/-- The legs of a pair end up in a category that takes both, or where they were. -/
theorem linkPair_fit (h : linkPair db (e, exp) (i, inc) recategorize transferCategoryId = .ok db')
    (hexp : db.transactions.get? e = some exp) (hinc : db.transactions.get? i = some inc)
    (hboth : recategorize = true → transferCategoryId = none → TransferBoth db.categories exp.orgId)
    (hfit : FitApart db recategorize e i) : BooksFit db' := by
  obtain ⟨horg, hexpense, hincome, mid, hmid, rfl⟩ := linkPair_spec h
  refine booksFit_setLinks ?_
  rcases hmid with ⟨hre, catDb, categoryId, hpair, rfl⟩ | ⟨hre, rfl⟩
  · obtain ⟨hkeeps, hrows, htemplates, htakes⟩ := pairCategory_keepsFit (G := True) hpair
    have htakes := htakes (hboth hre)
    refine ⟨?_, fun j r hr => hkeeps.grown.takes (hfit.templates j r (htemplates ▸ hr))⟩
    intro j t ht
    have ht : ((catDb.transactions.modify e (fun tx => { tx with categoryId })).modify i
        (fun tx => { tx with categoryId })).get? j = some t := ht
    rw [hrows] at ht
    obtain ⟨a, ha, rfl⟩ := Table.get?_modify_eq_some.mp ht
    obtain ⟨b, hb, rfl⟩ := Table.get?_modify_eq_some.mp ha
    show RowFits catDb.categories _
    by_cases hi : j = i
    · obtain rfl : inc = b := by
        rw [hi, hinc] at hb
        exact Option.some.inj hb
      have hfits : RowFits catDb.categories { inc with categoryId } :=
        ⟨by simp [hincome], horg ▸ htakes.any _⟩
      rw [if_pos hi]
      split
      · exact hfits
      · exact hfits
    · rw [if_neg hi]
      by_cases he : j = e
      · obtain rfl : exp = b := by
          rw [he, hexp] at hb
          exact Option.some.inj hb
        rw [if_pos he]
        exact ⟨by simp [hexpense], htakes.any _⟩
      · rw [if_neg he]
        exact hkeeps.grown.row (hfit.rows j b hb fun _ => ⟨he, hi⟩)
  · exact ⟨fun j t ht => hfit.rows j t ht fun h => absurd (hre ▸ h) (by simp), hfit.templates⟩

theorem linkPair_keepsFit (h : linkPair db (e, exp) (i, inc) recategorize transferCategoryId = .ok db')
    (hexp : db.transactions.get? e = some exp) (hinc : db.transactions.get? i = some inc)
    (hboth : G → recategorize = true → transferCategoryId = none → TransferBoth db.categories exp.orgId) :
    KeepsFit G db db' :=
  ⟨linkPair_grown h, fun hG hb => linkPair_fit h hexp hinc (hboth hG) (hb.apart recategorize e i)⟩

end LinkPair

theorem pairExistingTransactions_keepsFit {expenseId incomeId : Nat} {recategorize : Bool} {transferCategoryId : Option Nat}
    (hG : G → recategorize = true → transferCategoryId = none → TransferBoth db.categories orgId)
    (h : pairExistingTransactions db orgId expenseId incomeId recategorize transferCategoryId = .ok db') :
    KeepsFit G db db' := by
  obtain ⟨_, _, h⟩ := bind_eq_ok.mp h
  obtain ⟨exp, hexp, h⟩ := bind_eq_ok.mp h
  obtain ⟨inc, hinc, h⟩ := bind_eq_ok.mp h
  obtain ⟨hexp, horg⟩ := findTransaction_eq_some.mp (found_eq_ok.mp hexp)
  obtain ⟨hinc, -⟩ := findTransaction_eq_some.mp (found_eq_ok.mp hinc)
  exact linkPair_keepsFit h hexp hinc (horg ▸ hG)

/-- A pair written: both legs new, linked where they are, and settled if they are. -/
theorem newPair_keepsFit {exp inc : Transaction} {transferCategoryId : Option Nat} {db₁ db₂ : Db} {c : Bool}
    (hexp : G → BooksFit db → RowFits db.categories exp) (hinc : G → BooksFit db → RowFits db.categories inc)
    (hlink : linkPair (insertTransaction (insertTransaction db exp) inc) (db.transactions.next, exp)
      ((insertTransaction db exp).transactions.next, inc) false transferCategoryId = .ok db₁)
    (hdb₂ : doIf c (fun db => applyRow db orgId exp) db₁ = .ok db₂)
    (hdb' : doIf c (fun db => applyRow db orgId inc) db₂ = .ok db') : KeepsFit G db db' := by
  obtain ⟨hgetExp, hgetInc⟩ := get?_insert_two db exp inc
  have hboth : KeepsFit G db (insertTransaction (insertTransaction db exp) inc) := by
    refine ⟨.refl _, fun hG hb => ?_⟩
    have hfirst : BooksFit (insertTransaction db exp) := (keepsFit_insertRow hexp).fit hG hb
    have hsecond : KeepsFit G (insertTransaction db exp) (insertTransaction (insertTransaction db exp) inc) :=
      keepsFit_insertRow fun _ _ => hinc hG hb
    exact hsecond.fit hG hfirst
  have hlinked : KeepsFit G db db₁ := hboth.trans (linkPair_keepsFit hlink hgetExp hgetInc fun _ => nofun)
  exact (hlinked.trans (keepsFit_doIf_apply hdb₂)).trans (keepsFit_doIf_apply hdb')

theorem createTransfer_keepsFit {body : TransferCreate} (hG : G → body.categoryId = none → TransferBoth db.categories orgId)
    (h : createTransfer db orgId body = .ok db') : KeepsFit G db db' := by
  obtain ⟨_, _, h⟩ := bind_eq_ok.mp h
  obtain ⟨source, _, h⟩ := bind_eq_ok.mp h
  obtain ⟨destination, _, h⟩ := bind_eq_ok.mp h
  obtain ⟨⟨catDb, categoryId⟩, hpair, h⟩ := bind_eq_ok.mp h
  obtain ⟨linked, hlink, h⟩ := bind_eq_ok.mp h
  obtain ⟨paid, hpaid, h⟩ := bind_eq_ok.mp h
  obtain ⟨hkeeps, -, -, htakes⟩ := pairCategory_keepsFit (G := G) hpair
  refine hkeeps.trans (newPair_keepsFit ?_ ?_ hlink hpaid h)
  · exact fun hg _ => ⟨nofun, (htakes (hG hg)).any _⟩
  · exact fun hg _ => ⟨nofun, (htakes (hG hg)).any _⟩

/-- What the missing leg needs: the row's category takes both if it keeps it, and the transfer
category does if the legs go there. -/
def ConvertsIntoBoth (db : Db) (orgId sourceId : Nat) (recategorize : Bool) (transferCategoryId : Option Nat) : Prop :=
  if recategorize then transferCategoryId = none → TransferBoth db.categories orgId
  else ∀ source, findTransaction db orgId sourceId = some source →
    ∀ c, findCategory db orgId source.categoryId = some c → c.type = .both

theorem convertAndCreateLeg_keepsFit {sourceId destinationAccountId : Nat} {recategorize : Bool}
    {transferCategoryId : Option Nat}
    (hG : G → ConvertsIntoBoth db orgId sourceId recategorize transferCategoryId)
    (h : convertAndCreateLeg db orgId sourceId destinationAccountId recategorize transferCategoryId = .ok db') :
    KeepsFit G db db' := by
  obtain ⟨source, hsource, h⟩ := bind_eq_ok.mp h
  iterate 5 obtain ⟨_, _, h⟩ := bind_eq_ok.mp h
  obtain ⟨destination, _, h⟩ := bind_eq_ok.mp h
  obtain ⟨_, _, h⟩ := bind_eq_ok.mp h
  obtain ⟨_, _, h⟩ := bind_eq_ok.mp h
  obtain ⟨db₁, hdb₁, h⟩ := bind_eq_ok.mp h
  obtain ⟨hget, horg⟩ := findTransaction_eq_some.mp (found_eq_ok.mp hsource)
  generalize hpartner : (Transaction.mk orgId destinationAccountId _ _ _ _ _ _ _ _ _ _ _ _ _ _) = partner at hdb₁ h
  have hpartnerOrg : partner.orgId = orgId := hpartner ▸ rfl
  have hpartnerCat : partner.categoryId = source.categoryId := hpartner ▸ rfl
  have hpartnerType : partner.type ≠ .transfer := by
    rw [← hpartner]
    dsimp only
    split <;> exact nofun
  obtain ⟨hcats, hrows, htemplates⟩ : db₁.categories = db.categories ∧
      db₁.transactions = db.transactions.insert partner ∧ db₁.recurring = db.recurring := by
    rw [doIf_applyRow_ok hpartnerOrg hdb₁]
    exact ⟨rfl, rfl, rfl⟩
  clear hdb₁ hpartner
  have hgetSource : db₁.transactions.get? sourceId = some source := hrows ▸ Table.get?_insert_of_some hget
  have hgetPartner : db₁.transactions.get? db.transactions.next = some partner :=
    hrows ▸ (Table.get?_insert _ _ _).trans (if_pos rfl)
  have hboth : G → recategorize = true → transferCategoryId = none → TransferBoth db₁.categories orgId := by
    intro hg hre
    have hconv := hG hg
    rw [ConvertsIntoBoth, if_pos hre] at hconv
    rwa [hcats]
  -- the new leg alone may not fit, and only as long as it is about to be recategorized
  have hapart : G → BooksFit db → ∀ {e i : Nat},
      e = db.transactions.next ∨ i = db.transactions.next → FitApart db₁ recategorize e i := by
    intro hg hb e i hei
    refine ⟨fun j t ht hkeep => ?_, htemplates ▸ hcats ▸ hb.templates⟩
    rw [hrows, Table.get?_insert] at ht
    rw [hcats]
    split at ht
    · rename_i hj
      obtain rfl := Option.some.inj ht
      cases recategorize with
      | true =>
        obtain ⟨hje, hji⟩ := hkeep rfl
        rcases hei with he | hi
        · exact absurd (hj.trans he.symm) hje
        · exact absurd (hj.trans hi.symm) hji
      | false =>
        obtain ⟨c, hc, hcorg, -⟩ := (hb.rows sourceId source hget).2
        have hfind : findCategory db orgId source.categoryId = some c :=
          findCategory_eq_some.mpr ⟨hc, hcorg.trans horg⟩
        have htype : c.type = .both := hG hg source (found_eq_ok.mp hsource) c hfind
        refine ⟨hpartnerType, c, hpartnerCat ▸ hc, (hcorg.trans horg).trans hpartnerOrg.symm, ?_⟩
        rw [htype]
        rfl
    · exact hb.rows j t ht
  have hgrown : Grown db.categories db'.categories := by
    rw [← hcats]
    split at h
    · exact linkPair_grown h
    · exact linkPair_grown h
  refine ⟨hgrown, fun hg hb => ?_⟩
  split at h
  · exact linkPair_fit h hgetSource hgetPartner (fun hre hnone => horg ▸ hboth hg hre hnone) (hapart hg hb (.inr rfl))
  · exact linkPair_fit h hgetPartner hgetSource (fun hre hnone => hpartnerOrg ▸ hboth hg hre hnone)
      (hapart hg hb (.inl rfl))

theorem unpairTransactions_keepsFit {id expenseFallbackCategoryId incomeFallbackCategoryId : Nat}
    (h : unpairTransactions db orgId id expenseFallbackCategoryId incomeFallbackCategoryId = .ok db') :
    KeepsFit G db db' := by
  obtain ⟨tx, htx, h⟩ := bind_eq_ok.mp h
  obtain ⟨⟨l, c⟩, hlinked, h⟩ := bind_eq_ok.mp h
  obtain ⟨_, _, h⟩ := bind_eq_ok.mp h
  obtain ⟨expCat, hexpCat, h⟩ := bind_eq_ok.mp h
  obtain ⟨incCat, hincCat, h⟩ := bind_eq_ok.mp h
  obtain ⟨_, hexp, h⟩ := bind_eq_ok.mp h
  obtain ⟨_, hinc, h⟩ := bind_eq_ok.mp h
  obtain ⟨htx, horg⟩ := findTransaction_eq_some.mp (found_eq_ok.mp htx)
  obtain ⟨-, hl, hlorg⟩ := linkedRow_eq_some.mp (found_eq_ok.mp hlinked)
  obtain ⟨hexpGet, hexpOrg⟩ := findCategory_eq_some.mp (found_eq_ok.mp hexpCat)
  obtain ⟨hincGet, hincOrg⟩ := findCategory_eq_some.mp (found_eq_ok.mp hincCat)
  have hexpTakes : Takes db.categories orgId expenseFallbackCategoryId .expense := by
    refine ⟨expCat, hexpGet, hexpOrg, ?_⟩
    have hne := refuse_eq_ok.mp hexp
    cases hty : expCat.type <;> simp_all [categoryTypeMatches]
  have hincTakes : Takes db.categories orgId incomeFallbackCategoryId .income := by
    refine ⟨incCat, hincGet, hincOrg, ?_⟩
    have hne := refuse_eq_ok.mp hinc
    cases hty : incCat.type <;> simp_all [categoryTypeMatches]
  -- each leg goes to the fallback of its own type
  have hunpair : ∀ {e i : Nat} {exp inc : Transaction} {pairings : List (Nat × Nat)},
      db.transactions.get? e = some exp → db.transactions.get? i = some inc → exp.orgId = orgId → inc.orgId = orgId →
      exp.type = .expense → inc.type = .income →
      KeepsFit G db { setCategory i incomeFallbackCategoryId (setCategory e expenseFallbackCategoryId
        (setLink i none (setLink e none db))) with pairings } := by
    intro e i exp inc pairings hgetE hgetI horgE horgI htypeE htypeI
    have hlinks : KeepsFit G db (setLink i none (setLink e none db)) :=
      (keepsFit_setLink db e none).trans (keepsFit_setLink _ i none)
    have hrow : ∀ {j : Nat} {t a : Transaction}, db.transactions.get? j = some t →
        (setLink i none (setLink e none db)).transactions.get? j = some a → a.orgId = t.orgId ∧ a.type = t.type := by
      intro j t a ht ha
      obtain ⟨b, hb, rfl⟩ := Table.get?_modify_eq_some.mp ha
      obtain ⟨d, hd, rfl⟩ := Table.get?_modify_eq_some.mp hb
      obtain rfl : t = d := Option.some.inj (ht.symm.trans hd)
      constructor
      · split <;> split <;> rfl
      · split <;> split <;> rfl
    have hfirst : KeepsFit G (setLink i none (setLink e none db))
        (setCategory e expenseFallbackCategoryId (setLink i none (setLink e none db))) := by
      refine keepsFit_edit fun a ha _ _ _ => ?_
      obtain ⟨haorg, hatype⟩ := hrow hgetE ha
      refine ⟨by rw [hatype, htypeE]; exact nofun, ?_⟩
      rw [haorg, horgE, hatype, htypeE]
      exact hexpTakes
    have hsecond : KeepsFit G (setCategory e expenseFallbackCategoryId (setLink i none (setLink e none db)))
        (setCategory i incomeFallbackCategoryId
          (setCategory e expenseFallbackCategoryId (setLink i none (setLink e none db)))) := by
      refine keepsFit_edit fun a ha _ _ _ => ?_
      obtain ⟨b, hb, rfl⟩ := Table.get?_modify_eq_some.mp ha
      obtain ⟨hborg, hbtype⟩ := hrow hgetI hb
      have hkept : ∀ f : Transaction, f = (if i = e then { b with categoryId := expenseFallbackCategoryId } else b) →
          f.orgId = b.orgId ∧ f.type = b.type := by
        intro f hf
        rw [hf]
        split
        · exact ⟨rfl, rfl⟩
        · exact ⟨rfl, rfl⟩
      obtain ⟨hforg, hftype⟩ := hkept _ rfl
      refine ⟨by rw [hftype, hbtype, htypeI]; exact nofun, ?_⟩
      rw [hforg, hftype, hborg, horgI, hbtype, htypeI]
      exact hincTakes
    exact ((hlinks.trans hfirst).trans hsecond).trans (keepsFit_elsewhere rfl rfl rfl)
  dsimp only at h
  split at h
  · rw [← Except.ok.inj h]
    exact hunpair htx hl horg hlorg ‹_› ‹_›
  · rw [← Except.ok.inj h]
    exact hunpair hl htx hlorg horg ‹_› ‹_›
  · cases h

end BetterDecision
