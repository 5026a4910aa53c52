import BetterDecision.Proof.Moves

/-!
# What an operation writes

An operation writes in two places: the books, by moves, and the stored copies of
their totals. `Wrote` keeps account of both, what the moves add up to and what the
balances were moved by, so an operation is read write by write in the order the
source has them. It is right if the two agree in the end, which is `Posted`.
-/

namespace BetterDecision

variable {rules : Rules} {db db' db'' : Db} {ε ε' : Effect} {μ μ' : Nat × Nat → Int}

/-! ## Balances moved -/

/-- Every account's balance moved by `δ` of it. -/
def credit (accounts : Table Account) (δ : Nat × Nat → Int) : Table Account :=
  accounts.mapRows (fun i a => { a with balance := a.balance + δ (a.orgId, i) })

def Db.credited (db : Db) (δ : Nat × Nat → Int) : Db := { db with accounts := credit db.accounts δ }

theorem credit_zero (accounts : Table Account) : credit accounts 0 = accounts := by
  refine Table.mapRows_eq_self fun i a _ => ?_
  simp

theorem credit_credit (accounts : Table Account) (δ η : Nat × Nat → Int) :
    credit (credit accounts δ) η = credit accounts (δ + η) := by
  refine Table.ext ?_ rfl
  simp [credit, Table.mapRows, Function.comp_def, add_assoc]

@[simp] theorem Db.credited_zero (db : Db) : db.credited 0 = db := by
  rw [Db.credited, credit_zero]

@[simp] theorem Db.books_credited (db : Db) (δ : Nat × Nat → Int) : (db.credited δ).books = db.books := rfl

@[simp] theorem Db.transactions_credited (db : Db) (δ : Nat × Nat → Int) :
    (db.credited δ).transactions = db.transactions := rfl

theorem get?_credit (accounts : Table Account) (δ : Nat × Nat → Int) (i : Nat) :
    (credit accounts δ).get? i =
      (accounts.get? i).map (fun a => { a with balance := a.balance + δ (a.orgId, i) }) := by
  rw [credit, Table.get?_mapRows]

/-- No balance is a currency. -/
theorem currencyOf_credit {δ : Nat × Nat → Int} (h : db'.accounts = credit db.accounts δ) :
    currencyOf db' = currencyOf db := by
  funext i
  rw [currencyOf, currencyOf, h, get?_credit, Option.map_map]
  rfl

theorem findAccount_eq_some {orgId i : Nat} {a : Account} :
    findAccount db orgId i = some a ↔ db.accounts.get? i = some a ∧ a.orgId = orgId := by
  rw [findAccount, Option.filter_eq_some_iff, beq_iff_eq]

theorem findTransaction_eq_some {orgId i : Nat} {tx : Transaction} :
    findTransaction db orgId i = some tx ↔ db.transactions.get? i = some tx ∧ tx.orgId = orgId := by
  rw [findTransaction, Option.filter_eq_some_iff, beq_iff_eq]

/-- The account under lock is the only one of its org and id. -/
theorem addToBalance_eq {orgId accountId : Nat} {x : Int} {a : Account}
    (h : findAccount db orgId accountId = some a) :
    addToBalance db accountId x = db.credited (Pi.single (orgId, accountId) x) := by
  obtain ⟨ha, horg⟩ := findAccount_eq_some.mp h
  rw [addToBalance, Db.credited]
  congr 1
  refine Table.ext ?_ rfl
  refine List.map_congr_left fun p hp => ?_
  obtain ⟨i, c⟩ := p
  have hc := Table.mem_rows.mp hp
  refine Prod.ext rfl ?_
  dsimp only
  by_cases hi : i = accountId
  · subst hi
    obtain rfl : a = c := by rw [ha] at hc; exact Option.some.inj hc
    rw [if_pos rfl, horg, Pi.single_eq_same]
  · have hkey : (c.orgId, i) ≠ (orgId, accountId) := fun he => hi (Prod.mk.inj he).2
    rw [if_neg hi, Pi.single_eq_of_ne hkey, add_zero]

theorem applyBalance_ok {orgId accountId : Nat} {amount : Amount} {txType : TransactionType}
    (h : applyBalance db orgId accountId amount txType = .ok db') :
    db' = db.credited (Pi.single (orgId, accountId) (signedAmount txType amount)) := by
  obtain ⟨a, ha, h⟩ := bind_eq_ok.mp h
  obtain ⟨-, -, h⟩ := bind_eq_ok.mp h
  rw [← Except.ok.inj h, addToBalance_eq (found_eq_ok.mp ha)]

theorem revertBalance_ok {orgId accountId : Nat} {amount : Amount} {txType : TransactionType}
    (h : revertBalance db orgId accountId amount txType = .ok db') :
    db' = db.credited (Pi.single (orgId, accountId) (-signedAmount txType amount)) := by
  obtain ⟨a, ha, h⟩ := bind_eq_ok.mp h
  obtain ⟨-, -, h⟩ := bind_eq_ok.mp h
  rw [← Except.ok.inj h, addToBalance_eq (found_eq_ok.mp ha)]

theorem applyRow_ok {orgId : Nat} {tx : Transaction} (horg : tx.orgId = orgId)
    (h : applyRow db orgId tx = .ok db') : db' = db.credited (posting tx) := by
  rw [posting, horg]
  exact applyBalance_ok h

theorem revertRow_ok {orgId : Nat} {tx : Transaction} (horg : tx.orgId = orgId)
    (h : revertRow db orgId tx = .ok db') : db' = db.credited (-posting tx) := by
  rw [posting, horg, ← Pi.single_neg]
  exact revertBalance_ok h

/-- What a row under a condition adds. -/
def postingIf (c : Bool) (tx : Transaction) : Nat × Nat → Int := if c then posting tx else 0

theorem doIf_applyRow_ok {orgId : Nat} {tx : Transaction} {c : Bool} (horg : tx.orgId = orgId)
    (h : doIf c (fun db => applyRow db orgId tx) db = .ok db') : db' = db.credited (postingIf c tx) := by
  unfold doIf at h
  unfold postingIf
  split at h
  · rw [if_pos ‹_›]
    exact applyRow_ok horg h
  · rw [if_neg ‹_›, Db.credited_zero]
    exact (Except.ok.inj h).symm

theorem doIf_revertRow_ok {orgId : Nat} {tx : Transaction} {c : Bool} (horg : tx.orgId = orgId)
    (h : doIf c (fun db => revertRow db orgId tx) db = .ok db') :
    db' = db.credited (-postingIf c tx) := by
  unfold doIf at h
  unfold postingIf
  split at h
  · rw [if_pos ‹_›]
    exact revertRow_ok horg h
  · rw [if_neg ‹_›, neg_zero, Db.credited_zero]
    exact (Except.ok.inj h).symm

/-! ## Writes, one after the other -/

/-- From `db` to `db'` by moves that add up to `ε`, with the balances moved by `μ` and no
batch written. -/
structure Wrote (rules : Rules) (db : Db) (ε : Effect) (μ : Nat × Nat → Int) (db' : Db) : Prop where
  trail : Trail (Move rules) db.books ε db'.books
  money : db'.accounts = credit db.accounts μ
  batches : db'.importBatches = db.importBatches

/-- A write to neither the books, the balances nor the batches. -/
theorem wrote_elsewhere (hbooks : db'.books = db.books) (haccounts : db'.accounts = db.accounts)
    (hbatches : db'.importBatches = db.importBatches) : Wrote rules db 0 0 db' :=
  ⟨hbooks ▸ .refl _, by rw [haccounts, credit_zero], hbatches⟩

theorem Wrote.refl (db : Db) : Wrote rules db 0 0 db := wrote_elsewhere rfl rfl rfl

theorem Wrote.trans (h : Wrote rules db ε μ db') (k : Wrote rules db' ε' μ' db'') :
    Wrote rules db (ε + ε') (μ + μ') db'' :=
  ⟨h.trail.trans k.trail, by rw [k.money, h.money, credit_credit], k.batches.trans h.batches⟩

/-- A quiet write, then another. -/
theorem Wrote.after (k : Wrote rules db' ε μ db'') (h : Wrote rules db 0 0 db') : Wrote rules db ε μ db'' := by
  have := h.trans k
  rwa [zero_add, zero_add] at this

/-- A write, then a quiet one. -/
theorem Wrote.before (h : Wrote rules db ε μ db') (k : Wrote rules db' 0 0 db'') :
    Wrote rules db ε μ db'' := by
  have := h.trans k
  rwa [add_zero, add_zero] at this

theorem wrote_credited (db : Db) (μ : Nat × Nat → Int) : Wrote rules db 0 μ (db.credited μ) :=
  ⟨.refl _, rfl, rfl⟩

theorem Wrote.credited (h : Wrote rules db ε μ db') (η : Nat × Nat → Int) :
    Wrote rules db ε (μ + η) (db'.credited η) := by
  have := h.trans (wrote_credited db' η)
  rwa [add_zero] at this

theorem wrote_move (hm : Move rules db.books ε db'.books) (haccounts : db'.accounts = db.accounts)
    (hbatches : db'.importBatches = db.importBatches) : Wrote rules db ε 0 db' :=
  ⟨.single hm, by rw [haccounts, credit_zero], hbatches⟩

theorem Wrote.currency (h : Wrote rules db ε μ db') : currencyOf db' = currencyOf db :=
  currencyOf_credit h.money

theorem Wrote.orderly (h : Wrote rules db ε μ db') (ho : Orderly rules db.books) :
    Orderly rules db'.books := (trail_orderly h.trail ho).1

theorem Wrote.weight (h : Wrote rules db ε μ db') (ho : Orderly rules db.books) :
    weight db'.transactions = weight db.transactions + ε := (trail_orderly h.trail ho).2

/-- The balances moved by what the books moved, and no batch has more or fewer rows in any
state. -/
def Posted (rules : Rules) (db db' : Db) : Prop := ∃ μ, Wrote rules db (μ, 0) μ db'

/-- The balances moved by what the books moved. -/
theorem Wrote.balanced (h : Wrote rules db ε μ db') {τ : Nat × Nat → (ReconciliationState → Bool) → Int}
    (hε : ε = (μ, τ)) : ∃ μ, Wrote rules db (μ, τ) μ db' := ⟨μ, hε ▸ h⟩

theorem Wrote.posted (h : Wrote rules db ε μ db') (hε : ε = (μ, 0)) : Posted rules db db' := h.balanced hε

theorem Wrote.quiet (h : Wrote rules db 0 0 db') : Posted rules db db' := h.posted rfl

theorem Posted.refl (db : Db) : Posted rules db db := (Wrote.refl db).quiet

theorem Posted.trans (h : Posted rules db db') (k : Posted rules db' db'') : Posted rules db db'' := by
  obtain ⟨μ, h⟩ := h
  obtain ⟨μ', k⟩ := k
  exact (h.trans k).posted (by simp)

theorem Posted.orderly (h : Posted rules db db') (ho : Orderly rules db.books) :
    Orderly rules db'.books := h.elim fun _ h => h.orderly ho

theorem Posted.currency (h : Posted rules db db') : currencyOf db' = currencyOf db :=
  h.elim fun _ h => h.currency

/-- The balances moved by what the books moved, whatever became of the batches. -/
def Moved (rules : Rules) (db db' : Db) : Prop :=
  ∃ ε, Trail (Move rules) db.books ε db'.books ∧ db'.accounts = credit db.accounts ε.1

theorem Posted.moved (h : Posted rules db db') : Moved rules db db' := by
  obtain ⟨μ, h⟩ := h
  exact ⟨(μ, 0), h.trail, h.money⟩

theorem Moved.refl (db : Db) : Moved rules db db := (Posted.refl db).moved

theorem Moved.trans (h : Moved rules db db') (k : Moved rules db' db'') : Moved rules db db'' := by
  obtain ⟨ε, ht, hm⟩ := h
  obtain ⟨ε', kt, km⟩ := k
  exact ⟨ε + ε', ht.trans kt, by rw [km, hm, credit_credit]; rfl⟩

theorem Moved.orderly (h : Moved rules db db') (ho : Orderly rules db.books) :
    Orderly rules db'.books := h.elim fun _ h => (trail_orderly h.1 ho).1

theorem Moved.currency (h : Moved rules db db') : currencyOf db' = currencyOf db :=
  h.elim fun _ h => currencyOf_credit h.2

/-! ## Rows written -/

theorem wrote_insert (db : Db) (tx : Transaction) (h : tx.linkedTransactionId = none) :
    Wrote rules db (weigh db.transactions (db.transactions.next, tx)) 0 (insertTransaction db tx) :=
  wrote_move (.post (b := db.books) tx h) rfl rfl

/-- What a row may change with no total and no pair noticing: anything, if it is pending
and linked to nothing, but what it is enrolled and reviewed as. -/
structure Aside (a a' : Transaction) : Prop where
  link : a'.linkedTransactionId = a.linkedTransactionId
  org : a'.orgId = a.orgId
  batch : a'.importBatchId = a.importBatchId
  state : a'.reconciliationState = a.reconciliationState
  status : a'.status = a.status
  posting : (a'.accountId = a.accountId ∧ a'.type = a.type ∧ a'.amount = a.amount) ∨
    (a.status = .pending ∧ a.linkedTransactionId = none)

theorem Aside.refl (a : Transaction) : Aside a a := ⟨rfl, rfl, rfl, rfl, rfl, .inl ⟨rfl, rfl, rfl⟩⟩

theorem aside_if {c : Prop} [Decidable c] {a a' : Transaction} (h : c → Aside a a') :
    Aside a (if c then a' else a) := by
  split
  · exact h ‹_›
  · exact .refl a

theorem enrolled_congr {a a' : Transaction} (horg : a'.orgId = a.orgId)
    (hbatch : a'.importBatchId = a.importBatchId) (hstate : a'.reconciliationState = a.reconciliationState) :
    enrolled a' = enrolled a := by
  unfold enrolled
  rw [horg, hbatch, hstate]

theorem Aside.weigh {rows : Table Transaction} {i : Nat} {a a' : Transaction} (h : Aside a a') :
    weigh rows (i, a') = weigh rows (i, a) := by
  unfold BetterDecision.weigh
  refine Prod.ext ?_ (enrolled_congr h.org h.batch h.state)
  rcases h.posting with ⟨hacct, htype, hamount⟩ | ⟨hpending, -⟩
  · refine booked_congr ?_ h.status h.state h.link fun _ _ => Iff.rfl
    rw [BetterDecision.posting, BetterDecision.posting, h.org, hacct, htype, hamount]
  · show booked rows (i, a') = booked rows (i, a)
    rw [booked_of_pending (h.status.trans hpending), booked_of_pending hpending]

theorem Aside.legs {rows : Table Transaction} {i j : Nat} {a a' c c' : Transaction} (h : Aside a a')
    (k : Aside c c') (hm : Mutual rows i a j c) (hlegs : Legs rules a c) : Legs rules a' c' := by
  have hsame : ∀ {t t' : Transaction} {l : Nat}, t.linkedTransactionId = some l → Aside t t' →
      t'.accountId = t.accountId ∧ t'.type = t.type ∧ t'.amount = t.amount := by
    intro t t' l hl ht
    rcases ht.posting with hsame | ⟨-, hnone⟩
    · exact hsame
    · rw [hnone] at hl
      cases hl
  obtain ⟨hacct, htype, hamount⟩ := hsame hm.there h
  obtain ⟨kacct, ktype, kamount⟩ := hsame hm.back k
  constructor
  · rw [h.org, k.org, hlegs.org]
  · rw [htype, hlegs.expense]
  · rw [ktype, hlegs.income]
  · rw [hamount, kamount, hlegs.amount]
  · rw [hacct, kacct]
    exact hlegs.accounts
  · rw [hacct, kacct]
    exact hlegs.currency

/-- **Rows rewritten aside: nothing to account for.** -/
theorem wrote_aside {g : Nat → Transaction → Transaction}
    (hg : ∀ i a, db.transactions.get? i = some a → Aside a (g i a)) :
    Wrote rules db 0 0 { db with transactions := db.transactions.mapRows g } := by
  have hshift : shift db.transactions g = 0 := by
    rw [shift, ← Table.total_zero db.transactions]
    refine Table.total_congr fun i a ha => ?_
    rw [(hg i a ha).weigh, sub_self]
  rw [← hshift]
  refine wrote_move (.rewrite (b := db.books) g ?_ ?_) rfl rfl
  · intro i a ha
    exact ⟨(hg i a ha).link, (hg i a ha).org⟩
  · intro i a j c hm
    exact (hg i a hm.left).legs (hg j c hm.right) hm

theorem wrote_editAside {id : Nat} {f : Transaction → Transaction}
    (hf : ∀ a, db.transactions.get? id = some a → Aside a (f a)) :
    Wrote rules db 0 0 (editTransaction db id f) := by
  refine wrote_aside (g := fun j a => if j = id then f a else a) fun j a ha => ?_
  refine aside_if fun hj => ?_
  subst hj
  exact hf a ha

/-- One row rewritten under its link. -/
theorem wrote_edit {id : Nat} {tx new : Transaction} {f : Transaction → Transaction}
    (htx : db.transactions.get? id = some tx) (hf : f tx = new)
    (hlink : new.linkedTransactionId = tx.linkedTransactionId) (horg : new.orgId = tx.orgId)
    (hlegs : ∀ j c, Mutual db.transactions id tx j c → new.type = tx.type ∧ new.amount = tx.amount ∧
      (new.accountId = tx.accountId ∨
        (new.accountId ≠ c.accountId ∧ rules.currency new.accountId = rules.currency c.accountId))) :
    Wrote rules db (weigh db.transactions (id, new) - weigh db.transactions (id, tx)) 0
      (editTransaction db id f) := by
  have hget : ∀ a, db.transactions.get? id = some a → f a = new ∧ a = tx := by
    intro a ha
    obtain rfl : tx = a := by rw [htx] at ha; exact Option.some.inj ha
    exact ⟨hf, rfl⟩
  have hshift : shift db.transactions (fun j a => if j = id then f a else a) =
      weigh db.transactions (id, new) - weigh db.transactions (id, tx) := by
    rw [shift, ← Table.total_single htx (weigh db.transactions (id, new) - weigh db.transactions (id, tx))]
    refine Table.total_congr fun j a ha => ?_
    by_cases hj : j = id
    · subst hj
      obtain ⟨hfa, rfl⟩ := hget a ha
      rw [if_pos rfl, if_pos rfl, hfa]
    · rw [if_neg hj, if_neg hj, sub_self]
  rw [← hshift]
  refine wrote_move (.rewrite (b := db.books) _ ?_ ?_) rfl rfl
  · intro j a ha
    split
    · subst ‹j = id›
      obtain ⟨hfa, rfl⟩ := hget a ha
      rw [hfa]
      exact ⟨hlink, horg⟩
    · exact ⟨rfl, rfl⟩
  · intro i a j c hm hac
    by_cases hi : i = id
    · subst hi
      obtain ⟨hfa, rfl⟩ := hget a hm.left
      rw [if_pos rfl, hfa]
      obtain ⟨htype, hamount, hacct⟩ := hlegs j c hm
      by_cases hj : j = i
      · subst hj
        obtain ⟨-, rfl⟩ := hget c hm.right
        exact absurd rfl hac.accounts
      · rw [if_neg hj]
        rcases hacct with hacct | ⟨hne, hcur⟩
        · exact ⟨horg.trans hac.org, htype.trans hac.expense, hac.income, hamount.trans hac.amount,
            hacct ▸ hac.accounts, hacct ▸ hac.currency⟩
        · exact ⟨horg.trans hac.org, htype.trans hac.expense, hac.income, hamount.trans hac.amount,
            hne, fun _ => hcur⟩
    · rw [if_neg hi]
      by_cases hj : j = id
      · subst hj
        obtain ⟨hfc, rfl⟩ := hget c hm.right
        rw [if_pos rfl, hfc]
        obtain ⟨htype, hamount, hacct⟩ := hlegs i a hm.symm
        rcases hacct with hacct | ⟨hne, hcur⟩
        · exact ⟨hac.org.trans horg.symm, hac.expense, htype.trans hac.income,
            hac.amount.trans hamount.symm, hacct ▸ hac.accounts, hacct ▸ hac.currency⟩
        · exact ⟨hac.org.trans horg.symm, hac.expense, htype.trans hac.income,
            hac.amount.trans hamount.symm, hne.symm, fun _ => hcur.symm⟩
      · rw [if_neg hj]
        exact hac

/-- Both legs of a pair rewritten at once. -/
theorem wrote_editLegs {e i : Nat} {exp inc exp' inc' : Transaction}
    (hm : Mutual db.transactions e exp i inc) (ne : e ≠ i)
    (hexp : exp'.linkedTransactionId = exp.linkedTransactionId ∧ exp'.orgId = exp.orgId)
    (hinc : inc'.linkedTransactionId = inc.linkedTransactionId ∧ inc'.orgId = inc.orgId)
    (hlegs : Legs rules exp inc → Legs rules exp' inc')
    (hlegs' : Legs rules inc exp → Legs rules inc' exp') :
    Wrote rules db
      ((weigh db.transactions (e, exp') - weigh db.transactions (e, exp)) +
        (weigh db.transactions (i, inc') - weigh db.transactions (i, inc))) 0
      (editTransaction (editTransaction db e (fun _ => exp')) i (fun _ => inc')) := by
  have hleft : ∀ a, db.transactions.get? e = some a → a = exp := by
    intro a ha
    rw [hm.left] at ha
    exact (Option.some.inj ha).symm
  have hright : ∀ a, db.transactions.get? i = some a → a = inc := by
    intro a ha
    rw [hm.right] at ha
    exact (Option.some.inj ha).symm
  -- the two edits as one rewrite
  let g : Nat → Transaction → Transaction := fun k a =>
    if k = i then inc' else if k = e then exp' else a
  have hedit : editTransaction (editTransaction db e (fun _ => exp')) i (fun _ => inc') =
      { db with transactions := db.transactions.mapRows g } := by
    unfold editTransaction
    rw [modify_two_eq_mapRows]
  have hge : g e exp = exp' := by
    show (if e = i then inc' else if e = e then exp' else exp) = exp'
    rw [if_neg ne, if_pos rfl]
  have hgi : g i inc = inc' := if_pos rfl
  have hgo : ∀ k a, k ≠ e → k ≠ i → g k a = a := by
    intro k a hke hki
    show (if k = i then inc' else if k = e then exp' else a) = a
    rw [if_neg hki, if_neg hke]
  have hshift : shift db.transactions g =
      (weigh db.transactions (e, exp') - weigh db.transactions (e, exp)) +
        (weigh db.transactions (i, inc') - weigh db.transactions (i, inc)) := by
    rw [← Table.total_single hm.left (weigh db.transactions (e, exp') - weigh db.transactions (e, exp)),
      ← Table.total_single hm.right (weigh db.transactions (i, inc') - weigh db.transactions (i, inc)),
      ← Table.total_add, shift]
    refine Table.total_congr fun k a ha => ?_
    by_cases hke : k = e
    · subst hke
      obtain rfl := hleft a ha
      rw [if_pos rfl, if_neg ne, add_zero, hge]
    · by_cases hki : k = i
      · subst hki
        obtain rfl := hright a ha
        rw [if_neg hke, if_pos rfl, zero_add, hgi]
      · rw [if_neg hke, if_neg hki, add_zero, hgo k a hke hki, sub_self]
  rw [hedit, ← hshift]
  refine wrote_move (.rewrite (b := db.books) g ?_ ?_) rfl rfl
  · intro k a ha
    by_cases hke : k = e
    · subst hke
      obtain rfl := hleft a ha
      rw [hge]
      exact hexp
    · by_cases hki : k = i
      · subst hki
        obtain rfl := hright a ha
        rw [hgi]
        exact hinc
      · rw [hgo k a hke hki]
        exact ⟨rfl, rfl⟩
  · -- a pair is these two rows, or none of them
    intro k a l c hkl hac
    have hend : ∀ k a l c, Mutual db.transactions k a l c → (k = e ↔ l = i) ∧ (k = i ↔ l = e) := by
      intro k a l c h
      have hto := h.there
      have hfro := h.back
      refine ⟨⟨?_, ?_⟩, ⟨?_, ?_⟩⟩
      · rintro rfl
        obtain rfl := hleft a h.left
        rw [hm.there] at hto
        exact (Option.some.inj hto).symm
      · rintro rfl
        obtain rfl := hright c h.right
        rw [hm.back] at hfro
        exact (Option.some.inj hfro).symm
      · rintro rfl
        obtain rfl := hright a h.left
        rw [hm.back] at hto
        exact (Option.some.inj hto).symm
      · rintro rfl
        obtain rfl := hleft c h.right
        rw [hm.there] at hfro
        exact (Option.some.inj hfro).symm
    obtain ⟨hei, hie⟩ := hend k a l c hkl
    by_cases hke : k = e
    · obtain rfl := hei.mp hke
      subst hke
      obtain rfl := hleft a hkl.left
      obtain rfl := hright c hkl.right
      rw [hge, hgi]
      exact hlegs hac
    · by_cases hki : k = i
      · obtain rfl := hie.mp hki
        subst hki
        obtain rfl := hright a hkl.left
        obtain rfl := hleft c hkl.right
        rw [hge, hgi]
        exact hlegs' hac
      · rw [hgo k a hke hki, hgo l c (fun h => hki (hie.mpr h)) (fun h => hke (hei.mpr h))]
        exact hac

/-! ## Who is inside the balance -/

section Links

variable {id orgId : Nat} {tx : Transaction}

theorem linkedRow_eq_some {l : Nat} {c : Transaction} :
    linkedRow db orgId tx = some (l, c) ↔
      tx.linkedTransactionId = some l ∧ db.transactions.get? l = some c ∧ c.orgId = orgId := by
  rw [linkedRow, Option.bind_eq_some_iff]
  constructor
  · rintro ⟨k, hk, h⟩
    obtain ⟨d, hd, he⟩ := Option.map_eq_some_iff.mp h
    obtain ⟨rfl, rfl⟩ := Prod.mk.inj he
    exact ⟨hk, findTransaction_eq_some.mp hd⟩
  · rintro ⟨hl, hc⟩
    exact ⟨l, hl, by rw [findTransaction_eq_some.mpr hc, Option.map_some]⟩

/-- What a link leads to is there to be read. -/
theorem linkedRow_of_link (hl : WellLinked db.transactions) (htx : db.transactions.get? id = some tx)
    (horg : tx.orgId = orgId) {l : Nat} (h : tx.linkedTransactionId = some l) :
    ∃ c, linkedRow db orgId tx = some (l, c) ∧ db.transactions.get? l = some c ∧ l ≠ id ∧ c.orgId = orgId := by
  obtain ⟨hne, c, hc, hcorg⟩ := hl id tx l htx h
  exact ⟨c, linkedRow_eq_some.mpr ⟨h, hc, hcorg.trans horg⟩, hc, hne, hcorg.trans horg⟩

/-- **With its partner at hand, the service's test is the report's.** -/
theorem contributes_of_partner {rows : Table Transaction} {partner : Option Row}
    (h : ∀ l, tx.linkedTransactionId = some l → ∃ c, partner = some (l, c) ∧ rows.get? l = some c) :
    contributesToCachedBalance (id, tx) partner = balanceContributionFilter rows (id, tx) := by
  unfold contributesToCachedBalance balanceContributionFilter
  dsimp only
  rcases hl : tx.linkedTransactionId with _ | l
  · rcases tx.reconciliationState.isReverted <;> rfl
  · obtain ⟨c, rfl, hc⟩ := h l hl
    dsimp only
    rw [linkOf_of_get hc]
    rcases tx.reconciliationState.isReverted <;> simp

theorem contributes_eq (hl : WellLinked db.transactions) (htx : db.transactions.get? id = some tx)
    (horg : tx.orgId = orgId) :
    contributesToCachedBalance (id, tx) (linkedRow db orgId tx) =
      balanceContributionFilter db.transactions (id, tx) := by
  refine contributes_of_partner fun l hlink => ?_
  obtain ⟨c, hc, hget, -, -⟩ := linkedRow_of_link hl htx horg hlink
  exact ⟨c, hc, hget⟩

/-- **A reciprocal pair is a mutual link.** -/
theorem reciprocal_iff (hl : WellLinked db.transactions) (htx : db.transactions.get? id = some tx)
    (horg : tx.orgId = orgId) {l : Nat} {c : Transaction} (hc : linkedRow db orgId tx = some (l, c)) :
    isReciprocalPair (id, tx) (some (l, c)) = true ↔ Mutual db.transactions id tx l c := by
  obtain ⟨hlink, hget, hcorg⟩ := linkedRow_eq_some.mp hc
  obtain ⟨hne, -⟩ := hl id tx l htx hlink
  simp only [isReciprocalPair, hlink, beq_self_eq_true, Bool.true_and, Bool.and_eq_true, bne_iff_ne,
    ne_eq, beq_iff_eq]
  constructor
  · rintro ⟨-, hback⟩
    exact ⟨htx, hget, hlink, hback⟩
  · intro hm
    exact ⟨⟨hne, hcorg.trans horg.symm⟩, hm.back⟩

/-- A row whose partner does not link back is in no pair. -/
theorem not_mutual_of_not_reciprocal (hl : WellLinked db.transactions)
    (htx : db.transactions.get? id = some tx) (horg : tx.orgId = orgId)
    (h : ¬ isReciprocalPair (id, tx) (linkedRow db orgId tx) = true) (j : Nat) (c : Transaction) :
    ¬ Mutual db.transactions id tx j c := by
  intro hm
  obtain ⟨d, hd, hget, -⟩ := linkedRow_of_link hl htx horg hm.there
  obtain rfl : c = d := by rw [hm.right] at hget; exact Option.some.inj hget
  rw [hd] at h
  exact h ((reciprocal_iff hl htx horg hd).mpr hm)

theorem booked_eq_postingIf (rows : Table Transaction) (id : Nat) (tx : Transaction) :
    booked rows (id, tx) = postingIf (tx.status = .settled && balanceContributionFilter rows (id, tx)) tx := by
  simp [booked, postingIf]

end Links

end BetterDecision
