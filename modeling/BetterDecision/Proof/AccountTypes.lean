import BetterDecision.Model.AccountTypes

/-!
# The columns of an account's type

Every request checks the columns it leaves on a row against the type it leaves the row
with, except for one: the account a bill is paid from. What that account is, is checked;
what is paid from it, is not. So the columns fit the type in every state reached by
requests that name a payment source on a card or a loan only, and in no state right after
one that does otherwise.
-/

namespace BetterDecision

/-! ## What the checks let through -/

theorem onlyAllowedOn_eq_ok {α : Type} [DecidableEq α] {type field : String} {value : Option α} {u : Unit} :
    onlyAllowedOn type field value = .ok u ↔ value = none := by
  rw [onlyAllowedOn, refuse_eq_ok, not_not]

theorem requiredForLoan_eq_ok {α : Type} {field : String} {value : Option α} {a : α} :
    requiredForLoan field value = .ok a ↔ value = some a := found_eq_ok

/-- The columns only a card fills are null. -/
def AccountRow.NoCard (a : AccountRow) : Prop :=
  a.closeDay = none ∧ a.paymentDay = none ∧ a.paymentDayRelativeMonth = none ∧
    a.creditLimit = none ∧ a.apr = none ∧ a.paymentStrategy = none ∧ a.fixedPaymentAmount = none

/-- The columns only a loan fills are null. -/
def AccountRow.NoLoan (a : AccountRow) : Prop :=
  a.principalAmount = none ∧ a.interestRateApr = none ∧ a.termMonths = none ∧ a.originationDate = none ∧
    a.firstPaymentDate = none

/-- The columns of a loan are all there. -/
def AccountRow.FullLoan (a : AccountRow) : Prop :=
  a.principalAmount ≠ none ∧ a.interestRateApr ≠ none ∧ a.termMonths ≠ none ∧ a.originationDate ≠ none ∧
    a.firstPaymentDate ≠ none

theorem validateCreditCardFields_ok {target : AccountSlug} {creditLimit apr fixedPaymentAmount : Option Int}
    {paymentStrategy : Option PaymentStrategy}
    (h : validateCreditCardFields target creditLimit apr paymentStrategy fixedPaymentAmount = .ok ())
    (ht : target ≠ .creditCard) :
    creditLimit = none ∧ apr = none ∧ paymentStrategy = none ∧ fixedPaymentAmount = none := by
  rw [validateCreditCardFields, if_pos ht] at h
  obtain ⟨_, h1, h⟩ := bind_eq_ok.mp h
  obtain ⟨_, h2, h⟩ := bind_eq_ok.mp h
  obtain ⟨_, h3, h4⟩ := bind_eq_ok.mp h
  exact ⟨onlyAllowedOn_eq_ok.mp h1, onlyAllowedOn_eq_ok.mp h2, onlyAllowedOn_eq_ok.mp h3, onlyAllowedOn_eq_ok.mp h4⟩

theorem validateLoanFields_of_ne {target : AccountSlug} {a : AccountRow}
    (h : validateLoanFields target a.principalAmount a.interestRateApr a.termMonths a.originationDate
      a.firstPaymentDate = .ok ()) (ht : target ≠ .loan) : a.NoLoan := by
  rw [validateLoanFields, if_pos ht] at h
  obtain ⟨_, h1, h⟩ := bind_eq_ok.mp h
  obtain ⟨_, h2, h⟩ := bind_eq_ok.mp h
  obtain ⟨_, h3, h⟩ := bind_eq_ok.mp h
  obtain ⟨_, h4, h5⟩ := bind_eq_ok.mp h
  exact ⟨onlyAllowedOn_eq_ok.mp h1, onlyAllowedOn_eq_ok.mp h2, onlyAllowedOn_eq_ok.mp h3,
    onlyAllowedOn_eq_ok.mp h4, onlyAllowedOn_eq_ok.mp h5⟩

theorem validateLoanFields_of_loan {a : AccountRow}
    (h : validateLoanFields .loan a.principalAmount a.interestRateApr a.termMonths a.originationDate
      a.firstPaymentDate = .ok ()) : a.FullLoan := by
  rw [validateLoanFields, if_neg (by simp)] at h
  obtain ⟨_, h1, h⟩ := bind_eq_ok.mp h
  obtain ⟨_, h2, h⟩ := bind_eq_ok.mp h
  obtain ⟨_, h3, h⟩ := bind_eq_ok.mp h
  obtain ⟨_, h4, h⟩ := bind_eq_ok.mp h
  obtain ⟨_, h5, _⟩ := bind_eq_ok.mp h
  rw [requiredForLoan_eq_ok] at h1 h2 h3 h4 h5
  exact ⟨by simp [h1], by simp [h2], by simp [h3], by simp [h4], by simp [h5]⟩

/-- The account named is another one of the org, of an allowed type, and active. -/
theorem validatePaymentSourceAccount_ok {db : AccountsDb} {orgId sourceId : Nat} {target : Option Nat}
    (h : validatePaymentSourceAccount db orgId (some sourceId) target = .ok ()) :
    target ≠ some sourceId ∧ ∃ account, db.ownAccount orgId sourceId = some account ∧
      (∃ slug ∈ db.slugOf account, slug.isPaymentSource) ∧ account.isActive := by
  simp only [validatePaymentSourceAccount] at h
  obtain ⟨_, hself, h⟩ := bind_eq_ok.mp h
  obtain ⟨account, haccount, h⟩ := bind_eq_ok.mp h
  obtain ⟨_, hslug, hactive⟩ := bind_eq_ok.mp h
  exact ⟨refuse_eq_ok.mp hself, account, found_eq_ok.mp haccount, not_not.mp (refuse_eq_ok.mp hslug),
    not_not.mp (refuse_eq_ok.mp hactive)⟩

theorem ownAccount_eq_some {db : AccountsDb} {orgId accountId : Nat} {a : AccountRow} :
    db.ownAccount orgId accountId = some a ↔ db.accounts.get? accountId = some a ∧ a.orgId = orgId := by
  simp [AccountsDb.ownAccount, Option.filter_eq_some_iff]

theorem ownType_eq_some {db : AccountsDb} {orgId typeId : Nat} {t : AccountType} :
    db.ownType orgId typeId = some t ↔ db.accountTypes.get? typeId = some t ∧ t.orgId = orgId := by
  simp [AccountsDb.ownType, Option.filter_eq_some_iff]

/-! ## The invariant -/

/-- The columns of a row fit a type. -/
structure AccountRow.Fits (slug : AccountSlug) (a : AccountRow) : Prop where
  noCard : slug ≠ .creditCard → a.NoCard
  closeDay : slug = .creditCard → a.closeDay ≠ none
  noLoan : slug ≠ .loan → a.NoLoan
  fullLoan : slug = .loan → a.FullLoan
  source : a.paymentSourceAccountId ≠ none → slug.isLiability

/-- A row names a type of its org, its columns fit it, and its bills are paid from another
account of the org. -/
structure RowConsistent (db : AccountsDb) (i : Nat) (a : AccountRow) : Prop where
  type : ∃ t, db.accountTypes.get? a.accountTypeId = some t ∧ t.orgId = a.orgId ∧ a.Fits t.slug
  source : ∀ s, a.paymentSourceAccountId = some s → s ≠ i ∧ ∃ b, db.accounts.get? s = some b ∧ b.orgId = a.orgId

def ColumnsConsistent (db : AccountsDb) : Prop := ∀ i a, db.accounts.get? i = some a → RowConsistent db i a

/-- A row stays consistent as long as its type and the account it names stay. -/
theorem RowConsistent.mono {db db' : AccountsDb} {i : Nat} {a : AccountRow} (h : RowConsistent db i a)
    (htype : ∀ t, db.accountTypes.get? a.accountTypeId = some t → db'.accountTypes.get? a.accountTypeId = some t)
    (hsource : ∀ s b, a.paymentSourceAccountId = some s → db.accounts.get? s = some b →
      ∃ b', db'.accounts.get? s = some b' ∧ b'.orgId = b.orgId) : RowConsistent db' i a := by
  obtain ⟨t, ht, htorg, hfits⟩ := h.type
  refine ⟨⟨t, htype t ht, htorg, hfits⟩, ?_⟩
  intro s hs
  obtain ⟨hne, b, hb, hborg⟩ := h.source s hs
  obtain ⟨b', hb', horg⟩ := hsource s b hs hb
  exact ⟨hne, b', hb', horg.trans hborg⟩

/-- The balance and the default flag are no part of it. -/
theorem RowConsistent.setBooks {db : AccountsDb} {i : Nat} {a : AccountRow} (h : RowConsistent db i a)
    (balance : Int) (isDefault : Bool) :
    RowConsistent db i { a with balance := balance, isDefault := isDefault } := by
  obtain ⟨t, ht, htorg, hfits⟩ := h.type
  exact ⟨⟨t, ht, htorg, ⟨hfits.noCard, hfits.closeDay, hfits.noLoan, hfits.fullLoan, hfits.source⟩⟩, h.source⟩

/-! ## Which requests name a payment source -/

/-- The account a request wants the bill paid from. -/
def AccountCall.paysFrom : AccountCall → Option Nat
  | .create _ _ body => body.paymentSourceAccountId
  | .update _ _ _ body => body.paymentSourceAccountId.getD none
  | _ => none

/-- The type a request leaves its account with. -/
def AccountCall.resultingType (db : AccountsDb) : AccountCall → Option AccountType
  | .create _ orgId body => db.ownType orgId body.accountTypeId
  | .update orgId _ accountId body =>
    (db.ownAccount orgId accountId).bind (fun a => db.accountTypes.get? (body.accountTypeId.getD a.accountTypeId))
  | _ => none

/-- A request that names a payment source does so for a card or a loan. -/
def SourceOnLiability (db : AccountsDb) (c : AccountCall) : Prop :=
  c.paysFrom.isSome → ∀ t ∈ c.resultingType db, t.slug.isLiability

instance (db : AccountsDb) (c : AccountCall) : Decidable (SourceOnLiability db c) :=
  inferInstanceAs (Decidable (_ → ∀ t ∈ c.resultingType db, _))

/-! ## Creating -/

theorem assertOrgCurrencyAllows_ok {str : StrMethods} {db db' : AccountsDb} {orgId : Nat} {currency : String}
    (h : assertOrgCurrencyAllows str db orgId currency = .ok db') :
    db'.accounts = db.accounts ∧ db'.accountTypes = db.accountTypes := by
  obtain ⟨primary, _, h⟩ := bind_eq_ok.mp h
  cases primary with
  | none =>
    obtain rfl := Except.ok.inj h
    exact ⟨rfl, rfl⟩
  | some code =>
    obtain rfl := Except.ok.inj h
    exact ⟨rfl, rfl⟩

/-- What `create_account` makes sure of before it adds the row. -/
theorem createAccount_ok {str : StrMethods} {db db' : AccountsDb} {today : Int} {orgId : Nat}
    {body : AccountCreate} (h : createAccount str db today orgId body = .ok db') :
    ∃ t currency, db.ownType orgId body.accountTypeId = some t ∧
      db'.accounts = db.accounts.insert (body.row today orgId currency) ∧ db'.accountTypes = db.accountTypes ∧
      validateCreateCloseDay t.slug body.closeDay = .ok () ∧
      validateCreatePaymentDay t.slug body.paymentDay body.paymentDayRelativeMonth body.closeDay = .ok () ∧
      validateCreditCardFields t.slug body.creditLimit body.apr body.paymentStrategy body.fixedPaymentAmount =
        .ok () ∧
      validateLoanFields t.slug body.principalAmount body.interestRateApr body.termMonths body.originationDate
        body.firstPaymentDate = .ok () ∧
      ∀ s, body.paymentSourceAccountId = some s → ∃ b, db.ownAccount orgId s = some b ∧
        (∃ slug ∈ db.slugOf b, slug.isPaymentSource) ∧ b.isActive := by
  obtain ⟨currency, _, h⟩ := bind_eq_ok.mp h
  obtain ⟨t, ht, h⟩ := bind_eq_ok.mp h
  obtain ⟨db1, hdb1, h⟩ := bind_eq_ok.mp h
  obtain ⟨_, hclose, h⟩ := bind_eq_ok.mp h
  obtain ⟨_, hpay, h⟩ := bind_eq_ok.mp h
  obtain ⟨_, hcard, h⟩ := bind_eq_ok.mp h
  obtain ⟨_, hloan, h⟩ := bind_eq_ok.mp h
  obtain ⟨_, hsource, h⟩ := bind_eq_ok.mp h
  obtain rfl := Except.ok.inj h
  obtain ⟨haccounts, htypes⟩ := assertOrgCurrencyAllows_ok hdb1
  refine ⟨t, currency, found_eq_ok.mp ht, by rw [haccounts], htypes, hclose, hpay, hcard, hloan, ?_⟩
  intro s hs
  rw [hs] at hsource
  obtain ⟨_, b, hb, ⟨slug, hslug, hallowed⟩, hactive⟩ := validatePaymentSourceAccount_ok hsource
  rw [AccountsDb.ownAccount, haccounts] at hb
  rw [AccountsDb.slugOf, htypes] at hslug
  exact ⟨b, hb, ⟨slug, hslug, hallowed⟩, hactive⟩

theorem createAccount_fits {t : AccountSlug} {today : Int} {orgId : Nat} {currency : String} {body : AccountCreate}
    (hclose : validateCreateCloseDay t body.closeDay = .ok ())
    (hpay : validateCreatePaymentDay t body.paymentDay body.paymentDayRelativeMonth body.closeDay = .ok ())
    (hcard : validateCreditCardFields t body.creditLimit body.apr body.paymentStrategy body.fixedPaymentAmount =
      .ok ())
    (hloan : validateLoanFields t body.principalAmount body.interestRateApr body.termMonths body.originationDate
      body.firstPaymentDate = .ok ())
    (hsource : body.paymentSourceAccountId ≠ none → t.isLiability) : (body.row today orgId currency).Fits t where
  noCard := by
    intro ht
    obtain ⟨_, _, hclose⟩ := bind_eq_ok.mp hclose
    rw [refuse_eq_ok, not_and, not_not] at hclose
    rw [validateCreatePaymentDay, if_pos ht] at hpay
    obtain ⟨_, hday, hmonth⟩ := bind_eq_ok.mp hpay
    rw [refuse_eq_ok, not_not] at hday hmonth
    exact ⟨hclose ht, hday, hmonth, validateCreditCardFields_ok hcard ht⟩
  closeDay := by
    intro ht
    obtain ⟨_, hclose, _⟩ := bind_eq_ok.mp hclose
    rw [refuse_eq_ok, not_and] at hclose
    exact hclose ht
  noLoan := by
    intro ht
    exact validateLoanFields_of_ne (a := body.row today orgId currency) hloan ht
  fullLoan := by
    intro ht
    subst ht
    exact validateLoanFields_of_loan (a := body.row today orgId currency) hloan
  source := hsource

/-- The new row is consistent exactly if its payment source, if any, is on a liability. -/
theorem createAccount_consistent {str : StrMethods} {db db' : AccountsDb} {today : Int} {orgId : Nat}
    {body : AccountCreate} (h : createAccount str db today orgId body = .ok db') (hdb : ColumnsConsistent db) :
    ColumnsConsistent db' ↔ SourceOnLiability db (.create today orgId body) := by
  obtain ⟨t, currency, ht, haccounts, htypes, hclose, hpay, hcard, hloan, hsource⟩ := createAccount_ok h
  obtain ⟨htget, htorg⟩ := ownType_eq_some.mp ht
  constructor
  · intro hdb' hs u hu
    have hnew : db'.accounts.get? db.accounts.next = some (body.row today orgId currency) := by
      rw [haccounts, Table.get?_insert, if_pos rfl]
    obtain ⟨⟨t', ht', _, hfits⟩, _⟩ := hdb' _ _ hnew
    rw [htypes] at ht'
    obtain rfl : t = t' := Option.some.inj (htget.symm.trans ht')
    obtain rfl : t = u := Option.some.inj (ht.symm.trans hu)
    exact hfits.source (Option.isSome_iff_ne_none.mp hs)
  · intro hg i a ha
    rw [haccounts, Table.get?_insert] at ha
    have hstay : ∀ s b, db.accounts.get? s = some b → ∃ b', db'.accounts.get? s = some b' ∧ b'.orgId = b.orgId := by
      intro s b hb
      exact ⟨b, by rw [haccounts, Table.get?_insert_of_some hb], rfl⟩
    split at ha
    · rename_i hi
      obtain rfl := Option.some.inj ha
      have hliab : body.paymentSourceAccountId ≠ none → t.slug.isLiability := by
        intro hs
        exact hg (Option.isSome_iff_ne_none.mpr hs) t ht
      refine ⟨⟨t, by rw [htypes]; exact htget, htorg, createAccount_fits hclose hpay hcard hloan hliab⟩, ?_⟩
      intro s hs
      obtain ⟨b, hb, _, _⟩ := hsource s hs
      obtain ⟨hbget, hborg⟩ := ownAccount_eq_some.mp hb
      obtain ⟨b', hb', horg⟩ := hstay s b hbget
      have hlt := Table.get?_lt_next hbget
      exact ⟨by omega, b', hb', horg.trans hborg⟩
    · exact (hdb i a ha).mono (by rw [htypes]; exact fun t ht => ht) fun s b _ hb => hstay s b hb

/-! ## Updating -/

/-- A row as staged before the fields that belong to no type are applied: the days and the
pointer already fit the type it will have. -/
structure StagedFor (slug : AccountSlug) (old a : AccountRow) : Prop where
  org : a.orgId = old.orgId
  noDays : slug ≠ .creditCard → a.closeDay = none ∧ a.paymentDay = none ∧ a.paymentDayRelativeMonth = none
  closeDay : slug = .creditCard → a.closeDay ≠ none
  source : a.paymentSourceAccountId ≠ none → slug.isLiability
  kept : ∀ s, a.paymentSourceAccountId = some s → old.paymentSourceAccountId = some s

theorem AccountRow.Fits.stagedFor {slug : AccountSlug} {a : AccountRow} (h : a.Fits slug) : StagedFor slug a a where
  org := rfl
  noDays := by
    intro hslug
    obtain ⟨h1, h2, h3, _⟩ := h.noCard hslug
    exact ⟨h1, h2, h3⟩
  closeDay := h.closeDay
  source := h.source
  kept := fun _ hs => hs

/-- A card that leaves a card, becomes one or stays one has a close day afterwards. -/
theorem closeDay_of_cascade {source : Option AccountSlug} {closeDay : Option (Option Nat)} {held : Option Nat}
    (h : validateCloseDayCascade source .creditCard closeDay = .ok ())
    (hheld : source = some .creditCard → held ≠ none) : closeDay.getD held ≠ none := by
  rw [validateCloseDayCascade, if_pos rfl] at h
  split at h
  · rename_i hsource
    rw [refuse_eq_ok] at h
    cases closeDay with
    | none => exact hheld hsource
    | some day =>
      intro hday
      exact h (congrArg some hday)
  · rw [refuse_eq_ok] at h
    cases closeDay with
    | none => exact absurd rfl h
    | some day => exact h

theorem changeType_org (account : AccountRow) (targetTypeId : Nat) (slug : AccountSlug)
    (closeDay paymentDay paymentDayRelativeMonth : Option (Option Nat)) :
    (account.changeType targetTypeId slug closeDay paymentDay paymentDayRelativeMonth).orgId = account.orgId ∧
      (account.changeType targetTypeId slug closeDay paymentDay paymentDayRelativeMonth).accountTypeId =
        targetTypeId := by
  unfold AccountRow.changeType
  split_ifs <;> exact ⟨rfl, rfl⟩

/-- The pointer stays on a liability and goes otherwise. -/
theorem changeType_paymentSource (account : AccountRow) (targetTypeId : Nat) (slug : AccountSlug)
    (closeDay paymentDay paymentDayRelativeMonth : Option (Option Nat)) :
    (account.changeType targetTypeId slug closeDay paymentDay paymentDayRelativeMonth).paymentSourceAccountId =
      if slug.isLiability then account.paymentSourceAccountId else none := by
  unfold AccountRow.changeType
  split_ifs <;> rfl

theorem changeType_stagedFor {account : AccountRow} {targetTypeId : Nat} {slug : AccountSlug}
    {closeDay paymentDay paymentDayRelativeMonth : Option (Option Nat)}
    (hclose : slug = .creditCard → closeDay.getD account.closeDay ≠ none) :
    StagedFor slug account (account.changeType targetTypeId slug closeDay paymentDay paymentDayRelativeMonth) where
  org := (changeType_org ..).1
  noDays := by
    intro h
    cases slug with
    | creditCard => exact absurd rfl h
    | _ => exact ⟨rfl, rfl, rfl⟩
  closeDay := by
    intro h
    subst h
    exact hclose rfl
  source := by
    intro hs
    rw [changeType_paymentSource] at hs
    by_contra hl
    exact hs (if_neg hl)
  kept := by
    intro s hs
    rw [changeType_paymentSource] at hs
    split at hs
    · exact hs
    · cases hs

/-- What `_apply_non_type_fields` leaves alone, and what it makes sure of. -/
theorem applyNonTypeFields_ok {db : AccountsDb} {accountId orgId : Nat} {account r : AccountRow}
    {body : AccountUpdate} {slug : AccountSlug} {admin : Bool}
    (h : applyNonTypeFields db accountId account body orgId slug admin = .ok r) :
    (r.orgId = account.orgId ∧ r.accountTypeId = account.accountTypeId ∧ r.closeDay = account.closeDay ∧
      r.paymentDay = account.paymentDay ∧ r.paymentDayRelativeMonth = account.paymentDayRelativeMonth) ∧
    r.paymentSourceAccountId = body.paymentSourceAccountId.getD account.paymentSourceAccountId ∧
    validatePaymentSourceAccount db orgId (body.paymentSourceAccountId.getD none) (some accountId) = .ok () ∧
    validateCreditCardFields slug r.creditLimit r.apr r.paymentStrategy r.fixedPaymentAmount = .ok () ∧
    validateLoanFields slug r.principalAmount r.interestRateApr r.termMonths r.originationDate r.firstPaymentDate =
      .ok () := by
  obtain ⟨_, hsource, h⟩ := bind_eq_ok.mp h
  obtain ⟨_, hcard, h⟩ := bind_eq_ok.mp h
  obtain ⟨_, hloan, h⟩ := bind_eq_ok.mp h
  obtain ⟨_, _, h⟩ := bind_eq_ok.mp h
  obtain ⟨_, _, h⟩ := bind_eq_ok.mp h
  obtain rfl := Except.ok.inj h
  exact ⟨⟨rfl, rfl, rfl, rfl, rfl⟩, rfl, hsource, hcard, hloan⟩

/-- Once the other fields are applied, a row staged for a type is consistent exactly if a
payment source that was sent is on a liability. -/
theorem applyNonTypeFields_consistent {db : AccountsDb} {accountId orgId : Nat} {old account r : AccountRow}
    {body : AccountUpdate} {t : AccountType} {admin : Bool}
    (h : applyNonTypeFields db accountId account body orgId t.slug admin = .ok r)
    (hold : RowConsistent db accountId old) (horg : old.orgId = orgId) (hstaged : StagedFor t.slug old account)
    (ht : db.ownType orgId account.accountTypeId = some t) :
    RowConsistent db accountId r ↔ ((body.paymentSourceAccountId.getD none).isSome → t.slug.isLiability) := by
  obtain ⟨⟨hrorg, hrtype, hclose, hday, hmonth⟩, hpointer, hsource, hcard, hloan⟩ := applyNonTypeFields_ok h
  obtain ⟨htget, htorg⟩ := ownType_eq_some.mp ht
  have hown : r.orgId = orgId := hrorg.trans (hstaged.org.trans horg)
  constructor
  · intro hr hs
    obtain ⟨t', ht', _, hfits⟩ := hr.type
    rw [hrtype] at ht'
    obtain rfl : t = t' := Option.some.inj (htget.symm.trans ht')
    refine hfits.source ?_
    cases hbody : body.paymentSourceAccountId with
    | none => simp [hbody] at hs
    | some sent =>
      rw [hpointer, hbody]
      exact Option.isSome_iff_ne_none.mp (by simpa [hbody] using hs)
  · intro hg
    refine ⟨⟨t, by rw [hrtype]; exact htget, htorg.trans hown.symm, ?_⟩, ?_⟩
    · refine ⟨?_, ?_, validateLoanFields_of_ne hloan, ?_, ?_⟩
      · intro hslug
        obtain ⟨h1, h2, h3⟩ := hstaged.noDays hslug
        exact ⟨hclose.trans h1, hday.trans h2, hmonth.trans h3, validateCreditCardFields_ok hcard hslug⟩
      · intro hslug
        rw [hclose]
        exact hstaged.closeDay hslug
      · intro hslug
        rw [hslug] at hloan
        exact validateLoanFields_of_loan hloan
      · intro hr
        rw [hpointer] at hr
        cases hbody : body.paymentSourceAccountId with
        | none =>
          rw [hbody] at hr
          exact hstaged.source hr
        | some sent =>
          rw [hbody] at hr hg
          exact hg (Option.isSome_iff_ne_none.mpr hr)
    · intro s hs
      rw [hpointer] at hs
      cases hbody : body.paymentSourceAccountId with
      | none =>
        rw [hbody] at hs
        obtain ⟨hne, b, hb, hborg⟩ := hold.source s (hstaged.kept s hs)
        exact ⟨hne, b, hb, hborg.trans (horg.trans hown.symm)⟩
      | some sent =>
        rw [hbody] at hs hsource
        obtain rfl : sent = some s := hs
        obtain ⟨hne, b, hb, _, _⟩ := validatePaymentSourceAccount_ok hsource
        obtain ⟨hbget, hborg⟩ := ownAccount_eq_some.mp hb
        exact ⟨fun hsi => hne (congrArg some hsi.symm), b, hbget, hborg.trans hown.symm⟩

/-! ### Writing the row -/

theorem get?_writeAccount {db : AccountsDb} {orgId accountId : Nat} {old r : AccountRow} {d : Bool}
    (hold : db.accounts.get? accountId = some old) (i : Nat) :
    (db.writeAccount orgId accountId r d).accounts.get? i =
      if i = accountId then some r
      else (db.accounts.get? i).map fun a => if d ∧ a.orgId = orgId then { a with isDefault := false } else a := by
  by_cases hi : i = accountId
  · subst hi
    cases d <;> simp [AccountsDb.writeAccount, Table.get?_modify, hold]
  · cases d <;> simp [AccountsDb.writeAccount, Table.get?_modify, hi]

/-- Writing a row of the same org leaves the others consistent, so all hangs on the row. -/
theorem writeAccount_consistent {db : AccountsDb} {orgId accountId : Nat} {old r : AccountRow} {d : Bool}
    (hdb : ColumnsConsistent db) (hold : db.accounts.get? accountId = some old) (horg : r.orgId = old.orgId) :
    ColumnsConsistent (db.writeAccount orgId accountId r d) ↔ RowConsistent db accountId r := by
  have hstay : ∀ s b, db.accounts.get? s = some b →
      ∃ b', (db.writeAccount orgId accountId r d).accounts.get? s = some b' ∧ b'.orgId = b.orgId := by
    intro s b hb
    rw [get?_writeAccount hold]
    split
    · rename_i hs
      rw [hs, hold] at hb
      obtain rfl := Option.some.inj hb
      exact ⟨r, rfl, horg⟩
    · refine ⟨_, by rw [hb]; rfl, ?_⟩
      dsimp only
      split <;> rfl
  have hback : ∀ s b', (db.writeAccount orgId accountId r d).accounts.get? s = some b' →
      ∃ b, db.accounts.get? s = some b ∧ b.orgId = b'.orgId := by
    intro s b' hb'
    rw [get?_writeAccount hold] at hb'
    split at hb'
    · rename_i hs
      obtain rfl := Option.some.inj hb'
      exact ⟨old, hs ▸ hold, horg.symm⟩
    · obtain ⟨b, hb, rfl⟩ := Option.map_eq_some_iff.mp hb'
      refine ⟨b, hb, ?_⟩
      split <;> rfl
  constructor
  · intro h
    have hr := h accountId r (by rw [get?_writeAccount hold, if_pos rfl])
    refine hr.mono (fun t ht => ht) ?_
    intro s b _ hb
    obtain ⟨b', hb', ho⟩ := hback s b hb
    exact ⟨b', hb', ho⟩
  · intro hr i a ha
    rw [get?_writeAccount hold] at ha
    split at ha
    · rename_i hi
      obtain rfl := Option.some.inj ha
      subst hi
      exact hr.mono (fun t ht => ht) fun s b _ hb => hstay s b hb
    · obtain ⟨b, hb, rfl⟩ := Option.map_eq_some_iff.mp ha
      have hkept : RowConsistent (db.writeAccount orgId accountId r d) i b :=
        (hdb i b hb).mono (fun t ht => ht) fun s b' _ hb' => hstay s b' hb'
      split
      · exact hkept.setBooks b.balance false
      · exact hkept

/-- A type change that went through stages the row for its target. -/
theorem applyTypeChangeInSession_ok {db : AccountsDb} {accountId orgId targetTypeId : Nat}
    {closeDay paymentDay paymentDayRelativeMonth : Option (Option Nat)} {r : AccountRow × TypeChangeResult}
    (h : applyTypeChangeInSession db accountId orgId targetTypeId closeDay paymentDay paymentDayRelativeMonth = .ok r)
    (hdb : ColumnsConsistent db) :
    ∃ old t, db.ownAccount orgId accountId = some old ∧ db.ownType orgId targetTypeId = some t ∧
      r.1.accountTypeId = targetTypeId ∧ r.2.newTypeSlug = t.slug ∧ StagedFor t.slug old r.1 := by
  obtain ⟨old, hold, h⟩ := bind_eq_ok.mp h
  obtain ⟨t, ht, h⟩ := bind_eq_ok.mp h
  obtain ⟨_, _, h⟩ := bind_eq_ok.mp h
  obtain ⟨_, hclose, h⟩ := bind_eq_ok.mp h
  obtain ⟨_, _, h⟩ := bind_eq_ok.mp h
  obtain ⟨_, _, h⟩ := bind_eq_ok.mp h
  obtain rfl := Except.ok.inj h
  rw [found_eq_ok] at hold ht
  obtain ⟨u, hu, _, hfits⟩ := (hdb accountId old (ownAccount_eq_some.mp hold).1).type
  refine ⟨old, t, hold, ht, (changeType_org ..).2, rfl, changeType_stagedFor ?_⟩
  intro hslug
  rw [hslug] at hclose
  refine closeDay_of_cascade hclose ?_
  intro hsource
  rw [AccountsDb.slugOf, hu] at hsource
  exact hfits.closeDay (Option.some.inj hsource)

/-- A body that touches no column of a type leaves the row staged for the type it has. -/
theorem updateAccount_staged {db db' : AccountsDb} {orgId accountId : Nat} {admin : Bool} {body : AccountUpdate}
    (h : updateAccount db orgId admin accountId body = .ok db') (hdb : ColumnsConsistent db) :
    ∃ old account t r, db.ownAccount orgId accountId = some old ∧
      db.ownType orgId (body.accountTypeId.getD old.accountTypeId) = some t ∧
      account.accountTypeId = body.accountTypeId.getD old.accountTypeId ∧ StagedFor t.slug old account ∧
      applyNonTypeFields db accountId account body orgId t.slug admin = .ok r ∧
      db'.accounts = (db.writeAccount orgId accountId r (body.isDefault == some true)).accounts ∧
      db'.accountTypes = db.accountTypes := by
  unfold updateAccount at h
  split at h
  · obtain ⟨targetTypeId, htarget, h⟩ := bind_eq_ok.mp h
    obtain ⟨staged, hstaged, h⟩ := bind_eq_ok.mp h
    obtain ⟨_, _, h⟩ := bind_eq_ok.mp h
    obtain ⟨r, hr, h⟩ := bind_eq_ok.mp h
    obtain rfl := Except.ok.inj h
    obtain ⟨old, t, hold, ht, htype, hslug, hfor⟩ := applyTypeChangeInSession_ok hstaged hdb
    have htid : targetTypeId = body.accountTypeId.getD old.accountTypeId := by
      unfold targetType at htarget
      cases hbody : body.accountTypeId with
      | some id =>
        rw [hbody] at htarget
        exact (Except.ok.inj htarget).symm
      | none =>
        rw [hbody, hold] at htarget
        exact (Except.ok.inj htarget).symm
    subst htid
    rw [hslug] at hr
    exact ⟨old, staged.1, t, r, hold, ht, htype, hfor, hr, rfl, rfl⟩
  · rename_i htouch
    obtain ⟨old, hold, h⟩ := bind_eq_ok.mp h
    obtain ⟨r, hr, h⟩ := bind_eq_ok.mp h
    obtain rfl := Except.ok.inj h
    rw [found_eq_ok] at hold
    obtain ⟨hget, horg⟩ := ownAccount_eq_some.mp hold
    obtain ⟨t, ht, htorg, hfits⟩ := (hdb accountId old hget).type
    have hkeeps : body.accountTypeId = none := by
      cases hbody : body.accountTypeId with
      | none => rfl
      | some id => simp [AccountUpdate.touchesTypeOrLiabilityColumns, hbody] at htouch
    rw [AccountsDb.slugOf, ht] at hr
    rw [hkeeps]
    exact ⟨old, old, t, r, hold, ownType_eq_some.mpr ⟨ht, htorg.trans horg⟩, rfl, hfits.stagedFor, hr, rfl, rfl⟩

/-- Only the accounts and their types are spoken of. -/
theorem consistent_congr {db db' : AccountsDb} (haccounts : db'.accounts = db.accounts)
    (htypes : db'.accountTypes = db.accountTypes) : ColumnsConsistent db' ↔ ColumnsConsistent db := by
  have hrow : ∀ i a, RowConsistent db' i a ↔ RowConsistent db i a := by
    intro i a
    constructor
    · intro h
      exact ⟨by rw [← htypes]; exact h.type, by rw [← haccounts]; exact h.source⟩
    · intro h
      exact ⟨by rw [htypes]; exact h.type, by rw [haccounts]; exact h.source⟩
  unfold ColumnsConsistent
  rw [haccounts]
  simp only [hrow]

/-- After an update all hangs on the payment source it sent, too. -/
theorem updateAccount_consistent {db db' : AccountsDb} {orgId accountId : Nat} {admin : Bool} {body : AccountUpdate}
    (h : updateAccount db orgId admin accountId body = .ok db') (hdb : ColumnsConsistent db) :
    ColumnsConsistent db' ↔ SourceOnLiability db (.update orgId admin accountId body) := by
  obtain ⟨old, account, t, r, hold, ht, htype, hfor, hr, haccounts, htypes⟩ := updateAccount_staged h hdb
  obtain ⟨hget, horg⟩ := ownAccount_eq_some.mp hold
  have hrorg : r.orgId = old.orgId := (applyNonTypeFields_ok hr).1.1.trans hfor.org
  have hwritten : ColumnsConsistent db' ↔
      ColumnsConsistent (db.writeAccount orgId accountId r (body.isDefault == some true)) :=
    consistent_congr haccounts htypes
  rw [hwritten, writeAccount_consistent hdb hget hrorg,
    applyNonTypeFields_consistent hr (hdb accountId old hget) horg hfor (by rw [htype]; exact ht)]
  have hresult : (AccountCall.update orgId admin accountId body).resultingType db = some t := by
    simp only [AccountCall.resultingType, hold, Option.bind_some]
    exact (ownType_eq_some.mp ht).1
  unfold SourceOnLiability
  rw [hresult]
  constructor
  · intro hg hs u hu
    obtain rfl := Option.some.inj hu
    exact hg hs
  · intro hg hs
    exact hg hs t rfl

/-! ## The other calls -/

theorem deleteAccount_consistent {db db' : AccountsDb} {orgId accountId : Nat}
    (h : deleteAccount db orgId accountId = .ok db') (hdb : ColumnsConsistent db) : ColumnsConsistent db' := by
  obtain ⟨_, _, h⟩ := bind_eq_ok.mp h
  obtain ⟨_, _, h⟩ := bind_eq_ok.mp h
  obtain ⟨_, _, h⟩ := bind_eq_ok.mp h
  obtain ⟨_, _, h⟩ := bind_eq_ok.mp h
  obtain rfl := Except.ok.inj h
  intro i a ha
  rw [Table.get?_mapRows, Table.get?_remove] at ha
  obtain ⟨b, hb, rfl⟩ := Option.map_eq_some_iff.mp ha
  have hbget : db.accounts.get? i = some b := by
    split at hb
    · cases hb
    · exact hb
  have hrow := hdb i b hbget
  -- a pointer that is left names an account that is left
  have hstay : ∀ s c, s ≠ accountId → db.accounts.get? s = some c →
      ∃ c', ((db.accounts.remove (· == accountId)).mapRows fun _ a =>
        if a.paymentSourceAccountId = some accountId then a.clearPaymentSource else a).get? s = some c' ∧
        c'.orgId = c.orgId := by
    intro s c hs hc
    refine ⟨_, by rw [Table.get?_mapRows, Table.get?_remove, if_neg (by simpa using hs), hc]; rfl, ?_⟩
    dsimp only
    split <;> rfl
  split
  · obtain ⟨t, ht, htorg, hfits⟩ := hrow.type
    exact ⟨⟨t, ht, htorg, ⟨hfits.noCard, hfits.closeDay, hfits.noLoan, hfits.fullLoan, fun hs => absurd rfl hs⟩⟩,
      fun s hs => by cases hs⟩
  · rename_i hpointer
    refine hrow.mono (fun t ht => ht) ?_
    intro s c hs hc
    exact hstay s c (fun hsa => hpointer (hsa ▸ hs)) hc

theorem deleteAccountType_consistent {db db' : AccountsDb} {orgId typeId : Nat}
    (h : deleteAccountType db orgId typeId = .ok db') (hdb : ColumnsConsistent db) : ColumnsConsistent db' := by
  obtain ⟨type, htype, h⟩ := bind_eq_ok.mp h
  obtain ⟨_, _, h⟩ := bind_eq_ok.mp h
  obtain ⟨_, hnone, h⟩ := bind_eq_ok.mp h
  obtain rfl := Except.ok.inj h
  rw [found_eq_ok, ownType_eq_some] at htype
  rw [assertNoDependents, refuse_eq_ok, not_not, List.length_eq_zero_iff] at hnone
  intro i a ha
  refine (hdb i a ha).mono ?_ fun s b _ hb => ⟨b, hb, rfl⟩
  intro t ht
  -- an account of the type would be one of the org, which has none
  have hother : a.accountTypeId ≠ typeId := by
    intro heq
    obtain ⟨u, hu, huorg, _⟩ := (hdb i a ha).type
    rw [heq, htype.1] at hu
    obtain rfl := Option.some.inj hu
    have hmem : (i, a) ∈ db.accounts.select (fun _ a => a.accountTypeId == typeId && a.orgId == orgId) := by
      rw [Table.mem_select]
      exact ⟨ha, by simp [heq, ← huorg, htype.2]⟩
    rw [hnone] at hmem
    cases hmem
  rw [Table.get?_remove, if_neg (by simpa using hother)]
  exact ht

theorem createAccountType_consistent {db db' : AccountsDb} {orgId : Nat}
    (h : createAccountType db orgId = .ok db') (hdb : ColumnsConsistent db) : ColumnsConsistent db' := by
  obtain rfl := Except.ok.inj h
  intro i a ha
  exact (hdb i a ha).mono (fun t ht => Table.get?_insert_of_some ht) fun s b _ hb => ⟨b, hb, rfl⟩

theorem books_consistent {db : AccountsDb} {recurring : Table RecurringTransaction} {transactions : Table Transaction}
    {ccCyclePayments : Table CcCyclePayment} {balance : Nat → Int} (hdb : ColumnsConsistent db) :
    ColumnsConsistent { db with
      recurring := recurring
      transactions := transactions
      ccCyclePayments := ccCyclePayments
      accounts := db.accounts.mapRows (fun i a => { a with balance := balance i }) } := by
  intro i a ha
  rw [Table.get?_mapRows] at ha
  obtain ⟨b, hb, rfl⟩ := Option.map_eq_some_iff.mp ha
  refine ((hdb i b hb).setBooks (balance i) b.isDefault).mono (fun t ht => ht) ?_
  intro s c _ hc
  exact ⟨{ c with balance := balance s }, by rw [Table.get?_mapRows, hc]; rfl, rfl⟩

/-! ## Runs -/

/-- **After a request that went through, the columns fit exactly if it named no payment
source for anything but a card or a loan.** -/
theorem handleAccount_consistent {str : StrMethods} {db db' : AccountsDb} {c : AccountCall}
    (h : handleAccount str db c = .ok db') (hdb : ColumnsConsistent db) : ColumnsConsistent db' ↔ SourceOnLiability db c := by
  cases c with
  | create today orgId body => exact createAccount_consistent h hdb
  | update orgId admin accountId body => exact updateAccount_consistent h hdb
  | delete orgId accountId => exact iff_of_true (deleteAccount_consistent h hdb) fun hs => by cases hs
  | createType orgId => exact iff_of_true (createAccountType_consistent h hdb) fun hs => by cases hs
  | deleteType orgId typeId => exact iff_of_true (deleteAccountType_consistent h hdb) fun hs => by cases hs
  | books recurring transactions ccCyclePayments balance =>
    obtain rfl := Except.ok.inj h
    exact iff_of_true (books_consistent hdb) fun hs => by cases hs

/-- A request that names a payment source and goes through names an active account of an
allowed type. -/
theorem handleAccount_paysFrom {str : StrMethods} {db db' : AccountsDb} {c : AccountCall} {s : Nat}
    (h : handleAccount str db c = .ok db') (hs : c.paysFrom = some s) (hdb : ColumnsConsistent db) :
    ∃ b, db.accounts.get? s = some b ∧ b.isActive ∧ ∃ slug ∈ db.slugOf b, slug.isPaymentSource := by
  cases c with
  | create today orgId body =>
    obtain ⟨_, _, _, _, _, _, _, _, _, hsource⟩ := createAccount_ok h
    obtain ⟨b, hb, hslug, hactive⟩ := hsource s hs
    exact ⟨b, (ownAccount_eq_some.mp hb).1, hactive, hslug⟩
  | update orgId admin accountId body =>
    obtain ⟨_, _, _, _, _, _, _, _, hr, _, _⟩ := updateAccount_staged h hdb
    obtain ⟨_, _, hsource, _, _⟩ := applyNonTypeFields_ok hr
    have hsent : body.paymentSourceAccountId.getD none = some s := hs
    rw [hsent] at hsource
    obtain ⟨_, b, hb, hslug, hactive⟩ := validatePaymentSourceAccount_ok hsource
    exact ⟨b, (ownAccount_eq_some.mp hb).1, hactive, hslug⟩
  | delete orgId accountId => cases hs
  | createType orgId => cases hs
  | deleteType orgId typeId => cases hs
  | books recurring transactions ccCyclePayments balance => cases hs

/-- What is consistent stays so in a run whose requests name a payment source on a
liability only. -/
theorem run_consistent {str : StrMethods} {start : AccountsDb} (hstart : ColumnsConsistent start) (cs : List AccountCall)
    (hg : Guarded (handleAccount str) SourceOnLiability start cs) :
    ColumnsConsistent (run (handleAccount str) start cs) := by
  refine run_invariant_of_guarded (G := SourceOnLiability) ?_ cs hg hstart
  intro db c db' hdb hc h
  exact (handleAccount_consistent h hdb).mpr hc

/-- **The columns of every account fit its type, in every state reached from an org
without accounts.** Every accepted request that names a payment source names an active
account of an allowed type, and a refused request changes nothing. -/
theorem account_columns_consistent (str : StrMethods) (start : AccountsDb)
    (hempty : ∀ i, start.accounts.get? i = none) (cs : List AccountCall)
    (hg : Guarded (handleAccount str) SourceOnLiability start cs) :
    ColumnsConsistent (run (handleAccount str) start cs) ∧
    (∀ c db' s, handleAccount str (run (handleAccount str) start cs) c = .ok db' → c.paysFrom = some s →
      ∃ b, (run (handleAccount str) start cs).accounts.get? s = some b ∧ b.isActive ∧
        ∃ slug ∈ (run (handleAccount str) start cs).slugOf b, slug.isPaymentSource) ∧
    (∀ c e, handleAccount str (run (handleAccount str) start cs) c = .error e →
      run (handleAccount str) start (cs ++ [c]) = run (handleAccount str) start cs) := by
  have hstart : ColumnsConsistent start := by
    intro i a ha
    rw [hempty i] at ha
    cases ha
  have hrun := run_consistent hstart cs hg
  refine ⟨hrun, fun c db' s h hs => handleAccount_paysFrom h hs hrun, ?_⟩
  intro c e h
  rw [run_concat, serve, h]

/-! ## A payment source without a bill -/

/-- An org with three of its types and no account. -/
def bootstrapped : AccountsDb where
  organizations := Table.empty.insert {}
  accountTypes :=
    ((Table.empty.insert ⟨1, .checking, true⟩).insert ⟨1, .savings, true⟩).insert ⟨1, .creditCard, true⟩

def checkingBody : AccountCreate where
  name := "Checking"
  accountTypeId := 1

/-- A savings account that is to be paid from the checking account. -/
def savingsBody : AccountCreate where
  name := "Savings"
  accountTypeId := 2
  paymentSourceAccountId := some 1

def cardBody : AccountCreate where
  name := "Card"
  accountTypeId := 3
  closeDay := some 20
  paymentSourceAccountId := some 1

theorem account_columns_consistent_card :
    ColumnsConsistent (run (handleAccount asciiStr) bootstrapped
      [.create 1 1 checkingBody, .create 1 1 cardBody, .update 1 true 2 { accountTypeId := some 2 }]) :=
  (account_columns_consistent asciiStr bootstrapped (fun _ => rfl) _ (by decide +kernel)).1

/-- The savings account is created, and the pointer with it. -/
theorem savings_paid_from_checking :
    ¬ ∀ (start : AccountsDb) (cs : List AccountCall), (∀ i, start.accounts.get? i = none) →
      ColumnsConsistent (run (handleAccount asciiStr) start cs) := by
  intro h
  have hrow : ((run (handleAccount asciiStr) bootstrapped
      [.create 1 1 checkingBody, .create 1 1 savingsBody]).accounts.get? 2).map
      (fun a => (a.accountTypeId, a.paymentSourceAccountId)) = some (2, some 1) := by decide +kernel
  have htype : ((run (handleAccount asciiStr) bootstrapped
      [.create 1 1 checkingBody, .create 1 1 savingsBody]).accountTypes.get? 2) = some ⟨1, .savings, true⟩ := by
    decide +kernel
  obtain ⟨a, ha, heq⟩ := Option.map_eq_some_iff.mp hrow
  obtain ⟨t, ht, _, hfits⟩ := (h bootstrapped _ (fun _ => rfl) 2 a ha).type
  obtain ⟨hid, hsource⟩ := Prod.mk.inj heq
  rw [hid, htype] at ht
  obtain rfl := Option.some.inj ht
  have hliability := hfits.source (by simp [hsource])
  cases hliability

end BetterDecision
