import BetterDecision.Model.AccountWrites
import BetterDecision.Proof.AccountTypes

/-!
# One currency per organisation

Accounts are inserted under the lock on their org only. The transaction that has it has
either found the org without an account, and writes its primary currency with them, or has
locked one that stays and is in the currency of those to come. No other transaction inserts
meanwhile, so what it has found is so when it commits (`Allowed`), however old its snapshot.
-/

namespace BetterDecision

variable {str : StrMethods} {org : Nat} {db db' : AccountsDb} {w w' : AccountWorld} {id : Nat} {tx tx' : AccountTx}

/-! ## What the tables keep -/

def NoAccount (db : AccountsDb) (org : Nat) : Prop := ∀ i a, db.accounts.get? i = some a → a.orgId ≠ org

/-- Every account of the org is in its primary currency, a supported one. -/
def OneCurrency (db : AccountsDb) (org : Nat) : Prop :=
  ∀ i a, db.accounts.get? i = some a → a.orgId = org → a.currency ∈ iso4217Currencies ∧
    ∃ o, db.organizations.get? org = some o ∧ o.primaryCurrency = some a.currency

/-! ## What a transaction knows -/

/-- The currency is the one the org has, or the one it is about to have. -/
def Allowed (org : Nat) (db : AccountsDb) (tx : AccountTx) (currency : String) : Prop :=
  (tx.writes.primaryCurrency = some currency ∧ NoAccount db org) ∨
    (tx.writes.primaryCurrency = none ∧
      ∃ i a, db.accounts.get? i = some a ∧ a.orgId = org ∧ a.currency = currency ∧ .account i ∈ tx.locks)

/-- No account and no currency is written. -/
def Unwritten (tx : AccountTx) : Prop := tx.writes.accounts = [] ∧ tx.writes.primaryCurrency = none

/-- What a transaction of the org knows where it stands. -/
def CurrencyKnows (org : Nat) (db : AccountsDb) (tx : AccountTx) : AccountPhase → Prop
  | .lockingOrg _ currency => currency ∈ iso4217Currencies ∧ Unwritten tx
  | .readingAccount _ currency => currency ∈ iso4217Currencies ∧ Unwritten tx ∧ .org org ∈ tx.locks
  | .settingPrimary _ currency code =>
    currency ∈ iso4217Currencies ∧ code = currency ∧ tx.writes.accounts = [] ∧ .org org ∈ tx.locks ∧ NoAccount db org
  | .inserting _ currency =>
    currency ∈ iso4217Currencies ∧ tx.writes.accounts = [] ∧ .org org ∈ tx.locks ∧ Allowed org db tx currency
  | .ready => Unwritten tx ∨ ∃ currency ∈ iso4217Currencies, .org org ∈ tx.locks ∧
      (∀ a ∈ tx.writes.accounts, a.currency = currency) ∧ Allowed org db tx currency
  | _ => Unwritten tx

structure AccountTxInv (org : Nat) (db : AccountsDb) (tx : AccountTx) : Prop where
  snapshot : OneCurrency tx.snapshot.toAccountsDb org
  deleted : ∀ i, tx.writes.deleted = some i → .account i ∈ tx.locks
  own : ∀ a ∈ tx.writes.accounts, a.orgId = tx.call.orgId
  knows : tx.call.orgId = org → CurrencyKnows org db tx tx.phase

theorem CurrencyKnows.lock {phase : AccountPhase} (h : CurrencyKnows org db tx phase) (k : AccountLock) :
    CurrencyKnows org db (tx.lock k) phase := by
  have hmem : ∀ l ∈ tx.locks, l ∈ (tx.lock k).locks := fun l hl => List.mem_cons_of_mem _ hl
  have hallowed : ∀ currency, Allowed org db tx currency → Allowed org db (tx.lock k) currency := by
    intro currency h
    rcases h with h | ⟨hnone, i, a, ha, horg, hcur, hl⟩
    · exact .inl h
    · exact .inr ⟨hnone, i, a, ha, horg, hcur, hmem _ hl⟩
  cases phase with
  | readingAccount _ _ => exact ⟨h.1, h.2.1, hmem _ h.2.2⟩
  | settingPrimary _ _ _ => exact ⟨h.1, h.2.1, h.2.2.1, hmem _ h.2.2.2.1, h.2.2.2.2⟩
  | inserting _ _ => exact ⟨h.1, h.2.1, hmem _ h.2.2.1, hallowed _ h.2.2.2⟩
  | ready =>
    rcases h with h | ⟨currency, hsupported, hl, hall, ha⟩
    · exact .inl h
    · exact .inr ⟨currency, hsupported, hmem _ hl, hall, hallowed _ ha⟩
  | begun | marking | adopting _ | lockingOrg _ _ | deleting | refusing _ | applied | done _ => exact h

theorem AccountTxInv.lock (h : AccountTxInv org db tx) (k : AccountLock) : AccountTxInv org db (tx.lock k) :=
  ⟨h.snapshot, fun i hi => List.mem_cons_of_mem _ (h.deleted i hi), h.own, fun horg => (h.knows horg).lock k⟩

/-- It has locked nothing that another has locked. -/
def LocksFree (w : AccountWorld) (id : Nat) (tx tx' : AccountTx) : Prop :=
  ∀ k ∈ tx'.locks, k ∈ tx.locks ∨ ¬ w.Waits id k

/-- A statement came to pass. -/
structure Advanced (org : Nat) (w : AccountWorld) (id : Nat) (tx tx' : AccountTx) : Prop where
  inv : AccountTxInv org w.db.toAccountsDb tx'
  free : LocksFree w id tx tx'

theorem Advanced.goto (h : AccountTxInv org w.db.toAccountsDb tx) (phase : AccountPhase)
    (hknows : tx.call.orgId = org → CurrencyKnows org w.db.toAccountsDb tx phase) :
    Advanced org w id tx (tx.goto phase) := by
  refine ⟨⟨h.snapshot, h.deleted, h.own, fun horg => ?_⟩, fun k hk => .inl hk⟩
  have hk := hknows horg
  cases phase <;> exact hk

/-- Nothing is pending when a transaction is over. -/
theorem Advanced.close (h : AccountTxInv org w.db.toAccountsDb tx) {phase : AccountPhase}
    (hover : ∀ tx' : AccountTx, Unwritten tx' → CurrencyKnows org w.db.toAccountsDb tx' phase) :
    Advanced org w id tx (tx.close phase) :=
  ⟨⟨h.snapshot, (fun _ hi => by cases hi), (fun _ ha => by cases ha), fun _ => hover _ ⟨rfl, rfl⟩⟩,
    (fun _ hk => by cases hk)⟩

/-! ## Statements -/

theorem eur_supported : "EUR" ∈ iso4217Currencies := by decide +kernel

theorem beginAccountWrite_knows {snapshot : AccountBooks} {call : AccountWriteCall} (h : Unwritten tx) :
    CurrencyKnows org db tx (beginAccountWrite str snapshot call) := by
  unfold beginAccountWrite
  cases call with
  | create today orgId body =>
    dsimp only
    split
    · exact h
    · rename_i currency hcode
      split
      · exact ⟨(currencyMustBeIso4217_ok hcode).2, h⟩
      · exact h
  | seed today orgId =>
    dsimp only
    split
    · exact h
    · split <;> exact h
  | delete orgId accountId =>
    dsimp only
    split <;> exact h

/-- What `LIMIT 1` comes upon. -/
theorem anyAccount_ok {books : AccountBooks} {row : Option Nat} {existing : Option AccountRow}
    (h : anyAccount books org row = .ok existing) :
    (row = none ∧ existing = none ∧ NoAccount books.toAccountsDb org) ∨
      ∃ i a, row = some i ∧ existing = some a ∧ books.accounts.get? i = some a ∧ a.orgId = org := by
  cases row with
  | none =>
    obtain ⟨_, hnone, h⟩ := bind_eq_ok.mp h
    refine .inl ⟨rfl, (Except.ok.inj h).symm, fun i a ha horg => ?_⟩
    have hmem : (i, a) ∈ books.accounts.select (fun _ a => a.orgId == org) :=
      Table.mem_select.mpr ⟨ha, by simp [horg]⟩
    rw [not_not.mp (refuse_eq_ok.mp hnone)] at hmem
    cases hmem
  | some i =>
    rcases hfound : books.ownAccount org i with _ | a
    · rw [anyAccount, hfound] at h
      cases h
    · rw [anyAccount, hfound] at h
      obtain ⟨hget, horg⟩ := ownAccount_eq_some.mp hfound
      exact .inr ⟨i, a, rfl, (Except.ok.inj h).symm, hget, horg⟩

theorem adoptCurrency_advanced {typeId : Nat} {row : Option Nat} (hinv : AccountTxInv org w.db.toAccountsDb tx)
    (hphase : tx.phase = .adopting typeId) (h : adoptCurrency str tx typeId row = .ok tx') :
    Advanced org w id tx tx' := by
  obtain ⟨existing, hexisting, h⟩ := bind_eq_ok.mp h
  obtain rfl := Except.ok.inj h
  refine .goto hinv _ fun horg => ?_
  have hclear := hinv.knows horg
  rw [hphase] at hclear
  refine ⟨?_, hclear⟩
  rcases anyAccount_ok hexisting with ⟨-, rfl, -⟩ | ⟨i, a, -, rfl, ha, haorg⟩
  · exact eur_supported
  · dsimp only
    split
    · exact eur_supported
    · -- the snapshot is of a time when the org was in one supported currency
      have hsupported := (hinv.snapshot i a ha (haorg.trans horg)).1
      rw [normaliseCurrency_of_supported str hsupported]
      exact hsupported

/-- A lock nobody else has, and on from there. -/
theorem Advanced.lock {k : AccountLock} (hfree : ¬ w.Waits id k) (h : Advanced org w id (tx.lock k) tx') :
    Advanced org w id tx tx' := by
  refine ⟨h.inv, fun l hl => ?_⟩
  rcases h.free l hl with hl | hl
  · rcases List.mem_cons.mp hl with rfl | hl
    · exact .inr hfree
    · exact .inl hl
  · exact .inr hl

theorem lockOrg_advanced {typeId : Nat} {currency : String} (hinv : AccountTxInv org w.db.toAccountsDb tx)
    (hphase : tx.phase = .lockingOrg typeId currency) (h : lockOrg w id tx typeId currency = .ok tx') :
    Advanced org w id tx tx' := by
  obtain ⟨_, hfree, h⟩ := bind_eq_ok.mp h
  obtain rfl := Except.ok.inj h
  refine .lock (refuse_eq_ok.mp hfree) (.goto (hinv.lock _) _ fun horg => ?_)
  have hclear := hinv.knows horg
  rw [hphase] at hclear
  exact ⟨hclear.1, hclear.2, horg ▸ List.mem_cons_self⟩

/-- What an account that is there says. -/
theorem orgCurrencyVerdict_held {held currency : String} {primary : Option String}
    (h : orgCurrencyVerdict str (some held) currency = .ok primary) :
    primary = none ∧ (held ∈ iso4217Currencies → currency ∈ iso4217Currencies → held = currency) := by
  rw [orgCurrencyVerdict] at h
  split at h
  · cases h
  · rename_i hsame
    refine ⟨(Except.ok.inj h).symm, fun hheld hcurrency => ?_⟩
    rwa [normaliseCurrency_of_supported str hheld, normaliseCurrency_of_supported str hcurrency, not_not] at hsame

theorem readAccount_advanced {typeId : Nat} {currency : String} {row : Option Nat}
    (hone : OneCurrency w.db.toAccountsDb org) (hinv : AccountTxInv org w.db.toAccountsDb tx)
    (hphase : tx.phase = .readingAccount typeId currency) (h : readAccount str w id tx typeId currency row = .ok tx') :
    Advanced org w id tx tx' := by
  obtain ⟨_, hfree, h⟩ := bind_eq_ok.mp h
  obtain ⟨existing, hexisting, h⟩ := bind_eq_ok.mp h
  obtain rfl := Except.ok.inj h
  have hknows : tx.call.orgId = org → currency ∈ iso4217Currencies ∧ Unwritten tx ∧ .org org ∈ tx.locks := by
    intro horg
    have hk := hinv.knows horg
    rw [hphase] at hk
    exact hk
  rcases anyAccount_ok hexisting with ⟨rfl, rfl, hnone⟩ | ⟨i, a, rfl, rfl, ha, haorg⟩
  · -- the org has no account, and gets the currency of this one
    refine .goto hinv _ fun horg => ?_
    obtain ⟨hsupported, hclear, hlocked⟩ := hknows horg
    exact ⟨hsupported, normaliseCurrency_of_supported str hsupported, hclear.1, hlocked, horg ▸ hnone⟩
  · -- the account is locked, and stays
    refine .lock (fun hw => refuse_eq_ok.mp hfree ⟨i, rfl, hw⟩) ?_
    show Advanced org w id (tx.lock (.account i)) (judgeCurrency str (tx.lock (.account i)) typeId currency (some a))
    rcases hverdict : orgCurrencyVerdict str (some a.currency) currency with e | primary
    all_goals rw [judgeCurrency, Option.map_some, hverdict]
    · exact .close (hinv.lock _) fun _ h => h
    · obtain ⟨rfl, hsame⟩ := orgCurrencyVerdict_held hverdict
      refine .goto (hinv.lock _) _ fun horg => ?_
      obtain ⟨hsupported, hclear, hlocked⟩ := hknows horg
      have haorg : a.orgId = org := haorg.trans horg
      exact ⟨hsupported, hclear.1, List.mem_cons_of_mem _ hlocked,
        .inr ⟨hclear.2, i, a, ha, haorg, hsame (hone i a ha haorg).1 hsupported, List.mem_cons_self⟩⟩

theorem insertAccounts_advanced {typeId : Nat} {currency : String} (hinv : AccountTxInv org w.db.toAccountsDb tx)
    (hphase : tx.phase = .inserting typeId currency) : Advanced org w id tx (insertAccounts tx typeId currency) := by
  have hknows : tx.call.orgId = org → CurrencyKnows org w.db.toAccountsDb tx (.inserting typeId currency) := by
    intro horg
    have hk := hinv.knows horg
    rwa [hphase] at hk
  -- whatever is written, it is for the org and in the currency
  have hready : ∀ ws : AccountWrites, ws.deleted = tx.writes.deleted → ws.primaryCurrency = tx.writes.primaryCurrency →
      (∀ a ∈ ws.accounts, a.orgId = tx.call.orgId ∧ a.currency = currency) →
      Advanced org w id tx ((tx.write ws).goto .ready) := by
    intro ws hdeleted hprimary hall
    refine ⟨⟨hinv.snapshot, fun i hi => hinv.deleted i (hdeleted ▸ hi), fun a ha => (hall a ha).1, fun horg => ?_⟩,
      fun k hk => .inl hk⟩
    obtain ⟨hsupported, -, hlocked, hallowed⟩ := hknows horg
    refine .inr ⟨currency, hsupported, hlocked, fun a ha => (hall a ha).2, ?_⟩
    rcases hallowed with ⟨hset, hnone⟩ | ⟨hunset, hheld⟩
    · exact .inl ⟨hprimary.trans hset, hnone⟩
    · exact .inr ⟨hprimary.trans hunset, hheld⟩
  unfold insertAccounts
  rcases hcall : tx.call with ⟨today, orgId, body⟩ | ⟨today, orgId⟩ | ⟨orgId, accountId⟩
  · dsimp only
    split
    · exact .close hinv fun _ h => h
    · refine hready _ rfl rfl fun a ha => ?_
      obtain rfl := List.mem_singleton.mp ha
      exact ⟨by rw [hcall]; rfl, rfl⟩
  · dsimp only
    split
    · exact .close hinv fun _ h => h
    · refine hready _ rfl rfl fun a ha => ?_
      obtain ⟨spec, -, rfl⟩ := List.mem_map.mp ha
      exact ⟨by rw [hcall]; rfl, rfl⟩
  · refine .goto hinv _ fun horg => .inr ?_
    obtain ⟨hsupported, hnone, hlocked, hallowed⟩ := hknows horg
    exact ⟨currency, hsupported, hlocked, (fun a ha => by rw [hnone] at ha; cases ha), hallowed⟩

theorem flushDelete_advanced (hinv : AccountTxInv org w.db.toAccountsDb tx) (hphase : tx.phase = .deleting)
    (h : flushDelete w id tx = .ok tx') : Advanced org w id tx tx' := by
  unfold flushDelete at h
  split at h
  · rename_i orgId accountId hcall
    obtain ⟨_, hfree, h⟩ := bind_eq_ok.mp h
    obtain rfl := Except.ok.inj h
    refine .lock (refuse_eq_ok.mp hfree) ⟨⟨hinv.snapshot, fun i hi => ?_, hinv.own, fun horg => ?_⟩, fun k hk => .inl hk⟩
    · obtain rfl := Option.some.inj hi
      exact List.mem_cons_self
    · have hclear := hinv.knows horg
      rw [hphase] at hclear
      exact .inl hclear
  · cases h

/-- **A statement keeps what its transaction knows.** -/
theorem nextAccountStatement_advanced {row : Option Nat} (hone : OneCurrency w.db.toAccountsDb org)
    (hinv : AccountTxInv org w.db.toAccountsDb tx) (h : nextAccountStatement str w id tx row = .ok tx') :
    Advanced org w id tx tx' := by
  unfold nextAccountStatement at h
  rcases hphase : tx.phase with _ | _ | typeId | ⟨typeId, currency⟩ | ⟨typeId, currency⟩ | ⟨typeId, currency, code⟩ |
    ⟨typeId, currency⟩ | _ | _ | reason | _ | outcome
  all_goals rw [hphase] at h
  case begun =>
    obtain rfl := Except.ok.inj h
    refine .goto hinv _ fun horg => beginAccountWrite_knows ?_
    have hclear := hinv.knows horg
    rwa [hphase] at hclear
  case marking =>
    have hclear : tx.call.orgId = org → Unwritten tx := by
      intro horg
      have hk := hinv.knows horg
      rwa [hphase] at hk
    dsimp only at h
    split at h
    · obtain rfl := Except.ok.inj h
      exact ⟨⟨hinv.snapshot, hinv.deleted, hinv.own, hclear⟩, fun k hk => .inl hk⟩
    · obtain rfl := Except.ok.inj h
      exact .close hinv fun _ h => h
  case adopting => exact adoptCurrency_advanced hinv hphase h
  case lockingOrg => exact lockOrg_advanced hinv hphase h
  case readingAccount => exact readAccount_advanced hone hinv hphase h
  case settingPrimary =>
    obtain rfl := Except.ok.inj h
    refine ⟨⟨hinv.snapshot, hinv.deleted, hinv.own, fun horg => ?_⟩, fun k hk => .inl hk⟩
    have hk := hinv.knows horg
    rw [hphase] at hk
    obtain ⟨hsupported, rfl, hempty, hlocked, hnone⟩ := hk
    exact ⟨hsupported, hempty, hlocked, .inl ⟨rfl, hnone⟩⟩
  case inserting =>
    obtain rfl := Except.ok.inj h
    exact insertAccounts_advanced hinv hphase
  case deleting => exact flushDelete_advanced hinv hphase h
  all_goals cases h

/-! ## Commits -/

/-- The row as far as its currency is concerned. -/
def SameMoney (a b : AccountRow) : Prop := b.orgId = a.orgId ∧ b.currency = a.currency

theorem dropAccount_get? {accountId i : Nat} {b : AccountRow} (h : (db.dropAccount accountId).accounts.get? i = some b) :
    i ≠ accountId ∧ ∃ a, db.accounts.get? i = some a ∧ SameMoney a b := by
  obtain ⟨a, ha, rfl⟩ := Option.map_eq_some_iff.mp ((Table.get?_mapRows _ _ _).symm.trans h)
  rw [Table.get?_remove] at ha
  split at ha
  · cases ha
  · rename_i hne
    refine ⟨by simpa using hne, a, ha, ?_⟩
    split <;> exact ⟨rfl, rfl⟩

theorem get?_dropAccount {accountId i : Nat} {a : AccountRow} (h : db.accounts.get? i = some a) (hne : i ≠ accountId) :
    ∃ b, (db.dropAccount accountId).accounts.get? i = some b ∧ SameMoney a b := by
  refine ⟨if a.paymentSourceAccountId = some accountId then a.clearPaymentSource else a, ?_, ?_⟩
  · show ((db.accounts.remove (· == accountId)).mapRows _).get? i = _
    rw [Table.get?_mapRows, Table.get?_remove, if_neg (by simpa using hne), h]
    rfl
  · split <;> exact ⟨rfl, rfl⟩

section Apply

variable {ws : AccountWrites} {books : AccountBooks} {orgId : Nat}

/-- An account a commit leaves was there, or is one it inserts. -/
theorem apply_get? {i : Nat} {b : AccountRow} (h : (ws.apply orgId books).accounts.get? i = some b) :
    (ws.deleted ≠ some i ∧ ∃ a, books.accounts.get? i = some a ∧ SameMoney a b) ∨ ∃ a ∈ ws.accounts, SameMoney a b := by
  have hinserted : ∀ c, (ws.accounts.foldl Table.insert books.accounts).get? i = some c →
      books.accounts.get? i = some c ∨ c ∈ ws.accounts := fun c => Table.get?_insertAll_cases ws.accounts
  unfold AccountWrites.apply at h
  rcases hdeleted : ws.deleted with _ | accountId
  · rw [hdeleted] at h
    rcases hinserted b h with hold | hnew
    · exact .inl ⟨nofun, b, hold, rfl, rfl⟩
    · exact .inr ⟨b, hnew, rfl, rfl⟩
  · rw [hdeleted] at h
    obtain ⟨hne, c, hc, hsame⟩ := dropAccount_get? h
    rcases hinserted c hc with hold | hnew
    · exact .inl ⟨fun hi => hne (Option.some.inj hi).symm, c, hold, hsame⟩
    · exact .inr ⟨c, hnew, hsame⟩

/-- An account that is not deleted stays. -/
theorem get?_apply {i : Nat} {a : AccountRow} (h : books.accounts.get? i = some a) (hstays : ws.deleted ≠ some i) :
    ∃ b, (ws.apply orgId books).accounts.get? i = some b ∧ SameMoney a b := by
  have hinserted : (ws.accounts.foldl Table.insert books.accounts).get? i = some a :=
    Table.get?_insertAll_of_some id ws.accounts h
  unfold AccountWrites.apply
  rcases hdeleted : ws.deleted with _ | accountId
  · exact ⟨a, hinserted, rfl, rfl⟩
  · exact get?_dropAccount hinserted fun hi => hstays (by rw [hdeleted, hi])

variable (ws orgId) in
/-- The org's row after a commit. -/
theorem apply_organization {o : Organization} (h : books.organizations.get? org = some o) :
    ∃ o', (ws.apply orgId books).organizations.get? org = some o' ∧
      o'.primaryCurrency = if orgId = org then ws.primaryCurrency.or o.primaryCurrency else o.primaryCurrency := by
  have horganizations : (ws.apply orgId books).organizations =
      ws.primaryCurrency.elim books.organizations fun code =>
        books.organizations.modify orgId (fun o => { o with primaryCurrency := some code }) := by
    unfold AccountWrites.apply
    cases ws.deleted <;> cases ws.primaryCurrency <;> rfl
  rw [horganizations]
  cases ws.primaryCurrency with
  | none => exact ⟨o, h, by split <;> rfl⟩
  | some code =>
    by_cases horg : orgId = org
    · subst horg
      exact ⟨_, Table.get?_modify_self h, by rw [if_pos rfl]; rfl⟩
    · refine ⟨o, ?_, (if_neg horg).symm⟩
      rw [Option.elim_some, Table.get?_modify_of_ne fun h => horg h.symm]
      exact h

end Apply

/-- The transaction that inserts into the org knows what it has to. -/
theorem OneCurrency.commit {books : AccountBooks} {o : Organization} (h : OneCurrency books.toAccountsDb org)
    (ho : books.organizations.get? org = some o) (hinv : AccountTxInv org books.toAccountsDb tx)
    (hready : tx.phase = .ready) : OneCurrency (tx.writes.apply tx.call.orgId books).toAccountsDb org := by
  intro i b hb hborg
  obtain ⟨o', ho', hprimary⟩ := apply_organization tx.writes tx.call.orgId ho
  have hknows : tx.call.orgId = org → CurrencyKnows org books.toAccountsDb tx .ready := by
    intro horg
    have hk := hinv.knows horg
    rwa [hready] at hk
  rcases apply_get? hb with ⟨-, a, ha, haorg, hcur⟩ | ⟨a, ha, haorg, hcur⟩
  · -- an account that was there: no other currency is set while there is one
    obtain ⟨hsupported, o₁, ho₁, hset⟩ := h i a ha (haorg.symm.trans hborg)
    obtain rfl : o = o₁ := Option.some.inj (ho.symm.trans ho₁)
    rw [hcur]
    refine ⟨hsupported, o', ho', ?_⟩
    rw [hprimary]
    split
    · rename_i horg
      have hunset : tx.writes.primaryCurrency = none := by
        rcases hknows horg with hclear | ⟨_, _, _, _, ⟨-, hnone⟩ | ⟨hunset, -⟩⟩
        · exact hclear.2
        · exact absurd (haorg.symm.trans hborg) (hnone i a ha)
        · exact hunset
      rw [hunset, Option.none_or, hset]
    · exact hset
  · -- one of those inserted
    have horg : tx.call.orgId = org := (hinv.own a ha).symm.trans (haorg.symm.trans hborg)
    rw [if_pos horg] at hprimary
    rw [hcur]
    rcases hknows horg with hclear | ⟨currency, hsupported, -, hall, hallowed⟩
    · rw [hclear.1] at ha
      cases ha
    · rw [hall a ha]
      refine ⟨hsupported, o', ho', ?_⟩
      rw [hprimary]
      rcases hallowed with ⟨hset, -⟩ | ⟨hunset, j, c, hc, hcorg, hccur, -⟩
      · rw [hset, Option.some_or]
      · obtain ⟨-, o₁, ho₁, hset⟩ := h j c hc hcorg
        obtain rfl : o = o₁ := Option.some.inj (ho.symm.trans ho₁)
        rw [hunset, Option.none_or, hset, hccur]

/-- What another transaction knows is so after a commit, unless it holds a lock of the one
that commits. -/
theorem AccountTxInv.after (h : AccountTxInv org db tx)
    (hnone : .org org ∈ tx.locks → NoAccount db org → NoAccount db' org)
    (hkept : ∀ i a, db.accounts.get? i = some a → .account i ∈ tx.locks →
      ∃ b, db'.accounts.get? i = some b ∧ SameMoney a b) : AccountTxInv org db' tx := by
  refine ⟨h.snapshot, h.deleted, h.own, fun horg => ?_⟩
  have hallowed : ∀ currency, .org org ∈ tx.locks → Allowed org db tx currency → Allowed org db' tx currency := by
    intro currency hlocked hallowed
    rcases hallowed with ⟨hset, hno⟩ | ⟨hunset, i, a, ha, haorg, hcur, hl⟩
    · exact .inl ⟨hset, hnone hlocked hno⟩
    · obtain ⟨b, hb, hborg, hbcur⟩ := hkept i a ha hl
      exact .inr ⟨hunset, i, b, hb, hborg.trans haorg, hbcur.trans hcur, hl⟩
  have hk := h.knows horg
  cases hphase : tx.phase with
  | settingPrimary _ _ _ =>
    rw [hphase] at hk
    exact ⟨hk.1, hk.2.1, hk.2.2.1, hk.2.2.2.1, hnone hk.2.2.2.1 hk.2.2.2.2⟩
  | inserting _ _ =>
    rw [hphase] at hk
    exact ⟨hk.1, hk.2.1, hk.2.2.1, hallowed _ hk.2.2.1 hk.2.2.2⟩
  | ready =>
    rw [hphase] at hk
    rcases hk with hclear | ⟨currency, hsupported, hl, hall, ha⟩
    · exact .inl hclear
    · exact .inr ⟨currency, hsupported, hl, hall, hallowed _ hl ha⟩
  | begun | marking | adopting _ | lockingOrg _ _ | readingAccount _ _ | deleting | refusing _ | applied | done _ =>
    rw [hphase] at hk
    exact hk

/-! ## Steps -/

structure AccountInv (org : Nat) (w : AccountWorld) : Prop where
  exclusive : w.txs.Exclusive AccountTx.locks
  exists_org : ∃ o, w.db.organizations.get? org = some o
  one : OneCurrency w.db.toAccountsDb org
  txs : ∀ i tx, w.txs.get? i = some tx → AccountTxInv org w.db.toAccountsDb tx

theorem AccountInv.put (h : AccountInv org w) (htx : w.txs.get? id = some tx) (hadv : Advanced org w id tx tx') :
    AccountInv org (w.put id tx') := by
  refine ⟨h.exclusive.modify htx hadv.free, h.exists_org, h.one, fun i s hs => ?_⟩
  rcases Table.get?_modify_cases htx hs with ⟨-, rfl⟩ | ⟨-, hs⟩
  · exact hadv.inv
  · exact h.txs i s hs

theorem AccountInv.commit (h : AccountInv org w) (htx : w.txs.get? id = some tx) (hready : tx.phase = .ready) :
    AccountInv org { (w.put id (tx.close tx.committed)) with db := tx.writes.apply tx.call.orgId w.db } := by
  have hinv := h.txs id tx htx
  obtain ⟨o, ho⟩ := h.exists_org
  obtain ⟨o', ho', -⟩ := apply_organization tx.writes tx.call.orgId ho
  have hclosed : Advanced org w id tx (tx.close tx.committed) := by
    refine .close hinv fun _ hclear => ?_
    unfold AccountTx.committed
    split <;> exact hclear
  have hput := h.put htx hclosed
  refine ⟨hput.exclusive, ⟨o', ho'⟩, h.one.commit ho hinv hready, fun i s hs => ?_⟩
  have hknows := hput.txs i s hs
  -- a lock another transaction has is not one of the committing one's
  have hapart : ∀ k ∈ s.locks, k ∉ tx.locks := by
    intro k hk hmem
    rcases Table.get?_modify_cases htx hs with ⟨-, rfl⟩ | ⟨hi, hs⟩
    · cases hk
    · exact hi (h.exclusive i id s tx k hs htx hk hmem)
  refine hknows.after (fun hlocked hno j b hb hborg => ?_) fun j a ha hl => ?_
  · rcases apply_get? hb with ⟨-, a, ha, haorg, -⟩ | ⟨a, ha, haorg, -⟩
    · exact hno j a ha (haorg.symm.trans hborg)
    · have horg : tx.call.orgId = org := (hinv.own a ha).symm.trans (haorg.symm.trans hborg)
      have hk := hinv.knows horg
      rw [hready] at hk
      rcases hk with hclear | ⟨_, _, hmine, -⟩
      · rw [hclear.1] at ha
        cases ha
      · exact hapart _ hlocked hmine
  · exact get?_apply ha fun hdeleted => hapart _ hl (hinv.deleted j hdeleted)

/-- What other requests do keeps what the transactions know. -/
theorem AccountInv.elsewhere (h : AccountInv org w) (other : AccountBooks) :
    AccountInv org { w with db := w.db.editedBy other } := by
  have hrow : ∀ i b, (w.db.editedBy other).accounts.get? i = some b →
      ∃ a, w.db.accounts.get? i = some a ∧ SameMoney a b := by
    intro i b hb
    obtain ⟨a, ha, rfl⟩ := Option.map_eq_some_iff.mp ((Table.get?_mapRows _ _ _).symm.trans hb)
    exact ⟨a, ha, rfl, rfl⟩
  have hkept : ∀ i a, w.db.accounts.get? i = some a →
      ∃ b, (w.db.editedBy other).accounts.get? i = some b ∧ SameMoney a b := by
    intro i a ha
    refine ⟨{ (other.accounts.get? i).getD a with orgId := a.orgId, currency := a.currency }, ?_, rfl, rfl⟩
    show (w.db.accounts.mapRows _).get? i = _
    rw [Table.get?_mapRows, ha]
    rfl
  have horganization : ∀ o, w.db.organizations.get? org = some o →
      ∃ o', (w.db.editedBy other).organizations.get? org = some o' ∧ o'.primaryCurrency = o.primaryCurrency := by
    intro o ho
    refine ⟨{ (other.organizations.get? org).getD o with primaryCurrency := o.primaryCurrency }, ?_, rfl⟩
    show (w.db.organizations.mapRows _).get? org = _
    rw [Table.get?_mapRows, ho]
    rfl
  obtain ⟨o, ho⟩ := h.exists_org
  obtain ⟨o', ho', hprimary⟩ := horganization o ho
  refine ⟨h.exclusive, ⟨o', ho'⟩, fun i b hb hborg => ?_, fun i s hs => ?_⟩
  · obtain ⟨a, ha, haorg, hcur⟩ := hrow i b hb
    obtain ⟨hsupported, o₁, ho₁, hset⟩ := h.one i a ha (haorg.symm.trans hborg)
    obtain rfl : o = o₁ := Option.some.inj (ho.symm.trans ho₁)
    exact ⟨hcur ▸ hsupported, o', ho', by rw [hprimary, hset, hcur]⟩
  · refine (h.txs i s hs).after (fun _ hno j b hb hborg => ?_) fun j a ha _ => hkept j a ha
    obtain ⟨a, ha, haorg, -⟩ := hrow j b hb
    exact hno j a ha (haorg.symm.trans hborg)

theorem AccountInv.step {ev : AccountEvent} (h : AccountInv org w) (hstep : accountStep str w ev = .ok w') :
    AccountInv org w' := by
  cases ev with
  | begin call =>
    obtain rfl := Except.ok.inj hstep
    refine ⟨h.exclusive.insert rfl, h.exists_org, h.one, fun i s hs => ?_⟩
    rcases Table.get?_insert_cases hs with ⟨-, rfl⟩ | ⟨-, hs⟩
    · exact ⟨h.one, (fun _ hi => by cases hi), (fun _ ha => by cases ha), fun _ => ⟨rfl, rfl⟩⟩
    · exact h.txs i s hs
  | next id row =>
    obtain ⟨tx, htx, hstep⟩ := bind_eq_ok.mp hstep
    obtain ⟨tx', hnext, hstep⟩ := bind_eq_ok.mp hstep
    obtain rfl := Except.ok.inj hstep
    have htx := found_eq_ok.mp htx
    exact h.put htx (nextAccountStatement_advanced h.one (h.txs id tx htx) hnext)
  | commit id =>
    obtain ⟨tx, htx, hstep⟩ := bind_eq_ok.mp hstep
    split at hstep
    · obtain rfl := Except.ok.inj hstep
      exact h.commit (found_eq_ok.mp htx) ‹_›
    · cases hstep
  | fail id =>
    obtain ⟨tx, htx, hstep⟩ := bind_eq_ok.mp hstep
    have htx := found_eq_ok.mp htx
    have hinv := h.txs id tx htx
    split at hstep
    · cases hstep
    · rename_i reason hphase
      obtain rfl := Except.ok.inj hstep
      refine h.put htx (.goto hinv _ fun horg => ?_)
      have hk := hinv.knows horg
      rwa [hphase] at hk
    · rename_i hphase
      obtain rfl := Except.ok.inj hstep
      refine h.put htx (.goto hinv _ fun horg => ?_)
      have hk := hinv.knows horg
      rwa [hphase] at hk
    · obtain rfl := Except.ok.inj hstep
      exact h.put htx (.close hinv fun _ h => h)
  | audit id =>
    obtain ⟨tx, htx, hstep⟩ := bind_eq_ok.mp hstep
    have htx := found_eq_ok.mp htx
    have hinv := h.txs id tx htx
    split at hstep
    · rename_i reason hphase
      obtain rfl := Except.ok.inj hstep
      have hput : AccountInv org (w.put id (tx.goto (.done (.error (.alreadyApplied reason))))) := by
        refine h.put htx (.goto hinv _ fun horg => ?_)
        have hk := hinv.knows horg
        rwa [hphase] at hk
      exact ⟨hput.exclusive, hput.exists_org, hput.one, hput.txs⟩
    · rename_i hphase
      obtain rfl := Except.ok.inj hstep
      have hput : AccountInv org (w.put id (tx.goto (.done (.ok ())))) := by
        refine h.put htx (.goto hinv _ fun horg => ?_)
        have hk := hinv.knows horg
        rwa [hphase] at hk
      exact ⟨hput.exclusive, hput.exists_org, hput.one, hput.txs⟩
    · cases hstep
  | elsewhere other =>
    obtain rfl := Except.ok.inj hstep
    exact h.elsewhere other

/-! ## Refusals -/

/-- The request was refused, or failed. -/
def AccountPhase.Refused : AccountPhase → Prop
  | .refusing _ => True
  | .done (.error _) => True
  | _ => False

/-- The transaction was committed. -/
def AccountPhase.Committed : AccountPhase → Prop
  | .applied => True
  | .done (.ok _) => True
  | _ => False

theorem not_refused_of_committed {phase : AccountPhase} (h : phase.Committed) : ¬ phase.Refused := by
  cases phase with
  | done outcome => cases outcome <;> simp_all [AccountPhase.Committed, AccountPhase.Refused]
  | _ => simp_all [AccountPhase.Committed, AccountPhase.Refused]

/-- The transaction an event is about. -/
def AccountEvent.about : AccountEvent → Option Nat
  | .next id _ | .commit id | .fail id | .audit id => some id
  | .begin _ | .elsewhere _ => none

/-- Only a seed comes here. -/
def AccountPhase.OfSeed : AccountPhase → Prop
  | .marking | .adopting _ | .refusing _ => True
  | _ => False

def SeedOnly (tx : AccountTx) : Prop := tx.phase.OfSeed → ∃ today orgId, tx.call = .seed today orgId

/-- What becomes of a transaction: its call stays, and a commit is final. -/
structure AccountFollows (tx tx' : AccountTx) : Prop where
  call : tx'.call = tx.call
  committed : tx.phase.Committed → tx'.phase.Committed
  seed : SeedOnly tx → SeedOnly tx'

theorem AccountFollows.refl (tx : AccountTx) : AccountFollows tx tx := ⟨rfl, fun h => h, fun h => h⟩

theorem beginAccountWrite_seed {snapshot : AccountBooks} {call : AccountWriteCall}
    (h : (beginAccountWrite str snapshot call).OfSeed) : ∃ today orgId, call = .seed today orgId := by
  cases call with
  | seed today orgId => exact ⟨today, orgId, rfl⟩
  | create today orgId body =>
    unfold beginAccountWrite at h
    dsimp only at h
    split at h
    · exact h.elim
    · split at h <;> exact h.elim
  | delete orgId accountId =>
    unfold beginAccountWrite at h
    dsimp only at h
    split at h <;> exact h.elim

variable (str) in
theorem judgeCurrency_follows (tx : AccountTx) (typeId : Nat) (currency : String) (existing : Option AccountRow) :
    (judgeCurrency str tx typeId currency existing).call = tx.call ∧
      SeedOnly (judgeCurrency str tx typeId currency existing) := by
  unfold judgeCurrency
  split <;> exact ⟨rfl, fun h => h.elim⟩

theorem insertAccounts_follows (tx : AccountTx) (typeId : Nat) (currency : String) :
    (insertAccounts tx typeId currency).call = tx.call ∧ SeedOnly (insertAccounts tx typeId currency) := by
  unfold insertAccounts
  rcases hcall : tx.call with ⟨today, orgId, body⟩ | ⟨today, orgId⟩ | ⟨orgId, accountId⟩
  · dsimp only
    split <;> exact ⟨hcall, fun h => h.elim⟩
  · dsimp only
    split <;> exact ⟨hcall, fun h => h.elim⟩
  · exact ⟨hcall, fun h => h.elim⟩

theorem nextAccountStatement_follows {row : Option Nat} (h : nextAccountStatement str w id tx row = .ok tx') :
    tx'.call = tx.call ∧ ¬ tx.phase.Committed ∧ (SeedOnly tx → SeedOnly tx') := by
  unfold nextAccountStatement at h
  rcases hphase : tx.phase with _ | _ | typeId | ⟨typeId, currency⟩ | ⟨typeId, currency⟩ | ⟨typeId, currency, code⟩ |
    ⟨typeId, currency⟩ | _ | _ | reason | _ | outcome
  all_goals rw [hphase] at h
  case begun =>
    obtain rfl := Except.ok.inj h
    exact ⟨rfl, fun h => h, fun _ => beginAccountWrite_seed⟩
  case marking =>
    have hseed : SeedOnly tx → ∃ today orgId, tx.call = .seed today orgId := fun hs => hs (by rw [hphase]; trivial)
    dsimp only at h
    split at h
    · obtain rfl := Except.ok.inj h
      exact ⟨rfl, fun h => h, fun hs _ => hseed hs⟩
    · obtain rfl := Except.ok.inj h
      exact ⟨rfl, fun h => h, fun hs _ => hseed hs⟩
  case adopting =>
    obtain ⟨_, _, h⟩ := bind_eq_ok.mp h
    obtain rfl := Except.ok.inj h
    exact ⟨rfl, fun h => h, fun _ h => h.elim⟩
  case lockingOrg =>
    obtain ⟨_, _, h⟩ := bind_eq_ok.mp h
    obtain rfl := Except.ok.inj h
    exact ⟨rfl, fun h => h, fun _ h => h.elim⟩
  case readingAccount =>
    obtain ⟨_, _, h⟩ := bind_eq_ok.mp h
    obtain ⟨existing, _, h⟩ := bind_eq_ok.mp h
    obtain rfl := Except.ok.inj h
    cases row with
    | none =>
      obtain ⟨hcall, hseed⟩ := judgeCurrency_follows str tx typeId currency existing
      exact ⟨hcall, fun h => h, fun _ => hseed⟩
    | some i =>
      obtain ⟨hcall, hseed⟩ := judgeCurrency_follows str (tx.lock (.account i)) typeId currency existing
      exact ⟨hcall, fun h => h, fun _ => hseed⟩
  case settingPrimary =>
    obtain rfl := Except.ok.inj h
    exact ⟨rfl, fun h => h, fun _ h => h.elim⟩
  case inserting =>
    obtain rfl := Except.ok.inj h
    obtain ⟨hcall, hseed⟩ := insertAccounts_follows tx typeId currency
    exact ⟨hcall, fun h => h, fun _ => hseed⟩
  case deleting =>
    unfold flushDelete at h
    dsimp only at h
    split at h
    · obtain ⟨_, _, h⟩ := bind_eq_ok.mp h
      obtain rfl := Except.ok.inj h
      exact ⟨rfl, fun h => h, fun _ h => h.elim⟩
    · cases h
  all_goals cases h

/-- What a transaction leaves of the tables with a step that is not a commit. -/
def TablesLeft (call : AccountWriteCall) (books books' : AccountBooks) : Prop :=
  books' = books ∨ ∃ today orgId reason, call = .seed today orgId ∧ books' = books.record (refusedAudit orgId reason)

/-- A step is a commit or leaves the tables, and takes every transaction on from where it
was. -/
theorem accountStep_follows {ev : AccountEvent} (hseed : ∀ i tx, w.txs.get? i = some tx → SeedOnly tx)
    (h : accountStep str w ev = .ok w') :
    (∀ i tx, w.txs.get? i = some tx → ∃ tx', w'.txs.get? i = some tx' ∧ AccountFollows tx tx') ∧
      (∀ i tx', w'.txs.get? i = some tx' → SeedOnly tx') ∧
      ∀ i, ev.about = some i → ∃ tx', w'.txs.get? i = some tx' ∧
        (¬ tx'.phase.Committed → TablesLeft tx'.call w.db w'.db) := by
  have hput : ∀ {i tx tx'}, w.txs.get? i = some tx → AccountFollows tx tx' →
      (∀ j s, w.txs.get? j = some s → ∃ s', (w.put i tx').txs.get? j = some s' ∧ AccountFollows s s') ∧
        (∀ j s, (w.put i tx').txs.get? j = some s → SeedOnly s) ∧ (w.put i tx').txs.get? i = some tx' := by
    intro i tx tx' htx hfollows
    have hmine : (w.put i tx').txs.get? i = some tx' := Table.get?_modify_self htx
    refine ⟨fun j s hs => ?_, fun j s hs => ?_, hmine⟩
    · by_cases hj : j = i
      · subst hj
        obtain rfl := Option.some.inj (htx.symm.trans hs)
        exact ⟨tx', hmine, hfollows⟩
      · exact ⟨s, (Table.get?_modify_of_ne hj).trans hs, .refl s⟩
    · rcases Table.get?_modify_cases htx hs with ⟨-, rfl⟩ | ⟨-, hs⟩
      · exact hfollows.seed (hseed i tx htx)
      · exact hseed j s hs
  cases ev with
  | begin call =>
    obtain rfl := Except.ok.inj h
    refine ⟨fun i tx htx => ⟨tx, Table.get?_insert_of_some htx, .refl tx⟩, fun i tx' htx => ?_, fun _ hi => by cases hi⟩
    rcases Table.get?_insert_cases htx with ⟨-, rfl⟩ | ⟨-, htx⟩
    · exact fun h => h.elim
    · exact hseed i tx' htx
  | next id row =>
    obtain ⟨tx, htx, h⟩ := bind_eq_ok.mp h
    obtain ⟨tx', hnext, h⟩ := bind_eq_ok.mp h
    obtain rfl := Except.ok.inj h
    obtain ⟨hcall, hnot, hs⟩ := nextAccountStatement_follows hnext
    obtain ⟨hall, hseeds, hmine⟩ := hput (found_eq_ok.mp htx) ⟨hcall, fun h => absurd h hnot, hs⟩
    refine ⟨hall, hseeds, fun i hi => ?_⟩
    obtain rfl := Option.some.inj hi
    exact ⟨tx', hmine, fun _ => .inl rfl⟩
  | commit id =>
    obtain ⟨tx, htx, h⟩ := bind_eq_ok.mp h
    split at h
    · obtain rfl := Except.ok.inj h
      have hcommitted : tx.committed.Committed ∧ ¬ tx.committed.OfSeed := by
        unfold AccountTx.committed
        split <;> exact ⟨trivial, fun h => h⟩
      have hfollows : AccountFollows tx (tx.close tx.committed) :=
        ⟨rfl, fun _ => hcommitted.1, fun _ hs => absurd hs hcommitted.2⟩
      obtain ⟨hall, hseeds, hmine⟩ := hput (found_eq_ok.mp htx) hfollows
      refine ⟨hall, hseeds, fun i hi => ?_⟩
      obtain rfl := Option.some.inj hi
      exact ⟨_, hmine, fun hnot => absurd hcommitted.1 hnot⟩
    · cases h
  | fail id =>
    obtain ⟨tx, htx, h⟩ := bind_eq_ok.mp h
    have hfailed : ∃ t, w' = w.put id t ∧ AccountFollows tx t := by
      rcases hphase : tx.phase with _ | _ | _ | _ | _ | _ | _ | _ | _ | reason | _ | outcome
      all_goals rw [hphase] at h
      case done => cases h
      case refusing =>
        refine ⟨_, (Except.ok.inj h).symm, rfl, fun hc => ?_, fun _ hs => hs.elim⟩
        rw [hphase] at hc
        exact hc.elim
      case applied => exact ⟨_, (Except.ok.inj h).symm, rfl, fun _ => trivial, fun _ hs => hs.elim⟩
      all_goals
        refine ⟨_, (Except.ok.inj h).symm, rfl, fun hc => ?_, fun _ hs => hs.elim⟩
        rw [hphase] at hc
        exact hc.elim
    obtain ⟨t, rfl, hfollows⟩ := hfailed
    obtain ⟨hall, hseeds, hmine⟩ := hput (found_eq_ok.mp htx) hfollows
    refine ⟨hall, hseeds, fun i hi => ?_⟩
    obtain rfl := Option.some.inj hi
    exact ⟨t, hmine, fun _ => .inl rfl⟩
  | audit id =>
    obtain ⟨tx, htx, h⟩ := bind_eq_ok.mp h
    have htx := found_eq_ok.mp htx
    split at h
    · rename_i reason hphase
      obtain rfl := Except.ok.inj h
      have hfollows : AccountFollows tx (tx.goto (.done (.error (.alreadyApplied reason)))) :=
        ⟨rfl, fun hc => by rw [hphase] at hc; exact hc.elim, fun _ hs => hs.elim⟩
      obtain ⟨hall, hseeds, hmine⟩ := hput htx hfollows
      refine ⟨hall, hseeds, fun i hi => ?_⟩
      obtain rfl := Option.some.inj hi
      obtain ⟨today, orgId, hcall⟩ := hseed id tx htx (by rw [hphase]; trivial)
      exact ⟨_, hmine, fun _ => .inr ⟨today, orgId, reason, hcall, by rw [hcall]; rfl⟩⟩
    · rename_i hphase
      obtain rfl := Except.ok.inj h
      have hfollows : AccountFollows tx (tx.goto (.done (.ok ()))) := ⟨rfl, fun _ => trivial, fun _ hs => hs.elim⟩
      obtain ⟨hall, hseeds, hmine⟩ := hput htx hfollows
      refine ⟨hall, hseeds, fun i hi => ?_⟩
      obtain rfl := Option.some.inj hi
      exact ⟨_, hmine, fun hnot => absurd trivial hnot⟩
    · cases h
  | elsewhere other =>
    obtain rfl := Except.ok.inj h
    exact ⟨fun i tx htx => ⟨tx, htx, .refl tx⟩, hseed, fun _ hi => by cases hi⟩

/-! ## Runs -/

section Runs

variable {start : AccountWorld}

theorem run_seedOnly (hstart : ∀ i tx, start.txs.get? i = some tx → SeedOnly tx) (events : List AccountEvent) :
    ∀ i tx, (run (accountStep str) start events).txs.get? i = some tx → SeedOnly tx :=
  run_invariant (I := fun w : AccountWorld => ∀ i tx, w.txs.get? i = some tx → SeedOnly tx)
    (fun _ _ _ hseed h => (accountStep_follows hseed h).2.1) events hstart

/-- What is committed stays committed. -/
theorem run_follows (events : List AccountEvent) : ∀ {start : AccountWorld},
    (∀ i tx, start.txs.get? i = some tx → SeedOnly tx) → start.txs.get? id = some tx →
      ∃ tx', (run (accountStep str) start events).txs.get? id = some tx' ∧ tx'.call = tx.call ∧
        (tx.phase.Committed → tx'.phase.Committed) := by
  induction events generalizing tx with
  | nil => exact fun _ htx => ⟨tx, htx, rfl, fun h => h⟩
  | cons ev events ih =>
    intro start hseed htx
    rw [run_cons]
    rcases hstep : accountStep str start ev with e | w
    · rw [serve, hstep]
      exact ih hseed htx
    · rw [serve_of_ok hstep]
      obtain ⟨hall, hseeds, -⟩ := accountStep_follows hseed hstep
      obtain ⟨mid, hmid, hfollows⟩ := hall id tx htx
      obtain ⟨tx', htx', hcall, hcommitted⟩ := ih hseeds hmid
      exact ⟨tx', htx', hcall.trans hfollows.call, fun h => hcommitted (hfollows.committed h)⟩

/-- No event of a transaction that ends refused has changed a table. -/
theorem refused_unchanged {books : AccountBooks} {before after : List AccountEvent} {ev : AccountEvent}
    (htx : (run (accountStep str) { db := books } (before ++ ev :: after)).txs.get? id = some tx)
    (hrefused : tx.phase.Refused) (habout : ev.about = some id) :
    TablesLeft tx.call (run (accountStep str) { db := books } before).db
      (run (accountStep str) { db := books } (before ++ [ev])).db := by
  have hseed : ∀ i tx, (run (accountStep str) { db := books } before).txs.get? i = some tx → SeedOnly tx :=
    run_seedOnly (fun _ _ h => by cases h) before
  rw [run_append, run_cons] at htx
  rw [run_append, run_cons, run_nil]
  generalize run (accountStep str) { db := books } before = w at htx hseed ⊢
  rcases hstep : accountStep str w ev with e | w'
  · rw [serve, hstep]
    exact .inl rfl
  · rw [serve_of_ok hstep] at htx ⊢
    obtain ⟨-, hseeds, hunchanged⟩ := accountStep_follows hseed hstep
    obtain ⟨mid, hmid, hsame⟩ := hunchanged id habout
    obtain ⟨tx', htx', hcall, hcommitted⟩ := run_follows after hseeds hmid
    obtain rfl := Option.some.inj (htx.symm.trans htx')
    rw [hcall]
    exact hsame fun h => not_refused_of_committed (hcommitted h) hrefused

/-- Nothing is left out of an aggregate of an org in one currency. -/
theorem OneCurrency.scope (h : OneCurrency db org) :
    (db.resolveCurrencyScope str org).excludedCurrencies = [] ∧
      (db.resolveCurrencyScope str org).excludedAccountCount = 0 := by
  have hnone : ((db.currencies org).eraseDups.filter (fun code =>
      ((((db.organizations.get? org).bind (·.primaryCurrency)).filter (· ≠ "")).map str.normaliseCurrency).any
        (fun c => str.normaliseCurrency code != c))) = [] := by
    refine List.filter_eq_nil_iff.mpr fun code hcode => ?_
    obtain ⟨⟨i, a⟩, hmem, rfl⟩ := List.mem_map.mp (List.mem_eraseDups.mp hcode)
    obtain ⟨hget, horg⟩ := Table.mem_select.mp hmem
    obtain ⟨-, o, ho, hset⟩ := h i a hget (beq_iff_eq.mp horg)
    rw [ho, Option.bind_some, hset, Option.filter]
    split <;> simp
  unfold AccountsDb.resolveCurrencyScope
  dsimp only
  rw [hnone]
  exact ⟨rfl, rfl⟩

/-- **One currency.** An org that starts without an account has one currency whatever
transactions create, seed and delete accounts at once: every account is in its primary
currency, and no aggregate leaves one out. A refused request has changed no table, but for
the audit event of a refused seed. -/
theorem one_currency_kept (str : StrMethods) (start : AccountBooks) (org : Nat)
    (hrow : ∃ o, start.organizations.get? org = some o) (hnone : NoAccount start.toAccountsDb org)
    (events : List AccountEvent) :
    let w := run (accountStep str) { db := start } events
    (∀ i a j b, w.db.accounts.get? i = some a → w.db.accounts.get? j = some b → a.orgId = org → b.orgId = org →
      str.normaliseCurrency a.currency = str.normaliseCurrency b.currency) ∧
    (∀ i a, w.db.accounts.get? i = some a → a.orgId = org → ∃ o, w.db.organizations.get? org = some o ∧
      o.primaryCurrency = some (str.normaliseCurrency a.currency)) ∧
    ((w.db.resolveCurrencyScope str org).excludedCurrencies = [] ∧
      (w.db.resolveCurrencyScope str org).excludedAccountCount = 0) ∧
    (∀ id tx before ev after, w.txs.get? id = some tx → tx.phase.Refused → events = before ++ ev :: after →
      ev.about = some id → TablesLeft tx.call (run (accountStep str) { db := start } before).db
        (run (accountStep str) { db := start } (before ++ [ev])).db) := by
  dsimp only
  have hinit : AccountInv org { db := start } :=
    ⟨.empty, hrow, fun i a ha horg => absurd horg (hnone i a ha), fun _ _ h => by cases h⟩
  have hinv : AccountInv org (run (accountStep str) { db := start } events) :=
    run_invariant (fun _ _ _ hI hstep => hI.step hstep) events hinit
  have hprimary : ∀ i a, (run (accountStep str) { db := start } events).db.accounts.get? i = some a → a.orgId = org →
      ∃ o, (run (accountStep str) { db := start } events).db.organizations.get? org = some o ∧
        o.primaryCurrency = some (str.normaliseCurrency a.currency) := by
    intro i a ha horg
    obtain ⟨hsupported, o, ho, hset⟩ := hinv.one i a ha horg
    exact ⟨o, ho, by rw [hset, normaliseCurrency_of_supported str hsupported]⟩
  refine ⟨fun i a j b ha hb haorg hborg => ?_, hprimary, hinv.one.scope, ?_⟩
  · obtain ⟨o, ho, hseta⟩ := hprimary i a ha haorg
    obtain ⟨o', ho', hsetb⟩ := hprimary j b hb hborg
    obtain rfl := Option.some.inj (ho.symm.trans ho')
    exact Option.some.inj (hseta.symm.trans hsetb)
  · intro id tx before ev after htx hrefused hevents habout
    subst hevents
    exact refused_unchanged htx hrefused habout

/-- An org with a type to make accounts of, and none made. -/
def emptyOrg : AccountBooks where
  organizations := Table.empty.insert {}
  accountTypes := Table.empty.insert { orgId := 1, slug := .checking, isSystem := true }

/-- Dollars and euros at once: whoever comes second to the lock is refused. -/
theorem one_currency_kept_raced : ((run (accountStep asciiStr) { db := emptyOrg }
    [.begin (.create 739000 1 { name := "Dollars", accountTypeId := 1, currency := " usd" }),
      .begin (.seed 739000 1), .next 1 none, .next 2 none, .next 2 none, .next 2 none, .next 1 none, .next 1 none,
      .next 1 none, .next 1 none, .commit 1, .next 2 none, .next 2 (some 1)]).db.resolveCurrencyScope asciiStr 1
      ).excludedCurrencies = [] :=
  (one_currency_kept asciiStr emptyOrg 1 ⟨_, rfl⟩ (fun _ _ h => by cases h) _).2.2.1.1

/-- The org is seeded, and the seed asked for again. -/
def seedTwice : List AccountEvent :=
  .begin (.seed 739000 1) :: List.replicate 7 (.next 1 none) ++ [.commit 1, .begin (.seed 739000 1), .next 2 none]

/-- The second seed is refused, and leaves a row in the audit log. -/
theorem refused_seed_audited :
    (run (accountStep asciiStr) { db := emptyOrg } seedTwice).db.auditEvents = [] ∧
      (run (accountStep asciiStr) { db := emptyOrg } (seedTwice ++ [.audit 2])).db.auditEvents =
        [refusedAudit 1 "org already has user data"] ∧
      ∃ tx, (run (accountStep asciiStr) { db := emptyOrg } (seedTwice ++ [.audit 2])).txs.get? 2 = some tx ∧
        tx.phase.Refused := by
  refine ⟨by decide +kernel, by decide +kernel, ?_⟩
  have hphase : ((run (accountStep asciiStr) { db := emptyOrg } (seedTwice ++ [.audit 2])).txs.get? 2).any
      (fun tx => match tx.phase with | .done (.error _) => true | _ => false) = true := by decide +kernel
  obtain ⟨tx, htx, hover⟩ := Option.any_eq_true _ _ |>.mp hphase
  refine ⟨tx, htx, ?_⟩
  split at hover
  · rename_i hdone
    rw [hdone]
    trivial
  · cases hover

end Runs

end BetterDecision
