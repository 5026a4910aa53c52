import BetterDecision.Proof.AccountTypes
import BetterDecision.Proof.CardCycles

/-!
# A card is paid after it closes

A payment that falls in the month of the close must have the later day of the two, and every
request that leaves a row a card is judged on that. The days are compared as they are stored;
the cycle clamps both to the month, and a month no longer than the close day has the close and
the payment on its last day. Such a cycle is the only one that is not paid: the synthesis skips
it, and pays every other one that is due in the horizon and has anything left to pay.
-/

namespace BetterDecision

open Calendar

/-! ## The configurations that are accepted -/

/-- The days of a card as the account endpoints accept them. -/
def DaysAccepted (closeDay paymentDay relative : Option Nat) : Prop :=
  rejectSameMonthPaymentBeforeClose closeDay paymentDay relative = .ok ()

/-- A payment of the month of the close has the later day. -/
theorem daysAccepted_iff {closeDay : Nat} {paymentDay relative : Option Nat} :
    DaysAccepted (some closeDay) paymentDay relative ↔ (relative.getD 1 = 0 → closeDay < paymentDay.getD 1) := by
  unfold DaysAccepted rejectSameMonthPaymentBeforeClose
  split
  · rename_i hlater
    exact iff_of_true rfl fun hsame => absurd hsame hlater
  · rename_i hsame
    rw [refuse_eq_ok]
    omega

def CardsConfigured (db : AccountsDb) : Prop :=
  ∀ i a, db.accounts.get? i = some a → db.slugOf a = some .creditCard →
    DaysAccepted a.closeDay a.paymentDay a.paymentDayRelativeMonth

/-- The type of a row and its days are another row's. -/
structure AccountRow.SameDays (a b : AccountRow) : Prop where
  type : a.accountTypeId = b.accountTypeId
  close : a.closeDay = b.closeDay
  payment : a.paymentDay = b.paymentDay
  relative : a.paymentDayRelativeMonth = b.paymentDayRelativeMonth

/-- A card that was one before, with the days it had, is as accepted as it was. -/
theorem CardsConfigured.kept {db : AccountsDb} (h : CardsConfigured db) {i : Nat} {a a' : AccountRow}
    (ha : db.accounts.get? i = some a) (hdays : a'.SameDays a) (hcard : db.slugOf a = some .creditCard) :
    DaysAccepted a'.closeDay a'.paymentDay a'.paymentDayRelativeMonth := by
  rw [hdays.close, hdays.payment, hdays.relative]
  exact h i a ha hcard

theorem slugOf_congr {db db' : AccountsDb} (htypes : db'.accountTypes = db.accountTypes) {a a' : AccountRow}
    (htype : a'.accountTypeId = a.accountTypeId) : db'.slugOf a' = db.slugOf a := by
  unfold AccountsDb.slugOf
  rw [htypes, htype]

theorem createAccount_configured {str : StrMethods} {db db' : AccountsDb} {today : Int} {orgId : Nat}
    {body : AccountCreate} (h : createAccount str db today orgId body = .ok db') (hdb : CardsConfigured db) :
    CardsConfigured db' := by
  obtain ⟨t, currency, ht, haccounts, htypes, -, hpay, -⟩ := createAccount_ok h
  obtain ⟨htget, -⟩ := ownType_eq_some.mp ht
  intro i a ha hcard
  rw [haccounts, Table.get?_insert] at ha
  split at ha
  · obtain rfl := Option.some.inj ha
    have hslug : db'.slugOf (body.row today orgId currency) = some t.slug := by
      rw [AccountsDb.slugOf, htypes]
      exact congrArg (Option.map AccountType.slug) htget
    rw [hslug] at hcard
    rw [Option.some.inj hcard, validateCreatePaymentDay, if_neg (by simp)] at hpay
    exact hpay
  · rw [slugOf_congr htypes rfl] at hcard
    exact hdb i a ha hcard

/-- The days a type change leaves on a card are the ones it was judged on. -/
theorem changeType_days {account : AccountRow} {targetTypeId : Nat} {closeDay paymentDay relative : Option (Option Nat)} :
    (account.changeType targetTypeId .creditCard closeDay paymentDay relative).closeDay = closeDay.getD account.closeDay ∧
      (account.changeType targetTypeId .creditCard closeDay paymentDay relative).paymentDay =
        paymentDay.getD account.paymentDay ∧
      (account.changeType targetTypeId .creditCard closeDay paymentDay relative).paymentDayRelativeMonth =
        relative.getD account.paymentDayRelativeMonth := ⟨rfl, rfl, rfl⟩

theorem applyTypeChange_accepted {db : AccountsDb} {accountId orgId targetTypeId : Nat}
    {closeDay paymentDay relative : Option (Option Nat)} {r : AccountRow × TypeChangeResult}
    (h : applyTypeChangeInSession db accountId orgId targetTypeId closeDay paymentDay relative = .ok r) :
    (∃ old, db.accounts.get? accountId = some old) ∧ (db.slugOf r.1 = some .creditCard →
      DaysAccepted r.1.closeDay r.1.paymentDay r.1.paymentDayRelativeMonth) := by
  obtain ⟨old, hold, h⟩ := bind_eq_ok.mp h
  obtain ⟨t, ht, h⟩ := bind_eq_ok.mp h
  obtain ⟨_, _, h⟩ := bind_eq_ok.mp h
  obtain ⟨_, _, h⟩ := bind_eq_ok.mp h
  obtain ⟨_, _, h⟩ := bind_eq_ok.mp h
  obtain ⟨_, hjudged, h⟩ := bind_eq_ok.mp h
  obtain rfl := Except.ok.inj h
  refine ⟨⟨old, (ownAccount_eq_some.mp (found_eq_ok.mp hold)).1⟩, fun hcard => ?_⟩
  have hslug : db.slugOf (old.changeType targetTypeId t.slug closeDay paymentDay relative) = some t.slug := by
    rw [AccountsDb.slugOf, (changeType_org ..).2]
    exact congrArg (Option.map AccountType.slug) (ownType_eq_some.mp (found_eq_ok.mp ht)).1
  rw [hslug] at hcard
  have hcard := Option.some.inj hcard
  have hjudged := checkIf_eq_ok.mp hjudged hcard
  dsimp only
  rw [hcard, changeType_days.1, changeType_days.2.1, changeType_days.2.2]
  exact hjudged

/-- A row written over, and the default flag taken from its siblings. -/
theorem writeAccount_configured {db db' : AccountsDb} {orgId accountId : Nat} {old r : AccountRow} {d : Bool}
    (haccounts : db'.accounts = (db.writeAccount orgId accountId r d).accounts)
    (htypes : db'.accountTypes = db.accountTypes) (hold : db.accounts.get? accountId = some old)
    (hr : db.slugOf r = some .creditCard → DaysAccepted r.closeDay r.paymentDay r.paymentDayRelativeMonth)
    (hdb : CardsConfigured db) : CardsConfigured db' := by
  intro i a ha hcard
  rw [haccounts, get?_writeAccount hold] at ha
  rw [slugOf_congr htypes rfl] at hcard
  split at ha
  · obtain rfl := Option.some.inj ha
    exact hr hcard
  · obtain ⟨b, hb, rfl⟩ := Option.map_eq_some_iff.mp ha
    have hdays : (if d ∧ b.orgId = orgId then { b with isDefault := false } else b).SameDays b := by
      split
      · exact ⟨rfl, rfl, rfl, rfl⟩
      · exact ⟨rfl, rfl, rfl, rfl⟩
    rw [slugOf_congr rfl hdays.type] at hcard
    exact hdb.kept hb hdays hcard

theorem updateAccount_configured {db db' : AccountsDb} {orgId accountId : Nat} {admin : Bool} {body : AccountUpdate}
    (h : updateAccount db orgId admin accountId body = .ok db') (hdb : CardsConfigured db) : CardsConfigured db' := by
  unfold updateAccount at h
  split at h
  · obtain ⟨targetTypeId, _, h⟩ := bind_eq_ok.mp h
    obtain ⟨staged, hstaged, h⟩ := bind_eq_ok.mp h
    obtain ⟨_, _, h⟩ := bind_eq_ok.mp h
    obtain ⟨r, hr, h⟩ := bind_eq_ok.mp h
    obtain rfl := Except.ok.inj h
    obtain ⟨⟨old, hold⟩, haccepted⟩ := applyTypeChange_accepted hstaged
    obtain ⟨⟨-, htype, hclose, hpayment, hrelative⟩, -⟩ := applyNonTypeFields_ok hr
    refine writeAccount_configured rfl rfl hold (fun hcard => ?_) hdb
    rw [slugOf_congr rfl htype] at hcard
    rw [hclose, hpayment, hrelative]
    exact haccepted hcard
  · obtain ⟨old, hold, h⟩ := bind_eq_ok.mp h
    obtain ⟨r, hr, h⟩ := bind_eq_ok.mp h
    obtain rfl := Except.ok.inj h
    have hget := (ownAccount_eq_some.mp (found_eq_ok.mp hold)).1
    obtain ⟨⟨-, htype, hclose, hpayment, hrelative⟩, -⟩ := applyNonTypeFields_ok hr
    refine writeAccount_configured rfl rfl hget (fun hcard => ?_) hdb
    rw [slugOf_congr rfl htype] at hcard
    exact hdb.kept hget ⟨htype, hclose, hpayment, hrelative⟩ hcard

theorem handleAccount_configured {str : StrMethods} {db db' : AccountsDb} {c : AccountCall}
    (h : handleAccount str db c = .ok db') (hdb : CardsConfigured db) : CardsConfigured db' := by
  cases c with
  | create today orgId body => exact createAccount_configured h hdb
  | update orgId admin accountId body => exact updateAccount_configured h hdb
  | delete orgId accountId =>
    obtain ⟨_, _, h⟩ := bind_eq_ok.mp h
    obtain ⟨_, _, h⟩ := bind_eq_ok.mp h
    obtain ⟨_, _, h⟩ := bind_eq_ok.mp h
    obtain ⟨_, _, h⟩ := bind_eq_ok.mp h
    obtain rfl := Except.ok.inj h
    intro i a ha hcard
    rw [Table.get?_mapRows, Table.get?_remove] at ha
    obtain ⟨b, hb, rfl⟩ := Option.map_eq_some_iff.mp ha
    have hbget : db.accounts.get? i = some b := by
      split at hb
      · cases hb
      · exact hb
    have hdays : (if b.paymentSourceAccountId = some accountId then b.clearPaymentSource else b).SameDays b := by
      split
      · exact ⟨rfl, rfl, rfl, rfl⟩
      · exact ⟨rfl, rfl, rfl, rfl⟩
    exact hdb.kept hbget hdays ((slugOf_congr rfl hdays.type).symm.trans hcard)
  | createType orgId =>
    obtain rfl := Except.ok.inj h
    intro i a ha hcard
    refine hdb i a ha ?_
    rw [AccountsDb.slugOf, Table.get?_insert] at hcard
    split at hcard
    · cases hcard
    · exact hcard
  | deleteType orgId typeId =>
    obtain ⟨_, _, h⟩ := bind_eq_ok.mp h
    obtain ⟨_, _, h⟩ := bind_eq_ok.mp h
    obtain ⟨_, _, h⟩ := bind_eq_ok.mp h
    obtain rfl := Except.ok.inj h
    intro i a ha hcard
    refine hdb i a ha ?_
    rw [AccountsDb.slugOf, Table.get?_remove] at hcard
    split at hcard
    · cases hcard
    · exact hcard
  | books recurring transactions ccCyclePayments balance =>
    obtain rfl := Except.ok.inj h
    intro i a ha hcard
    rw [Table.get?_mapRows] at ha
    obtain ⟨b, hb, rfl⟩ := Option.map_eq_some_iff.mp ha
    exact hdb i b hb hcard

/-- **Every card the endpoints leave has days they accept.** -/
theorem cards_configured (str : StrMethods) {start : AccountsDb} (hstart : CardsConfigured start)
    (cs : List AccountCall) : CardsConfigured (run (handleAccount str) start cs) :=
  run_invariant (fun _ _ _ hdb h => handleAccount_configured h hdb) cs hstart

/-! ## Close and payment -/

/-- Both days of the cycle are the last of the month. -/
def ClampsTogether (closeDay : Nat) (relative : Option Nat) (cycle : CreditCardCycle) : Prop :=
  relative.getD 1 = 0 ∧ monthLength (monthOf cycle.periodEndInclusive) ≤ closeDay

/-- A cycle that resolves has its days. -/
theorem resolveCycle_days {closeDay : Nat} {paymentDay relative : Option Nat} {target : Int} {cycle : CreditCardCycle}
    (h : resolveCycle closeDay paymentDay relative target = .ok cycle) : 1 ≤ closeDay ∧ 1 ≤ paymentDay.getD 1 := by
  obtain ⟨-, hpayment⟩ := resolveCycle_spec h
  obtain ⟨thisClose, hthis, -⟩ := bind_eq_ok.mp h
  exact ⟨(clampDay_eq hthis).2, (clampDay_eq hpayment).2⟩

/-- **A payment comes after the close unless both are clamped to the last day of the month, and then
on it.** -/
theorem payment_after_close {closeDay : Nat} {paymentDay relative : Option Nat} {target : Int} {cycle : CreditCardCycle}
    (haccepted : DaysAccepted (some closeDay) paymentDay relative)
    (h : resolveCycle closeDay paymentDay relative target = .ok cycle) :
    (cycle.periodEndInclusive < cycle.paymentDate ↔ ¬ ClampsTogether closeDay relative cycle) ∧
      (ClampsTogether closeDay relative cycle → cycle.paymentDate = cycle.periodEndInclusive) := by
  obtain ⟨hclose, hpayment⟩ := resolveCycle_days h
  have hday : (1 : Int) ≤ closeDay := by omega
  obtain ⟨rfl, -⟩ := (resolveCycle_eq_ok hclose hpayment).mp h
  have horder := daysAccepted_iff.mp haccepted
  unfold ClampsTogether cycleClosing
  dsimp only
  generalize firstMonth closeDay target = month
  rw [monthOf_onMonth hday]
  rcases Nat.eq_zero_or_pos (relative.getD 1) with hsame | hlater
  · have hlt := horder hsame
    have hclamp : onMonth (month + (relative.getD 1 : Nat)) (paymentDay.getD 1 : Nat) ≤ onMonth month closeDay ↔
        monthLength month ≤ closeDay := by
      rw [hsame, Int.natCast_zero, Int.add_zero, onMonth_le_onMonth_iff]
      omega
    refine ⟨by omega, fun htogether => ?_⟩
    have hback : onMonth month closeDay ≤ onMonth month (paymentDay.getD 1 : Nat) :=
      onMonth_le_onMonth_iff.mpr (.inl (by omega))
    have hle := hclamp.mpr htogether.2
    rw [hsame, Int.natCast_zero, Int.add_zero] at hle ⊢
    omega
  · have hlt := onMonth_lt_onMonth (d := closeDay) (show month < month + (relative.getD 1 : Nat) by omega)
      (show (1 : Int) ≤ (paymentDay.getD 1 : Nat) by omega)
    exact ⟨iff_of_true hlt fun htogether => absurd htogether.1 (by omega), fun htogether => absurd htogether.1 (by omega)⟩

/-! ## What the synthesis pays -/

section Pays

variable {account : Account} {closeDay : Nat} {books : CardBooks} {payments : List Point} {cycle : CreditCardCycle}

/-- What a cycle has left to pay once its credits are off. -/
def leftToPay (account : Account) (books : CardBooks) (run : CardRun) (cycle : CreditCardCycle) : Int :=
  cappedTarget account books run cycle - (ownCredits cycle books.credits run.consumed).1

/-- A cycle with anything left to pay is paid, unless it is paid on or before its close. -/
theorem payCycle_pays {run : CardRun} (hafter : cycle.periodEndInclusive < cycle.paymentDate)
    (hleft : 0 < leftToPay account books run cycle) :
    (cycle.paymentDate, leftToPay account books run cycle) ∈ (payCycle account books run cycle).payments := by
  have hmax : max 0 (leftToPay account books run cycle) = leftToPay account books run cycle := max_eq_right hleft.le
  have hpayments : (payCycle account books run cycle).payments =
      if 0 < max 0 (leftToPay account books run cycle) then
        run.payments ++ [(cycle.paymentDate, max 0 (leftToPay account books run cycle))]
      else run.payments := by
    rw [payCycle, if_neg (by omega), leftToPay]
    generalize ownCredits cycle books.credits run.consumed = own
    obtain ⟨owned, consumed⟩ := own
    rfl
  rw [hpayments, hmax, if_pos hleft]
  exact List.mem_append_right _ (List.mem_singleton_self _)

/-- What a horizon does with one of its cycles, by when it is paid. -/
structure CyclePaid (account : Account) (books : CardBooks) (payments : List Point) (run : CardRun)
    (cycle : CreditCardCycle) : Prop where
  pays : cycle.periodEndInclusive < cycle.paymentDate → 0 < leftToPay account books run cycle →
    (cycle.paymentDate, leftToPay account books run cycle) ∈ payments
  skips : cycle.paymentDate ≤ cycle.periodEndInclusive → payCycle account books run cycle = run

variable (account) in
/-- Every cycle due in the horizon has its turn, after those before it. -/
theorem synthesize_cyclePaid {pStart pEnd d : Int} (horizon : pStart ≤ pEnd)
    (hpaid : synthesizeAccountCcPayments account closeDay pStart pEnd books = .ok payments)
    (h : resolveCycle closeDay account.paymentDay account.paymentDayRelativeMonth d = .ok cycle)
    (hdue : pStart ≤ cycle.paymentDate ∧ cycle.paymentDate ≤ pEnd) :
    ∃ before after, dueCyclesInHorizon account closeDay pStart pEnd = .ok (before ++ cycle :: after) ∧
      CyclePaid account books payments (before.foldl (payCycle account books) {}) cycle := by
  obtain ⟨hclose, hpayment⟩ := resolveCycle_days h
  obtain ⟨cycles, hcycles, hpaid⟩ := bind_eq_ok.mp hpaid
  obtain rfl := Except.ok.inj hpaid
  have hmem := ((dueExactly hclose hpayment horizon).exactly cycles hcycles cycle).mpr ⟨⟨d, h⟩, hdue⟩
  obtain ⟨before, after, rfl⟩ := List.append_of_mem hmem
  refine ⟨before, after, hcycles, fun hafter hleft => ?_, payCycle_degenerate⟩
  rw [List.foldl_append, List.foldl_cons]
  exact (payments_extend after _).subset (payCycle_pays hafter hleft)

end Pays

/-- The columns of a row that the projection of a card reads. -/
def AccountRow.asCard (a : AccountRow) : Account where
  orgId := a.orgId
  name := a.name
  slug := .creditCard
  balance := a.balance
  currency := a.currency
  isActive := a.isActive
  closeDay := a.closeDay
  paymentDay := a.paymentDay
  paymentDayRelativeMonth := a.paymentDayRelativeMonth
  paymentSourceAccountId := a.paymentSourceAccountId
  fixedPaymentAmount := a.fixedPaymentAmount
  paymentStrategy := a.paymentStrategy
  openingBalance := a.openingBalance
  openingBalanceDate := a.openingBalanceDate

/-- **The cards of every state the account endpoints reach are paid after they close**, and each cycle
due in a horizon is paid there, where the month of the close is longer than its close day. -/
theorem card_paid_after_close (str : StrMethods) (start : AccountsDb) (hempty : ∀ i, start.accounts.get? i = none)
    (cs : List AccountCall) :
    ∀ i a, (run (handleAccount str) start cs).accounts.get? i = some a →
      (run (handleAccount str) start cs).slugOf a = some .creditCard →
      ∀ closeDay ∈ a.closeDay, ∀ d cycle,
        resolveCycle closeDay a.paymentDay a.paymentDayRelativeMonth d = .ok cycle →
        (cycle.periodEndInclusive < cycle.paymentDate ↔
          ¬ ClampsTogether closeDay a.paymentDayRelativeMonth cycle) ∧
        (ClampsTogether closeDay a.paymentDayRelativeMonth cycle → cycle.paymentDate = cycle.periodEndInclusive) ∧
        ∀ pStart pEnd books payments, pStart ≤ cycle.paymentDate → cycle.paymentDate ≤ pEnd →
          synthesizeAccountCcPayments a.asCard closeDay pStart pEnd books = .ok payments →
          ∃ before after, dueCyclesInHorizon a.asCard closeDay pStart pEnd = .ok (before ++ cycle :: after) ∧
            CyclePaid a.asCard books payments (before.foldl (payCycle a.asCard books) {}) cycle := by
  intro i a ha hcard closeDay hclose d cycle hcycle
  have hstart : CardsConfigured start := by
    intro j b hb
    rw [hempty j] at hb
    cases hb
  have haccepted := cards_configured str hstart cs i a ha hcard
  rw [Option.mem_def.mp hclose] at haccepted
  obtain ⟨hafter, htogether⟩ := payment_after_close haccepted hcycle
  refine ⟨hafter, htogether, fun pStart pEnd books payments hlow hhigh hpaid => ?_⟩
  exact synthesize_cyclePaid a.asCard (hlow.trans hhigh) hpaid hcycle ⟨hlow, hhigh⟩

/-- A card that closes on the 30th and is paid on the 31st of the same month. -/
def endOfMonthCard : AccountCreate where
  name := "Card"
  accountTypeId := 3
  closeDay := some 30
  paymentDay := some 31
  paymentDayRelativeMonth := some 0

/-- In March it is paid the day after it closes. -/
theorem card_paid_after_close_march : ∃ a cycle,
    (run (handleAccount asciiStr) bootstrapped [.create 1 1 endOfMonthCard]).accounts.get? 1 = some a ∧
      resolveCycle 30 a.paymentDay a.paymentDayRelativeMonth 739685 = .ok cycle ∧
      cycle.periodEndInclusive < cycle.paymentDate := by
  have hrow : ((run (handleAccount asciiStr) bootstrapped [.create 1 1 endOfMonthCard]).accounts.get? 1).map
      (fun a => (a.accountTypeId, a.closeDay, a.paymentDay, a.paymentDayRelativeMonth)) =
        some (3, some 30, some 31, some 0) := by decide +kernel
  have htypes : (run (handleAccount asciiStr) bootstrapped [.create 1 1 endOfMonthCard]).accountTypes.get? 3 =
      some ⟨1, .creditCard, true⟩ := by decide +kernel
  obtain ⟨a, ha, hdays⟩ := Option.map_eq_some_iff.mp hrow
  obtain ⟨htype, hdays⟩ := Prod.mk.inj hdays
  obtain ⟨hclose, hdays⟩ := Prod.mk.inj hdays
  obtain ⟨hpayment, hrelative⟩ := Prod.mk.inj hdays
  have hcard : (run (handleAccount asciiStr) bootstrapped [.create 1 1 endOfMonthCard]).slugOf a = some .creditCard := by
    rw [AccountsDb.slugOf, htype, htypes]
    rfl
  have hcycle : resolveCycle 30 a.paymentDay a.paymentDayRelativeMonth 739685 = .ok ⟨739676, 739705, 739706⟩ := by
    rw [hpayment, hrelative]
    decide +kernel
  have h := card_paid_after_close asciiStr bootstrapped (fun _ => rfl) _ 1 a ha hcard 30 hclose _ _ hcycle
  refine ⟨a, _, ha, hcycle, h.1.mpr fun htogether => ?_⟩
  have hmonth : ¬ monthLength (monthOf 739705) ≤ (30 : Nat) := by decide +kernel
  exact hmonth htogether.2

/-- In February it is accepted all the same, closes and is paid on the 28th, and what it owes then
is not paid. -/
theorem card_unpaid_in_february :
    ((run (handleAccount asciiStr) bootstrapped [.create 1 1 endOfMonthCard]).accounts.get? 1).map
        (fun a => (a.closeDay, a.paymentDay, a.paymentDayRelativeMonth)) = some (some 30, some 31, some 0) ∧
      resolveCycle 30 (some 31) (some 0) 739657 = .ok ⟨739647, 739675, 739675⟩ ∧
      synthesizeAccountCcPayments
          { orgId := 1, name := "Card", closeDay := some 30, paymentDay := some 31, paymentDayRelativeMonth := some 0 }
          30 739648 739675
          { ledger := [(739650, -10000)], credits := [], perCycleAmount := fun _ => none, projected := []
            projectedAfter := 0 } = .ok [] := by
  decide +kernel

end BetterDecision
