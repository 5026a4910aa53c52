import BetterDecision.Model.CardForecast
import BetterDecision.Proof.Dates
import Mathlib.Data.List.Sort
import Mathlib.Data.List.GetD

/-!
# Paying a card into credit

A payment is what is owed at the close, less what earlier payments of the horizon have
taken off it, less the credits the cycle owns. A credit is owned by one cycle. While no
credit is dated in the windows of two cycles, a payment therefore leaves the card owing
or clear. A credit dated in two windows is taken off the first payment only: it came
after the second close, so the second cycle still counts it as owed and pays it again.
-/

namespace BetterDecision

open Calendar

/-! ## The cycles -/

theorem clampDay_eq {month d : _} {day : Int} (h : clampDay month d = .ok day) : day = onMonth month d ∧ 1 ≤ d := by
  unfold clampDay at h
  split at h
  · cases h
  · exact ⟨(Except.ok.inj h).symm, by omega⟩

theorem onMonth_mono {k k' : Int} (h : k ≤ k') {d : Int} (hd : 1 ≤ d) : onMonth k d ≤ onMonth k' d := by
  rcases h.eq_or_lt with rfl | hlt
  · exact le_rfl
  · exact (onMonth_lt_onMonth hlt hd).le

/-- The cycle a day lies in closes on that day or later, and is paid by its close. -/
theorem resolveCycle_spec {closeDay : Nat} {paymentDay relative : Option Nat} {target : Int} {cycle : CreditCardCycle}
    (h : resolveCycle closeDay paymentDay relative target = .ok cycle) :
    target ≤ cycle.periodEndInclusive ∧
      resolvePaymentDate cycle.periodEndInclusive (paymentDay.getD 1) (relative.getD 1) = .ok cycle.paymentDate := by
  simp only [resolveCycle] at h
  obtain ⟨thisClose, hthis, h⟩ := bind_eq_ok.mp h
  split at h
  all_goals
    obtain ⟨other, hother, h⟩ := bind_eq_ok.mp h
    obtain ⟨closes, hcloses, h⟩ := bind_eq_ok.mp h
    obtain rfl := Except.ok.inj hcloses
    obtain ⟨_, _, h⟩ := bind_eq_ok.mp h
    obtain ⟨_, hpayment, h⟩ := bind_eq_ok.mp h
    obtain rfl := Except.ok.inj h
    refine ⟨?_, hpayment⟩
  · assumption
  · obtain ⟨rfl, hd⟩ := clampDay_eq hother
    have hlater := onMonth_lt_onMonth (d := dayOf target) (show monthOf target < monthOf target + 1 by omega)
      (show (1 : Int) ≤ closeDay by omega)
    rw [onMonth_monthOf] at hlater
    exact hlater.le

/-- A cycle that closes later is paid no earlier. -/
theorem paymentDate_mono {close close' payment payment' : Int} {paymentDay relative : Nat} (hle : close ≤ close')
    (h : resolvePaymentDate close paymentDay relative = .ok payment)
    (h' : resolvePaymentDate close' paymentDay relative = .ok payment') : payment ≤ payment' := by
  obtain ⟨rfl, hd⟩ := clampDay_eq h
  obtain ⟨rfl, -⟩ := clampDay_eq h'
  have := monthOf_mono hle
  exact onMonth_mono (by omega) (by omega)

/-- The cycles a walk has found by the time it comes to a day: in the order of their
closes, all of them past. -/
structure WalkedTo (account : Account) (cursor : Int) (cycles : List CreditCardCycle) : Prop where
  inOrder : cycles.Pairwise (fun c d => c.periodEndInclusive < d.periodEndInclusive)
  past : ∀ c ∈ cycles, c.periodEndInclusive < cursor
  payment : ∀ c ∈ cycles, resolvePaymentDate c.periodEndInclusive (account.paymentDay.getD 1)
    (account.paymentDayRelativeMonth.getD 1) = .ok c.paymentDate

theorem walkCycles_walked {account : Account} {closeDay : Nat} {pStart pEnd : Int} {steps : Nat} {cursor : Int}
    {seen : List Int} {cycles found : List CreditCardCycle} (h : WalkedTo account cursor cycles)
    (hwalk : walkCycles account closeDay pStart pEnd steps cursor seen cycles = .ok found) :
    ∃ last, WalkedTo account last found := by
  induction steps generalizing cursor seen cycles with
  | zero =>
    obtain rfl := Except.ok.inj hwalk
    exact ⟨cursor, h⟩
  | succ steps ih =>
    simp only [walkCycles] at hwalk
    obtain ⟨cycle, hcycle, hwalk⟩ := bind_eq_ok.mp hwalk
    obtain ⟨hclose, hpayment⟩ := resolveCycle_spec hcycle
    split at hwalk
    · obtain ⟨next, hnext, hwalk⟩ := bind_eq_ok.mp hwalk
      obtain rfl : cycle.periodEndInclusive + 1 = next := by
        unfold dayAfter at hnext
        split at hnext
        · cases hnext
        · exact Except.ok.inj hnext
      exact ih ⟨h.inOrder, fun c hc => by have := h.past c hc; omega, h.payment⟩ hwalk
    · split at hwalk
      · obtain rfl := Except.ok.inj hwalk
        exact ⟨cursor, h⟩
      · obtain ⟨next, hnext, hwalk⟩ := bind_eq_ok.mp hwalk
        obtain rfl : cycle.periodEndInclusive + 1 = next := by
          unfold dayAfter at hnext
          split at hnext
          · cases hnext
          · exact Except.ok.inj hnext
        refine ih ?_ hwalk
        split
        · -- the cycle found closes on the day the walk has come to, or later
          refine ⟨List.pairwise_append.mpr ⟨h.inOrder, by simp, ?_⟩, ?_, ?_⟩
          · intro c hc d hd
            obtain rfl := List.mem_singleton.mp hd
            have := h.past c hc
            omega
          · intro c hc
            rcases List.mem_append.mp hc with hc | hc
            · have := h.past c hc
              omega
            · obtain rfl := List.mem_singleton.mp hc
              omega
          · intro c hc
            rcases List.mem_append.mp hc with hc | hc
            · exact h.payment c hc
            · obtain rfl := List.mem_singleton.mp hc
              exact hpayment
        · exact ⟨h.inOrder, fun c hc => by have := h.past c hc; omega, h.payment⟩

/-- **The cycles due in a horizon come in the order of their closes.** -/
theorem dueCycles_inOrder {account : Account} {closeDay : Nat} {pStart pEnd : Int} {cycles : List CreditCardCycle}
    (h : dueCyclesInHorizon account closeDay pStart pEnd = .ok cycles) :
    cycles.Pairwise (fun c d => c.periodEndInclusive < d.periodEndInclusive) := by
  simp only [dueCyclesInHorizon] at h
  obtain ⟨cursor, _, h⟩ := bind_eq_ok.mp h
  obtain ⟨found, hwalk, h⟩ := bind_eq_ok.mp h
  obtain rfl := Except.ok.inj h
  obtain ⟨last, hwalked⟩ := walkCycles_walked ⟨List.Pairwise.nil, by simp, by simp⟩ hwalk
  have hpayments : found.Pairwise (fun c d => c.paymentDate ≤ d.paymentDate) := by
    refine hwalked.inOrder.imp_of_mem fun hc hd hlt => ?_
    exact paymentDate_mono hlt.le (hwalked.payment _ hc) (hwalked.payment _ hd)
  rw [hpayments.insertionSort_eq]
  exact hwalked.inOrder

/-! ## The credits a cycle owns -/

/-- Dated after the close of a cycle, and by its payment. -/
def InPaymentWindow (cycle : CreditCardCycle) (credit : Credit) : Prop :=
  cycle.periodEndInclusive < credit.on ∧ credit.on ≤ cycle.paymentDate

instance decidableInPaymentWindow (cycle : CreditCardCycle) (credit : Credit) :
    Decidable (InPaymentWindow cycle credit) :=
  inferInstanceAs (Decidable (_ ∧ _))

/-- No credit is dated in the windows of two cycles. -/
def OneWindowEach (cycles : List CreditCardCycle) (credits : List Credit) : Prop :=
  cycles.Pairwise (fun c d => ∀ credit ∈ credits, InPaymentWindow c credit → ¬ InPaymentWindow d credit)

/-- What credits come to. -/
def sumOf (credits : List Credit) : Int := (credits.map (·.amount)).sum

/-- Those in the window of a cycle that no cycle before it owns. -/
def unowned (cycle : CreditCardCycle) (credits : List Credit) (consumed : List CreditKey) : List Credit :=
  credits.filter (fun c => decide (InPaymentWindow cycle c) && !consumed.contains c.key)

theorem ownCredits_from (cycle : CreditCardCycle) (credits : List Credit) (owned : Int) (consumed : List CreditKey)
    (hkeys : (credits.map (·.key)).Nodup) :
    let result := credits.foldl (fun acc credit =>
      if acc.2.contains credit.key then acc
      else if cycle.periodEndInclusive < credit.on ∧ credit.on ≤ cycle.paymentDate then
        (acc.1 + credit.amount, credit.key :: acc.2)
      else acc) (owned, consumed)
    result.1 = owned + sumOf (unowned cycle credits consumed) ∧
      ∀ key, key ∈ result.2 ↔ key ∈ consumed ∨ ∃ c ∈ credits, c.key = key ∧ InPaymentWindow cycle c := by
  induction credits generalizing owned consumed with
  | nil => simp [sumOf, unowned]
  | cons credit credits ih =>
    obtain ⟨hfresh, hkeys⟩ := List.nodup_cons.mp hkeys
    rw [List.foldl_cons]
    by_cases hold : credit.key ∈ consumed
    · rw [if_pos (by simpa using hold)]
      obtain ⟨hsum, hmem⟩ := ih owned consumed hkeys
      refine ⟨?_, fun key => ?_⟩
      · rw [hsum, unowned, unowned, List.filter_cons_of_neg (by simp [hold])]
      · rw [hmem, List.exists_mem_cons_iff]
        constructor
        · exact Or.imp_right .inr
        · rintro (h | ⟨rfl, -⟩ | h)
          · exact .inl h
          · exact .inl hold
          · exact .inr h
    · rw [if_neg (by simpa using hold)]
      by_cases hin : InPaymentWindow cycle credit
      · rw [if_pos (show cycle.periodEndInclusive < credit.on ∧ credit.on ≤ cycle.paymentDate from hin)]
        obtain ⟨hsum, hmem⟩ := ih (owned + credit.amount) (credit.key :: consumed) hkeys
        -- no later credit goes by this one's key
        have hsame : unowned cycle credits (credit.key :: consumed) = unowned cycle credits consumed := by
          refine List.filter_congr fun c hc => ?_
          have hne : c.key ≠ credit.key := fun he => hfresh (List.mem_map.mpr ⟨c, hc, he⟩)
          simp [hne]
        refine ⟨?_, fun key => ?_⟩
        · rw [hsum, hsame, unowned, unowned, List.filter_cons_of_pos (by simp [hin, hold]), sumOf, sumOf,
            List.map_cons, List.sum_cons]
          omega
        · rw [hmem, List.exists_mem_cons_iff, List.mem_cons]
          constructor
          · rintro ((rfl | h) | h)
            · exact .inr (.inl ⟨rfl, hin⟩)
            · exact .inl h
            · exact .inr (.inr h)
          · rintro (h | ⟨rfl, -⟩ | h)
            · exact .inl (.inr h)
            · exact .inl (.inl rfl)
            · exact .inr h
      · rw [if_neg (show ¬ (cycle.periodEndInclusive < credit.on ∧ credit.on ≤ cycle.paymentDate) from hin)]
        obtain ⟨hsum, hmem⟩ := ih owned consumed hkeys
        refine ⟨?_, fun key => ?_⟩
        · rw [hsum, unowned, unowned, List.filter_cons_of_neg (by simp [hin])]
        · rw [hmem, List.exists_mem_cons_iff]
          constructor
          · exact Or.imp_right .inr
          · rintro (h | ⟨-, h⟩ | h)
            · exact .inl h
            · exact absurd h hin
            · exact .inr h

/-- A cycle owns the credits in its window that none before it does. -/
theorem ownCredits_fst (cycle : CreditCardCycle) {credits : List Credit} (consumed : List CreditKey)
    (hkeys : (credits.map (·.key)).Nodup) :
    (ownCredits cycle credits consumed).1 = sumOf (unowned cycle credits consumed) := by
  have h := (ownCredits_from cycle credits 0 consumed hkeys).1
  rw [zero_add] at h
  exact h

theorem mem_ownCredits_snd (cycle : CreditCardCycle) {credits : List Credit} (consumed : List CreditKey)
    (hkeys : (credits.map (·.key)).Nodup) {key : CreditKey} :
    key ∈ (ownCredits cycle credits consumed).2 ↔
      key ∈ consumed ∨ ∃ c ∈ credits, c.key = key ∧ InPaymentWindow cycle c :=
  (ownCredits_from cycle credits 0 consumed hkeys).2 key

theorem sumOf_nonneg {credits : List Credit} (h : ∀ c ∈ credits, 0 < c.amount) : 0 ≤ sumOf credits := by
  refine List.sum_nonneg fun x hx => ?_
  obtain ⟨c, hc, rfl⟩ := List.mem_map.mp hx
  exact (h c hc).le

/-- The credits of a window, as dated amounts. -/
theorem within_credits (credits : List Credit) (cycle : CreditCardCycle) :
    Dated.within (credits.map (fun c => (c.on, c.amount))) cycle.periodEndInclusive cycle.paymentDate =
      sumOf (credits.filter (fun c => decide (InPaymentWindow cycle c))) := by
  induction credits with
  | nil => rfl
  | cons c credits ih =>
    rw [List.map_cons, Dated.within_cons, ih]
    by_cases hc : InPaymentWindow cycle c
    · rw [if_pos (show cycle.periodEndInclusive < (c.on, c.amount).1 ∧ (c.on, c.amount).1 ≤ _ from hc),
        List.filter_cons_of_pos (by simpa using hc), sumOf, sumOf, List.map_cons, List.sum_cons]
    · rw [if_neg (show ¬ (cycle.periodEndInclusive < (c.on, c.amount).1 ∧ (c.on, c.amount).1 ≤ _) from hc),
        List.filter_cons_of_neg (by simpa using hc), zero_add]

/-! ## One card -/

/-- What the caller promises: the positive rows of the ledger are the credits, the
occurrences that are no rows yet are charges, and no amount to pay is negative. -/
structure CardInput (account : Account) (books : CardBooks) : Prop where
  credits : (books.ledger.filter (fun p => decide (0 < p.2))).Perm (books.credits.map (fun c => (c.on, c.amount)))
  keys : (books.credits.map (·.key)).Nodup
  projected : ∀ p ∈ books.projected, p.2 ≤ 0
  fixed : ∀ amount, account.fixedPaymentAmount = some amount → 0 ≤ amount
  perCycle : ∀ month amount, books.perCycleAmount month = some amount → 0 ≤ amount

/-- The projected balance once a payment is made. -/
def balanceAfter (account : Account) (books : CardBooks) (before : List Point) (p : Point) : Int :=
  account.openingBalance + Dated.upTo (books.ledger ++ books.projected) p.1 + Dated.total (before ++ [p])

def NeverInCredit (account : Account) (books : CardBooks) (payments : List Point) : Prop :=
  ∀ before p, before ++ [p] <+: payments → balanceAfter account books before p ≤ 0

/-- No payment of the horizon leaves the card in credit. -/
def NeverPaidIntoCredit (account : Account) (closeDay : Nat) (pStart pEnd : Int) (books : CardBooks) : Prop :=
  ∀ payments, synthesizeAccountCcPayments account closeDay pStart pEnd books = .ok payments →
    NeverInCredit account books payments

section Card

variable {account : Account} {books : CardBooks} {run : CardRun} {cycle : CreditCardCycle}

/-- The ledger a cycle goes by. -/
def CardBooks.ledgerFor (books : CardBooks) (cycle : CreditCardCycle) : List Point :=
  if books.projectedAfter < cycle.paymentDate then books.ledger ++ books.projected else books.ledger

/-- What is left to pay of a cycle, before its credits. -/
def cappedTarget (account : Account) (books : CardBooks) (run : CardRun) (cycle : CreditCardCycle) : Int :=
  let outstanding := outstandingAtClose
    (balanceAtClose account.openingBalance (books.ledgerFor cycle) cycle.periodEndInclusive)
  min (ccTargetPayment account cycle outstanding books.perCycleAmount) (outstanding - run.sPrev)

/-- The payment of a cycle, or nothing. -/
def outflowOf (account : Account) (books : CardBooks) (run : CardRun) (cycle : CreditCardCycle) : Int :=
  max 0 (cappedTarget account books run cycle - sumOf (unowned cycle books.credits run.consumed))

theorem payCycle_degenerate (h : cycle.paymentDate ≤ cycle.periodEndInclusive) :
    payCycle account books run cycle = run := if_pos h

/-- **What a cycle does**, unless it is degenerate. -/
theorem payCycle_eq (hkeys : (books.credits.map (·.key)).Nodup) (h : cycle.periodEndInclusive < cycle.paymentDate) :
    payCycle account books run cycle =
      { sPrev := run.sPrev + outflowOf account books run cycle
        consumed := (ownCredits cycle books.credits run.consumed).2
        payments := if 0 < outflowOf account books run cycle then
            run.payments ++ [(cycle.paymentDate, outflowOf account books run cycle)]
          else run.payments } := by
  have hown := ownCredits_fst cycle run.consumed hkeys
  rw [payCycle, if_neg (by omega), outflowOf, ← hown]
  generalize ownCredits cycle books.credits run.consumed = own
  obtain ⟨owned, consumed⟩ := own
  rfl

/-- A degenerate cycle has no window. -/
theorem not_inPaymentWindow_of_degenerate (h : cycle.paymentDate ≤ cycle.periodEndInclusive) (credit : Credit) :
    ¬ InPaymentWindow cycle credit := by
  intro hin
  unfold InPaymentWindow at hin
  omega

theorem CardInput.credit_pos (h : CardInput account books) : ∀ c ∈ books.credits, 0 < c.amount := by
  intro c hc
  have hmem := h.credits.mem_iff.mpr (List.mem_map_of_mem (f := fun c : Credit => (c.on, c.amount)) hc)
  simpa using (List.mem_filter.mp hmem).2

/-- What the credits of a window can lift the ledger by. -/
theorem CardInput.within_le (h : CardInput account books) (cycle : CreditCardCycle) :
    Dated.within books.ledger cycle.periodEndInclusive cycle.paymentDate ≤
      sumOf (books.credits.filter (fun c => decide (InPaymentWindow cycle c))) := by
  rw [← within_credits, ← Dated.within_perm h.credits]
  exact Dated.within_le_pos ..

/-- A payment lifts the balance by no more than the credits of its window that an earlier
cycle owns. -/
theorem balanceAfter_le (hinput : CardInput account books) (hs : run.sPrev = Dated.total run.payments)
    (hnonneg : 0 ≤ run.sPrev) (hlt : cycle.periodEndInclusive < cycle.paymentDate)
    (hpos : 0 < outflowOf account books run cycle) :
    balanceAfter account books run.payments (cycle.paymentDate, outflowOf account books run cycle) ≤
      sumOf (books.credits.filter (fun c => decide (InPaymentWindow cycle c))) -
        sumOf (unowned cycle books.credits run.consumed) := by
  have hcredits := hinput.within_le cycle
  have hledger := Dated.upTo_eq_add_within books.ledger hlt.le
  have hprojected := Dated.upTo_eq_add_within books.projected hlt.le
  have hcharges := Dated.within_nonpos hinput.projected cycle.periodEndInclusive cycle.paymentDate
  have hcharges' := Dated.upTo_nonpos hinput.projected cycle.periodEndInclusive
  have howned : 0 ≤ sumOf (unowned cycle books.credits run.consumed) :=
    sumOf_nonneg fun c hc => hinput.credit_pos c (List.mem_of_mem_filter hc)
  -- the balance at the close, by the ledger the cycle goes by
  have hclose : account.openingBalance + Dated.upTo books.ledger cycle.periodEndInclusive +
      Dated.upTo books.projected cycle.periodEndInclusive ≤
        balanceAtClose account.openingBalance (books.ledgerFor cycle) cycle.periodEndInclusive := by
    unfold balanceAtClose CardBooks.ledgerFor
    split
    · rw [Dated.upTo_append]
      omega
    · omega
  have hcapped : cappedTarget account books run cycle ≤
      outstandingAtClose (balanceAtClose account.openingBalance (books.ledgerFor cycle) cycle.periodEndInclusive) -
        run.sPrev := min_le_right _ _
  have houtflow : outflowOf account books run cycle =
      cappedTarget account books run cycle - sumOf (unowned cycle books.credits run.consumed) := by
    unfold outflowOf at hpos ⊢
    omega
  unfold outstandingAtClose at hcapped
  unfold balanceAfter
  rw [Dated.upTo_append, Dated.total_append, ← hs]
  have htotal : Dated.total [(cycle.paymentDate, outflowOf account books run cycle)] =
      outflowOf account books run cycle := by simp [Dated.total]
  rw [htotal]
  show account.openingBalance + (Dated.upTo books.ledger cycle.paymentDate +
    Dated.upTo books.projected cycle.paymentDate) + (run.sPrev + outflowOf account books run cycle) ≤ _
  omega

/-- What holds between two cycles of a horizon. -/
structure PaidSoFar (account : Account) (books : CardBooks) (run : CardRun) : Prop where
  sum : run.sPrev = Dated.total run.payments
  nonneg : 0 ≤ run.sPrev
  inDebt : NeverInCredit account books run.payments

/-- **A cycle whose credits are all its own leaves the card owing or clear.** -/
theorem PaidSoFar.step (hinput : CardInput account books) (h : PaidSoFar account books run)
    (hown : ∀ c ∈ books.credits, InPaymentWindow cycle c → c.key ∉ run.consumed) :
    PaidSoFar account books (payCycle account books run cycle) := by
  rcases le_or_gt cycle.paymentDate cycle.periodEndInclusive with hdeg | hlt
  · rw [payCycle_degenerate hdeg]
    exact h
  · rw [payCycle_eq hinput.keys hlt]
    have hnonneg : 0 ≤ outflowOf account books run cycle := le_max_left _ _
    rcases hnonneg.eq_or_lt with hzero | hpos
    · rw [← hzero]
      exact ⟨by simpa using h.sum, by simpa using h.nonneg, h.inDebt⟩
    · rw [if_pos hpos]
      refine ⟨?_, ?_, ?_⟩
      · show run.sPrev + _ = _
        rw [Dated.total_append, h.sum]
        simp [Dated.total]
      · have := h.nonneg
        show 0 ≤ run.sPrev + _
        omega
      · intro before p hp
        rcases List.prefix_concat_iff.mp hp with he | hp
        · obtain ⟨rfl, rfl⟩ := List.append_inj' he rfl |>.imp_right List.singleton_inj.mp
          have hle := balanceAfter_le hinput h.sum h.nonneg hlt hpos
          have hall : unowned cycle books.credits run.consumed =
              books.credits.filter (fun c => decide (InPaymentWindow cycle c)) := by
            refine List.filter_congr fun c hc => ?_
            by_cases hin : InPaymentWindow cycle c
            · simp [hin, hown c hc hin]
            · simp [hin]
          rw [hall] at hle
          omega
        · exact h.inDebt before p hp

theorem consumed_payCycle (hkeys : (books.credits.map (·.key)).Nodup) {key : CreditKey} :
    key ∈ (payCycle account books run cycle).consumed ↔
      key ∈ run.consumed ∨ ∃ c ∈ books.credits, c.key = key ∧ InPaymentWindow cycle c := by
  rcases le_or_gt cycle.paymentDate cycle.periodEndInclusive with hdeg | hlt
  · rw [payCycle_degenerate hdeg]
    constructor
    · exact .inl
    · rintro (h | ⟨c, -, -, hin⟩)
      · exact h
      · exact absurd hin (not_inPaymentWindow_of_degenerate hdeg c)
  · rw [payCycle_eq hkeys hlt]
    exact mem_ownCredits_snd cycle run.consumed hkeys

/-- **While no credit is in two windows, no payment of the horizon takes the card into credit.** -/
theorem PaidSoFar.fold (hinput : CardInput account books) {cycles : List CreditCardCycle}
    (h : PaidSoFar account books run) (hone : OneWindowEach cycles books.credits)
    (hown : ∀ cycle ∈ cycles, ∀ c ∈ books.credits, InPaymentWindow cycle c → c.key ∉ run.consumed) :
    PaidSoFar account books (cycles.foldl (payCycle account books) run) := by
  induction cycles generalizing run with
  | nil => exact h
  | cons cycle cycles ih =>
    obtain ⟨hapart, hone⟩ := List.pairwise_cons.mp hone
    rw [List.foldl_cons]
    refine ih (h.step hinput (hown cycle List.mem_cons_self)) hone ?_
    intro later hlater c hc hin hmem
    rcases (consumed_payCycle hinput.keys).mp hmem with hold | ⟨c', hc', hkey, hin'⟩
    · exact hown later (List.mem_cons_of_mem _ hlater) c hc hin hold
    · -- the key is one credit's, which would be in both windows
      obtain rfl := List.inj_on_of_nodup_map hinput.keys hc' hc hkey
      exact hapart later hlater c' hc' hin' hin

/-! ## A credit in two windows -/

theorem prefix_ite (c : Prop) [Decidable c] (points more : List Point) :
    points <+: if c then points ++ more else points := by
  split
  · exact List.prefix_append _ _
  · exact List.prefix_rfl

theorem payments_extend (cycles : List CreditCardCycle) (run : CardRun) :
    run.payments <+: (cycles.foldl (payCycle account books) run).payments := by
  induction cycles generalizing run with
  | nil => exact List.prefix_rfl
  | cons cycle cycles ih =>
    rw [List.foldl_cons]
    refine List.IsPrefix.trans ?_ (ih _)
    rcases le_or_gt cycle.paymentDate cycle.periodEndInclusive with hdeg | hlt
    · rw [payCycle_degenerate hdeg]
    · rw [payCycle, if_neg (by omega)]
      exact prefix_ite ..

theorem sumOf_filter_le {credits : List Credit} (hpos : ∀ c ∈ credits, 0 < c.amount) {p q : Credit → Bool}
    (hpq : ∀ c, q c = true → p c = true) : sumOf (credits.filter q) ≤ sumOf (credits.filter p) := by
  induction credits with
  | nil => exact le_rfl
  | cons c credits ih =>
    have hc := hpos c List.mem_cons_self
    have hle := ih fun d hd => hpos d (List.mem_cons_of_mem _ hd)
    unfold sumOf at hle ⊢
    rw [List.filter_cons, List.filter_cons]
    by_cases hq : q c = true
    · rw [if_pos hq, if_pos (hpq c hq), List.map_cons, List.map_cons, List.sum_cons, List.sum_cons]
      omega
    · rw [if_neg hq]
      split
      · rw [List.map_cons, List.sum_cons]
        omega
      · exact hle

theorem sumOf_filter_lt {credits : List Credit} (hpos : ∀ c ∈ credits, 0 < c.amount) {p q : Credit → Bool}
    (hpq : ∀ c, q c = true → p c = true) {c : Credit} (hc : c ∈ credits) (hp : p c = true) (hq : ¬ q c = true) :
    sumOf (credits.filter q) < sumOf (credits.filter p) := by
  obtain ⟨before, after, rfl⟩ := List.append_of_mem hc
  have hbefore : ∀ d ∈ before, 0 < d.amount := fun d hd => hpos d (List.mem_append_left _ hd)
  have hafter : ∀ d ∈ after, 0 < d.amount :=
    fun d hd => hpos d (List.mem_append_right _ (List.mem_cons_of_mem _ hd))
  have hle := sumOf_filter_le hbefore hpq
  have hle' := sumOf_filter_le hafter hpq
  have := hpos c hc
  unfold sumOf at hle hle' ⊢
  rw [List.filter_append, List.filter_append, List.filter_cons_of_neg hq, List.filter_cons_of_pos hp]
  simp only [List.map_append, List.map_cons, List.sum_append, List.sum_cons]
  omega

/-- These credits, and one charge at a close that outweighs them. -/
def chargedAt (credits : List Credit) (close : Int) : CardBooks where
  ledger := credits.map (fun c => (c.on, c.amount)) ++ [(close, -(sumOf credits + 1))]
  credits := credits
  perCycleAmount _ := none
  projected := []
  projectedAfter := 0

/-- The card with these days, clear, and paid in full. -/
def paidInFull (account : Account) : Account :=
  { account with openingBalance := 0, paymentStrategy := some .fullBalance, fixedPaymentAmount := none }

theorem chargedAt_input {credits : List Credit} (hpos : ∀ c ∈ credits, 0 < c.amount)
    (hkeys : (credits.map (·.key)).Nodup) (close : Int) :
    CardInput (paidInFull account) (chargedAt credits close) where
  credits := by
    have hsum := sumOf_nonneg hpos
    have hcharge : ¬ 0 < (close, -(sumOf credits + 1)).2 := by
      show ¬ 0 < -(sumOf credits + 1)
      omega
    have hcredits : (credits.map (fun c => (c.on, c.amount))).filter (fun p => decide (0 < p.2)) =
        credits.map (fun c => (c.on, c.amount)) := by
      refine List.filter_eq_self.mpr fun p hp => ?_
      obtain ⟨c, hc, rfl⟩ := List.mem_map.mp hp
      simpa using hpos c hc
    rw [chargedAt, List.filter_append, hcredits, List.filter_cons_of_neg (by simpa using hcharge), List.filter_nil,
      List.append_nil]
  keys := hkeys
  projected := by simp [chargedAt]
  fixed := by simp [paidInFull]
  perCycle := by simp [chargedAt]

/-- The balance at a close: the credits, and from the charge on the charge. -/
theorem balance_chargedAt (credits : List Credit) (charged : Int) (cycle : CreditCardCycle) (day : Int) :
    balanceAtClose (paidInFull account).openingBalance ((chargedAt credits charged).ledgerFor cycle) day =
      Dated.upTo (credits.map (fun c => (c.on, c.amount))) day +
        if charged ≤ day then -(sumOf credits + 1) else 0 := by
  have hledger : (chargedAt credits charged).ledgerFor cycle = (chargedAt credits charged).ledger := by
    unfold CardBooks.ledgerFor
    split
    · exact List.append_nil _
    · rfl
  rw [hledger, balanceAtClose, chargedAt, Dated.upTo_append, Dated.upTo_cons, Dated.upTo_nil]
  show (0 : Int) + _ = _
  omega

theorem cappedTarget_chargedAt (credits : List Credit) (charged : Int) (cycle : CreditCardCycle) (hs : run.sPrev = 0) :
    cappedTarget (paidInFull account) (chargedAt credits charged) run cycle =
      max 0 (-(Dated.upTo (credits.map (fun c => (c.on, c.amount))) cycle.periodEndInclusive +
        if charged ≤ cycle.periodEndInclusive then -(sumOf credits + 1) else 0)) := by
  have htarget : ∀ outstanding, ccTargetPayment (paidInFull account) cycle outstanding
      (chargedAt credits charged).perCycleAmount = outstanding := fun _ => rfl
  rw [cappedTarget, balance_chargedAt, hs]
  rw [htarget, Int.sub_zero, min_self, outstandingAtClose]

theorem upTo_credits_le {credits : List Credit} (hpos : ∀ c ∈ credits, 0 < c.amount) (day : Int) :
    0 ≤ Dated.upTo (credits.map (fun c => (c.on, c.amount))) day ∧
      Dated.upTo (credits.map (fun c => (c.on, c.amount))) day ≤ sumOf credits := by
  induction credits with
  | nil => exact ⟨le_rfl, le_rfl⟩
  | cons c credits ih =>
    obtain ⟨hnonneg, hle⟩ := ih fun d hd => hpos d (List.mem_cons_of_mem _ hd)
    have hc := hpos c List.mem_cons_self
    unfold sumOf at hle ⊢
    rw [List.map_cons, Dated.upTo_cons, List.map_cons, List.sum_cons]
    dsimp only
    split <;> omega

/-- Before the charge there is nothing to pay. -/
theorem quiet_before (account : Account) {credits : List Credit} (hpos : ∀ c ∈ credits, 0 < c.amount)
    (hkeys : (credits.map (·.key)).Nodup) (charged : Int) {cycles : List CreditCardCycle}
    (hbefore : ∀ c ∈ cycles, c.periodEndInclusive < charged) (hs : run.sPrev = 0) (hp : run.payments = []) :
    (cycles.foldl (payCycle (paidInFull account) (chargedAt credits charged)) run).sPrev = 0 ∧
      (cycles.foldl (payCycle (paidInFull account) (chargedAt credits charged)) run).payments = [] := by
  induction cycles generalizing run with
  | nil => exact ⟨hs, hp⟩
  | cons cycle cycles ih =>
    rw [List.foldl_cons]
    have hrest := fun c hc => hbefore c (List.mem_cons_of_mem _ hc)
    rcases le_or_gt cycle.paymentDate cycle.periodEndInclusive with hdeg | hlt
    · rw [payCycle_degenerate hdeg]
      exact ih hrest hs hp
    · have hzero : outflowOf (paidInFull account) (chargedAt credits charged) run cycle = 0 := by
        have hclose := hbefore cycle List.mem_cons_self
        have hbalance := (upTo_credits_le hpos cycle.periodEndInclusive).1
        have howned : 0 ≤ sumOf (unowned cycle credits run.consumed) :=
          sumOf_nonneg fun c hc => hpos c (List.mem_of_mem_filter hc)
        rw [outflowOf, cappedTarget_chargedAt credits charged cycle hs, if_neg (by omega)]
        show max 0 (_ - sumOf (unowned cycle credits run.consumed)) = 0
        omega
      have hstep : payCycle (paidInFull account) (chargedAt credits charged) run cycle = _ := payCycle_eq hkeys hlt
      refine ih hrest ?_ ?_
      · rw [hstep, hzero, hs]
        rfl
      · rw [hstep, hzero, hp]
        rfl

theorem consumed_fold (account : Account) (hkeys : (books.credits.map (·.key)).Nodup) {key : CreditKey}
    (cycles : List CreditCardCycle) (run : CardRun) : key ∈ (cycles.foldl (payCycle account books) run).consumed ↔
      key ∈ run.consumed ∨ ∃ cycle ∈ cycles, ∃ c ∈ books.credits, c.key = key ∧ InPaymentWindow cycle c := by
  induction cycles generalizing run with
  | nil => simp
  | cons cycle cycles ih => rw [List.foldl_cons, ih, consumed_payCycle hkeys, List.exists_mem_cons_iff, or_assoc]

/-- **A credit in two windows takes the card into credit**, with a charge on the later close
to be paid in full. -/
theorem credit_of_two_windows (account : Account) {credits : List Credit} (hpos : ∀ c ∈ credits, 0 < c.amount)
    (hkeys : (credits.map (·.key)).Nodup) {before : List CreditCardCycle} (after : List CreditCardCycle)
    {earlier later : CreditCardCycle} (hinOrder : ∀ c ∈ before, c.periodEndInclusive < later.periodEndInclusive)
    (hearlier : earlier ∈ before) {credit : Credit} (hcredit : credit ∈ credits)
    (hin : InPaymentWindow earlier credit) (hin' : InPaymentWindow later credit) :
    ¬ NeverInCredit (paidInFull account) (chargedAt credits later.periodEndInclusive)
      ((before ++ later :: after).foldl (payCycle (paidInFull account) (chargedAt credits later.periodEndInclusive))
        {}).payments := by
  have hkeys' : ((chargedAt credits later.periodEndInclusive).credits.map (·.key)).Nodup := hkeys
  obtain ⟨hs, hp⟩ := quiet_before account hpos hkeys later.periodEndInclusive hinOrder
    (show ({} : CardRun).sPrev = 0 from rfl) rfl
  have hconsumed := (consumed_fold (paidInFull account) hkeys' before {}).mpr
    (.inr ⟨earlier, hearlier, credit, hcredit, rfl, hin⟩)
  rw [List.foldl_append, List.foldl_cons]
  generalize before.foldl (payCycle (paidInFull account) (chargedAt credits later.periodEndInclusive)) {} = run
    at hs hp hconsumed
  have hlt : later.periodEndInclusive < later.paymentDate := lt_of_lt_of_le hin'.1 hin'.2
  -- the cycle owns less than its window holds
  have howned : sumOf (unowned later credits run.consumed) <
      sumOf (credits.filter (fun c => decide (InPaymentWindow later c))) :=
    sumOf_filter_lt hpos (fun c hc => by simp_all) hcredit (by simpa using hin') (by simp [hconsumed])
  have hnonneg : 0 ≤ sumOf (unowned later credits run.consumed) :=
    sumOf_nonneg fun c hc => hpos c (List.mem_of_mem_filter hc)
  have hclose := upTo_credits_le hpos later.periodEndInclusive
  have hpayment := upTo_credits_le hpos later.paymentDate
  have hwindow := Dated.upTo_eq_add_within (credits.map (fun c => (c.on, c.amount))) hlt.le
  rw [within_credits] at hwindow
  have houtflow : outflowOf (paidInFull account) (chargedAt credits later.periodEndInclusive) run later =
      sumOf credits + 1 - Dated.upTo (credits.map (fun c => (c.on, c.amount))) later.periodEndInclusive -
        sumOf (unowned later credits run.consumed) := by
    rw [outflowOf, cappedTarget_chargedAt credits _ later hs, if_pos le_rfl]
    show max 0 (_ - sumOf (unowned later credits run.consumed)) = _
    omega
  have hstep : (payCycle (paidInFull account) (chargedAt credits later.periodEndInclusive) run later).payments =
      [(later.paymentDate, outflowOf (paidInFull account) (chargedAt credits later.periodEndInclusive) run later)] := by
    rw [payCycle_eq hkeys' hlt, hp]
    exact if_pos (by omega)
  intro hnever
  have hfirst := hnever [] _ (hstep ▸ payments_extend after _)
  unfold balanceAfter at hfirst
  rw [List.nil_append] at hfirst
  have htotal : Dated.total [(later.paymentDate,
      outflowOf (paidInFull account) (chargedAt credits later.periodEndInclusive) run later)] =
        outflowOf (paidInFull account) (chargedAt credits later.periodEndInclusive) run later := by simp [Dated.total]
  have hledger : Dated.upTo ((chargedAt credits later.periodEndInclusive).ledger ++
      (chargedAt credits later.periodEndInclusive).projected) later.paymentDate =
        Dated.upTo (credits.map (fun c => (c.on, c.amount))) later.paymentDate - (sumOf credits + 1) := by
    rw [Dated.upTo_append, chargedAt, Dated.upTo_append, Dated.upTo_cons, Dated.upTo_nil,
      if_pos (show (later.periodEndInclusive, -(sumOf credits + 1)).1 ≤ later.paymentDate from hlt.le)]
    omega
  rw [htotal] at hfirst
  dsimp only at hfirst
  rw [hledger, houtflow] at hfirst
  have hclear : (paidInFull account).openingBalance = 0 := rfl
  omega

end Card

/-- The cycles of a card depend on its days alone. -/
theorem dueCycles_congr (card account : Account) (hday : card.paymentDay = account.paymentDay)
    (hrelative : card.paymentDayRelativeMonth = account.paymentDayRelativeMonth) (closeDay : Nat) (pStart pEnd : Int) :
    dueCyclesInHorizon card closeDay pStart pEnd = dueCyclesInHorizon account closeDay pStart pEnd := by
  have hwalk : ∀ steps cursor seen cycles, walkCycles card closeDay pStart pEnd steps cursor seen cycles =
      walkCycles account closeDay pStart pEnd steps cursor seen cycles := by
    intro steps
    induction steps with
    | zero => exact fun _ _ _ => rfl
    | succ steps ih =>
      intro cursor seen cycles
      simp only [walkCycles, hday, hrelative, ih]
  simp only [dueCyclesInHorizon, hrelative, hwalk]

/-- **A card is never paid into credit, whatever it owes and however it is paid, iff none of
its credits is dated in the windows of two cycles due in the horizon.** -/
theorem never_paid_into_credit_iff (account : Account) (closeDay : Nat) (pStart pEnd : Int) (credits : List Credit)
    (hpos : ∀ c ∈ credits, 0 < c.amount) (hkeys : (credits.map (·.key)).Nodup) :
    (∀ card books, card.paymentDay = account.paymentDay →
        card.paymentDayRelativeMonth = account.paymentDayRelativeMonth → books.credits = credits →
        CardInput card books → NeverPaidIntoCredit card closeDay pStart pEnd books) ↔
      ∀ cycles, dueCyclesInHorizon account closeDay pStart pEnd = .ok cycles → OneWindowEach cycles credits := by
  constructor
  · intro hnever cycles hcycles
    have hsorted := dueCycles_inOrder hcycles
    refine List.pairwise_iff_getElem.mpr fun i j hi hj hij credit hcredit hin hin' => ?_
    have hsplit : cycles = cycles.take j ++ cycles[j] :: cycles.drop (j + 1) := by
      rw [List.getElem_cons_drop, List.take_append_drop]
    have hbefore : ∀ c ∈ cycles.take j, c.periodEndInclusive < cycles[j].periodEndInclusive := by
      rw [hsplit] at hsorted
      exact fun c hc => (List.pairwise_append.mp hsorted).2.2 c hc _ List.mem_cons_self
    have hearlier : cycles[i] ∈ cycles.take j := List.mem_take_iff_getElem.mpr ⟨i, by omega, rfl⟩
    refine credit_of_two_windows account hpos hkeys (cycles.drop (j + 1)) hbefore hearlier hcredit hin hin' ?_
    refine hnever (paidInFull account) _ rfl rfl rfl (chargedAt_input hpos hkeys _) _ ?_
    have hsame : dueCyclesInHorizon (paidInFull account) closeDay pStart pEnd =
        dueCyclesInHorizon account closeDay pStart pEnd :=
      dueCycles_congr (paidInFull account) account rfl rfl closeDay pStart pEnd
    rw [synthesizeAccountCcPayments, hsame, hcycles, ← hsplit]
    rfl
  · rintro hone card books hday hrelative rfl hinput payments hpayments
    simp only [synthesizeAccountCcPayments] at hpayments
    obtain ⟨cycles, hcycles, hpayments⟩ := bind_eq_ok.mp hpayments
    obtain rfl := Except.ok.inj hpayments
    rw [dueCycles_congr card account hday hrelative] at hcycles
    have hstart : PaidSoFar card books {} := by
      refine ⟨rfl, le_rfl, ?_⟩
      intro before p hp
      simp at hp
    exact (hstart.fold hinput (hone cycles hcycles) fun _ _ _ _ _ => by simp).inDebt

/-- A card that closes on the 5th and is paid on the 10th of the month after, 1000.00 owed. -/
def overlappingCard : Account :=
  { orgId := 1, name := "Card", slug := .creditCard, closeDay := some 5, paymentDay := some 10
    paymentDayRelativeMonth := some 1, paymentStrategy := some .fullBalance, openingBalance := -100000 }

/-- A payment of 300.00 into it. -/
def paidInOn (day : Int) : CardBooks where
  ledger := [(day, 30000)]
  credits := [{ key := .row 1, on := day, amount := 30000 }]
  perCycleAmount _ := none
  projected := []
  projectedAfter := 0

theorem paidInOn_input (day : Int) : CardInput overlappingCard (paidInOn day) where
  credits := List.Perm.refl _
  keys := List.nodup_singleton _
  projected := by simp [paidInOn]
  fixed := by simp [overlappingCard]
  perCycle := by simp [paidInOn]

/-- Paid in on 2025-01-20, it counts toward the payment of February alone. -/
theorem never_paid_into_credit_january :
    NeverPaidIntoCredit overlappingCard 5 739283 739341 (paidInOn 739271) := by
  have hdue : dueCyclesInHorizon overlappingCard 5 739283 739341 =
      .ok [⟨739226, 739256, 739292⟩, ⟨739257, 739287, 739320⟩] := by decide +kernel
  have hone : ∀ cycles, dueCyclesInHorizon overlappingCard 5 739283 739341 = .ok cycles →
      OneWindowEach cycles (paidInOn 739271).credits := by
    intro cycles hcycles
    obtain rfl := Except.ok.inj (hdue.symm.trans hcycles)
    unfold OneWindowEach
    decide
  exact (never_paid_into_credit_iff overlappingCard 5 739283 739341 (paidInOn 739271).credits (by decide)
    (by decide)).mpr hone overlappingCard (paidInOn 739271) rfl rfl rfl (paidInOn_input 739271)

/-- Paid in on 2025-02-07, after the close of the 5th and before the payment of the 10th,
it is paid again in March: 300.00 in credit. -/
theorem paid_into_credit :
    ¬ ∀ account closeDay pStart pEnd books, CardInput account books →
      NeverPaidIntoCredit account closeDay pStart pEnd books := by
  intro h
  have hpayments : synthesizeAccountCcPayments overlappingCard 5 739283 739341 (paidInOn 739289) =
      .ok [(739292, 70000), (739320, 30000)] := by decide +kernel
  have hbalance := h overlappingCard 5 739283 739341 (paidInOn 739289) (paidInOn_input 739289) _ hpayments
    [(739292, 70000)] (739320, 30000) List.prefix_rfl
  revert hbalance
  decide

end BetterDecision
