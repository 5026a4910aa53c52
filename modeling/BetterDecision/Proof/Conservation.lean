import BetterDecision.Model.ProjectionKernel
import BetterDecision.Proof.Dates

/-!
# The projection conserves

Whatever is booked on an account is in its last point, once: what is dated before the walk
lands on its first day, nothing is dated after its last, and the settled rows laid back on
their days were taken out of the seed first. So the last point of an account is its balance
with everything listed beside it, and less what it pays for its cards and loans.

A card or loan payment takes from one account what it gives to another of the same currency.
Summed over a currency the payments are gone, and only the interest on the loans is lost.
-/

namespace BetterDecision

variable {db : Db} {orgId : Nat}

/-! ## Bookings on an account -/

def bookedOn (bookings : List Booking) (accountId : Nat) : Int := Dated.total (bookingsOn bookings accountId)

theorem bookedOn_cons (b : Booking) (bookings : List Booking) (accountId : Nat) :
    bookedOn (b :: bookings) accountId = (if b.accountId = accountId then b.delta else 0) + bookedOn bookings accountId := by
  unfold bookedOn bookingsOn
  by_cases h : b.accountId = accountId
  · rw [List.filter_cons_of_pos (by simpa using h), if_pos h]
    rfl
  · rw [List.filter_cons_of_neg (by simpa using h), if_neg h, Int.zero_add]

theorem bookedOn_append (bookings more : List Booking) (accountId : Nat) :
    bookedOn (bookings ++ more) accountId = bookedOn bookings accountId + bookedOn more accountId := by
  unfold bookedOn bookingsOn
  rw [List.filter_append, List.map_append, Dated.total_append]

/-- The floor moves a booking's day and nothing else. -/
theorem bookedOn_floored (walkStart : Int) (bookings : List Booking) (accountId : Nat) :
    bookedOn (bookings.map (Booking.floored walkStart)) accountId = bookedOn bookings accountId := by
  have hsame : ∀ b : Booking, (b.floored walkStart).accountId = b.accountId ∧ (b.floored walkStart).delta = b.delta := by
    intro b
    unfold Booking.floored
    split <;> exact ⟨rfl, rfl⟩
  induction bookings with
  | nil => rfl
  | cons b bookings ih => rw [List.map_cons, bookedOn_cons, bookedOn_cons, ih, (hsame b).1, (hsame b).2]

/-- What a card or a loan does to an account: it pays in to itself, and takes from its source. -/
theorem bookedOn_paydown (p : Paydown) (accountId : Nat) :
    bookedOn p.bookings accountId =
      (if p.liabilityId = accountId then Dated.total p.payments - Dated.total p.interest else 0) -
        if p.sourceId = accountId then Dated.total p.payments else 0 := by
  have hinterest : ∀ points : List Point,
      bookedOn (points.map (fun i => { accountId := p.liabilityId, on := i.1, delta := -i.2 })) accountId =
        if p.liabilityId = accountId then -Dated.total points else 0 := by
    intro points
    induction points with
    | nil => exact (ite_self _).symm
    | cons x points ih =>
      rw [List.map_cons, bookedOn_cons, ih]
      have hcons : Dated.total (x :: points) = x.2 + Dated.total points := rfl
      rw [hcons]
      dsimp only
      split <;> omega
  have hpayments : ∀ points : List Point,
      bookedOn (points.flatMap (fun x => [{ accountId := p.sourceId, on := x.1, delta := -x.2 },
        { accountId := p.liabilityId, on := x.1, delta := x.2 }])) accountId =
        (if p.liabilityId = accountId then Dated.total points else 0) -
          if p.sourceId = accountId then Dated.total points else 0 := by
    intro points
    induction points with
    | nil => simp [bookedOn, bookingsOn]
    | cons x points ih =>
      rw [List.flatMap_cons, List.cons_append, List.cons_append, List.nil_append, bookedOn_cons, bookedOn_cons, ih]
      have hcons : Dated.total (x :: points) = x.2 + Dated.total points := rfl
      rw [hcons]
      dsimp only
      split <;> split <;> omega
  unfold Paydown.bookings
  rw [bookedOn_append, hinterest, hpayments]
  split <;> omega

/-! ## The walk -/

/-- The days a walk has a point for. -/
def shownDays (walkStart dailyEnd horizonEnd : Int) : List Int :=
  (Dated.days (horizonEnd + 1 - walkStart).toNat walkStart).filter (fun day =>
    decide (day ≤ dailyEnd ∨ Calendar.dayOf (day + 1) = 1 ∨ day = horizonEnd))

theorem shownDays_sorted (walkStart dailyEnd horizonEnd : Int) :
    (shownDays walkStart dailyEnd horizonEnd).Pairwise (· < ·) :=
  (Dated.days_sorted _ _).filter _

theorem shownDays_getLast? {walkStart dailyEnd horizonEnd : Int} (hstart : walkStart ≤ horizonEnd) :
    (shownDays walkStart dailyEnd horizonEnd).getLast? = some horizonEnd := by
  obtain ⟨n, hn⟩ : ∃ n : Nat, horizonEnd = walkStart + n := ⟨(horizonEnd - walkStart).toNat, by omega⟩
  have hcount : (horizonEnd + 1 - walkStart).toNat = n + 1 := by omega
  unfold shownDays
  rw [hcount, hn]
  apply Dated.getLast?_filter_days
  simp

/-- **The walk shows every amount once**: nothing is dated after its last day, which holds the
seed and everything. -/
theorem walk_conserves {seed walkStart dailyEnd horizonEnd : Int} {perDay points : List Point}
    (hstart : walkStart ≤ horizonEnd) (hdays : ∀ p ∈ perDay, walkStart ≤ p.1 ∧ p.1 ≤ horizonEnd)
    (h : walk seed perDay walkStart dailyEnd horizonEnd = .ok points) :
    points.map Prod.fst = shownDays walkStart dailyEnd horizonEnd ∧
      points.getLast? = some (horizonEnd, seed + Dated.total perDay) := by
  obtain ⟨-, -, h⟩ := bind_eq_ok.mp h
  have hpoints := Except.ok.inj h
  rw [Dated.walk_eq_of_le fun p hp => (hdays p hp).1] at hpoints
  constructor
  · rw [← hpoints, List.map_map]
    exact List.map_id _
  · have hlast : (shownDays walkStart dailyEnd horizonEnd).getLast? = some horizonEnd := shownDays_getLast? hstart
    unfold shownDays at hlast
    rw [← hpoints, List.getLast?_map, hlast, Option.map_some, Dated.upTo_of_le fun p hp => (hdays p hp).2]

/-! ## Where bookings are dated -/

theorem pendingBookings_le {frame : Frame} {b : Booking} (h : b ∈ pendingBookings db orgId frame) :
    b.on ≤ frame.horizonEnd := by
  obtain ⟨row, hrow, rfl⟩ := List.mem_map.mp h
  obtain ⟨-, htest⟩ := Table.mem_select.mp hrow
  simp only [Bool.and_eq_true, decide_eq_true_eq] at htest
  exact htest.1.2.2

theorem futureSettledBookings_le {frame : Frame} {b : Booking} (h : b ∈ futureSettledBookings db orgId frame) :
    b.on ≤ frame.horizonEnd := by
  obtain ⟨row, hrow, rfl⟩ := List.mem_map.mp h
  obtain ⟨-, htest⟩ := Table.mem_select.mp hrow
  simp only [Bool.and_eq_true, decide_eq_true_eq] at htest
  have hle := htest.2.2
  show effectivePeriodDate row.2 ≤ frame.horizonEnd
  omega

theorem seriesWalks_dates {frame : Frame} {w : SeriesWalk} (h : w ∈ seriesWalks db orgId frame) :
    ∀ d ∈ w.dates, d ≤ frame.horizonEnd := by
  obtain ⟨p, -, hw⟩ := List.mem_filterMap.mp h
  dsimp only at hw
  split at hw
  · cases hw
  · obtain rfl := Option.some.inj hw
    intro d hd
    exact (mem_occurrencesInWindow_bounds (List.mem_of_mem_filter hd)).2

theorem recurringBookings_le {frame : Frame} {b : Booking}
    (h : b ∈ recurringBookings (seriesWalks db orgId frame)) : b.on ≤ frame.horizonEnd := by
  obtain ⟨w, hw, hb⟩ := List.mem_flatMap.mp h
  obtain ⟨d, hd, hb⟩ := List.mem_flatMap.mp hb
  obtain ⟨leg, -, rfl⟩ := List.mem_map.mp hb
  exact seriesWalks_dates hw d hd

/-- A cycle the walk finds is paid by the end of the horizon. -/
theorem walkCycles_paid {account : Account} {closeDay : Nat} {pStart pEnd : Int} {steps : Nat} {cursor : Int}
    {seen : List Int} {cycles found : List CreditCardCycle} (h : ∀ c ∈ cycles, c.paymentDate ≤ pEnd)
    (hwalk : walkCycles account closeDay pStart pEnd steps cursor seen cycles = .ok found) :
    ∀ c ∈ found, c.paymentDate ≤ pEnd := by
  induction steps generalizing cursor seen cycles with
  | zero =>
    obtain rfl := Except.ok.inj hwalk
    exact h
  | succ steps ih =>
    simp only [walkCycles] at hwalk
    obtain ⟨cycle, -, hwalk⟩ := bind_eq_ok.mp hwalk
    split at hwalk
    · obtain ⟨next, -, hwalk⟩ := bind_eq_ok.mp hwalk
      exact ih h hwalk
    · split at hwalk
      · obtain rfl := Except.ok.inj hwalk
        exact h
      · obtain ⟨next, -, hwalk⟩ := bind_eq_ok.mp hwalk
        refine ih ?_ hwalk
        split
        · intro c hc
          rcases List.mem_append.mp hc with hc | hc
          · exact h c hc
          · rw [List.mem_singleton.mp hc]
            omega
        · exact h

theorem payCycle_paid {account : Account} {books : CardBooks} {pEnd : Int} {cycles : List CreditCardCycle}
    (hcycles : ∀ c ∈ cycles, c.paymentDate ≤ pEnd) {run : CardRun} (h : ∀ x ∈ run.payments, x.1 ≤ pEnd) :
    ∀ x ∈ (cycles.foldl (payCycle account books) run).payments, x.1 ≤ pEnd := by
  induction cycles generalizing run with
  | nil => exact h
  | cons cycle cycles ih =>
    rw [List.foldl_cons]
    refine ih (fun c hc => hcycles c (List.mem_cons_of_mem _ hc)) ?_
    have hpaid : ∀ (c : Prop) [Decidable c] (outflow : Int),
        ∀ x ∈ (if c then run.payments ++ [(cycle.paymentDate, outflow)] else run.payments), x.1 ≤ pEnd := by
      intro c _ outflow x hx
      split at hx
      · rcases List.mem_append.mp hx with hx | hx
        · exact h x hx
        · rw [List.mem_singleton.mp hx]
          exact hcycles cycle List.mem_cons_self
      · exact h x hx
    unfold payCycle
    split
    · exact h
    · exact hpaid _ _

theorem synthesizeAccountCcPayments_le {account : Account} {closeDay : Nat} {pStart pEnd : Int} {books : CardBooks}
    {payments : List Point} (h : synthesizeAccountCcPayments account closeDay pStart pEnd books = .ok payments) :
    ∀ x ∈ payments, x.1 ≤ pEnd := by
  obtain ⟨cycles, hcycles, h⟩ := bind_eq_ok.mp h
  obtain rfl := Except.ok.inj h
  simp only [dueCyclesInHorizon] at hcycles
  obtain ⟨cursor, -, hcycles⟩ := bind_eq_ok.mp hcycles
  obtain ⟨found, hwalk, hcycles⟩ := bind_eq_ok.mp hcycles
  have hfound := walkCycles_paid (fun c hc => absurd hc List.not_mem_nil) hwalk
  refine payCycle_paid (fun c hc => ?_) fun x hx => absurd hx List.not_mem_nil
  -- the cycles are sorted after the walk
  rw [← Except.ok.inj hcycles] at hc
  exact hfound c ((List.perm_insertionSort _ _).mem_iff.mp hc)

/-- A due date of a loan lies in the period asked for. -/
theorem dueLoanPaymentDatesFrom_bounds {firstPaymentDate pStart pEnd : Int} {n : Nat} {k : Int} {dates : List Int}
    (h : dueLoanPaymentDatesFrom firstPaymentDate pStart pEnd n k = .ok dates) :
    ∀ d ∈ dates, pStart ≤ d ∧ d ≤ pEnd := by
  induction n generalizing k dates with
  | zero =>
    obtain rfl := Except.ok.inj h
    exact fun d hd => absurd hd List.not_mem_nil
  | succ n ih =>
    simp only [dueLoanPaymentDatesFrom] at h
    obtain ⟨d, -, h⟩ := bind_eq_ok.mp h
    split at h
    · obtain rfl := Except.ok.inj h
      exact fun d hd => absurd hd List.not_mem_nil
    · obtain ⟨later, hlater, h⟩ := bind_eq_ok.mp h
      obtain rfl := Except.ok.inj h
      have hrest := ih hlater
      split
      · intro x hx
        rcases List.mem_cons.mp hx with rfl | hx
        · omega
        · exact hrest x hx
      · exact hrest

theorem loanPeriodsAfter_le {firstEnd horizonEnd : Int} {n : Nat} {k last : Int} {periods : List (Int × Int)}
    (h : loanPeriodsAfter firstEnd horizonEnd n k last = .ok periods) : ∀ p ∈ periods, p.2 ≤ horizonEnd := by
  induction n generalizing k last periods with
  | zero =>
    obtain rfl := Except.ok.inj h
    exact fun p hp => absurd hp List.not_mem_nil
  | succ n ih =>
    simp only [loanPeriodsAfter] at h
    split at h
    · obtain ⟨stop, -, h⟩ := bind_eq_ok.mp h
      obtain ⟨later, hlater, h⟩ := bind_eq_ok.mp h
      obtain rfl := Except.ok.inj h
      intro p hp
      rcases List.mem_cons.mp hp with rfl | hp
      · exact Int.min_le_right stop horizonEnd
      · exact ih hlater p hp
    · obtain rfl := Except.ok.inj h
      exact fun p hp => absurd hp List.not_mem_nil

theorem loanPeriods_le {windowStart firstEnd horizonEnd : Int} {periods : List (Int × Int)}
    (h : loanPeriods windowStart firstEnd horizonEnd = .ok periods) : ∀ p ∈ periods, p.2 ≤ horizonEnd := by
  obtain ⟨later, hlater, h⟩ := bind_eq_ok.mp h
  obtain rfl := Except.ok.inj h
  intro p hp
  rcases List.mem_cons.mp hp with rfl | hp
  · exact Int.min_le_right firstEnd horizonEnd
  · exact loanPeriodsAfter_le hlater p hp

/-- The points a loan's run has collected. -/
structure LoanRun.PaidBy (run : LoanRun) (horizonEnd : Int) : Prop where
  payments : ∀ x ∈ run.payments, x.1 ≤ horizonEnd
  interest : ∀ x ∈ run.interest, x.1 ≤ horizonEnd

theorem accrueInterest_paidBy {terms : LoanTerms} {books : LoanBooks} {rate : ℚ} {previous period : Int × Int}
    {run run' : LoanRun} {horizonEnd : Int} (hperiod : period.2 ≤ horizonEnd) (hrun : run.PaidBy horizonEnd)
    (h : accrueInterest terms books rate previous period run = .ok run') : run'.PaidBy horizonEnd := by
  simp only [accrueInterest] at h
  obtain ⟨due, hdue, h⟩ := bind_eq_ok.mp h
  cases due with
  | nil =>
    obtain rfl := Except.ok.inj h
    exact ⟨hrun.payments, hrun.interest⟩
  | cons on later =>
    have hon := (dueLoanPaymentDatesFrom_bounds hdue on List.mem_cons_self).2
    obtain rfl := Except.ok.inj h
    generalize (if run.balance + amountIn books.legsOn previous.1 period.1 < 0 then
      monthInterest (run.balance + amountIn books.legsOn previous.1 period.1) rate else 0) = interest
    split
    · refine ⟨hrun.payments, ?_⟩
      intro x hx
      rcases List.mem_append.mp hx with hx | hx
      · exact hrun.interest x hx
      · rw [List.mem_singleton.mp hx]
        exact Int.le_trans hon hperiod
    · exact ⟨hrun.payments, hrun.interest⟩

theorem synthesizeAccountLoanPayment_le {firstPaymentDate balance pmt pStart pEnd : Int} {termMonths : Nat}
    {alreadyPaid : Bool} {payments : List Point}
    (h : synthesizeAccountLoanPayment firstPaymentDate termMonths balance pmt pStart pEnd alreadyPaid = .ok payments) :
    ∀ x ∈ payments, pStart ≤ x.1 ∧ x.1 ≤ pEnd := by
  unfold synthesizeAccountLoanPayment at h
  split at h
  · obtain rfl := Except.ok.inj h
    exact fun x hx => absurd hx List.not_mem_nil
  · obtain ⟨dates, hdates, h⟩ := bind_eq_ok.mp h
    cases dates with
    | nil =>
      obtain rfl := Except.ok.inj h
      exact fun x hx => absurd hx List.not_mem_nil
    | cons payDate later =>
      obtain rfl := Except.ok.inj h
      intro x hx
      split at hx
      · exact absurd hx List.not_mem_nil
      · rw [List.mem_singleton.mp hx]
        exact dueLoanPaymentDatesFrom_bounds hdates payDate List.mem_cons_self

theorem payLoanPeriod_paidBy {terms : LoanTerms} {books : LoanBooks} {pmt : Int} {rate : ℚ} {run run' : LoanRun}
    {periods : Option (Int × Int) × (Int × Int)} {horizonEnd : Int} (hperiod : periods.2.2 ≤ horizonEnd)
    (hrun : run.PaidBy horizonEnd) (h : payLoanPeriod terms books pmt rate run periods = .ok run') :
    run'.PaidBy horizonEnd := by
  obtain ⟨previous, period⟩ := periods
  obtain ⟨opened, hopen, h⟩ : ∃ opened : LoanRun, opened.PaidBy horizonEnd ∧ (do
      let past ← dayAfter period.2
      let payments ← synthesizeAccountLoanPayment terms.firstPaymentDate terms.termMonths
        (opened.balance + amountIn books.legsOn period.1 past) pmt period.1 period.2 (books.paidIn pmt period.1 period.2)
      .ok { opened with
        balance := opened.balance + (payments.map Prod.snd).sum
        payments := opened.payments ++ payments }) = Except.ok run' := by
    cases previous with
    -- the first period accrues nothing
    | none => exact ⟨run, hrun, h⟩
    | some previous =>
      obtain ⟨opened, hopened, h⟩ := bind_eq_ok.mp h
      exact ⟨opened, accrueInterest_paidBy hperiod hrun hopened, h⟩
  obtain ⟨past, -, h⟩ := bind_eq_ok.mp h
  obtain ⟨payments, hpayments, h⟩ := bind_eq_ok.mp h
  obtain rfl := Except.ok.inj h
  refine ⟨?_, hopen.interest⟩
  intro x hx
  rcases List.mem_append.mp hx with hx | hx
  · exact hopen.payments x hx
  · exact Int.le_trans (synthesizeAccountLoanPayment_le hpayments x hx).2 hperiod

theorem foldlM_payLoanPeriod_paidBy {terms : LoanTerms} {books : LoanBooks} {pmt : Int} {rate : ℚ} {horizonEnd : Int}
    {periods : List (Option (Int × Int) × (Int × Int))} (hperiods : ∀ p ∈ periods, p.2.2 ≤ horizonEnd)
    {run run' : LoanRun} (hrun : run.PaidBy horizonEnd)
    (h : periods.foldlM (payLoanPeriod terms books pmt rate) run = .ok run') : run'.PaidBy horizonEnd := by
  induction periods generalizing run with
  | nil =>
    rw [List.foldlM_nil, pure_eq_ok] at h
    rw [← h]
    exact hrun
  | cons p periods ih =>
    rw [List.foldlM_cons] at h
    obtain ⟨mid, hmid, h⟩ := bind_eq_ok.mp h
    exact ih (fun q hq => hperiods q (List.mem_cons_of_mem _ hq))
      (payLoanPeriod_paidBy (hperiods p List.mem_cons_self) hrun hmid) h

/-! ## Paydowns -/

/-- A card or loan on an active account, paid from the active account of its currency it names,
by the end of the horizon. -/
structure Paydown.Sound (db : Db) (orgId : Nat) (horizonEnd : Int) (p : Paydown) : Prop where
  pair : ∃ liability source, (p.liabilityId, liability) ∈ activeAccounts db orgId ∧
    (p.sourceId, source) ∈ activeAccounts db orgId ∧ liability.paymentSourceAccountId = some p.sourceId ∧
      source.currency = liability.currency
  payments : ∀ x ∈ p.payments, x.1 ≤ horizonEnd
  interest : ∀ x ∈ p.interest, x.1 ≤ horizonEnd

theorem mem_activeAccounts {i : Nat} {a : Account} :
    (i, a) ∈ activeAccounts db orgId ↔ db.accounts.get? i = some a ∧ a.orgId = orgId ∧ a.isActive = true := by
  unfold activeAccounts
  rw [Table.mem_select, Bool.and_eq_true, beq_iff_eq]

theorem fundingAccount_isSome {sourceId : Nat} {liability : Account}
    (h : (fundingAccount db orgId sourceId liability).isSome = true) :
    ∃ source, (sourceId, source) ∈ activeAccounts db orgId ∧ source.currency = liability.currency := by
  unfold fundingAccount at h
  rw [Option.isSome_map, Option.isSome_iff_exists] at h
  obtain ⟨source, hsource⟩ := h
  obtain ⟨hactive, hcurrency⟩ := Option.filter_eq_some_iff.mp hsource
  obtain ⟨hfind, hisActive⟩ := Option.filter_eq_some_iff.mp hactive
  obtain ⟨hget, horg⟩ := Option.filter_eq_some_iff.mp hfind
  exact ⟨source, mem_activeAccounts.mpr ⟨hget, beq_iff_eq.mp horg, hisActive⟩, beq_iff_eq.mp hcurrency⟩

theorem cardAccounts_spec {cardId closeDay sourceId : Nat} {card : Account}
    (h : (cardId, card, closeDay, sourceId) ∈ cardAccounts db orgId) :
    (cardId, card) ∈ activeAccounts db orgId ∧ card.paymentSourceAccountId = some sourceId := by
  obtain ⟨⟨i, a⟩, ha, hcard⟩ := List.mem_filterMap.mp h
  dsimp only at hcard
  split at hcard
  · rename_i hsource
    split at hcard
    · obtain ⟨rfl, hrest⟩ := Prod.mk.inj (Option.some.inj hcard)
      obtain ⟨rfl, hdays⟩ := Prod.mk.inj hrest
      obtain ⟨-, rfl⟩ := Prod.mk.inj hdays
      exact ⟨ha, hsource⟩
    · cases hcard
  · cases hcard

theorem loanTerms_source {a : Account} {terms : LoanTerms} (h : loanTerms a = some terms) :
    a.paymentSourceAccountId = some terms.sourceId := by
  obtain ⟨sourceId, hsource, h⟩ := Option.bind_eq_some_iff.mp h
  obtain ⟨_, -, h⟩ := Option.bind_eq_some_iff.mp h
  obtain ⟨_, -, h⟩ := Option.bind_eq_some_iff.mp h
  obtain ⟨_, -, h⟩ := Option.bind_eq_some_iff.mp h
  obtain ⟨_, -, h⟩ := Option.bind_eq_some_iff.mp h
  obtain ⟨_, -, h⟩ := Option.bind_eq_some_iff.mp h
  rw [hsource, ← Option.some.inj h]

theorem loanAccounts_spec {loanId : Nat} {loan : Account} {terms : LoanTerms}
    (h : (loanId, loan, terms) ∈ loanAccounts db orgId) :
    (loanId, loan) ∈ activeAccounts db orgId ∧ loan.paymentSourceAccountId = some terms.sourceId := by
  obtain ⟨⟨i, a⟩, ha, hloan⟩ := List.mem_filterMap.mp h
  dsimp only at hloan
  split at hloan
  · obtain ⟨terms', hterms, hloan⟩ := Option.map_eq_some_iff.mp hloan
    obtain ⟨rfl, hrest⟩ := Prod.mk.inj hloan
    obtain ⟨rfl, rfl⟩ := Prod.mk.inj hrest
    exact ⟨ha, loanTerms_source hterms⟩
  · cases hloan

theorem cardPaydowns_sound {frame : Frame} {walks : List SeriesWalk} {cards : List Paydown}
    (h : cardPaydowns db orgId frame walks = .ok cards) : ∀ p ∈ cards, p.Sound db orgId frame.horizonEnd := by
  intro p hp
  obtain ⟨⟨cardId, card, closeDay, sourceId⟩, hcard, hpaid⟩ := (exists_partner (mapM_eq_ok.mp h)).2 p hp
  obtain ⟨payments, hpayments, hpaid⟩ := bind_eq_ok.mp hpaid
  obtain rfl := Except.ok.inj hpaid
  obtain ⟨hmem, hfunded⟩ := List.mem_filter.mp hcard
  obtain ⟨source, hsource, hcurrency⟩ := fundingAccount_isSome hfunded
  obtain ⟨hcard, hpays⟩ := cardAccounts_spec hmem
  exact ⟨⟨card, source, hcard, hsource, hpays, hcurrency⟩, synthesizeAccountCcPayments_le hpayments,
    fun x hx => absurd hx List.not_mem_nil⟩

/-- A card's interest is not projected. -/
theorem cardPaydowns_interest {frame : Frame} {walks : List SeriesWalk} {cards : List Paydown}
    (h : cardPaydowns db orgId frame walks = .ok cards) : ∀ p ∈ cards, p.interest = [] := by
  intro p hp
  obtain ⟨card, -, hpaid⟩ := (exists_partner (mapM_eq_ok.mp h)).2 p hp
  obtain ⟨payments, -, hpaid⟩ := bind_eq_ok.mp hpaid
  rw [← Except.ok.inj hpaid]

theorem loanPaydowns_sound {frame : Frame} {walks : List SeriesWalk} {loans : List Paydown}
    (h : loanPaydowns db orgId frame walks = .ok loans) : ∀ p ∈ loans, p.Sound db orgId frame.horizonEnd := by
  intro p hp
  unfold loanPaydowns at h
  dsimp only at h
  split at h
  · obtain rfl := Except.ok.inj h
    exact absurd hp List.not_mem_nil
  · obtain ⟨periods, hperiods, h⟩ := bind_eq_ok.mp h
    obtain ⟨⟨loanId, loan, terms⟩, hloan, hpaid⟩ := (exists_partner (mapM_eq_ok.mp h)).2 p hp
    obtain ⟨run, hrun, hpaid⟩ := bind_eq_ok.mp hpaid
    obtain rfl := Except.ok.inj hpaid
    obtain ⟨hmem, hfunded⟩ := List.mem_filter.mp hloan
    obtain ⟨source, hsource, hcurrency⟩ := fundingAccount_isSome hfunded
    obtain ⟨hloan, hpays⟩ := loanAccounts_spec hmem
    have hpaidBy : run.PaidBy frame.horizonEnd := by
      refine foldlM_payLoanPeriod_paidBy (fun q hq => ?_) ⟨?_, ?_⟩ hrun
      · exact loanPeriods_le hperiods q.2 (List.of_mem_zip hq).2
      · exact fun x hx => absurd hx List.not_mem_nil
      · exact fun x hx => absurd hx List.not_mem_nil
    exact ⟨⟨loan, source, hloan, hsource, hpays, hcurrency⟩, hpaidBy.payments, hpaidBy.interest⟩

/-! ## Summed over accounts -/

/-- Of the active accounts one has the id. -/
theorem sum_activeAccounts {i : Nat} {a : Account} (ha : (i, a) ∈ activeAccounts db orgId)
    (f : Nat → Account → Int) :
    ((activeAccounts db orgId).map (fun p => if p.1 = i then f p.1 p.2 else 0)).sum = f i a := by
  unfold activeAccounts at ha ⊢
  obtain ⟨hget, htest⟩ := Table.mem_select.mp ha
  rw [Table.sum_select _ _ (fun j c => if j = i then f j c else 0), ← Table.total_single hget (f i a)]
  refine Table.total_congr fun j c hc => ?_
  by_cases hj : j = i
  · subst hj
    rw [hget] at hc
    obtain rfl := Option.some.inj hc
    rw [if_pos htest, if_pos rfl]
  · rw [if_neg hj, if_neg hj, ite_self]

/-- What the accounts paid from `accountId` are paid. -/
def paidFrom (accounts : List AccountBaseline) (accountId : Nat) (payments : AccountBaseline → List Point) : Int :=
  ((accounts.filter (fun a => a.account.paymentSourceAccountId == some accountId)).map
    (fun a => Dated.total (payments a))).sum

theorem total_paidOn_cons (p : Paydown) (paydowns : List Paydown) (accountId : Nat) (f : Paydown → List Point) :
    Dated.total (paidOn (p :: paydowns) accountId f) =
      (if p.liabilityId = accountId then Dated.total (f p) else 0) + Dated.total (paidOn paydowns accountId f) := by
  unfold paidOn
  by_cases h : p.liabilityId = accountId
  · rw [List.filter_cons_of_pos (by simpa using h), List.flatMap_cons, Dated.total_append, if_pos h]
  · rw [List.filter_cons_of_neg (by simpa using h), if_neg h, Int.zero_add]

/-- **What an account is booked for its paydowns**: what it is paid, less its interest, less what
it pays for others. -/
theorem bookedOn_paydowns {paydowns : List Paydown} {horizonEnd : Int}
    (hsound : ∀ p ∈ paydowns, p.Sound db orgId horizonEnd) (accountId : Nat) :
    bookedOn (paydowns.flatMap (·.bookings)) accountId =
      Dated.total (paidOn paydowns accountId (·.payments)) - Dated.total (paidOn paydowns accountId (·.interest)) -
        ((activeAccounts db orgId).map (fun a => if a.2.paymentSourceAccountId = some accountId then
          Dated.total (paidOn paydowns a.1 (·.payments)) else 0)).sum := by
  induction paydowns with
  | nil =>
    have hzero : ((activeAccounts db orgId).map (fun a => if a.2.paymentSourceAccountId = some accountId then
        Dated.total (paidOn [] a.1 (·.payments)) else 0)).sum = 0 := by
      refine List.sum_eq_zero fun x hx => ?_
      obtain ⟨a, -, rfl⟩ := List.mem_map.mp hx
      exact ite_self _
    rw [hzero]
    rfl
  | cons p paydowns ih =>
    obtain ⟨liability, source, hliability, -, hpays, -⟩ := (hsound p List.mem_cons_self).pair
    -- the one account this payment goes to is paid from where the payment comes from
    have hfrom : ((activeAccounts db orgId).map (fun a => if a.2.paymentSourceAccountId = some accountId then
        Dated.total (paidOn (p :: paydowns) a.1 (·.payments)) else 0)).sum =
        (if p.sourceId = accountId then Dated.total p.payments else 0) +
          ((activeAccounts db orgId).map (fun a => if a.2.paymentSourceAccountId = some accountId then
            Dated.total (paidOn paydowns a.1 (·.payments)) else 0)).sum := by
      have hone := sum_activeAccounts hliability
        (fun _ a => if a.paymentSourceAccountId = some accountId then Dated.total p.payments else 0)
      have hsource : (liability.paymentSourceAccountId = some accountId) = (p.sourceId = accountId) := by
        rw [hpays, Option.some.injEq]
      rw [if_congr (iff_of_eq hsource) rfl rfl] at hone
      rw [← hone, ← List.sum_map_add]
      congr 1
      refine List.map_congr_left fun a _ => ?_
      rw [total_paidOn_cons]
      by_cases hid : a.1 = p.liabilityId
      · rw [if_pos hid, if_pos hid.symm]
        split <;> omega
      · rw [if_neg hid, if_neg (Ne.symm hid)]
        split <;> omega
    rw [List.flatMap_cons, bookedOn_append, bookedOn_paydown, ih fun q hq => hsound q (List.mem_cons_of_mem _ hq),
      total_paidOn_cons, total_paidOn_cons, hfrom]
    split <;> omega

/-- **Over a currency the payments cancel**, and the interest is all that is lost. -/
theorem sum_bookedOn_paydowns {paydowns : List Paydown} {horizonEnd : Int}
    (hsound : ∀ p ∈ paydowns, p.Sound db orgId horizonEnd) (currency : String) :
    ((activeAccounts db orgId).map (fun a => if a.2.currency = currency then
        bookedOn (paydowns.flatMap (·.bookings)) a.1 else 0)).sum =
      -((activeAccounts db orgId).map (fun a => if a.2.currency = currency then
        Dated.total (paidOn paydowns a.1 (·.interest)) else 0)).sum := by
  induction paydowns with
  | nil =>
    have hzero : ((activeAccounts db orgId).map (fun a => if a.2.currency = currency then (0 : Int) else 0)).sum = 0 := by
      refine List.sum_eq_zero fun x hx => ?_
      obtain ⟨a, -, rfl⟩ := List.mem_map.mp hx
      exact ite_self _
    exact hzero.trans (congrArg Neg.neg hzero).symm
  | cons p paydowns ih =>
    obtain ⟨liability, source, hliability, hsource, -, hcurrency⟩ := (hsound p List.mem_cons_self).pair
    have hin := sum_activeAccounts hliability (fun _ a => if a.currency = currency then Dated.total p.payments else 0)
    have hlost := sum_activeAccounts hliability (fun _ a => if a.currency = currency then Dated.total p.interest else 0)
    have hout := sum_activeAccounts hsource (fun _ a => if a.currency = currency then Dated.total p.payments else 0)
    -- both ends of a payment have one currency, so it is booked on both sides or on neither
    rw [hcurrency] at hout
    have hbooked : ((activeAccounts db orgId).map (fun a => if a.2.currency = currency then
        bookedOn ((p :: paydowns).flatMap (·.bookings)) a.1 else 0)).sum +
        (((activeAccounts db orgId).map (fun a => if a.1 = p.liabilityId then
          (if a.2.currency = currency then Dated.total p.interest else 0) else 0)).sum +
        ((activeAccounts db orgId).map (fun a => if a.1 = p.sourceId then
          (if a.2.currency = currency then Dated.total p.payments else 0) else 0)).sum) =
        ((activeAccounts db orgId).map (fun a => if a.1 = p.liabilityId then
          (if a.2.currency = currency then Dated.total p.payments else 0) else 0)).sum +
        ((activeAccounts db orgId).map (fun a => if a.2.currency = currency then
          bookedOn (paydowns.flatMap (·.bookings)) a.1 else 0)).sum := by
      rw [← List.sum_map_add, ← List.sum_map_add, ← List.sum_map_add]
      congr 1
      refine List.map_congr_left fun a _ => ?_
      rw [List.flatMap_cons, bookedOn_append, bookedOn_paydown]
      by_cases hc : a.2.currency = currency
      · rw [if_pos hc, if_pos hc, if_pos hc, if_pos hc, if_congr (eq_comm (a := a.1) (b := p.liabilityId)) rfl rfl,
          if_congr (eq_comm (a := a.1) (b := p.liabilityId)) rfl rfl, if_congr (eq_comm (a := a.1) (b := p.sourceId)) rfl rfl]
        split <;> omega
      · rw [if_neg hc, if_neg hc, if_neg hc, if_neg hc, ite_self, ite_self]
        rfl
    have hinterest : ((activeAccounts db orgId).map (fun a => if a.2.currency = currency then
        Dated.total (paidOn (p :: paydowns) a.1 (·.interest)) else 0)).sum =
        ((activeAccounts db orgId).map (fun a => if a.1 = p.liabilityId then
          (if a.2.currency = currency then Dated.total p.interest else 0) else 0)).sum +
        ((activeAccounts db orgId).map (fun a => if a.2.currency = currency then
          Dated.total (paidOn paydowns a.1 (·.interest)) else 0)).sum := by
      rw [← List.sum_map_add]
      congr 1
      refine List.map_congr_left fun a _ => ?_
      rw [total_paidOn_cons]
      by_cases hc : a.2.currency = currency
      · rw [if_pos hc, if_pos hc, if_pos hc, if_congr (eq_comm (a := a.1) (b := p.liabilityId)) rfl rfl]
      · rw [if_neg hc, if_neg hc, if_neg hc, ite_self, Int.zero_add]
    have hrest := ih fun q hq => hsound q (List.mem_cons_of_mem _ hq)
    rw [hin, hlost, hout, hrest] at hbooked
    rw [hinterest, hlost]
    linarith

/-! ## The baseline -/

/-- What an account comes to: its balance and everything listed beside it, less what it pays for
its cards and loans. -/
def expectedEnd (accounts : List AccountBaseline) (a : AccountBaseline) : Int :=
  a.balance + a.pendingDelta + Dated.total a.recurringLines +
    (Dated.total a.ccPayments - paidFrom accounts a.accountId (·.ccPayments)) +
    (Dated.total a.loanPayments - Dated.total a.loanInterest - paidFrom accounts a.accountId (·.loanPayments))

/-- One account, spelled out. -/
structure Laid (db : Db) (orgId : Nat) (frame : Frame) (walks : List SeriesWalk) (cards loans : List Paydown)
    (dailyEnd : Int) (p : Nat × Account) (row : AccountBaseline) : Prop where
  id : row.accountId = p.1
  account : row.account = p.2
  balance : row.balance = p.2.balance
  pending : row.pendingDelta = bookedOn (pendingBookings db orgId frame) p.1
  lines : row.recurringLines = bookingsOn (recurringBookings walks) p.1
  ccPayments : row.ccPayments = paidOn cards p.1 (·.payments)
  loanPayments : row.loanPayments = paidOn loans p.1 (·.payments)
  interest : row.loanInterest = paidOn loans p.1 (·.interest)
  points : walk (p.2.balance - bookedOn (futureSettledBookings db orgId frame) p.1)
    (bookingsOn ((pendingBookings db orgId frame ++ recurringBookings walks ++ cards.flatMap (·.bookings) ++
      loans.flatMap (·.bookings) ++ futureSettledBookings db orgId frame).map (Booking.floored frame.walkStart)) p.1)
    frame.walkStart dailyEnd frame.horizonEnd = .ok row.points

theorem accountBaseline_laid {frame : Frame} {walks : List SeriesWalk} {cards loans : List Paydown} {dailyEnd : Int}
    {p : Nat × Account} {row : AccountBaseline}
    (h : accountBaseline db orgId frame walks cards loans dailyEnd p = .ok row) :
    Laid db orgId frame walks cards loans dailyEnd p row := by
  obtain ⟨points, hpoints, h⟩ := bind_eq_ok.mp h
  obtain rfl := Except.ok.inj h
  exact ⟨rfl, rfl, rfl, rfl, rfl, rfl, rfl, rfl, hpoints⟩

/-- A baseline is one walk an active account, under one frame. -/
theorem baseline_laid {today horizonEnd : Int} {excluded : List Nat} {windowStart firstPeriodEnd : Option Int}
    {b : Baseline} (h : baseline db orgId today horizonEnd excluded windowStart firstPeriodEnd = .ok b) :
    ∃ frame cards loans last, frame.horizonEnd = horizonEnd ∧ frame.walkStart ≤ horizonEnd ∧
      cardPaydowns db orgId frame (seriesWalks db orgId frame) = .ok cards ∧
      loanPaydowns db orgId frame (seriesWalks db orgId frame) = .ok loans ∧
      List.Forall₂ (Laid db orgId frame (seriesWalks db orgId frame) cards loans last) (activeAccounts db orgId) b.accounts := by
  obtain ⟨⟨start, stop⟩, -, h⟩ := bind_eq_ok.mp h
  obtain ⟨cards, hcards, h⟩ := bind_eq_ok.mp h
  obtain ⟨loans, hloans, h⟩ := bind_eq_ok.mp h
  obtain ⟨last, -, h⟩ := bind_eq_ok.mp h
  obtain ⟨accounts, haccounts, h⟩ := bind_eq_ok.mp h
  obtain rfl := Except.ok.inj h
  refine ⟨_, cards, loans, last, rfl, Int.min_le_right _ _, hcards, hloans, ?_⟩
  exact (mapM_eq_ok.mp haccounts).imp fun _ _ hrow => accountBaseline_laid hrow

section Laid

variable {frame : Frame} {walks : List SeriesWalk} {cards loans : List Paydown} {last : Int} {p : Nat × Account}
  {row : AccountBaseline}

/-- Everything booked on an account, as one amount. -/
def laidOn (db : Db) (orgId : Nat) (frame : Frame) (walks : List SeriesWalk) (cards loans : List Paydown)
    (p : Nat × Account) : Int :=
  p.2.balance + bookedOn (pendingBookings db orgId frame) p.1 + bookedOn (recurringBookings walks) p.1 +
    bookedOn (cards.flatMap (·.bookings)) p.1 + bookedOn (loans.flatMap (·.bookings)) p.1

theorem Laid.endPoint (h : Laid db orgId frame walks cards loans last p row) (hwalks : walks = seriesWalks db orgId frame)
    (hstart : frame.walkStart ≤ frame.horizonEnd) (hcards : ∀ q ∈ cards, q.Sound db orgId frame.horizonEnd)
    (hloans : ∀ q ∈ loans, q.Sound db orgId frame.horizonEnd) :
    row.points.map Prod.fst = shownDays frame.walkStart last frame.horizonEnd ∧
      row.points.getLast? = some (frame.horizonEnd, laidOn db orgId frame walks cards loans p) := by
  have hpaid : ∀ paydowns : List Paydown, (∀ q ∈ paydowns, q.Sound db orgId frame.horizonEnd) →
      ∀ x ∈ paydowns.flatMap (·.bookings), x.on ≤ frame.horizonEnd := by
    intro paydowns hsound x hx
    obtain ⟨q, hq, hx⟩ := List.mem_flatMap.mp hx
    rcases List.mem_append.mp hx with hx | hx
    · obtain ⟨i, hi, rfl⟩ := List.mem_map.mp hx
      exact (hsound q hq).interest i hi
    · obtain ⟨y, hy, hx⟩ := List.mem_flatMap.mp hx
      have hle := (hsound q hq).payments y hy
      rcases List.mem_cons.mp hx with rfl | hx
      · exact hle
      · rw [List.mem_singleton.mp hx]
        exact hle
  have hdays : ∀ x ∈ bookingsOn ((pendingBookings db orgId frame ++ recurringBookings walks ++
      cards.flatMap (·.bookings) ++ loans.flatMap (·.bookings) ++ futureSettledBookings db orgId frame).map
        (Booking.floored frame.walkStart)) p.1, frame.walkStart ≤ x.1 ∧ x.1 ≤ frame.horizonEnd := by
    intro x hx
    obtain ⟨b, hb, rfl⟩ := List.mem_map.mp hx
    obtain ⟨b₀, hb₀, rfl⟩ := List.mem_map.mp (List.mem_of_mem_filter hb)
    have hle : b₀.on ≤ frame.horizonEnd := by
      rcases List.mem_append.mp hb₀ with hb₀ | hb₀
      · rcases List.mem_append.mp hb₀ with hb₀ | hb₀
        · rcases List.mem_append.mp hb₀ with hb₀ | hb₀
          · rcases List.mem_append.mp hb₀ with hb₀ | hb₀
            · exact pendingBookings_le hb₀
            · rw [hwalks] at hb₀
              exact recurringBookings_le hb₀
          · exact hpaid cards hcards b₀ hb₀
        · exact hpaid loans hloans b₀ hb₀
      · exact futureSettledBookings_le hb₀
    unfold Booking.floored
    split
    · exact ⟨Int.le_refl _, hstart⟩
    · exact ⟨by omega, hle⟩
  obtain ⟨hpoints, hend⟩ := walk_conserves hstart hdays h.points
  refine ⟨hpoints, ?_⟩
  rw [hend]
  congr 2
  have hall := bookedOn_floored frame.walkStart (pendingBookings db orgId frame ++ recurringBookings walks ++
      cards.flatMap (·.bookings) ++ loans.flatMap (·.bookings) ++ futureSettledBookings db orgId frame) p.1
  rw [bookedOn_append, bookedOn_append, bookedOn_append, bookedOn_append] at hall
  unfold laidOn
  rw [show Dated.total (bookingsOn _ p.1) = bookedOn _ p.1 from rfl, hall]
  omega

end Laid

section Laid

variable {frame : Frame} {walks : List SeriesWalk} {cards loans : List Paydown} {last : Int}
  {active : List (Nat × Account)} {rows : List AccountBaseline}

theorem laid_accounts (h : List.Forall₂ (Laid db orgId frame walks cards loans last) active rows) :
    rows.map (fun row => (row.accountId, row.account)) = active := by
  induction h with
  | nil => rfl
  | cons hrow _ ih => rw [List.map_cons, ih, hrow.id, hrow.account]

/-- What the accounts are paid from another, off the paydowns. -/
theorem paidFrom_eq (payments : AccountBaseline → List Point) (paid : Nat → List Point)
    (hpaid : ∀ p row, Laid db orgId frame walks cards loans last p row → payments row = paid p.1)
    (h : List.Forall₂ (Laid db orgId frame walks cards loans last) active rows) (accountId : Nat) :
    paidFrom rows accountId payments =
      (active.map (fun a => if a.2.paymentSourceAccountId = some accountId then Dated.total (paid a.1) else 0)).sum := by
  unfold paidFrom
  induction h with
  | nil => rfl
  | @cons p row active rows hrow _ ih =>
    rw [List.map_cons, List.sum_cons, ← ih]
    by_cases hsource : p.2.paymentSourceAccountId = some accountId
    · rw [List.filter_cons_of_pos (by rw [hrow.account, hsource, beq_self_eq_true]), List.map_cons, List.sum_cons,
        if_pos hsource, hpaid p row hrow]
    · rw [List.filter_cons_of_neg (by rw [hrow.account, beq_iff_eq]; exact hsource), if_neg hsource, Int.zero_add]

/-- An amount of every account of a currency, summed. -/
theorem sum_currency (amount : AccountBaseline → Int) (of : Nat → Account → Int)
    (hof : ∀ p row, Laid db orgId frame walks cards loans last p row → amount row = of p.1 p.2)
    (h : List.Forall₂ (Laid db orgId frame walks cards loans last) active rows) (currency : String) :
    ((rows.filter (fun row => row.account.currency == currency)).map amount).sum =
      (active.map (fun a => if a.2.currency = currency then of a.1 a.2 else 0)).sum := by
  induction h with
  | nil => rfl
  | @cons p row active rows hrow _ ih =>
    rw [List.map_cons, List.sum_cons, ← ih]
    by_cases hcurrency : p.2.currency = currency
    · rw [List.filter_cons_of_pos (by rw [hrow.account, hcurrency, beq_self_eq_true]), List.map_cons, List.sum_cons,
        if_pos hcurrency, hof p row hrow]
    · rw [List.filter_cons_of_neg (by rw [hrow.account, beq_iff_eq]; exact hcurrency), if_neg hcurrency, Int.zero_add]

end Laid

/-! ## A currency's series -/

/-- Two series over the same days, summed. -/
theorem zipWith_points {days : List Int} {total points : List Point} (htotal : total.map Prod.fst = days)
    (hpoints : points.map Prod.fst = days) :
    (List.zipWith (fun p q : Point => (p.1, p.2 + q.2)) total points).map Prod.fst = days ∧
      ∀ day x y, total.getLast? = some (day, x) → points.getLast? = some (day, y) →
        (List.zipWith (fun p q : Point => (p.1, p.2 + q.2)) total points).getLast? = some (day, x + y) := by
  induction days generalizing total points with
  | nil =>
    obtain rfl := List.map_eq_nil_iff.mp htotal
    obtain rfl := List.map_eq_nil_iff.mp hpoints
    exact ⟨rfl, fun _ _ _ hnone => absurd hnone (Option.some_ne_none _).symm⟩
  | cons d days ih =>
    obtain ⟨p, total, rfl, hhead, htotal⟩ := List.map_eq_cons_iff.mp htotal
    obtain ⟨q, points, rfl, hsame, hpoints⟩ := List.map_eq_cons_iff.mp hpoints
    obtain ⟨hdays, hlast⟩ := ih htotal hpoints
    rw [List.zipWith_cons_cons, List.map_cons, hdays, hhead]
    refine ⟨rfl, ?_⟩
    intro day x y hx hy
    cases total with
    | nil =>
      obtain rfl := List.map_eq_nil_iff.mp (hpoints.trans htotal.symm)
      obtain rfl := Option.some.inj hx
      obtain rfl := Option.some.inj hy
      exact congrArg some (Prod.ext hhead.symm rfl)
    | cons p₂ total =>
      cases points with
      | nil => cases hpoints.trans htotal.symm
      | cons q₂ points =>
        rw [List.getLast?_cons_cons] at hx hy
        rw [List.zipWith_cons_cons, List.getLast?_cons_cons, ← List.zipWith_cons_cons (f := fun p q : Point => (p.1, p.2 + q.2))]
        exact hlast day x y hx hy

/-- The last point of a currency's series is the sum of its accounts'. -/
theorem foldl_points {days : List Int} {day : Int} {rows : List AccountBaseline} {ends : AccountBaseline → Int}
    (hrows : ∀ row ∈ rows, row.points.map Prod.fst = days ∧ row.points.getLast? = some (day, ends row))
    {total : List Point} {x : Int} (htotal : total.map Prod.fst = days) (hlast : total.getLast? = some (day, x)) :
    ((rows.map (·.points)).foldl (fun total points =>
      if total.isEmpty then points else List.zipWith (fun p q => (p.1, p.2 + q.2)) total points) total).getLast? =
        some (day, x + (rows.map ends).sum) := by
  induction rows generalizing total x with
  | nil =>
    rw [List.map_nil, List.map_nil, List.foldl_nil, hlast, List.sum_nil, Int.add_zero]
  | cons row rows ih =>
    obtain ⟨hdays, hend⟩ := hrows row List.mem_cons_self
    obtain ⟨hsum, hsumLast⟩ := zipWith_points htotal hdays
    have hnonempty : total.isEmpty = false := by
      cases total with
      | nil => cases hlast
      | cons p total => rfl
    rw [List.map_cons, List.foldl_cons, hnonempty, if_neg Bool.false_ne_true]
    rw [ih (fun r hr => hrows r (List.mem_cons_of_mem _ hr)) hsum (hsumLast day x (ends row) hlast hend),
      List.map_cons, List.sum_cons, Int.add_assoc]

theorem currencySeries_getLast? {days : List Int} {day : Int} {accounts : List AccountBaseline} {ends : AccountBaseline → Int}
    (hrows : ∀ row ∈ accounts, row.points.map Prod.fst = days ∧ row.points.getLast? = some (day, ends row))
    {currency : String} (hsome : ∃ row ∈ accounts, row.account.currency = currency) :
    (currencySeries accounts currency).getLast? =
      some (day, ((accounts.filter (fun row => row.account.currency == currency)).map ends).sum) := by
  obtain ⟨row, hrow, hcurrency⟩ := hsome
  have hmem : row ∈ accounts.filter (fun row => row.account.currency == currency) :=
    List.mem_filter.mpr ⟨hrow, beq_iff_eq.mpr hcurrency⟩
  unfold currencySeries
  cases hof : accounts.filter (fun row => row.account.currency == currency) with
  | nil =>
    rw [hof] at hmem
    exact absurd hmem List.not_mem_nil
  | cons first rest =>
    have hof : ∀ r ∈ first :: rest, r.points.map Prod.fst = days ∧ r.points.getLast? = some (day, ends r) := by
      intro r hr
      rw [← hof] at hr
      exact hrows r (List.mem_of_mem_filter hr)
    -- the first series stands for the empty sum
    obtain ⟨hdays, hend⟩ := hof first List.mem_cons_self
    rw [List.map_cons, List.foldl_cons, List.isEmpty_nil, if_pos rfl, List.map_cons, List.sum_cons]
    exact foldl_points (fun r hr => hof r (List.mem_cons_of_mem _ hr)) hdays hend

/-- What an account is booked for its paydowns is what the rows list. -/
theorem laidOn_eq_expectedEnd {frame : Frame} {walks : List SeriesWalk} {cards loans : List Paydown} {last : Int}
    {rows : List AccountBaseline} (hcards : ∀ q ∈ cards, q.Sound db orgId frame.horizonEnd)
    (hloans : ∀ q ∈ loans, q.Sound db orgId frame.horizonEnd) (hinterest : ∀ q ∈ cards, q.interest = [])
    (h : List.Forall₂ (Laid db orgId frame walks cards loans last) (activeAccounts db orgId) rows)
    {p : Nat × Account} {row : AccountBaseline} (hrow : Laid db orgId frame walks cards loans last p row) :
    laidOn db orgId frame walks cards loans p = expectedEnd rows row := by
  have hnone : Dated.total (paidOn cards p.1 (·.interest)) = 0 := by
    have hnil : paidOn cards p.1 (·.interest) = [] := by
      refine List.flatMap_eq_nil_iff.mpr fun q hq => ?_
      exact hinterest q (List.mem_of_mem_filter hq)
    rw [hnil, Dated.total_nil]
  -- cards lose no interest, so theirs is not listed
  unfold laidOn expectedEnd
  rw [bookedOn_paydowns hcards, bookedOn_paydowns hloans, hnone,
    paidFrom_eq (·.ccPayments) (fun i => paidOn cards i (·.payments)) (fun _ _ hr => hr.ccPayments) h,
    paidFrom_eq (·.loanPayments) (fun i => paidOn loans i (·.payments)) (fun _ _ hr => hr.loanPayments) h,
    hrow.id, hrow.balance, hrow.pending, hrow.lines, hrow.ccPayments, hrow.loanPayments, hrow.interest]
  have hlines : Dated.total (bookingsOn (recurringBookings walks) p.1) = bookedOn (recurringBookings walks) p.1 := rfl
  rw [hlines]
  omega

/-- **A projection conserves.** Every active account has a row, over days that only increase. Its
last point is what the row lists, less what it pays for its cards and loans; and a currency's last
point is what its accounts list without any payment, less the interest. -/
theorem projection_conserves {today horizonEnd : Int} {excluded : List Nat} {windowStart firstPeriodEnd : Option Int}
    {b : Baseline} (h : baseline db orgId today horizonEnd excluded windowStart firstPeriodEnd = .ok b) :
    b.accounts.map (fun row => (row.accountId, row.account)) = activeAccounts db orgId ∧
    (∀ row ∈ b.accounts, (row.points.map Prod.fst).Pairwise (· < ·) ∧
      row.points.getLast? = some (horizonEnd, expectedEnd b.accounts row)) ∧
    ∀ currency, (∃ row ∈ b.accounts, row.account.currency = currency) →
      (currencySeries b.accounts currency).getLast? = some (horizonEnd,
        ((b.accounts.filter (fun row => row.account.currency == currency)).map (fun row =>
          row.balance + row.pendingDelta + Dated.total row.recurringLines - Dated.total row.loanInterest)).sum) := by
  obtain ⟨frame, cards, loans, last, rfl, hstart, hcards, hloans, hrows⟩ := baseline_laid h
  have hcardsSound := cardPaydowns_sound hcards
  have hloansSound := loanPaydowns_sound hloans
  have hinterest := cardPaydowns_interest hcards
  have hpoint : ∀ p row, Laid db orgId frame (seriesWalks db orgId frame) cards loans last p row →
      row.points.map Prod.fst = shownDays frame.walkStart last frame.horizonEnd ∧
        row.points.getLast? = some (frame.horizonEnd, expectedEnd b.accounts row) := by
    intro p row hrow
    obtain ⟨hdays, hend⟩ := hrow.endPoint rfl hstart hcardsSound hloansSound
    rw [laidOn_eq_expectedEnd hcardsSound hloansSound hinterest hrows hrow] at hend
    exact ⟨hdays, hend⟩
  have hpoints : ∀ row ∈ b.accounts, row.points.map Prod.fst = shownDays frame.walkStart last frame.horizonEnd ∧
      row.points.getLast? = some (frame.horizonEnd, expectedEnd b.accounts row) := by
    intro row hrow
    obtain ⟨p, -, hlaid⟩ := (exists_partner hrows).2 row hrow
    exact hpoint p row hlaid
  refine ⟨laid_accounts hrows, ?_, ?_⟩
  · intro row hrow
    obtain ⟨hdays, hend⟩ := hpoints row hrow
    rw [hdays]
    exact ⟨shownDays_sorted _ _ _, hend⟩
  · intro currency hsome
    rw [currencySeries_getLast? hpoints hsome]
    congr 2
    have hcardsOut := sum_bookedOn_paydowns hcardsSound currency
    have hloansOut := sum_bookedOn_paydowns hloansSound currency
    have hnone : ((activeAccounts db orgId).map (fun a => if a.2.currency = currency then
        Dated.total (paidOn cards a.1 (·.interest)) else 0)).sum = 0 := by
      refine List.sum_eq_zero fun x hx => ?_
      obtain ⟨a, -, rfl⟩ := List.mem_map.mp hx
      have hnil : paidOn cards a.1 (·.interest) = [] := by
        refine List.flatMap_eq_nil_iff.mpr fun q hq => ?_
        exact hinterest q (List.mem_of_mem_filter hq)
      rw [hnil, Dated.total_nil, ite_self]
    rw [sum_currency _ (fun i a => laidOn db orgId frame (seriesWalks db orgId frame) cards loans (i, a))
        (fun p row hrow => (laidOn_eq_expectedEnd hcardsSound hloansSound hinterest hrows hrow).symm) hrows,
      sum_currency _ (fun i a => a.balance + bookedOn (pendingBookings db orgId frame) i +
          bookedOn (recurringBookings (seriesWalks db orgId frame)) i - Dated.total (paidOn loans i (·.interest)))
        (fun p row hrow => by rw [hrow.balance, hrow.pending, hrow.lines, hrow.interest]; rfl) hrows]
    -- the payments of both kinds cancel, the interest stays
    have hsplit : ((activeAccounts db orgId).map (fun a => if a.2.currency = currency then
        laidOn db orgId frame (seriesWalks db orgId frame) cards loans (a.1, a.2) else 0)).sum +
        ((activeAccounts db orgId).map (fun a => if a.2.currency = currency then
          Dated.total (paidOn loans a.1 (·.interest)) else 0)).sum =
        ((activeAccounts db orgId).map (fun a => if a.2.currency = currency then
          a.2.balance + bookedOn (pendingBookings db orgId frame) a.1 +
            bookedOn (recurringBookings (seriesWalks db orgId frame)) a.1 -
              Dated.total (paidOn loans a.1 (·.interest)) else 0)).sum +
        ((activeAccounts db orgId).map (fun a => if a.2.currency = currency then
          Dated.total (paidOn loans a.1 (·.interest)) else 0)).sum +
        (((activeAccounts db orgId).map (fun a => if a.2.currency = currency then
          bookedOn (cards.flatMap (·.bookings)) a.1 else 0)).sum +
        (((activeAccounts db orgId).map (fun a => if a.2.currency = currency then
          bookedOn (loans.flatMap (·.bookings)) a.1 else 0)).sum +
        ((activeAccounts db orgId).map (fun a => if a.2.currency = currency then
          Dated.total (paidOn loans a.1 (·.interest)) else 0)).sum)) := by
      rw [← List.sum_map_add, ← List.sum_map_add, ← List.sum_map_add, ← List.sum_map_add, ← List.sum_map_add]
      congr 1
      refine List.map_congr_left fun a _ => ?_
      unfold laidOn
      dsimp only
      by_cases hc : a.2.currency = currency
      · rw [if_pos hc, if_pos hc, if_pos hc, if_pos hc, if_pos hc]
        omega
      · rw [if_neg hc, if_neg hc, if_neg hc, if_neg hc, if_neg hc]
        rfl
    rw [hcardsOut, hloansOut, hnone] at hsplit
    omega

theorem groceries_amount_pos : (0 : Int) < 2500 := by decide

/-- A card that owes, with one more charge to come, and the account that pays it. -/
def cardDueLedger : Db where
  organizations := Table.empty.insert {}
  accounts := (Table.empty.insert { orgId := 1, name := "Checking", balance := 10000 }).insert
    { orgId := 1, name := "Card", slug := .creditCard, balance := -4000, closeDay := some 10, paymentDay := some 12,
      paymentDayRelativeMonth := some 0, paymentSourceAccountId := some 1, paymentStrategy := some .fullBalance,
      openingBalance := -4000 }
  transactions := Table.empty.insert
    { orgId := 1, accountId := 2, categoryId := 1, description := "Groceries",
      amount := ⟨2500, groceries_amount_pos⟩, type := .expense, status := .pending, date := 738009 }

/-- The card is paid in full on the twelfth: the euros lose the charge alone. -/
theorem projection_conserves_card :
    ∃ b, baseline cardDueLedger 1 738008 738016 [] (some 738000) (some 738016) = .ok b ∧
      b.accounts.map (fun row => Dated.total row.ccPayments) = [0, 6500] ∧
      (currencySeries b.accounts "EUR").getLast? = some (738016, 3500) := by
  refine ⟨_, rfl, by decide, ?_⟩
  rw [(projection_conserves (show baseline cardDueLedger 1 738008 738016 [] (some 738000) (some 738016) = .ok _
    from rfl)).2.2 "EUR" ⟨_, List.mem_cons_self, rfl⟩]
  decide

end BetterDecision
