import BetterDecision.Proof.CardForecast

/-!
# The cycles of a card

A close day and a payment day are each clamped to the length of their month, so a card has
one cycle a month, closing in it, and the cycles of all months lie end to end. The cycle of
a day is that of the first month whose close is the day or later. The walk over a horizon
goes month by month; payments keep the order of the months, so it may stop at the first
one past the horizon, and it starts early enough, for a payment comes at most the relative
month after its close. All of it stops at the ends of the calendar, where a cycle has a
close before year 1 or a payment after year 9999 and the resolver raises.
-/

namespace BetterDecision

open Calendar

/-! ## A cycle a month -/

/-- The cycle that closes in a month, were there no first or last day. -/
def cycleClosing (closeDay : Nat) (paymentDay relative : Option Nat) (month : Int) : CreditCardCycle where
  periodStart := onMonth (month - 1) closeDay + 1
  periodEndInclusive := onMonth month closeDay
  paymentDate := onMonth (month + relative.getD 1) (paymentDay.getD 1)

/-- The close before the cycle is a date, and so is its payment. -/
def CreditCardCycle.InCalendar (cycle : CreditCardCycle) : Prop := 1 < cycle.periodStart ∧ cycle.paymentDate ≤ dateMax

instance CreditCardCycle.decidableInCalendar (cycle : CreditCardCycle) : Decidable cycle.InCalendar :=
  inferInstanceAs (Decidable (_ ∧ _))

/-- A day of the cycle. -/
def CreditCardCycle.Covers (cycle : CreditCardCycle) (d : Int) : Prop :=
  cycle.periodStart ≤ d ∧ d ≤ cycle.periodEndInclusive

theorem clampDay_ok_iff {month : Int} {d : Nat} (hd : 1 ≤ d) :
    clampDay month d = if 12 ≤ month ∧ month < monthAfterLast then .ok (onMonth month d) else .error .overflow := by
  have hday : (1 : Int) ≤ d := by omega
  obtain ⟨hlow, hhigh⟩ := onMonth_calendar hday (k := month)
  unfold clampDay
  split
  · rw [if_neg (by omega)]
  · rw [if_pos (by omega)]

section Cycles

variable {closeDay : Nat} {paymentDay relative : Option Nat}

theorem inCalendar_iff (hclose : 1 ≤ closeDay) (hpayment : 1 ≤ paymentDay.getD 1) {month : Int} :
    (cycleClosing closeDay paymentDay relative month).InCalendar ↔ 13 ≤ month ∧ month + relative.getD 1 < monthAfterLast := by
  have hc := (onMonth_calendar (show (1 : Int) ≤ closeDay by omega) (k := month - 1)).1
  have hp := (onMonth_calendar (show (1 : Int) ≤ paymentDay.getD 1 by omega) (k := month + relative.getD 1)).2
  unfold CreditCardCycle.InCalendar cycleClosing
  dsimp only
  omega

theorem dayAfter_onMonth {k : Int} {d : Nat} (hd : 1 ≤ d) (hk : k + 1 < monthAfterLast) :
    dayAfter (onMonth k d) = .ok (onMonth k d + 1) := by
  have hday : (1 : Int) ≤ d := by omega
  have hnext := onMonth_lt_onMonth (d := d) (show k < k + 1 by omega) hday
  have hlast := (onMonth_calendar hday (k := k + 1)).2.mpr hk
  unfold dayAfter
  rw [if_neg (by omega)]

variable (relative) in
/-- From the two closes on. -/
theorem cycle_of_closes (hclose : 1 ≤ closeDay) (hpayment : 1 ≤ paymentDay.getD 1) {month : Int} (hlow : 13 ≤ month)
    (hhigh : month < monthAfterLast) : (do
      let periodStart ← dayAfter (onMonth (month - 1) closeDay)
      let paymentDate ← resolvePaymentDate (onMonth month closeDay) (paymentDay.getD 1) (relative.getD 1)
      .ok (CreditCardCycle.mk periodStart (onMonth month closeDay) paymentDate) : Result CreditCardCycle) =
      if (cycleClosing closeDay paymentDay relative month).InCalendar then
        .ok (cycleClosing closeDay paymentDay relative month)
      else .error .overflow := by
  have hday : (1 : Int) ≤ closeDay := by omega
  have hin : (cycleClosing closeDay paymentDay relative month).InCalendar ↔ _ := inCalendar_iff hclose hpayment
  rw [dayAfter_onMonth hclose (by omega), resolvePaymentDate, monthOf_onMonth hday, clampDay_ok_iff hpayment]
  by_cases hpaid : month + relative.getD 1 < monthAfterLast
  · rw [if_pos ⟨by omega, hpaid⟩, if_pos (hin.mpr ⟨hlow, hpaid⟩)]
    rfl
  · rw [if_neg fun h => hpaid h.2, if_neg fun h => hpaid (hin.mp h).2]
    rfl

/-- **The cycle of a day is that of the first month whose close is the day or later**, where
the calendar has it. -/
theorem resolveCycle_eq (hclose : 1 ≤ closeDay) (hpayment : 1 ≤ paymentDay.getD 1) (target : Int) :
    resolveCycle closeDay paymentDay relative target =
      if (cycleClosing closeDay paymentDay relative (firstMonth closeDay target)).InCalendar then
        .ok (cycleClosing closeDay paymentDay relative (firstMonth closeDay target))
      else .error .overflow := by
  have hin : (cycleClosing closeDay paymentDay relative (firstMonth closeDay target)).InCalendar ↔ _ :=
    inCalendar_iff hclose hpayment
  have hmonths := monthOf_le_firstMonth closeDay target
  simp only [resolveCycle]
  by_cases hmonth : 12 ≤ monthOf target ∧ monthOf target < monthAfterLast
  · have hthis : clampDay (monthOf target) closeDay = .ok (onMonth (monthOf target) closeDay) := by
      rw [clampDay_ok_iff hclose, if_pos hmonth]
    rw [hthis, bind_ok]
    by_cases hle : target ≤ onMonth (monthOf target) closeDay
    · -- it closes in the month of the day
      have hfirst : firstMonth closeDay target = monthOf target := if_pos hle
      rw [if_pos hle, clampDay_ok_iff hclose]
      by_cases hlow : 13 ≤ monthOf target
      · rw [if_pos (by omega), hfirst]
        exact cycle_of_closes relative hclose hpayment hlow hmonth.2
      · rw [if_neg (by omega), if_neg (mt hin.mp (by omega))]
        rfl
    · -- it closes in the month after
      have hfirst : firstMonth closeDay target = monthOf target + 1 := if_neg hle
      rw [if_neg hle, clampDay_ok_iff hclose]
      by_cases hhigh : monthOf target + 1 < monthAfterLast
      · have hcycle := cycle_of_closes relative hclose hpayment
          (show 13 ≤ monthOf target + 1 by omega) hhigh
        rw [Int.add_sub_cancel] at hcycle
        rw [if_pos (by omega), hfirst]
        exact hcycle
      · rw [if_neg (by omega), if_neg (mt hin.mp (by omega))]
        rfl
  · rw [clampDay_ok_iff hclose, if_neg hmonth, if_neg (mt hin.mp (by omega))]
    rfl

theorem covers_iff (hclose : 1 ≤ closeDay) {month d : Int} :
    (cycleClosing closeDay paymentDay relative month).Covers d ↔ firstMonth closeDay d = month := by
  rw [firstMonth_eq_iff (show (1 : Int) ≤ closeDay by omega)]
  exact Iff.rfl

theorem resolveCycle_eq_ok (hclose : 1 ≤ closeDay) (hpayment : 1 ≤ paymentDay.getD 1) {target : Int}
    {cycle : CreditCardCycle} : resolveCycle closeDay paymentDay relative target = .ok cycle ↔
      cycle = cycleClosing closeDay paymentDay relative (firstMonth closeDay target) ∧ cycle.InCalendar := by
  rw [resolveCycle_eq hclose hpayment]
  split
  · rename_i hin
    constructor
    · intro h
      obtain rfl := Except.ok.inj h
      exact ⟨rfl, hin⟩
    · exact fun h => h.1 ▸ rfl
  · rename_i hin
    constructor
    · intro h
      cases h
    · exact fun h => absurd (h.1 ▸ h.2) hin

/-- A cycle the calendar has is the cycle of each of its days. -/
theorem resolveCycle_of_covers (hclose : 1 ≤ closeDay) (hpayment : 1 ≤ paymentDay.getD 1) {month d : Int}
    (hin : (cycleClosing closeDay paymentDay relative month).InCalendar)
    (hd : (cycleClosing closeDay paymentDay relative month).Covers d) :
    resolveCycle closeDay paymentDay relative d = .ok (cycleClosing closeDay paymentDay relative month) :=
  (resolveCycle_eq_ok hclose hpayment).mpr ⟨by rw [(covers_iff hclose).mp hd], hin⟩

/-- What it is for every day to have one cycle. -/
structure OneCycleEach (closeDay : Nat) (paymentDay relative : Option Nat) : Prop where
  covers : ∀ d cycle, resolveCycle closeDay paymentDay relative d = .ok cycle → cycle.Covers d
  /-- All the days of a cycle have it. -/
  whole : ∀ d d' cycle, resolveCycle closeDay paymentDay relative d = .ok cycle → cycle.Covers d' →
    resolveCycle closeDay paymentDay relative d' = .ok cycle
  /-- The next cycle starts on the day after. -/
  abut : ∀ d cycle next, resolveCycle closeDay paymentDay relative d = .ok cycle →
    resolveCycle closeDay paymentDay relative (cycle.periodEndInclusive + 1) = .ok next →
    next.periodStart = cycle.periodEndInclusive + 1
  /-- A day goes without where the calendar does not have its cycle. -/
  resolves : ∀ d, (∃ cycle, resolveCycle closeDay paymentDay relative d = .ok cycle) ↔
    (cycleClosing closeDay paymentDay relative (firstMonth closeDay d)).InCalendar

theorem oneCycleEach (hclose : 1 ≤ closeDay) (hpayment : 1 ≤ paymentDay.getD 1) :
    OneCycleEach closeDay paymentDay relative where
  covers d cycle h := by
    obtain ⟨rfl, -⟩ := (resolveCycle_eq_ok hclose hpayment).mp h
    exact (covers_iff hclose).mpr rfl
  whole d d' cycle h hd' := by
    obtain ⟨rfl, hin⟩ := (resolveCycle_eq_ok hclose hpayment).mp h
    exact resolveCycle_of_covers hclose hpayment hin hd'
  abut d cycle next h hnext := by
    obtain ⟨rfl, -⟩ := (resolveCycle_eq_ok hclose hpayment).mp h
    obtain ⟨rfl, -⟩ := (resolveCycle_eq_ok hclose hpayment).mp hnext
    have hday : (1 : Int) ≤ closeDay := by omega
    have hmonth : firstMonth closeDay
        ((cycleClosing closeDay paymentDay relative (firstMonth closeDay d)).periodEndInclusive + 1) =
          firstMonth closeDay d + 1 := by
      refine (firstMonth_eq_iff hday).mpr ⟨?_, ?_⟩
      · rw [Int.add_sub_cancel]
        exact Int.lt_succ _
      · exact onMonth_strictMono hday (Int.lt_succ _)
    rw [hmonth]
    show onMonth (firstMonth closeDay d + 1 - 1) closeDay + 1 = _
    rw [Int.add_sub_cancel]
    rfl
  resolves d := by
    constructor
    · rintro ⟨cycle, h⟩
      obtain ⟨rfl, hin⟩ := (resolveCycle_eq_ok hclose hpayment).mp h
      exact hin
    · exact fun hin => ⟨_, (resolveCycle_eq_ok hclose hpayment).mpr ⟨rfl, hin⟩⟩

end Cycles

/-! ## The walk over a horizon -/

section Walk

variable {account : Account} {closeDay : Nat}

/-- The cycle of the card that closes in a month. -/
def cardCycle (account : Account) (closeDay : Nat) (month : Int) : CreditCardCycle :=
  cycleClosing closeDay account.paymentDay account.paymentDayRelativeMonth month

theorem cardWalk_overflow (hclose : 1 ≤ closeDay) (hpayment : 1 ≤ account.paymentDay.getD 1) (pStart pEnd : Int)
    (steps : Nat) {cursor month : Int} (seen : List Int) (cycles : List CreditCardCycle)
    (hmonth : firstMonth closeDay cursor = month) (hin : ¬ (cardCycle account closeDay month).InCalendar) :
    walkCycles account closeDay pStart pEnd (steps + 1) cursor seen cycles = .error .overflow ∧
      walkHitsCap account closeDay pEnd (steps + 1) cursor seen = .error .overflow := by
  have hresolve : resolveCycle closeDay account.paymentDay account.paymentDayRelativeMonth cursor =
      .error .overflow := by
    rw [resolveCycle_eq hclose hpayment, hmonth]
    exact if_neg hin
  rw [walkCycles, walkHitsCap, hresolve]
  exact ⟨rfl, rfl⟩

/-- One step: no close is seen twice. -/
theorem cardWalk_step (hclose : 1 ≤ closeDay) (hpayment : 1 ≤ account.paymentDay.getD 1) (pStart pEnd : Int)
    (steps : Nat) {cursor month : Int} {seen : List Int} (cycles : List CreditCardCycle)
    (hmonth : firstMonth closeDay cursor = month) (hin : (cardCycle account closeDay month).InCalendar)
    (hseen : ∀ close ∈ seen, close < cursor) :
    walkCycles account closeDay pStart pEnd (steps + 1) cursor seen cycles =
      (if pEnd < (cardCycle account closeDay month).paymentDate then .ok cycles
      else dayAfter (onMonth month closeDay) >>= fun next =>
        walkCycles account closeDay pStart pEnd steps next (onMonth month closeDay :: seen)
          (if pStart ≤ (cardCycle account closeDay month).paymentDate then cycles ++ [cardCycle account closeDay month]
          else cycles)) ∧
    walkHitsCap account closeDay pEnd (steps + 1) cursor seen =
      if pEnd < (cardCycle account closeDay month).paymentDate then .ok false
      else dayAfter (onMonth month closeDay) >>= fun next =>
        walkHitsCap account closeDay pEnd steps next (onMonth month closeDay :: seen) := by
  have hresolve : resolveCycle closeDay account.paymentDay account.paymentDayRelativeMonth cursor =
      .ok (cardCycle account closeDay month) := by
    rw [resolveCycle_eq hclose hpayment, hmonth]
    exact if_pos hin
  have hcursor := ((firstMonth_eq_iff (show (1 : Int) ≤ closeDay by omega)).mp hmonth).2
  have hfresh : ¬ seen.contains (cardCycle account closeDay month).periodEndInclusive = true := by
    intro h
    have hlt := hseen _ (List.contains_iff_mem.mp h)
    have hend : (cardCycle account closeDay month).periodEndInclusive = onMonth month closeDay := rfl
    omega
  rw [walkCycles, walkHitsCap, hresolve, bind_ok, bind_ok]
  dsimp only
  rw [if_neg hfresh, if_neg hfresh]
  exact ⟨rfl, rfl⟩

/-- The walk goes month by month up to the first cycle paid after the horizon, and keeps
those paid from its start on. -/
theorem cardWalk_eq (hclose : 1 ≤ closeDay) (hpayment : 1 ≤ account.paymentDay.getD 1) (pStart : Int) {pEnd : Int}
    (n : Nat) {steps : Nat} {cursor month : Int} (seen : List Int) (cycles : List CreditCardCycle)
    (hmonth : firstMonth closeDay cursor = month) (hlow : 13 ≤ month) (hseen : ∀ close ∈ seen, close < cursor)
    (hsteps : n < steps) (hbefore : ∀ k, month ≤ k → k < month + n → (cardCycle account closeDay k).paymentDate ≤ pEnd)
    (hstop : pEnd < (cardCycle account closeDay (month + n)).paymentDate) :
    walkCycles account closeDay pStart pEnd steps cursor seen cycles =
      (if (cardCycle account closeDay (month + n)).InCalendar then
        .ok (cycles ++ ((monthsFrom month n).map (cardCycle account closeDay)).filter
          (fun c => decide (pStart ≤ c.paymentDate)))
      else .error .overflow) ∧
    walkHitsCap account closeDay pEnd steps cursor seen =
      if (cardCycle account closeDay (month + n)).InCalendar then .ok false else .error .overflow := by
  have hin : ∀ k, (cardCycle account closeDay k).InCalendar ↔
      13 ≤ k ∧ k + account.paymentDayRelativeMonth.getD 1 < monthAfterLast := fun k => inCalendar_iff hclose hpayment
  have hday : (1 : Int) ≤ closeDay := by omega
  obtain ⟨steps, rfl⟩ := Nat.exists_eq_succ_of_ne_zero (show steps ≠ 0 by omega)
  induction n generalizing steps cursor month seen cycles with
  | zero =>
    rw [Nat.cast_zero, Int.add_zero] at hstop ⊢
    by_cases hcalendar : (cardCycle account closeDay month).InCalendar
    · obtain ⟨hwalk, hcap⟩ := cardWalk_step hclose hpayment pStart pEnd steps cycles hmonth hcalendar hseen
      rw [hwalk, hcap, if_pos hstop, if_pos hstop, if_pos hcalendar, if_pos hcalendar]
      exact ⟨by rw [monthsFrom, List.map_nil, List.filter_nil, List.append_nil], rfl⟩
    · rw [if_neg hcalendar, if_neg hcalendar]
      exact cardWalk_overflow hclose hpayment pStart pEnd steps seen cycles hmonth hcalendar
  | succ n ih =>
    by_cases hcalendar : (cardCycle account closeDay month).InCalendar
    · obtain ⟨hwalk, hcap⟩ := cardWalk_step hclose hpayment pStart pEnd steps cycles hmonth hcalendar hseen
      have hpaid := hbefore month le_rfl (by omega)
      rw [hwalk, hcap, if_neg (not_lt.mpr hpaid), if_neg (not_lt.mpr hpaid)]
      by_cases hnext : onMonth month closeDay < dateMax
      · have hafter : dayAfter (onMonth month closeDay) = .ok (onMonth month closeDay + 1) := if_neg (not_le.mpr hnext)
        rw [hafter, bind_ok, bind_ok]
        obtain ⟨steps, rfl⟩ := Nat.exists_eq_succ_of_ne_zero (show steps ≠ 0 by omega)
        have hcursor := ((firstMonth_eq_iff hday).mp hmonth).2
        have hfirst : firstMonth closeDay (onMonth month closeDay + 1) = month + 1 :=
          (firstMonth_eq_iff hday).mpr
            ⟨by rw [Int.add_sub_cancel]; exact Int.lt_succ _, onMonth_strictMono hday (Int.lt_succ _)⟩
        have hmonths : month + ↑(n + 1) = month + 1 + ↑n := by push_cast; omega
        rw [hmonths] at hstop hbefore ⊢
        have hseen' : ∀ close ∈ onMonth month closeDay :: seen, close < onMonth month closeDay + 1 := by
          intro close hmem
          rcases List.mem_cons.mp hmem with rfl | hmem
          · exact Int.lt_succ _
          · have := hseen close hmem
            omega
        obtain ⟨hrest, hcaprest⟩ := ih (onMonth month closeDay :: seen)
          (if pStart ≤ (cardCycle account closeDay month).paymentDate then cycles ++ [cardCycle account closeDay month]
          else cycles) hfirst (by omega) hseen'
          (fun k hk hk' => hbefore k (by omega) hk') hstop steps (by omega)
        rw [hrest, hcaprest]
        refine ⟨?_, rfl⟩
        rw [monthsFrom, List.map_cons]
        by_cases hdue : pStart ≤ (cardCycle account closeDay month).paymentDate
        · rw [if_pos hdue, List.filter_cons_of_pos (by simpa using hdue), List.append_assoc, List.singleton_append]
        · rw [if_neg hdue, List.filter_cons_of_neg (by simpa using hdue)]
      · -- the card closes on the last day of the calendar
        have hafter : dayAfter (onMonth month closeDay) = .error .overflow := if_pos (not_lt.mp hnext)
        have hlater : ¬ (cardCycle account closeDay (month + ↑(n + 1))).InCalendar := by
          intro h
          rw [hin] at h
          have hok := dayAfter_onMonth (k := month) hclose (by omega)
          rw [hafter] at hok
          cases hok
        rw [hafter, if_neg hlater, if_neg hlater]
        exact ⟨rfl, rfl⟩
    · -- nor then is the one the walk would stop at
      have hlater : ¬ (cardCycle account closeDay (month + ↑(n + 1))).InCalendar := by
        rw [hin] at hcalendar ⊢
        omega
      rw [if_neg hlater, if_neg hlater]
      exact cardWalk_overflow hclose hpayment pStart pEnd steps seen cycles hmonth hcalendar

/-- Where the walk starts: at most the relative month and one before the horizon. -/
def lookbackFrom (account : Account) (pStart : Int) : Result Int :=
  plusMonths pStart (-((max (account.paymentDayRelativeMonth.getD 1) 1 + 1 : Nat) : Int))

/-- The month in which the first cycle paid after a day closes. -/
def closesBeyond (account : Account) (pEnd : Int) : Int :=
  firstMonth (account.paymentDay.getD 1 : Nat) (pEnd + 1) - account.paymentDayRelativeMonth.getD 1

/-- The calendar has the cycle the walk starts in, and the one it stops at. -/
def HorizonInCalendar (account : Account) (closeDay : Nat) (pStart pEnd : Int) : Prop :=
  ∃ cursor, lookbackFrom account pStart = .ok cursor ∧
    (cardCycle account closeDay (firstMonth closeDay cursor)).InCalendar ∧
      (cardCycle account closeDay (closesBeyond account pEnd)).InCalendar

/-- What it is for the cycles due in a horizon to be found. -/
structure DueExactly (account : Account) (closeDay : Nat) (pStart pEnd : Int) : Prop where
  exactly : ∀ cycles, dueCyclesInHorizon account closeDay pStart pEnd = .ok cycles → ∀ cycle, cycle ∈ cycles ↔
    (∃ d, resolveCycle closeDay account.paymentDay account.paymentDayRelativeMonth d = .ok cycle) ∧
      pStart ≤ cycle.paymentDate ∧ cycle.paymentDate ≤ pEnd
  /-- And so each once. -/
  inOrder : ∀ cycles, dueCyclesInHorizon account closeDay pStart pEnd = .ok cycles →
    cycles.Pairwise (fun c d => c.paymentDate < d.paymentDate)
  belowCap : cycleWalkCapHit account closeDay pStart pEnd ≠ .ok true
  returns : (∃ cycles, dueCyclesInHorizon account closeDay pStart pEnd = .ok cycles) ↔
    HorizonInCalendar account closeDay pStart pEnd

theorem monthOf_lookback {pStart cursor : Int} (h : lookbackFrom account pStart = .ok cursor) :
    monthOf cursor = monthOf pStart - (max (account.paymentDayRelativeMonth.getD 1) 1 + 1 : Nat) := by
  unfold lookbackFrom plusMonths at h
  split at h
  · cases h
  · obtain rfl := Except.ok.inj h
    exact monthOf_addMonths _ _

variable (closeDay) in
/-- **The walk starts early enough**: no cycle before its first is paid in the horizon. -/
theorem lookback_enough {pStart cursor : Int} (h : lookbackFrom account pStart = .ok cursor) :
    firstMonth closeDay cursor + account.paymentDayRelativeMonth.getD 1 ≤ monthOf pStart := by
  have hmonth := monthOf_lookback h
  have hfirst := (monthOf_le_firstMonth closeDay cursor).2
  omega

/-- A cycle is paid after a day iff it closes in the first such month, or after it. -/
theorem closesBeyond_le_iff (hpayment : 1 ≤ account.paymentDay.getD 1) {pEnd month : Int} :
    closesBeyond account pEnd ≤ month ↔ pEnd < (cardCycle account closeDay month).paymentDate := by
  have h : firstMonth (account.paymentDay.getD 1 : Nat) (pEnd + 1) ≤ month + account.paymentDayRelativeMonth.getD 1 ↔
      pEnd + 1 ≤ (cardCycle account closeDay month).paymentDate :=
    firstMonth_le_iff (show (1 : Int) ≤ account.paymentDay.getD 1 by omega)
  unfold closesBeyond
  exact ⟨fun hle => Int.add_one_le_iff.mp (h.mp (by omega)), fun hlt => by
    have := h.mpr (Int.add_one_le_iff.mpr hlt)
    omega⟩

/-- The cycles the walk keeps. -/
def dueFrom (account : Account) (closeDay : Nat) (pStart pEnd cursor : Int) : List CreditCardCycle :=
  ((monthsFrom (firstMonth closeDay cursor) (closesBeyond account pEnd - firstMonth closeDay cursor).toNat).map
    (cardCycle account closeDay)).filter (fun c => decide (pStart ≤ c.paymentDate))

variable (closeDay) in
theorem dueFrom_inOrder (hpayment : 1 ≤ account.paymentDay.getD 1) (pStart pEnd cursor : Int) :
    (dueFrom account closeDay pStart pEnd cursor).Pairwise (fun c d => c.paymentDate < d.paymentDate) := by
  refine List.Pairwise.filter _ (List.pairwise_map.mpr ((monthsFrom_pairwise _ _).imp fun {j k} hlt => ?_))
  exact onMonth_strictMono (show (1 : Int) ≤ account.paymentDay.getD 1 by omega) (Int.add_lt_add_right hlt _)

/-- **What the enumeration finds**, once its first cycle is in the calendar. -/
theorem dueCycles_eq (hclose : 1 ≤ closeDay) (hpayment : 1 ≤ account.paymentDay.getD 1) {pStart pEnd cursor : Int}
    (horizon : pStart ≤ pEnd) (hcursor : lookbackFrom account pStart = .ok cursor)
    (hlow : 13 ≤ firstMonth closeDay cursor) :
    dueCyclesInHorizon account closeDay pStart pEnd =
      (if (cardCycle account closeDay (closesBeyond account pEnd)).InCalendar then
        .ok (dueFrom account closeDay pStart pEnd cursor)
      else .error .overflow) ∧
    cycleWalkCapHit account closeDay pStart pEnd =
      if (cardCycle account closeDay (closesBeyond account pEnd)).InCalendar then .ok false else .error .overflow := by
  have hmonth := monthOf_lookback hcursor
  have hfirst := monthOf_le_firstMonth closeDay cursor
  have henough := lookback_enough closeDay hcursor
  have hmonths := monthOf_mono horizon
  have hpay : (1 : Int) ≤ account.paymentDay.getD 1 := by omega
  have hbeyond : closesBeyond account pEnd =
    firstMonth (account.paymentDay.getD 1 : Nat) (pEnd + 1) - account.paymentDayRelativeMonth.getD 1 := rfl
  have hlate := (firstMonth_le_iff hpay).mpr (Int.add_one_le_iff.mpr (lt_onMonth_next hpay pEnd))
  have hearly := (monthOf_mono (show pEnd ≤ pEnd + 1 by omega)).trans
    (monthOf_le_firstMonth (account.paymentDay.getD 1 : Nat) (pEnd + 1)).1
  obtain ⟨n, hn⟩ := Int.eq_ofNat_of_zero_le
    (show 0 ≤ closesBeyond account pEnd - firstMonth closeDay cursor by omega)
  have hstop : firstMonth closeDay cursor + n = closesBeyond account pEnd := by omega
  have hsteps : n < (2 * (monthOf pEnd - monthOf cursor + 1) + walkMargin).toNat := by
    unfold walkMargin
    omega
  have hbefore : ∀ k, firstMonth closeDay cursor ≤ k → k < firstMonth closeDay cursor + n →
      (cardCycle account closeDay k).paymentDate ≤ pEnd := by
    intro k _ hk
    rw [hstop] at hk
    exact not_lt.mp (mt (closesBeyond_le_iff hpayment).mpr (not_le.mpr hk))
  obtain ⟨hwalk, hcap⟩ := cardWalk_eq hclose hpayment pStart n [] [] rfl hlow (by simp)
    hsteps hbefore (by
      rw [hstop]
      exact (closesBeyond_le_iff hpayment).mp le_rfl)
  rw [hstop] at hwalk hcap
  have hfound : ((monthsFrom (firstMonth closeDay cursor) n).map (cardCycle account closeDay)).filter
      (fun c => decide (pStart ≤ c.paymentDate)) = dueFrom account closeDay pStart pEnd cursor := by
    rw [dueFrom, hn, Int.toNat_natCast]
  rw [List.nil_append, hfound] at hwalk
  unfold lookbackFrom at hcursor
  constructor
  · simp only [dueCyclesInHorizon, hcursor, bind_ok, hwalk]
    split
    · have hsorted := (dueFrom_inOrder closeDay hpayment pStart pEnd cursor).imp fun h => h.le
      rw [bind_ok, hsorted.insertionSort_eq]
    · rfl
  · simp only [cycleWalkCapHit, hcursor, bind_ok]
    exact hcap

/-- Nothing is found where the calendar does not have the first cycle. -/
theorem dueCycles_overflow (hclose : 1 ≤ closeDay) (hpayment : 1 ≤ account.paymentDay.getD 1) {pStart pEnd cursor : Int}
    (horizon : pStart ≤ pEnd) (hcursor : lookbackFrom account pStart = .ok cursor)
    (hin : ¬ (cardCycle account closeDay (firstMonth closeDay cursor)).InCalendar) :
    dueCyclesInHorizon account closeDay pStart pEnd = .error .overflow ∧
      cycleWalkCapHit account closeDay pStart pEnd = .error .overflow := by
  have hmonth := monthOf_lookback hcursor
  have hmonths := monthOf_mono horizon
  have hsteps : (2 * (monthOf pEnd - monthOf cursor + 1) + walkMargin).toNat ≠ 0 := by
    unfold walkMargin
    omega
  obtain ⟨steps, hsteps⟩ := Nat.exists_eq_succ_of_ne_zero hsteps
  obtain ⟨hwalk, hcap⟩ := cardWalk_overflow hclose hpayment pStart pEnd steps [] [] rfl hin
  unfold lookbackFrom at hcursor
  constructor
  · simp only [dueCyclesInHorizon, hcursor, bind_ok, hsteps, Nat.succ_eq_add_one, hwalk]
    rfl
  · simp only [cycleWalkCapHit, hcursor, bind_ok, hsteps, Nat.succ_eq_add_one, hcap]

/-- What it takes for the enumeration to return, and what it returns. -/
theorem dueCycles_eq_ok (hclose : 1 ≤ closeDay) (hpayment : 1 ≤ account.paymentDay.getD 1) {pStart pEnd : Int}
    (horizon : pStart ≤ pEnd) {cycles : List CreditCardCycle} :
    dueCyclesInHorizon account closeDay pStart pEnd = .ok cycles ↔ ∃ cursor,
      lookbackFrom account pStart = .ok cursor ∧ (cardCycle account closeDay (firstMonth closeDay cursor)).InCalendar ∧
        (cardCycle account closeDay (closesBeyond account pEnd)).InCalendar ∧
          cycles = dueFrom account closeDay pStart pEnd cursor := by
  constructor
  · intro h
    have hdue := h
    simp only [dueCyclesInHorizon] at h
    obtain ⟨cursor, hcursor, -⟩ := bind_eq_ok.mp h
    have hfirst : (cardCycle account closeDay (firstMonth closeDay cursor)).InCalendar := by
      by_contra hin
      rw [(dueCycles_overflow hclose hpayment horizon hcursor hin).1] at hdue
      cases hdue
    have hlow := ((inCalendar_iff hclose hpayment).mp hfirst).1
    rw [(dueCycles_eq hclose hpayment horizon hcursor hlow).1] at hdue
    split at hdue
    · rename_i hstop
      exact ⟨cursor, hcursor, hfirst, hstop, (Except.ok.inj hdue).symm⟩
    · cases hdue
  · rintro ⟨cursor, hcursor, hfirst, hstop, rfl⟩
    have hlow := ((inCalendar_iff hclose hpayment).mp hfirst).1
    rw [(dueCycles_eq hclose hpayment horizon hcursor hlow).1, if_pos hstop]

theorem cardWalk_below_cap (hclose : 1 ≤ closeDay) (hpayment : 1 ≤ account.paymentDay.getD 1) {pStart pEnd : Int}
    (horizon : pStart ≤ pEnd) : cycleWalkCapHit account closeDay pStart pEnd ≠ .ok true := by
  intro h
  have hcap := h
  simp only [cycleWalkCapHit] at h
  obtain ⟨cursor, hcursor, -⟩ := bind_eq_ok.mp h
  by_cases hin : (cardCycle account closeDay (firstMonth closeDay cursor)).InCalendar
  · have hlow := ((inCalendar_iff hclose hpayment).mp hin).1
    rw [(dueCycles_eq hclose hpayment horizon hcursor hlow).2] at hcap
    split at hcap
    · exact Bool.false_ne_true (Except.ok.inj hcap)
    · cases hcap
  · rw [(dueCycles_overflow hclose hpayment horizon hcursor hin).2] at hcap
    cases hcap

theorem mem_dueFrom (hclose : 1 ≤ closeDay) (hpayment : 1 ≤ account.paymentDay.getD 1) {pStart pEnd cursor : Int}
    (hcursor : lookbackFrom account pStart = .ok cursor)
    (hfirst : (cardCycle account closeDay (firstMonth closeDay cursor)).InCalendar)
    (hstop : (cardCycle account closeDay (closesBeyond account pEnd)).InCalendar) {cycle : CreditCardCycle} :
    cycle ∈ dueFrom account closeDay pStart pEnd cursor ↔
      (∃ d, resolveCycle closeDay account.paymentDay account.paymentDayRelativeMonth d = .ok cycle) ∧
        pStart ≤ cycle.paymentDate ∧ cycle.paymentDate ≤ pEnd := by
  have hlow := ((inCalendar_iff hclose hpayment).mp hfirst).1
  have hhigh := ((inCalendar_iff hclose hpayment).mp hstop).2
  have hday : (1 : Int) ≤ closeDay := by omega
  constructor
  · intro hmem
    obtain ⟨hmem, hfrom⟩ := List.mem_filter.mp hmem
    obtain ⟨month, hmonth, rfl⟩ := List.mem_map.mp hmem
    obtain ⟨hge, hlt⟩ := mem_monthsFrom.mp hmonth
    have hin : (cardCycle account closeDay month).InCalendar := (inCalendar_iff hclose hpayment).mpr (by omega)
    refine ⟨⟨onMonth month closeDay, resolveCycle_of_covers hclose hpayment hin ?_⟩, of_decide_eq_true hfrom, ?_⟩
    · exact ⟨Int.add_one_le_iff.mpr (onMonth_strictMono hday (by omega)), le_rfl⟩
    · exact not_lt.mp (mt (closesBeyond_le_iff hpayment).mpr (by omega))
  · rintro ⟨⟨d, hd⟩, hfrom, hto⟩
    obtain ⟨hcycle, -⟩ := (resolveCycle_eq_ok hclose hpayment).mp hd
    have hdue : cycle = cardCycle account closeDay (firstMonth closeDay d) := hcycle
    rw [hdue] at hfrom hto ⊢
    refine List.mem_filter.mpr ⟨List.mem_map.mpr ⟨_, mem_monthsFrom.mpr ⟨?_, ?_⟩, rfl⟩, decide_eq_true hfrom⟩
    · -- it is paid in the month of the start of the horizon, or later
      have henough := lookback_enough closeDay hcursor
      have hpaid := monthOf_mono hfrom
      have hpayday : monthOf (cardCycle account closeDay (firstMonth closeDay d)).paymentDate =
          firstMonth closeDay d + account.paymentDayRelativeMonth.getD 1 :=
        monthOf_onMonth (show (1 : Int) ≤ account.paymentDay.getD 1 by omega)
      omega
    · have hbefore := mt (closesBeyond_le_iff hpayment).mp (not_lt.mpr hto)
      omega

theorem dueExactly (hclose : 1 ≤ closeDay) (hpayment : 1 ≤ account.paymentDay.getD 1) {pStart pEnd : Int}
    (horizon : pStart ≤ pEnd) : DueExactly account closeDay pStart pEnd where
  exactly cycles h cycle := by
    obtain ⟨cursor, hcursor, hfirst, hstop, rfl⟩ := (dueCycles_eq_ok hclose hpayment horizon).mp h
    exact mem_dueFrom hclose hpayment hcursor hfirst hstop
  inOrder cycles h := by
    obtain ⟨cursor, -, -, -, rfl⟩ := (dueCycles_eq_ok hclose hpayment horizon).mp h
    exact dueFrom_inOrder closeDay hpayment pStart pEnd cursor
  belowCap := cardWalk_below_cap hclose hpayment horizon
  returns := by
    constructor
    · rintro ⟨cycles, h⟩
      obtain ⟨cursor, hcursor, hfirst, hstop, -⟩ := (dueCycles_eq_ok hclose hpayment horizon).mp h
      exact ⟨cursor, hcursor, hfirst, hstop⟩
    · rintro ⟨cursor, hcursor, hfirst, hstop⟩
      exact ⟨_, (dueCycles_eq_ok hclose hpayment horizon).mpr ⟨cursor, hcursor, hfirst, hstop, rfl⟩⟩

end Walk


/-- **Every day has one cycle, and the cycles due in a horizon are found**, wherever the
calendar has them. -/
theorem card_cycles_exact (account : Account) (closeDay : Nat) (hclose : 1 ≤ closeDay)
    (hpayment : 1 ≤ account.paymentDay.getD 1) :
    OneCycleEach closeDay account.paymentDay account.paymentDayRelativeMonth ∧
      ∀ pStart pEnd, pStart ≤ pEnd → DueExactly account closeDay pStart pEnd :=
  ⟨oneCycleEach hclose hpayment, fun _ _ horizon => dueExactly hclose hpayment horizon⟩

/-- The card of 5 and 10, in January and February 2025. -/
theorem card_cycles_exact_january :
    DueExactly overlappingCard 5 739252 739310 ∧ HorizonInCalendar overlappingCard 5 739252 739310 := by
  obtain ⟨-, hdue⟩ := card_cycles_exact overlappingCard 5 (by decide) (by decide)
  refine ⟨hdue 739252 739310 (by decide), 739191, by decide +kernel, by decide +kernel, by decide +kernel⟩

/-- The last day of the calendar has no cycle where the card closes before it: the close
after it would lie in the year 10000. -/
theorem no_cycle_of_last_day : ¬ ∀ closeDay paymentDay relative d, 1 ≤ closeDay → 1 ≤ d → d ≤ dateMax →
    ∃ cycle, resolveCycle closeDay paymentDay relative d = .ok cycle := by
  intro h
  obtain ⟨cycle, hcycle⟩ := h 5 (some 10) (some 1) dateMax (by decide) (by decide) le_rfl
  have hover : resolveCycle 5 (some 10) (some 1) dateMax = .error .overflow := by decide +kernel
  rw [hover] at hcycle
  cases hcycle

end BetterDecision
