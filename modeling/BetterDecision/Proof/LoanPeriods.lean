import BetterDecision.Lib.Tiling
import BetterDecision.Model.LoanForecast
import BetterDecision.Proof.Dates

/-!
# The periods of a loan

The periods after the first end on one day of the month, and the payments fall due on
another. Both days are clamped to the length of the month, each on its own. Where the due
day is no later than the end day it stays so, however short the month, and every period
holds the due date of its month. Where it is later, the due date of a month belongs to the
period after it; but in a month no longer than the end day both are its last day, and the
due date is pulled into the period of its own month. A period on one side of such a month
holds two due dates, on the other none.
-/

namespace BetterDecision

open Calendar Tiling

/-! ## The periods -/

theorem addMonths_zero (d : Int) : addMonths d 0 = d := by
  rw [addMonths, Int.add_zero, onMonth_monthOf]

/-- A month is a day at least. -/
theorem add_le_addMonths (d : Int) (n : Nat) : d + n ≤ addMonths d n := by
  induction n with
  | zero =>
    have h := addMonths_zero d
    rw [Nat.cast_zero, h]
    omega
  | succ n ih =>
    have h : addMonths d n < addMonths d ((n + 1 : Nat) : Int) := addMonths_lt_addMonths (by omega)
    push_cast at h ⊢
    omega

/-- The months after the first period that start by the horizon. -/
def periodsFrom (firstEnd horizonEnd k : Int) (n : Nat) : List (Int × Int) :=
  (monthsFrom k n).map (fun j => (addMonths firstEnd (j - 1) + 1, min (addMonths firstEnd j) horizonEnd))

theorem loanPeriodsAfter_eq {firstEnd horizonEnd : Int} (hfirst : 1 ≤ firstEnd) {fuel n : Nat} {k last : Int}
    (hk : 1 ≤ k) (hlast : last = min (addMonths firstEnd (k - 1)) horizonEnd)
    (hbefore : ∀ j, k ≤ j → j < k + n → addMonths firstEnd (j - 1) < horizonEnd)
    (hstop : horizonEnd ≤ addMonths firstEnd (k + n - 1)) (hfuel : n ≤ fuel)
    (hcalendar : monthOf firstEnd + k - 1 < monthAfterLast) :
    loanPeriodsAfter firstEnd horizonEnd fuel k last =
      if monthOf firstEnd + (k + n - 1) < monthAfterLast then .ok (periodsFrom firstEnd horizonEnd k n)
      else .error .overflow := by
  have hmonth := (monthOf_calendar firstEnd).1.mp hfirst
  induction n generalizing fuel k last with
  | zero =>
    rw [Nat.cast_zero, Int.add_zero] at hstop ⊢
    rw [if_pos (by omega)]
    have hdone : ¬ last < horizonEnd := by omega
    cases fuel with
    | zero => rfl
    | succ fuel =>
      rw [loanPeriodsAfter, if_neg hdone]
      rfl
  | succ n ih =>
    obtain ⟨fuel, rfl⟩ := Nat.exists_eq_succ_of_ne_zero (show fuel ≠ 0 by omega)
    have hgo := hbefore k le_rfl (by omega)
    have hlast' : last = addMonths firstEnd (k - 1) := by omega
    have hmonths : k + ((n + 1 : Nat) : Int) - 1 = k + 1 + (n : Int) - 1 := by
      push_cast
      omega
    rw [loanPeriodsAfter, if_pos (by omega), plusMonths_eq]
    by_cases hnext : monthOf firstEnd + k < monthAfterLast
    · rw [hmonths] at hstop ⊢
      have hcursor : k + 1 - 1 = k := by omega
      rw [if_pos ⟨by omega, hnext⟩, bind_ok, ih (by omega) (by rw [hcursor])
        (fun j hj hj' => hbefore j (by omega) (by push_cast; omega)) hstop (by omega) (by omega)]
      by_cases hin : monthOf firstEnd + (k + 1 + (n : Int) - 1) < monthAfterLast
      · rw [if_pos hin, if_pos hin, bind_ok, hlast']
        rfl
      · rw [if_neg hin, if_neg hin]
        rfl
    · rw [if_neg (by omega), if_neg (by push_cast; omega)]
      rfl

theorem periodsFrom_tiles {firstEnd horizonEnd k : Int} {n : Nat}
    (hbefore : ∀ j, k ≤ j → j < k + n → addMonths firstEnd (j - 1) < horizonEnd)
    (hstop : horizonEnd ≤ addMonths firstEnd (k + n - 1)) :
    Tiles (min (addMonths firstEnd (k - 1)) horizonEnd + 1) horizonEnd (periodsFrom firstEnd horizonEnd k n) := by
  induction n generalizing k with
  | zero =>
    rw [Nat.cast_zero, Int.add_zero] at hstop
    show _ = horizonEnd + 1
    omega
  | succ n ih =>
    have hgo := hbefore k le_rfl (by omega)
    have hlt : addMonths firstEnd (k - 1) < addMonths firstEnd k := addMonths_lt_addMonths (by omega)
    have hmonths : k + ((n + 1 : Nat) : Int) - 1 = k + 1 + (n : Int) - 1 := by
      push_cast
      omega
    rw [hmonths] at hstop
    have hrest := ih (fun j hj hj' => hbefore j (by omega) (by push_cast; omega)) hstop
    have hcursor : k + 1 - 1 = k := by omega
    rw [hcursor] at hrest
    refine ⟨?_, ?_, hrest⟩
    · show addMonths firstEnd (k - 1) + 1 = _
      omega
    · show addMonths firstEnd (k - 1) + 1 ≤ min (addMonths firstEnd k) horizonEnd
      omega

/-- How many periods come after the first. -/
def monthsAfterFirst (firstEnd horizonEnd : Int) : Nat :=
  (firstMonth (dayOf firstEnd) horizonEnd - monthOf firstEnd).toNat

theorem monthsAfterFirst_spec (firstEnd horizonEnd : Int) :
    (∀ j, 1 ≤ j → j < 1 + (monthsAfterFirst firstEnd horizonEnd : Int) → addMonths firstEnd (j - 1) < horizonEnd) ∧
      horizonEnd ≤ addMonths firstEnd (1 + (monthsAfterFirst firstEnd horizonEnd : Int) - 1) := by
  have hmonths : ∀ k, firstMonth (dayOf firstEnd) horizonEnd ≤ monthOf firstEnd + k ↔
      horizonEnd ≤ addMonths firstEnd k := fun k => firstMonth_le_iff (dayOf_pos firstEnd)
  unfold monthsAfterFirst
  constructor
  · intro j hj hlt
    exact not_le.mp (mt (hmonths (j - 1)).mpr (by omega))
  · exact (hmonths _).mp (by omega)

/-- The periods come out unless the last of them would end past the calendar. -/
theorem loanPeriods_eq {firstEnd : Int} (hfirst : 1 ≤ firstEnd) (hlast : firstEnd ≤ dateMax) (windowStart horizonEnd : Int) :
    loanPeriods windowStart firstEnd horizonEnd =
      if horizonEnd ≤ onMonth (monthAfterLast - 1) (dayOf firstEnd) then
        .ok ((windowStart, min firstEnd horizonEnd) ::
          periodsFrom firstEnd horizonEnd 1 (monthsAfterFirst firstEnd horizonEnd))
      else .error .overflow := by
  obtain ⟨hbefore, hstop⟩ := monthsAfterFirst_spec firstEnd horizonEnd
  have hmonth := (monthOf_calendar firstEnd).2.mp hlast
  have hfuel : monthsAfterFirst firstEnd horizonEnd ≤ (horizonEnd - firstEnd).toNat := by
    cases hn : monthsAfterFirst firstEnd horizonEnd with
    | zero => exact Nat.zero_le _
    | succ n =>
      have hgo := hbefore (n + 1) (by omega) (by omega)
      have hdays := add_le_addMonths firstEnd n
      rw [Int.add_sub_cancel] at hgo
      omega
  have hroom : horizonEnd ≤ onMonth (monthAfterLast - 1) (dayOf firstEnd) ↔
      monthOf firstEnd + (1 + (monthsAfterFirst firstEnd horizonEnd : Int) - 1) < monthAfterLast := by
    rw [← firstMonth_le_iff (dayOf_pos firstEnd), monthsAfterFirst]
    omega
  have hstart : addMonths firstEnd (1 - 1) = firstEnd := addMonths_zero firstEnd
  simp only [loanPeriods]
  rw [loanPeriodsAfter_eq hfirst le_rfl (by rw [hstart]) hbefore hstop hfuel (by omega)]
  by_cases hin : horizonEnd ≤ onMonth (monthAfterLast - 1) (dayOf firstEnd)
  · rw [if_pos hin, if_pos (hroom.mp hin)]
    rfl
  · rw [if_neg hin, if_neg (mt hroom.mpr hin)]
    rfl

/-! ## The due dates -/

/-- The due dates of a schedule, `n` of them from the `k`-th on. -/
def dueDatesFrom (firstPaymentDate : Int) (n : Nat) (k : Int) : List Int :=
  (monthsFrom k n).map (addMonths firstPaymentDate)

theorem dueDatesFrom_succ (firstPaymentDate : Int) (n : Nat) (k : Int) : dueDatesFrom firstPaymentDate (n + 1) k =
    addMonths firstPaymentDate k :: dueDatesFrom firstPaymentDate n (k + 1) := rfl

/-- The due dates in a period come out unless the schedule goes on past the calendar before
it goes past the period. -/
theorem dueFrom_eq {firstPaymentDate pStart pEnd : Int} (hfirst : 1 ≤ firstPaymentDate)
    {n : Nat} {k : Int} (hk : 0 ≤ k) (hcalendar : monthOf firstPaymentDate + k ≤ monthAfterLast)
    (hpast : monthOf firstPaymentDate + k = monthAfterLast →
      onMonth (monthAfterLast - 1) (dayOf firstPaymentDate) ≤ pEnd) :
    dueLoanPaymentDatesFrom firstPaymentDate pStart pEnd n k =
      if pEnd < onMonth (monthAfterLast - 1) (dayOf firstPaymentDate) ∨
          monthOf firstPaymentDate + k + n ≤ monthAfterLast then
        .ok ((dueDatesFrom firstPaymentDate n k).filter (fun d => decide (pStart ≤ d ∧ d ≤ pEnd)))
      else .error .overflow := by
  have hmonth := (monthOf_calendar firstPaymentDate).1.mp hfirst
  induction n generalizing k with
  | zero =>
    rw [if_pos (.inr (by omega))]
    rfl
  | succ n ih =>
    rw [dueLoanPaymentDatesFrom, plusMonths_eq]
    by_cases hin : monthOf firstPaymentDate + k < monthAfterLast
    · rw [if_pos ⟨by omega, hin⟩, bind_ok]
      by_cases hover : pEnd < addMonths firstPaymentDate k
      · -- and so is every date after it
        have hlast : addMonths firstPaymentDate k ≤ onMonth (monthAfterLast - 1) (dayOf firstPaymentDate) :=
          (onMonth_strictMono (dayOf_pos firstPaymentDate)).monotone (by omega)
        have hnone : (dueDatesFrom firstPaymentDate (n + 1) k).filter
            (fun d => decide (pStart ≤ d ∧ d ≤ pEnd)) = [] := by
          refine List.filter_eq_nil_iff.mpr fun d hd => ?_
          obtain ⟨j, hj, rfl⟩ := List.mem_map.mp hd
          have hlater : addMonths firstPaymentDate k ≤ addMonths firstPaymentDate j :=
            (onMonth_strictMono (dayOf_pos firstPaymentDate)).monotone (by have := mem_monthsFrom.mp hj; omega)
          simp only [decide_eq_true_eq]
          omega
        rw [if_pos hover, if_pos (.inl (by omega)), hnone]
      · have hnext := ih (k := k + 1) (by omega) (by omega) fun heq => by
          have hlast : addMonths firstPaymentDate k = onMonth (monthAfterLast - 1) (dayOf firstPaymentDate) := by
            rw [addMonths, show monthOf firstPaymentDate + k = monthAfterLast - 1 by omega]
          omega
        have hmonths : monthOf firstPaymentDate + k + ((n + 1 : Nat) : Int) =
            monthOf firstPaymentDate + (k + 1) + (n : Int) := by
          push_cast
          omega
        rw [if_neg hover, hnext, hmonths]
        by_cases hreturns : pEnd < onMonth (monthAfterLast - 1) (dayOf firstPaymentDate) ∨
            monthOf firstPaymentDate + (k + 1) + n ≤ monthAfterLast
        · rw [if_pos hreturns, if_pos hreturns, bind_ok, dueDatesFrom_succ]
          by_cases hstart : pStart ≤ addMonths firstPaymentDate k
          · rw [if_pos hstart, List.filter_cons_of_pos (by simpa using ⟨hstart, not_lt.mp hover⟩)]
          · rw [if_neg hstart, List.filter_cons_of_neg (by simpa using fun h => absurd h hstart)]
        · rw [if_neg hreturns, if_neg hreturns]
          rfl
    · rw [if_neg (by omega), if_neg (by push_cast; omega)]
      rfl

/-- A date of the schedule. -/
def Scheduled (firstPaymentDate : Int) (termMonths : Nat) (d : Int) : Prop :=
  ∃ k : Nat, k < termMonths ∧ d = addMonths firstPaymentDate k

theorem mem_dueDatesFrom {firstPaymentDate : Int} {n : Nat} {d : Int} :
    d ∈ dueDatesFrom firstPaymentDate n 0 ↔ Scheduled firstPaymentDate n d := by
  constructor
  · intro h
    obtain ⟨k, hk, rfl⟩ := List.mem_map.mp h
    obtain ⟨hge, hlt⟩ := mem_monthsFrom.mp hk
    refine ⟨k.toNat, by omega, ?_⟩
    rw [Int.toNat_of_nonneg hge]
  · rintro ⟨k, hk, rfl⟩
    exact List.mem_map.mpr ⟨k, mem_monthsFrom.mpr (by omega), rfl⟩

theorem dueDatesFrom_pairwise (firstPaymentDate : Int) (n : Nat) (k : Int) :
    (dueDatesFrom firstPaymentDate n k).Pairwise (· < ·) :=
  List.pairwise_map.mpr ((monthsFrom_pairwise k n).imp fun h => addMonths_lt_addMonths h)

/-- The period lies in the term: from the first payment date to the last. -/
def WithinTerm (firstPaymentDate : Int) (termMonths : Nat) (period : Int × Int) : Prop :=
  firstPaymentDate ≤ period.1 ∧ ∃ d, Scheduled firstPaymentDate termMonths d ∧ period.2 ≤ d

/-- The period holds one date of the schedule, and it is the one found for it. -/
def HoldsOneDueDate (firstPaymentDate : Int) (termMonths : Nat) (period : Int × Int) : Prop :=
  ∃ due, (∀ d, Scheduled firstPaymentDate termMonths d ∧ period.1 ≤ d ∧ d ≤ period.2 ↔ d = due) ∧
    dueLoanPaymentDates firstPaymentDate termMonths period.1 period.2 = .ok [due]

/-- The two days of the month agree on a month and the one before: the due day is no later
than the end day, or the months end both by the end day or both after it. -/
def DaysAgree (endDay dueDay month : Int) : Prop :=
  dueDay ≤ endDay ∨ (monthLength month ≤ endDay ↔ monthLength (month - 1) ≤ endDay)

/-- The schedule ends in the calendar, or a date of it past the period does. -/
def ScheduleInCalendar (firstPaymentDate : Int) (termMonths : Nat) (periodEnd : Int) : Prop :=
  periodEnd < onMonth (monthAfterLast - 1) (dayOf firstPaymentDate) ∨
    monthOf firstPaymentDate + termMonths ≤ monthAfterLast

section Period

variable {firstPaymentDate : Int} {termMonths : Nat} {firstEnd k : Int}

/-- The dates of the schedule in a whole month of the term. -/
theorem scheduled_in_period (hwithin : WithinTerm firstPaymentDate termMonths
    (addMonths firstEnd (k - 1) + 1, addMonths firstEnd k)) (d : Int) :
    (Scheduled firstPaymentDate termMonths d ∧ addMonths firstEnd (k - 1) + 1 ≤ d ∧ d ≤ addMonths firstEnd k) ↔
      d = onMonth (monthOf firstEnd + k) (dayOf firstPaymentDate) ∧
          (dayOf firstPaymentDate ≤ dayOf firstEnd ∨ monthLength (monthOf firstEnd + k) ≤ dayOf firstEnd) ∨
        d = onMonth (monthOf firstEnd + k - 1) (dayOf firstPaymentDate) ∧
          dayOf firstEnd < dayOf firstPaymentDate ∧ dayOf firstEnd < monthLength (monthOf firstEnd + k - 1) := by
  have hstart : addMonths firstEnd (k - 1) = onMonth (monthOf firstEnd + k - 1) (dayOf firstEnd) := by
    rw [addMonths, Int.add_sub_assoc]
  have hmono := onMonth_strictMono (dayOf_pos firstPaymentDate)
  have hbetween : ∀ j, addMonths firstEnd (k - 1) + 1 ≤ onMonth j (dayOf firstPaymentDate) ∧
        onMonth j (dayOf firstPaymentDate) ≤ addMonths firstEnd k ↔
      j = monthOf firstEnd + k ∧
          (dayOf firstPaymentDate ≤ dayOf firstEnd ∨ monthLength (monthOf firstEnd + k) ≤ dayOf firstEnd) ∨
        j = monthOf firstEnd + k - 1 ∧ dayOf firstEnd < dayOf firstPaymentDate ∧
          dayOf firstEnd < monthLength (monthOf firstEnd + k - 1) := by
    intro j
    rw [hstart]
    exact onMonth_between_iff (dayOf_pos firstPaymentDate) (dayOf_pos firstEnd)
  constructor
  · rintro ⟨⟨j, -, rfl⟩, hin⟩
    rcases (hbetween _).mp hin with ⟨hj, hdays⟩ | ⟨hj, hdays⟩
    · exact .inl ⟨by rw [addMonths, hj], hdays⟩
    · exact .inr ⟨by rw [addMonths, hj], hdays⟩
  · intro h
    obtain ⟨j, rfl, hin⟩ : ∃ j, d = onMonth j (dayOf firstPaymentDate) ∧
        addMonths firstEnd (k - 1) + 1 ≤ onMonth j (dayOf firstPaymentDate) ∧
          onMonth j (dayOf firstPaymentDate) ≤ addMonths firstEnd k := by
      rcases h with ⟨rfl, hdays⟩ | ⟨rfl, hdays⟩
      · exact ⟨_, rfl, (hbetween _).mpr (.inl ⟨rfl, hdays⟩)⟩
      · exact ⟨_, rfl, (hbetween _).mpr (.inr ⟨rfl, hdays⟩)⟩
    -- the term has every due date of the period
    obtain ⟨hfrom, _, ⟨last, hlast, rfl⟩, hto⟩ := hwithin
    have hge : monthOf firstPaymentDate ≤ j := by
      refine hmono.le_iff_le.mp ?_
      show onMonth (monthOf firstPaymentDate) (dayOf firstPaymentDate) ≤ onMonth j (dayOf firstPaymentDate)
      rw [onMonth_monthOf]
      exact hfrom.trans hin.1
    have hle : j ≤ monthOf firstPaymentDate + last := hmono.le_iff_le.mp (hin.2.trans hto)
    refine ⟨⟨(j - monthOf firstPaymentDate).toNat, by omega, ?_⟩, hin⟩
    rw [addMonths, Int.toNat_of_nonneg (by omega), show monthOf firstPaymentDate + (j - monthOf firstPaymentDate) = j by
      omega]

theorem dueDates_eq_ok (hfirst : 1 ≤ firstPaymentDate) (hlast : firstPaymentDate ≤ dateMax) {period : Int × Int}
    {dates : List Int} : dueLoanPaymentDates firstPaymentDate termMonths period.1 period.2 = .ok dates ↔
      ScheduleInCalendar firstPaymentDate termMonths period.2 ∧ dates =
        (dueDatesFrom firstPaymentDate termMonths 0).filter (fun d => decide (period.1 ≤ d ∧ d ≤ period.2)) := by
  have hmonth := (monthOf_calendar firstPaymentDate).2.mp hlast
  unfold ScheduleInCalendar
  rw [dueLoanPaymentDates, dueFrom_eq hfirst le_rfl (by omega) fun h => absurd h (by omega), Int.add_zero]
  split
  · rename_i hin
    rw [Except.ok.injEq, eq_comm]
    exact ⟨fun h => ⟨hin, h⟩, fun h => h.2⟩
  · rename_i hin
    exact ⟨fun h => (by cases h), fun h => absurd h.1 hin⟩

/-- The dates found for a period are those of the schedule in it. -/
theorem mem_dueDates {period : Int × Int} {d : Int} :
    d ∈ (dueDatesFrom firstPaymentDate termMonths 0).filter (fun d => decide (period.1 ≤ d ∧ d ≤ period.2)) ↔
      Scheduled firstPaymentDate termMonths d ∧ period.1 ≤ d ∧ d ≤ period.2 := by
  rw [List.mem_filter, mem_dueDatesFrom, decide_eq_true_eq]

/-- **A whole month of the term holds one due date iff the two days agree on its month.** -/
theorem holdsOneDueDate_iff (hfirst : 1 ≤ firstPaymentDate) (hlast : firstPaymentDate ≤ dateMax)
    (hwithin : WithinTerm firstPaymentDate termMonths (addMonths firstEnd (k - 1) + 1, addMonths firstEnd k)) :
    HoldsOneDueDate firstPaymentDate termMonths (addMonths firstEnd (k - 1) + 1, addMonths firstEnd k) ↔
      DaysAgree (dayOf firstEnd) (dayOf firstPaymentDate) (monthOf firstEnd + k) ∧
        ScheduleInCalendar firstPaymentDate termMonths (addMonths firstEnd k) := by
  have hscheduled := scheduled_in_period hwithin
  have hdistinct := onMonth_lt_onMonth (d := dayOf firstPaymentDate)
    (show monthOf firstEnd + k - 1 < monthOf firstEnd + k by omega) (dayOf_pos firstPaymentDate)
  unfold DaysAgree
  constructor
  · rintro ⟨due, hone, hfound⟩
    refine ⟨?_, ((dueDates_eq_ok hfirst hlast).mp hfound).1⟩
    have hthis := (hscheduled _).symm.trans (hone (onMonth (monthOf firstEnd + k) (dayOf firstPaymentDate)))
    have hprevious := (hscheduled _).symm.trans (hone (onMonth (monthOf firstEnd + k - 1) (dayOf firstPaymentDate)))
    have hdue := (hscheduled _).mp ((hone due).mpr rfl)
    omega
  · rintro ⟨hagree, hcalendar⟩
    obtain ⟨due, hone⟩ : ∃ due, ∀ d, Scheduled firstPaymentDate termMonths d ∧
        addMonths firstEnd (k - 1) + 1 ≤ d ∧ d ≤ addMonths firstEnd k ↔ d = due := by
      by_cases hthis : dayOf firstPaymentDate ≤ dayOf firstEnd ∨ monthLength (monthOf firstEnd + k) ≤ dayOf firstEnd
      · refine ⟨onMonth (monthOf firstEnd + k) (dayOf firstPaymentDate), fun d => (hscheduled d).trans ?_⟩
        omega
      · refine ⟨onMonth (monthOf firstEnd + k - 1) (dayOf firstPaymentDate), fun d => (hscheduled d).trans ?_⟩
        omega
    refine ⟨due, hone, (dueDates_eq_ok hfirst hlast).mpr ⟨hcalendar, ?_⟩⟩
    have hsorted := (dueDatesFrom_pairwise firstPaymentDate termMonths 0).filter
      (fun d => decide (addMonths firstEnd (k - 1) + 1 ≤ d ∧ d ≤ addMonths firstEnd k))
    refine (List.perm_singleton.mp ((List.perm_ext_iff_of_nodup (hsorted.imp ne_of_lt) (List.nodup_singleton due)).mpr
      fun d => ?_)).symm
    rw [List.mem_singleton]
    have hmem : _ ↔ Scheduled firstPaymentDate termMonths d ∧
        (addMonths firstEnd (k - 1) + 1, addMonths firstEnd k).1 ≤ d ∧
          d ≤ (addMonths firstEnd (k - 1) + 1, addMonths firstEnd k).2 := mem_dueDates
    exact hmem.trans (hone d)

end Period

/-! ## Lining up -/

/-- What it is for the periods to lie end to end and to cover the window. -/
structure CoversWindow (windowStart horizonEnd : Int) (periods : List (Int × Int)) : Prop where
  consecutive : periods.IsChain (fun p q => q.1 = p.2 + 1)
  disjoint : periods.Pairwise (fun p q => p.2 < q.1)
  covers : ∀ d, (∃ p ∈ periods, p.1 ≤ d ∧ d ≤ p.2) ↔ windowStart ≤ d ∧ d ≤ horizonEnd

/-- Not clipped at the horizon. -/
def WholeMonth (firstEnd : Int) (period : Int × Int) : Prop := ∃ k : Nat, period.2 = addMonths firstEnd k

/-- The periods come out and cover the window, and each whole month of the term after the
first holds one due date. -/
def LinesUp (windowStart firstEnd horizonEnd firstPaymentDate : Int) (termMonths : Nat) : Prop :=
  ∃ periods, loanPeriods windowStart firstEnd horizonEnd = .ok periods ∧
    CoversWindow windowStart horizonEnd periods ∧
      ∀ period ∈ periods.tail, WholeMonth firstEnd period → WithinTerm firstPaymentDate termMonths period →
        HoldsOneDueDate firstPaymentDate termMonths period

/-- The two days agree on every whole month of the term. -/
def DueDaysAgree (firstEnd horizonEnd firstPaymentDate : Int) (termMonths : Nat) : Prop :=
  ∀ k : Nat, 1 ≤ k → addMonths firstEnd k ≤ horizonEnd →
    WithinTerm firstPaymentDate termMonths (addMonths firstEnd (k - 1) + 1, addMonths firstEnd k) →
      DaysAgree (dayOf firstEnd) (dayOf firstPaymentDate) (monthOf firstEnd + k) ∧
        ScheduleInCalendar firstPaymentDate termMonths (addMonths firstEnd k)

section LinesUp

variable {windowStart firstEnd horizonEnd : Int}

theorem covers_window (hwindow : windowStart ≤ firstEnd) : CoversWindow windowStart horizonEnd
    ((windowStart, min firstEnd horizonEnd) ::
      periodsFrom firstEnd horizonEnd 1 (monthsAfterFirst firstEnd horizonEnd)) := by
  obtain ⟨hbefore, hstop⟩ := monthsAfterFirst_spec firstEnd horizonEnd
  have hrest := periodsFrom_tiles hbefore hstop
  have hstart : addMonths firstEnd (1 - 1) = firstEnd := addMonths_zero firstEnd
  rw [hstart] at hrest
  rcases le_or_gt windowStart horizonEnd with hle | hgt
  · have htiles : Tiles windowStart horizonEnd ((windowStart, min firstEnd horizonEnd) ::
        periodsFrom firstEnd horizonEnd 1 (monthsAfterFirst firstEnd horizonEnd)) :=
      ⟨rfl, le_min hwindow hle, hrest⟩
    exact ⟨htiles.consecutive, htiles.disjoint, htiles.covers⟩
  · -- a horizon before the window: one period, with no day in it
    have hnone : monthsAfterFirst firstEnd horizonEnd = 0 := by
      have hmonths : firstMonth (dayOf firstEnd) horizonEnd ≤ monthOf firstEnd := by
        rw [firstMonth_le_iff (dayOf_pos firstEnd), onMonth_monthOf]
        omega
      unfold monthsAfterFirst
      omega
    rw [hnone]
    refine ⟨List.isChain_singleton _, List.pairwise_singleton _ _, fun d => ?_⟩
    rw [periodsFrom, monthsFrom, List.map_nil, List.exists_mem_cons_iff]
    constructor
    · rintro (h | ⟨_, h, -⟩)
      · omega
      · exact absurd h List.not_mem_nil
    · intro h
      omega

theorem mem_periods {period : Int × Int} :
    period ∈ periodsFrom firstEnd horizonEnd 1 (monthsAfterFirst firstEnd horizonEnd) ∧ WholeMonth firstEnd period ↔
      ∃ k : Nat, 1 ≤ k ∧ addMonths firstEnd k ≤ horizonEnd ∧
        period = (addMonths firstEnd (k - 1) + 1, addMonths firstEnd k) := by
  obtain ⟨hbefore, hstop⟩ := monthsAfterFirst_spec firstEnd horizonEnd
  have hmono : StrictMono (addMonths firstEnd) := fun _ _ h => addMonths_lt_addMonths h
  constructor
  · rintro ⟨hmem, whole, hwhole⟩
    obtain ⟨j, hj, rfl⟩ := List.mem_map.mp hmem
    obtain ⟨hge, hlt⟩ := mem_monthsFrom.mp hj
    have hgo := hbefore j hge hlt
    have hend : addMonths firstEnd j ≤ horizonEnd := by
      by_contra hclipped
      dsimp only at hwhole
      have hlow := hmono.lt_iff_lt.mp (show addMonths firstEnd (j - 1) < addMonths firstEnd whole by omega)
      have hhigh := hmono.lt_iff_lt.mp (show addMonths firstEnd whole < addMonths firstEnd j by omega)
      omega
    refine ⟨j.toNat, by omega, ?_, ?_⟩
    · rwa [Int.toNat_of_nonneg (by omega)]
    · rw [Int.toNat_of_nonneg (by omega), min_eq_left hend]
  · rintro ⟨k, hk, hend, rfl⟩
    have hle := hmono.le_iff_le.mp (hend.trans hstop)
    refine ⟨List.mem_map.mpr ⟨k, mem_monthsFrom.mpr (by omega), ?_⟩, k, rfl⟩
    rw [min_eq_left hend]

/-- **Loan periods and due dates line up iff** the periods end in the calendar and the due
day agrees with the end day on every whole month of the term. -/
theorem loan_periods_line_up_iff {firstPaymentDate : Int} (termMonths : Nat) (hwindow : windowStart ≤ firstEnd)
    (hend : 1 ≤ firstEnd ∧ firstEnd ≤ dateMax) (hfirst : 1 ≤ firstPaymentDate ∧ firstPaymentDate ≤ dateMax) :
    LinesUp windowStart firstEnd horizonEnd firstPaymentDate termMonths ↔
      horizonEnd ≤ onMonth (monthAfterLast - 1) (dayOf firstEnd) ∧
        DueDaysAgree firstEnd horizonEnd firstPaymentDate termMonths := by
  have hperiods := loanPeriods_eq hend.1 hend.2 windowStart horizonEnd
  constructor
  · rintro ⟨periods, hok, -, hdue⟩
    rw [hperiods] at hok
    split at hok
    · rename_i hroom
      obtain rfl := Except.ok.inj hok
      refine ⟨hroom, fun k hk hle hwithin => (holdsOneDueDate_iff hfirst.1 hfirst.2 hwithin).mp ?_⟩
      obtain ⟨hmem, hwhole⟩ := mem_periods.mpr ⟨k, hk, hle, rfl⟩
      exact hdue _ hmem hwhole hwithin
    · cases hok
  · rintro ⟨hroom, hagree⟩
    refine ⟨_, hperiods.trans (if_pos hroom), covers_window hwindow, fun period hmem hwhole hwithin => ?_⟩
    obtain ⟨k, hk, hle, rfl⟩ := mem_periods.mp ⟨hmem, hwhole⟩
    exact (holdsOneDueDate_iff hfirst.1 hfirst.2 hwithin).mpr (hagree k hk hle hwithin)

end LinesUp

/-- Periods that end on the 31st, payments due on the 15th. -/
theorem loan_periods_line_up_31_15 : LinesUp 739252 739282 739616 739266 36 := by
  refine (loan_periods_line_up_iff 36 (by decide) (by decide) (by decide)).mpr ⟨by decide +kernel, fun k _ _ _ => ?_⟩
  exact ⟨.inl (by decide +kernel), .inr (by decide +kernel)⟩

/-- February 2025 is the first period, so that the later ones end on the 28th, and the loan
is due on the 30th: the due date of February is its 28th, that of March comes after the
28th, and the period of March 1 to 28 has none. -/
theorem loan_period_without_due_date : ¬ ∀ windowStart firstEnd horizonEnd firstPaymentDate termMonths,
    windowStart ≤ firstEnd → LinesUp windowStart firstEnd horizonEnd firstPaymentDate termMonths := by
  intro h
  obtain ⟨periods, hok, -, hdue⟩ := h 739283 739310 739432 739281 36 (by decide)
  have hperiods : loanPeriods 739283 739310 739432 =
      .ok [(739283, 739310), (739311, 739338), (739339, 739369), (739370, 739399), (739400, 739430),
        (739431, 739432)] := by decide +kernel
  rw [hperiods] at hok
  obtain rfl := Except.ok.inj hok
  obtain ⟨due, -, hfound⟩ := hdue (739311, 739338) (by decide) ⟨1, by decide +kernel⟩
    ⟨by decide, 739340, ⟨2, by decide, by decide +kernel⟩, by decide⟩
  have hnone : dueLoanPaymentDates 739281 36 739311 739338 = .ok [] := by decide +kernel
  rw [hnone] at hfound
  cases hfound

end BetterDecision
