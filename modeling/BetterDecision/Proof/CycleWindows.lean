import BetterDecision.Model.CycleWindow
import BetterDecision.Proof.BillingClose

/-!
# Cycle windows tile the calendar

A window runs from the cycle day of one month to the day before that of the next. Which
month, `windowMonth` says: the last one whose cycle day has come. The cycle days increase
with the month, so a day is in one window only, and it does not matter from which of its
days the window is computed (`cycleWindow_eq`). The clamping is in `onMonth` alone: the
source snaps again after every added month, so no start is ever computed from a clamped
one.
-/

namespace BetterDecision

open Calendar

/-- The month whose cycle day was the last to come. -/
def windowMonth (c : CycleDay) (day : Int) : Int :=
  if day < onMonth (monthOf day) c.val then monthOf day - 1 else monthOf day

variable {c : CycleDay}

/-- A day is in the window of exactly one month. -/
theorem windowMonth_eq_iff {day k : Int} :
    windowMonth c day = k ↔ onMonth k c.val ≤ day ∧ day < onMonth (k + 1) c.val := by
  have hmono := onMonth_strictMono (one_le_cycleDay c)
  have hspec : onMonth (windowMonth c day) c.val ≤ day ∧ day < onMonth (windowMonth c day + 1) c.val := by
    have hnext := lt_onMonth_next (one_le_cycleDay c) day
    rw [windowMonth]
    split
    · next hlt =>
      have hbefore := onMonth_lt_onMonth (d := c.val) (show monthOf day - 1 < monthOf day by omega) (dayOf_pos day)
      rw [onMonth_monthOf] at hbefore
      rw [Int.sub_add_cancel]
      exact ⟨hbefore.le, hlt⟩
    · next hle => exact ⟨not_lt.mp hle, hnext⟩
  constructor
  · rintro rfl
    exact hspec
  · intro h
    have h1 : windowMonth c day < k + 1 := hmono.lt_iff_lt.mp (lt_of_le_of_lt hspec.1 h.2)
    have h2 : k < windowMonth c day + 1 := hmono.lt_iff_lt.mp (lt_of_le_of_lt h.1 hspec.2)
    omega

/-- A day is on the calendar iff its month is. -/
theorem on_calendar_iff {day : Int} :
    monthStart firstMonthOfDates < day ∧ day ≤ monthStart (lastMonthOfDates + 1) ↔
      firstMonthOfDates ≤ monthOf day ∧ monthOf day ≤ lastMonthOfDates := by
  obtain ⟨hlo, hhi⟩ := monthOf_spec day
  constructor
  · intro h
    have h1 : firstMonthOfDates < monthOf day + 1 := monthStart_strictMono.lt_iff_lt.mp (lt_of_lt_of_le h.1 hhi)
    have h2 : monthOf day < lastMonthOfDates + 1 := monthStart_strictMono.lt_iff_lt.mp (lt_of_lt_of_le hlo h.2)
    omega
  · intro h
    have h1 := monthStart_strictMono.monotone h.1
    have h2 := monthStart_strictMono.monotone (show monthOf day + 1 ≤ lastMonthOfDates + 1 by omega)
    omega

theorem datePlusMonths_eq_some {d e : CalendarDate} {n : Int} :
    datePlusMonths d n = some e ↔ e.val = addMonths d.val n := by
  rw [datePlusMonths]
  constructor
  · intro h
    split at h
    · cases h
      rfl
    · cases h
  · intro h
    have hin := e.property
    rw [h] at hin
    rw [dif_pos hin]
    exact congrArg some (Subtype.ext h.symm)

theorem datePlusMonths_isSome {d : CalendarDate} {n : Int} :
    (datePlusMonths d n).isSome ↔ firstMonthOfDates ≤ monthOf d.val + n ∧ monthOf d.val + n ≤ lastMonthOfDates := by
  rw [← monthOf_addMonths, ← on_calendar_iff, datePlusMonths]
  split <;> simp_all

theorem snapDate_val (d : CalendarDate) : (snapDate d c).val = onMonth (monthOf d.val) c.val := rfl

/-- The first day of the window, or nothing where it would be before the calendar. -/
theorem windowStart_eq_some {d s : CalendarDate} :
    windowStart c d = some s ↔
      firstMonthOfDates ≤ windowMonth c d.val ∧ s.val = onMonth (windowMonth c d.val) c.val := by
  rw [windowMonth, windowStart, snapDate_val]
  split
  · rw [Option.map_eq_some_iff]
    constructor
    · rintro ⟨e, he, rfl⟩
      have hmonth : monthOf e.val = monthOf d.val - 1 := by
        rw [datePlusMonths_eq_some.mp he, monthOf_addMonths]
        rfl
      have hin := (on_calendar_iff.mp e.property).1
      rw [hmonth] at hin
      exact ⟨hin, by rw [snapDate_val, hmonth]⟩
    · rintro ⟨hfirst, hs⟩
      have hlast := (on_calendar_iff.mp d.property).2
      obtain ⟨e, he⟩ := Option.isSome_iff_exists.mp (datePlusMonths_isSome.mpr
        (show firstMonthOfDates ≤ monthOf d.val + -1 ∧ monthOf d.val + -1 ≤ lastMonthOfDates by omega))
      refine ⟨e, he, Subtype.ext ?_⟩
      rw [snapDate_val, datePlusMonths_eq_some.mp he, monthOf_addMonths, hs]
      rfl
  · have hfirst := (on_calendar_iff.mp d.property).1
    constructor
    · intro h
      cases h
      exact ⟨hfirst, rfl⟩
    · rintro ⟨-, hs⟩
      exact congrArg some (Subtype.ext hs.symm)

/-- A window is that of its month: from the cycle day to the day before the next one. -/
theorem cycleWindow_eq_some {d : CalendarDate} {w : CalendarDate × Int} :
    cycleWindow c d = some w ↔
      firstMonthOfDates ≤ windowMonth c d.val ∧ windowMonth c d.val < lastMonthOfDates ∧
        w.1.val = onMonth (windowMonth c d.val) c.val ∧ w.2 = onMonth (windowMonth c d.val + 1) c.val - 1 := by
  have hc := one_le_cycleDay c
  rw [cycleWindow]
  constructor
  · intro h
    obtain ⟨s, hs, h⟩ := Option.bind_eq_some_iff.mp h
    obtain ⟨n, hn, h⟩ := Option.bind_eq_some_iff.mp h
    obtain ⟨hfirst, hstart⟩ := windowStart_eq_some.mp hs
    cases h
    have hmonth : monthOf n.val = windowMonth c d.val + 1 := by
      rw [datePlusMonths_eq_some.mp hn, monthOf_addMonths, hstart, monthOf_onMonth hc]
    have hlast := (on_calendar_iff.mp n.property).2
    exact ⟨hfirst, by omega, hstart, by rw [snapDate_val, hmonth]⟩
  · rintro ⟨hfirst, hlast, hstart, hend⟩
    obtain ⟨start, stop⟩ := w
    refine Option.bind_eq_some_iff.mpr ⟨start, windowStart_eq_some.mpr ⟨hfirst, hstart⟩, ?_⟩
    have hmonth : monthOf start.val = windowMonth c d.val := by rw [hstart, monthOf_onMonth hc]
    obtain ⟨n, hn⟩ := Option.isSome_iff_exists.mp (datePlusMonths_isSome.mpr
      (show firstMonthOfDates ≤ monthOf start.val + 1 ∧ monthOf start.val + 1 ≤ lastMonthOfDates by omega))
    refine Option.bind_eq_some_iff.mpr ⟨n, hn, ?_⟩
    rw [snapDate_val, datePlusMonths_eq_some.mp hn, monthOf_addMonths, hmonth, ← hend]

/-- A window of the calendar has its first day in the month it is named after. -/
theorem windowMonth_of_mem {d e : CalendarDate} {w : CalendarDate × Int} (h : cycleWindow c d = some w)
    (hlo : w.1.val ≤ e.val) (hhi : e.val ≤ w.2) : windowMonth c e.val = windowMonth c d.val := by
  obtain ⟨-, -, hstart, hend⟩ := cycleWindow_eq_some.mp h
  exact windowMonth_eq_iff.mpr ⟨by omega, by omega⟩

/-- The next window is the one of the next month. -/
theorem nextCycleWindow_eq_some {d : CalendarDate} {w v : CalendarDate × Int} (h : cycleWindow c d = some w) :
    nextCycleWindow c d = some v ↔
      windowMonth c d.val + 1 < lastMonthOfDates ∧ v.1.val = onMonth (windowMonth c d.val + 1) c.val ∧
        v.2 = onMonth (windowMonth c d.val + 2) c.val - 1 := by
  have hc := one_le_cycleDay c
  obtain ⟨hfirst, hlast, hstart, -⟩ := cycleWindow_eq_some.mp h
  have hmonth : monthOf w.1.val = windowMonth c d.val := by rw [hstart, monthOf_onMonth hc]
  simp only [nextCycleWindow, h, Option.bind_eq_bind, Option.bind_some]
  constructor
  · intro hnext
    obtain ⟨n, hn, hnext⟩ := Option.bind_eq_some_iff.mp hnext
    obtain ⟨f, hf, hnext⟩ := Option.bind_eq_some_iff.mp hnext
    cases hnext
    have hnmonth : monthOf n.val = windowMonth c d.val + 1 := by
      rw [datePlusMonths_eq_some.mp hn, monthOf_addMonths, hmonth]
    have hfmonth : monthOf f.val = windowMonth c d.val + 2 := by
      rw [datePlusMonths_eq_some.mp hf, monthOf_addMonths, snapDate_val, monthOf_onMonth hc, hnmonth]
      ring
    have hfin := (on_calendar_iff.mp f.property).2
    exact ⟨by omega, by rw [snapDate_val, hnmonth], by rw [snapDate_val, hfmonth]⟩
  · rintro ⟨hin, hv, hvend⟩
    obtain ⟨start, stop⟩ := v
    obtain ⟨n, hn⟩ := Option.isSome_iff_exists.mp (datePlusMonths_isSome.mpr
      (show firstMonthOfDates ≤ monthOf w.1.val + 1 ∧ monthOf w.1.val + 1 ≤ lastMonthOfDates by omega))
    have hsnap : snapDate n c = start := by
      refine Subtype.ext ?_
      rw [snapDate_val, datePlusMonths_eq_some.mp hn, monthOf_addMonths, hmonth, hv]
    have hsmonth : monthOf start.val = windowMonth c d.val + 1 := by rw [hv, monthOf_onMonth hc]
    obtain ⟨f, hf⟩ := Option.isSome_iff_exists.mp (datePlusMonths_isSome.mpr
      (show firstMonthOfDates ≤ monthOf start.val + 1 ∧ monthOf start.val + 1 ≤ lastMonthOfDates by omega))
    refine Option.bind_eq_some_iff.mpr ⟨n, hn, ?_⟩
    rw [hsnap]
    refine Option.bind_eq_some_iff.mpr ⟨f, hf, ?_⟩
    rw [snapDate_val, datePlusMonths_eq_some.mp hf, monthOf_addMonths, hsmonth, show windowMonth c d.val + 1 + 1 = windowMonth c d.val + 2 by ring, ← hvend]

/-! ## The tiling -/

/-- The windows of one cycle day partition the days that have one. -/
structure CycleWindowsTile (c : CycleDay) : Prop where
  /-- All dates have a window, but for those before the first cycle day of the calendar
  and those from its last cycle day on. -/
  returned : ∀ d : CalendarDate, (cycleWindow c d).isSome ↔
    onMonth firstMonthOfDates c.val ≤ d.val ∧ d.val < onMonth lastMonthOfDates c.val
  contains : ∀ d w, cycleWindow c d = some w → w.1.val ≤ d.val ∧ d.val ≤ w.2
  /-- It does not matter from which of its days a window is computed. -/
  same : ∀ (d e : CalendarDate) w, cycleWindow c d = some w → w.1.val ≤ e.val → e.val ≤ w.2 → cycleWindow c e = some w
  disjoint : ∀ d e w v, cycleWindow c d = some w → cycleWindow c e = some v → w = v ∨ w.2 < v.1.val ∨ v.2 < w.1.val
  /-- The day after a window starts the window it is in. -/
  adjacent : ∀ (d e : CalendarDate) w v, cycleWindow c d = some w → e.val = w.2 + 1 → cycleWindow c e = some v → v.1 = e
  nextReturned : ∀ d w, cycleWindow c d = some w →
    ((nextCycleWindow c d).isSome ↔ w.2 + 1 < onMonth lastMonthOfDates c.val)
  next : ∀ d w v, cycleWindow c d = some w → nextCycleWindow c d = some v →
    v.1.val = w.2 + 1 ∧ cycleWindow c v.1 = some v
  /-- A window starts on the cycle day of its month, clamped. -/
  clamped : ∀ d w, cycleWindow c d = some w → w.1.val = onMonth (monthOf w.1.val) c.val

theorem cycle_windows_tile (c : CycleDay) : CycleWindowsTile c := by
  have hc := one_le_cycleDay c
  have hmono := onMonth_strictMono hc
  have hspec : ∀ day, onMonth (windowMonth c day) c.val ≤ day ∧ day < onMonth (windowMonth c day + 1) c.val :=
    fun day => windowMonth_eq_iff.mp rfl
  have hreturned : ∀ d : CalendarDate, (cycleWindow c d).isSome ↔
      firstMonthOfDates ≤ windowMonth c d.val ∧ windowMonth c d.val < lastMonthOfDates := by
    intro d
    constructor
    · intro h
      obtain ⟨w, hw⟩ := Option.isSome_iff_exists.mp h
      exact ⟨(cycleWindow_eq_some.mp hw).1, (cycleWindow_eq_some.mp hw).2.1⟩
    · rintro ⟨hfirst, hlast⟩
      have hin := (@on_calendar_iff (onMonth (windowMonth c d.val) c.val)).mpr
        (by rw [monthOf_onMonth hc]; omega)
      exact Option.isSome_iff_exists.mpr ⟨(⟨_, hin⟩, _), cycleWindow_eq_some.mpr ⟨hfirst, hlast, rfl, rfl⟩⟩
  have hmonths : ∀ day k, onMonth k c.val ≤ day ↔ k ≤ windowMonth c day := by
    intro day k
    constructor
    · intro h
      have : k < windowMonth c day + 1 := hmono.lt_iff_lt.mp (lt_of_le_of_lt h (hspec day).2)
      omega
    · intro h
      exact (hmono.monotone h).trans (hspec day).1
  have hnextMonth : ∀ d w, cycleWindow c d = some w → windowMonth c (w.2 + 1) = windowMonth c d.val + 1 := by
    intro d w h
    obtain ⟨-, -, -, hend⟩ := cycleWindow_eq_some.mp h
    have hlt := hmono (show windowMonth c d.val + 1 < windowMonth c d.val + 1 + 1 by omega)
    exact windowMonth_eq_iff.mpr ⟨by omega, by dsimp only at hlt; omega⟩
  exact
    { returned := fun d => by
        rw [hreturned, hmonths, ← not_le (b := d.val), hmonths, not_le]
      contains := fun d w h => by
        obtain ⟨-, -, hstart, hend⟩ := cycleWindow_eq_some.mp h
        have := hspec d.val
        omega
      same := fun d e w h hlo hhi => by
        rw [cycleWindow_eq_some, windowMonth_of_mem h hlo hhi]
        exact cycleWindow_eq_some.mp h
      disjoint := fun d e w v hw hv => by
        obtain ⟨-, -, hw1, hw2⟩ := cycleWindow_eq_some.mp hw
        obtain ⟨-, -, hv1, hv2⟩ := cycleWindow_eq_some.mp hv
        rcases lt_trichotomy (windowMonth c d.val) (windowMonth c e.val) with hlt | heq | hgt
        · have := hmono.monotone (show windowMonth c d.val + 1 ≤ windowMonth c e.val by omega)
          omega
        · rw [heq] at hw1 hw2
          exact .inl (Prod.ext (Subtype.ext (hw1.trans hv1.symm)) (hw2.trans hv2.symm))
        · have := hmono.monotone (show windowMonth c e.val + 1 ≤ windowMonth c d.val by omega)
          omega
      adjacent := fun d e w v hw he hv => by
        obtain ⟨-, -, -, hend⟩ := cycleWindow_eq_some.mp hw
        obtain ⟨-, -, hv1, -⟩ := cycleWindow_eq_some.mp hv
        rw [he, hnextMonth d w hw] at hv1
        exact Subtype.ext (by omega)
      nextReturned := fun d w hw => by
        obtain ⟨-, -, -, hend⟩ := cycleWindow_eq_some.mp hw
        have hiff : w.2 + 1 < onMonth lastMonthOfDates c.val ↔ windowMonth c d.val + 1 < lastMonthOfDates := by
          rw [show w.2 + 1 = onMonth (windowMonth c d.val + 1) c.val by omega]
          exact hmono.lt_iff_lt
        rw [hiff]
        constructor
        · intro h
          obtain ⟨v, hv⟩ := Option.isSome_iff_exists.mp h
          exact ((nextCycleWindow_eq_some hw).mp hv).1
        · intro h
          have hfirst := (cycleWindow_eq_some.mp hw).1
          have hin := (@on_calendar_iff (onMonth (windowMonth c d.val + 1) c.val)).mpr
            (by rw [monthOf_onMonth hc]; omega)
          exact Option.isSome_iff_exists.mpr ⟨(⟨_, hin⟩, _), (nextCycleWindow_eq_some hw).mpr ⟨h, rfl, rfl⟩⟩
      next := fun d w v hw hv => by
        obtain ⟨hfirst, -, -, hend⟩ := cycleWindow_eq_some.mp hw
        obtain ⟨hlast, hv1, hv2⟩ := (nextCycleWindow_eq_some hw).mp hv
        have hstart : v.1.val = w.2 + 1 := by omega
        refine ⟨hstart, cycleWindow_eq_some.mpr ?_⟩
        rw [hstart, hnextMonth d w hw]
        exact ⟨by omega, hlast, by omega, by rw [hv2]; ring_nf⟩
      clamped := fun d w h => by
        obtain ⟨-, -, hstart, -⟩ := cycleWindow_eq_some.mp h
        rw [hstart, monthOf_onMonth hc] }

/-- The last days of the calendar have no window: the next cycle would start after it. -/
theorem no_window_at_the_end :
    ¬ ∀ (c : CycleDay) (d : CalendarDate), ∃ w, cycleWindow c d = some w ∧ w.1.val ≤ d.val ∧ d.val ≤ w.2 := by
  intro hall
  have hnone : (cycleWindow firstOfMonth ⟨3652059, by decide⟩).isNone := by decide +kernel
  obtain ⟨w, hw, -⟩ := hall firstOfMonth ⟨3652059, by decide⟩
  rw [hw] at hnone
  cases hnone

end BetterDecision
