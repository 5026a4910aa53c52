import Mathlib

/-!
# The proleptic Gregorian calendar on ordinals

A day is its ordinal: day 1 is 0001-01-01. A month is one number too, the
*month index* `12 * year + (month - 1)`, so adding months is addition and the
carry into the year needs no case of its own.

The two facts everything else follows from are `monthStart_succ` (a month ends
where the next begins) and `monthOf_eq_iff` (a day lies in exactly one month).
-/

namespace Calendar

/-- The extra day of a leap year. -/
@[grind] def leapDay (year : Int) : Int :=
  if year % 4 = 0 ∧ (year % 100 ≠ 0 ∨ year % 400 = 0) then 1 else 0

/-- Days of all years before `year`. -/
@[grind] def daysBeforeYear (year : Int) : Int :=
  365 * (year - 1) + (year - 1) / 4 - (year - 1) / 100 + (year - 1) / 400

/-- Days of the year before its `m`-th month, months counted from 0. -/
@[grind] def daysBeforeMonth (leap : Int) : Nat → Int
  | 0 => 0
  | 1 => 31
  | 2 => 59 + leap
  | 3 => 90 + leap
  | 4 => 120 + leap
  | 5 => 151 + leap
  | 6 => 181 + leap
  | 7 => 212 + leap
  | 8 => 243 + leap
  | 9 => 273 + leap
  | 10 => 304 + leap
  | 11 => 334 + leap
  | _ => 365 + leap

/-- The ordinal of the day before the first of month `k`. -/
@[grind] def monthStart (k : Int) : Int :=
  daysBeforeYear (k / 12) + daysBeforeMonth (leapDay (k / 12)) (k % 12).toNat

/-- How many days month `k` has. -/
@[grind] def monthLength (k : Int) : Int := monthStart (k + 1) - monthStart k

/-- The year a day lies in: a guess from the mean year length, off by at most one. -/
@[grind] def yearOf (day : Int) : Int :=
  let guess := 400 * (day - 1) / 146097 + 1
  if day ≤ daysBeforeYear guess then guess - 1
  else if daysBeforeYear (guess + 1) < day then guess + 1
  else guess

/-- The month (from 0) of the `d`-th day of a year. -/
@[grind] def monthInYear (leap d : Int) : Int :=
  if d ≤ 31 then 0 else if d ≤ 59 + leap then 1 else if d ≤ 90 + leap then 2
  else if d ≤ 120 + leap then 3 else if d ≤ 151 + leap then 4 else if d ≤ 181 + leap then 5
  else if d ≤ 212 + leap then 6 else if d ≤ 243 + leap then 7 else if d ≤ 273 + leap then 8
  else if d ≤ 304 + leap then 9 else if d ≤ 334 + leap then 10 else 11

/-- The month index of a day. -/
@[grind] def monthOf (day : Int) : Int :=
  12 * yearOf day + monthInYear (leapDay (yearOf day)) (day - daysBeforeYear (yearOf day))

/-- The day of the month, from 1. -/
@[grind] def dayOf (day : Int) : Int := day - monthStart (monthOf day)

/-- Day `d` of month `k`, clamped to the month's length. -/
@[grind] def onMonth (k d : Int) : Int := monthStart k + min d (monthLength k)

/-- The same day of the month `n` months later, clamped to that month's length. -/
@[grind] def addMonths (day n : Int) : Int := onMonth (monthOf day + n) (dayOf day)

/-- A day written as `YYYY-MM-DD`. -/
@[grind] def isoformat (day : Int) : String :=
  let pad (width : Nat) (n : Int) : String :=
    let digits := toString n
    "".pushn '0' (width - digits.length) ++ digits
  let month := monthOf day
  pad 4 (month / 12) ++ "-" ++ pad 2 (month % 12 + 1) ++ "-" ++ pad 2 (dayOf day)

/-! ## Years -/

theorem leapDay_cases (year : Int) : leapDay year = 0 ∨ leapDay year = 1 := by
  unfold leapDay; split <;> simp

theorem daysBeforeYear_succ (year : Int) :
    daysBeforeYear (year + 1) = daysBeforeYear year + 365 + leapDay year := by
  unfold daysBeforeYear leapDay
  split <;> omega

theorem yearOf_spec (day : Int) :
    daysBeforeYear (yearOf day) < day ∧ day ≤ daysBeforeYear (yearOf day + 1) := by
  have key : ∀ g : Int, g = 400 * (day - 1) / 146097 + 1 →
      daysBeforeYear (g - 1) < day ∧ day ≤ daysBeforeYear (g + 2) := by
    intro g hg
    unfold daysBeforeYear
    omega
  obtain ⟨h1, h2⟩ := key _ rfl
  unfold yearOf
  dsimp only
  split
  · rename_i h
    exact ⟨h1, by rw [Int.sub_add_cancel]; exact h⟩
  · rename_i h
    split
    · rename_i h'
      exact ⟨h', by rw [Int.add_assoc]; exact h2⟩
    · rename_i h'
      exact ⟨by omega, by omega⟩

/-! ## Months -/

/-- A month offset is one of twelve. -/
private theorem offset_cases (k : Int) :
    (k % 12).toNat < 12 ∧ k = 12 * (k / 12) + ((k % 12).toNat : Int) := by omega

/-- Month `m` of year `y`. -/
theorem monthStart_eq (y : Int) {m : Nat} (hm : m < 12) :
    monthStart (12 * y + m) = daysBeforeYear y + daysBeforeMonth (leapDay y) m := by
  have h1 : (12 * y + (m : Int)) / 12 = y := by omega
  have h2 : ((12 * y + (m : Int)) % 12).toNat = m := by omega
  rw [monthStart, h1, h2]

/-- The month after month `m` of year `y`, counting December's successor as month 12. -/
theorem monthStart_next (y : Int) {m : Nat} (hm : m < 12) :
    monthStart (12 * y + m + 1) = daysBeforeYear y + daysBeforeMonth (leapDay y) (m + 1) := by
  rcases Nat.lt_or_ge (m + 1) 12 with h | h
  · have := monthStart_eq y h
    rwa [Nat.cast_add, Nat.cast_one, ← Int.add_assoc] at this
  · obtain rfl : m = 11 := by omega
    have he : 12 * y + ((11 : Nat) : Int) + 1 = 12 * (y + 1) + ((0 : Nat) : Int) := by push_cast; omega
    rw [he, monthStart_eq (y + 1) (by omega), daysBeforeYear_succ]
    simp only [daysBeforeMonth]
    omega

/-- A month has between 28 and 31 days. -/
theorem monthLength_bounds (k : Int) : 28 ≤ monthLength k ∧ monthLength k ≤ 31 := by
  obtain ⟨hm, hk⟩ := offset_cases k
  unfold monthLength
  rw [hk, monthStart_next _ hm, monthStart_eq _ hm]
  have hl := leapDay_cases (k / 12)
  generalize leapDay (k / 12) = l at hl ⊢
  generalize (k % 12).toNat = m at hm ⊢
  interval_cases m <;> simp only [daysBeforeMonth] <;> omega

theorem monthStart_succ (k : Int) : monthStart (k + 1) = monthStart k + monthLength k := by
  unfold monthLength; omega

theorem monthStart_strictMono : StrictMono monthStart := by
  refine strictMono_int_of_lt_succ fun k => ?_
  have := monthLength_bounds k
  rw [monthStart_succ]; omega

/-- `monthInYear` inverts `daysBeforeMonth`. -/
theorem monthInYear_spec {l d : Int} (hl : l = 0 ∨ l = 1) (hpos : 0 < d) (hle : d ≤ 365 + l) :
    ∃ m : Nat, m < 12 ∧ monthInYear l d = m ∧
      daysBeforeMonth l m < d ∧ d ≤ daysBeforeMonth l (m + 1) := by
  -- the month is the number of thresholds passed, so ask for them in order
  have pick : ∀ m : Nat, m < 12 → daysBeforeMonth l m < d → d ≤ daysBeforeMonth l (m + 1) →
      monthInYear l d = m := by
    intro m hm h1 h2
    interval_cases m <;> simp only [daysBeforeMonth] at h1 h2 <;> unfold monthInYear <;>
      rcases hl with rfl | rfl <;> simp only [Int.reduceAdd] at * <;>
      (repeat rw [if_neg (by omega)]) <;> first | rfl | (rw [if_pos (by omega)]; rfl)
  have search : ∀ n : Nat, n ≤ 12 → d ≤ daysBeforeMonth l n →
      ∃ m : Nat, m < n ∧ daysBeforeMonth l m < d ∧ d ≤ daysBeforeMonth l (m + 1) := by
    intro n
    induction n with
    | zero => intro _ h; simp only [daysBeforeMonth] at h; omega
    | succ n ih =>
      intro hn h
      rcases lt_or_ge (daysBeforeMonth l n) d with hlt | hge
      · exact ⟨n, by omega, hlt, h⟩
      · obtain ⟨m, hm, h1, h2⟩ := ih (by omega) hge
        exact ⟨m, by omega, h1, h2⟩
  obtain ⟨m, hm, h1, h2⟩ := search 12 le_rfl (by simpa only [daysBeforeMonth] using hle)
  exact ⟨m, hm, pick m hm h1 h2, h1, h2⟩

theorem monthOf_spec (day : Int) :
    monthStart (monthOf day) < day ∧ day ≤ monthStart (monthOf day + 1) := by
  obtain ⟨h1, h2⟩ := yearOf_spec day
  rw [daysBeforeYear_succ] at h2
  obtain ⟨m, hm, he, h3, h4⟩ :=
    monthInYear_spec (d := day - daysBeforeYear (yearOf day)) (leapDay_cases (yearOf day))
      (by omega) (by omega)
  rw [monthOf, he, monthStart_eq _ hm, monthStart_next _ hm]
  exact ⟨by omega, by omega⟩

/-- **A day lies in exactly one month.** -/
theorem monthOf_eq_iff {day k : Int} :
    monthOf day = k ↔ monthStart k < day ∧ day ≤ monthStart (k + 1) := by
  refine ⟨fun h => h ▸ monthOf_spec day, fun ⟨h1, h2⟩ => ?_⟩
  obtain ⟨h3, h4⟩ := monthOf_spec day
  have ha : monthOf day < k + 1 := monthStart_strictMono.lt_iff_lt.mp (by omega)
  have hb : k < monthOf day + 1 := monthStart_strictMono.lt_iff_lt.mp (by omega)
  omega

theorem monthOf_mono : Monotone monthOf := by
  intro a b hab
  obtain ⟨h1, -⟩ := monthOf_spec a
  obtain ⟨-, h2⟩ := monthOf_spec b
  have : monthOf a < monthOf b + 1 := monthStart_strictMono.lt_iff_lt.mp (by omega)
  omega

theorem dayOf_pos (day : Int) : 1 ≤ dayOf day := by
  have := (monthOf_spec day).1
  unfold dayOf; omega

theorem dayOf_le (day : Int) : dayOf day ≤ monthLength (monthOf day) := by
  have := (monthOf_spec day).2
  rw [monthStart_succ] at this
  unfold dayOf; omega

/-! ## Dates within a month -/

theorem monthOf_onMonth {k d : Int} (hd : 1 ≤ d) : monthOf (onMonth k d) = k := by
  rw [monthOf_eq_iff, monthStart_succ]
  have := monthLength_bounds k
  unfold onMonth; omega

theorem dayOf_onMonth {k d : Int} (hd : 1 ≤ d) : dayOf (onMonth k d) = min d (monthLength k) := by
  rw [dayOf, monthOf_onMonth hd, onMonth]; omega

/-- A day is its own day of its own month. -/
theorem onMonth_monthOf (day : Int) : onMonth (monthOf day) (dayOf day) = day := by
  have := dayOf_le day
  unfold onMonth
  rw [min_eq_left this]
  unfold dayOf; omega

/-- Days of an earlier month come before days of a later one. -/
theorem onMonth_lt_onMonth {k k' d d' : Int} (hk : k < k') (hd' : 1 ≤ d') :
    onMonth k d < onMonth k' d' := by
  have h1 : monthStart (k + 1) ≤ monthStart k' := monthStart_strictMono.monotone (by omega)
  have h2 := monthLength_bounds k'
  rw [monthStart_succ] at h1
  unfold onMonth; omega

/-! ## Adding months -/

theorem monthOf_addMonths (day n : Int) : monthOf (addMonths day n) = monthOf day + n :=
  monthOf_onMonth (dayOf_pos day)

theorem lt_addMonths {day n : Int} (hn : 0 < n) : day < addMonths day n := by
  have h := onMonth_lt_onMonth (d := dayOf day) (show monthOf day < monthOf day + n by omega)
    (dayOf_pos day)
  rwa [onMonth_monthOf] at h

/-- Months of one anchor never swap their order. -/
theorem addMonths_lt_addMonths {day m n : Int} (h : m < n) : addMonths day m < addMonths day n :=
  onMonth_lt_onMonth (by omega) (dayOf_pos day)

/-! ## The first month by which a day has come -/

theorem onMonth_strictMono {d : Int} (hd : 1 ≤ d) : StrictMono (onMonth · d) := fun _ _ h => onMonth_lt_onMonth h hd

/-- From a day of the month to that of the next there are 31 days at most. -/
theorem onMonth_succ_le (k d : Int) : onMonth (k + 1) d ≤ onMonth k d + 31 := by
  have hthis := monthLength_bounds k
  have hnext := monthLength_bounds (k + 1)
  unfold onMonth
  rw [monthStart_succ]
  omega

/-- The first month whose day `d` is `day` or later. -/
@[grind] def firstMonth (d day : Int) : Int := if day ≤ onMonth (monthOf day) d then monthOf day else monthOf day + 1

theorem lt_onMonth_next {d : Int} (hd : 1 ≤ d) (day : Int) : day < onMonth (monthOf day + 1) d := by
  have h := onMonth_lt_onMonth (d := dayOf day) (show monthOf day < monthOf day + 1 by omega) hd
  rwa [onMonth_monthOf] at h

/-- The months whose day `d` is `day` or later are those from the first on. -/
theorem firstMonth_le_iff {d : Int} (hd : 1 ≤ d) {day k : Int} : firstMonth d day ≤ k ↔ day ≤ onMonth k d := by
  have hnext := lt_onMonth_next hd day
  have hbefore : ∀ {j}, j < monthOf day → onMonth j d < day := fun {j} hj => by
    have h := onMonth_lt_onMonth (d := d) hj (dayOf_pos day)
    rwa [onMonth_monthOf] at h
  have hmono := (onMonth_strictMono hd).monotone
  unfold firstMonth
  split
  · rename_i hin
    refine ⟨fun hk => hin.trans (hmono hk), fun hk => ?_⟩
    by_contra hlt
    have := hbefore (show k < monthOf day by omega)
    omega
  · rename_i hin
    refine ⟨fun hk => hnext.le.trans (hmono hk), fun hk => ?_⟩
    by_contra hlt
    have := hmono (show k ≤ monthOf day by omega)
    dsimp only at this
    omega

theorem firstMonth_eq_iff {d : Int} (hd : 1 ≤ d) {day k : Int} :
    firstMonth d day = k ↔ onMonth (k - 1) d < day ∧ day ≤ onMonth k d := by
  have hle : firstMonth d day ≤ k ↔ day ≤ onMonth k d := firstMonth_le_iff hd
  have hlt : firstMonth d day ≤ k - 1 ↔ day ≤ onMonth (k - 1) d := firstMonth_le_iff hd
  omega

theorem monthOf_le_firstMonth (d day : Int) : monthOf day ≤ firstMonth d day ∧ firstMonth d day ≤ monthOf day + 1 := by
  unfold firstMonth
  split <;> omega

/-! ## Two days of the month -/

theorem onMonth_le_onMonth_iff {k d d' : Int} : onMonth k d ≤ onMonth k d' ↔ d ≤ d' ∨ monthLength k ≤ d' := by
  unfold onMonth
  omega

/-- A month holds its own day `d` by its day `e` where `d` is no later, or the month ends by
day `e`; and day `d` of the month before lies between the two days `e` where it is later. -/
theorem onMonth_between_iff {d e : Int} (hd : 1 ≤ d) (he : 1 ≤ e) {j k : Int} :
    onMonth (k - 1) e < onMonth j d ∧ onMonth j d ≤ onMonth k e ↔
      j = k ∧ (d ≤ e ∨ monthLength k ≤ e) ∨ j = k - 1 ∧ e < d ∧ e < monthLength (k - 1) := by
  have hprev : onMonth (k - 1) d ≤ onMonth (k - 1) e ↔ d ≤ e ∨ monthLength (k - 1) ≤ e := onMonth_le_onMonth_iff
  have hthis : onMonth k d ≤ onMonth k e ↔ d ≤ e ∨ monthLength k ≤ e := onMonth_le_onMonth_iff
  rcases lt_trichotomy j (k - 1) with hlt | rfl | hgt
  · have := onMonth_lt_onMonth (d := d) hlt he
    omega
  · have := onMonth_lt_onMonth (d := d) (show k - 1 < k by omega) he
    omega
  · rcases lt_trichotomy j k with hlt | rfl | hgt'
    · omega
    · have := onMonth_lt_onMonth (d := e) (show j - 1 < j by omega) hd
      omega
    · have := onMonth_lt_onMonth (d := e) hgt' hd
      omega

/-! ## Months in a row -/

/-- As many months, from a first. -/
@[grind] def monthsFrom (month : Int) : Nat → List Int
  | 0 => []
  | n + 1 => month :: monthsFrom (month + 1) n

theorem mem_monthsFrom {month k : Int} {n : Nat} : k ∈ monthsFrom month n ↔ month ≤ k ∧ k < month + n := by
  induction n generalizing month with
  | zero =>
    simp only [monthsFrom, List.not_mem_nil, false_iff]
    omega
  | succ n ih =>
    rw [monthsFrom, List.mem_cons, ih]
    omega

theorem monthsFrom_pairwise (month : Int) (n : Nat) : (monthsFrom month n).Pairwise (· < ·) := by
  induction n generalizing month with
  | zero => exact List.Pairwise.nil
  | succ n ih =>
    refine List.pairwise_cons.mpr ⟨fun k hk => ?_, ih (month + 1)⟩
    have := mem_monthsFrom.mp hk
    omega

end Calendar
