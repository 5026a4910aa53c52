import BetterDecision.Model.Dates

/-!
# Walking a series

A step along a series moves strictly forward, so the walk of a series up to a day is
a strictly increasing list, `grid`. Two facts are all that its readers use: the
shared window walk is the grid with the days before the window dropped
(`occurrencesInWindow_eq`), and a walk that stops somewhere and goes on from there
is the walk itself (`grid_split`).
-/

namespace BetterDecision

open Calendar

/-! ## The ends of the calendar -/

/-- The month after the calendar's last one. -/
def monthAfterLast : Int := 120000

theorem monthStart_monthAfterLast : monthStart monthAfterLast = dateMax := by decide

/-- The first day of the calendar is a first of January, the last a 31st of December. -/
theorem monthOf_calendar (d : Int) : (1 ≤ d ↔ 12 ≤ monthOf d) ∧ (d ≤ dateMax ↔ monthOf d < monthAfterLast) := by
  obtain ⟨hlow, hhigh⟩ := monthOf_spec d
  have hfirst : monthStart 12 = 0 := by decide
  have hlast := monthStart_monthAfterLast
  have h1 := monthStart_strictMono.le_iff_le (a := 12) (b := monthOf d)
  have h2 := monthStart_strictMono.le_iff_le (a := 12) (b := monthOf d + 1)
  have h3 := monthStart_strictMono.le_iff_le (a := monthOf d + 1) (b := monthAfterLast)
  have h4 := monthStart_strictMono.le_iff_le (a := monthAfterLast) (b := monthOf d)
  constructor
  · have hnext : monthOf d < 12 → monthStart (monthOf d + 1) ≤ monthStart 12 :=
      fun h => monthStart_strictMono.monotone (by omega)
    omega
  · omega

theorem onMonth_calendar {k d : Int} (hd : 1 ≤ d) :
    (1 ≤ onMonth k d ↔ 12 ≤ k) ∧ (onMonth k d ≤ dateMax ↔ k < monthAfterLast) := by
  have h := monthOf_calendar (onMonth k d)
  rwa [monthOf_onMonth hd] at h

theorem plusMonths_eq (d n : Int) : plusMonths d n =
    if 12 ≤ monthOf d + n ∧ monthOf d + n < monthAfterLast then .ok (addMonths d n) else .error .overflow := by
  obtain ⟨hlow, hhigh⟩ := monthOf_calendar (addMonths d n)
  rw [monthOf_addMonths] at hlow hhigh
  unfold plusMonths
  split
  · rw [if_neg (by omega)]
  · rw [if_pos (by omega)]

theorem lt_stepDate (d : Int) (freq : Frequency) : d < stepDate d freq := by
  cases freq with
  | weekly => show d < d + 7; omega
  | biweekly => show d < d + 14; omega
  | monthly => exact lt_addMonths (by decide)
  | quarterly => exact lt_addMonths (by decide)
  | yearly => exact lt_addMonths (by decide)

theorem advanceDate_eq_ok {d next : Int} {freq : Frequency} :
    advanceDate d freq = .ok next ↔ stepDate d freq ≤ dateMax ∧ next = stepDate d freq := by
  unfold advanceDate
  split
  · rename_i h
    simp only [reduceCtorEq, false_iff, not_and]
    omega
  · rename_i h
    rw [Except.ok.injEq, eq_comm]
    exact ⟨fun h' => ⟨by omega, h'⟩, fun h' => h'.2⟩

theorem lt_of_advanceDate {d next : Int} {freq : Frequency} (h : advanceDate d freq = .ok next) : d < next := by
  rw [(advanceDate_eq_ok.mp h).2]
  exact lt_stepDate d freq

/-- `_next_occurrence` and `advance_date` agree wherever there is a next date. -/
theorem nextOccurrence_eq_some {d next : Int} {freq : Frequency} :
    nextOccurrence d freq = some next ↔ advanceDate d freq = .ok next := by
  unfold nextOccurrence
  split
  · rename_i next' h
    have hlt := lt_of_advanceDate h
    rw [if_pos hlt, h, Option.some.injEq, Except.ok.injEq]
  · rename_i h
    rw [h]
    simp

theorem lt_of_nextOccurrence {d next : Int} {freq : Frequency} (h : nextOccurrence d freq = some next) :
    d < next := lt_of_advanceDate (nextOccurrence_eq_some.mp h)

/-! ## The grid -/

/-- The occurrences of a series from its frontier `d` up to `stop`. -/
def grid (freq : Frequency) (stop d : Int) (budget : Option Int) : List Int :=
  collect freq stop (stop + 1 - d).toNat d budget

/-- A walk with passes to spare is the grid: each pass moves at least one day on. -/
theorem collect_eq_grid {freq : Frequency} {stop : Int} :
    ∀ {fuel : Nat} {d : Int} {budget : Option Int}, (stop + 1 - d).toNat ≤ fuel →
      collect freq stop fuel d budget = grid freq stop d budget := by
  have key : ∀ (n fuel : Nat) (d : Int) (budget : Option Int), (stop + 1 - d).toNat = n → n ≤ fuel →
      collect freq stop fuel d budget = collect freq stop n d budget := by
    intro n
    induction n using Nat.strongRecOn with
    | ind n ih =>
      intro fuel d budget hn hle
      by_cases hd : d ≤ stop
      · obtain ⟨m, rfl⟩ : ∃ m, n = m + 1 := ⟨n - 1, by omega⟩
        obtain ⟨f, rfl⟩ : ∃ f, fuel = f + 1 := ⟨fuel - 1, by omega⟩
        unfold collect
        split
        · congr 1
          cases h : nextOccurrence d freq with
          | none => rfl
          | some next =>
            have hlt := lt_of_nextOccurrence h
            show collect freq stop f next _ = collect freq stop m next _
            rw [ih _ (by omega) f next _ rfl (by omega), ih _ (by omega) m next _ rfl (by omega)]
        · rfl
      · obtain rfl : n = 0 := by omega
        cases fuel with
        | zero => rfl
        | succ f => unfold collect; rw [if_neg (fun h => hd h.1)]
  intro fuel d budget h
  exact key _ fuel d budget rfl h

theorem grid_of_lt {freq : Frequency} {stop d : Int} {budget : Option Int} (h : stop < d) :
    grid freq stop d budget = [] := by
  rw [grid, show (stop + 1 - d).toNat = 0 by omega]
  rfl

theorem grid_of_spent {freq : Frequency} {stop d : Int} {budget : Option Int} (h : hasBudget budget = false) :
    grid freq stop d budget = [] := by
  unfold grid
  cases (stop + 1 - d).toNat with
  | zero => rfl
  | succ n => unfold collect; rw [if_neg (by simp [h])]

/-- One pass of the walk. -/
theorem grid_cons {freq : Frequency} {stop d : Int} {budget : Option Int} (hd : d ≤ stop)
    (hb : hasBudget budget = true) :
    grid freq stop d budget = d :: match nextOccurrence d freq with
      | some next => grid freq stop next (spendOne budget)
      | none => [] := by
  rw [grid, show (stop + 1 - d).toNat = (stop - d).toNat + 1 by omega]
  unfold collect
  rw [if_pos ⟨hd, hb⟩]
  congr 1
  cases h : nextOccurrence d freq with
  | none => rfl
  | some next =>
    have := lt_of_nextOccurrence h
    exact collect_eq_grid (by omega)

/-- Induction along a walk: it is over, or it makes one pass and goes on. -/
theorem grid_induction (freq : Frequency) (stop : Int) {P : Int → Option Int → Prop}
    (done : ∀ d budget, stop < d ∨ hasBudget budget = false → P d budget)
    (last : ∀ d budget, d ≤ stop → hasBudget budget = true → nextOccurrence d freq = none → P d budget)
    (pass : ∀ d budget next, d ≤ stop → hasBudget budget = true → nextOccurrence d freq = some next →
      P next (spendOne budget) → P d budget)
    (d : Int) (budget : Option Int) : P d budget := by
  have key : ∀ (n : Nat) (d : Int) (budget : Option Int), (stop + 1 - d).toNat = n → P d budget := by
    intro n
    induction n using Nat.strongRecOn with
    | ind n ih =>
      intro d budget hn
      by_cases hd : d ≤ stop
      · cases hb : hasBudget budget with
        | false => exact done d budget (.inr hb)
        | true =>
          cases h : nextOccurrence d freq with
          | none => exact last d budget hd hb h
          | some next =>
            have := lt_of_nextOccurrence h
            exact pass d budget next hd hb h (ih _ (by omega) next _ rfl)
      · exact done d budget (.inl (by omega))
  exact key _ d budget rfl

theorem mem_grid_bounds {freq : Frequency} {stop d x : Int} {budget : Option Int}
    (h : x ∈ grid freq stop d budget) : d ≤ x ∧ x ≤ stop := by
  induction d, budget using grid_induction freq stop with
  | done d budget hover =>
    rcases hover with hover | hover
    · rw [grid_of_lt hover] at h; cases h
    · rw [grid_of_spent hover] at h; cases h
  | last d budget hd hb hnone =>
    rw [grid_cons hd hb, hnone] at h
    obtain rfl : x = d := by simpa using h
    exact ⟨le_rfl, hd⟩
  | pass d budget next hd hb hnext ih =>
    have hlt := lt_of_nextOccurrence hnext
    rw [grid_cons hd hb, hnext] at h
    rcases List.mem_cons.mp h with rfl | h
    · exact ⟨le_rfl, hd⟩
    · have := ih h
      omega

theorem grid_sorted (freq : Frequency) (stop d : Int) (budget : Option Int) :
    (grid freq stop d budget).Pairwise (· < ·) := by
  induction d, budget using grid_induction freq stop with
  | done d budget hover =>
    rcases hover with hover | hover
    · rw [grid_of_lt hover]; exact .nil
    · rw [grid_of_spent hover]; exact .nil
  | last d budget hd hb hnone =>
    rw [grid_cons hd hb, hnone]
    exact List.pairwise_singleton ..
  | pass d budget next hd hb hnext ih =>
    rw [grid_cons hd hb, hnext]
    refine List.pairwise_cons.mpr ⟨fun x hx => ?_, ih⟩
    have := lt_of_nextOccurrence hnext
    have := mem_grid_bounds hx
    omega

/-- A later bound only adds occurrences at the end. -/
theorem grid_filter_le {freq : Frequency} {mid stop d : Int} {budget : Option Int} (h : mid ≤ stop) :
    (grid freq stop d budget).filter (fun x => decide (x ≤ mid)) = grid freq mid d budget := by
  induction d, budget using grid_induction freq mid with
  | done d budget hover =>
    rcases hover with hover | hover
    · rw [grid_of_lt hover, List.filter_eq_nil_iff]
      intro x hx
      have := mem_grid_bounds hx
      simp only [decide_eq_true_eq]
      omega
    · rw [grid_of_spent hover, grid_of_spent hover]
      rfl
  | last d budget hd hb hnone =>
    rw [grid_cons (by omega) hb, grid_cons hd hb, hnone]
    simp [hd]
  | pass d budget next hd hb hnext ih =>
    rw [grid_cons (by omega) hb, grid_cons hd hb, hnext, List.filter_cons_of_pos (by simpa using hd)]
    exact congrArg (d :: ·) ih

/-! ## The window walk -/

/-- Where the fast-forward comes out, the rest of the grid starts. -/
theorem fastForward_some {freq : Frequency} {start : Int} (stop : Int) (h : start ≤ stop + 1) :
    ∀ (fuel : Nat) (d : Int) (budget : Option Int), (start - d).toNat ≤ fuel →
      ∀ {d' : Int} {budget' : Option Int}, fastForward freq start fuel d budget = some (d', budget') →
        start ≤ d' ∧
          (grid freq stop d budget).filter (fun x => decide (start ≤ x)) = grid freq stop d' budget' := by
  intro fuel
  induction fuel with
  | zero =>
    intro d budget hfuel d' budget' he
    obtain ⟨rfl, rfl⟩ : d = d' ∧ budget = budget' := by simpa [fastForward] using he
    exact ⟨by omega, List.filter_eq_self.mpr fun x hx => by
      have := mem_grid_bounds hx
      simp only [decide_eq_true_eq]
      omega⟩
  | succ fuel ih =>
    intro d budget hfuel d' budget' he
    unfold fastForward at he
    split at he
    · rename_i hlt
      split at he
      · rename_i hb
        cases hnext : nextOccurrence d freq with
        | none => rw [hnext] at he; cases he
        | some next =>
          rw [hnext] at he
          have := lt_of_nextOccurrence hnext
          obtain ⟨hle, hgrid⟩ := ih next (spendOne budget) (by omega) he
          refine ⟨hle, ?_⟩
          rw [grid_cons (by omega) hb, hnext, List.filter_cons_of_neg (by simpa using hlt)]
          exact hgrid
      · cases he
    · rename_i hge
      obtain ⟨rfl, rfl⟩ : d = d' ∧ budget = budget' := by simpa using he
      exact ⟨by omega, List.filter_eq_self.mpr fun x hx => by
        have := mem_grid_bounds hx
        simp only [decide_eq_true_eq]
        omega⟩

/-- A fast-forward that runs out leaves nothing from `start` on. -/
theorem fastForward_none {freq : Frequency} {start stop : Int} (h : start ≤ stop + 1) :
    ∀ (fuel : Nat) (d : Int) (budget : Option Int), fastForward freq start fuel d budget = none →
      (grid freq stop d budget).filter (fun x => decide (start ≤ x)) = [] := by
  intro fuel
  induction fuel with
  | zero => intro d budget he; cases he
  | succ fuel ih =>
    intro d budget he
    unfold fastForward at he
    split at he
    · rename_i hlt
      split at he
      · rename_i hb
        rw [grid_cons (by omega) hb, List.filter_cons_of_neg (by simpa using hlt)]
        cases hnext : nextOccurrence d freq with
        | none => rfl
        | some next =>
          rw [hnext] at he
          exact ih next (spendOne budget) he
      · rename_i hb
        rw [grid_of_spent (by simpa using hb)]
        rfl
    · cases he

theorem le_of_fastForward {freq : Frequency} {start : Int} :
    ∀ (fuel : Nat) (d : Int) (budget : Option Int), (start - d).toNat ≤ fuel →
      ∀ {d' : Int} {budget' : Option Int}, fastForward freq start fuel d budget = some (d', budget') → start ≤ d' := by
  intro fuel d budget hfuel d' budget' he
  exact (fastForward_some start (by omega) fuel d budget hfuel he).1

/-- **The window walk is the grid from the window's start on.** -/
theorem occurrencesInWindow_eq {freq : Frequency} {nextDue start stop : Int} {budget : Option Int} :
    occurrencesInWindow nextDue freq start stop budget =
      (grid freq stop nextDue budget).filter (fun x => decide (start ≤ x)) := by
  by_cases h : start ≤ stop + 1
  · unfold occurrencesInWindow
    split
    · rename_i d remaining he
      exact ((fastForward_some _ h _ _ _ le_rfl he).2).symm
    · rename_i he
      exact (fastForward_none h _ _ _ he).symm
  · -- a window that ends before it starts holds nothing, on either side
    have hempty : (grid freq stop nextDue budget).filter (fun x => decide (start ≤ x)) = [] := by
      rw [List.filter_eq_nil_iff]
      intro x hx
      have := mem_grid_bounds hx
      simp only [decide_eq_true_eq]
      omega
    rw [hempty]
    unfold occurrencesInWindow
    split
    · rename_i d remaining he
      have hd := le_of_fastForward _ _ _ le_rfl he
      rw [show (stop + 1 - d).toNat = 0 by omega]
      rfl
    · rfl

theorem mem_occurrencesInWindow_bounds {freq : Frequency} {nextDue start stop x : Int} {budget : Option Int}
    (h : x ∈ occurrencesInWindow nextDue freq start stop budget) : start ≤ x ∧ x ≤ stop := by
  rw [occurrencesInWindow_eq] at h
  obtain ⟨hmem, hle⟩ := List.mem_filter.mp h
  exact ⟨by simpa using hle, (mem_grid_bounds hmem).2⟩

end BetterDecision
