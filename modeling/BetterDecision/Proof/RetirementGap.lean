import BetterDecision.Lib.Compound
import BetterDecision.Model.Retirement
import BetterDecision.Proof.ScenarioEngine

/-!
# The suggested contribution and the verdict

On an account that nothing else moves, the projected balance is the contribution times what one unit
paid in at the start of each month has become. The verdict reads it in the month of the retirement
date; the suggestion is the annuity that reaches the target in the last month of the horizon. So it
closes the gap where an annuity over the whole horizon is close enough by the retirement date
already, and not where that date comes well before the end of the horizon.
-/

namespace BetterDecision

open Calendar Compound

variable {today : Int} {state : WorldState} {params : RetirementParams} {account horizon : Nat} {scenario : Scenario}
  {monthIndex : Nat} {monthDate monthEnd : Int} {p q : RetirementProjection}

/-! ## Templates that leave the account alone -/

/-- The template does not post on the account. -/
def Spares (account : Nat) (snap : RecurringSnapshot) : Prop :=
  snap.accountId ≠ account ∧ snap.toAccountId ≠ some account

theorem Spares.legsOn {snap : RecurringSnapshot} (h : Spares account snap) : legsOn snap.legs account = 0 := by
  obtain ⟨hsource, htarget⟩ := h
  unfold BetterDecision.legsOn RecurringSnapshot.legs
  cases snap.type <;> simp [hsource, htarget]

theorem walkQueue_spares {queue queue' : List QueueEntry} {balances balances' : Balances}
    (h : walkQueue scenario monthIndex monthDate monthEnd queue balances = .ok (queue', balances'))
    (hspares : ∀ entry ∈ queue, Spares account entry.snap) :
    balances' account = balances account ∧ ∀ entry ∈ queue', Spares account entry.snap := by
  induction queue generalizing queue' balances with
  | nil =>
    obtain ⟨rfl, rfl⟩ : [] = queue' ∧ balances = balances' := by simpa [walkQueue] using h
    exact ⟨rfl, by simp⟩
  | cons entry queue ih =>
    unfold walkQueue at h
    obtain ⟨⟨entry₁, balances₁⟩, hwalk, h⟩ := bind_eq_ok.mp h
    obtain ⟨⟨queue₁, balances₂⟩, hrest, h⟩ := bind_eq_ok.mp h
    obtain ⟨rfl, rfl⟩ : entry₁ :: queue₁ = queue' ∧ balances₂ = balances' := by simpa using h
    obtain ⟨hfirst, hqueue⟩ := List.forall_mem_cons.mp hspares
    have hw := walkMonth_spec _ _ _ le_rfl hwalk
    obtain ⟨hbalance, hspared⟩ := ih hrest hqueue
    refine ⟨?_, List.forall_mem_cons.mpr ⟨hw.snap ▸ hfirst, hspared⟩⟩
    rw [hbalance, hw.posted account, hfirst.legsOn]
    simp

/-- Where the queue gets to does not depend on the balances. -/
theorem walkMonth_queue {applies : Bool} {fuel : Nat} {entry entry' : QueueEntry} {balances balances' : Balances}
    (h : walkMonth applies monthDate monthEnd fuel entry balances = .ok (entry', balances')) (other : Balances) :
    ∃ other', walkMonth applies monthDate monthEnd fuel entry other = .ok (entry', other') := by
  induction fuel generalizing entry balances other with
  | zero =>
    obtain ⟨rfl, -⟩ : entry = entry' ∧ balances = balances' := by simpa [walkMonth] using h
    exact ⟨other, rfl⟩
  | succ fuel ih =>
    unfold walkMonth at h ⊢
    split at h
    · rename_i hgo
      obtain ⟨next, hnext, h⟩ := bind_eq_ok.mp h
      rw [if_pos hgo, hnext]
      exact ih h _
    · rename_i hstop
      obtain ⟨rfl, -⟩ : entry = entry' ∧ balances = balances' := by simpa using h
      rw [if_neg hstop]
      exact ⟨other, rfl⟩

theorem walkQueue_queue {queue queue' : List QueueEntry} {balances balances' : Balances}
    (h : walkQueue scenario monthIndex monthDate monthEnd queue balances = .ok (queue', balances')) (other : Balances) :
    ∃ other', walkQueue scenario monthIndex monthDate monthEnd queue other = .ok (queue', other') := by
  induction queue generalizing queue' balances balances' other with
  | nil =>
    obtain ⟨rfl, -⟩ : [] = queue' ∧ balances = balances' := by simpa [walkQueue] using h
    exact ⟨other, rfl⟩
  | cons entry queue ih =>
    unfold walkQueue at h ⊢
    obtain ⟨⟨entry₁, balances₁⟩, hwalk, h⟩ := bind_eq_ok.mp h
    obtain ⟨⟨queue₁, balances₂⟩, hrest, h⟩ := bind_eq_ok.mp h
    obtain ⟨rfl, -⟩ : entry₁ :: queue₁ = queue' ∧ balances₂ = balances' := by simpa using h
    obtain ⟨other₁, hwalk⟩ := walkMonth_queue hwalk other
    obtain ⟨other₂, hrest⟩ := ih hrest other₁
    exact ⟨other₂, bind_eq_ok.mpr ⟨_, hwalk, bind_eq_ok.mpr ⟨_, hrest, rfl⟩⟩⟩

/-! ## The pot -/

/-- A retirement account that nothing else moves: it starts empty, no template posts on it, and the
contribution is the same each month. -/
structure LonePot (state : WorldState) (params : RetirementParams) (account : Nat) : Prop where
  contributes : params.contributionAccountId = some account
  noCurve : params.contributionCurve = []
  nonnegReturn : 0 ≤ params.annualReturnPct
  nonnegInflation : 0 ≤ params.inflationPct
  empty : (initialRetirement state).balances account = some 0
  spared : ∀ snap ∈ state.recurring, Spares account snap

/-- What the contribution has become after `n` months, in the money of month 0. -/
def realPot (params : RetirementParams) (n : Nat) : ℚ :=
  params.monthlyContribution * dueWorth (1 + params.monthlyReturn) n / (1 + params.monthlyInflation) ^ n

/-- The point of a month. -/
def potPoint (today : Int) (params : RetirementParams) (n : Nat) : SeriesPoint :=
  ⟨monthOf today + n, quantize (realPot params (n + 1))⟩

/-- The loop after `n` months. -/
structure Pot (today : Int) (params : RetirementParams) (account n : Nat) (p : RetirementProjection) : Prop where
  balance : p.balances account = some (params.monthlyContribution * dueWorth (1 + params.monthlyReturn) n)
  queue : ∀ entry ∈ p.queue, Spares account entry.snap
  points : p.retirementRealTerms = (List.range n).map (potPoint today params)

theorem LonePot.start (h : LonePot state params account) : Pot today params account 0 (initialRetirement state) where
  balance := by rw [h.empty, dueWorth_zero, mul_zero]
  queue := by
    intro entry hentry
    obtain ⟨snap, hsnap, rfl⟩ := List.mem_map.mp hentry
    exact h.spared snap hsnap
  points := rfl

theorem monthlyReturn_nonneg (h : 0 ≤ params.annualReturnPct) : 0 ≤ params.monthlyReturn := by
  unfold RetirementParams.monthlyReturn
  linarith

theorem monthlyInflation_nonneg (h : 0 ≤ params.inflationPct) : 0 ≤ params.monthlyInflation := by
  unfold RetirementParams.monthlyInflation
  linarith

/-- A month's contribution and interest are one period of the pot. -/
theorem contribute_pot (h : LonePot state params account) (n : Nat) :
    contribute params monthDate (params.monthlyContribution * dueWorth (1 + params.monthlyReturn) n) =
      params.monthlyContribution * dueWorth (1 + params.monthlyReturn) (n + 1) := by
  have hcontribution : contributionForMonth params monthDate = params.monthlyContribution := by
    rw [contributionForMonth, h.noCurve]
    rfl
  rw [← dueWorth_succ]
  simp only [contribute, hcontribution]
  split
  · ring
  · rename_i hzero
    rw [le_antisymm (not_lt.mp hzero) (monthlyReturn_nonneg h.nonnegReturn)]
    ring

theorem realTerms_pot (h : LonePot state params account) (n : Nat) :
    realTerms params n (params.monthlyContribution * dueWorth (1 + params.monthlyReturn) (n + 1)) =
      realPot params (n + 1) := by
  have hpos : 0 < (1 + params.monthlyInflation) ^ (n + 1) :=
    pow_pos (by linarith [monthlyInflation_nonneg h.nonnegInflation]) _
  exact if_neg hpos.ne'

theorem Pot.step (h : LonePot state params account) (hp : Pot today params account monthIndex p)
    (hstep : retirementMonth today params p monthIndex = .ok q) : Pot today params account (monthIndex + 1) q := by
  unfold retirementMonth at hstep
  rw [startOfHorizon, onMonth_one] at hstep
  obtain ⟨monthDate, hdate, hstep⟩ := bind_eq_ok.mp hstep
  obtain ⟨nextMonth, -, hstep⟩ := bind_eq_ok.mp hstep
  obtain ⟨⟨queue, balances⟩, hwalk, hstep⟩ := bind_eq_ok.mp hstep
  obtain ⟨hbalance, hqueue⟩ := walkQueue_spares hwalk hp.queue
  rw [hp.balance] at hbalance
  simp only [h.contributes, hbalance, contribute_pot h, realTerms_pot h] at hstep
  obtain rfl := Except.ok.inj hstep
  have hmonth : monthOf monthDate = monthOf today + monthIndex := by
    rw [plusMonths_first hdate, ← onMonth_one]
    exact monthOf_onMonth le_rfl
  refine ⟨if_pos rfl, hqueue, ?_⟩
  rw [hp.points, List.range_succ, List.map_append, List.map_singleton, hmonth]
  rfl

theorem LonePot.run (h : LonePot state params account) {n : Nat}
    (hrun : (List.range n).foldlM (retirementMonth today params) (initialRetirement state) = .ok p) :
    Pot today params account n p := by
  induction n generalizing p with
  | zero =>
    obtain rfl := Except.ok.inj hrun
    exact h.start
  | succ n ih =>
    rw [List.range_succ, List.foldlM_append] at hrun
    obtain ⟨before, hbefore, hrun⟩ := bind_eq_ok.mp hrun
    obtain ⟨after, hstep, hrun⟩ := bind_eq_ok.mp hrun
    obtain rfl := Except.ok.inj hrun
    exact (ih hbefore).step h hstep

/-- Another contribution gets as far: the templates are walked the same way. -/
theorem LonePot.rerun (h : LonePot state params account) {other : RetirementParams}
    (hother : LonePot state other account) {n : Nat}
    (hrun : (List.range n).foldlM (retirementMonth today params) (initialRetirement state) = .ok p) :
    ∃ q, (List.range n).foldlM (retirementMonth today other) (initialRetirement state) = .ok q ∧ q.queue = p.queue := by
  induction n generalizing p with
  | zero =>
    obtain rfl := Except.ok.inj hrun
    exact ⟨_, rfl, rfl⟩
  | succ n ih =>
    rw [List.range_succ, List.foldlM_append] at hrun
    obtain ⟨before, hbefore, hrun⟩ := bind_eq_ok.mp hrun
    obtain ⟨after, hstep, hrun⟩ := bind_eq_ok.mp hrun
    obtain rfl := Except.ok.inj hrun
    obtain ⟨otherBefore, hotherBefore, hqueue⟩ := ih hbefore
    have hpot := h.run hbefore
    have hotherPot := hother.run hotherBefore
    unfold retirementMonth at hstep
    obtain ⟨monthDate, hdate, hstep⟩ := bind_eq_ok.mp hstep
    obtain ⟨nextMonth, hnext, hstep⟩ := bind_eq_ok.mp hstep
    obtain ⟨⟨queue, balances⟩, hwalk, hstep⟩ := bind_eq_ok.mp hstep
    obtain ⟨hbalance, -⟩ := walkQueue_spares hwalk hpot.queue
    rw [hpot.balance] at hbalance
    simp only [h.contributes, hbalance] at hstep
    obtain rfl := Except.ok.inj hstep
    obtain ⟨otherBalances, hotherWalk⟩ := walkQueue_queue hwalk otherBefore.balances
    rw [← hqueue] at hotherWalk
    obtain ⟨hotherBalance, -⟩ := walkQueue_spares hotherWalk hotherPot.queue
    rw [hotherPot.balance] at hotherBalance
    have hmonth : ∃ q, retirementMonth today other otherBefore n = .ok q ∧ q.queue = queue := by
      simp only [retirementMonth, hdate, hnext, hotherWalk, hother.contributes, hotherBalance, bind, Except.bind]
      exact ⟨_, rfl, rfl⟩
    obtain ⟨q, hq, hqueue'⟩ := hmonth
    refine ⟨q, ?_, hqueue'⟩
    rw [List.range_succ, List.foldlM_append]
    exact bind_eq_ok.mpr ⟨_, hotherBefore, bind_eq_ok.mpr ⟨_, hq, rfl⟩⟩

/-! ## The verdict -/

/-- A verdict is red for a target that the balance falls short of by more than 15%. -/
theorem retirementVerdict_red_iff (points : List SeriesPoint) :
    (retirementVerdict params points).color = .red ↔
      0 < params.targetBalance ∧ ∃ last ∈ points.getLast?,
        realAtTarget params points last < 85 / 100 * params.targetBalance := by
  unfold retirementVerdict
  cases points.getLast? with
  | none => simp
  | some last =>
    simp only [Option.mem_def, Option.some.injEq, exists_eq_left']
    by_cases hset : params.targetBalance ≤ 0
    · simp [hset, not_lt.mpr hset]
    have hpos : 0 < params.targetBalance := not_le.mp hset
    rw [if_neg hset]
    by_cases hreached : params.targetBalance ≤ realAtTarget params points last
    · rw [if_pos hreached]
      refine iff_of_false (by simp) ?_
      rintro ⟨-, hshort⟩
      linarith
    rw [if_neg hreached]
    have hratio : (params.targetBalance - realAtTarget params points last) / params.targetBalance ≤ 15 / 100 ↔
        ¬ realAtTarget params points last < 85 / 100 * params.targetBalance := by
      rw [div_le_iff₀ hpos, not_lt]
      constructor <;> intro h <;> linarith
    by_cases hclose : realAtTarget params points last < 85 / 100 * params.targetBalance
    · rw [if_neg (hratio.not.mpr (not_not.mpr hclose))]
      exact iff_of_true rfl ⟨hpos, hclose⟩
    · rw [if_pos (hratio.mpr hclose)]
      exact iff_of_false (by simp) fun h => hclose h.2

/-- The verdict reads the point of the target's month. -/
theorem realAtTarget_pot {target : Int} (htarget : params.targetRetirementDate = some target)
    (hinside : monthOf today ≤ monthOf target ∧ monthOf target < monthOf today + horizon) (last : SeriesPoint) :
    realAtTarget params ((List.range horizon).map (potPoint today params)) last =
      quantize (realPot params ((monthOf target - monthOf today).toNat + 1)) := by
  have hfound : ((List.range horizon).map (potPoint today params)).find? (fun p => p.month = monthOf target) =
      some (potPoint today params (monthOf target - monthOf today).toNat) := by
    cases hfind : ((List.range horizon).map (potPoint today params)).find? (fun p => p.month = monthOf target) with
    | none =>
      have hmem : potPoint today params (monthOf target - monthOf today).toNat ∈
          (List.range horizon).map (potPoint today params) :=
        List.mem_map_of_mem (List.mem_range.mpr (by omega))
      have hmonth : (potPoint today params (monthOf target - monthOf today).toNat).month = monthOf target := by
        dsimp only [potPoint]
        omega
      exact absurd (decide_eq_true hmonth) (List.find?_eq_none.mp hfind _ hmem)
    | some point =>
      obtain ⟨n, -, rfl⟩ := List.mem_map.mp (List.mem_of_find?_eq_some hfind)
      have hmatch := List.find?_some hfind
      have hmonth : monthOf today + n = monthOf target := of_decide_eq_true hmatch
      rw [← hmonth, show (monthOf today + (n : Int) - monthOf today).toNat = n by omega]
  unfold realAtTarget
  rw [htarget, Option.bind_some, hfound]
  rfl

/-! ## The suggestion -/

/-- The contribution that comes to the target in the last of `months`, paid in at the end of each month
and rounded to cents. -/
def annuityFor (params : RetirementParams) (months : Nat) : ℚ :=
  quantize (params.targetBalance * (1 + params.monthlyInflation) ^ months /
    ∑ k ∈ Finset.range months, (1 + params.monthlyReturn) ^ k)

theorem requiredMonthly_eq (hreturn : 0 ≤ params.annualReturnPct) (hinflation : 0 ≤ params.inflationPct)
    (htarget : 0 < params.targetBalance) {months : Nat} (hmonths : months ≠ 0) :
    requiredMonthlyToCloseGap 0 params.targetBalance params.annualReturnPct params.inflationPct months =
      annuityFor params months := by
  have hr := monthlyReturn_nonneg hreturn
  have hpos : 0 < params.targetBalance * (1 + params.monthlyInflation) ^ months :=
    mul_pos htarget (pow_pos (by linarith [monthlyInflation_nonneg hinflation]) _)
  have hdef : requiredMonthlyToCloseGap 0 params.targetBalance params.annualReturnPct params.inflationPct months =
      let needed := params.targetBalance * (1 + params.monthlyInflation) ^ months - 0 * (1 + params.monthlyReturn) ^ months
      let factor := ((1 + params.monthlyReturn) ^ months - 1) / params.monthlyReturn
      if months = 0 then 0
      else if needed ≤ 0 then 0
      else if params.monthlyReturn = 0 then quantize (needed / months)
      else if factor = 0 then 0 else quantize (needed / factor) := rfl
  rw [hdef, annuityFor]
  simp only [zero_mul, sub_zero, if_neg hmonths, if_neg (not_le.mpr hpos)]
  by_cases hzero : params.monthlyReturn = 0
  · simp [hzero]
  · have hgeom : ∑ k ∈ Finset.range months, (1 + params.monthlyReturn) ^ k =
        ((1 + params.monthlyReturn) ^ months - 1) / params.monthlyReturn := by
      rw [geom_sum_eq (by simpa using hzero), add_sub_cancel_left]
    have hfactor : ((1 + params.monthlyReturn) ^ months - 1) / params.monthlyReturn ≠ 0 := by
      rw [← hgeom]
      have hone : 0 < 1 + params.monthlyReturn := by linarith
      exact (Finset.sum_pos (fun k _ => pow_pos hone k) (by simpa using hmonths)).ne'
    rw [if_neg hzero, if_neg hfactor, hgeom]

/-- The scenario with the amount added to its contribution. -/
def RetirementParams.raised (params : RetirementParams) (amount : ℚ) : RetirementParams :=
  { params with monthlyContribution := params.monthlyContribution + amount }

/-- Paid until the retirement date only, the annuity of the whole horizon comes within 15% of the
target. -/
def CloseByTarget (today : Int) (params : RetirementParams) (horizon : Nat) (target : Int) : Prop :=
  85 / 100 * params.targetBalance ≤
    quantize (realPot (params.raised (quantize (annuityFor params horizon - params.monthlyContribution)))
      ((monthOf target - monthOf today).toNat + 1))

theorem LonePot.raised (h : LonePot state params account) (amount : ℚ) : LonePot state (params.raised amount) account where
  contributes := h.contributes
  noCurve := h.noCurve
  nonnegReturn := h.nonnegReturn
  nonnegInflation := h.nonnegInflation
  empty := h.empty
  spared := h.spared

/-- What is suggested is what the annuity of the horizon is above the contribution. -/
theorem suggested_eq {verdict : PlanVerdict} {points : List SeriesPoint} {amount : ℚ}
    (h : LonePot state params account) (htarget : 0 < params.targetBalance) (hne : points.length ≠ 0)
    (hsuggested : ⟨amount⟩ ∈ retirementSuggestions params verdict points) :
    amount = quantize (annuityFor params points.length - params.monthlyContribution) := by
  simp only [retirementSuggestions, if_neg hne, requiredMonthly_eq h.nonnegReturn h.nonnegInflation htarget hne]
    at hsuggested
  split at hsuggested
  · split at hsuggested
    · cases hsuggested
    · exact Suggestion.mk.inj (List.mem_singleton.mp hsuggested)
  · cases hsuggested

/-- One empty account, and no templates. -/
def emptyPot : WorldState where
  accounts := [⟨1, "Pension", "EUR", 0⟩]
  recurring := []
  keyed := by decide

/-- Nothing is paid in yet towards 1200, without return or inflation. -/
def twelveHundredBy (target : Int) : RetirementParams where
  targetRetirementDate := some target
  contributionAccountId := some 1
  targetBalance := 1200

theorem twelveHundredBy_lone (target : Int) : LonePot emptyPot (twelveHundredBy target) 1 where
  contributes := rfl
  noCurve := rfl
  nonnegReturn := le_rfl
  nonnegInflation := le_rfl
  empty := by decide +kernel
  spared := by simp [emptyPot]

end BetterDecision
