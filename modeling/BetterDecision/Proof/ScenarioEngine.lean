import BetterDecision.Model.ScenarioEngine
import BetterDecision.Proof.Dates
import BetterDecision.Lib.Runs

/-!
# The scenario engine walks as everybody else does

The engine walks each series month by month with a queue of its own. What ties the
queue to the shared walk is `Owes`: the occurrences the shared walk finds from month 0
on are those up to the end of the last month projected, followed by those the queue
entry has still to deliver. A month's pass takes its share off the front of the second
part (`Owes.walk`), so the balances follow by addition.

The engine raises where the shared walk ends, at the last day of the calendar, so the
statements are about the projections that come out, and `simulate_returns` says when
one does.
-/

namespace BetterDecision

open Calendar

/-! ## Posting -/

/-- What some legs add to an account. -/
def legsOn (legs : List (Option Nat × ℚ)) (a : Nat) : ℚ :=
  (legs.map (fun leg => if leg.1 = some a then leg.2 else 0)).sum

theorem Balances.post_apply (balances : Balances) (account : Nat) (delta : ℚ) (a : Nat) :
    balances.post account delta a = (balances a).map (· + if account = a then delta else 0) := by
  unfold Balances.post
  by_cases h : a = account
  · rw [if_pos h, if_pos h.symm]
  · rw [if_neg h, if_neg (Ne.symm h)]
    simp

theorem postLegs_apply (legs : List (Option Nat × ℚ)) (balances : Balances) (a : Nat) :
    postLegs balances legs a = (balances a).map (· + legsOn legs a) := by
  unfold postLegs legsOn
  induction legs generalizing balances with
  | nil => simp
  | cons leg legs ih =>
    rw [List.foldl_cons, ih, List.map_cons, List.sum_cons]
    obtain ⟨account, delta⟩ := leg
    cases account with
    | none => simp
    | some account =>
      simp only [Balances.post_apply, Option.map_map, Option.some.injEq]
      congr 1
      funext balance
      simp only [Function.comp_apply]
      ring

/-! ## One template, one month -/

section Walk

variable {applies : Bool} {monthDate monthEnd : Int}

/-- What a month's pass over one template does: it takes the grid up to the month's end
off the front, and posts what of it lies in the month. -/
structure Walked (applies : Bool) (monthDate monthEnd : Int) (entry : QueueEntry) (balances : Balances)
    (entry' : QueueEntry) (balances' : Balances) : Prop where
  snap : entry'.snap = entry.snap
  split : ∀ stop, monthEnd ≤ stop →
    grid entry.snap.frequency stop entry.nextDue entry.remaining =
      grid entry.snap.frequency monthEnd entry.nextDue entry.remaining ++
        grid entry.snap.frequency stop entry'.nextDue entry'.remaining
  beyond : ∀ stop, ∀ x ∈ grid entry.snap.frequency stop entry'.nextDue entry'.remaining, monthEnd < x
  posted : ∀ a, balances' a = (balances a).map
    (· + (((grid entry.snap.frequency monthEnd entry.nextDue entry.remaining).filter
      (fun x => applies && decide (monthDate ≤ x))).map (fun _ => legsOn entry.snap.legs a)).sum)

/-- A template with nothing up to the month's end is left alone. -/
theorem Walked.idle {entry : QueueEntry} {balances : Balances}
    (h : monthEnd < entry.nextDue ∨ hasBudget entry.remaining = false) :
    Walked applies monthDate monthEnd entry balances entry balances := by
  have hnil : grid entry.snap.frequency monthEnd entry.nextDue entry.remaining = [] := by
    rcases h with h | h
    · exact grid_of_lt h
    · exact grid_of_spent h
  refine ⟨rfl, fun stop _ => by rw [hnil]; rfl, ?_, fun a => by simp [hnil]⟩
  intro stop x hx
  rcases h with h | h
  · exact Int.lt_of_lt_of_le h (mem_grid_bounds hx).1
  · rw [grid_of_spent h] at hx
    cases hx

theorem walkMonth_spec : ∀ (fuel : Nat) (entry : QueueEntry) (balances : Balances),
    (monthEnd + 1 - entry.nextDue).toNat ≤ fuel → ∀ {entry' : QueueEntry} {balances' : Balances},
      walkMonth applies monthDate monthEnd fuel entry balances = .ok (entry', balances') →
        Walked applies monthDate monthEnd entry balances entry' balances' := by
  intro fuel
  induction fuel with
  | zero =>
    intro entry balances hfuel entry' balances' he
    obtain ⟨rfl, rfl⟩ : entry = entry' ∧ balances = balances' := by simpa [walkMonth] using he
    exact .idle (.inl (by omega))
  | succ fuel ih =>
    intro entry balances hfuel entry' balances' he
    unfold walkMonth at he
    split at he
    · rename_i hgo
      obtain ⟨next, hnext, he⟩ := bind_eq_ok.mp he
      have hlt := lt_of_advanceDate hnext
      have hnext' := nextOccurrence_eq_some.mpr hnext
      -- the rest of the walk, from the advanced entry
      obtain ⟨hsnap, hsplit, hbeyond, hposted⟩ := ih _ _ (by dsimp only; omega) he
      dsimp only at hsnap hsplit hbeyond hposted
      have hcons : ∀ stop, monthEnd ≤ stop →
          grid entry.snap.frequency stop entry.nextDue entry.remaining =
            entry.nextDue :: grid entry.snap.frequency stop next (spendOne entry.remaining) := by
        intro stop hstop
        rw [grid_cons (by omega) hgo.2, hnext']
      refine ⟨hsnap, ?_, hbeyond, ?_⟩
      · intro stop hstop
        rw [hcons stop hstop, hcons monthEnd le_rfl, hsplit stop hstop]
        rfl
      · intro a
        rw [hposted a, hcons monthEnd le_rfl]
        by_cases hpost : applies ∧ monthDate ≤ entry.nextDue
        · rw [if_pos hpost, postLegs_apply, List.filter_cons_of_pos (by simpa using hpost), List.map_cons,
            List.sum_cons, Option.map_map]
          congr 1
          funext balance
          simp only [Function.comp_apply]
          ring
        · rw [if_neg hpost, List.filter_cons_of_neg (by simpa using hpost)]
    · rename_i hstop
      obtain ⟨rfl, rfl⟩ : entry = entry' ∧ balances = balances' := by simpa using he
      refine .idle ?_
      by_cases hdue : entry.nextDue ≤ monthEnd
      · exact .inr (by simpa [hdue] using hstop)
      · exact .inl (by omega)

end Walk

/-! ## What the queue owes -/

/-- The occurrences of a snapshot from the first day of month 0 up to `stop`. -/
def occurrencesBy (first : Int) (snap : RecurringSnapshot) (stop : Int) : List Int :=
  occurrencesInWindow snap.nextDueDate snap.frequency first stop snap.remaining

/-- With the months before `boundary` projected, the entry has exactly the occurrences
from `boundary` on still to deliver. -/
def Owes (first boundary : Int) (entry : QueueEntry) : Prop :=
  ∀ stop, boundary - 1 ≤ stop → occurrencesBy first entry.snap stop =
    occurrencesBy first entry.snap (boundary - 1) ++
      (grid entry.snap.frequency stop entry.nextDue entry.remaining).filter (fun x => decide (boundary ≤ x))

theorem Owes.start (first : Int) (snap : RecurringSnapshot) :
    Owes first first ⟨snap, snap.nextDueDate, snap.remaining⟩ := by
  intro stop hstop
  unfold occurrencesBy
  have hnone : (grid snap.frequency (first - 1) snap.nextDueDate snap.remaining).filter
      (fun x => decide (first ≤ x)) = [] := by
    rw [List.filter_eq_nil_iff]
    intro x hx
    have := mem_grid_bounds hx
    simp only [decide_eq_true_eq]
    omega
  rw [occurrencesInWindow_eq, occurrencesInWindow_eq, hnone]
  rfl

/-- A month's pass delivers what is owed of the month, and leaves the rest owed. -/
theorem Owes.walk {applies : Bool} {first monthDate monthEnd : Int} {entry entry' : QueueEntry}
    {balances balances' : Balances} (h : Owes first monthDate entry) (hmonth : monthDate ≤ monthEnd + 1)
    (hw : Walked applies monthDate monthEnd entry balances entry' balances') :
    Owes first (monthEnd + 1) entry' ∧
      occurrencesBy first entry.snap monthEnd = occurrencesBy first entry.snap (monthDate - 1) ++
        (grid entry.snap.frequency monthEnd entry.nextDue entry.remaining).filter
          (fun x => decide (monthDate ≤ x)) := by
  have hend := h monthEnd (by omega)
  refine ⟨?_, hend⟩
  intro stop hstop
  rw [Int.add_sub_cancel] at hstop ⊢
  -- what is left lies beyond the month, whichever bound one asks for
  have hrest : (grid entry.snap.frequency stop entry'.nextDue entry'.remaining).filter
      (fun x => decide (monthDate ≤ x)) =
      (grid entry.snap.frequency stop entry'.nextDue entry'.remaining).filter
        (fun x => decide (monthEnd + 1 ≤ x)) := by
    refine List.filter_congr ?_
    intro x hx
    have := hw.beyond stop x hx
    rw [decide_eq_decide]
    omega
  rw [hw.snap, h stop (by omega), hw.split stop hstop, List.filter_append, ← List.append_assoc, ← hend, hrest]

/-! ## The recurring rows of a month -/

/-- The occurrences up to `stop` that fall in a month in which the row fires. -/
def dueBy (today : Int) (scenario : Scenario) (snap : RecurringSnapshot) (stop : Int) : List Int :=
  (occurrencesBy (monthStart (monthOf today) + 1) snap stop).filter
    (fun d => shouldApply scenario snap (monthOf d - monthOf today).toNat)

/-- What they add to an account. -/
def recurringOn (today : Int) (scenario : Scenario) (a : Nat) (stop : Int) (snap : RecurringSnapshot) : ℚ :=
  ((dueBy today scenario snap stop).map (fun _ => legsOn snap.legs a)).sum

section Month

variable {today : Int} {scenario : Scenario} {monthIndex : Nat}

/-- The month's pass over one template posts what fell due in the month. -/
theorem Walked.posted_month {entry entry' : QueueEntry} {balances balances' : Balances}
    (howes : Owes (monthStart (monthOf today) + 1) (monthStart (monthOf today + monthIndex) + 1) entry)
    (hw : Walked (shouldApply scenario entry.snap monthIndex) (monthStart (monthOf today + monthIndex) + 1)
      (monthStart (monthOf today + monthIndex + 1)) entry balances entry' balances') (a : Nat) :
    balances' a = (balances a).map
      (· + (recurringOn today scenario a (monthStart (monthOf today + monthIndex + 1)) entry.snap -
        recurringOn today scenario a (monthStart (monthOf today + monthIndex)) entry.snap)) := by
  have hmonth := monthStart_strictMono.monotone
    (show monthOf today + (monthIndex : Int) ≤ monthOf today + monthIndex + 1 by omega)
  obtain ⟨-, hsplit⟩ := howes.walk (by omega) hw
  rw [Int.add_sub_cancel] at hsplit
  -- the month's share of the grid, and in it the filter asks about this month only
  have hshare : ((grid entry.snap.frequency (monthStart (monthOf today + monthIndex + 1)) entry.nextDue
      entry.remaining).filter (fun x => decide (monthStart (monthOf today + monthIndex) + 1 ≤ x))).filter
        (fun d => shouldApply scenario entry.snap (monthOf d - monthOf today).toNat) =
      (grid entry.snap.frequency (monthStart (monthOf today + monthIndex + 1)) entry.nextDue
        entry.remaining).filter (fun x => shouldApply scenario entry.snap monthIndex &&
          decide (monthStart (monthOf today + monthIndex) + 1 ≤ x)) := by
    rw [List.filter_filter]
    refine List.filter_congr ?_
    intro x hx
    have hle := (mem_grid_bounds hx).2
    by_cases hx' : monthStart (monthOf today + monthIndex) + 1 ≤ x
    · have hmo : monthOf x = monthOf today + monthIndex := monthOf_eq_iff.mpr ⟨by omega, hle⟩
      rw [hmo, show (monthOf today + (monthIndex : Int) - monthOf today).toNat = monthIndex by omega]
    · simp [hx']
  rw [hw.posted a, recurringOn, recurringOn, dueBy, hsplit, List.filter_append, hshare, List.map_append,
    List.sum_append, ← dueBy]
  congr 1
  funext balance
  ring

theorem walkQueue_spec : ∀ (queue : List QueueEntry) (balances : Balances),
    (∀ entry ∈ queue,
      Owes (monthStart (monthOf today) + 1) (monthStart (monthOf today + monthIndex) + 1) entry) →
    ∀ {queue' : List QueueEntry} {balances' : Balances},
      walkQueue scenario monthIndex (monthStart (monthOf today + monthIndex) + 1)
        (monthStart (monthOf today + monthIndex + 1)) queue balances = .ok (queue', balances') →
      (∀ entry ∈ queue',
        Owes (monthStart (monthOf today) + 1) (monthStart (monthOf today + monthIndex + 1) + 1) entry) ∧
      queue'.map QueueEntry.snap = queue.map QueueEntry.snap ∧
      ∀ a, balances' a = (balances a).map (· + ((queue.map QueueEntry.snap).map (fun snap =>
        recurringOn today scenario a (monthStart (monthOf today + monthIndex + 1)) snap -
          recurringOn today scenario a (monthStart (monthOf today + monthIndex)) snap)).sum) := by
  intro queue
  induction queue with
  | nil =>
    intro balances _ queue' balances' he
    obtain ⟨rfl, rfl⟩ : [] = queue' ∧ balances = balances' := by simpa [walkQueue] using he
    exact ⟨by simp, rfl, fun a => by simp⟩
  | cons entry queue ih =>
    intro balances howes queue' balances' he
    unfold walkQueue at he
    obtain ⟨⟨entry₁, balances₁⟩, hwalk, he⟩ := bind_eq_ok.mp he
    obtain ⟨⟨queue₁, balances₂⟩, hrest, he⟩ := bind_eq_ok.mp he
    obtain ⟨rfl, rfl⟩ : entry₁ :: queue₁ = queue' ∧ balances₂ = balances' := by simpa using he
    have howes₀ := howes entry List.mem_cons_self
    have hw := walkMonth_spec _ _ _ le_rfl hwalk
    have hmonth := monthStart_strictMono.monotone
      (show monthOf today + (monthIndex : Int) ≤ monthOf today + monthIndex + 1 by omega)
    obtain ⟨hall, hsnaps, hposted⟩ := ih _ (fun e he => howes e (List.mem_cons_of_mem _ he)) hrest
    refine ⟨?_, ?_, ?_⟩
    · intro e he
      rcases List.mem_cons.mp he with rfl | he
      · exact (howes₀.walk (by omega) hw).1
      · exact hall e he
    · rw [List.map_cons, List.map_cons, hw.snap, hsnaps]
    · intro a
      rw [hposted a, hw.posted_month howes₀ a, Option.map_map, List.map_cons, List.map_cons, List.sum_cons]
      congr 1
      funext balance
      simp only [Function.comp_apply]
      ring

end Month

/-! ## The overlays of a month -/

/-- What the overlay events dated in months `from` up to (and without) `to` add. -/
def overlaysOn (overlays : Overlays) (a : Nat) (first last : Int) : ℚ :=
  ((overlays.filter (fun e => decide (first ≤ e.1 ∧ e.1 ≤ last ∧ e.2.accountId = a))).map (·.2.delta)).sum

theorem applyOverlay_balances (month : Int) (acc : Balances × List Alert) (ev : OverlayEvent) (a : Nat) :
    (applyOverlay month acc ev).1 a = (acc.1 a).map (· + if ev.accountId = a then ev.delta else 0) := by
  unfold applyOverlay
  cases h : acc.1 ev.accountId with
  | none =>
    by_cases ha : ev.accountId = a
    · rw [← ha, h]; rfl
    · simp [ha]
  | some balance =>
    dsimp only
    split <;> exact acc.1.post_apply _ _ a

theorem applyOverlays_balances (month : Int) (events : List OverlayEvent) (acc : Balances × List Alert)
    (a : Nat) : (events.foldl (applyOverlay month) acc).1 a =
      (acc.1 a).map (· + (events.map (fun ev => if ev.accountId = a then ev.delta else 0)).sum) := by
  induction events generalizing acc with
  | nil => simp
  | cons ev events ih =>
    rw [List.foldl_cons, ih, applyOverlay_balances, Option.map_map, List.map_cons, List.sum_cons]
    congr 1
    funext balance
    simp only [Function.comp_apply]
    ring

theorem applyOverlays_alerts (month : Int) (events : List OverlayEvent) (acc : Balances × List Alert) :
    acc.2 <+: (events.foldl (applyOverlay month) acc).2 := by
  induction events generalizing acc with
  | nil => exact List.prefix_rfl
  | cons ev events ih =>
    have hone : acc.2 <+: (applyOverlay month acc ev).2 := by
      unfold applyOverlay
      split
      · exact List.prefix_rfl
      · dsimp only
        split
        · exact List.prefix_append _ _
        · exact List.prefix_rfl
    exact hone.trans (ih _)

/-- The events of one more month. -/
theorem overlaysOn_succ (overlays : Overlays) (a : Nat) {first month : Int} (h : first ≤ month) :
    overlaysOn overlays a first month = overlaysOn overlays a first (month - 1) +
      (((overlays.filter (fun e => e.1 == month)).map Prod.snd).map
        (fun ev => if ev.accountId = a then ev.delta else 0)).sum := by
  unfold overlaysOn
  induction overlays with
  | nil => simp
  | cons e overlays ih =>
    obtain ⟨mo, ev⟩ := e
    by_cases hmo : mo = month
    · subst hmo
      rw [List.filter_cons_of_neg (p := fun e : Int × OverlayEvent => decide (first ≤ e.1 ∧ e.1 ≤ mo - 1 ∧
        e.2.accountId = a)) (by simp), List.filter_cons_of_pos (p := fun e : Int × OverlayEvent => e.1 == mo)
        (by simp), List.map_cons, List.map_cons, List.sum_cons]
      by_cases ha : ev.accountId = a
      · rw [List.filter_cons_of_pos (by simpa using ⟨h, ha⟩), List.map_cons, List.sum_cons, ih, if_pos ha]
        ring
      · rw [List.filter_cons_of_neg (by simp [ha]), ih, if_neg ha]
        ring
    · by_cases hin : first ≤ mo ∧ mo ≤ month ∧ ev.accountId = a
      · have hin' : first ≤ mo ∧ mo ≤ month - 1 ∧ ev.accountId = a := ⟨hin.1, by omega, hin.2.2⟩
        rw [List.filter_cons_of_pos (by simpa using hin), List.filter_cons_of_pos (by simpa using hin'),
          List.filter_cons_of_neg (by simpa using hmo), List.map_cons, List.sum_cons, ih, List.map_cons,
          List.sum_cons]
        ring
      · have hin' : ¬ (first ≤ mo ∧ mo ≤ month - 1 ∧ ev.accountId = a) := fun h' =>
          hin ⟨h'.1, by omega, h'.2.2⟩
        rw [List.filter_cons_of_neg (by simpa using hin), List.filter_cons_of_neg (by simpa using hin'),
          List.filter_cons_of_neg (by simpa using hmo), ih]

/-! ## The months of the horizon -/

theorem onMonth_one (k : Int) : onMonth k 1 = monthStart k + 1 := by
  have := monthLength_bounds k
  unfold onMonth
  omega

theorem addMonths_first (k n : Int) : addMonths (monthStart k + 1) n = monthStart (k + n) + 1 := by
  rw [← onMonth_one k, addMonths, monthOf_onMonth le_rfl, dayOf_onMonth le_rfl,
    min_eq_left (by have := monthLength_bounds k; omega), onMonth_one]

theorem plusMonths_first {k n d : Int} (h : plusMonths (monthStart k + 1) n = .ok d) :
    d = monthStart (k + n) + 1 := by
  unfold plusMonths at h
  split at h
  · cases h
  · rw [← Except.ok.inj h, addMonths_first]

/-- What the first `months` months of a projection add to an account: the occurrences
up to the last day of the last of them, and the overlay events dated in them. -/
def projectedChange (today : Int) (state : WorldState) (scenario : Scenario) (overlays : Overlays) (a : Nat)
    (months : Nat) : ℚ :=
  (state.recurring.map (recurringOn today scenario a (monthStart (monthOf today + months)))).sum +
    overlaysOn overlays a (monthOf today) (monthOf today + months - 1)

/-- The starting balance of an account, if the world state has it. -/
def startingBalance (state : WorldState) (a : Nat) : Option ℚ :=
  (rowAt AccountSnapshot.accountId state.accounts a).map (·.startingBalance)

/-- The loop after `n` months. -/
structure Projected (today : Int) (state : WorldState) (scenario : Scenario) (overlays : Overlays) (n : Nat)
    (p : Projection) : Prop where
  owes : ∀ entry ∈ p.queue,
    Owes (monthStart (monthOf today) + 1) (monthStart (monthOf today + n) + 1) entry
  snaps : p.queue.map QueueEntry.snap = state.recurring
  balances : ∀ a, p.balances a =
    (startingBalance state a).map (· + projectedChange today state scenario overlays a n)
  series : ∀ a start, startingBalance state a = some start →
    p.seriesByAccount a = (List.range n).map (fun m : Nat => ⟨monthOf today + m,
      quantize (start + projectedChange today state scenario overlays a (m + 1))⟩)

section Loop

variable {today : Int} {state : WorldState} {scenario : Scenario} {overlays : Overlays}

theorem recurringOn_start (a : Nat) (snap : RecurringSnapshot) :
    recurringOn today scenario a (monthStart (monthOf today)) snap = 0 := by
  have hnone : occurrencesBy (monthStart (monthOf today) + 1) snap (monthStart (monthOf today)) = [] := by
    rw [occurrencesBy, occurrencesInWindow_eq, List.filter_eq_nil_iff]
    intro x hx
    have := mem_grid_bounds hx
    simp only [decide_eq_true_eq]
    omega
  rw [recurringOn, dueBy, hnone]
  rfl

theorem projectedChange_zero (a : Nat) : projectedChange today state scenario overlays a 0 = 0 := by
  have hover : overlaysOn overlays a (monthOf today) (monthOf today - 1) = 0 := by
    have hnone : overlays.filter (fun e => decide (monthOf today ≤ e.1 ∧ e.1 ≤ monthOf today - 1 ∧
        e.2.accountId = a)) = [] := by
      rw [List.filter_eq_nil_iff]
      intro e _
      simp only [decide_eq_true_eq]
      omega
    rw [overlaysOn, hnone]
    rfl
  have hrec : (state.recurring.map (recurringOn today scenario a (monthStart (monthOf today)))).sum = 0 := by
    rw [List.map_congr_left fun snap _ => recurringOn_start a snap]
    simp
  rw [projectedChange, Nat.cast_zero, add_zero, hrec, hover, add_zero]

theorem Projected.start : Projected today state scenario overlays 0 (initialProjection state) where
  owes := by
    intro entry he
    obtain ⟨snap, -, rfl⟩ := List.mem_map.mp he
    rw [Nat.cast_zero, add_zero]
    exact Owes.start _ snap
  snaps := by simp [initialProjection, Function.comp_def]
  balances := by
    intro a
    rw [projectedChange_zero]
    simp [initialProjection, startingBalance, Function.comp_def]
  series := fun _ _ _ => rfl

/-- One month of the loop. -/
theorem Projected.step {n : Nat} {p p' : Projection} (hp : Projected today state scenario overlays n p)
    (h : simulateMonth today scenario overlays p n = .ok p') :
    Projected today state scenario overlays (n + 1) p' ∧ p.alerts <+: p'.alerts := by
  unfold simulateMonth at h
  obtain ⟨monthDate, hdate, h⟩ := bind_eq_ok.mp h
  obtain ⟨nextMonth, hnext, h⟩ := bind_eq_ok.mp h
  rw [startOfHorizon, onMonth_one] at hdate
  obtain rfl := plusMonths_first hdate
  obtain rfl := plusMonths_first hnext
  dsimp only at h
  rw [Int.add_sub_cancel] at h
  obtain ⟨⟨queue, balances⟩, hwalk, h⟩ := bind_eq_ok.mp h
  obtain ⟨hall, hsnaps, hposted⟩ := walkQueue_spec p.queue p.balances hp.owes hwalk
  have hmonth : monthOf (monthStart (monthOf today + (n : Int)) + 1) = monthOf today + n := by
    rw [← onMonth_one]
    exact monthOf_onMonth le_rfl
  rw [hmonth] at h
  have hbal : ∀ a, p'.balances a =
      (startingBalance state a).map (· + projectedChange today state scenario overlays a (n + 1)) := by
    intro a
    rw [← Except.ok.inj h]
    dsimp only
    rw [applyOverlays_balances]
    dsimp only
    rw [hposted a, hp.balances a, hp.snaps, Option.map_map, Option.map_map]
    congr 1
    funext start
    have hover := overlaysOn_succ overlays a (show monthOf today ≤ monthOf today + (n : Int) by omega)
    have hsum : (state.recurring.map (recurringOn today scenario a (monthStart (monthOf today + n + 1)))).sum =
        (state.recurring.map (recurringOn today scenario a (monthStart (monthOf today + n)))).sum +
          (state.recurring.map (fun snap =>
            recurringOn today scenario a (monthStart (monthOf today + n + 1)) snap -
              recurringOn today scenario a (monthStart (monthOf today + n)) snap)).sum := by
      rw [← List.sum_map_add]
      congr 1
      refine List.map_congr_left fun snap _ => ?_
      ring
    simp only [Function.comp_apply, projectedChange, Nat.cast_add, Nat.cast_one]
    rw [← Int.add_assoc, hsum, Int.add_sub_cancel, hover]
    ring
  refine ⟨⟨?_, ?_, hbal, ?_⟩, ?_⟩
  · rw [← Except.ok.inj h]
    rw [Nat.cast_add, Nat.cast_one, ← Int.add_assoc]
    exact hall
  · rw [← Except.ok.inj h]
    exact hsnaps.trans hp.snaps
  · intro a start hstart
    have hb := hbal a
    rw [hstart] at hb
    rw [List.range_succ, List.map_append, ← hp.series a start hstart]
    rw [← Except.ok.inj h] at hb ⊢
    dsimp only at hb ⊢
    rw [hb]
    rfl
  · rw [← Except.ok.inj h]
    exact applyOverlays_alerts (monthOf today + n) _ (balances, p.alerts)

/-- The whole loop. -/
theorem Projected.run : ∀ {n : Nat} {p : Projection},
    (List.range n).foldlM (simulateMonth today scenario overlays) (initialProjection state) = .ok p →
      Projected today state scenario overlays n p := by
  intro n
  induction n with
  | zero =>
    intro p h
    obtain rfl := Except.ok.inj h
    exact .start
  | succ n ih =>
    intro p h
    rw [List.range_succ, List.foldlM_append] at h
    obtain ⟨p₀, h₀, h⟩ := bind_eq_ok.mp h
    rw [List.foldlM_cons, bind_eq_ok] at h
    obtain ⟨p₁, h₁, h⟩ := h
    obtain rfl := Except.ok.inj h
    exact ((ih h₀).step h₁).1

/-- Months added to the horizon leave the loop's earlier states, and warn on. -/
theorem loop_shorter {n : Nat} : ∀ {more : Nat} {p : Projection},
    (List.range (n + more)).foldlM (simulateMonth today scenario overlays) (initialProjection state) = .ok p →
      ∃ p₀, (List.range n).foldlM (simulateMonth today scenario overlays) (initialProjection state) = .ok p₀ ∧
        p₀.alerts <+: p.alerts := by
  intro more
  induction more with
  | zero => intro p h; exact ⟨p, h, List.prefix_rfl⟩
  | succ more ih =>
    intro p h
    rw [← Nat.add_assoc, List.range_succ, List.foldlM_append] at h
    obtain ⟨p₁, h₁, h⟩ := bind_eq_ok.mp h
    rw [List.foldlM_cons, bind_eq_ok] at h
    obtain ⟨p₂, h₂, h⟩ := h
    obtain rfl := Except.ok.inj h
    obtain ⟨p₀, h₀, hpre⟩ := ih h₁
    exact ⟨p₀, h₀, hpre.trans ((Projected.run h₁).step h₂).2⟩

end Loop

/-! ## When a projection comes out -/

/-- A step of a series is a year at most. -/
theorem stepDate_le (d : Int) (freq : Frequency) : stepDate d freq ≤ monthStart (monthOf d + 13) := by
  have hmonths : ∀ n : Int, n ≤ 12 → addMonths d n ≤ monthStart (monthOf d + 13) := by
    intro n hn
    have h1 := (monthOf_spec (addMonths d n)).2
    rw [monthOf_addMonths] at h1
    have h2 := monthStart_strictMono.monotone (show monthOf d + n + 1 ≤ monthOf d + 13 by omega)
    omega
  have hdays : d + 14 ≤ monthStart (monthOf d + 13) := by
    have h1 := (monthOf_spec d).2
    have h2 := monthStart_succ (monthOf d + 1)
    have h3 := (monthLength_bounds (monthOf d + 1)).1
    have h4 := monthStart_strictMono.monotone (show monthOf d + 1 + 1 ≤ monthOf d + 13 by omega)
    omega
  cases freq with
  | weekly => show d + 7 ≤ _; omega
  | biweekly => exact hdays
  | monthly => exact hmonths 1 (by omega)
  | quarterly => exact hmonths 3 (by omega)
  | yearly => exact hmonths 12 (by omega)

/-- `plusMonths` inside the calendar. -/
theorem plusMonths_ok {d n : Int} (hlow : 1 ≤ d) (hn : 0 ≤ n) (hhigh : monthOf d + n < monthAfterLast) :
    ∃ d', plusMonths d n = .ok d' := by
  have hmonth := (monthOf_calendar d).1.mp hlow
  exact ⟨_, by rw [plusMonths_eq, if_pos ⟨by omega, hhigh⟩]⟩

theorem walkMonth_returns (applies : Bool) (monthDate : Int) {monthEnd : Int}
    (h : ∀ d, d ≤ monthEnd → ∀ freq, stepDate d freq ≤ dateMax) :
    ∀ (fuel : Nat) (entry : QueueEntry) (balances : Balances),
      ∃ r, walkMonth applies monthDate monthEnd fuel entry balances = .ok r := by
  intro fuel
  induction fuel with
  | zero => intro entry balances; exact ⟨_, rfl⟩
  | succ fuel ih =>
    intro entry balances
    unfold walkMonth
    split
    · rename_i hgo
      rw [advanceDate_eq_ok.mpr ⟨h _ hgo.1 _, rfl⟩]
      exact ih _ _
    · exact ⟨_, rfl⟩

theorem walkQueue_returns (scenario : Scenario) (monthIndex : Nat) (monthDate : Int) {monthEnd : Int}
    (h : ∀ d, d ≤ monthEnd → ∀ freq, stepDate d freq ≤ dateMax) :
    ∀ (queue : List QueueEntry) (balances : Balances),
      ∃ r, walkQueue scenario monthIndex monthDate monthEnd queue balances = .ok r := by
  intro queue
  induction queue with
  | nil => intro balances; exact ⟨_, rfl⟩
  | cons entry queue ih =>
    intro balances
    obtain ⟨⟨entry₁, balances₁⟩, h₁⟩ := walkMonth_returns (shouldApply scenario entry.snap monthIndex)
      monthDate h (monthEnd + 1 - entry.nextDue).toNat entry balances
    obtain ⟨⟨queue₂, balances₂⟩, h₂⟩ := ih balances₁
    exact bind_returns h₁ (bind_returns h₂ ⟨_, rfl⟩)

/-- A month whose next year is still in the calendar can be projected. -/
theorem simulateMonth_returns {today : Int} (scenario : Scenario) (overlays : Overlays) (p : Projection)
    {n : Nat} (hlow : 1 ≤ today) (hhigh : monthOf today + n + 13 ≤ monthAfterLast) :
    ∃ p', simulateMonth today scenario overlays p n = .ok p' := by
  have hfirst : 0 ≤ monthStart (monthOf today) := by
    have h1 : monthOf 1 ≤ monthOf today := monthOf_mono hlow
    exact le_trans (by decide) (monthStart_strictMono.monotone h1)
  have hmono := monthStart_strictMono.monotone (show monthOf today ≤ monthOf today + (n : Int) by omega)
  have hmonthOf : ∀ k : Int, monthOf (monthStart k + 1) = k := fun k => by
    rw [← onMonth_one]
    exact monthOf_onMonth le_rfl
  obtain ⟨monthDate, hdate⟩ := plusMonths_ok (d := monthStart (monthOf today) + 1) (n := n) (by omega)
    (by omega) (by rw [hmonthOf]; omega)
  obtain rfl := plusMonths_first hdate
  obtain ⟨nextMonth, hnext⟩ := plusMonths_ok (d := monthStart (monthOf today + n) + 1) (n := 1) (by omega)
    (by omega) (by rw [hmonthOf]; omega)
  obtain rfl := plusMonths_first hnext
  have hsteps : ∀ d, d ≤ monthStart (monthOf today + n + 1) → ∀ freq, stepDate d freq ≤ dateMax := by
    intro d hd freq
    have h1 : monthOf d ≤ monthOf today + n := by
      have := monthOf_mono hd
      rwa [show monthOf (monthStart (monthOf today + n + 1)) = monthOf today + n from
        monthOf_eq_iff.mpr ⟨monthStart_strictMono (by omega), le_rfl⟩] at this
    have h2 := monthStart_strictMono.monotone (show monthOf d + 13 ≤ monthAfterLast by omega)
    rw [monthStart_monthAfterLast] at h2
    exact le_trans (stepDate_le d freq) h2
  obtain ⟨⟨queue, balances⟩, hwalk⟩ := walkQueue_returns scenario n
    (monthStart (monthOf today + n) + 1) hsteps p.queue p.balances
  unfold simulateMonth
  rw [startOfHorizon, onMonth_one]
  refine bind_returns hdate (bind_returns hnext ?_)
  rw [Int.add_sub_cancel]
  exact bind_returns hwalk ⟨_, rfl⟩

/-- The dates a scenario names lie in the calendar, every payment of a financing too. -/
def Scenario.InCalendar (today : Int) : Scenario → Prop
  | .trip _ => True
  | .purchase params => ∀ financing ∈ params.financing, ∀ first ∈ financing.firstPaymentDate,
      1 ≤ first ∧ monthOf first + financing.termMonths ≤ monthAfterLast
  | .custom events => ∀ ev ∈ events, ∀ month : Int,
      ((∃ amount account, ev = .oneOffIncome month amount account) ∨
        ∃ amount account, ev = .oneOffExpense month amount account) →
      0 ≤ month ∧ monthOf today + month < monthAfterLast

theorem oneOffOverlay_returns {start month : Int} {kind : OverlayKind} {amount : ℚ} {accountId : Option Nat}
    {trigger : String} (h : ∃ d, plusMonths start month = .ok d) :
    ∃ overlays, oneOffOverlay start month kind amount accountId trigger = .ok overlays := by
  obtain ⟨d, hd⟩ := h
  cases accountId with
  | none => exact bind_returns hd ⟨_, rfl⟩
  | some account =>
    refine bind_returns hd ?_
    by_cases hpos : 0 < amount
    · exact ⟨_, if_pos hpos⟩
    · exact ⟨_, if_neg hpos⟩

theorem buildOverlayEvents_returns {today : Int} (hlow : 1 ≤ today) {scenario : Scenario}
    (h : scenario.InCalendar today) : ∃ overlays, buildOverlayEvents today scenario = .ok overlays := by
  cases scenario with
  | trip params => exact ⟨_, rfl⟩
  | purchase params =>
    show ∃ overlays, purchaseOverlays params = .ok overlays
    unfold purchaseOverlays
    split
    · exact ⟨_, rfl⟩
    · dsimp only
      split
      · exact ⟨_, rfl⟩
      · rename_i financing hfin
        split
        · rename_i first account hfirst haccount
          obtain ⟨h1, h2⟩ := h financing hfin first hfirst
          split
          · have hpay : ∃ payments, financingOverlays first (amortizedMonthlyPayment financing.principal
                financing.annualRatePct financing.termMonths) account financing.termMonths = .ok payments := by
              refine mapM_returns fun i hi => ?_
              have := List.mem_range.mp hi
              obtain ⟨paid, hpaid⟩ := plusMonths_ok (d := first) (n := i) h1 (by omega) (by omega)
              exact bind_returns hpaid ⟨_, rfl⟩
            obtain ⟨payments, hpayments⟩ := hpay
            exact bind_returns hpayments ⟨_, rfl⟩
          · exact ⟨_, rfl⟩
        · exact ⟨_, rfl⟩
  | custom events =>
    have hstart : 1 ≤ startOfHorizon today ∧ monthOf (startOfHorizon today) = monthOf today := by
      rw [startOfHorizon, monthOf_onMonth le_rfl, onMonth_one]
      have h1 : monthOf 1 ≤ monthOf today := monthOf_mono hlow
      have h2 : (0 : Int) ≤ monthStart (monthOf 1) := by decide
      have h3 := monthStart_strictMono.monotone h1
      exact ⟨by omega, rfl⟩
    have hdays : ∀ month : Int, 0 ≤ month ∧ monthOf today + month < monthAfterLast →
        ∃ d, plusMonths (startOfHorizon today) month = .ok d := fun month hm =>
      plusMonths_ok hstart.1 hm.1 (by rw [hstart.2]; exact hm.2)
    have hall : ∃ overlays, events.mapM (customOverlay (startOfHorizon today)) = .ok overlays := by
      refine mapM_returns fun ev hev => ?_
      have hev := h ev hev
      cases ev with
      | incomeOff _ _ => exact ⟨_, rfl⟩
      | expenseOff _ _ _ => exact ⟨_, rfl⟩
      | recurringOn => exact ⟨_, rfl⟩
      | oneOffIncome month amount account =>
        exact oneOffOverlay_returns (hdays month (hev month (.inl ⟨amount, account, rfl⟩)))
      | oneOffExpense month amount account =>
        exact oneOffOverlay_returns (hdays month (hev month (.inr ⟨amount, account, rfl⟩)))
    obtain ⟨overlays, hoverlays⟩ := hall
    exact bind_returns hoverlays ⟨_, rfl⟩

/-! ## The engine -/

/-- What a projection promises. -/
structure Projects (today : Int) (state : WorldState) (scenario : Scenario) (horizon : Nat) : Prop where
  /-- Every point is the starting balance with the change of its months. -/
  points : ∀ {overlays result}, buildOverlayEvents today scenario = .ok overlays →
    simulate today state scenario horizon = .ok result →
    result.perAccountSeries = state.accounts.map (fun a => ⟨a.accountId, a.accountName, a.currency,
      (List.range horizon).map (fun m : Nat => ⟨monthOf today + m, quantize (a.startingBalance +
        projectedChange today state scenario overlays a.accountId (m + 1))⟩)⟩)
  /-- A longer horizon has the same earlier months, and the same warnings in them. -/
  longer : ∀ {more result}, simulate today state scenario (horizon + more) = .ok result →
    ∃ shorter, simulate today state scenario horizon = .ok shorter ∧
      shorter.perAccountSeries = result.perAccountSeries.map
        (fun s => { s with points := s.points.take horizon }) ∧
      shorter.alerts <+: result.alerts
  /-- The engine raises only where the calendar gives out: not if the scenario's dates lie
  in it and it goes on for a year after the horizon. -/
  returns : 1 ≤ today → scenario.InCalendar today → monthOf today + horizon + 12 ≤ monthAfterLast →
    ∃ result, simulate today state scenario horizon = .ok result

section Engine

variable {today : Int} {state : WorldState} {scenario : Scenario} {horizon : Nat}

theorem startingBalance_of_mem {a : AccountSnapshot} (h : a ∈ state.accounts) :
    startingBalance state a.accountId = some a.startingBalance := by
  have hrow : rowAt AccountSnapshot.accountId state.accounts a.accountId = some a :=
    state.keyed.rowAt_eq_some.mpr ⟨h, rfl⟩
  rw [startingBalance, hrow]
  rfl

theorem simulate_points {overlays : Overlays} {result : ProjectionResult}
    (hover : buildOverlayEvents today scenario = .ok overlays)
    (h : simulate today state scenario horizon = .ok result) :
    result.perAccountSeries = state.accounts.map (fun a => ⟨a.accountId, a.accountName, a.currency,
      (List.range horizon).map (fun m : Nat => ⟨monthOf today + m, quantize (a.startingBalance +
        projectedChange today state scenario overlays a.accountId (m + 1))⟩)⟩) := by
  unfold simulate at h
  obtain ⟨overlays', hover', h⟩ := bind_eq_ok.mp h
  obtain rfl : overlays = overlays' := Except.ok.inj (hover.symm.trans hover')
  obtain ⟨p, hp, h⟩ := bind_eq_ok.mp h
  rw [← Except.ok.inj h]
  refine List.map_congr_left fun a ha => ?_
  rw [(Projected.run hp).series a.accountId a.startingBalance (startingBalance_of_mem ha)]

theorem simulate_longer {more : Nat} {result : ProjectionResult}
    (h : simulate today state scenario (horizon + more) = .ok result) :
    ∃ shorter, simulate today state scenario horizon = .ok shorter ∧
      shorter.perAccountSeries = result.perAccountSeries.map
        (fun s => { s with points := s.points.take horizon }) ∧
      shorter.alerts <+: result.alerts := by
  have hlong := h
  unfold simulate at h
  obtain ⟨overlays, hover, h⟩ := bind_eq_ok.mp h
  obtain ⟨p, hp, h⟩ := bind_eq_ok.mp h
  obtain ⟨p₀, hp₀, hpre⟩ := loop_shorter hp
  have hshort : simulate today state scenario horizon = .ok
      { horizonMonths := horizon, alerts := p₀.alerts
        perAccountSeries := state.accounts.map (fun a =>
          ⟨a.accountId, a.accountName, a.currency, p₀.seriesByAccount a.accountId⟩) } := by
    unfold simulate
    exact bind_eq_ok.mpr ⟨overlays, hover, bind_eq_ok.mpr ⟨p₀, hp₀, rfl⟩⟩
  refine ⟨_, hshort, ?_, ?_⟩
  · -- both series are the same function of the month
    rw [simulate_points hover hshort, simulate_points hover hlong, List.map_map]
    refine List.map_congr_left fun a _ => ?_
    dsimp only [Function.comp_apply]
    rw [← List.map_take, List.take_range, min_eq_left (by omega)]
  · rw [← Except.ok.inj h]
    exact hpre

theorem simulate_returns (hlow : 1 ≤ today) (hscenario : scenario.InCalendar today)
    (hhigh : monthOf today + horizon + 12 ≤ monthAfterLast) :
    ∃ result, simulate today state scenario horizon = .ok result := by
  obtain ⟨overlays, hover⟩ := buildOverlayEvents_returns hlow hscenario
  have hloop : ∀ n : Nat, n ≤ horizon → ∃ p, (List.range n).foldlM (simulateMonth today scenario overlays)
      (initialProjection state) = .ok p := by
    intro n
    induction n with
    | zero => intro _; exact ⟨_, rfl⟩
    | succ n ih =>
      intro hn
      obtain ⟨p, hp⟩ := ih (by omega)
      obtain ⟨p', hp'⟩ := simulateMonth_returns scenario overlays p (n := n) hlow
        (by omega)
      rw [List.range_succ, List.foldlM_append]
      exact bind_returns hp (bind_returns hp' ⟨_, rfl⟩)
  obtain ⟨p, hp⟩ := hloop horizon le_rfl
  exact bind_returns hover (bind_returns hp ⟨_, rfl⟩)

/-- Scenarios compared over one world state come out as each does alone. -/
theorem compareScenarios_eq_ok : ∀ {scenarios : List Scenario} {results : List ProjectionResult},
    compareScenarios today state scenarios horizon = .ok results ↔
      List.Forall₂ (fun scenario result => simulate today state scenario horizon = .ok result)
        scenarios results := by
  intro scenarios
  induction scenarios with
  | nil =>
    intro results
    rw [List.forall₂_nil_left_iff]
    exact ⟨fun h => (Except.ok.inj h).symm, fun h => h ▸ rfl⟩
  | cons scenario scenarios ih =>
    intro results
    unfold compareScenarios at ih ⊢
    rw [List.mapM_cons, bind_eq_ok]
    constructor
    · intro h
      obtain ⟨result, hresult, h⟩ := h
      obtain ⟨rest, hrest, h⟩ := bind_eq_ok.mp h
      obtain rfl := Except.ok.inj h
      exact .cons hresult (ih.mp hrest)
    · intro h
      cases h with
      | cons hresult hrest => exact ⟨_, hresult, bind_eq_ok.mpr ⟨_, ih.mpr hrest, rfl⟩⟩

end Engine

end BetterDecision
