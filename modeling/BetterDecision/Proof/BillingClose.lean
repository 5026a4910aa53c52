import BetterDecision.Proof.Roster

/-!
# Closing a period, and catching up

`closePeriod_spec` is one close. The rest is the scheduler: every round of
`converge` closes one period and asks for the same date, so what moves it forward
is the clamp. The measure is `behind`, the number of starts strictly between the
open row and the boundary. A round that does not reach the boundary opens the
earliest of them.
-/

namespace BetterDecision

open Calendar

/-! ## The cycle window -/

theorem one_le_cycleDay (c : CycleDay) : (1 : Int) ≤ (c.val : Int) := by
  have := c.property.1
  omega

/-- The cycle of a day does not start after it. -/
theorem currentCycleWindow_le (c : CycleDay) (today : Int) : (currentCycleWindow c today).1 ≤ today := by
  unfold currentCycleWindow
  dsimp only
  split
  · have h : snapToCycle (addMonths today (-1)) c < onMonth (monthOf today) (dayOf today) := by
      unfold snapToCycle
      rw [monthOf_addMonths]
      exact onMonth_lt_onMonth (by omega) (dayOf_pos today)
    rw [onMonth_monthOf] at h
    omega
  · omega

theorem boundaryOf_le (db : Db) (orgId : Nat) (today : Int) : boundaryOf db orgId today ≤ today :=
  currentCycleWindow_le _ _

theorem boundaryOf_congr {db db' : Db} (h : db'.organizations = db.organizations) (orgId : Nat)
    (today : Int) : boundaryOf db' orgId today = boundaryOf db orgId today := by
  unfold boundaryOf cycleDayOf
  rw [h]

/-! ## One close -/

theorem applyCloseStep_spec {db : Db} {orgId o : Nat} {op : BillingPeriod} {requested : Int}
    (h : Tiled db orgId o op) (hle : op.startDate ≤ requested) :
    ∃ db' o' op', applyCloseStep db orgId o op requested = .ok (db', o') ∧ Tiled db' orgId o' op' ∧
      op'.startDate = resolveCloseDate db orgId op requested + 1 ∧
      Closed db db' orgId o op (resolveCloseDate db orgId op requested) o' := by
  obtain ⟨h1, -, h3⟩ := resolveCloseDate_spec db orgId hle
  unfold applyCloseStep
  dsimp only
  generalize resolveCloseDate db orgId op requested = r at h1 h3 ⊢
  have hex : ∀ j, (periodAt db orgId (r + 1)).map Prod.fst = some j →
      ∃ q, PeriodRow db orgId j q ∧ q.startDate = r + 1 := by
    intro j hj
    obtain ⟨⟨i, q⟩, hq, rfl⟩ := Option.map_eq_some_iff.mp hj
    exact ⟨q, periodAt_some hq⟩
  rcases commitClose_spec h h1 (.inr h3) hex with hok | ⟨herr, hnone⟩
  · exact hok
  · -- nobody else writes: a row at the new start would have been revived
    exfalso
    have hat := periodAt_eq_none.mp (Option.map_eq_none_iff.mp hnone)
    obtain ⟨n, hre⟩ := reanchor_self db orgId op.startDate (some r)
    rw [hnone] at herr
    unfold commitClose insertPeriod at herr
    rw [hre] at herr
    simp only [bind, Except.bind] at herr
    split at herr
    · rename_i p hp
      obtain ⟨hrow, hs⟩ := periodAt_some (i := p.1) (p := p.2) hp
      obtain ⟨q, hq, he⟩ := periodRow_setPeriodEnd.mp hrow
      refine hat _ q hq ?_
      rw [he] at hs
      split at hs <;> exact hs
    · cases herr

/-- **`close_period` on a tiled roster.** It closes the open row on the clamped date,
which lies between the open row's start and the date asked for. -/
theorem closePeriod_spec {db : Db} {orgId o : Nat} {op : BillingPeriod} (closeDate : Option Int)
    (today : Int) (h : Tiled db orgId o op)
    (hlo : op.startDate ≤ requestedCloseDate closeDate today)
    (hhi : requestedCloseDate closeDate today ≤ today) :
    ∃ db' o' op' r, closePeriod db orgId closeDate today = .ok (db', o', some o) ∧
      Tiled db' orgId o' op' ∧ op'.startDate = r + 1 ∧ Closed db db' orgId o op r o' ∧
      r = resolveCloseDate db orgId op (requestedCloseDate closeDate today) := by
  obtain ⟨db', o', op', hstep, ht, hs, hc⟩ := applyCloseStep_spec h hlo
  refine ⟨db', o', op', _, ?_, ht, hs, hc, rfl⟩
  unfold closePeriod
  rw [h.getCurrentPeriod]
  simp only [refuse, not_lt.mpr hhi, not_lt.mpr hlo, if_false, found, h.row.1, bind, Except.bind,
    h.isOpen, hstep]

/-! ## Catching up -/

/-- The starts strictly between `start` and `boundary`: rows the open one has still to
step over. -/
def startsBetween (db : Db) (orgId : Nat) (start boundary : Int) : Finset Int :=
  ((periodsOf db orgId).map (fun p => p.2.startDate)).toFinset.filter
    (fun s => start < s ∧ s < boundary)

/-- How many of them there are. -/
def behind (db : Db) (orgId : Nat) (start boundary : Int) : Nat :=
  (startsBetween db orgId start boundary).card

theorem mem_startsBetween {db : Db} {orgId : Nat} {start boundary s : Int} :
    s ∈ startsBetween db orgId start boundary ↔
      (∃ i p, PeriodRow db orgId i p ∧ p.startDate = s) ∧ start < s ∧ s < boundary := by
  simp only [startsBetween, Finset.mem_filter, List.mem_toFinset, List.mem_map, Prod.exists,
    mem_periodsOf]

/-- A close that stops short of the boundary has one start fewer to step over. -/
theorem behind_close {db db' : Db} {orgId o o' : Nat} {op op' : BillingPeriod} {r boundary : Int}
    (ht : Tiled db' orgId o' op') (hs : op'.startDate = r + 1) (hc : Closed db db' orgId o op r o')
    (hr : r = resolveCloseDate db orgId op (boundary - 1)) (hlt : op.startDate < boundary) :
    op.startDate < op'.startDate ∧ op'.startDate ≤ boundary ∧
      (op'.startDate < boundary →
        behind db' orgId op'.startDate boundary + 1 ≤ behind db orgId op.startDate boundary) := by
  obtain ⟨h1, h2, -⟩ := resolveCloseDate_spec db orgId
    (show op.startDate ≤ boundary - 1 by omega)
  rw [← hr] at h1 h2
  refine ⟨by omega, by omega, fun hshort => ?_⟩
  -- short of the boundary, so the clamp took the next start
  have hnext : nextPeriodStart db orgId op.startDate = some op'.startDate := by
    unfold resolveCloseDate at hr
    rcases hn : nextPeriodStart db orgId op.startDate with _ | s0
    · rw [hn] at hr
      dsimp only at hr
      omega
    · rw [hn] at hr
      dsimp only at hr
      split at hr
      · congr 1
        omega
      · omega
  have hmem : op'.startDate ∈ startsBetween db orgId op.startDate boundary :=
    mem_startsBetween.mpr ⟨(nextPeriodStart_eq_some.mp hnext).2.1, by omega, hshort⟩
  have hsub : startsBetween db' orgId op'.startDate boundary ⊆
      (startsBetween db orgId op.startDate boundary).erase op'.startDate := by
    intro s hsm
    obtain ⟨⟨i, p, hp, rfl⟩, hlo, hhi⟩ := mem_startsBetween.mp hsm
    refine Finset.mem_erase.mpr ⟨by omega, mem_startsBetween.mpr ⟨?_, by omega, hhi⟩⟩
    rcases hc.new i p hp with rfl | ⟨q, hq⟩
    · obtain rfl := Option.some.inj (ht.row.1.symm.trans hp.1)
      exact absurd hlo (lt_irrefl _)
    · obtain ⟨p', hp', he⟩ := hc.kept i q hq
      obtain rfl := Option.some.inj (hp'.1.symm.trans hp.1)
      exact ⟨i, q, hq, he.symm⟩
  have hcard := Finset.card_le_card hsub
  rw [Finset.card_erase_of_mem hmem] at hcard
  have hpos := Finset.card_pos.mpr ⟨_, hmem⟩
  unfold behind
  omega

theorem startOf_row {db : Db} {orgId i : Nat} {p : BillingPeriod} (h : PeriodRow db orgId i p) :
    startOf db i = p.startDate := by
  simp only [startOf, h.1]

theorem isDue_iff {db : Db} {orgId o : Nat} {op : BillingPeriod} (h : Tiled db orgId o op) (today : Int) :
    isDue db orgId today = true ↔ op.startDate < boundaryOf db orgId today := by
  unfold isDue
  rw [h.getCurrentPeriod]
  simp

/-- What the convergence loop has done from the open row `op`, with `rounds` rounds left:
the rows it closed, in order, and where the open row is now. -/
structure Converged (db db' : Db) (orgId : Nat) (op op' : BillingPeriod) (boundary : Int) (rounds : Nat)
    (ids : List Nat) : Prop where
  /-- No row is lost and no start moves. -/
  kept : ∀ i p, PeriodRow db orgId i p → ∃ p', PeriodRow db' orgId i p' ∧ p'.startDate = p.startDate
  /-- Every round closes a row that starts later than the one before. -/
  increasing : (ids.map (startOf db')).Pairwise (· < ·)
  /-- From the open row up to the row that is open now. -/
  between : ∀ i ∈ ids, op.startDate ≤ startOf db' i ∧ startOf db' i < op'.startDate
  capped : ids.length ≤ rounds
  le : op.startDate ≤ op'.startDate
  atMost : op'.startDate ≤ boundary
  /-- Stopped short, the loop has used all its rounds, and each stepped over one start. -/
  short : op'.startDate < boundary → ids.length = rounds ∧
    behind db' orgId op'.startDate boundary + rounds ≤ behind db orgId op.startDate boundary
  organizations : db'.organizations = db.organizations

/-- **The loop converges.** By induction on the rounds left. -/
theorem converge_spec {orgId : Nat} {today boundary : Int} (hb : boundary ≤ today) :
    ∀ (rounds : Nat) {db : Db} {o : Nat} {op : BillingPeriod} (closed : List Nat),
      boundaryOf db orgId today = boundary → Tiled db orgId o op → op.startDate < boundary →
      ∃ db' ids o' op', converge orgId (boundary - 1) today rounds db closed = .ok (db', closed ++ ids) ∧
        Tiled db' orgId o' op' ∧ Converged db db' orgId op op' boundary rounds ids
  | 0, db, o, op, closed, _, h, hlt => by
      refine ⟨db, [], o, op, by simp [converge], h, ?_⟩
      exact ⟨fun i p hp => ⟨p, hp, rfl⟩, by simp, by simp, by simp, le_rfl, hlt.le,
        fun _ => ⟨rfl, by omega⟩, rfl⟩
  | rounds + 1, db, o, op, closed, hbd, h, hlt => by
      obtain ⟨db₁, o₁, op₁, r, hclose, ht, hs, hc, hr⟩ :=
        closePeriod_spec (some (boundary - 1)) today h
          (by simp only [requestedCloseDate, Option.getD_some]; omega)
          (by simp only [requestedCloseDate, Option.getD_some]; omega)
      obtain ⟨hadv, hle, hcount⟩ := behind_close ht hs hc hr hlt
      have hbd₁ : boundaryOf db₁ orgId today = boundary := (boundaryOf_congr hc.organizations _ _).trans hbd
      obtain ⟨p₁, hp₁, hst₁⟩ := hc.kept o op h.row
      have hstep : converge orgId (boundary - 1) today (rounds + 1) db closed =
          if isDue db₁ orgId today then converge orgId (boundary - 1) today rounds db₁ (closed ++ [o])
          else .ok (db₁, closed ++ [o]) := by
        rw [converge, h.getCurrentPeriod]
        simp only [bind, Except.bind, hclose, startOf_row ht.row, not_le.mpr hadv, if_false,
          Option.toList_some]
      rw [hstep]
      by_cases hdue : op₁.startDate < boundary
      · rw [if_pos ((isDue_iff ht today).mpr (hbd₁ ▸ hdue))]
        obtain ⟨db₂, ids, o₂, op₂, hrec, ht₂, hcv⟩ := converge_spec hb rounds (closed ++ [o]) hbd₁ ht hdue
        obtain ⟨p₂, hp₂, hst₂⟩ := hcv.kept o p₁ hp₁
        have hso : startOf db₂ o = op.startDate := by rw [startOf_row hp₂, hst₂, hst₁]
        refine ⟨db₂, o :: ids, o₂, op₂, by rw [hrec, List.append_assoc]; rfl, ht₂, ?_⟩
        refine ⟨?_, ?_, ?_, ?_, ?_, hcv.atMost, ?_, hcv.organizations.trans hc.organizations⟩
        · intro i p hp
          obtain ⟨q, hq, he⟩ := hc.kept i p hp
          obtain ⟨q', hq', he'⟩ := hcv.kept i q hq
          exact ⟨q', hq', he'.trans he⟩
        · rw [List.map_cons, List.pairwise_cons]
          refine ⟨?_, hcv.increasing⟩
          intro s hsm
          obtain ⟨i, hi, rfl⟩ := List.mem_map.mp hsm
          have := (hcv.between i hi).1
          omega
        · intro i hi
          have h2 := hcv.le
          rcases List.mem_cons.mp hi with rfl | hi
          · omega
          · have := hcv.between i hi
            omega
        · have := hcv.capped
          simp only [List.length_cons]
          omega
        · have := hcv.le
          omega
        · intro hshort
          obtain ⟨h3, h4⟩ := hcv.short hshort
          have := hcount hdue
          simp only [List.length_cons]
          omega
      · rw [if_neg (fun hd => hdue (hbd₁ ▸ (isDue_iff ht today).mp hd))]
        refine ⟨db₁, [o], o₁, op₁, rfl, ht, hc.kept, by simp, ?_, by simp, by omega, hle,
          fun hshort => absurd hshort hdue, hc.organizations⟩
        intro i hi
        obtain rfl := List.mem_singleton.mp hi
        rw [startOf_row hp₁]
        omega

/-- One run of the job from an open row short of the boundary. -/
theorem runBillingClose_spec {db : Db} {orgId o : Nat} {op : BillingPeriod} (today : Int)
    (h : Tiled db orgId o op) (hlt : op.startDate < boundaryOf db orgId today) :
    ∃ db' ids o' op', runBillingClose db orgId today = .ok (db', ids) ∧ Tiled db' orgId o' op' ∧
      Converged db db' orgId op op' (boundaryOf db orgId today) maxConvergenceSteps ids := by
  obtain ⟨db', ids, o', op', hrun, ht, hcv⟩ :=
    converge_spec (boundaryOf_le db orgId today) maxConvergenceSteps [] rfl h hlt
  exact ⟨db', ids, o', op', hrun, ht, hcv⟩

/-- A tick that is not due writes nothing. -/
theorem ticks_idle {orgId o : Nat} {op : BillingPeriod} {boundary : Int} {db : Db}
    (h : Tiled db orgId o op) (hge : boundary ≤ op.startDate) :
    ∀ (todays : List Int), (∀ t ∈ todays, boundaryOf db orgId t = boundary) →
      run (tickBillingClose orgId) db todays = db
  | [], _ => rfl
  | t :: todays, hbd => by
      have hidle : ¬ isDue db orgId t = true := by
        rw [isDue_iff h, hbd t List.mem_cons_self]
        omega
      have hserve : serve (tickBillingClose orgId) db t = db := by
        refine serve_of_ok ?_
        unfold tickBillingClose
        rw [h.getCurrentPeriod]
        exact if_neg hidle
      rw [run_cons, hserve]
      exact ticks_idle h hge todays fun t ht => hbd t (List.mem_cons_of_mem _ ht)

/-- **Ticks converge.** While the boundary stays put, every tick either reaches it or steps
over `maxConvergenceSteps` starts. -/
theorem ticks_spec {orgId : Nat} {boundary : Int} :
    ∀ (todays : List Int) {db : Db} {o : Nat} {op : BillingPeriod}, Tiled db orgId o op →
      op.startDate < boundary → (∀ t ∈ todays, boundaryOf db orgId t = boundary) →
      ∃ o' op', Tiled (run (tickBillingClose orgId) db todays) orgId o' op' ∧
        (op'.startDate = boundary ∨ op'.startDate < boundary ∧
          behind (run (tickBillingClose orgId) db todays) orgId op'.startDate boundary
            + maxConvergenceSteps * todays.length ≤ behind db orgId op.startDate boundary)
  | [], db, o, op, h, hlt, _ => ⟨o, op, h, .inr ⟨hlt, by simp⟩⟩
  | t :: todays, db, o, op, h, hlt, hbd => by
      have hbt := hbd t List.mem_cons_self
      obtain ⟨db₁, ids, o₁, op₁, hrun, ht₁, hcv⟩ := runBillingClose_spec t h (hbt ▸ hlt)
      rw [hbt] at hcv
      have hserve : serve (tickBillingClose orgId) db t = db₁ := by
        refine serve_of_ok ?_
        unfold tickBillingClose
        rw [h.getCurrentPeriod]
        simp only [(isDue_iff h t).mpr (hbt ▸ hlt), if_true, hrun, Except.map]
      have hbd₁ : ∀ t ∈ todays, boundaryOf db₁ orgId t = boundary := fun t ht =>
        (boundaryOf_congr hcv.organizations _ _).trans (hbd t (List.mem_cons_of_mem _ ht))
      rw [run_cons, hserve]
      rcases Int.lt_or_le op₁.startDate boundary with h₁ | h₁
      · obtain ⟨o', op', ht', hreach⟩ := ticks_spec todays ht₁ h₁ hbd₁
        refine ⟨o', op', ht', hreach.imp_right fun ⟨hlt', hcount⟩ => ⟨hlt', ?_⟩⟩
        have := (hcv.short h₁).2
        rw [List.length_cons, Nat.mul_succ]
        omega
      · rw [ticks_idle ht₁ h₁ todays hbd₁]
        exact ⟨o₁, op₁, ht₁, .inl (le_antisymm hcv.atMost h₁)⟩

/-- **Closing keeps the roster a tiling, and the scheduler catches up.** On a sound roster
every accepted close date is closed on, clamped, and leaves a sound roster; a run of the job
advances the open row in each round, within its cap; and ticks within one cycle, enough of
them to step over the starts in between, end with the open row on the boundary. -/
theorem close_keeps_roster_and_converges {db : Db} {orgId o : Nat} {op : BillingPeriod}
    (hs : Sound db orgId) (hrow : PeriodRow db orgId o op) (hopen : op.endDate = none) :
    (∀ closeDate today, op.startDate ≤ requestedCloseDate closeDate today →
      requestedCloseDate closeDate today ≤ today →
      ∃ db' o' r, closePeriod db orgId closeDate today = .ok (db', o', some o) ∧ Sound db' orgId ∧
        op.startDate ≤ r ∧ r ≤ requestedCloseDate closeDate today ∧ Closed db db' orgId o op r o') ∧
    (∀ today, op.startDate < boundaryOf db orgId today →
      ∃ db' ids o' op', runBillingClose db orgId today = .ok (db', ids) ∧ Sound db' orgId ∧
        PeriodRow db' orgId o' op' ∧ op'.endDate = none ∧
        Converged db db' orgId op op' (boundaryOf db orgId today) maxConvergenceSteps ids) ∧
    (∀ boundary todays, op.startDate < boundary → (∀ t ∈ todays, boundaryOf db orgId t = boundary) →
      Sound (run (tickBillingClose orgId) db todays) orgId ∧
      (behind db orgId op.startDate boundary < maxConvergenceSteps * todays.length →
        ∃ o' op', PeriodRow (run (tickBillingClose orgId) db todays) orgId o' op' ∧
          op'.endDate = none ∧ op'.startDate = boundary)) := by
  obtain ⟨o₁, op₁, h⟩ := hs.tiled
  obtain rfl : o = o₁ := hs.open_unique _ _ _ _ hrow h.row hopen h.isOpen
  obtain rfl := Option.some.inj (hrow.1.symm.trans h.row.1)
  refine ⟨?_, ?_, ?_⟩
  · intro closeDate today hlo hhi
    obtain ⟨db', o', op', r, hclose, ht, -, hc, hr⟩ := closePeriod_spec closeDate today h hlo hhi
    obtain ⟨h1, h2, -⟩ := resolveCloseDate_spec db orgId hlo
    exact ⟨db', o', r, hclose, ht.sound, hr ▸ h1, hr ▸ h2, hc⟩
  · intro today hlt
    obtain ⟨db', ids, o', op', hrun, ht, hcv⟩ := runBillingClose_spec today h hlt
    exact ⟨db', ids, o', op', hrun, ht.sound, ht.row, ht.isOpen, hcv⟩
  · intro boundary todays hlt hbd
    obtain ⟨o', op', ht, hreach⟩ := ticks_spec todays h hlt hbd
    refine ⟨ht.sound, fun hcount => ⟨o', op', ht.row, ht.isOpen, ?_⟩⟩
    rcases hreach with hat | ⟨-, hshort⟩
    · exact hat
    · omega

/-- An org whose open row, of 2024-06-01, is two cycles behind on 2024-08-12, with the stub of
the cycle in between. -/
def lapsedOrg : Db where
  organizations := Table.empty.insert {}
  billingPeriods := (Table.empty.insert { orgId := 1, startDate := 739038 }).insert
    { orgId := 1, startDate := 739068, endDate := some 739098 }

theorem lapsedOrg_converges :
    Sound (run (tickBillingClose 1) lapsedOrg [739110, 739111]) 1 ∧
    ∃ o' op', PeriodRow (run (tickBillingClose 1) lapsedOrg [739110, 739111]) 1 o' op' ∧
      op'.endDate = none ∧ op'.startDate = 739099 := by
  have hs : Sound lapsedOrg 1 := by decide
  have hrow : PeriodRow lapsedOrg 1 1 { orgId := 1, startDate := 739038 } := ⟨rfl, rfl⟩
  obtain ⟨hsound, hreach⟩ := (close_keeps_roster_and_converges hs hrow rfl).2.2 739099 [739110, 739111]
    (by decide) (by decide)
  exact ⟨hsound, hreach (by decide)⟩

end BetterDecision
